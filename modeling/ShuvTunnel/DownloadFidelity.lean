/-
# What is written to a public socket

A client sends what its channels read in frames of one WebSocket, each
channel's under its number. The object takes them one after the other, finds
the channel of the number, and writes the payload to its public socket; the
end closes that socket's writer, a reset aborts it. So what each socket is
written is a beginning of what its own channel wrote, and all of it where the
writer is closed.

Key definitions: `ClientMessage.effect`, `Download`, `Library`.
Key theorems: `message_becomes`, `Download.deliver`, `Download.proceed`,
`download_fidelity`.
-/
import ShuvTunnel.Network
import ShuvTunnel.RustSession
import ShuvTunnel.TypeScriptSession

namespace ShuvTunnel

open Coop
open Hop (Carries Sender)

/-! ### A message and the channel of its number -/

/-- What the message does to its channel. -/
def ClientMessage.effect (m : ClientMessage) (x : Channel) : Channel :=
  match m with
  | dataFrame _ payload => x.write payload
  | endConn _ => x.finish false
  | resetConn _ _ => x.finish true
  | _ => x

/-- A channel that is over and whose writer is not active stays as it is. -/
theorem ClientMessage.effect_over (m : ClientMessage) {x : Channel} (hf : x.finished = true) (hw : x.writer ≠ .active) :
    m.effect x = x := by
  have hfinish : ∀ error, x.finish error = x := fun error => by
    unfold Channel.finish
    exact if_pos hf
  cases m with
  | dataFrame conn payload => exact if_neg hw
  | endConn conn => exact hfinish false
  | resetConn conn code => exact hfinish true
  | _ => rfl

theorem lookup_eq_find? {β : Type*} (l : List (ℕ × β)) (k : ℕ) : l.lookup k = (l.find? fun p => p.1 = k).map (·.2) := by
  induction l with
  | nil => rfl
  | cons p l ih =>
    obtain ⟨j, b⟩ := p
    by_cases hk : k = j
    · subst hk
      rw [List.lookup_cons_self, List.find?_cons_of_pos (by simp)]
      rfl
    · have hk' : (k == j) = false := by simpa using hk
      rw [List.lookup_cons, hk', ih, List.find?_cons_of_neg (by simpa using Ne.symm hk)]

/-- A number of an `end` or a `reset` names the channel that it names in a frame. -/
theorem ownChannel_natCast (b : Bridges) (w conn : ℕ) : Store.ownChannel b w (conn : ℚ) =
    (b.channel conn).bind fun c => if c.bridge = w then some c.key else none := by
  have hcast : (fun p : ℕ × ℕ => decide ((p.1 : ℚ) = (conn : ℚ))) = fun p => decide (p.1 = conn) := by
    funext p
    simp
  unfold Store.ownChannel Bridges.channel
  rw [hcast, lookup_eq_find?]
  cases b.channels.find? fun p => p.1 = conn <;> rfl

/-- A connection that is not over is the channel of its number. -/
theorem Bridges.Owned.channel {b : Bridges} (h : b.Owned) {key : ℕ} {x : Channel} (hx : b.connection key = some x)
    (hf : x.finished = false) : b.channel x.conn = some x := by
  unfold Bridges.channel
  rw [lookup_of_mem h.numbers (h.unfinished key x hx hf)]
  exact hx

/-- The channel a message is for is the connection, or another one; then the
connection has another number or is over. -/
theorem own_cases {b : Bridges} (h : b.Owned) {key w : ℕ} {x : Channel} (hx : b.connection key = some x)
    (hw : x.bridge = w) (conn : ℕ) : Store.ownChannel b w (conn : ℚ) = some key ∧ conn = x.conn ∨
      Store.ownChannel b w (conn : ℚ) ≠ some key ∧ (conn = x.conn → x.finished = true) := by
  by_cases hown : Store.ownChannel b w (conn : ℚ) = some key
  · refine .inl ⟨hown, ?_⟩
    obtain ⟨n, c, hn, hmem, hc, -⟩ := ownChannel_eq_some hown
    obtain ⟨c', hc', hconn, -⟩ := h.entry _ hmem
    obtain rfl := Option.some.inj (hc.symm.trans hc')
    obtain rfl := Option.some.inj (hx.symm.trans hc)
    rw [hconn]
    exact_mod_cast hn.symm
  · refine .inr ⟨hown, fun hconn => ?_⟩
    by_contra hf
    rw [ownChannel_natCast, hconn, h.channel hx (by simpa using hf), Option.bind_some, if_pos hw, connection_key hx] at hown
    exact hown rfl

/-- A message of an attached socket: a frame, or a control message. -/
theorem attached_message {P : Platform} {s : Store} {w : ℕ} {y : Socket} (hy : s.bridges.socket w = some y)
    (ha : y.attached = true) :
    (∀ data, s.webSocketMessage P w (.binary data) = some (s.dataFrame w data)) ∧
      ∀ fields type, ((Json.obj fields).field "type").bind Json.string? = some type →
        s.webSocketMessage P w (.text (some (.obj fields))) = some (s.attachedControl P w type (.obj fields)) := by
  obtain ⟨att, hatt, hattached⟩ := (Option.any_eq_true _ _).mp ha
  refine ⟨fun data => ?_, fun fields type htype => ?_⟩
  · unfold Store.webSocketMessage
    rw [hy]
    simp [hatt, hattached]
  · obtain ⟨j, hj, hstr⟩ := Option.bind_eq_some_iff.mp htype
    have hcontrol : parseControl (some (.obj fields)) = some (.obj fields) := rfl
    unfold Store.webSocketMessage
    rw [hy]
    simp [hatt, hattached, hcontrol, hj, hstr]

/-- What a client's message makes of a connection of its bridge. -/
theorem message_becomes {P : Platform} {s s' : Store} {w : ℕ} {y : Socket} {m : ClientMessage}
    {o : Outcome Task Result} (h : s.webSocketMessage P w m.message = some (s', o)) (hb : s.bridges.Owned)
    (hy : s.bridges.socket w = some y) (ha : y.attached = true) (hm : ∀ k, m.conn? = some k → k < 2 ^ 32) {key : ℕ}
    {x : Channel} (hx : s.bridges.connection key = some x) (hw : x.bridge = w)
    (hover : x.finished = true → x.writer ≠ .active) :
    s'.bridges.connection key = some (if m.conn? = some x.conn then m.effect x else x) := by
  obtain ⟨hbinary, htext⟩ := attached_message (P := P) hy ha
  -- the message does `act` to the channel it is for
  have acts : ∀ (conn : ℕ) (act : ℕ → Bridges), m.conn? = some conn →
      (∀ k, (act k).connection key = if key = k then some (m.effect x) else some x) →
      (Store.ownChannel s.bridges w (conn : ℚ)).elim (s, .done .void)
        (fun k => (s.withBridges (act k), Outcome.done Result.void)) = (s', o) →
      s'.bridges.connection key = some (if m.conn? = some x.conn then m.effect x else x) := fun conn act hc hact he => by
    rcases own_cases hb hx hw conn with ⟨hown, hconn⟩ | ⟨hown, hconn⟩
    · rw [hown] at he
      obtain ⟨rfl, -⟩ := Prod.mk.inj he
      rw [if_pos (by rw [hc, hconn])]
      exact (hact key).trans (if_pos rfl)
    · have hsame : (if m.conn? = some x.conn then m.effect x else x) = x := by
        split
        · rename_i heq
          have hf := hconn (Option.some.inj (hc.symm.trans heq))
          exact m.effect_over hf (hover hf)
        · rfl
      rw [hsame]
      cases hk : Store.ownChannel s.bridges w (conn : ℚ) with
      | some k =>
        rw [hk] at he
        obtain ⟨rfl, -⟩ := Prod.mk.inj he
        exact (hact k).trans (if_neg fun hkk : key = k => hown (hkk ▸ hk))
      | none =>
        rw [hk] at he
        obtain ⟨rfl, -⟩ := Prod.mk.inj he
        exact hx
  cases m with
  | attach token routes =>
    rw [show (ClientMessage.attach token routes).message = .text _ from rfl, htext _ "attach" rfl] at h
    obtain ⟨rfl, -⟩ := Prod.mk.inj (Option.some.inj h)
    exact hx
  | ping time_sent =>
    rw [show (ClientMessage.ping time_sent).message = .text _ from rfl, htext _ "ping" rfl] at h
    have h := (attachedControl_ping rfl).symm.trans (Option.some.inj h)
    cases hs : s.bridges.send P w (.pong time_sent) with
    | none =>
      rw [hs] at h
      obtain ⟨rfl, -⟩ := Prod.mk.inj h
      exact hx
    | some b =>
      rw [hs] at h
      obtain ⟨rfl, -⟩ := Prod.mk.inj h
      exact ((Bridges.sameChannels_send hs).connection key).trans hx
  | endConn conn =>
    rw [show (ClientMessage.endConn conn).message = .text _ from rfl, htext _ "end" rfl] at h
    refine acts conn (fun k => s.bridges.finish k false) rfl (fun k => ?_)
      ((attachedControl_finish rfl false).symm.trans (Option.some.inj h))
    rw [Bridges.finish_connection, hx]
    split <;> rfl
  | resetConn conn code =>
    rw [show (ClientMessage.resetConn conn code).message = .text _ from rfl, htext _ "reset" rfl] at h
    refine acts conn (fun k => s.bridges.finish k true) rfl (fun k => ?_)
      ((attachedControl_finish rfl true).symm.trans (Option.some.inj h))
    rw [Bridges.finish_connection, hx]
    split <;> rfl
  | dataFrame conn payload =>
    rw [show (ClientMessage.dataFrame conn payload).message = .binary _ from rfl, hbinary] at h
    refine acts conn (fun k => s.bridges.write k payload) rfl (fun k => ?_) ?_
    · rw [Bridges.write_connection, hx]
      split <;> rfl
    · rw [ownChannel_natCast, ← Option.some.inj h]
      unfold Store.dataFrame
      rw [parseDataFrame_build (hm conn rfl)]
      simp only
      cases hc : s.bridges.channel conn with
      | none => rfl
      | some c =>
        rw [Option.bind_some]
        by_cases hcw : c.bridge = w
        · simp only [if_pos hcw, Option.elim]
        · simp only [if_neg hcw, Option.elim]

/-! ### One connection -/

/-- A connection of the bridge, beside its channel `v` at the client and what of
that is under way. Until it is over all is written; then what was written stays. -/
structure Download (v : ChannelView) (severed : Bool) (x : Channel) (ps : List (Hop.Piece UInt8)) : Prop where
  unfinished : x.finished = false → x.writer = .active ∧
    Carries v.wrote v.unsent (if severed then v.sender.cut else v.sender) x.written.flatten ps
  finished : x.finished = true → x.writer ≠ .active
  isPrefix : x.written.flatten <+: v.wrote
  closed : x.writer = .closed → v.sender = .ended ∧ x.written.flatten = v.wrote

namespace Download

variable {v v' : ChannelView} {severed : Bool} {x : Channel} {ps qs : List (Hop.Piece UInt8)}

/-- A new connection, which the client knows nothing of. -/
theorem start {b : Bridges} {w conn : ℕ} (severed : Bool) :
    Download .fresh severed (b.newChannel w conn) [] := by
  refine ⟨fun _ => ⟨rfl, ?_⟩, fun h => (nomatch h), List.nil_prefix, fun h => (nomatch h)⟩
  have hstart : Carries ChannelView.fresh.wrote ChannelView.fresh.unsent ChannelView.fresh.sender [] [] := .start []
  cases severed with
  | false => exact hstart
  | true => exact hstart.lose (List.prefix_refl _)

/-- The connection is over, with what was written so far. -/
theorem finish (h : Download v severed x ps) (hf : x.finished = false) (error : Bool) {qs : List (Hop.Piece UInt8)}
    (hend : error = false → v.sender = .ended ∧ x.written.flatten = v.wrote) :
    Download v severed (x.finish error) qs := by
  have hx : x.finish error = { x with finished := true, writer := if error then .aborted else .closed } := by
    unfold Channel.finish
    exact if_neg (by simp [hf])
  rw [hx]
  refine ⟨fun h => (nomatch h), fun _ => ?_, h.isPrefix, fun hc => ?_⟩
  · cases error <;> simp
  · cases error with
    | false => exact hend rfl
    | true => cases hc

/-- The object breaks it off. -/
theorem abort (h : Download v severed x ps) : Download v severed (x.finish true) ps := by
  by_cases hf : x.finished = true
  · have hx : x.finish true = x := if_pos hf
    rw [hx]
    exact h
  · exact h.finish (by simpa using hf) true fun he => nomatch he

/-- A message of the client arrives. -/
theorem deliver {m : ClientMessage} {conn : ℕ} (hm : m.conn? = some conn) (h : Download v severed x (m.piece :: ps)) :
    Download v severed (m.effect x) ps := by
  by_cases hf : x.finished = true
  · rw [m.effect_over hf (h.finished hf)]
    exact ⟨fun ho => absurd (hf.symm.trans ho) (by decide), h.finished, h.isPrefix, h.closed⟩
  · have hf : x.finished = false := by simpa using hf
    obtain ⟨hactive, hc⟩ := h.unfinished hf
    cases m with
    | attach token routes => cases hm
    | ping time_sent => cases hm
    | dataFrame conn payload =>
      have hx : x.write payload = { x with written := x.written ++ [payload] } := if_pos hactive
      have hc : Carries v.wrote v.unsent (if severed then v.sender.cut else v.sender) (x.write payload).written.flatten
          ps := by
        rw [hx, List.flatten_append, List.flatten_singleton]
        exact hc.take
      refine ⟨fun _ => ⟨(x.write_writer payload).trans hactive, hc⟩, fun ho => ?_, hc.arrived, fun ho => ?_⟩
      · rw [show (ClientMessage.dataFrame _ payload).effect x = x.write payload from rfl, x.write_finished, hf] at ho
        cases ho
      · rw [show (ClientMessage.dataFrame _ payload).effect x = x.write payload from rfl, x.write_writer, hactive] at ho
        cases ho
    | endConn conn =>
      refine h.finish hf false fun _ => ?_
      obtain ⟨hs, hw⟩ := hc.ended
      refine ⟨?_, hw⟩
      split at hs
      · exact Sender.cut_eq_ended.mp hs
      · exact hs
    | resetConn conn code => exact h.finish hf true fun he => nomatch he

/-- The client goes on; what it sends follows what is under way, unless that way
is broken off. -/
theorem proceed (h : Download v severed x ps) (hw : v.wrote <+: v'.wrote)
    (hended : v.sender = .ended → v'.sender = .ended ∧ v'.wrote = v.wrote)
    (hc : ∀ got ps, Carries v.wrote v.unsent v.sender got ps →
      Carries v'.wrote v'.unsent v'.sender got (ps ++ qs)) :
    Download v' severed x (if severed then ps else ps ++ qs) := by
  refine ⟨fun hf => ?_, h.finished, h.isPrefix.trans hw, fun hclosed => ?_⟩
  · obtain ⟨hactive, hcarries⟩ := h.unfinished hf
    refine ⟨hactive, ?_⟩
    cases severed with
    | false => exact hc _ _ hcarries
    | true => exact hcarries.apart hw hended
  · obtain ⟨hs, he⟩ := h.closed hclosed
    obtain ⟨hs', hw'⟩ := hended hs
    exact ⟨hs', he.trans hw'.symm⟩

/-- The way from the client breaks off. -/
theorem sever (h : Download v severed x ps) (hq : qs <+: ps) : Download v true x qs := by
  refine ⟨fun hf => ?_, h.finished, h.isPrefix, h.closed⟩
  obtain ⟨hactive, hc⟩ := h.unfinished hf
  refine ⟨hactive, ?_⟩
  have hlost := hc.lose hq
  cases severed with
  | false => exact hlost
  | true =>
    rw [if_pos rfl, Sender.cut_cut] at hlost
    exact hlost

end Download

/-! ### The connections of the bridge -/

namespace Network

variable {C : Peer} {F : C.Faithful} {S : Site} {n n' : Network C}

/-- Every connection of the bridge is as it should be. -/
def Downloads (S : Site) (n : Network C) : Prop :=
  ∀ key x, n.object.store.bridges.connection key = some x → x.bridge = S.bridge →
    Download (C.channel n.client x.conn) n.severed x (pieces x.conn n.wire)

/-- Of a connection that is entered now the client knows nothing. -/
theorem Downloads.enter (hb : n.Base S) (hh : n.Heard F) {a : Action} {s : State}
    (ha : (tunnelObject S.P).step n.object a = some s) (hu : s.store.bridges.Unreused S.bridge) {x : Channel}
    (hx : s.store.bridges.connection n.object.store.bridges.nextConnection = some x) (hw : x.bridge = S.bridge) :
    C.channel n.client x.conn = .fresh ∧ pieces x.conn n.wire = [] := by
  have hno := unspoken hb ha hu hx hw
  have hunknown : x.conn ∉ opened (n.log.take n.taken) := fun hmem => by
    obtain ⟨m, hm, ho⟩ := mem_opened.mp hmem
    exact hno m (List.mem_of_mem_take hm) (ServerMessage.conn?_of_opens ho)
  exact ⟨F.unknown hh.ok hunknown, pieces_of_forall_ne fun m hm hc => hunknown (hh.wire m hm _ hc)⟩

/-- The object goes on without a message of the bridge. -/
theorem Downloads.object (h : n.Downloads S) (hb : n.Base S) (hh : n.Heard F) {a : Action} {s : State}
    (hno : ∀ m, a ≠ .call (.webSocketMessage S.bridge m)) (ha : (tunnelObject S.P).step n.object a = some s)
    (hu : s.store.bridges.Unreused S.bridge) {key : ℕ} {x : Channel} (hx : s.store.bridges.connection key = some x)
    (hw : x.bridge = S.bridge) : Download (C.channel n.client x.conn) n.severed x (pieces x.conn n.wire) := by
  rcases step_entered ha hx with ⟨y, hy, hyx⟩ | ⟨k, ans, t, -, -, henters⟩
  · have hyw : y.bridge = S.bridge := hyx.bridge.symm.trans hw
    have hold := h key y hy hyw
    rw [hyx.conn]
    rcases step_stays ha hy with hsame | habort | ⟨m, he⟩
    · obtain rfl := Option.some.inj (hx.symm.trans hsame)
      exact hold
    · obtain rfl := Option.some.inj (hx.symm.trans habort)
      exact hold.abort
    · exact absurd (hyw ▸ he) (hno m)
  · obtain ⟨hfresh, hpieces⟩ := Downloads.enter hb hh ha hu (henters.next ▸ hx) hw
    rw [hfresh, hpieces, henters.fresh]
    exact .start n.severed

/-- The object takes the next message of the client. -/
theorem Downloads.deliver (h : n.Downloads S) (hb : n.Base S) (hh : n.Heard F) {m : ClientMessage}
    {wire : List ClientMessage} (hwire : n.wire = m :: wire) {s : State}
    (ha : (tunnelObject S.P).step n.object (.call (.webSocketMessage S.bridge m.message)) = some s) {key : ℕ}
    {x : Channel} (hx : s.store.bridges.connection key = some x) (hw : x.bridge = S.bridge) :
    Download (C.channel n.client x.conn) n.severed x (pieces x.conn wire) := by
  rcases step_entered ha hx with ⟨y, hy, hyx⟩ | ⟨k, ans, t, he, -, -⟩
  · have hyw : y.bridge = S.bridge := hyx.bridge.symm.trans hw
    have hold := h key y hy hyw
    rw [hwire] at hold
    obtain ⟨⟨z, o⟩, h1, rfl⟩ := Option.map_eq_some_iff.mp ha
    obtain ⟨w, hsocket, -⟩ := Option.map_eq_some_iff.mp h1
    have hserved := ((uploads_of_reachable hb.object).served key y hy).2 w (hyw ▸ hsocket)
    have hnumber : ∀ k, m.conn? = some k → k < 2 ^ 32 := fun k hk => by
      obtain ⟨m', hm', ho⟩ := mem_opened.mp (hh.wire m (by rw [hwire]; exact List.mem_cons_self) k hk)
      obtain ⟨key', y', hy', -, rfl⟩ := hb.about m' (List.mem_of_mem_take hm') k (ServerMessage.conn?_of_opens ho)
      exact numbers_of_reachable hb.object key' y' hy'
    have hbecomes := message_becomes h1 (owned_of_reachable hb.object) hsocket hserved hnumber hy hyw hold.finished
    rw [settle_store] at hx
    rw [hyx.conn]
    obtain rfl := Option.some.inj (hx.symm.trans hbecomes)
    split
    · rename_i hc
      rw [pieces_cons_of_eq hc] at hold
      exact hold.deliver hc
    · rename_i hc
      rw [pieces_cons_of_ne hc] at hold
      exact hold
  · cases he

/-- The client goes on. -/
theorem Downloads.proceed (h : n.Downloads S) {ms : List ClientMessage} (hp : Proceeds F n n' ms) : n'.Downloads S := by
  intro key x hx hw
  rw [hp.object] at hx
  have hold := (h key x hx hw).proceed (hp.emits.wrote x.conn) (hp.emits.ended x.conn) (hp.emits.carries x.conn)
  rw [hp.severed, hp.wire]
  by_cases hsevered : n.severed = true
  · rw [if_pos hsevered] at hold ⊢
    exact hold
  · rw [if_neg hsevered] at hold ⊢
    rw [pieces_append]
    exact hold

theorem Downloads.step {μ : NetworkMove C} (h : n.Downloads S) (hb : n.Base S) (hh : n.Heard F)
    (hu : n'.object.store.bridges.Unreused S.bridge) (hs : n.step S μ = some n') : n'.Downloads S := by
  cases kind_of_step hb hs with
  | aside he =>
    rw [he]
    exact h
  | object hno ha he =>
    intro key x hx hw
    have hnew := h.object hb hh hno ha hu hx hw
    rw [he]
    exact hnew
  | deliver hwire ha he =>
    intro key x hx hw
    have hnew := h.deliver hb hh hwire ha hx hw
    rw [he]
    exact hnew
  | sever he =>
    rw [he]
    intro key x hx hw
    exact (h key x hx hw).sever (pieces_mono (List.take_prefix _ _))
  | take hm hp he =>
    rw [he]
    exact h.proceed (hh.take hb hm hp)
  | client hp he =>
    rw [he]
    exact h.proceed (hh.move hp)

/-- Where no number is used twice, every connection is as it should be. -/
theorem downloads_of_reached (F : C.Faithful) (h : n.Reached S) (hu : n.object.store.bridges.Unreused S.bridge) :
    n.Downloads S := by
  refine (h.invariant (I := fun n => n.Base S ∧ (n.object.store.bridges.Unreused S.bridge →
    n.Heard F ∧ n.Downloads S)) ?_ fun n μ n' hn hs => ?_).2 hu |>.2
  · rintro n ⟨now, rfl⟩
    exact ⟨base_initial now, fun _ => ⟨heard_initial now, fun _ _ hx => nomatch hx⟩⟩
  · obtain ⟨hb, hinv⟩ := hn
    refine ⟨hb.step hs, fun hu => ?_⟩
    obtain ⟨hh, hd⟩ := hinv (hu.of_moves (moves_of_step hs))
    exact ⟨hh.step hb hu hs, hd.step hb hh hu hs⟩

end Network

/-! ### Both clients -/

/-- The peer a library makes. -/
def Library.peer (U : Unicode) (o : Options) : Library → Peer
  | rust => Rust.peer o
  | typescript => TypeScript.peer U o

/-- Both are faithful. -/
def Library.faithful (U : Unicode) (o : Options) : (L : Library) → (L.peer U o).Faithful
  | rust => Rust.faithful o
  | typescript => TypeScript.faithful U o

/-- Where no number is used twice: what a public socket was written is a
beginning of what the channel of its connection wrote, and all of it, with the
end sent, once its writer is closed. The frames of the client are small, and
their numbers survive the header. -/
theorem download_fidelity {S : Site} {U : Unicode} {o : Options} {L : Library} {n : Network (L.peer U o)}
    (h : n.Reached S) (hu : n.object.store.bridges.Unreused S.bridge) :
    (∀ key x, n.object.store.bridges.connection key = some x → x.bridge = S.bridge →
      x.written.flatten <+: ((L.peer U o).channel n.client x.conn).wrote ∧
        (x.writer = .closed → ((L.peer U o).channel n.client x.conn).sender = .ended ∧
          x.written.flatten = ((L.peer U o).channel n.client x.conn).wrote)) ∧
      (∀ m stalled p, n.log[n.taken]? = some m → (L.peer U o).take n.client m stalled = some p →
        ∀ conn payload, .dataFrame conn payload ∈ p.2 → payload.length ≤ MAX_PAYLOAD_SIZE) ∧
      (∀ μ p, (L.peer U o).move n.client μ = some p →
        ∀ conn payload, .dataFrame conn payload ∈ p.2 → payload.length ≤ MAX_PAYLOAD_SIZE) ∧
      ∀ conn < 2 ^ 32, ∀ payload, parseDataFrame (buildDataFrame conn payload) = some (conn, payload) ∧
        Rust.decode_data_frame (Rust.encode_data_frame conn payload) = some (conn, payload) := by
  have hd := Network.downloads_of_reached (L.faithful U o) h hu
  have hb := Network.base_of_reached h
  have hh : n.Heard (L.faithful U o) := Network.heard_of_reached h hu
  refine ⟨fun key x hx hw => ?_, fun m stalled p hm hp => (hh.take hb hm hp).emits.small,
    fun μ p hp => (hh.move hp).emits.small, fun conn hc payload => ?_⟩
  · have hdown := hd key x hx hw
    exact ⟨hdown.isPrefix, hdown.closed⟩
  · exact ⟨parseDataFrame_build hc payload, decode_data_frame_build hc payload⟩

/-- Two connections; the channel of the first writes three bytes and ends. -/
def downloadRun : List (NetworkMove (Rust.peer plainOptions)) :=
  (provisioned "csr" ++ [fetching]).map .object ++
    [.client .attach, .deliver, .object (.resume 3 .ok), .object (.resume 3 (.drawn "" "1")), .take false,
      .accept, .accept, .peer 0 (.arrive tunnelHello), .peer 1 (.arrive tunnelHello),
      .peer 0 (.route [tunnelHello]), .peer 1 (.route [tunnelHello]), .peer 0 .replay, .peer 1 .replay,
      .peer 0 (.hello ⟨some "t.d", "", [tunnelHello], none⟩), .peer 1 (.hello ⟨some "t.d", "", [tunnelHello], none⟩),
      .take false, .take false, .take false, .take false,
      .client (.channel 0 (.serve [7, 8, 9])), .client (.channel 1 (.serve [1])), .client (.channel 0 (.read 2)),
      .client (.channel 0 .send), .client (.channel 1 (.read 5)), .client (.channel 1 .send),
      .client (.channel 0 (.read 2)), .client (.channel 0 .send), .client (.channel 0 .shutdown),
      .client (.channel 0 (.read 2)), .client (.channel 0 .send), .deliver, .deliver, .deliver, .deliver]

theorem downloadRun_ends : ((network plainSite (Rust.peer plainOptions)).exec (.initial _ 0) downloadRun).any (fun n =>
    (n.object.store.bridges.connection 0).any (fun x => x.bridge = 0 ∧ x.conn = 1 ∧ x.writer = .closed) &&
      decide (((Rust.peer plainOptions).channel n.client 1).wrote = [7, 8, 9] ∧
        (n.object.store.bridges.connections.map (·.conn)).Nodup)) = true := by
  decide

theorem download_fidelity_two : ∃ (n : Network (Rust.peer plainOptions)) (x : Channel), n.Reached plainSite ∧
    n.object.store.bridges.connection 0 = some x ∧ x.written.flatten = [7, 8, 9] := by
  obtain ⟨n, hn, hends⟩ := (Option.any_eq_true _ _).mp downloadRun_ends
  simp only [Bool.and_eq_true, Option.any_eq_true, decide_eq_true_eq] at hends
  obtain ⟨⟨x, hx, hw, hc, hclosed⟩, hwrote, hnodup⟩ := hends
  have hr := Network.reached_of_exec hn
  have hu := Bridges.unreused_of_nodup hnodup plainSite.bridge
  obtain ⟨hwritten, -⟩ := download_fidelity (U := plainUnicode) (L := .rust) hr hu
  obtain ⟨-, hall⟩ := (hwritten 0 x hx hw).2 hclosed
  rw [hc] at hall
  exact ⟨n, x, hr, hx, hall.trans hwrote⟩

end ShuvTunnel
