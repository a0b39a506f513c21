/-
# What a bridge's socket is told

A socket that is not attached is told nothing but why it may not attach. The
first thing it is told else is that it is attached; and while it is open, the
session and the routes it was told last are those the object holds for it. So a
client that takes the messages in order knows its session before any message
of a connection comes, however the handlers of attach messages overlap.

Key definitions: `Told`, `Tells`.
Key theorems: `Touch.tells`, `attachHashed_tells`, `tells_of_reachable`.
-/
import Mathlib.Data.List.TakeWhile
import ShuvTunnel.Uploads

namespace ShuvTunnel

open Coop

namespace ServerMessage

/-- The message says that the bridge is attached. -/
def isAttached : ServerMessage → Bool
  | attached .. => true
  | _ => false

/-- The message refuses the attach. -/
def isRefusal : ServerMessage → Bool
  | attachError _ => true
  | _ => false

theorem isAttached_of_isRefusal {m : ServerMessage} (h : m.isRefusal = true) : m.isAttached = false := by
  cases m <;> first | rfl | cases h

end ServerMessage

/-- Behind the refusals comes first that the socket is attached. -/
def Greets (sent : List ServerMessage) : Prop :=
  ∀ m ∈ (sent.dropWhile (·.isRefusal)).head?, m.isAttached = true

theorem greets_refusals {sent : List ServerMessage} (h : ∀ m ∈ sent, m.isRefusal = true) : Greets sent := by
  unfold Greets
  rw [List.dropWhile_eq_nil_iff.mpr h]
  exact fun _ hm => nomatch hm

/-- Once it was told, anything may follow. -/
theorem Greets.append {sent ms : List ServerMessage} (h : Greets sent) (ha : ∃ m ∈ sent, m.isAttached = true) :
    Greets (sent ++ ms) := by
  obtain ⟨m, hm, ha⟩ := ha
  have hne : sent.dropWhile (·.isRefusal) ≠ [] := fun he => by
    have := ServerMessage.isAttached_of_isRefusal (List.dropWhile_eq_nil_iff.mp he m hm)
    rw [ha] at this
    cases this
  unfold Greets
  rw [List.dropWhile_append, if_neg (by simpa using hne), List.head?_append_of_ne_nil _ hne]
  exact h

/-- And after refusals it may be told. -/
theorem Greets.attach {sent : List ServerMessage} (h : Greets sent) {m : ServerMessage} (hm : m.isAttached = true) :
    Greets (sent ++ [m]) := by
  by_cases hsent : ∃ a ∈ sent, a.isAttached = true
  · exact h.append hsent
  · unfold Greets at h ⊢
    rw [List.dropWhile_append]
    split
    · intro a ha
      have hm' : m.isRefusal = false := by
        cases m <;> first | rfl | cases hm
      rw [List.dropWhile_cons_of_neg (by simp [hm'])] at ha
      obtain rfl := Option.some.inj ha
      exact hm
    · rename_i hne
      rw [List.head?_append_of_ne_nil _ (by simpa using hne)]
      exact h

/-- What a socket was told. -/
structure Told (x : Socket) : Prop where
  refused : x.attached = false → ∀ m ∈ x.sent, m.isRefusal = true
  attached : x.attached = true → x.isOpen = true → ∃ session routes before after,
    x.attachment = some { attached := true, session := some session, routes := some routes } ∧
      x.sent = before ++ .attached session routes HEARTBEAT_MS IDLE_TIMEOUT_MS :: after ∧
      ∀ m ∈ after, m.isAttached = false
  greets : Greets x.sent

namespace Told

variable {x : Socket}

theorem greeted (h : Told x) (ha : x.attached = true) (ho : x.isOpen = true) : ∃ m ∈ x.sent, m.isAttached = true := by
  obtain ⟨session, routes, before, after, -, hsent, -⟩ := h.attached ha ho
  exact ⟨_, hsent ▸ List.mem_append_right _ List.mem_cons_self, rfl⟩

/-- A socket that was told nothing. -/
theorem silent (ha : x.attached = false) (hs : x.sent = []) : Told x := by
  have hnone : ∀ m ∈ x.sent, m.isRefusal = true := by
    rw [hs]
    exact fun m hm => absurd hm List.not_mem_nil
  refine ⟨fun _ => hnone, fun hyes => ?_, greets_refusals hnone⟩
  rw [ha] at hyes
  cases hyes

theorem close (h : Told x) : Told x.close :=
  ⟨h.refused, fun _ ho => (by simp at ho), h.greets⟩

theorem handled (h : Told x) : Told { x with closeHandled := true } := ⟨h.refused, h.attached, h.greets⟩

/-- An attached socket is sent messages, none of which says that it is attached. -/
theorem send (h : Told x) (ha : x.attached = true) (ho : x.isOpen = true) {ms : List ServerMessage}
    (hm : ∀ m ∈ ms, m.isAttached = false) : Told { x with sent := x.sent ++ ms } := by
  refine ⟨fun hno => ?_, fun _ _ => ?_, h.greets.append (h.greeted ha ho)⟩
  · have hno : x.attached = false := hno
    rw [ha] at hno
    cases hno
  · obtain ⟨session, routes, before, after, hatt, hsent, hlast⟩ := h.attached ha ho
    refine ⟨session, routes, before, after ++ ms, hatt, by simp [hsent], fun m hmem => ?_⟩
    rcases List.mem_append.mp hmem with hmem | hmem
    · exact hlast m hmem
    · exact hm m hmem

/-- A socket is told why it may not attach. -/
theorem refuse (h : Told x) (ho : x.isOpen = true) (code : String) :
    Told { x with sent := x.sent ++ [.attachError code] } := by
  cases ha : x.attached with
  | true => exact h.send ha ho fun m hm => by rw [List.mem_singleton.mp hm]; rfl
  | false =>
    have hsent : ∀ m ∈ x.sent ++ [.attachError code], m.isRefusal = true := fun m hm => by
      rcases List.mem_append.mp hm with hm | hm
      · exact h.refused ha m hm
      · rw [List.mem_singleton.mp hm]
        rfl
    refine ⟨fun _ => hsent, fun hyes => ?_, greets_refusals hsent⟩
    have hyes : x.attached = true := hyes
    rw [ha] at hyes
    cases hyes

/-- A socket is attached, and told so. -/
theorem attach (h : Told x) (session : String) (routes : List String) :
    Told { x with
      attachment := some { attached := true, session := some session, routes := some routes }
      sent := x.sent ++ [.attached session routes HEARTBEAT_MS IDLE_TIMEOUT_MS] } :=
  ⟨fun hno => (nomatch hno), fun _ _ => ⟨session, routes, x.sent, [], rfl, rfl, fun _ hm => (nomatch hm)⟩,
    h.greets.attach rfl⟩

/-- A socket that is not open is attached: nothing can be sent on it. -/
theorem attach_shut (h : Told x) (ho : x.isOpen = false) (session : String) (routes : List String) :
    Told { x with attachment := some { attached := true, session := some session, routes := some routes } } := by
  refine ⟨fun hno => (nomatch hno), fun _ hyes => ?_, h.greets⟩
  have hyes : x.isOpen = true := hyes
  rw [ho] at hyes
  cases hyes

end Told

/-! ### The sockets and the connections -/

/-- Only an attached socket is answered at once. -/
theorem message_unanswered {s s' : Store} {w : ℕ} {m : Message} {o : Outcome Task Result}
    (h : s.webSocketMessage P w m = some (s', o)) (hw : ∀ x, s.bridges.socket w = some x → x.attached = false) :
    s'.bridges = s.bridges ∨ s'.bridges = s.bridges.close w := by
  obtain ⟨x, hx, hm⟩ := Option.map_eq_some_iff.mp h
  have hatt := hw x hx
  have close : s.closing w = (s', o) → s'.bridges = s.bridges ∨ s'.bridges = s.bridges.close w := fun h => by
    obtain ⟨rfl, rfl⟩ := Prod.mk.inj h
    exact .inr rfl
  split at hm
  · exact close hm
  rename_i att hattachment
  have hatt : att.attached = false := by
    rw [Socket.attached, hattachment] at hatt
    exact hatt
  split at hm
  · rw [if_pos (by simp [hatt])] at hm
    exact close hm
  split at hm
  · exact close hm
  rw [if_pos (by simp [hatt])] at hm
  unfold Store.unattachedControl at hm
  split at hm
  · split at hm
    · exact close hm
    · obtain ⟨rfl, rfl⟩ := Prod.mk.inj hm
      exact .inl rfl
  · exact close hm

theorem mem_of_socket {b : Bridges} {w : ℕ} {x : Socket} (h : b.socket w = some x) : x ∈ b.sockets ∧ x.id = w :=
  ⟨List.mem_of_find?_eq_some h, by simpa using List.find?_some h⟩

/-- The connections are those of before, with their bridges. -/
theorem updateConnection_bridges (b : Bridges) (key : ℕ) {f : Channel → Channel}
    (hf : ∀ c, (f c).key = c.key ∧ (f c).bridge = c.bridge) : ∀ c' ∈ (b.updateConnection key f).connections,
      ∃ c ∈ b.connections, c'.key = c.key ∧ c'.bridge = c.bridge := by
  intro c' hc'
  obtain ⟨c, hc, rfl⟩ := List.mem_map.mp hc'
  refine ⟨c, hc, ?_⟩
  split
  · exact hf c
  · exact ⟨rfl, rfl⟩

theorem finish_bridges (b : Bridges) (key : ℕ) (error : Bool) :
    ∀ c' ∈ (b.finish key error).connections, ∃ c ∈ b.connections, c'.key = c.key ∧ c'.bridge = c.bridge := by
  unfold Bridges.finish
  split
  · exact fun c hc => ⟨c, hc, rfl, rfl⟩
  · split
    · exact fun c hc => ⟨c, hc, rfl, rfl⟩
    · exact updateConnection_bridges b key (f := fun c => { c with
        finished := true, writer := if error then .aborted else .closed }) fun _ => ⟨rfl, rfl⟩

/-- What all sockets were told; the bridge of a connection is an attached socket,
if it is still listed. -/
structure Tells (b : Bridges) : Prop where
  sockets : ∀ x ∈ b.sockets, Told x
  bridges : ∀ c ∈ b.connections, c.bridge < b.nextSocket ∧ ∀ x ∈ b.sockets, x.id = c.bridge → x.attached = true

namespace Tells

variable {P : Platform} {b b' : Bridges}

theorem updateSocket (h : Tells b) (id : ℕ) {f : Socket → Socket} (hid : ∀ x, (f x).id = x.id)
    (hatt : ∀ x, x.attached = true → (f x).attached = true) (hf : ∀ x ∈ b.sockets, x.id = id → Told (f x)) :
    Tells (b.updateSocket id f) := by
  refine ⟨fun x hx => ?_, fun c hc => ⟨(h.bridges c hc).1, fun x hx hxc => ?_⟩⟩
  · obtain ⟨y, hy, rfl⟩ := List.mem_map.mp hx
    split
    · rename_i hyid
      exact hf y hy hyid
    · exact h.sockets y hy
  · obtain ⟨y, hy, rfl⟩ := List.mem_map.mp hx
    split at hxc
    · rename_i hyid
      rw [if_pos hyid]
      exact hatt y ((h.bridges c hc).2 y hy ((hid y).symm.trans hxc))
    · rename_i hyid
      rw [if_neg hyid]
      exact (h.bridges c hc).2 y hy hxc

theorem close (h : Tells b) (id : ℕ) : Tells (b.close id) :=
  h.updateSocket id (f := Socket.close) (fun _ => rfl) (fun _ ha => ha) fun x hx _ => (h.sockets x hx).close

/-- Messages are sent on a socket, while it is open. -/
theorem sending (h : Tells b) (hn : b.Numbered) {id : ℕ} {ms : List ServerMessage}
    (hs : Store.sendAll P b id ms = some b')
    (hm : ∀ x ∈ b.sockets, x.id = id → x.isOpen = true → Told { x with sent := x.sent ++ ms }) : Tells b' := by
  cases ho : b.isOpen id with
  | true =>
    rw [Bridges.sendAll_open ho] at hs
    obtain rfl := Option.some.inj hs
    refine h.updateSocket id (f := fun x => { x with sent := x.sent ++ ms }) (fun _ => rfl) (fun _ ha => ha)
      fun x hx hid => hm x hx hid ?_
    rw [← Bridges.isOpen_of_mem hn hx, hid]
    exact ho
  | false =>
    rw [Bridges.sendAll_shut ho hs]
    exact h

/-- Messages of connections, or answers, are sent on an attached socket. -/
theorem sendAll (h : Tells b) (hn : b.Numbered) {id : ℕ} {ms : List ServerMessage}
    (hs : Store.sendAll P b id ms = some b') (ha : ∀ x ∈ b.sockets, x.id = id → x.attached = true)
    (hm : ∀ m ∈ ms, m.isAttached = false) : Tells b' :=
  h.sending hn hs fun x hx hid ho => (h.sockets x hx).send (ha x hx hid) ho hm

theorem send (h : Tells b) (hn : b.Numbered) {id : ℕ} {m : ServerMessage} (hs : b.send P id m = some b')
    (ha : ∀ x ∈ b.sockets, x.id = id → x.attached = true) (hm : m.isAttached = false) : Tells b' :=
  h.sendAll hn (Bridges.sendAll_singleton hs) ha fun n hn => by rw [List.mem_singleton.mp hn]; exact hm

theorem refuse (h : Tells b) (hn : b.Numbered) {id : ℕ} {code : String}
    (hs : b.send P id (.attachError code) = some b') : Tells b' :=
  h.sending hn (Bridges.sendAll_singleton hs) fun x hx _ ho => (h.sockets x hx).refuse ho code

/-- The sockets are those of before, and each connection has the bridge of one
of before. -/
theorem channels (h : Tells b) (hs : b'.sockets = b.sockets) (hn : b'.nextSocket = b.nextSocket)
    (hc : ∀ c' ∈ b'.connections, ∃ c ∈ b.connections, c'.key = c.key ∧ c'.bridge = c.bridge) : Tells b' := by
  refine ⟨hs ▸ h.sockets, fun c' hc' => ?_⟩
  obtain ⟨c, hmem, -, he⟩ := hc c' hc'
  rw [hs, hn, he]
  exact h.bridges c hmem

theorem finish (h : Tells b) (key : ℕ) (error : Bool) : Tells (b.finish key error) := by
  refine h.channels (b.finish_sockets key error) (b.finish_nextSocket key error) ?_
  exact finish_bridges b key error

theorem finishAll (h : Tells b) (p : Channel → Bool) (error : Bool) : Tells (b.finishAll p error) := by
  unfold Bridges.finishAll
  generalize b.channels.map (·.2) = keys
  induction keys generalizing b with
  | nil => exact h
  | cons key keys ih =>
    rw [List.foldl_cons]
    split
    · exact ih (h.finish key error)
    · exact ih h

end Tells

/-! ### The segments -/

theorem openMessages_unattached {conn : ℕ} {hello : Hello} :
    ∀ m ∈ openMessage conn hello :: hello.initial.map (.dataFrame conn), m.isAttached = false := by
  intro m hm
  rcases List.mem_cons.mp hm with rfl | hm
  · rfl
  · obtain ⟨payload, -, rfl⟩ := List.mem_map.mp hm
    rfl

/-- Of the segments of an attach message the last has its own lemma; and of a
`pong` the effect does not tell that the socket is attached. -/
theorem Touch.tells {P : Platform} {b b' : Bridges} {c : Cause} {o : Outcome Task Result} (h : Touch P b c b' o)
    (hb : Tells b) (hn : b.Numbered)
    (hattach : ∀ w token routes r a, c ≠ .resumed (.attachHash w token routes r) a)
    (hpong : ∀ w m, c = .call (.webSocketMessage w m) →
      (∀ x ∈ b.sockets, x.id = w → x.attached = true) ∨ b' = b ∨ b' = b.close w) : Tells b' := by
  have entered : ∀ {route : String} {bridge : Socket} {conn sequence : ℕ},
      b.sockets.find? (fun w => w.claims route) = some bridge →
      (∀ x ∈ b.sockets, x.id = bridge.id → x.attached = true) ∧ Tells (enterChannel b bridge.id conn sequence) := by
    intro route bridge conn sequence hfind
    have hmem := List.mem_of_find?_eq_some hfind
    have hclaims := List.find?_some hfind
    rw [Socket.claims, Bool.and_eq_true] at hclaims
    have hatt : ∀ x ∈ b.sockets, x.id = bridge.id → x.attached = true := fun x hx hid => by
      rw [Bridges.eq_of_id hn hx hmem hid]
      exact hclaims.1
    refine ⟨hatt, hb.sockets, fun x hx => ?_⟩
    rcases List.mem_append.mp hx with hx | hx
    · exact hb.bridges x hx
    · rw [List.mem_singleton.mp hx]
      exact ⟨hn.lt _ (List.mem_map_of_mem hmem), hatt⟩
  have bridge : ∀ {key : ℕ} {x : Channel}, b.connection key = some x →
      ∀ y ∈ b.sockets, y.id = x.bridge → y.attached = true :=
    fun hx => (hb.bridges _ (List.mem_of_find?_eq_some hx)).2
  cases h with
  | still _ _ => exact hb
  | @accepted _ _ position =>
    refine ⟨fun x hx => ?_, fun c hc => ⟨Nat.lt_succ_of_lt (hb.bridges c hc).1, fun x hx hid => ?_⟩⟩
    · rcases List.mem_append.mp hx with hx | hx
      · exact hb.sockets x (List.mem_of_mem_take hx)
      · rcases List.mem_cons.mp hx with rfl | hx
        · exact .silent rfl rfl
        · exact hb.sockets x (List.mem_of_mem_drop hx)
    · rcases List.mem_append.mp hx with hx | hx
      · exact (hb.bridges c hc).2 x (List.mem_of_mem_take hx) hid
      · rcases List.mem_cons.mp hx with rfl | hx
        · exact absurd hid (Nat.ne_of_gt (hb.bridges c hc).1)
        · exact (hb.bridges c hc).2 x (List.mem_of_mem_drop hx) hid
  | closed _ => exact hb.close _
  | refused _ hs => exact (hb.refuse hn hs).close _
  | attached _ _ _ _ => exact absurd rfl (hattach _ _ _ _ _)
  | @ponged w m t _ hs =>
    rcases hpong w m rfl with ha | rfl | rfl
    · exact hb.send hn hs ha rfl
    · exact hb
    · exact hb.close w
  | finished _ _ => exact hb.finish _ _
  | written _ _ _ =>
    refine hb.channels rfl rfl (updateConnection_bridges b _ (f := fun c => if c.writer = .active then
      { c with written := c.written ++ [_] } else c) fun c => ?_)
    split <;> exact ⟨rfl, rfl⟩
  | @closeHandled w _ b₁ _ _ _ _ hb₁ hs =>
    have h₁ : Tells b₁ := hb₁ ▸ hb.updateSocket w (f := fun x => { x with closeHandled := true }) (fun _ => rfl)
      (fun _ ha => ha) fun x hx _ => (hb.sockets x hx).handled
    rcases hs with ⟨rfl, -⟩ | ⟨rfl, -⟩
    · exact h₁
    · exact h₁.finishAll _ _
  | shutDown =>
    have hclosed : Tells { b with sockets := b.sockets.map Socket.close } := by
      refine ⟨fun x hx => ?_, fun c hc => ⟨(hb.bridges c hc).1, fun x hx hid => ?_⟩⟩
      · obtain ⟨y, hy, rfl⟩ := List.mem_map.mp hx
        exact (hb.sockets y hy).close
      · obtain ⟨y, hy, rfl⟩ := List.mem_map.mp hx
        exact (hb.bridges c hc).2 y hy hid
    have hall := hclosed.finishAll (fun _ => true) true
    exact ⟨hall.sockets, hall.bridges⟩
  | opened _ _ _ _ hfind _ hs =>
    obtain ⟨ha, he⟩ := entered hfind
    exact he.sendAll ⟨hn.nodup, hn.lt⟩ hs ha openMessages_unattached
  | openThrown hfind _ _ => exact (entered hfind).2
  | uploaded hx hs => exact hb.send hn hs (bridge hx) rfl
  | uploadEnded hx hs => exact hb.send hn hs (bridge hx) rfl
  | uploadFailed hx _ hs =>
    rcases hs with ⟨rfl, -⟩ | ⟨b₁, hs, rfl⟩
    · exact hb
    · exact (hb.send hn hs (bridge hx) rfl).finish _ _
  | settled _ _ => exact hb

/-- Only a socket that is not open throws. -/
theorem isOpen_of_send_none {P : Platform} {b : Bridges} {id : ℕ} {m : ServerMessage} (h : b.send P id m = none) :
    b.isOpen id = false := by
  cases ho : b.isOpen id with
  | false => rfl
  | true =>
    unfold Bridges.send at h
    rw [if_pos ho] at h
    cases h

/-- The attach message is refused, or the socket is attached and told so. -/
theorem attachHashed_tells {P : Platform} {s s' : Store} {w : ℕ} {token uuid session : String}
    {routes : Option Json} {r : StoredTunnel} {o : Outcome Task Result} (hb : Tells s.bridges)
    (hn : s.bridges.Numbered) (h : s.attachHashed P w token routes r uuid session = some (s', o)) :
    Tells s'.bridges := by
  have attached : ∀ (x : Socket) (session : String) (routes : List String), x.attached = true →
      ({ x with attachment := some { attached := true, session := some session, routes := some routes } }
        : Socket).attached = true := fun _ _ _ _ => rfl
  rcases attachHashed_cases h with ⟨-, code, h⟩ | ⟨b₁, -, rfl, ⟨hthrow, rfl, -⟩ | ⟨b, hs, h⟩⟩
  · unfold Store.attachError at h
    split at h
    · obtain ⟨rfl, -⟩ := Prod.mk.inj h
      exact hb
    · rename_i b hs
      obtain ⟨rfl, -⟩ := Prod.mk.inj h
      exact (hb.refuse hn hs).close w
  · have hshut := isOpen_of_send_none hthrow
    rw [serializeAttachment_isOpen] at hshut
    exact hb.updateSocket w (f := fun x => { x with attachment := some _ }) (fun _ => rfl)
      (fun x ha => attached x _ _ ha) fun x hx hid => (hb.sockets x hx).attach_shut
        (by rw [← Bridges.isOpen_of_mem hn hx, hid]; exact hshut) _ _
  · obtain ⟨hbridges, -⟩ := onAttached_bridges h
    rw [hbridges]
    show Tells b
    cases ho : s.bridges.isOpen w with
    | true =>
      rw [Bridges.send, if_pos (by rw [serializeAttachment_isOpen]; exact ho)] at hs
      obtain rfl := Option.some.inj hs
      have hboth : (s.bridges.serializeAttachment w
          { attached := true, session := some ("sess_" ++ session),
            routes := some (Store.requestedRoutes routes) }).updateSocket w (fun x => { x with
              sent := x.sent ++ [.attached ("sess_" ++ session) (Store.requestedRoutes routes) HEARTBEAT_MS
                IDLE_TIMEOUT_MS] }) =
          s.bridges.updateSocket w fun x => { x with
            attachment := some { attached := true, session := some ("sess_" ++ session),
                                 routes := some (Store.requestedRoutes routes) }
            sent := x.sent ++ [.attached ("sess_" ++ session) (Store.requestedRoutes routes) HEARTBEAT_MS
              IDLE_TIMEOUT_MS] } := by
        unfold Bridges.serializeAttachment Bridges.updateSocket
        rw [List.map_map]
        congr 2
        funext x
        by_cases hx : x.id = w <;> simp [hx]
      rw [hboth]
      exact hb.updateSocket w (f := fun x => { x with attachment := some _, sent := _ }) (fun _ => rfl)
        (fun _ _ => rfl) fun x hx _ => (hb.sockets x hx).attach _ _
    | false =>
      have hb' : b = s.bridges.serializeAttachment w
          { attached := true, session := some ("sess_" ++ session),
            routes := some (Store.requestedRoutes routes) } := by
        refine Bridges.sendAll_shut ?_ (Bridges.sendAll_singleton hs)
        rw [serializeAttachment_isOpen]
        exact ho
      rw [hb']
      exact hb.updateSocket w (f := fun x => { x with attachment := some _ }) (fun _ => rfl)
        (fun x ha => attached x _ _ ha) fun x hx hid => (hb.sockets x hx).attach_shut
          (by rw [← Bridges.isOpen_of_mem hn hx, hid]; exact ho) _ _

theorem environment_tells {P : Platform} {s s' : Store} {e : Event} (h : environment P s e = some s')
    (hb : Tells s.bridges) : Tells s'.bridges := by
  cases e with
  | tick n =>
    obtain rfl := Option.some.inj h
    exact hb
  | peerClose w =>
    obtain rfl := Option.some.inj h
    exact hb.close w
  | forget w =>
    rw [environment] at h
    split at h
    · cases h
    · obtain rfl := Option.some.inj h
      exact ⟨fun x hx => hb.sockets x (List.mem_filter.mp hx).1, fun c hc => ⟨(hb.bridges c hc).1,
        fun x hx => (hb.bridges c hc).2 x (List.mem_filter.mp hx).1⟩⟩
  | workflow id e =>
    obtain ⟨d, -, rfl⟩ := Option.map_eq_some_iff.mp h
    exact hb

/-! ### Every state -/

/-- A message is answered at once only on a socket that is attached. -/
theorem message_tells {P : Platform} {s s' : Store} {w : ℕ} {m : Message} {o : Outcome Task Result}
    (hn : s.bridges.Numbered) (h : s.webSocketMessage P w m = some (s', o)) :
    (∀ x ∈ s.bridges.sockets, x.id = w → x.attached = true) ∨ s'.bridges = s.bridges ∨
      s'.bridges = s.bridges.close w := by
  by_cases hw : ∃ x, s.bridges.socket w = some x ∧ x.attached = true
  · obtain ⟨x, hx, ha⟩ := hw
    obtain ⟨hmem, hid⟩ := mem_of_socket hx
    refine .inl fun y hy hyw => ?_
    rw [Bridges.eq_of_id hn hy hmem (hyw.trans hid.symm)]
    exact ha
  · refine .inr (message_unanswered h fun x hx => ?_)
    cases ha : x.attached with
    | false => rfl
    | true => exact absurd ⟨x, hx, ha⟩ hw

theorem tells_step {P : Platform} {s s' : State} {l : Action} (hn : s.store.bridges.Numbered)
    (hb : Tells s.store.bridges) (h : (tunnelObject P).step s l = some s') : Tells s'.store.bridges := by
  obtain ⟨c, x, o, rfl, h1, rfl⟩ | ⟨k, a, t, x, o, rfl, ht, h1, rfl⟩ | ⟨e, x, rfl, h1, rfl⟩ := step_cases h
  · rw [settle_store]
    have h1 : start P s.store c = some (x, o) := h1
    refine (start_touch h1).tells hb hn (fun _ _ _ _ _ he => nomatch he) fun w m hm => ?_
    cases hm
    exact message_tells hn h1
  · rw [settle_store]
    have h1 : resume P s.store t a = some (x, o) := h1
    by_cases hattach : ∃ w token routes r, t = .attachHash w token routes r
    · obtain ⟨w, token, routes, r, rfl⟩ := hattach
      cases a with
      | drawn uuid session => exact attachHashed_tells hb hn h1
      | _ => cases h1
    · refine (resume_touch h1).tells hb hn (fun w token routes r a he => ?_) fun _ _ he => nomatch he
      exact hattach ⟨w, token, routes, r, (Cause.resumed.inj he).1⟩
  · exact environment_tells h1 hb

theorem tells_of_reachable {P : Platform} {s : State} (h : Reachable P s) : Tells s.store.bridges := by
  refine (Lts.Reachable.invariant (I := fun s => Reachable P s ∧ Tells s.store.bridges) ?_ ?_ h).2
  · rintro s ⟨now, rfl⟩
    exact ⟨.of_init ⟨now, rfl⟩, fun _ hx => (nomatch hx), fun _ hc => nomatch hc⟩
  · intro s a s' hs hstep
    exact ⟨hs.1.step hstep, tells_step (exclusive_of_reachable hs.1).numbered hs.2 hstep⟩

end ShuvTunnel
