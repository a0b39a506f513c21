/-
# The client's end of a bridge

A client takes the server's messages one after the other and sends its own; of
each connection it has a channel, with the bytes it handed to the TLS side and
those the TLS side wrote. `Peer` is what both clients are to the rest of the
system, and `Peer.Faithful` is what they keep: a channel is handed a beginning
of its payloads, and what it writes is carried in its frames (`Hop.Carries`).

Key definitions: `payloads`, `opened`, `ChannelView`, `Peer`, `Emits`,
`Peer.Faithful`.
-/
import ShuvTunnel.Frames
import ShuvTunnel.Resolution

namespace ShuvTunnel

open Hop (Carries Sender)

/-! ### What the server sends about a connection -/

/-- The payload, when the message is a data frame of the connection. -/
def ServerMessage.payload? (n : ℕ) : ServerMessage → Option Bytes
  | dataFrame conn payload => if conn = n then some payload else none
  | _ => none

/-- The payloads of a connection's data frames, one behind the other. -/
def payloads (n : ℕ) (ms : List ServerMessage) : Bytes := (ms.filterMap (·.payload? n)).flatten

theorem payloads_append (n : ℕ) (ms ms' : List ServerMessage) :
    payloads n (ms ++ ms') = payloads n ms ++ payloads n ms' := by
  simp [payloads]

theorem payloads_mono {n : ℕ} {ms ms' : List ServerMessage} (h : ms <+: ms') : payloads n ms <+: payloads n ms' := by
  obtain ⟨rest, rfl⟩ := h
  rw [payloads_append]
  exact List.prefix_append _ _

/-- Messages about others bring a connection nothing. -/
theorem payloads_eq_nil {n : ℕ} {ms : List ServerMessage} (h : ∀ m ∈ ms, m.conn? ≠ some n) : payloads n ms = [] := by
  have hnone : ms.filterMap (·.payload? n) = [] := by
    rw [List.filterMap_eq_nil_iff]
    intro m hm
    cases m with
    | dataFrame conn payload =>
      have hne : conn ≠ n := fun he => h _ hm (congrArg some he)
      exact if_neg hne
    | _ => rfl
  unfold payloads
  rw [hnone]
  rfl

theorem payloads_dataFrame (n conn : ℕ) (payload : Bytes) :
    payloads n [.dataFrame conn payload] = if conn = n then payload else [] := by
  unfold payloads ServerMessage.payload?
  by_cases h : conn = n <;> simp [h]

/-- The connection the message opens. -/
def ServerMessage.opens? : ServerMessage → Option ℕ
  | openConn conn .. => some conn
  | _ => none

/-- The connections that some messages open. -/
def opened (ms : List ServerMessage) : List ℕ := ms.filterMap (·.opens?)

theorem opened_append (ms ms' : List ServerMessage) : opened (ms ++ ms') = opened ms ++ opened ms' := by
  simp [opened]

theorem mem_opened {n : ℕ} {ms : List ServerMessage} : n ∈ opened ms ↔ ∃ m ∈ ms, m.opens? = some n := by
  simp [opened]

theorem ServerMessage.conn?_of_opens {m : ServerMessage} {n : ℕ} (h : m.opens? = some n) : m.conn? = some n := by
  cases m <;> simp_all [opens?, conn?]

/-! ### Clients -/

/-- A client's channel of a connection: what it handed to the TLS side, what
the TLS side wrote, and of that what is not sent yet. -/
structure ChannelView where
  handed : Bytes
  wrote : Bytes
  unsent : Bytes
  sender : Sender

/-- No channel, or a new one. -/
def ChannelView.fresh : ChannelView := ⟨[], [], [], .live⟩

/-- What a client is configured with. -/
structure Options where
  hostname : String
  token : String
  routes : List String

/-- A client's session on a bridge. `take` takes the next message of the
server, when the session is ready for it; its last argument tells whether the
message waited too long for the channel. `move` is all else that happens. Both
give what the session sends. -/
structure Peer where
  Session : Type
  Move : Type
  start : Session
  take : Session → ServerMessage → Bool → Option (Session × List ClientMessage)
  move : Session → Move → Option (Session × List ClientMessage)
  channel : Session → ℕ → ChannelView

/-- Of each connection, what is sent carries on with what its channel wrote. -/
structure Emits (v v' : ℕ → ChannelView) (known : List ℕ) (ms : List ClientMessage) : Prop where
  carries : ∀ n got ps, Carries (v n).wrote (v n).unsent (v n).sender got ps →
    Carries (v' n).wrote (v' n).unsent (v' n).sender got (ps ++ pieces n ms)
  wrote : ∀ n, (v n).wrote <+: (v' n).wrote
  ended : ∀ n, (v n).sender = .ended → (v' n).sender = .ended ∧ (v' n).wrote = (v n).wrote
  known : ∀ m ∈ ms, ∀ n, m.conn? = some n → n ∈ known
  small : ∀ conn payload, .dataFrame conn payload ∈ ms → payload.length ≤ MAX_PAYLOAD_SIZE

/-- What a client keeps, whatever comes. -/
structure Peer.Faithful (C : Peer) where
  /-- Of a session that was told of these connections. -/
  Ok : C.Session → List ℕ → Prop
  /-- Of a channel that was sent these bytes. -/
  Receives : C.Session → ℕ → Bytes → Prop
  start : Ok C.start []
  unknown : ∀ {s known n}, Ok s known → n ∉ known → C.channel s n = .fresh
  receives_unknown : ∀ {s known n}, Ok s known → n ∉ known → Receives s n []
  handed : ∀ {s n whole}, Receives s n whole → (C.channel s n).handed <+: whole
  take : ∀ {s known m stalled s' ms}, Ok s known → C.take s m stalled = some (s', ms) →
    (∀ n, m.conn? = some n → n < 2 ^ 32) → (∀ n, m.opens? = some n → n ∉ known) →
    Ok s' (known ++ opened [m]) ∧ Emits (C.channel s) (C.channel s') (known ++ opened [m]) ms ∧
      ∀ n whole, (m.opens? = some n → whole = []) → Receives s n whole → Receives s' n (whole ++ payloads n [m])
  move : ∀ {s known μ s' ms}, Ok s known → C.move s μ = some (s', ms) →
    Ok s' known ∧ Emits (C.channel s) (C.channel s') known ms ∧
      ∀ n whole, Receives s n whole → Receives s' n whole

/-! ### Emissions -/

namespace Emits

variable {v v' : ℕ → ChannelView} {known : List ℕ} {ms : List ClientMessage}

/-- The channels write and send nothing, and some may break off; what is sent is
news of breaks. -/
theorem quiet (h : ∀ n, (v' n).wrote = (v n).wrote ∧
      ((v' n).unsent = (v n).unsent ∧ (v' n).sender = (v n).sender ∨ (v n).sender ≠ .ended ∧ (v' n).sender = .dead))
    (hms : ∀ m ∈ ms, ∀ n, m.conn? = some n → n ∈ known ∧ m.piece = .abort) : Emits v v' known ms := by
  refine ⟨fun n got ps hc => ?_, fun n => ?_, fun n he => ?_, fun m hm n hn => (hms m hm n hn).1,
    fun conn payload hm => ?_⟩
  · have habort : ∀ q ∈ pieces n ms, q = .abort := fun q hq => by
      obtain ⟨m, hm, rfl⟩ := List.mem_map.mp hq
      obtain ⟨hm, hn⟩ := List.mem_filter.mp hm
      exact (hms m hm n (by simpa using hn)).2
    obtain ⟨hw, ⟨hu, hs⟩ | ⟨hne, hs⟩⟩ := h n
    · rw [hw, hu, hs]
      exact hc.abort habort
    · rw [hw, hs]
      exact (hc.breaks hne _).abort habort
  · rw [(h n).1]
  · obtain ⟨hw, ⟨-, hs⟩ | ⟨hne, -⟩⟩ := h n
    · rw [hs]
      exact ⟨he, hw⟩
    · exact absurd he hne
  · have hbreak := (hms _ hm conn rfl).2
    cases hbreak

theorem refl (v : ℕ → ChannelView) (known : List ℕ) : Emits v v known [] :=
  quiet (fun _ => ⟨rfl, .inl ⟨rfl, rfl⟩⟩) fun _ hm => nomatch hm

/-- One emission behind the other. -/
theorem trans {v'' : ℕ → ChannelView} {ms' : List ClientMessage} (h : Emits v v' known ms)
    (h' : Emits v' v'' known ms') : Emits v v'' known (ms ++ ms') := by
  refine ⟨fun n got ps hc => ?_, fun n => (h.wrote n).trans (h'.wrote n), fun n he => ?_, fun m hm => ?_,
    fun conn payload hm => ?_⟩
  · rw [pieces_append, ← List.append_assoc]
    exact h'.carries n got _ (h.carries n got ps hc)
  · obtain ⟨he', hw⟩ := h.ended n he
    obtain ⟨he'', hw'⟩ := h'.ended n he'
    exact ⟨he'', hw'.trans hw⟩
  · rcases List.mem_append.mp hm with hm | hm
    · exact h.known m hm
    · exact h'.known m hm
  · rcases List.mem_append.mp hm with hm | hm
    · exact h.small conn payload hm
    · exact h'.small conn payload hm

/-- One channel goes on, the others stay as they are. -/
theorem single {n : ℕ} (hother : ∀ k, k ≠ n → v' k = v k) (hn : n ∈ known)
    (habout : ∀ m ∈ ms, m.conn? = some n)
    (hsmall : ∀ conn payload, .dataFrame conn payload ∈ ms → payload.length ≤ MAX_PAYLOAD_SIZE)
    (hc : ∀ got ps, Carries (v n).wrote (v n).unsent (v n).sender got ps →
      Carries (v' n).wrote (v' n).unsent (v' n).sender got (ps ++ pieces n ms))
    (hw : (v n).wrote <+: (v' n).wrote)
    (he : (v n).sender = .ended → (v' n).sender = .ended ∧ (v' n).wrote = (v n).wrote) :
    Emits v v' known ms := by
  refine ⟨fun k got ps h => ?_, fun k => ?_, fun k h => ?_, fun m hm k hk => ?_, hsmall⟩
  · by_cases hk : k = n
    · subst hk
      exact hc got ps h
    · rw [hother k hk, pieces_of_forall_ne fun m hm => ?_, List.append_nil]
      · exact h
      · rw [habout m hm]
        exact fun he => hk (Option.some.inj he).symm
  · by_cases hk : k = n
    · subst hk
      exact hw
    · rw [hother k hk]
  · by_cases hk : k = n
    · subst hk
      exact he h
    · rw [hother k hk]
      exact ⟨h, rfl⟩
  · rw [habout m hm] at hk
    obtain rfl := Option.some.inj hk
    exact hn

end Emits

/-! ### A session's channels in a list -/

section List

variable {τ : Type} {conn : τ → ℕ} {view : τ → ChannelView} {ts ts' : List τ} {i : ℕ} {t t' : τ}

/-- The channel of a connection, or a new one. -/
def channelOf (conn : τ → ℕ) (view : τ → ChannelView) (ts : List τ) (n : ℕ) : ChannelView :=
  ((ts.find? fun t => conn t = n).map view).getD .fresh

/-- No two are of one connection. -/
def OneEach (conn : τ → ℕ) (ts : List τ) : Prop :=
  ∀ (i j : ℕ) (t u : τ), ts[i]? = some t → ts[j]? = some u → conn t = conn u → i = j

theorem channelOf_of_getElem (h : OneEach conn ts) (ht : ts[i]? = some t) : channelOf conn view ts (conn t) = view t := by
  unfold channelOf
  cases hf : ts.find? fun u => conn u = conn t with
  | none =>
    have hno := List.find?_eq_none.mp hf t (List.mem_of_getElem? ht)
    simp at hno
  | some u =>
    obtain ⟨j, hj⟩ := List.mem_iff_getElem?.mp (List.mem_of_find?_eq_some hf)
    have hconn : conn u = conn t := by simpa using List.find?_some hf
    obtain rfl := h j i u t hj ht hconn
    obtain rfl := Option.some.inj (hj.symm.trans ht)
    rfl

theorem channelOf_of_forall_ne {n : ℕ} (h : ∀ (i : ℕ) (t : τ), ts[i]? = some t → conn t ≠ n) :
    channelOf conn view ts n = .fresh := by
  unfold channelOf
  rw [List.find?_eq_none.mpr fun t ht => ?_]
  · rfl
  · obtain ⟨i, hi⟩ := List.mem_iff_getElem?.mp ht
    simpa using h i t hi

theorem channelOf_cases (conn : τ → ℕ) (view : τ → ChannelView) (ts : List τ) (n : ℕ) :
    (∃ t ∈ ts, conn t = n ∧ channelOf conn view ts n = view t) ∨
    (∀ t ∈ ts, conn t ≠ n) ∧ channelOf conn view ts n = .fresh := by
  unfold channelOf
  cases hf : ts.find? fun t => conn t = n with
  | none => exact .inr ⟨fun t ht => by simpa using List.find?_eq_none.mp hf t ht, rfl⟩
  | some t => exact .inl ⟨t, List.mem_of_find?_eq_some hf, by simpa using List.find?_some hf, rfl⟩

/-- Each becomes another one of its connection. -/
theorem channelOf_map {f : τ → τ} (hf : ∀ t, conn (f t) = conn t) (n : ℕ) :
    channelOf conn view (ts.map f) n = channelOf conn (view ∘ f) ts n := by
  unfold channelOf
  rw [List.find?_map, show ((fun t => decide (conn t = n)) ∘ f) = fun t => decide (conn t = n) from
    funext fun t => by simp [hf]]
  simp

/-- Channel `i` becomes another one. -/
structure Becomes (ts ts' : List τ) (i : ℕ) (t t' : τ) : Prop where
  before : ts[i]? = some t
  after : ∀ j, ts'[j]? = if j = i then some t' else ts[j]?

theorem becomes_refl (ht : ts[i]? = some t) : Becomes ts ts i t t := by
  refine ⟨ht, fun j => ?_⟩
  split
  · rename_i hj
    rw [hj, ht]
  · rfl

theorem becomes_set (ht : ts[i]? = some t) (t' : τ) : Becomes ts (ts.set i t') i t t' := by
  refine ⟨ht, fun j => ?_⟩
  have hlt := (List.getElem?_eq_some_iff.mp ht).1
  rw [List.getElem?_set]
  by_cases hj : i = j
  · rw [if_pos hj, if_pos hj.symm, if_pos hlt]
  · rw [if_neg hj, if_neg (Ne.symm hj)]

theorem becomes_modify (ht : ts[i]? = some t) (f : τ → τ) : Becomes ts (ts.modify i f) i t (f t) := by
  refine ⟨ht, fun j => ?_⟩
  by_cases hj : j = i
  · rw [if_pos hj, hj, List.getElem?_modify_eq, ht]
    rfl
  · rw [if_neg hj, List.getElem?_modify_ne _ _ (Ne.symm hj)]

theorem Becomes.was (h : Becomes ts ts' i t t') {j : ℕ} {u : τ} (hu : ts'[j]? = some u) :
    j = i ∧ u = t' ∨ j ≠ i ∧ ts[j]? = some u := by
  rw [h.after] at hu
  split at hu
  · rename_i hj
    exact .inl ⟨hj, (Option.some.inj hu).symm⟩
  · rename_i hj
    exact .inr ⟨hj, hu⟩

theorem OneEach.becomes (h : OneEach conn ts) (hb : Becomes ts ts' i t t') (hconn : conn t' = conn t) :
    OneEach conn ts' := by
  have was : ∀ {j : ℕ} {u : τ}, ts'[j]? = some u → ∃ x : τ, ts[j]? = some x ∧ conn u = conn x := fun hu => by
    rcases hb.was hu with ⟨rfl, rfl⟩ | ⟨-, hu⟩
    · exact ⟨t, hb.before, hconn⟩
    · exact ⟨_, hu, rfl⟩
  intro j k u v hj hk he
  obtain ⟨x, hx, hux⟩ := was hj
  obtain ⟨y, hy, hvy⟩ := was hk
  exact h j k x y hx hy (hux.symm.trans (he.trans hvy))

/-- What a channel does on its own. -/
structure ChannelView.Goes (v v' : ChannelView) (n : ℕ) (ms : List ClientMessage) : Prop where
  about : ∀ m ∈ ms, m.conn? = some n
  small : ∀ conn payload, .dataFrame conn payload ∈ ms → payload.length ≤ MAX_PAYLOAD_SIZE
  carries : ∀ got ps, Carries v.wrote v.unsent v.sender got ps →
    Carries v'.wrote v'.unsent v'.sender got (ps ++ pieces n ms)
  wrote : v.wrote <+: v'.wrote
  ended : v.sender = .ended → v'.sender = .ended ∧ v'.wrote = v.wrote

/-- One channel goes on, the others stay as they are. -/
theorem Becomes.emits {known : List ℕ} {ms : List ClientMessage} (h : OneEach conn ts) (hb : Becomes ts ts' i t t')
    (hconn : conn t' = conn t) (hknown : conn t ∈ known) (hg : (view t).Goes (view t') (conn t) ms) :
    Emits (channelOf conn view ts) (channelOf conn view ts') known ms := by
  have h' := h.becomes hb hconn
  have hview : channelOf conn view ts (conn t) = view t := channelOf_of_getElem h hb.before
  have hview' : channelOf conn view ts' (conn t) = view t' := by
    rw [← hconn]
    exact channelOf_of_getElem (i := i) h' (by rw [hb.after, if_pos rfl])
  have hother : ∀ n, n ≠ conn t → channelOf conn view ts' n = channelOf conn view ts n := fun n hn => by
    by_cases hex : ∃ (j : ℕ) (u : τ), ts[j]? = some u ∧ conn u = n
    · obtain ⟨j, u, hj, rfl⟩ := hex
      have hne : j ≠ i := by
        rintro rfl
        exact hn (congrArg conn (Option.some.inj (hj.symm.trans hb.before)))
      rw [channelOf_of_getElem h hj, channelOf_of_getElem (i := j) h' (by rw [hb.after, if_neg hne]; exact hj)]
    · have hno : ∀ (j : ℕ) (u : τ), ts[j]? = some u → conn u ≠ n := fun j u hj he => hex ⟨j, u, hj, he⟩
      rw [channelOf_of_forall_ne hno, channelOf_of_forall_ne fun j u hj => ?_]
      rcases hb.was hj with ⟨-, rfl⟩ | ⟨-, hj⟩
      · rw [hconn]
        exact Ne.symm hn
      · exact hno j u hj
  refine .single hother hknown hg.about hg.small ?_ ?_ ?_
  · rw [hview, hview']
    exact hg.carries
  · rw [hview, hview']
    exact hg.wrote
  · rw [hview, hview']
    exact hg.ended

/-- A channel is new behind the others. -/
theorem concat_was {u : τ} {j : ℕ} (hu : (ts ++ [t])[j]? = some u) : ts[j]? = some u ∨ j = ts.length ∧ u = t := by
  rcases Nat.lt_or_ge j ts.length with hlt | hge
  · rw [List.getElem?_append_left hlt] at hu
    exact .inl hu
  · rw [List.getElem?_append_right hge] at hu
    obtain ⟨hlt, rfl⟩ := List.getElem?_eq_some_iff.mp hu
    have hzero : j - ts.length = 0 := by simpa using hlt
    exact .inr ⟨by omega, by simp⟩

theorem OneEach.concat (h : OneEach conn ts) (hnew : ∀ u ∈ ts, conn u ≠ conn t) : OneEach conn (ts ++ [t]) := by
  intro j k u v hj hk he
  rcases concat_was hj with hu | ⟨rfl, rfl⟩
  · rcases concat_was hk with hv | ⟨-, rfl⟩
    · exact h j k u v hu hv he
    · exact absurd he (hnew u (List.mem_of_getElem? hu))
  · rcases concat_was hk with hv | ⟨rfl, -⟩
    · exact absurd he.symm (hnew v (List.mem_of_getElem? hv))
    · rfl

theorem channelOf_concat (hview : view t = .fresh) (n : ℕ) :
    channelOf conn view (ts ++ [t]) n = channelOf conn view ts n := by
  unfold channelOf
  rw [List.find?_append]
  cases hf : ts.find? fun t => conn t = n with
  | some u => rfl
  | none =>
    by_cases hn : conn t = n <;> simp [hn, hview]

end List

end ShuvTunnel
