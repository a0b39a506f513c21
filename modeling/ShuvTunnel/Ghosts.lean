/-
# When the record says online

A tunnel is `online` when it should have a bridge: attach sets the flag, the
close handler of the last bridge clears it. But the attach handler writes the
flag two suspensions after it saw its socket, and the handlers of `bind` and of
a renewal write back the whole record they read before, flag included. The flag
and the sockets agree exactly as long as no handler attaches a socket whose
close event is over, none writes back a flag the sockets have left behind, and
no attached socket is dropped from the list before its close event.

Key definitions: `Agrees`, `NoGhost`, `Ghosts`.
Key theorems: `Touch.calm`, `tidy_of_reachable`, `Effect.noGhost_iff`,
`noGhosts_run`.
-/
import ShuvTunnel.Snapshots
import ShuvTunnel.Uploads

namespace ShuvTunnel

open Coop

/-! ### The property and the steps that lose it -/

/-- An attached socket is there whose close event is still to be handled. -/
def Bridges.Attended (b : Bridges) : Prop := ∃ x ∈ b.sockets, x.attached = true ∧ x.closeHandled = false

/-- An attached socket is open. -/
def Bridges.Connected (b : Bridges) : Prop := ∃ x ∈ b.sockets, x.attached = true ∧ x.isOpen = true

/-- The state of a record fits the sockets. -/
structure Agrees (b : Bridges) (state : TunnelState) : Prop where
  online : state = .online → b.Attended
  connected : b.Connected → state = .online

/-- Unless the tunnel is deleted, its record's state fits the sockets. -/
def NoGhost (s : Store) : Prop := ∀ r, s.durable.live = some r → Agrees s.bridges r.state

/-- Resumed so, the handler writes a record whose state does not fit: `attach`
says `online` for a socket that is gone or whose close event is over, with no
other attached; a handler of `bind` or of a renewal says what it read. -/
def WriteGhosts (P : Platform) (s : Store) (t : Task) (a : Answer) : Prop :=
  writesBack P s t a = true ∧ match t with
    | .attachHash w _ _ _ => ¬ ∃ x ∈ s.bridges.sockets, (x.id = w ∨ x.attached = true) ∧ x.closeHandled = false
    | .removeHash .. => False
    | t => ∃ r, t.snapshot = some r ∧ ¬ Agrees s.bridges r.state

/-- The tunnel is online, and the socket dropped is the last attached one whose
close event was to come. -/
def ForgetGhosts (s : Store) (w : ℕ) : Prop :=
  ∃ r, s.durable.live = some r ∧ r.state = .online ∧
    ¬ ∃ x ∈ s.bridges.sockets, x.id ≠ w ∧ x.attached = true ∧ x.closeHandled = false

/-- The steps that leave a ghost: a stale write, or a socket that is forgotten. -/
def Ghosts (P : Platform) (s : State) : Action → Prop
  | .resume k a => ∃ t, s.task k = some t ∧ WriteGhosts P s.store t a
  | .environment (.forget w) => ForgetGhosts s.store w
  | _ => False

instance (b : Bridges) (state : TunnelState) : Decidable (Agrees b state) :=
  decidable_of_iff ((state = .online → ∃ x ∈ b.sockets, x.attached = true ∧ x.closeHandled = false) ∧
    ((∃ x ∈ b.sockets, x.attached = true ∧ x.isOpen = true) → state = .online))
    ⟨fun h => ⟨h.1, h.2⟩, fun h => ⟨h.online, h.connected⟩⟩

instance (P : Platform) (s : Store) (t : Task) (a : Answer) : Decidable (WriteGhosts P s t a) :=
  decidable_of_iff (writesBack P s t a = true ∧ (match t with
    | .attachHash w _ _ _ => !s.bridges.sockets.any (fun x => (x.id = w ∨ x.attached = true) ∧ x.closeHandled = false)
    | .removeHash .. => false
    | t => t.snapshot.any (fun r => ¬ Agrees s.bridges r.state)) = true) <| by
    unfold WriteGhosts
    cases t <;> simp [Option.any_eq_true]

instance (s : Store) (w : ℕ) : Decidable (ForgetGhosts s w) :=
  decidable_of_iff (s.durable.live.any (fun r => r.state = .online ∧
    ¬ ∃ x ∈ s.bridges.sockets, x.id ≠ w ∧ x.attached = true ∧ x.closeHandled = false) = true) <| by
    simp [ForgetGhosts, Option.any_eq_true]

instance (P : Platform) (s : State) (a : Action) : Decidable (Ghosts P s a) :=
  decidable_of_iff ((match a with
    | .resume k a => (s.task k).any (fun t => WriteGhosts P s.store t a)
    | .environment (.forget w) => ForgetGhosts s.store w
    | _ => false) = true) <| by
    unfold Ghosts
    split <;> simp [Option.any_eq_true]

/-! ### What keeps the sockets in their state -/

namespace Socket

/-- The same socket, its close event handled or not as before. -/
def Steady (x x' : Socket) : Prop := Same x x' ∧ x'.closeHandled = x.closeHandled

theorem Steady.refl (x : Socket) : Steady x x := ⟨.refl x, rfl⟩

theorem Steady.trans {x y z : Socket} (h : Steady x y) (h' : Steady y z) : Steady x z :=
  ⟨h.1.trans h'.1, h'.2.trans h.2⟩

theorem steady_close (x : Socket) : Steady x x.close := ⟨same_close x, rfl⟩

end Socket

namespace Bridges

/-- Sockets close and are accepted, and nothing else happens to them. -/
structure Calm (b b' : Bridges) : Prop where
  kept : ∀ x ∈ b.sockets, ∃ x' ∈ b'.sockets, Socket.Steady x x'
  old : ∀ x' ∈ b'.sockets, (∃ x ∈ b.sockets, Socket.Steady x x') ∨ x'.attached = false ∧ x'.closeHandled = false

theorem Calm.of_sockets {b b' : Bridges} (h : b'.sockets = b.sockets) : b.Calm b' :=
  ⟨fun x hx => ⟨x, h ▸ hx, .refl x⟩, fun x hx => .inl ⟨x, h ▸ hx, .refl x⟩⟩

theorem Calm.refl (b : Bridges) : b.Calm b := .of_sockets rfl

theorem Calm.trans {a b c : Bridges} (h : a.Calm b) (h' : b.Calm c) : a.Calm c := by
  refine ⟨fun x hx => ?_, fun z hz => ?_⟩
  · obtain ⟨y, hy, hxy⟩ := h.kept x hx
    obtain ⟨z, hz, hyz⟩ := h'.kept y hy
    exact ⟨z, hz, hxy.trans hyz⟩
  · rcases h'.old z hz with ⟨y, hy, hyz⟩ | hnew
    · rcases h.old y hy with ⟨x, hx, hxy⟩ | ⟨ha, hc⟩
      · exact .inl ⟨x, hx, hxy.trans hyz⟩
      · exact .inr ⟨hyz.1.attached.trans ha, hyz.2.trans hc⟩
    · exact .inr hnew

theorem calm_updateSocket {f : Socket → Socket} (hf : ∀ x : Socket, x.Steady (f x)) (b : Bridges) (id : ℕ) :
    b.Calm (b.updateSocket id f) := by
  have step : ∀ x : Socket, x.Steady (if x.id = id then f x else x) := fun x => by
    split
    · exact hf x
    · exact .refl x
  refine ⟨fun x hx => ⟨_, List.mem_map_of_mem hx, step x⟩, fun x' hx' => .inl ?_⟩
  obtain ⟨x, hx, rfl⟩ := List.mem_map.mp hx'
  exact ⟨x, hx, step x⟩

theorem calm_close (b : Bridges) (id : ℕ) : b.Calm (b.close id) := calm_updateSocket Socket.steady_close b id

theorem calm_sendAll {P : Platform} {b b' : Bridges} {id : ℕ} {ms : List ServerMessage}
    (h : Store.sendAll P b id ms = some b') : b.Calm b' := by
  by_cases ho : b.isOpen id = true
  · rw [sendAll_open ho] at h
    obtain rfl := Option.some.inj h
    exact calm_updateSocket (f := fun x => { x with sent := x.sent ++ ms })
      (fun x => ⟨⟨rfl, rfl, fun h => h⟩, rfl⟩) b id
  · rw [sendAll_shut (by simpa using ho) h]
    exact .refl b

theorem calm_send {P : Platform} {b b' : Bridges} {id : ℕ} {m : ServerMessage} (h : b.send P id m = some b') :
    b.Calm b' :=
  calm_sendAll (sendAll_singleton h)

theorem calm_shutDown (b : Bridges) : b.Calm (Store.shutDown b) := by
  have hs : (Store.shutDown b).sockets = b.sockets.map Socket.close := by rw [Store.shutDown, finishAll_sockets]
  refine ⟨fun x hx => ⟨x.close, ?_, x.steady_close⟩, fun x' hx' => .inl ?_⟩
  · rw [hs]
    exact List.mem_map_of_mem hx
  · rw [hs] at hx'
    obtain ⟨x, hx, rfl⟩ := List.mem_map.mp hx'
    exact ⟨x, hx, x.steady_close⟩

theorem calm_acceptWebSocket (b : Bridges) (position : ℕ) : b.Calm (Store.acceptWebSocket b position) := by
  refine ⟨fun x hx => ⟨x, ?_, .refl x⟩, fun x hx => ?_⟩
  · rw [← List.take_append_drop position b.sockets] at hx
    rcases List.mem_append.mp hx with hx | hx
    · exact List.mem_append_left _ hx
    · exact List.mem_append_right _ (List.mem_cons_of_mem _ hx)
  · rcases List.mem_append.mp hx with hx | hx
    · exact .inl ⟨x, List.mem_of_mem_take hx, .refl x⟩
    · rcases List.mem_cons.mp hx with rfl | hx
      · exact .inr ⟨rfl, rfl⟩
      · exact .inl ⟨x, List.mem_of_mem_drop hx, .refl x⟩

theorem Calm.attended {b b' : Bridges} (h : b.Calm b') : b'.Attended ↔ b.Attended := by
  constructor
  · rintro ⟨x', hx', ha, hc⟩
    rcases h.old x' hx' with ⟨x, hx, hs⟩ | ⟨hno, -⟩
    · exact ⟨x, hx, hs.1.attached ▸ ha, hs.2 ▸ hc⟩
    · rw [ha] at hno
      cases hno
  · rintro ⟨x, hx, ha, hc⟩
    obtain ⟨x', hx', hs⟩ := h.kept x hx
    exact ⟨x', hx', hs.1.attached ▸ ha, hs.2 ▸ hc⟩

theorem Calm.connected {b b' : Bridges} (h : b.Calm b') (hc : b'.Connected) : b.Connected := by
  obtain ⟨x', hx', ha, ho⟩ := hc
  rcases h.old x' hx' with ⟨x, hx, hs⟩ | ⟨hno, -⟩
  · exact ⟨x, hx, hs.1.attached ▸ ha, hs.1.2.2 ho⟩
  · rw [ha] at hno
    cases hno

end Bridges

theorem Agrees.calm {b b' : Bridges} {state : TunnelState} (h : Agrees b state) (hc : b.Calm b') : Agrees b' state :=
  ⟨fun he => hc.attended.mpr (h.online he), fun hb => h.connected (hc.connected hb)⟩

/-- What the sockets of `b'` come from: but for the close event and for an
attach message, they are those of before. -/
theorem Touch.calm {P : Platform} {b b' : Bridges} {c : Cause} {o : Outcome Task Result} (h : Touch P b c b' o) :
    b.Calm b' ∨
      (∃ w, c = .call (.webSocketClose w) ∧ b.isOpen w = false ∧
        b'.sockets = (b.updateSocket w fun x => { x with closeHandled := true }).sockets) ∨
      ∃ w token routes r uuid session, c = .resumed (.attachHash w token routes r) (.drawn uuid session) ∧
        attachAccepts P b w token routes r = true ∧
        (b.serializeAttachment w { attached := true, session := some ("sess_" ++ session),
                                   routes := some (Store.requestedRoutes routes) }).Calm b' := by
  cases h with
  | still _ _ => exact .inl (.refl b)
  | accepted => exact .inl (Bridges.calm_acceptWebSocket b _)
  | closed _ => exact .inl (Bridges.calm_close b _)
  | refused _ hs => exact .inl ((Bridges.calm_send hs).trans (Bridges.calm_close _ _))
  | attached ha hb₁ hs _ =>
    refine .inr (.inr ⟨_, _, _, _, _, _, rfl, ha, ?_⟩)
    rw [← hb₁]
    rcases hs with rfl | hs
    · exact .refl _
    · exact Bridges.calm_send hs
  | ponged hs => exact .inl (Bridges.calm_send hs)
  | finished _ _ => exact .inl (.of_sockets (Bridges.finish_sockets _ _ _))
  | written _ _ _ => exact .inl (.of_sockets rfl)
  | closeHandled hx ho _ hb₁ hs =>
    refine .inr (.inl ⟨_, rfl, ?_, ?_⟩)
    · unfold Bridges.isOpen
      rw [hx]
      exact ho
    · rcases hs with ⟨rfl, -⟩ | ⟨rfl, -⟩
      · rw [hb₁]
      · rw [Bridges.finishAll_sockets, hb₁]
  | shutDown => exact .inl (Bridges.calm_shutDown b)
  | @opened _ _ _ _ bridge conn sequence _ _ _ _ _ _ _ hs =>
    have hentered : b.Calm (enterChannel b bridge.id conn sequence) := .of_sockets rfl
    exact .inl (hentered.trans (Bridges.calm_sendAll hs))
  | openThrown _ _ _ => exact .inl (.of_sockets rfl)
  | uploaded _ hs => exact .inl (Bridges.calm_send hs)
  | uploadEnded _ hs => exact .inl (Bridges.calm_send hs)
  | uploadFailed _ _ hs =>
    rcases hs with ⟨rfl, -⟩ | ⟨b₁, hs, rfl⟩
    · exact .inl (.refl _)
    · exact .inl ((Bridges.calm_send hs).trans (.of_sockets (Bridges.finish_sockets _ _ _)))
  | settled _ _ => exact .inl (.refl _)

/-! ### What is known of the sockets -/

/-- An attached socket has a session, a socket whose close event was handled is
not open, and without a tunnel no attached socket is open. -/
structure Tidy (s : Store) : Prop where
  session : ∀ x ∈ s.bridges.sockets, x.attached = true → x.attachment.bind (·.session) ≠ none
  handled : ∀ x ∈ s.bridges.sockets, x.closeHandled = true → x.isOpen = false
  live : s.bridges.Connected → s.durable.live ≠ none

/-- The sockets are those of before but for what `f` makes of one of them. -/
theorem mem_updateSocket {b : Bridges} {id : ℕ} {f : Socket → Socket} {x' : Socket}
    (h : x' ∈ (b.updateSocket id f).sockets) :
    x' ∈ b.sockets ∧ x'.id ≠ id ∨ ∃ x ∈ b.sockets, x.id = id ∧ x' = f x := by
  obtain ⟨x, hx, rfl⟩ := List.mem_map.mp h
  by_cases hid : x.id = id
  · exact .inr ⟨x, hx, hid, by rw [if_pos hid]⟩
  · rw [if_neg hid]
    exact .inl ⟨hx, hid⟩

theorem Tidy.calm {s s' : Store} (h : Tidy s) (hc : s.bridges.Calm s'.bridges)
    (hl : s'.bridges.Connected → s'.durable.live ≠ none) : Tidy s' := by
  refine ⟨fun x' hx' ha => ?_, fun x' hx' hh => ?_, hl⟩
  · rcases hc.old x' hx' with ⟨x, hx, hs⟩ | ⟨hno, -⟩
    · rw [← hs.1.2.1]
      exact h.session x hx (hs.1.attached ▸ ha)
    · rw [ha] at hno
      cases hno
  · rcases hc.old x' hx' with ⟨x, hx, hs⟩ | ⟨-, hno⟩
    · have ho := h.handled x hx (hs.2 ▸ hh)
      by_contra hopen
      rw [hs.1.2.2 (by simpa using hopen)] at ho
      cases ho
    · rw [hh] at hno
      cases hno

/-- Attached now, and the tunnel is there. -/
theorem Tidy.attach {s s' : Store} {b : Bridges} {w : ℕ} {session : String} {routes : Option (List String)}
    (h : Tidy s) (hb : b = s.bridges.serializeAttachment w { attached := true, session := some session, routes })
    (hc : b.Calm s'.bridges) (hl : s'.durable.live ≠ none) : Tidy s' := by
  have hmem : ∀ x' ∈ b.sockets, x' ∈ s.bridges.sockets ∨ ∃ x ∈ s.bridges.sockets,
      x' = { x with attachment := some { attached := true, session := some session, routes } } := fun x' hx' => by
    rw [hb] at hx'
    rcases mem_updateSocket hx' with ⟨hx, -⟩ | ⟨x, hx, -, he⟩
    · exact .inl hx
    · exact .inr ⟨x, hx, he⟩
  refine Tidy.calm (s := ⟨s'.durable, b⟩) ⟨fun x' hx' ha => ?_, fun x' hx' hh => ?_, fun _ => hl⟩ hc fun _ => hl
  · rcases hmem x' hx' with hx | ⟨x, -, rfl⟩
    · exact h.session x' hx ha
    · simp
  · rcases hmem x' hx' with hx | ⟨x, hx, rfl⟩
    · exact h.handled x' hx hh
    · exact h.handled x hx hh

/-- Its close event is handled now, and it was not open. -/
theorem Tidy.close {s s' : Store} {w : ℕ} (h : Tidy s) (hn : s.bridges.Numbered) (ho : s.bridges.isOpen w = false)
    (hb : s'.bridges.sockets = (s.bridges.updateSocket w fun x => { x with closeHandled := true }).sockets)
    (hl : s'.durable.live = none → s.durable.live = none) : Tidy s' := by
  have hmem : ∀ x' ∈ s'.bridges.sockets, x' ∈ s.bridges.sockets ∨
      ∃ x ∈ s.bridges.sockets, x.id = w ∧ x' = { x with closeHandled := true } := fun x' hx' => by
    rw [hb] at hx'
    rcases mem_updateSocket hx' with ⟨hx, -⟩ | hx
    · exact .inl hx
    · exact .inr hx
  refine ⟨fun x' hx' ha => ?_, fun x' hx' hh => ?_, fun ⟨x', hx', ha, hxo⟩ hnone => ?_⟩
  · rcases hmem x' hx' with hx | ⟨x, hx, -, rfl⟩
    · exact h.session x' hx ha
    · exact h.session x hx ha
  · rcases hmem x' hx' with hx | ⟨x, hx, rfl, rfl⟩
    · exact h.handled x' hx hh
    · exact (Bridges.isOpen_of_mem hn hx).symm.trans ho
  · rcases hmem x' hx' with hx | ⟨x, hx, -, rfl⟩
    · exact h.live ⟨x', hx, ha, hxo⟩ (hl hnone)
    · exact h.live ⟨x, hx, ha, hxo⟩ (hl hnone)

/-- Only a removal leaves no tunnel where one was. -/
theorem Effect.live {P : Platform} {s s' : Store} {c : Cause} {o : Outcome Task Result} (h : Effect P s c s' o)
    (hc : ∀ t a, c = .resumed t a → t.Sound) :
    (s'.durable.live = none → s.durable.live = none) ∨ s'.bridges = Store.shutDown s.bridges := by
  -- the record saved is `r` but for other fields
  have saved : ∀ {d : Durable} {r r' : StoredTunnel}, r.deletedAt = none → d.record = some r' →
      r'.deletedAt = r.deletedAt → d.live ≠ none := fun hr hd he hn => by
    rw [Durable.live_eq_some.mpr ⟨hd, he.trans hr⟩] at hn
    cases hn
  have carried : ∀ {t : Task} {a : Answer} {r : StoredTunnel}, c = .resumed t a → t.snapshot = some r →
      (∀ x, t ≠ .connectRead x) → r.deletedAt = none := fun he => (hc _ _ he).not_deleted
  cases h with
  | quiet _ _ _ => exact .inl id
  | opened _ _ _ _ _ => exact .inl id
  | created hl _ _ _ _ _ => exact .inl fun _ => hl
  | closed hl _ => exact .inl fun hn => absurd hn (saved (Durable.live_eq_some.mp hl).2 rfl rfl)
  | alarmed _ => exact .inl id
  | renewing hl _ _ _ _ => exact .inl fun hn => absurd hn (saved (Durable.live_eq_some.mp hl).2 rfl rfl)
  | issued _ _ =>
    exact .inl fun hn => absurd hn (saved (carried rfl rfl fun _ h => by cases h) rfl rfl)
  | issueFailed he _ _ =>
    refine .inl fun hn => absurd hn (saved (carried rfl (Task.snapshot_of_ensure he) fun _ h => ?_) rfl rfl)
    rw [h] at he
    cases he
  | requested _ _ => exact .inl id
  | taken _ hw =>
    rw [createWorkflow_frame hw]
    exact .inl id
  | restarted hw =>
    rw [restartWorkflow_frame hw]
    exact .inl id
  | removed _ => exact .inr rfl
  | attachThrown _ _ => exact .inl fun hn => absurd hn (saved (carried rfl rfl fun _ h => by cases h) rfl rfl)
  | attached _ _ _ _ => exact .inl fun hn => absurd hn (saved (carried rfl rfl fun _ h => by cases h) rfl rfl)
  | attachedRenewing _ _ _ _ _ _ =>
    exact .inl fun hn => absurd hn (saved (carried rfl rfl fun _ h => by cases h) rfl rfl)
  | renewFailed => exact .inl fun hn => absurd hn (saved (carried rfl rfl fun _ h => by cases h) rfl rfl)

/-- An accepted attach message leaves the tunnel online. -/
theorem Effect.attach {P : Platform} {s s' : Store} {w : ℕ} {token uuid session : String} {routes : Option Json}
    {r : StoredTunnel} {o : Outcome Task Result}
    (h : Effect P s (.resumed (.attachHash w token routes r) (.drawn uuid session)) s' o)
    (ha : attachAccepts P s.bridges w token routes r = true) (hr : r.deletedAt = none) :
    ∃ r', s'.durable.live = some r' ∧ r'.state = .online := by
  cases h with
  | quiet _ _ hw =>
    have hno : attachAccepts P s.bridges w token routes r = false := (hw _ _ rfl).1
    rw [ha] at hno
    cases hno
  | requested he _ => cases he
  | attachThrown _ _ => exact ⟨_, Durable.live_eq_some.mpr ⟨rfl, hr⟩, rfl⟩
  | attached _ _ _ _ => exact ⟨_, Durable.live_eq_some.mpr ⟨rfl, hr⟩, rfl⟩
  | attachedRenewing _ _ _ _ _ _ => exact ⟨_, Durable.live_eq_some.mpr ⟨rfl, hr⟩, rfl⟩

theorem not_connected_shutDown (b : Bridges) : ¬ (Store.shutDown b).Connected := by
  rintro ⟨x, hx, -, ho⟩
  rw [Store.shutDown, Bridges.finishAll_sockets] at hx
  obtain ⟨y, -, rfl⟩ := List.mem_map.mp hx
  rw [y.close_isOpen] at ho
  cases ho

theorem Tidy.segment {P : Platform} {s s' : Store} {c : Cause} {o : Outcome Task Result} (h : Tidy s)
    (hn : s.bridges.Numbered) (he : Effect P s c s' o) (ht : Touch P s.bridges c s'.bridges o)
    (hc : ∀ t a, c = .resumed t a → t.Sound) : Tidy s' := by
  have hlive := he.live hc
  rcases ht.calm with hcalm | ⟨w, rfl, ho, hb⟩ | ⟨w, token, routes, r, uuid, session, rfl, ha, hcalm⟩
  · refine h.calm hcalm fun hconn => ?_
    rcases hlive with hl | hb
    · exact fun hnone => h.live (hcalm.connected hconn) (hl hnone)
    · rw [hb] at hconn
      exact absurd hconn (not_connected_shutDown _)
  · refine h.close hn ho hb ?_
    cases he with
    | quiet _ _ _ => exact id
    | closed hl _ =>
      intro hnone
      have hdeleted := Durable.live_eq_none.mp hnone _ rfl
      exact absurd (Durable.live_eq_some.mp hl).2 hdeleted
  · have hr : r.deletedAt = none := (hc _ _ rfl).not_deleted rfl fun _ h => by cases h
    obtain ⟨r', hl, -⟩ := he.attach ha hr
    exact h.attach rfl hcalm (by rw [hl]; exact Option.some_ne_none _)

/-- What a workflow posts leaves the state of the record as it is. -/
theorem Update.state {d d' : Durable} {id : String} {st : CertificateState} {ok : Bool} (h : Update d id st d' ok) :
    d'.live.map (·.state) = d.live.map (·.state) := by
  have saved : ∀ {r r' : StoredTunnel} {a : Option Millis}, d.live = some r → r'.deletedAt = r.deletedAt →
      r'.state = r.state → ({ d with record := some r', alarm := a } : Durable).live.map (·.state) =
        d.live.map (·.state) := fun hl hd hst => by
    rw [hl, Durable.live_eq_some.mpr ⟨rfl, hd.trans (Durable.live_eq_some.mp hl).2⟩, Option.map_some,
      Option.map_some, hst]
  cases h with
  | refused _ => rfl
  | renewed hl _ _ _ => exact saved hl rfl rfl
  | renewalFailed hl _ _ _ => exact saved hl rfl rfl
  | renewalPending _ _ _ _ => rfl
  | stored hl _ _ _ => exact saved hl rfl rfl

theorem environment_state {P : Platform} {s s' : Store} {e : Event} (h : environment P s e = some s') :
    s'.durable.live.map (·.state) = s.durable.live.map (·.state) := by
  cases environment_change h with
  | tick => rfl
  | sockets _ _ _ => rfl
  | workflow _ _ _ => rfl
  | @posted id _ _ st _ _ _ _ _ =>
    exact (updateCertificate_cases { s.durable with deliveries := s.durable.deliveries ++ [(id, st)] } id st).state

theorem environment_tidy {P : Platform} {s s' : Store} {e : Event} (hs : Tidy s) (h : environment P s e = some s') :
    Tidy s' := by
  have hl : s'.durable.live = none → s.durable.live = none := fun hn => by
    have hst := environment_state h
    rw [hn] at hst
    simpa using hst.symm
  have calm : s.bridges.Calm s'.bridges → Tidy s' := fun hc =>
    hs.calm hc fun hconn hn => hs.live (hc.connected hconn) (hl hn)
  cases e with
  | tick n =>
    obtain rfl := Option.some.inj h
    exact calm (.refl _)
  | peerClose w =>
    obtain rfl := Option.some.inj h
    exact calm (Bridges.calm_close _ _)
  | forget w =>
    unfold environment at h
    simp only at h
    split at h
    · cases h
    · obtain rfl := Option.some.inj h
      have hmem : ∀ {x : Socket}, x ∈ s.bridges.sockets.filter (fun x => x.id ≠ w) → x ∈ s.bridges.sockets :=
        fun hx => (List.mem_filter.mp hx).1
      exact ⟨fun x hx => hs.session x (hmem hx), fun x hx => hs.handled x (hmem hx),
        fun ⟨x, hx, hc⟩ hn => hs.live ⟨x, hmem hx, hc⟩ hn⟩
  | workflow id e =>
    obtain ⟨d, -, rfl⟩ := Option.map_eq_some_iff.mp h
    exact calm (.refl _)

theorem tidy_step {P : Platform} {s s' : State} {l : Action} (hr : Reachable P s) (h : Tidy s.store)
    (hs : (tunnelObject P).step s l = some s') : Tidy s'.store := by
  have hn := (exclusive_of_reachable hr).numbered
  obtain ⟨c, x, o, rfl, h1, rfl⟩ | ⟨k, a, t, x, o, rfl, ht, h1, rfl⟩ | ⟨e, x, rfl, h1, rfl⟩ := step_cases hs
  · rw [settle_store]
    exact h.segment hn (start_effect h1) (start_touch h1) fun _ _ he => by cases he
  · rw [settle_store]
    refine h.segment hn (resume_effect h1) (resume_touch h1) fun t' a' he => ?_
    obtain ⟨rfl, rfl⟩ := Cause.resumed.inj he
    exact sound_of_reachable hr _ (task_mem ht)
  · exact environment_tidy h h1

theorem tidy_of_reachable {P : Platform} {s : State} (h : Reachable P s) : Tidy s.store := by
  refine (h.invariant (I := fun s => Reachable P s ∧ Tidy s.store) ?_ fun s l s' hs hstep =>
    ⟨hs.1.step hstep, tidy_step hs.1 hs.2 hstep⟩).2
  rintro s ⟨now, rfl⟩
  exact ⟨.of_init ⟨now, rfl⟩, fun _ hx => (nomatch hx), fun _ hx => (nomatch hx), fun ⟨_, hx, _⟩ => nomatch hx⟩

/-! ### One segment -/

/-- The record is the one of before, or has its state, and the sockets are
those of before. -/
theorem NoGhost.calm {s s' : Store} (h : NoGhost s) (hc : s.bridges.Calm s'.bridges)
    (hl : ∀ r', s'.durable.live = some r' → ∃ r, s.durable.live = some r ∧ r'.state = r.state) : NoGhost s' := by
  intro r' hr'
  obtain ⟨r, hr, hst⟩ := hl r' hr'
  rw [hst]
  exact (h r hr).calm hc

theorem NoGhost.of_record {s : Store} {r : StoredTunnel} (hr : s.durable.record = some r) (hl : r.deletedAt = none) :
    NoGhost s ↔ Agrees s.bridges r.state := by
  have hlive := Durable.live_eq_some.mpr ⟨hr, hl⟩
  constructor
  · intro h
    exact h r hlive
  · intro h x hx
    obtain rfl := Option.some.inj (hlive.symm.trans hx)
    exact h

/-- The close event leaves the state fitting. -/
theorem close_noGhost {s s' : Store} {w : ℕ} {o : Outcome Task Result} (h : s.webSocketClose w = some (s', o))
    (hn : s.bridges.Numbered) (ht : Tidy s) (hs : NoGhost s) : NoGhost s' := by
  obtain ⟨x, hx, h⟩ := Option.bind_eq_some_iff.mp h
  split at h
  · cases h
  rename_i hguard
  simp only [Bool.or_eq_true, not_or, Bool.not_eq_true] at hguard
  have hxid : x.id = w := by simpa using List.find?_some hx
  have hxm := List.mem_of_find?_eq_some hx
  have hout : ∀ y ∈ s.bridges.sockets, y.isOpen = true → y.id ≠ w := fun y hy ho hid => by
    obtain rfl := Bridges.eq_of_id hn hy hxm (hid.trans hxid.symm)
    rw [hguard.1] at ho
    cases ho
  -- the sockets after it, and those of them that are not `w`
  obtain ⟨b, hb⟩ : ∃ b, b = s.bridges.updateSocket w fun x => { x with closeHandled := true } := ⟨_, rfl⟩
  have hkept : ∀ y ∈ s.bridges.sockets, y.id ≠ w → y ∈ b.sockets := fun y hy hid => by
    rw [hb]
    exact List.mem_map.mpr ⟨y, hy, if_neg hid⟩
  have hold : ∀ y ∈ b.sockets, y ∈ s.bridges.sockets ∧ y.id ≠ w ∨ y.isOpen = false := fun y hy => by
    rw [hb] at hy
    rcases mem_updateSocket hy with hy | ⟨z, hz, hid, rfl⟩
    · exact .inl hy
    · obtain rfl := Bridges.eq_of_id hn hz hxm (hid.trans hxid.symm)
      exact .inr hguard.1
  have hconn : b.Connected → s.bridges.Connected := fun ⟨y, hy, ha, ho⟩ => by
    rcases hold y hy with ⟨hy, -⟩ | hno
    · exact ⟨y, hy, ha, ho⟩
    · rw [ho] at hno
      cases hno
  simp only at h
  rw [← hb] at h
  split at h
  · -- it had never attached
    rename_i hsession
    obtain ⟨rfl, -⟩ := Prod.mk.inj (Option.some.inj h)
    intro r hr
    refine ⟨fun he => ?_, fun hc => (hs r hr).connected (hconn hc)⟩
    obtain ⟨y, hy, ha, hyh⟩ := (hs r hr).online he
    refine ⟨y, hkept y hy fun hid => ?_, ha, hyh⟩
    obtain rfl := Bridges.eq_of_id hn hy hxm (hid.trans hxid.symm)
    exact ht.session y hy ha (Option.isNone_iff_eq_none.mp hsession)
  · obtain ⟨c, hc⟩ : ∃ c, c = b.finishAll (fun c => c.bridge = w) true := ⟨_, rfl⟩
    have hcs : c.sockets = b.sockets := by rw [hc, Bridges.finishAll_sockets]
    have hcconn : c.Connected → s.bridges.Connected := fun ⟨y, hy, hya⟩ => hconn ⟨y, hcs ▸ hy, hya⟩
    rw [← hc] at h
    split at h
    · rename_i r hl
      split at h
      · -- another bridge is attached
        rename_i hother
        obtain ⟨rfl, -⟩ := Prod.mk.inj (Option.some.inj h)
        obtain ⟨y, hy, hyo⟩ := List.any_eq_true.mp hother
        simp only [Bool.and_eq_true, decide_eq_true_eq] at hyo
        obtain ⟨⟨hid, ho⟩, ha⟩ := hyo
        have hys : y ∈ s.bridges.sockets := by
          rcases hold y (hcs ▸ hy) with ⟨hys, -⟩ | hno
          · exact hys
          · rw [ho] at hno
            cases hno
        have hyh : y.closeHandled = false := by
          by_contra hh
          rw [ht.handled y hys (by simpa using hh)] at ho
          cases ho
        exact fun x hx => ⟨fun _ => ⟨y, hy, ha, hyh⟩, fun hc' => (hs x hx).connected (hcconn hc')⟩
      · -- it was the last one
        rename_i hnone
        obtain ⟨rfl, -⟩ := Prod.mk.inj (Option.some.inj h)
        have hlr := Durable.live_eq_some.mp hl
        refine (NoGhost.of_record (r := { r with state := .offline }) rfl hlr.2).mpr ⟨fun he => (nomatch he), ?_⟩
        rintro ⟨y, hy, ha, ho⟩
        refine absurd (List.any_eq_true.mpr ⟨y, hy, ?_⟩) hnone
        have hid : y.id ≠ w := by
          rcases hold y (hcs ▸ hy) with ⟨-, hid⟩ | hno
          · exact hid
          · rw [ho] at hno
            cases hno
        simp [hid, ho, ha]
    · rename_i hl
      obtain ⟨rfl, -⟩ := Prod.mk.inj (Option.some.inj h)
      intro r hr
      exact absurd (hr.symm.trans hl) (Option.some_ne_none r)

/-- Of the handlers that write back what they read, all but these two write
the state they read. -/
theorem writeGhosts_iff {P : Platform} {s : Store} {t : Task} {a : Answer} {r : StoredTunnel}
    (hw : writesBack P s t a = true) (hr : t.snapshot = some r)
    (ht : ∀ w token routes r, t ≠ .attachHash w token routes r) (ht' : ∀ token r, t ≠ .removeHash token r) :
    WriteGhosts P s t a ↔ ¬ Agrees s.bridges r.state := by
  have hiff : WriteGhosts P s t a ↔ writesBack P s t a = true ∧
      ∃ r, t.snapshot = some r ∧ ¬ Agrees s.bridges r.state := by
    cases t with
    | attachHash w token routes r => exact absurd rfl (ht w token routes r)
    | removeHash token r => exact absurd rfl (ht' token r)
    | _ => rfl
  rw [hiff, hr]
  constructor
  · rintro ⟨-, x, hx, hno⟩
    obtain rfl := Option.some.inj hx
    exact hno
  · exact fun hno => ⟨hw, r, rfl, hno⟩

/-- An accepted attach message leaves its socket attached. -/
theorem attended_serialize {b : Bridges} {w : ℕ} {session : Option String} {routes : Option (List String)} :
    (b.serializeAttachment w { attached := true, session, routes }).Attended ↔
      ∃ x ∈ b.sockets, (x.id = w ∨ x.attached = true) ∧ x.closeHandled = false := by
  constructor
  · rintro ⟨y, hy, ha, hc⟩
    rcases mem_updateSocket hy with ⟨hy, -⟩ | ⟨x, hx, hid, rfl⟩
    · exact ⟨y, hy, .inr ha, hc⟩
    · exact ⟨x, hx, .inl hid, hc⟩
  · rintro ⟨x, hx, hor, hc⟩
    refine ⟨_, List.mem_map_of_mem hx, ?_⟩
    by_cases hid : x.id = w
    · rw [if_pos hid]
      exact ⟨rfl, hc⟩
    · rw [if_neg hid]
      exact ⟨hor.resolve_left hid, hc⟩

/-- The attach message's last segment. -/
theorem attach_noGhost_iff {P : Platform} {s s' : Store} {w : ℕ} {token uuid session : String}
    {routes : Option Json} {r : StoredTunnel} {o : Outcome Task Result}
    (h : s.attachHashed P w token routes r uuid session = some (s', o)) (hr : r.deletedAt = none) (hs : NoGhost s) :
    NoGhost s' ↔ ¬ WriteGhosts P s (.attachHash w token routes r) (.drawn uuid session) := by
  have heffect := attachHashed_effect h
  rcases attachHashed_cases h with ⟨ha, code, h⟩ | ⟨b₁, ha, hb₁, hreply⟩
  · refine iff_of_true ?_ fun hgh => ?_
    · have hcalm : s.bridges.Calm s'.bridges ∧ s'.durable = s.durable := by
        unfold Store.attachError at h
        split at h
        · obtain ⟨rfl, -⟩ := Prod.mk.inj h
          exact ⟨.refl _, rfl⟩
        · rename_i b hb
          obtain ⟨rfl, -⟩ := Prod.mk.inj h
          exact ⟨(Bridges.calm_send hb).trans (Bridges.calm_close _ _), rfl⟩
      refine hs.calm hcalm.1 fun r' hr' => ⟨r', ?_, rfl⟩
      rw [← hcalm.2]
      exact hr'
    · have hw : attachAccepts P s.bridges w token routes r = true := hgh.1
      rw [ha] at hw
      cases hw
  · have hcalm : b₁.Calm s'.bridges := by
      rcases hreply with ⟨-, rfl, -⟩ | ⟨b, hb, h⟩
      · exact .refl _
      · rw [(onAttached_bridges h).1]
        exact Bridges.calm_send hb
    obtain ⟨r', hl, honline⟩ := heffect.attach ha hr
    obtain ⟨hrecord, hlive⟩ := Durable.live_eq_some.mp hl
    rw [NoGhost.of_record hrecord hlive, honline]
    have hiff : Agrees s'.bridges .online ↔ ∃ x ∈ s.bridges.sockets, (x.id = w ∨ x.attached = true) ∧
        x.closeHandled = false := by
      rw [← attended_serialize, ← hb₁, ← hcalm.attended]
      exact ⟨fun h => h.online rfl, fun h => ⟨fun _ => h, fun _ => rfl⟩⟩
    rw [hiff]
    constructor
    · exact fun hx hgh => hgh.2 hx
    · intro hno
      by_contra hx
      exact hno ⟨ha, hx⟩

/-- After another segment the state fits, unless it resumed a handler that
writes back what it read. -/
theorem Effect.noGhost_iff {P : Platform} {s s' : Store} {c : Cause} {o : Outcome Task Result}
    (h : Effect P s c s' o) (ht : Touch P s.bridges c s'.bridges o)
    (hinit : ∀ id hostname tokenHash, c ≠ .call (.initialized id hostname tokenHash))
    (hclose : ∀ w, c ≠ .call (.webSocketClose w))
    (hattach : ∀ w token routes r uuid session, c ≠ .resumed (.attachHash w token routes r) (.drawn uuid session))
    (hs : NoGhost s) (hc : ∀ t a, c = .resumed t a → t.Sound) :
    NoGhost s' ↔ ∀ t a, c = .resumed t a → ¬ WriteGhosts P s t a := by
  have hcalm : s.bridges.Calm s'.bridges := by
    rcases ht.calm with hcalm | ⟨w, hw, -, -⟩ | ⟨w, token, routes, r, uuid, session, hw, -, -⟩
    · exact hcalm
    · exact absurd hw (hclose w)
    · exact absurd hw (hattach _ _ _ _ _ _)
  -- the record keeps its state, and the handler does not write back
  have kept : (∀ r', s'.durable.live = some r' → ∃ r, s.durable.live = some r ∧ r'.state = r.state) →
      (∀ t a, c = .resumed t a → writesBack P s t a = false) →
      (NoGhost s' ↔ ∀ t a, c = .resumed t a → ¬ WriteGhosts P s t a) := fun hl hw =>
    iff_of_true (hs.calm hcalm hl) fun t a he hgh => by
      have hno := hw t a he
      rw [hgh.1] at hno
      cases hno
  have same : ∀ {d : Durable}, d.record = s.durable.record →
      ∀ r', d.live = some r' → ∃ r, s.durable.live = some r ∧ r'.state = r.state := fun hd r' hr' => by
    unfold Durable.live at hr'
    rw [hd] at hr'
    exact ⟨r', hr', rfl⟩
  have call : ∀ {x : Call}, c = .call x → ∀ t a, c = .resumed t a → writesBack P s t a = false :=
    fun he t a he' => by rw [he] at he'; cases he'
  have not_back : ∀ {t : Task} {a : Answer}, c = .resumed t a → writesBack P s t a = false →
      ∀ t a, c = .resumed t a → writesBack P s t a = false := fun he hw t' a' he' => by
    obtain ⟨rfl, rfl⟩ := Cause.resumed.inj (he.symm.trans he')
    exact hw
  -- the handler writes `r'`, which has the state of the record it carried
  have wrote : ∀ {t : Task} {a : Answer} {r r' : StoredTunnel}, c = .resumed t a → writesBack P s t a = true →
      t.snapshot = some r → (∀ token r, t ≠ .removeHash token r) →
      (∀ w token routes r, t ≠ .attachHash w token routes r) → (∀ x, t ≠ .connectRead x) →
      s'.durable.record = some r' → r'.deletedAt = r.deletedAt → r'.state = r.state → s'.bridges = s.bridges →
      (NoGhost s' ↔ ∀ t a, c = .resumed t a → ¬ WriteGhosts P s t a) :=
    fun {t a r r'} he hw hr hrem hatt hcon hr' hd hst hb => by
      have hlive : r.deletedAt = none := (hc t a he).not_deleted hr hcon
      rw [NoGhost.of_record hr' (hd.trans hlive), hst, hb]
      constructor
      · intro hag t' a' he'
        obtain ⟨rfl, rfl⟩ := Cause.resumed.inj (he.symm.trans he')
        rw [writeGhosts_iff hw hr hatt hrem]
        exact not_not.mpr hag
      · intro hno
        have hno := hno t a he
        rwa [writeGhosts_iff hw hr hatt hrem, not_not] at hno
  cases h with
  | quiet _ _ hw => exact kept (same rfl) fun t a he => (hw t a he).1
  | opened _ _ _ _ _ => exact kept (same rfl) (not_back rfl rfl)
  | created _ _ _ _ _ _ => exact absurd rfl (hinit _ _ _)
  | closed _ _ => exact absurd rfl (hclose _)
  | alarmed _ => exact kept (same rfl) (call rfl)
  | renewing hl _ _ _ _ =>
    refine kept (fun r' hr' => ⟨_, hl, ?_⟩) (call rfl)
    obtain rfl := Option.some.inj (Durable.live_eq_some.mp hr').1
    rfl
  | issued hstores _ =>
    exact wrote rfl hstores rfl (fun _ _ h => by cases h) (fun _ _ _ _ h => by cases h) (fun _ h => by cases h)
      rfl rfl rfl rfl
  | issueFailed he _ hw =>
    refine wrote rfl hw (Task.snapshot_of_ensure he) (fun _ _ h => ?_) (fun _ _ _ _ h => ?_) (fun _ h => ?_)
      rfl rfl rfl rfl
    · rw [h] at he; cases he
    · rw [h] at he; cases he
    · rw [h] at he; cases he
  | requested _ hw => exact kept (same rfl) (not_back rfl hw)
  | taken _ hw =>
    rw [createWorkflow_frame hw] at kept ⊢
    exact kept (same rfl) (not_back rfl (writesBack_accepted _ _ _))
  | restarted hw =>
    rw [restartWorkflow_frame hw] at kept ⊢
    exact kept (same rfl) (not_back rfl rfl)
  | removed _ =>
    refine iff_of_true (fun r hr => ?_) fun t a he hgh => ?_
    · have hdeleted := (Durable.live_eq_some.mp hr).2
      obtain rfl := Option.some.inj (Durable.live_eq_some.mp hr).1
      cases hdeleted
    · obtain ⟨rfl, rfl⟩ := Cause.resumed.inj he
      exact hgh.2
  | attachThrown _ _ => exact absurd rfl (hattach _ _ _ _ _ _)
  | attached _ _ _ _ => exact absurd rfl (hattach _ _ _ _ _ _)
  | attachedRenewing _ _ _ _ _ _ => exact absurd rfl (hattach _ _ _ _ _ _)
  | renewFailed =>
    exact wrote rfl rfl rfl (fun _ _ h => by cases h) (fun _ _ _ _ h => by cases h) (fun _ h => by cases h)
      rfl rfl rfl rfl

/-- A new tunnel is offline, and no bridge is attached to it yet. -/
theorem initialize_noGhost {s : Store} {id hostname tokenHash : String} (ht : Tidy s) (hs : NoGhost s) :
    NoGhost { s with durable := (s.durable.initializeTunnel id hostname tokenHash).1 } := by
  unfold Durable.initializeTunnel
  split
  · exact hs
  · rename_i hl
    intro r hr
    obtain rfl := Option.some.inj (Durable.live_eq_some.mp hr).1
    exact ⟨fun he => (nomatch he), fun hconn => absurd hl (ht.live hconn)⟩

/-! ### Steps and runs -/

theorem environment_noGhost_iff {P : Platform} {s s' : Store} {e : Event} (h : environment P s e = some s')
    (hs : NoGhost s) : NoGhost s' ↔ ∀ w, e = .forget w → ¬ ForgetGhosts s w := by
  have hl : ∀ r', s'.durable.live = some r' → ∃ r, s.durable.live = some r ∧ r'.state = r.state := fun r' hr' => by
    have hst := environment_state h
    rw [hr', Option.map_some] at hst
    obtain ⟨r, hr, he⟩ := Option.map_eq_some_iff.mp hst.symm
    exact ⟨r, hr, he.symm⟩
  cases e with
  | tick n =>
    refine iff_of_true (hs.calm ?_ hl) fun _ he => by cases he
    obtain rfl := Option.some.inj h
    exact .refl _
  | peerClose w =>
    refine iff_of_true (hs.calm ?_ hl) fun _ he => by cases he
    obtain rfl := Option.some.inj h
    exact Bridges.calm_close _ _
  | workflow id e =>
    refine iff_of_true (hs.calm ?_ hl) fun _ he => by cases he
    obtain ⟨d, -, rfl⟩ := Option.map_eq_some_iff.mp h
    exact .refl _
  | forget w =>
    unfold environment at h
    simp only at h
    split at h
    · cases h
    obtain rfl := Option.some.inj h
    have hmem : ∀ {x : Socket}, x ∈ s.bridges.sockets.filter (fun x => x.id ≠ w) ↔ x ∈ s.bridges.sockets ∧ x.id ≠ w :=
      fun {x} => by rw [List.mem_filter, decide_eq_true_eq]
    constructor
    · rintro hno v hv ⟨r, hr, hon, hlast⟩
      obtain rfl := Event.forget.inj hv
      obtain ⟨x, hx, ha, hc⟩ := (hno r hr).online hon
      obtain ⟨hx, hid⟩ := hmem.mp hx
      exact hlast ⟨x, hx, hid, ha, hc⟩
    · intro hno r hr
      refine ⟨fun hon => ?_, fun ⟨x, hx, hxc⟩ => (hs r hr).connected ⟨x, (hmem.mp hx).1, hxc⟩⟩
      by_contra hlast
      refine hno w rfl ⟨r, hr, hon, fun ⟨x, hx, hid, ha, hc⟩ => hlast ⟨x, hmem.mpr ⟨hx, hid⟩, ha, hc⟩⟩

theorem step_noGhost_iff {P : Platform} {s s' : State} {l : Action} (h : Reachable P s) (hs : NoGhost s.store)
    (hstep : (tunnelObject P).step s l = some s') : NoGhost s'.store ↔ ¬ Ghosts P s l := by
  have htidy := tidy_of_reachable h
  have hn := (exclusive_of_reachable h).numbered
  obtain ⟨c, x, o, rfl, h1, rfl⟩ | ⟨k, a, t, x, o, rfl, ht, h1, rfl⟩ | ⟨e, x, rfl, h1, rfl⟩ := step_cases hstep
  · rw [settle_store]
    refine iff_of_true ?_ fun hgh => hgh
    by_cases hinit : ∃ id hostname tokenHash, c = .initialized id hostname tokenHash
    · obtain ⟨id, hostname, tokenHash, rfl⟩ := hinit
      obtain ⟨rfl, -⟩ := Prod.mk.inj (Option.some.inj h1)
      exact initialize_noGhost htidy hs
    · by_cases hclose : ∃ w, c = .webSocketClose w
      · obtain ⟨w, rfl⟩ := hclose
        exact close_noGhost h1 hn htidy hs
      · refine ((start_effect h1).noGhost_iff (start_touch h1) (fun id hostname tokenHash he => ?_) (fun w he => ?_)
          (fun _ _ _ _ _ _ he => by cases he) hs fun _ _ he => by cases he).mpr fun _ _ he => by cases he
        · exact hinit ⟨id, hostname, tokenHash, Cause.call.inj he⟩
        · exact hclose ⟨w, Cause.call.inj he⟩
  · rw [settle_store]
    have hsound := sound_of_reachable h _ (task_mem ht)
    have hghosts : (¬ Ghosts P s (.resume k a)) ↔ ¬ WriteGhosts P s.store t a := by
      refine not_congr ⟨?_, fun hgh => ⟨t, ht, hgh⟩⟩
      rintro ⟨t', ht', hgh⟩
      obtain rfl := Option.some.inj (ht.symm.trans ht')
      exact hgh
    rw [hghosts]
    by_cases hattach : ∃ w token routes r uuid session, t = .attachHash w token routes r ∧ a = .drawn uuid session
    · obtain ⟨w, token, routes, r, uuid, session, rfl, rfl⟩ := hattach
      exact attach_noGhost_iff h1 (hsound.not_deleted rfl fun _ he => by cases he) hs
    · rw [(resume_effect h1).noGhost_iff (resume_touch h1) (fun _ _ _ he => by cases he) (fun _ he => by cases he)
        (fun w token routes r uuid session he => ?_) hs fun t' a' he => ?_]
      · constructor
        · exact fun hno => hno t a rfl
        · intro hno t' a' he
          obtain ⟨rfl, rfl⟩ := Cause.resumed.inj he
          exact hno
      · obtain ⟨rfl, rfl⟩ := Cause.resumed.inj he
        exact hattach ⟨w, token, routes, r, uuid, session, rfl, rfl⟩
      · obtain ⟨rfl, rfl⟩ := Cause.resumed.inj he
        exact hsound
  · rw [environment_noGhost_iff h1 hs]
    constructor
    · intro hno hgh
      cases e with
      | forget w => exact hno w rfl hgh
      | _ => exact hgh
    · rintro hno w rfl hgh
      exact hno hgh

/-- Along every run the record's state fits the sockets exactly as long as no
step writes a state that does not fit, or drops the last attached socket. -/
theorem noGhosts_run {P : Platform} {now : Millis} {t : State} {es : List (Lts.Event State Action)}
    (h : Run P (initial now) es t) :
    (∀ e ∈ es, NoGhost e.after.store) ↔ ∀ e ∈ es, ¬ Ghosts P e.before e.label := by
  refine h.safe_iff (J := fun s => Reachable P s ∧ NoGhost s.store) (A := fun _ _ => True)
    (fun e hs _ hstep hq => ⟨hs.1.step hstep, hq⟩) (fun e hs _ hstep => step_noGhost_iff hs.1 hs.2 hstep)
    (fun _ _ => trivial) ⟨.of_init ⟨now, rfl⟩, fun r hr => nomatch hr⟩

/-- The attached socket closes, and is forgotten when its close event was handled. -/
def leavingRun : List Action :=
  servingRun ++ [.environment (.peerClose 0), .call (.webSocketClose 0), .environment (.forget 0)]

set_option maxRecDepth 8000 in
theorem leavingRun_state : ∃ t, after plainPlatform leavingRun = some t ∧
    t.store.durable.live.map (·.state) = some .offline ∧
    ((tunnelObject plainPlatform).trace (initial 0) leavingRun).any
      (fun e => decide (e.after.store.durable.live.map (·.state) = some .online)) = true ∧
    ((tunnelObject plainPlatform).trace (initial 0) leavingRun).all
      (fun e => decide (¬ Ghosts plainPlatform e.before e.label)) = true :=
  ⟨_, rfl, rfl, by decide, by decide⟩

theorem noGhost_leaving : ∃ es t, Run plainPlatform (initial 0) es t ∧ es.map (·.label) = leavingRun ∧
    (∃ e ∈ es, e.after.store.durable.live.map (·.state) = some .online) ∧
    t.store.durable.live.map (·.state) = some .offline ∧ ∀ e ∈ es, NoGhost e.after.store := by
  obtain ⟨t, ht, hoffline, honline, hno⟩ := leavingRun_state
  have hrun : Run plainPlatform (initial 0) _ t := .of_exec ht
  refine ⟨_, t, hrun, Lts.map_label_trace ht, ?_, hoffline, (noGhosts_run hrun).mpr fun e he => ?_⟩
  · simpa using List.any_eq_true.mp honline
  · exact of_decide_eq_true (List.all_eq_true.mp hno e he)

/-- A socket sends its attach message and closes, and its close event is
handled while the token is hashed. -/
def ghostRun : List Action :=
  provisioned "csr" ++ [fetching, attachMessage 0, .resume 3 .ok, .environment (.peerClose 0),
    .call (.webSocketClose 0), .resume 3 (.drawn "" "1")]

set_option maxRecDepth 4000 in
/-- No handler is left, the tunnel is online, and its only socket is closed for
good. -/
theorem ghost_online : ¬ ∀ s, Reachable plainPlatform s → s.tasks = [] → NoGhost s.store := by
  intro h
  obtain ⟨s, r, hs, ht, hl, hon, hall⟩ : ∃ s r, after plainPlatform ghostRun = some s ∧ s.tasks = [] ∧
      s.store.durable.live = some r ∧ r.state = .online ∧ s.store.bridges.sockets.all (·.closeHandled) = true :=
    ⟨_, _, rfl, rfl, rfl, rfl, rfl⟩
  obtain ⟨x, hx, -, hc⟩ := (h s (reachable_of_after hs) ht r hl).online hon
  rw [List.all_eq_true.mp hall x hx] at hc
  cases hc

end ShuvTunnel
