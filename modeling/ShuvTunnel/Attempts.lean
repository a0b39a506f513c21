/-
# Attach messages that are handled

Of a socket, only the last segment of an attach message's handler changes the
attachment, and only that one says `attached` on it (`step_greets`). Such a
handler is there for each attach message of the socket that has arrived, and
goes with that segment (`step_attempts`).

Key definitions: `Socket.greetings`, `Unmoved`, `Task.attaches`, `attempts`.
Key theorems: `Touch.unmoved`, `step_greets`, `step_attempts`.
-/
import ShuvTunnel.Authority

namespace ShuvTunnel

open Coop

/-- The messages that say that the socket is attached. -/
def Socket.greetings (x : Socket) : List ServerMessage := x.sent.filter (·.isAttached)

/-- Every socket has the attachment and the greetings it had, or is new. -/
def Unmoved (b b' : Bridges) : Prop :=
  ∀ x' ∈ b'.sockets, (∃ x ∈ b.sockets, x'.id = x.id ∧ x'.attachment = x.attachment ∧ x'.greetings = x.greetings) ∨
    x'.attached = false ∧ x'.greetings = []

namespace Unmoved

variable {P : Platform} {a b c : Bridges}

theorem of_sockets (h : b.sockets = a.sockets) : Unmoved a b := fun x' hx' => .inl ⟨x', h ▸ hx', rfl, rfl, rfl⟩

theorem refl (b : Bridges) : Unmoved b b := of_sockets rfl

theorem trans (h : Unmoved a b) (h' : Unmoved b c) : Unmoved a c := by
  intro z hz
  rcases h' z hz with ⟨y, hy, hid, hatt, hg⟩ | hnew
  · rcases h y hy with ⟨x, hx, hid', hatt', hg'⟩ | ⟨hno, hnone⟩
    · exact .inl ⟨x, hx, hid.trans hid', hatt.trans hatt', hg.trans hg'⟩
    · refine .inr ⟨?_, hg.trans hnone⟩
      rw [Socket.attached, hatt]
      exact hno
  · exact .inr hnew

theorem updateSocket (b : Bridges) (id : ℕ) {f : Socket → Socket} (hid : ∀ x, (f x).id = x.id)
    (hatt : ∀ x, (f x).attachment = x.attachment) (hg : ∀ x, (f x).greetings = x.greetings) :
    Unmoved b (b.updateSocket id f) := by
  intro x' hx'
  obtain ⟨x, hx, rfl⟩ := List.mem_map.mp hx'
  refine .inl ⟨x, hx, ?_⟩
  split
  · exact ⟨hid x, hatt x, hg x⟩
  · exact ⟨rfl, rfl, rfl⟩

theorem close (b : Bridges) (id : ℕ) : Unmoved b (b.close id) :=
  updateSocket b id (f := Socket.close) (fun _ => rfl) (fun _ => rfl) fun _ => rfl

theorem sendAll {id : ℕ} {ms : List ServerMessage} (h : Store.sendAll P a id ms = some b)
    (hm : ∀ m ∈ ms, m.isAttached = false) : Unmoved a b := by
  cases ho : a.isOpen id with
  | true =>
    rw [Bridges.sendAll_open ho] at h
    obtain rfl := Option.some.inj h
    refine updateSocket a id (f := fun x => { x with sent := x.sent ++ ms }) (fun _ => rfl) (fun _ => rfl) fun x => ?_
    have hnone : ms.filter (·.isAttached) = [] := List.filter_eq_nil_iff.mpr fun m hmem => by simp [hm m hmem]
    show (x.sent ++ ms).filter (·.isAttached) = x.sent.filter (·.isAttached)
    rw [List.filter_append, hnone, List.append_nil]
  | false =>
    rw [Bridges.sendAll_shut ho h]
    exact refl a

theorem send {id : ℕ} {m : ServerMessage} (h : a.send P id m = some b) (hm : m.isAttached = false) : Unmoved a b :=
  sendAll (Bridges.sendAll_singleton h) fun n hn => by rw [List.mem_singleton.mp hn]; exact hm

end Unmoved

/-- What is not the last segment of an attach message's handler changes no
attachment and greets nobody. -/
theorem Touch.unmoved {P : Platform} {b b' : Bridges} {c : Cause} {o : Outcome Task Result} (h : Touch P b c b' o)
    (hattach : ∀ w token routes r a, c ≠ .resumed (.attachHash w token routes r) a) : Unmoved b b' := by
  cases h with
  | still _ _ => exact .refl b
  | @accepted _ _ position =>
    intro x hx
    rcases List.mem_append.mp hx with hx | hx
    · exact .inl ⟨x, List.mem_of_mem_take hx, rfl, rfl, rfl⟩
    · rcases List.mem_cons.mp hx with rfl | hx
      · exact .inr ⟨rfl, rfl⟩
      · exact .inl ⟨x, List.mem_of_mem_drop hx, rfl, rfl, rfl⟩
  | closed _ => exact .close b _
  | refused _ hs => exact (Unmoved.send hs rfl).trans (.close _ _)
  | attached _ _ _ _ => exact absurd rfl (hattach _ _ _ _ _)
  | ponged hs => exact .send hs rfl
  | finished _ _ => exact .of_sockets (Bridges.finish_sockets _ _ _)
  | written _ _ _ => exact .of_sockets rfl
  | @closeHandled w _ b₁ _ _ _ _ hb₁ hs =>
    have h₁ : Unmoved b b₁ := hb₁ ▸ Unmoved.updateSocket b w (f := fun x => { x with closeHandled := true })
      (fun _ => rfl) (fun _ => rfl) fun _ => rfl
    rcases hs with ⟨rfl, -⟩ | ⟨rfl, -⟩
    · exact h₁
    · exact h₁.trans (.of_sockets (Bridges.finishAll_sockets _ _ _))
  | shutDown =>
    intro x hx
    rw [Store.shutDown, Bridges.finishAll_sockets] at hx
    obtain ⟨y, hy, rfl⟩ := List.mem_map.mp hx
    exact .inl ⟨y, hy, rfl, rfl, rfl⟩
  | @opened _ _ _ _ bridge conn sequence _ _ _ _ _ _ _ hs =>
    have henter : Unmoved b (enterChannel b bridge.id conn sequence) := .of_sockets rfl
    exact henter.trans (.sendAll hs openMessages_unattached)
  | openThrown _ _ _ => exact .of_sockets rfl
  | uploaded _ hs => exact .send hs rfl
  | uploadEnded _ hs => exact .send hs rfl
  | uploadFailed _ _ hs =>
    rcases hs with ⟨rfl, -⟩ | ⟨b₁, hs, rfl⟩
    · exact .refl _
    · exact (Unmoved.send hs rfl).trans (.of_sockets (Bridges.finish_sockets _ _ _))
  | settled _ _ => exact .refl b

/-- Socket `x` is attached with these, and told so if it is open. -/
structure Greeted (x x' : Socket) (session : String) (routes : List String) : Prop where
  id : x'.id = x.id
  attachment : x'.attachment = some { attached := true, session := some session, routes := some routes }
  greetings : x'.greetings = x.greetings ++ [.attached session routes HEARTBEAT_MS IDLE_TIMEOUT_MS] ∨
    x'.greetings = x.greetings

/-- Every socket is as it was, or new, or it is `w` and attached with these. -/
def Greets.Moved (b b' : Bridges) (w : ℕ) (session : String) (routes : List String) : Prop :=
  ∀ x' ∈ b'.sockets, (∃ x ∈ b.sockets, x'.id = x.id ∧ x'.attachment = x.attachment ∧ x'.greetings = x.greetings) ∨
    (x'.attached = false ∧ x'.greetings = []) ∨ x'.id = w ∧ ∃ x ∈ b.sockets, Greeted x x' session routes

theorem Unmoved.moved {b b' : Bridges} (h : Unmoved b b') (w : ℕ) (session : String) (routes : List String) :
    Greets.Moved b b' w session routes := by
  intro x' hx'
  rcases h x' hx' with hk | hnew
  · exact .inl hk
  · exact .inr (.inl hnew)

/-- The last segment of the handler greets its own socket, unless the attach
message is refused. -/
theorem attachHashed_moved {P : Platform} {s s' : Store} {w : ℕ} {token uuid session : String}
    {routes : Option Json} {r : StoredTunnel} {o : Outcome Task Result}
    (h : s.attachHashed P w token routes r uuid session = some (s', o)) :
    Greets.Moved s.bridges s'.bridges w ("sess_" ++ session) (Store.requestedRoutes routes) := by
  have attached : Greets.Moved s.bridges (s.bridges.serializeAttachment w
      { attached := true, session := some ("sess_" ++ session), routes := some (Store.requestedRoutes routes) }) w
      ("sess_" ++ session) (Store.requestedRoutes routes) := by
    intro x' hx'
    obtain ⟨x, hx, rfl⟩ := List.mem_map.mp hx'
    split
    · rename_i hid
      exact .inr (.inr ⟨hid, x, hx, rfl, rfl, .inr rfl⟩)
    · exact .inl ⟨x, hx, rfl, rfl, rfl⟩
  rcases attachHashed_cases h with ⟨-, code, h⟩ | ⟨b₁, -, rfl, ⟨-, rfl, -⟩ | ⟨b, hs, h⟩⟩
  · unfold Store.attachError at h
    split at h
    · obtain ⟨rfl, -⟩ := Prod.mk.inj h
      exact (Unmoved.refl _).moved _ _ _
    · rename_i b hs
      obtain ⟨rfl, -⟩ := Prod.mk.inj h
      exact ((Unmoved.send hs rfl).trans (.close _ _)).moved _ _ _
  · exact attached
  · obtain ⟨hbridges, -⟩ := onAttached_bridges h
    rw [hbridges]
    show Greets.Moved _ b _ _ _
    cases ho : s.bridges.isOpen w with
    | false =>
      have hb : b = _ := Bridges.sendAll_shut (by rw [serializeAttachment_isOpen]; exact ho)
        (Bridges.sendAll_singleton hs)
      rw [hb]
      exact attached
    | true =>
      rw [Bridges.send, if_pos (by rw [serializeAttachment_isOpen]; exact ho)] at hs
      obtain rfl := Option.some.inj hs
      intro x' hx'
      obtain ⟨y, hy, rfl⟩ := List.mem_map.mp hx'
      obtain ⟨x, hx, rfl⟩ := List.mem_map.mp hy
      by_cases hid : x.id = w
      · rw [if_pos hid, if_pos (by exact hid)]
        refine .inr (.inr ⟨hid, x, hx, rfl, rfl, .inl ?_⟩)
        show (x.sent ++ [_]).filter (·.isAttached) = x.sent.filter (·.isAttached) ++ [_]
        rw [List.filter_append]
        rfl
      · rw [if_neg hid, if_neg hid]
        exact .inl ⟨x, hx, rfl, rfl, rfl⟩

/-! ### The handlers -/

/-- The handler of an attach message of socket `w`. -/
def Task.attaches (w : ℕ) : Task → Bool
  | .attachRecord v _ _ | .attachHash v _ _ _ => v = w
  | _ => false

/-- The handlers of attach messages of socket `w`. -/
def attempts (w : ℕ) (s : State) : ℕ := s.tasks.countP fun p => p.2.attaches w

/-- A call begins such a handler when it is such a message. -/
theorem attaches_of_start {P : Platform} {s s' : Store} {c : Call} {u : Task} {w : ℕ}
    (h : start P s c = some (s', .await u)) (hu : u.attaches w = true) :
    ∃ m token routes, c = .webSocketMessage w m ∧ u = .attachRecord w token routes ∧ m.Attaches token routes := by
  cases start_effect h with
  | quiet _ hf _ =>
    cases hf u rfl with
    | @attach v m token routes =>
      obtain rfl : v = w := by simpa [Task.attaches] using hu
      obtain ⟨token', routes', he, ha⟩ := message_attaches h
      exact ⟨m, token', routes', rfl, he, ha⟩
    | _ => cases hu
  | renewing _ _ _ _ _ => cases hu

/-- A handler goes on as one when it is one and has the record to read yet. -/
theorem attaches_of_resume {P : Platform} {s s' : Store} {t u : Task} {a : Answer} {w : ℕ}
    (h : resume P s t a = some (s', .await u)) (hu : u.attaches w = true) :
    ∃ token routes r, t = .attachRecord w token routes ∧ u = .attachHash w token routes r := by
  cases resume_effect h with
  | quiet _ hf _ =>
    cases hf u rfl with
    | @attachRead v token routes r _ _ =>
      obtain rfl : v = w := by simpa [Task.attaches] using hu
      exact ⟨token, routes, r, rfl, rfl⟩
    | _ => cases hu
  | opened _ _ _ _ hf =>
    obtain ⟨key, rfl⟩ := hf u rfl
    cases hu
  | issued _ _ => cases hu
  | requested _ _ => cases hu
  | @taken t params d ht _ =>
    cases t with
    | ensureCreate _ _ | renewCreate _ _ _ => cases hu
    | _ => cases ht
  | restarted _ => cases hu
  | attachedRenewing _ _ _ _ _ _ => cases hu

theorem countP_filter_lt {α : Type*} {p q : α → Bool} {l : List α} {a : α} (ha : a ∈ l) (hp : p a = true)
    (hq : q a = false) : (l.filter q).countP p < l.countP p := by
  obtain ⟨l₁, l₂, rfl⟩ := List.append_of_mem ha
  have h1 : (l₁.filter q).countP p ≤ l₁.countP p := List.filter_sublist.countP_le
  have h2 : (l₂.filter q).countP p ≤ l₂.countP p := List.filter_sublist.countP_le
  rw [List.filter_append, List.filter_cons_of_neg (by simp [hq]), List.countP_append, List.countP_append,
    List.countP_cons_of_pos hp]
  omega

/-- An attach message of socket `w` arrives. -/
def Attaching (w : ℕ) : Action → Prop
  | .call (.webSocketMessage v m) => v = w ∧ ∃ token routes, m.Attaches token routes
  | _ => False

theorem attempts_settle {s : State} {k : ℕ} {x : Store} {o : Outcome Task Result} {w : ℕ} :
    attempts w (s.settle k x o) =
      attempts w s + (match o with | .await u => if u.attaches w then 1 else 0 | .done _ => 0) := by
  cases o with
  | done r => rfl
  | await u =>
    show (s.tasks ++ [(k, u)]).countP _ = _
    rw [List.countP_append, List.countP_singleton]
    rfl

/-- A step begins no handler but that of such a message; the step that resumes
the last segment of one ends it. -/
theorem step_attempts {P : Platform} {s s' : State} {l : Action} {w : ℕ} (h : (tunnelObject P).step s l = some s') :
    (attempts w s' ≤ attempts w s ∨ attempts w s' = attempts w s + 1 ∧ Attaching w l) ∧
      ∀ k a token routes r, l = .resume k a → s.task k = some (.attachHash w token routes r) →
        attempts w s' < attempts w s := by
  obtain ⟨c, x, o, rfl, h1, rfl⟩ | ⟨k, a, t, x, o, rfl, ht, h1, rfl⟩ | ⟨e, x, rfl, -, rfl⟩ := step_cases h
  · refine ⟨?_, fun _ _ _ _ _ he => nomatch he⟩
    rw [attempts_settle]
    cases o with
    | done r => exact .inl (le_refl _)
    | await u =>
      cases hu : u.attaches w with
      | false => exact .inl (by simp [hu, attempts])
      | true =>
        obtain ⟨m, token, routes, rfl, -, ha⟩ := attaches_of_start h1 hu
        exact .inr ⟨by simp [hu, attempts], rfl, token, routes, ha⟩
  · have hmem := task_mem ht
    have hwake : attempts w (s.wake k) ≤ attempts w s := List.filter_sublist.countP_le
    have hless : t.attaches w = true → attempts w (s.wake k) < attempts w s := fun hta =>
      countP_filter_lt hmem hta (by simp)
    rw [attempts_settle]
    cases o with
    | done r =>
      refine ⟨.inl hwake, fun k' a' token routes r' he htask => ?_⟩
      obtain ⟨rfl, -⟩ := Coop.Label.resume.inj he
      obtain rfl := Option.some.inj (ht.symm.trans htask)
      exact hless (by simp [Task.attaches])
    | await u =>
      cases hu : u.attaches w with
      | false =>
        refine ⟨.inl (by simpa [hu] using hwake), fun k' a' token routes r' he htask => ?_⟩
        obtain ⟨rfl, -⟩ := Coop.Label.resume.inj he
        obtain rfl := Option.some.inj (ht.symm.trans htask)
        simpa [hu] using hless (by simp [Task.attaches])
      | true =>
        obtain ⟨token, routes, r, rfl, rfl⟩ := attaches_of_resume h1 hu
        have hlt := hless (by simp [Task.attaches])
        refine ⟨.inl (by simp only [hu, if_true]; omega), fun k' a' token' routes' r' he htask => ?_⟩
        obtain ⟨rfl, -⟩ := Coop.Label.resume.inj he
        cases ht.symm.trans htask
  · exact ⟨.inl (le_refl _), fun _ _ _ _ _ he => nomatch he⟩

/-- A socket's attachment and greetings change with the last segment of an
attach message's handler only. -/
theorem step_greets {P : Platform} {s s' : State} {l : Action} (h : (tunnelObject P).step s l = some s') :
    Unmoved s.store.bridges s'.store.bridges ∨ ∃ k a w token routes r session, l = .resume k a ∧
      s.task k = some (.attachHash w token routes r) ∧
      Greets.Moved s.store.bridges s'.store.bridges w session (Store.requestedRoutes routes) := by
  obtain ⟨c, x, o, rfl, h1, rfl⟩ | ⟨k, a, t, x, o, rfl, ht, h1, rfl⟩ | ⟨e, x, rfl, h1, rfl⟩ := step_cases h
  · rw [settle_store]
    exact .inl ((start_touch h1).unmoved fun _ _ _ _ _ he => nomatch he)
  · rw [settle_store]
    have h1 : resume P s.store t a = some (x, o) := h1
    by_cases hattach : ∃ w token routes r, t = .attachHash w token routes r
    · obtain ⟨w, token, routes, r, rfl⟩ := hattach
      cases a with
      | drawn uuid session =>
        exact .inr ⟨k, _, w, token, routes, r, _, rfl, ht, attachHashed_moved h1⟩
      | _ => cases h1
    · exact .inl ((resume_touch h1).unmoved fun w token routes r a he =>
        hattach ⟨w, token, routes, r, (Cause.resumed.inj he).1⟩)
  · refine .inl ?_
    have h1 : environment P s.store e = some x := h1
    cases e with
    | tick n =>
      obtain rfl := Option.some.inj h1
      exact .refl _
    | peerClose v =>
      obtain rfl := Option.some.inj h1
      exact .close _ _
    | forget v =>
      rw [environment] at h1
      split at h1
      · cases h1
      · obtain rfl := Option.some.inj h1
        exact fun y hy => .inl ⟨y, (List.mem_filter.mp hy).1, rfl, rfl, rfl⟩
    | workflow id e =>
      obtain ⟨d, -, rfl⟩ := Option.map_eq_some_iff.mp h1
      exact .refl _

end ShuvTunnel
