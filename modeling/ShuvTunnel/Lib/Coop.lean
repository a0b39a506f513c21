/-
# Cooperative handlers over one store

A program of handlers that share a store and take turns: a handler runs
without interruption from one suspension to the next, and while it is
suspended other handlers run. What it knows when it resumes is what it
carried over the suspension, its task; the store may have moved on.

The rule (`Holds.step`, `Holds.of_reachable`): an assertion on the store and
one on each suspended task hold in every reachable state, when each segment
establishes its own and disturbs no other task's.

`Ends` is total correctness of one handler that nothing interrupts.

Key definitions: `Handlers`, `State`, `Handlers.system`, `Holds`, `Keeps`,
`Ends`.
Key theorems: `step_cases`, `Holds.advance`, `Holds.step`, `Holds.of_reachable`,
`answered_of_run`.
-/
import ShuvTunnel.Lib.Lts

namespace Coop

/-- How a segment of a handler ends: the handler is done, or it waits. -/
inductive Outcome (τ ρ : Type*)
  | done (result : ρ)
  | await (task : τ)

/-- The segments of the handlers. `start` runs a call `κ` to its first
suspension, `resume` a suspended task `τ` on the answer `α` it waited for to
the next one; `environment` is what happens to the store on its own. Each is
undefined where the call, the answer or the event cannot happen. -/
structure Handlers (σ κ τ α ε ρ : Type*) where
  start : σ → κ → Option (σ × Outcome τ ρ)
  resume : σ → τ → α → Option (σ × Outcome τ ρ)
  environment : σ → ε → Option σ

/-- The store, the suspended handlers and the results of those that are done,
each under the number of its call. -/
structure State (σ τ ρ : Type*) where
  store : σ
  tasks : List (ℕ × τ)
  returned : List (ℕ × ρ)
  next : ℕ

/-- The steps: a call, the answer to what a task awaits, or a step of the
environment. -/
inductive Label (κ α ε : Type*)
  | call (c : κ)
  | resume (k : ℕ) (a : α)
  | environment (e : ε)

variable {σ κ τ α ε ρ : Type*}

/-- The task call `k` is suspended on. -/
def State.task (s : State σ τ ρ) (k : ℕ) : Option τ := s.tasks.lookup k

/-- The result call `k` returned. -/
def State.result (s : State σ τ ρ) (k : ℕ) : Option ρ := s.returned.lookup k

/-- Call `k` leaves the store `x` and ends its segment with `o`. -/
def State.settle (s : State σ τ ρ) (k : ℕ) (x : σ) : Outcome τ ρ → State σ τ ρ
  | .done r => { s with store := x, returned := s.returned ++ [(k, r)] }
  | .await t => { s with store := x, tasks := s.tasks ++ [(k, t)] }

/-- Call `k` is no longer suspended. -/
def State.wake (s : State σ τ ρ) (k : ℕ) : State σ τ ρ :=
  { s with tasks := s.tasks.filter fun p => p.1 ≠ k }

namespace Handlers

variable (H : Handlers σ κ τ α ε ρ)

/-- What a step does; a task that is resumed is settled again. -/
def step (s : State σ τ ρ) : Label κ α ε → Option (State σ τ ρ)
  | .call c => (H.start s.store c).map fun p => { s with next := s.next + 1 }.settle s.next p.1 p.2
  | .resume k a => (s.task k).bind fun t =>
      (H.resume s.store t a).map fun p => (s.wake k).settle k p.1 p.2
  | .environment e => (H.environment s.store e).map fun x => { s with store := x }

/-- The handlers, as a system. -/
def system : Lts.System (State σ τ ρ) (Label κ α ε) := ⟨H.step⟩

end Handlers

variable {H : Handlers σ κ τ α ε ρ}

/-! ### What a step is -/

theorem mem_of_lookup {β : Type*} {l : List (ℕ × β)} {k : ℕ} {b : β} (h : l.lookup k = some b) :
    (k, b) ∈ l := by
  induction l with
  | nil => simp at h
  | cons p l ih =>
    obtain ⟨j, c⟩ := p
    by_cases hk : k = j
    · subst hk
      obtain rfl : c = b := by simpa using h
      exact List.mem_cons_self
    · have hb : (k == j) = false := by simpa using hk
      rw [List.lookup_cons, hb] at h
      exact List.mem_cons_of_mem _ (ih h)

/-- A step is a call's first segment, a suspended call's next one, or an
event of the environment. -/
theorem step_cases {s s' : State σ τ ρ} {l : Label κ α ε} (h : H.step s l = some s') :
    (∃ c x o, l = .call c ∧ H.start s.store c = some (x, o) ∧
      s' = { s with next := s.next + 1 }.settle s.next x o) ∨
    (∃ k a t x o, l = .resume k a ∧ s.task k = some t ∧ H.resume s.store t a = some (x, o) ∧
      s' = (s.wake k).settle k x o) ∨
    (∃ e x, l = .environment e ∧ H.environment s.store e = some x ∧ s' = { s with store := x }) := by
  cases l with
  | call c =>
    obtain ⟨⟨x, o⟩, h1, rfl⟩ := Option.map_eq_some_iff.mp h
    exact .inl ⟨c, x, o, rfl, h1, rfl⟩
  | resume k a =>
    obtain ⟨t, ht, h⟩ := Option.bind_eq_some_iff.mp h
    obtain ⟨⟨x, o⟩, h1, rfl⟩ := Option.map_eq_some_iff.mp h
    exact .inr (.inl ⟨k, a, t, x, o, rfl, ht, h1, rfl⟩)
  | environment e =>
    obtain ⟨x, h1, rfl⟩ := Option.map_eq_some_iff.mp h
    exact .inr (.inr ⟨e, x, rfl, h1, rfl⟩)

@[simp] theorem settle_store (s : State σ τ ρ) (k : ℕ) (x : σ) (o : Outcome τ ρ) :
    (s.settle k x o).store = x := by cases o <;> rfl

@[simp] theorem settle_next (s : State σ τ ρ) (k : ℕ) (x : σ) (o : Outcome τ ρ) :
    (s.settle k x o).next = s.next := by cases o <;> rfl

@[simp] theorem wake_next (s : State σ τ ρ) (k : ℕ) : (s.wake k).next = s.next := rfl

/-- After a segment a suspended task is one that was suspended before, or the
one the segment ended with. -/
theorem mem_settle_tasks {s : State σ τ ρ} {k : ℕ} {x : σ} {o : Outcome τ ρ} {p : ℕ × τ}
    (h : p ∈ (s.settle k x o).tasks) : p ∈ s.tasks ∨ (p.1 = k ∧ o = .await p.2) := by
  cases o with
  | done r => exact .inl h
  | await t =>
    rcases List.mem_append.mp h with h | h
    · exact .inl h
    · obtain rfl := List.mem_singleton.mp h
      exact .inr ⟨rfl, rfl⟩

/-- A call that has returned after a segment had returned before, or returned
with the segment. -/
theorem mem_settle_returned {s : State σ τ ρ} {k : ℕ} {x : σ} {o : Outcome τ ρ} {p : ℕ × ρ}
    (h : p ∈ (s.settle k x o).returned) : p ∈ s.returned ∨ (p.1 = k ∧ o = .done p.2) := by
  cases o with
  | done r =>
    rcases List.mem_append.mp h with h | h
    · exact .inl h
    · obtain rfl := List.mem_singleton.mp h
      exact .inr ⟨rfl, rfl⟩
  | await t => exact .inl h

theorem mem_wake_tasks {s : State σ τ ρ} {k : ℕ} {p : ℕ × τ} (h : p ∈ (s.wake k).tasks) :
    p ∈ s.tasks :=
  (List.mem_filter.mp h).1

theorem task_mem {s : State σ τ ρ} {k : ℕ} {t : τ} (h : s.task k = some t) : (k, t) ∈ s.tasks :=
  mem_of_lookup h

theorem result_mem {s : State σ τ ρ} {k : ℕ} {r : ρ} (h : s.result k = some r) : (k, r) ∈ s.returned :=
  mem_of_lookup h

/-! ### Assertions on the store and on the suspended tasks -/

/-- `G` holds of the store, and `T` of each suspended task in it. -/
structure Holds (G : σ → Prop) (T : σ → ℕ → τ → Prop) (s : State σ τ ρ) : Prop where
  store : G s.store
  tasks : ∀ p ∈ s.tasks, T s.store p.1 p.2

/-- What the segments owe for `G` and `T` to be kept by the steps `A` allows:
each leaves the store with `G`, leaves every task's assertion intact, and
gives the task it ends with its own. -/
structure Keeps (H : Handlers σ κ τ α ε ρ) (A : State σ τ ρ → Label κ α ε → Prop) (G : σ → Prop)
    (T : σ → ℕ → τ → Prop) : Prop where
  start : ∀ s c x o, Holds G T s → A s (.call c) → H.start s.store c = some (x, o) →
    G x ∧ (∀ k t, T s.store k t → T x k t) ∧ ∀ t, o = .await t → T x s.next t
  resume : ∀ s k a t x o, Holds G T s → A s (.resume k a) → s.task k = some t →
    H.resume s.store t a = some (x, o) →
    G x ∧ (∀ k t, T s.store k t → T x k t) ∧ ∀ u, o = .await u → T x k u
  environment : ∀ s e x, Holds G T s → A s (.environment e) → H.environment s.store e = some x →
    G x ∧ ∀ k t, T s.store k t → T x k t

theorem Holds.settle {G : σ → Prop} {T : σ → ℕ → τ → Prop} {s : State σ τ ρ} {k : ℕ} {x : σ}
    {o : Outcome τ ρ} (hg : G x) (hs : ∀ p ∈ s.tasks, T x p.1 p.2) (ho : ∀ t, o = .await t → T x k t) :
    Holds G T (s.settle k x o) := by
  refine ⟨by simpa using hg, fun p hp => ?_⟩
  rw [settle_store]
  rcases mem_settle_tasks hp with hp | ⟨rfl, ht⟩
  · exact hs p hp
  · exact ho _ ht

/-- One step, from the assertions `G` and `T` to `G'` and `T'`: the segment
that runs establishes `G'`, carries every other task over, and gives the task
it ends with its assertion. -/
theorem Holds.advance {G G' : σ → Prop} {T T' : σ → ℕ → τ → Prop} {s s' : State σ τ ρ} {l : Label κ α ε}
    (hs : Holds G T s) (h : H.step s l = some s')
    (start : ∀ c o, l = .call c → H.start s.store c = some (s'.store, o) →
      G' s'.store ∧ (∀ k t, T s.store k t → T' s'.store k t) ∧ ∀ t, o = .await t → T' s'.store s.next t)
    (resume : ∀ k a t o, l = .resume k a → s.task k = some t → H.resume s.store t a = some (s'.store, o) →
      G' s'.store ∧ (∀ k t, T s.store k t → T' s'.store k t) ∧ ∀ u, o = .await u → T' s'.store k u)
    (environment : ∀ e, l = .environment e → H.environment s.store e = some s'.store →
      G' s'.store ∧ ∀ k t, T s.store k t → T' s'.store k t) : Holds G' T' s' := by
  obtain ⟨c, x, o, rfl, h1, rfl⟩ | ⟨k, a, t, x, o, rfl, ht, h1, rfl⟩ | ⟨e, x, rfl, h1, rfl⟩ :=
    step_cases h
  · rw [settle_store] at start
    obtain ⟨h2, h3, h4⟩ := start c o rfl h1
    exact .settle h2 (fun p hp => h3 _ _ (hs.tasks p hp)) h4
  · rw [settle_store] at resume
    obtain ⟨h2, h3, h4⟩ := resume k a t o rfl ht h1
    exact .settle h2 (fun p hp => h3 _ _ (hs.tasks p (mem_wake_tasks hp))) h4
  · obtain ⟨h2, h3⟩ := environment e rfl h1
    exact ⟨h2, fun p hp => h3 _ _ (hs.tasks p hp)⟩

theorem Holds.step {A : State σ τ ρ → Label κ α ε → Prop} {G : σ → Prop} {T : σ → ℕ → τ → Prop}
    (hK : Keeps H A G T) {s s' : State σ τ ρ} {l : Label κ α ε} (hs : Holds G T s) (hA : A s l)
    (h : H.step s l = some s') : Holds G T s' := by
  refine hs.advance h ?_ ?_ ?_
  · rintro c o rfl h1
    exact hK.start s c _ o hs hA h1
  · rintro k a t o rfl ht h1
    exact hK.resume s k a t _ o hs hA ht h1
  · rintro e rfl h1
    exact hK.environment s e _ hs hA h1

theorem Holds.of_reachable {init : State σ τ ρ → Prop} {G : σ → Prop} {T : σ → ℕ → τ → Prop}
    (h0 : ∀ s, init s → Holds G T s) (hK : Keeps H (fun _ _ => True) G T) {s : State σ τ ρ}
    (h : Lts.Reachable H.system init s) : Holds G T s :=
  h.invariant h0 fun _ _ _ h1 h2 => h1.step hK trivial h2

/-! ### A handler run alone -/

/-- From the segment `p` on, run alone and whatever it is answered, the
handler ends, and then `Q` holds of the store and the result. Each wait can be
answered, so no answer is assumed to come that cannot. -/
inductive Ends (H : Handlers σ κ τ α ε ρ) (Q : σ → ρ → Prop) : σ × Outcome τ ρ → Prop
  | done {x : σ} {r : ρ} : Q x r → Ends H Q (x, .done r)
  | await {x : σ} {t : τ} : (∃ a p, H.resume x t a = some p) →
      (∀ a p, H.resume x t a = some p → Ends H Q p) → Ends H Q (x, .await t)

theorem Ends.result {Q : σ → ρ → Prop} {x : σ} {r : ρ} (h : Ends H Q (x, .done r)) : Q x r := by
  cases h with
  | done h => exact h

theorem Ends.resume {Q : σ → ρ → Prop} {x : σ} {t : τ} {a : α} {p : σ × Outcome τ ρ}
    (h : Ends H Q (x, .await t)) (hp : H.resume x t a = some p) : Ends H Q p := by
  cases h with
  | await _ h => exact h a p hp

/-! ### The numbers of the calls -/

theorem next_le {s s' : State σ τ ρ} {l : Label κ α ε} (h : H.step s l = some s') : s.next ≤ s'.next := by
  obtain ⟨c, x, o, -, -, rfl⟩ | ⟨k, a, t, x, o, -, -, -, rfl⟩ | ⟨e, x, -, -, rfl⟩ := step_cases h
  · rw [settle_next]
    exact Nat.le_succ _
  · refine Nat.le_of_eq ?_
    rw [settle_next, wake_next]
  · exact Nat.le_refl _

/-- Every call that is suspended or has returned was made before the next one
will be. -/
structure Called (s : State σ τ ρ) : Prop where
  tasks : ∀ p ∈ s.tasks, p.1 < s.next
  returned : ∀ p ∈ s.returned, p.1 < s.next

theorem Called.settle {s : State σ τ ρ} {k : ℕ} {x : σ} {o : Outcome τ ρ} (h : Called s) (hk : k < s.next) :
    Called (s.settle k x o) := by
  refine ⟨fun p hp => ?_, fun p hp => ?_⟩
  · rw [settle_next]
    rcases mem_settle_tasks hp with hp | ⟨hp, -⟩
    · exact h.tasks p hp
    · rw [hp]; exact hk
  · rw [settle_next]
    rcases mem_settle_returned hp with hp | ⟨hp, -⟩
    · exact h.returned p hp
    · rw [hp]; exact hk

theorem Called.step {s s' : State σ τ ρ} {l : Label κ α ε} (hs : Called s) (h : H.step s l = some s') :
    Called s' := by
  obtain ⟨c, x, o, rfl, -, rfl⟩ | ⟨k, a, t, x, o, rfl, ht, -, rfl⟩ | ⟨e, x, rfl, -, rfl⟩ := step_cases h
  · have hs' : Called { s with next := s.next + 1 } :=
      ⟨fun p hp => Nat.lt_succ_of_lt (hs.tasks p hp), fun p hp => Nat.lt_succ_of_lt (hs.returned p hp)⟩
    exact hs'.settle (Nat.lt_succ_self _)
  · have hs' : Called (s.wake k) := ⟨fun p hp => hs.tasks p (mem_wake_tasks hp), hs.returned⟩
    exact hs'.settle (hs.tasks _ (task_mem ht))
  · exact ⟨hs.tasks, hs.returned⟩

theorem called_of_reachable {init : State σ τ ρ → Prop} (h0 : ∀ s, init s → Called s)
    {s : State σ τ ρ} (h : Lts.Reachable H.system init s) : Called s :=
  h.invariant h0 fun _ _ _ hs h => hs.step h

/-- No call is suspended twice. -/
theorem nodup_of_reachable {init : State σ τ ρ → Prop} (h0 : ∀ s, init s → Called s)
    (h0' : ∀ s, init s → (s.tasks.map (·.1)).Nodup) {s : State σ τ ρ} (h : Lts.Reachable H.system init s) :
    (s.tasks.map (·.1)).Nodup := by
  have settle : ∀ {s : State σ τ ρ} {k : ℕ} {x : σ} {o : Outcome τ ρ}, (s.tasks.map (·.1)).Nodup →
      (∀ p ∈ s.tasks, p.1 ≠ k) → ((s.settle k x o).tasks.map (·.1)).Nodup := fun {s k x o} hs hk => by
    cases o with
    | done r => exact hs
    | await t =>
      show ((s.tasks ++ [(k, t)]).map (·.1)).Nodup
      rw [List.map_append, List.nodup_append]
      refine ⟨hs, by simp, fun i hi j hj he => ?_⟩
      obtain ⟨p, hp, rfl⟩ := List.mem_map.mp hi
      exact hk p hp (he.trans (List.mem_singleton.mp hj))
  refine (h.invariant (I := fun s => Called s ∧ (s.tasks.map (·.1)).Nodup) (fun s hs => ⟨h0 s hs, h0' s hs⟩)
    fun s l s' hs h => ⟨hs.1.step h, ?_⟩).2
  obtain ⟨c, x, o, rfl, -, rfl⟩ | ⟨k, a, t, x, o, rfl, -, -, rfl⟩ | ⟨e, x, rfl, -, rfl⟩ := step_cases h
  · exact settle hs.2 fun p hp => Nat.ne_of_lt (hs.1.tasks p hp)
  · refine settle (hs.2.sublist (List.filter_sublist.map _)) fun p hp => ?_
    simpa using (List.mem_filter.mp hp).2
  · exact hs.2

/-- Where no number occurs twice, a pair is found by its number. -/
theorem lookup_of_mem {β : Type*} {l : List (ℕ × β)} {k : ℕ} {b : β} (h : (l.map (·.1)).Nodup) (hb : (k, b) ∈ l) :
    l.lookup k = some b := by
  induction l with
  | nil => cases hb
  | cons p l ih =>
    obtain ⟨j, c⟩ := p
    rw [List.map_cons, List.nodup_cons] at h
    rcases List.mem_cons.mp hb with he | hb'
    · obtain ⟨rfl, rfl⟩ := Prod.mk.inj he
      rw [List.lookup_cons_self]
    · have hk : (k == j) = false := by
        have hne : k ≠ j := fun he => h.1 (he ▸ List.mem_map.mpr ⟨_, hb', rfl⟩)
        simpa using hne
      rw [List.lookup_cons, hk]
      exact ih h.2 hb'

/-- The task of a call that is suspended once. -/
theorem task_of_mem {s : State σ τ ρ} {k : ℕ} {t : τ} (h : (s.tasks.map (·.1)).Nodup) (ht : (k, t) ∈ s.tasks) :
    s.task k = some t :=
  lookup_of_mem h ht

/-! ### Calls of several methods -/

section Methods

variable {μ : Type*} {call : κ → μ} {task : τ → μ} {result : μ → ρ → Prop}

/-- A segment of method `m` waits on a task of `m`, or returns what `m` may return. -/
def Outcome.Of (task : τ → μ) (result : μ → ρ → Prop) (m : μ) : Outcome τ ρ → Prop
  | .await t => task t = m
  | .done r => result m r

/-- Call `k` is `c`. -/
def CallIn (es : List (Lts.Event (State σ τ ρ) (Label κ α ε))) (k : ℕ) (c : κ) : Prop :=
  ∃ e ∈ es, e.label = .call c ∧ e.before.next = k

/-- What is suspended and what has returned is of the method of its call. -/
structure Methodic (call : κ → μ) (task : τ → μ) (result : μ → ρ → Prop)
    (es : List (Lts.Event (State σ τ ρ) (Label κ α ε))) (s : State σ τ ρ) : Prop where
  tasks : ∀ p ∈ s.tasks, ∃ c, CallIn es p.1 c ∧ task p.2 = call c
  returned : ∀ p ∈ s.returned, ∃ c, CallIn es p.1 c ∧ result (call c) p.2

variable {es : List (Lts.Event (State σ τ ρ) (Label κ α ε))} {s t : State σ τ ρ}

theorem CallIn.mono {fs : List (Lts.Event (State σ τ ρ) (Label κ α ε))} (h : es ⊆ fs) {k : ℕ} {c : κ}
    (hc : CallIn es k c) : CallIn fs k c := by
  obtain ⟨e, he, hl⟩ := hc
  exact ⟨e, h he, hl⟩

theorem Methodic.mono {fs : List (Lts.Event (State σ τ ρ) (Label κ α ε))} (h : es ⊆ fs)
    (hs : Methodic call task result es s) : Methodic call task result fs s := by
  refine ⟨fun p hp => ?_, fun p hp => ?_⟩
  · obtain ⟨c, hc, ht⟩ := hs.tasks p hp
    exact ⟨c, hc.mono h, ht⟩
  · obtain ⟨c, hc, hr⟩ := hs.returned p hp
    exact ⟨c, hc.mono h, hr⟩

theorem Methodic.settle (hs : Methodic call task result es s) {k : ℕ} {c : κ} (hc : CallIn es k c) (x : σ)
    {o : Outcome τ ρ} (ho : o.Of task result (call c)) : Methodic call task result es (s.settle k x o) := by
  refine ⟨fun p hp => ?_, fun p hp => ?_⟩
  · rcases mem_settle_tasks hp with hp | ⟨hk, rfl⟩
    · exact hs.tasks p hp
    · exact ⟨c, hk ▸ hc, ho⟩
  · rcases mem_settle_returned hp with hp | ⟨hk, rfl⟩
    · exact hs.returned p hp
    · exact ⟨c, hk ▸ hc, ho⟩

theorem Methodic.step (hs : Methodic call task result es s)
    (hstart : ∀ s c x o, H.start s c = some (x, o) → o.Of task result (call c))
    (hresume : ∀ s t a x o, H.resume s t a = some (x, o) → o.Of task result (task t)) {l : Label κ α ε}
    (h : H.step s l = some t) : Methodic call task result (es ++ [⟨s, l, t⟩]) t := by
  have hs' := hs.mono (List.subset_append_left es [⟨s, l, t⟩])
  obtain ⟨c, x, o, rfl, h1, ht⟩ | ⟨k, a, u, x, o, rfl, hu, h1, ht⟩ | ⟨e, x, rfl, -, ht⟩ := step_cases h
  · have hc : CallIn (es ++ [⟨s, .call c, t⟩]) s.next c := ⟨_, List.mem_append_right _ List.mem_cons_self, rfl, rfl⟩
    have hnext : Methodic call task result (es ++ [⟨s, .call c, t⟩]) { s with next := s.next + 1 } :=
      ⟨hs'.tasks, hs'.returned⟩
    have := hnext.settle hc x (hstart _ _ _ _ h1)
    rwa [← ht] at this
  · obtain ⟨c, hc, hm⟩ := hs'.tasks _ (task_mem hu)
    have hwake : Methodic call task result (es ++ [⟨s, .resume k a, t⟩]) (s.wake k) :=
      ⟨fun p hp => hs'.tasks p (mem_wake_tasks hp), hs'.returned⟩
    have := hwake.settle hc x (hm ▸ hresume _ _ _ _ _ h1)
    rwa [← ht] at this
  · rw [ht] at hs' ⊢
    exact ⟨hs'.tasks, hs'.returned⟩

/-- When every segment keeps to the method of its call, a call is answered with what
its method may return. -/
theorem answered_of_run (hstart : ∀ s c x o, H.start s c = some (x, o) → o.Of task result (call c))
    (hresume : ∀ s t a x o, H.resume s t a = some (x, o) → o.Of task result (task t))
    (h : Lts.Run H.system s es t) (htasks : s.tasks = []) (hreturned : s.returned = []) {k : ℕ} {r : ρ}
    (hr : (k, r) ∈ t.returned) : ∃ c, CallIn es k c ∧ result (call c) r :=
  (h.history (I := Methodic call task result) (A := fun _ _ => True)
    (fun _ _ _ _ hs _ hstep => hs.step hstart hresume hstep) (fun _ _ => trivial)
    ⟨by simp [htasks], by simp [hreturned]⟩).returned _ hr

end Methods

end Coop
