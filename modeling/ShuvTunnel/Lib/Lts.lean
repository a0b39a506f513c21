/-
# Runs of a transition system

A system is a partial step function on labelled moves. A run is the list of
its events, each with the state before, the label and the state after, so a
statement about a run can speak of every state it reaches and of every step
it takes.

Key definitions: `System`, `Run`, `Reachable`, `Machine`.
Key theorems: `Run.invariant` (what every step keeps, every run keeps),
`Run.history` (the same of what also speaks of the events so far),
`Run.getLastD` (a part of the state is what the labels brought last),
`Run.safe_iff` (a property that exactly the bad steps lack holds along a run
exactly when the run takes none), `Run.follows` (a simulation).
-/
import Mathlib.Data.List.Basic

namespace Lts

/-- A transition system: a label may or may not be possible in a state. -/
structure System (σ α : Type*) where
  step : σ → α → Option σ

/-- One step of a run. -/
structure Event (σ α : Type*) where
  before : σ
  label : α
  after : σ

variable {σ α : Type*} (S : System σ α)

/-- The state after the labels `as`, when each is possible in its turn. -/
def System.exec : σ → List α → Option σ
  | s, [] => some s
  | s, a :: as => (S.step s a).bind fun s' => exec s' as

/-- `Run S s es t`: the events `es`, one after the other, lead from `s` to `t`. -/
inductive Run : σ → List (Event σ α) → σ → Prop
  | nil (s : σ) : Run s [] s
  | cons {s s' t : σ} {a : α} {es : List (Event σ α)} :
      S.step s a = some s' → Run s' es t → Run s (⟨s, a, s'⟩ :: es) t

/-- The states some run reaches from an initial one. -/
def Reachable (init : σ → Prop) (t : σ) : Prop :=
  ∃ s es, init s ∧ Run S s es t

variable {S}

theorem Run.single {s t : σ} {a : α} (h : S.step s a = some t) : Run S s [⟨s, a, t⟩] t :=
  .cons h (.nil t)

theorem Run.append {s t u : σ} {es fs : List (Event σ α)} (h : Run S s es t) (h' : Run S t fs u) :
    Run S s (es ++ fs) u := by
  induction h with
  | nil => exact h'
  | cons hs _ ih => exact .cons hs (ih h')

/-- A run through `es ++ fs` stops in between. -/
theorem Run.split {s u : σ} {es fs : List (Event σ α)} (h : Run S s (es ++ fs) u) :
    ∃ t, Run S s es t ∧ Run S t fs u := by
  induction es generalizing s with
  | nil => exact ⟨s, .nil s, h⟩
  | cons e es ih =>
    cases h with
    | cons hs h' =>
      obtain ⟨t, h1, h2⟩ := ih h'
      exact ⟨t, .cons hs h1, h2⟩

/-- A run passes each of its events. -/
theorem Run.at {s t : σ} {es fs : List (Event σ α)} {e : Event σ α} (h : Run S s (es ++ e :: fs) t) :
    Run S s es e.before ∧ S.step e.before e.label = some e.after := by
  obtain ⟨u, h1, h2⟩ := h.split
  cases h2 with
  | cons hs _ => exact ⟨h1, hs⟩

/-- Each event of a run is a step. -/
theorem Run.step_of_mem {s t : σ} {es : List (Event σ α)} (h : Run S s es t) {e : Event σ α} (he : e ∈ es) :
    S.step e.before e.label = some e.after := by
  obtain ⟨fs, gs, rfl⟩ := List.append_of_mem he
  exact h.at.2

/-- What holds at first and after every step holds at last. -/
theorem Run.last {I : σ → Prop} {s t : σ} {es : List (Event σ α)} (h : Run S s es t) (h0 : I s)
    (he : ∀ e ∈ es, I e.after) : I t := by
  induction h with
  | nil => exact h0
  | cons _ _ ih => exact ih (he _ List.mem_cons_self) fun e h => he e (List.mem_cons_of_mem _ h)

/-- The events of the labels `as`, as far as they are possible. -/
def System.trace : σ → List α → List (Event σ α)
  | _, [] => []
  | s, a :: as =>
    match S.step s a with
    | some s' => ⟨s, a, s'⟩ :: System.trace s' as
    | none => []

theorem System.exec_append (s : σ) (as bs : List α) :
    S.exec s (as ++ bs) = (S.exec s as).bind fun t => S.exec t bs := by
  induction as generalizing s with
  | nil => rfl
  | cons a as ih =>
    rw [List.cons_append, System.exec, System.exec]
    cases S.step s a with
    | none => rfl
    | some t => exact ih t

theorem Run.of_exec {s t : σ} {as : List α} (h : S.exec s as = some t) : Run S s (S.trace s as) t := by
  induction as generalizing s with
  | nil =>
    obtain rfl : s = t := by simpa [System.exec] using h
    exact .nil s
  | cons a as ih =>
    obtain ⟨s', hs, h'⟩ := Option.bind_eq_some_iff.mp h
    rw [System.trace, hs]
    exact .cons hs (ih h')

theorem map_label_trace {s t : σ} {as : List α} (h : S.exec s as = some t) :
    (S.trace s as).map (·.label) = as := by
  induction as generalizing s with
  | nil => rfl
  | cons a as ih =>
    obtain ⟨s', hs, h'⟩ := Option.bind_eq_some_iff.mp h
    rw [System.trace, hs, List.map_cons, ih h']

theorem Run.exists_of_exec {s t : σ} {as : List α} (h : S.exec s as = some t) :
    ∃ es, Run S s es t ∧ es.map (·.label) = as :=
  ⟨_, .of_exec h, map_label_trace h⟩

theorem Reachable.of_init {init : σ → Prop} {s : σ} (h : init s) : Reachable S init s :=
  ⟨s, [], h, .nil s⟩

theorem Reachable.run {init : σ → Prop} {s t : σ} {es : List (Event σ α)} (h : Reachable S init s)
    (hr : Run S s es t) : Reachable S init t := by
  obtain ⟨s₀, fs, h0, h1⟩ := h
  exact ⟨s₀, fs ++ es, h0, h1.append hr⟩

theorem Reachable.step {init : σ → Prop} {s t : σ} {a : α} (h : Reachable S init s)
    (hs : S.step s a = some t) : Reachable S init t :=
  h.run (.single hs)

theorem Reachable.of_exec {init : σ → Prop} {s t : σ} {as : List α} (h : init s)
    (hs : S.exec s as = some t) : Reachable S init t := by
  obtain ⟨es, hr, -⟩ := Run.exists_of_exec hs
  exact ⟨s, es, h, hr⟩

/-! ### Invariants -/

/-- What every step meeting `A` keeps, a run of such steps keeps. -/
theorem Run.invariant {I : σ → Prop} {A : σ → α → Prop}
    (hI : ∀ s a s', I s → A s a → S.step s a = some s' → I s') {s t : σ} {es : List (Event σ α)}
    (h : Run S s es t) (hA : ∀ e ∈ es, A e.before e.label) (h0 : I s) :
    I t ∧ ∀ e ∈ es, I e.before ∧ I e.after := by
  induction h with
  | nil => exact ⟨h0, by simp⟩
  | cons hs _ ih =>
    have h1 := hI _ _ _ h0 (hA _ List.mem_cons_self) hs
    obtain ⟨h2, h3⟩ := ih (fun e he => hA e (List.mem_cons_of_mem _ he)) h1
    refine ⟨h2, fun e he => ?_⟩
    rcases List.mem_cons.mp he with rfl | he
    · exact ⟨h0, h1⟩
    · exact h3 e he

/-- What every step meeting `A` keeps, given the events so far, a run of such
steps keeps. -/
theorem Run.history {I : List (Event σ α) → σ → Prop} {A : σ → α → Prop}
    (hI : ∀ es s a s', I es s → A s a → S.step s a = some s' → I (es ++ [⟨s, a, s'⟩]) s')
    {s t : σ} {es : List (Event σ α)} (h : Run S s es t) (hA : ∀ e ∈ es, A e.before e.label)
    (h0 : I [] s) : I es t := by
  have aux : ∀ past, I past s → I (past ++ es) t := by
    clear h0
    induction h with
    | nil => exact fun past h => (List.append_nil past).symm ▸ h
    | @cons s s' t a es hs _ ih =>
      intro past h0
      have h1 := hI past s a s' h0 (hA _ List.mem_cons_self) hs
      have h2 := ih (fun e he => hA e (List.mem_cons_of_mem _ he)) _ h1
      rwa [List.append_assoc] at h2
  exact aux [] h0

/-- A part `f` of the state that a step replaces by what its label brings, if it
brings something, is what was brought last. -/
theorem Run.getLastD {β : Type*} {f : σ → β} {g : α → Option β}
    (hf : ∀ s a s', S.step s a = some s' → f s' = (g a).getD (f s)) {s t : σ} {es : List (Event σ α)}
    (h : Run S s es t) : f t = (es.filterMap fun e => g e.label).getLastD (f s) := by
  induction h with
  | nil s => rfl
  | @cons s s' t a es hs _ ih =>
    rw [ih, hf s a s' hs, List.filterMap_cons]
    cases g a with
    | none => rfl
    | some b => exact (List.getLastD_cons ..).symm

/-- What holds at first and every step keeps, every reachable state has. -/
theorem Reachable.invariant {init I : σ → Prop} (h0 : ∀ s, init s → I s)
    (hI : ∀ s a s', I s → S.step s a = some s' → I s') {t : σ} (h : Reachable S init t) : I t := by
  obtain ⟨s, es, hs, hr⟩ := h
  exact (hr.invariant (A := fun _ _ => True) (fun s a s' hs _ h => hI s a s' hs h)
    (fun _ _ => trivial) (h0 s hs)).1

/-- A property of the steps that, under the invariant `J` it keeps, exactly the
steps `bad` lack, all steps of a run have exactly when none of them is `bad`. -/
theorem Run.safe_iff {J : σ → Prop} {A bad : σ → α → Prop} {G : Event σ α → Prop}
    (hJ : ∀ e : Event σ α, J e.before → A e.before e.label → S.step e.before e.label = some e.after →
      G e → J e.after)
    (hG : ∀ e : Event σ α, J e.before → A e.before e.label → S.step e.before e.label = some e.after →
      (G e ↔ ¬ bad e.before e.label))
    {s t : σ} {es : List (Event σ α)} (h : Run S s es t) (hA : ∀ e ∈ es, A e.before e.label) (h0 : J s) :
    (∀ e ∈ es, G e) ↔ ∀ e ∈ es, ¬ bad e.before e.label := by
  induction h with
  | nil => simp
  | @cons s s' t a es hs _ ih =>
    have hA0 := hA _ List.mem_cons_self
    have hstep := hG ⟨s, a, s'⟩ h0 hA0 hs
    have ih' := ih fun e he => hA e (List.mem_cons_of_mem _ he)
    simp only [List.forall_mem_cons]
    constructor
    · rintro ⟨h1, h2⟩
      exact ⟨hstep.mp h1, (ih' (hJ _ h0 hA0 hs h1)).mp h2⟩
    · rintro ⟨h1, h2⟩
      have h3 := hstep.mpr h1
      exact ⟨h3, (ih' (hJ _ h0 hA0 hs h3)).mpr h2⟩

/-! ### Systems that follow -/

/-- If each step is one that `T` can follow along what `f` makes of it, then `T` can
follow every run. -/
theorem Run.follows {β τ : Type*} {T : System τ β} {f : Event σ α → List β} {R : σ → τ → Prop}
    (hR : ∀ s t a s', R s t → S.step s a = some s' → ∃ t', T.exec t (f ⟨s, a, s'⟩) = some t' ∧ R s' t')
    {s s' : σ} {t : τ} {es : List (Event σ α)} (h : Run S s es s') (h0 : R s t) :
    ∃ t', T.exec t (es.flatMap f) = some t' ∧ R s' t' := by
  induction h generalizing t with
  | nil s => exact ⟨t, rfl, h0⟩
  | @cons s s₁ s' a es hs _ ih =>
    obtain ⟨t₁, h1, hR1⟩ := hR s t a s₁ h0 hs
    obtain ⟨t', h2, hR2⟩ := ih hR1
    refine ⟨t', ?_, hR2⟩
    rw [List.flatMap_cons, System.exec_append, h1]
    exact h2

/-! ### Machines that are watched -/

/-- A machine whose steps let something be seen. -/
structure Machine (σ α β : Type*) where
  step : σ → α → Option (σ × List β)

/-- What it does, unwatched. -/
def Machine.system {β : Type*} (M : Machine σ α β) : System σ α where
  step s a := (M.step s a).map (·.1)

/-- What is seen of a step. -/
def Machine.seen {β : Type*} (M : Machine σ α β) (e : Event σ α) : List β :=
  ((M.step e.before e.label).map (·.2)).getD []

/-- What is seen of a step is what it gives beside its state. -/
theorem Machine.seen_of_step {β : Type*} {M : Machine σ α β} {s s' t : σ} {a : α} {seen : List β}
    (h : M.step s a = some (t, seen)) : M.seen ⟨s, a, s'⟩ = seen := by
  unfold Machine.seen
  rw [h]
  rfl

/-- An event of a run is a step, and what is seen of it. -/
theorem Machine.step_of_mem {β : Type*} {M : Machine σ α β} {s t : σ} {es : List (Event σ α)}
    (h : Run M.system s es t) {e : Event σ α} (he : e ∈ es) : M.step e.before e.label = some (e.after, M.seen e) := by
  obtain ⟨⟨s', seen⟩, hp, hafter⟩ := Option.map_eq_some_iff.mp (h.step_of_mem he)
  obtain rfl : s' = e.after := hafter
  rw [hp, ← Machine.seen_of_step hp]

/-- If each step of the machine is one that `T` can follow along what is seen of
it, then `T` can follow every run. -/
theorem Machine.follows {β τ : Type*} {M : Machine σ α β} {T : System τ β} {R : σ → τ → Prop}
    (hR : ∀ s t a s' seen, R s t → M.step s a = some (s', seen) → ∃ t', T.exec t seen = some t' ∧ R s' t')
    {s s' : σ} {t : τ} {es : List (Event σ α)} (h : Run M.system s es s') (h0 : R s t) :
    ∃ t', T.exec t (es.flatMap M.seen) = some t' ∧ R s' t' := by
  refine h.follows (fun s t a s' hs hstep => ?_) h0
  obtain ⟨⟨s', seen⟩, hp, rfl⟩ := Option.map_eq_some_iff.mp hstep
  rw [Machine.seen_of_step hp]
  exact hR s t a s' seen hs hp

/-- Of what is seen of a run, so much as `weight` was left for it. -/
theorem Machine.countP_le {β : Type*} {M : Machine σ α β} {I : σ → Prop} (weight : σ → ℕ) {q : β → Bool}
    (hstep : ∀ s a p, I s → M.step s a = some p → I p.1 ∧ p.2.countP q + weight p.1 ≤ weight s) {s t : σ}
    {es : List (Event σ α)} (h : Run M.system s es t) (hI : I s) :
    (es.flatMap M.seen).countP q + weight t ≤ weight s := by
  induction h with
  | nil s => exact Nat.le_of_eq (Nat.zero_add _)
  | @cons s s₁ t a es hs _ ih =>
    obtain ⟨p, hp, rfl⟩ := Option.map_eq_some_iff.mp hs
    obtain ⟨hI', hle⟩ := hstep s a p hI hp
    have hrest := ih hI'
    rw [List.flatMap_cons, Machine.seen_of_step hp, List.countP_append]
    omega

/-- There is a run from `s` to `t` of which `seen` is seen. -/
def Machine.Can {β : Type*} (M : Machine σ α β) (s : σ) (seen : List β) (t : σ) : Prop :=
  ∃ es, Run M.system s es t ∧ es.flatMap M.seen = seen

theorem Machine.Can.refl {β : Type*} {M : Machine σ α β} (s : σ) : M.Can s [] s := ⟨[], .nil s, rfl⟩

theorem Machine.Can.step {β : Type*} {M : Machine σ α β} {s s' t : σ} {a : α} {seen rest : List β}
    (h : M.step s a = some (s', seen)) (h' : M.Can s' rest t) : M.Can s (seen ++ rest) t := by
  obtain ⟨es, hrun, hrest⟩ := h'
  have hs : M.system.step s a = some s' := by
    show (M.step s a).map _ = _
    rw [h]
    rfl
  exact ⟨⟨s, a, s'⟩ :: es, .cons hs hrun, by rw [List.flatMap_cons, Machine.seen_of_step h, hrest]⟩

theorem Machine.Can.trans {β : Type*} {M : Machine σ α β} {s t u : σ} {seen rest : List β} (h : M.Can s seen t)
    (h' : M.Can t rest u) : M.Can s (seen ++ rest) u := by
  obtain ⟨es, hrun, hseen⟩ := h
  obtain ⟨fs, hrun', hrest⟩ := h'
  exact ⟨es ++ fs, hrun.append hrun', by rw [List.flatMap_append, hseen, hrest]⟩

end Lts
