/-
# What the suspended handlers carry

Every handler that may write a record back read it while the tunnel was
there, so what it writes back is not deleted; and a handler that waits for the
`create` of a renewal carries a record whose certificate was ready.

Key definitions: `Task.Sound`.
Key theorems: `sound_of_reachable`.
-/
import ShuvTunnel.Segments

namespace ShuvTunnel

open Coop

/-- The record carried is one that was not deleted; `connect` alone reads a
deleted one too, and never writes. -/
structure Task.Sound (t : Task) : Prop where
  live : ∀ r, t.snapshot = some r → r.deletedAt = none ∨ ∃ x, t = .connectRead x
  ready : ∀ r params accepted, t = .renewCreate r params accepted → r.ready = true

theorem Task.Sound.not_deleted {t : Task} {r : StoredTunnel} (h : t.Sound) (ht : t.snapshot = some r)
    (hn : ∀ x, t ≠ .connectRead x) : r.deletedAt = none :=
  (h.live r ht).resolve_right fun ⟨x, hx⟩ => hn x hx

/-- A task that is neither `connect`'s nor a renewal's, with a live record. -/
theorem Task.Sound.of_live {t : Task} {r : StoredTunnel} (ht : t.snapshot = some r)
    (hr : r.deletedAt = none) (hn : ∀ r params accepted, t ≠ .renewCreate r params accepted) : t.Sound := by
  refine ⟨fun x hx => .inl ?_, fun r p a h => absurd h (hn r p a)⟩
  obtain rfl := Option.some.inj (ht.symm.trans hx)
  exact hr

theorem Task.Sound.of_renewing {r : StoredTunnel} {params : CertificateWorkflowParams} {accepted : Bool}
    (hl : r.deletedAt = none) (hr : r.ready = true) : (Task.renewCreate r params accepted).Sound := by
  refine ⟨fun x hx => .inl ?_, fun x p a h => ?_⟩
  · obtain rfl := Option.some.inj hx
    exact hl
  · obtain ⟨rfl, -, -⟩ := Task.renewCreate.inj h
    exact hr

theorem Task.Sound.of_none {t : Task} (ht : t.snapshot = none) : t.Sound := by
  refine ⟨fun r hr => ?_, fun r p a h => ?_⟩
  · rw [ht] at hr; cases hr
  · rw [h] at ht; cases ht

theorem Follows.sound {P : Platform} {d : Durable} {c : Cause} {u : Task} (h : Follows P d c u)
    (hc : ∀ t a, c = .resumed t a → t.Sound) : u.Sound := by
  have live : ∀ {r : StoredTunnel}, d.live = some r → r.deletedAt = none := fun h =>
    (Durable.live_eq_some.mp h).2
  -- the record a resumed handler was carrying
  have carried : ∀ {t : Task} {a : Answer} {r : StoredTunnel}, c = .resumed t a → t.snapshot = some r →
      (∀ x, t ≠ .connectRead x) → r.deletedAt = none := fun he ht hn => by
    rcases (hc _ _ he).live _ ht with h | ⟨x, hx⟩
    · exact h
    · exact absurd hx (hn x)
  cases h with
  | info hl => exact .of_live rfl (live hl) fun _ _ _ h => by cases h
  | certificate hl => exact .of_live rfl (live hl) fun _ _ _ h => by cases h
  | remove hl => exact .of_live rfl (live hl) fun _ _ _ h => by cases h
  | bind hl => exact .of_live rfl (live hl) fun _ _ _ h => by cases h
  | attach => exact .of_none rfl
  | connect => exact ⟨fun _ _ => .inr ⟨_, rfl⟩, by simp⟩
  | attachRead hl => exact .of_live rfl (live hl) fun _ _ _ h => by cases h
  | bindHash _ _ =>
    exact .of_live rfl (carried rfl rfl fun _ h => by cases h) fun _ _ _ h => by cases h
  | resubmit _ _ =>
    exact .of_live rfl (carried rfl rfl fun _ h => by cases h) fun _ _ _ h => by cases h
  | ensureStatus =>
    exact .of_live rfl (carried rfl rfl fun _ h => by cases h) fun _ _ _ h => by cases h
  | ensureRestart =>
    exact .of_live rfl (carried rfl rfl fun _ h => by cases h) fun _ _ _ h => by cases h
  | upload => exact .of_none rfl
  | settling => exact .of_none rfl

theorem Task.Sound.taken {t : Task} (h : t.Sound) : t.taken.Sound := by
  cases t with
  | renewCreate r params accepted =>
    refine .of_renewing ?_ (h.ready _ _ _ rfl)
    rcases h.live r rfl with h | ⟨x, hx⟩
    · exact h
    · cases hx
  | ensureCreate e accepted =>
    refine .of_live rfl ?_ fun _ _ _ h => by cases h
    rcases h.live e.record rfl with h | ⟨x, hx⟩
    · exact h
    · cases hx
  | ensureRestart e accepted =>
    refine .of_live rfl ?_ fun _ _ _ h => by cases h
    rcases h.live e.record rfl with h | ⟨x, hx⟩
    · exact h
    · cases hx
  | _ => exact h

/-- The task a segment ends with is sound, when the one it resumed was. -/
theorem Effect.sound {P : Platform} {s s' : Store} {c : Cause} {o : Outcome Task Result}
    (h : Effect P s c s' o) (hc : ∀ t a, c = .resumed t a → t.Sound) :
    ∀ u, o = .await u → u.Sound := by
  intro u hu
  have carried : ∀ {t : Task} {a : Answer} {r : StoredTunnel}, c = .resumed t a → t.snapshot = some r →
      (∀ x, t ≠ .connectRead x) → r.deletedAt = none := fun he => (hc _ _ he).not_deleted
  cases h with
  | quiet _ ho _ => exact (ho u hu).sound hc
  | opened _ _ _ _ ho =>
    obtain ⟨k, rfl⟩ := ho u hu
    exact .of_none rfl
  | renewing hl hr _ _ _ =>
    cases hu
    exact .of_renewing (Durable.live_eq_some.mp hl).2 hr
  | @issued csr req r ids id uuid session _ _ =>
    cases hu
    have hr : r.deletedAt = none := carried rfl rfl fun _ h => by cases h
    exact .of_live rfl hr fun _ _ _ h => by cases h
  | requested he _ =>
    cases hu
    refine .of_live rfl (carried rfl (Task.snapshot_of_ensure he) fun x hx => ?_) fun _ _ _ h => by cases h
    rw [hx] at he
    cases he
  | taken _ _ =>
    cases hu
    exact (hc _ _ rfl).taken
  | restarted _ =>
    cases hu
    exact .of_live rfl (carried rfl rfl fun _ h => by cases h) fun _ _ _ h => by cases h
  | @attachedRenewing w token uuid session csr id routes r b ha _ _ _ _ _ =>
    cases hu
    have hr : r.deletedAt = none := carried rfl rfl fun _ h => by cases h
    exact .of_renewing hr (attachAccepts_ready ha)
  -- the other segments end their handler
  | _ => cases hu

theorem sound_of_reachable {P : Platform} {s : State} (h : Reachable P s) : ∀ p ∈ s.tasks, p.2.Sound := by
  refine (Holds.of_reachable (H := handlers P) (G := fun _ => True) (T := fun _ _ t => t.Sound)
    ?_ ⟨?_, ?_, ?_⟩ h).tasks
  · rintro s ⟨now, rfl⟩
    exact ⟨trivial, fun _ h => by cases h⟩
  · intro s c x o _ _ h
    exact ⟨trivial, fun _ _ ht => ht, (start_effect h).sound fun _ _ h => by cases h⟩
  · intro s k a t x o hs _ ht h
    refine ⟨trivial, fun _ _ ht => ht, (resume_effect h).sound fun t' a' he => ?_⟩
    obtain ⟨rfl, rfl⟩ := Cause.resumed.inj he
    exact hs.tasks _ (task_mem ht)
  · intro s e x _ _ _
    exact ⟨trivial, fun _ _ ht => ht⟩

end ShuvTunnel
