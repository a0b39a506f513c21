/-
# Expansion of references

Many formats let a sign begin a reference to something, which a reader puts in its
place: a variable, a specifier, the sign itself. `expand` does this from left to
right; what was put in is not read again.

Key definitions: `Expansion.expand`, `Expansion.Plain`, `Expansion.Short`.
Key theorems: `expand_of_plain`, `plain_of_length`.
-/
import Mathlib.Data.List.Basic

namespace Expansion

variable {α : Type*} [DecidableEq α]

/-- What the text behind a sign begins with, if it is a reference: the text that
it stands for, and its length. -/
abbrev References (α : Type*) := List α → Option (List α × ℕ)

variable (sign : α) (refs : References α)

/-- The text without its first `skip` elements, expanded. -/
def expand : ℕ → List α → List α
  | _, [] => []
  | skip + 1, _ :: text => expand skip text
  | 0, a :: text =>
    if a = sign then
      match refs text with
      | some (value, length) => value ++ expand length text
      | none => a :: expand 0 text
    else a :: expand 0 text

/-- No sign begins a reference. -/
def Plain (text : List α) : Prop := ∀ before behind, text = before ++ sign :: behind → refs behind = none

/-- A reference is followed by no less than it says, and stands for no more. -/
def Short (refs : References α) : Prop :=
  ∀ behind value length, refs behind = some (value, length) → value.length ≤ length ∧ length ≤ behind.length

variable {sign refs} {text : List α}

omit [DecidableEq α] in
theorem plain_nil : Plain sign refs [] := fun before behind h => by simp at h

omit [DecidableEq α] in
theorem plain_cons {a : α} : Plain sign refs (a :: text) ↔ (a = sign → refs text = none) ∧ Plain sign refs text := by
  constructor
  · exact fun h => ⟨fun ha => h [] text (by rw [ha]; rfl), fun before behind htext => h (a :: before) behind (by
      rw [htext]
      rfl)⟩
  · rintro ⟨hhead, htail⟩ before behind h
    cases before with
    | nil =>
      obtain ⟨rfl, rfl⟩ := List.cons.inj h
      exact hhead rfl
    | cons b before => exact htail before behind (List.cons.inj h).2

theorem expand_of_plain (h : Plain sign refs text) : expand sign refs 0 text = text := by
  induction text with
  | nil => rfl
  | cons a text ih =>
    obtain ⟨hhead, htail⟩ := plain_cons.mp h
    rw [expand]
    split
    · rename_i ha
      rw [hhead ha, ih htail]
    · rw [ih htail]

/-- Short references make a text no longer. -/
theorem length_expand_le (hshort : Short refs) (text : List α) (skip : ℕ) :
    (expand sign refs skip text).length ≤ text.length - skip := by
  induction text generalizing skip with
  | nil => simp [expand]
  | cons a text ih =>
    cases skip with
    | succ skip =>
      have := ih skip
      rw [expand, List.length_cons]
      omega
    | zero =>
      have hrest := ih 0
      rw [expand]
      split
      · split
        · rename_i value length hrefs
          obtain ⟨hvalue, hlength⟩ := hshort text value length hrefs
          have := ih length
          rw [List.length_append, List.length_cons]
          omega
        · rw [List.length_cons, List.length_cons]
          omega
      · rw [List.length_cons, List.length_cons]
        omega

/-- A text that short references leave as long as it is has none. -/
theorem plain_of_length (hshort : Short refs) (h : text.length ≤ (expand sign refs 0 text).length) :
    Plain sign refs text := by
  induction text with
  | nil => exact plain_nil
  | cons a text ih =>
    rw [expand] at h
    split at h
    · split at h
      · -- the sign is gone, and what is behind it got no longer
        rename_i value length hrefs
        obtain ⟨hvalue, hlength⟩ := hshort text value length hrefs
        have hrest : (expand sign refs length text).length ≤ text.length - length :=
          length_expand_le hshort text length
        rw [List.length_append, List.length_cons] at h
        omega
      · rename_i hrefs
        rw [List.length_cons, List.length_cons] at h
        exact plain_cons.mpr ⟨fun _ => hrefs, ih (by omega)⟩
    · rename_i ha
      rw [List.length_cons, List.length_cons] at h
      exact plain_cons.mpr ⟨fun h => absurd h ha, ih (by omega)⟩

end Expansion
