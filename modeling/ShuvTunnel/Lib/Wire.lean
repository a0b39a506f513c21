/-
# Positions in a list, and numbers in bytes

What a parser that keeps an offset into its input needs to be compared with an
encoder that appends: `Cursor l i xs` says that `xs` is what is left of `l`
from the position `i` on, and moves by lemmas of its own. A number below
`256 ^ k` is written in `k` bytes, the most significant first, and read back.

Key definitions: `Cursor`, `be`, `ofBe`.
Key theorems: `Cursor.advance`, `Cursor.get`, `Cursor.slice`, `ofBe_be`.
-/
import Mathlib.Algebra.Group.Nat.Defs
import Mathlib.Data.List.Basic

namespace Wire

variable {α : Type*}

/-! ### Positions -/

/-- From the position `i` on, `l` is `xs`. -/
def Cursor (l : List α) (i : ℕ) (xs : List α) : Prop := ∃ pre, l = pre ++ xs ∧ pre.length = i

theorem Cursor.start (l : List α) : Cursor l 0 l := ⟨[], rfl, rfl⟩

theorem Cursor.advance {l a b : List α} {i n : ℕ} (h : Cursor l i (a ++ b)) (hn : a.length = n) :
    Cursor l (i + n) b := by
  obtain ⟨pre, rfl, rfl⟩ := h
  exact ⟨pre ++ a, by simp, by simp [hn]⟩

theorem Cursor.next {l : List α} {a : α} {b : List α} {i : ℕ} (h : Cursor l i (a :: b)) :
    Cursor l (i + 1) b :=
  Cursor.advance (a := [a]) h rfl

theorem Cursor.length {l xs : List α} {i : ℕ} (h : Cursor l i xs) : l.length = i + xs.length := by
  obtain ⟨pre, rfl, rfl⟩ := h
  simp

theorem Cursor.drop {l xs : List α} {i : ℕ} (h : Cursor l i xs) : l.drop i = xs := by
  obtain ⟨pre, rfl, rfl⟩ := h
  simp

/-- The element at the position. -/
theorem Cursor.get {l b : List α} {a : α} {i : ℕ} (h : Cursor l i (a :: b)) (d : α) : l.getD i d = a := by
  obtain ⟨pre, rfl, rfl⟩ := h
  simp

/-- The elements from the position up to another. -/
theorem Cursor.slice {l a b : List α} {i n : ℕ} (h : Cursor l i (a ++ b)) (hn : a.length = n) :
    (l.drop i).take n = a := by
  rw [h.drop]
  simp [← hn]

/-- Parts that take a position each are no more than the positions of their
whole. -/
theorem length_le_flatten {β : Type*} {encode : β → List α} (h : ∀ x, encode x ≠ []) (xs : List β) :
    xs.length ≤ (xs.map encode).flatten.length := by
  induction xs with
  | nil => simp
  | cons x xs ih =>
    have := List.length_pos_iff.mpr (h x)
    simp only [List.map_cons, List.flatten_cons, List.length_append, List.length_cons]
    omega

/-! ### Big-endian numbers -/

/-- `x` in `k` bytes. -/
def be : ℕ → ℕ → List UInt8
  | 0, _ => []
  | k + 1, x => be k (x / 256) ++ [UInt8.ofNat x]

/-- The number of some bytes, the most significant first. -/
def ofBe (bs : List UInt8) : ℕ := bs.foldl (fun n b => 256 * n + b.toNat) 0

@[simp] theorem length_be (k x : ℕ) : (be k x).length = k := by
  induction k generalizing x with
  | zero => rfl
  | succ k ih => simp [be, ih]

theorem ofBe_concat (bs : List UInt8) (b : UInt8) : ofBe (bs ++ [b]) = 256 * ofBe bs + b.toNat := by
  simp [ofBe]

/-- A number that fits is read back. -/
theorem ofBe_be {k x : ℕ} (h : x < 256 ^ k) : ofBe (be k x) = x := by
  induction k generalizing x with
  | zero =>
    obtain rfl : x = 0 := by simpa using h
    rfl
  | succ k ih =>
    have hx : x / 256 < 256 ^ k := Nat.div_lt_of_lt_mul (by rwa [Nat.pow_succ, Nat.mul_comm] at h)
    have hb : (UInt8.ofNat x).toNat = x % 256 := by simp
    rw [be, ofBe_concat, ih hx, hb]
    exact Nat.div_add_mod x 256

end Wire
