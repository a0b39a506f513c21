/-
# One hop of a stream

A stream goes over several hops and is cut into pieces anew on each. On a hop
all that was written is what has arrived, what is under way and what the sender
still holds; the end is sent behind all of it; and wherever the stream breaks
off, what arrives is a beginning of what was written.

`Carries` says so of one hop, and its rules are what can happen there: more is
written, the sender sends a piece or the end, or breaks off; the pieces behind
some point are lost; the receiver takes a piece, or a part of one.

Key definitions: `Piece`, `carried`, `closing`, `Sender`, `Carries`.
Key theorems: `Carries.grow`, `Carries.send`, `Carries.finish`, `Carries.lose`,
`Carries.apart`, `Carries.take`, `Carries.ended`, `Carries.arrived`.
-/
import Mathlib.Data.List.Basic

namespace Hop

variable {α : Type*}

/-! ### Pieces -/

/-- A part of the stream, its end, or the news that it broke off. -/
inductive Piece (α : Type*)
  | data (xs : List α)
  | fin
  | abort

/-- What the pieces bring before the stream ends or breaks off. -/
def carried : List (Piece α) → List α
  | .data xs :: ps => xs ++ carried ps
  | _ => []

/-- The first piece that is no data. -/
def closing : List (Piece α) → Option (Piece α)
  | [] => none
  | .data _ :: ps => closing ps
  | p :: _ => some p

@[simp] theorem carried_nil : carried ([] : List (Piece α)) = [] := rfl

@[simp] theorem carried_data (xs : List α) (ps : List (Piece α)) : carried (.data xs :: ps) = xs ++ carried ps := rfl

@[simp] theorem carried_fin (ps : List (Piece α)) : carried (.fin :: ps) = [] := rfl

@[simp] theorem closing_nil : closing ([] : List (Piece α)) = none := rfl

@[simp] theorem closing_data (xs : List α) (ps : List (Piece α)) : closing (.data xs :: ps) = closing ps := rfl

@[simp] theorem closing_fin (ps : List (Piece α)) : closing (.fin :: ps) = some .fin := rfl

theorem closing_append (ps qs : List (Piece α)) : closing (ps ++ qs) = (closing ps).or (closing qs) := by
  induction ps with
  | nil => simp
  | cons p ps ih =>
    cases p with
    | data xs => simpa using ih
    | fin => rfl
    | abort => rfl

/-- Pieces behind an open stream bring more. -/
theorem carried_append_of_open {ps : List (Piece α)} (h : closing ps = none) (qs : List (Piece α)) :
    carried (ps ++ qs) = carried ps ++ carried qs := by
  induction ps with
  | nil => rfl
  | cons p ps ih =>
    cases p with
    | data xs =>
      have := ih h
      simp [this]
    | fin => cases h
    | abort => cases h

/-- Behind a closed one they do not. -/
theorem carried_append_of_closed {ps : List (Piece α)} (h : closing ps ≠ none) (qs : List (Piece α)) :
    carried (ps ++ qs) = carried ps := by
  induction ps with
  | nil => exact absurd rfl h
  | cons p ps ih =>
    cases p with
    | data xs =>
      have := ih h
      simp [this]
    | fin => rfl
    | abort => rfl

/-! ### The sender -/

/-- The sender may send more, has sent the end, or has broken off. -/
inductive Sender
  | live
  | ended
  | dead
  deriving DecidableEq

/-- The sender once it is cut off from the receiver. -/
def Sender.cut : Sender → Sender
  | ended => ended
  | _ => dead

@[simp] theorem Sender.cut_ne_live (s : Sender) : s.cut ≠ .live := by cases s <;> simp [cut]

@[simp] theorem Sender.cut_eq_ended {s : Sender} : s.cut = .ended ↔ s = .ended := by cases s <;> simp [cut]

@[simp] theorem Sender.cut_cut (s : Sender) : s.cut.cut = s.cut := by cases s <;> rfl

/-! ### What a hop carries -/

/-- Of `whole`, all that was written, `got` has arrived, `ps` is under way and
`unsent` is left with the sender. -/
structure Carries (whole unsent : List α) (s : Sender) (got : List α) (ps : List (Piece α)) : Prop where
  isPrefix : got ++ carried ps <+: whole
  rest : s = .live → closing ps = none → got ++ carried ps ++ unsent = whole
  closed : closing ps = some .fin → s = .ended ∧ got ++ carried ps = whole

namespace Carries

variable {whole unsent got xs ys : List α} {s : Sender} {ps qs : List (Piece α)}

/-- All is left with the sender. -/
theorem start (whole : List α) : Carries whole whole .live [] [] :=
  ⟨List.nil_prefix, fun _ _ => rfl, fun h => nomatch h⟩

/-- More is written. -/
theorem grow (h : Carries whole unsent s got ps) (hs : s ≠ .ended) (xs : List α) :
    Carries (whole ++ xs) (unsent ++ xs) s got ps := by
  refine ⟨h.isPrefix.trans (List.prefix_append _ _), fun hl hc => ?_, fun hc => absurd (h.closed hc).1 hs⟩
  rw [← List.append_assoc, h.rest hl hc]

/-- A piece is sent. -/
theorem send (h : Carries whole (xs ++ unsent) .live got ps) : Carries whole unsent .live got (ps ++ [.data xs]) := by
  by_cases hc : closing ps = none
  · have hwhole : got ++ carried (ps ++ [.data xs]) ++ unsent = whole := by
      rw [carried_append_of_open hc, ← h.rest rfl hc]
      simp
    refine ⟨⟨unsent, hwhole⟩, fun _ _ => hwhole, fun hf => ?_⟩
    rw [closing_append, hc] at hf
    cases hf
  · have hsame : closing (ps ++ [.data xs]) = closing ps := by
      rw [closing_append]
      simp
    refine ⟨?_, fun _ hn => ?_, fun hf => ?_⟩
    · rw [carried_append_of_closed hc]
      exact h.isPrefix
    · rw [hsame] at hn
      exact absurd hn hc
    · rw [hsame] at hf
      exact nomatch (h.closed hf).1

/-- Pieces are sent one after the other. -/
theorem sendAll {xss : List (List α)} (h : Carries whole (xss.flatten ++ unsent) .live got ps) :
    Carries whole unsent .live got (ps ++ xss.map .data) := by
  induction xss generalizing ps with
  | nil => simpa using h
  | cons xs xss ih =>
    have h' : Carries whole (xs ++ (xss.flatten ++ unsent)) .live got ps := by simpa using h
    simpa using ih h'.send

/-- The end is sent behind all there is. -/
theorem finish (h : Carries whole [] .live got ps) : Carries whole [] .ended got (ps ++ [.fin]) := by
  by_cases hc : closing ps = none
  · have hwhole : got ++ carried (ps ++ [.fin]) = whole := by
      rw [carried_append_of_open hc, ← h.rest rfl hc]
      simp
    exact ⟨⟨[], by simpa using hwhole⟩, fun hs => (nomatch hs), fun _ => ⟨rfl, hwhole⟩⟩
  · refine ⟨?_, fun hs => (nomatch hs), fun hf => ?_⟩
    · rw [carried_append_of_closed hc]
      exact h.isPrefix
    · have hsame : closing (ps ++ [.fin]) = closing ps := by
        rw [closing_append]
        cases hp : closing ps with
        | none => exact absurd hp hc
        | some p => rfl
      rw [hsame] at hf
      exact nomatch (h.closed hf).1

/-- News of a break changes nothing of what came before. -/
theorem abort (h : Carries whole unsent s got ps) (hq : ∀ q ∈ qs, q = .abort) :
    Carries whole unsent s got (ps ++ qs) := by
  have hcarried : carried qs = [] := by
    cases qs with
    | nil => rfl
    | cons q qs =>
      obtain rfl := hq q List.mem_cons_self
      rfl
  have hsame : carried (ps ++ qs) = carried ps := by
    by_cases hc : closing ps = none
    · rw [carried_append_of_open hc, hcarried, List.append_nil]
    · exact carried_append_of_closed hc qs
  refine ⟨by rw [hsame]; exact h.isPrefix, fun hs hn => ?_, fun hf => ?_⟩
  · rw [closing_append] at hn
    rw [hsame]
    exact h.rest hs (Option.or_eq_none_iff.mp hn).1
  · rw [hsame]
    refine h.closed ?_
    rw [closing_append] at hf
    cases hp : closing ps with
    | some p =>
      rw [hp] at hf
      exact hf
    | none =>
      rw [hp] at hf
      have hf : closing qs = some .fin := hf
      cases qs with
      | nil => cases hf
      | cons q qs =>
        obtain rfl := hq q List.mem_cons_self
        cases hf

/-- The sender breaks off. -/
theorem breaks (h : Carries whole unsent s got ps) (hs : s ≠ .ended) (left : List α) : Carries whole left .dead got ps :=
  ⟨h.isPrefix, fun hd => (nomatch hd), fun hf => absurd (h.closed hf).1 hs⟩

/-- The sender is cut off, and what was under way is lost from some point on. -/
theorem lose (h : Carries whole unsent s got ps) (hp : qs <+: ps) : Carries whole unsent s.cut got qs := by
  obtain ⟨rs, rfl⟩ := hp
  by_cases hc : closing qs = none
  · refine ⟨?_, fun hs => absurd hs (Sender.cut_ne_live s), fun hf => ?_⟩
    · have hle := h.isPrefix
      rw [carried_append_of_open hc, ← List.append_assoc] at hle
      exact (List.prefix_append _ _).trans hle
    · rw [hc] at hf
      cases hf
  · have hsame : closing (qs ++ rs) = closing qs := by
      rw [closing_append]
      cases hq : closing qs with
      | none => exact absurd hq hc
      | some q => rfl
    have hcarried := carried_append_of_closed hc rs
    refine ⟨?_, fun hs => absurd hs (Sender.cut_ne_live s), fun hf => ?_⟩
    · rw [← hcarried]
      exact h.isPrefix
    · obtain ⟨rfl, hw⟩ := h.closed (hsame.trans hf)
      rw [← hcarried]
      exact ⟨rfl, hw⟩

/-- The sender is cut off, and goes on for itself. -/
theorem apart {whole' unsent' : List α} {s' : Sender} (h : Carries whole unsent s.cut got ps) (hw : whole <+: whole')
    (he : s = .ended → s' = .ended ∧ whole' = whole) : Carries whole' unsent' s'.cut got ps := by
  refine ⟨h.isPrefix.trans hw, fun hs => absurd hs (Sender.cut_ne_live s'), fun hc => ?_⟩
  obtain ⟨hs, hg⟩ := h.closed hc
  obtain ⟨rfl, rfl⟩ := he (Sender.cut_eq_ended.mp hs)
  exact ⟨rfl, hg⟩

/-- The receiver takes a piece. -/
theorem take (h : Carries whole unsent s got (.data xs :: ps)) : Carries whole unsent s (got ++ xs) ps := by
  refine ⟨?_, fun hs hn => ?_, fun hf => ?_⟩
  · simpa using h.isPrefix
  · simpa using h.rest hs hn
  · simpa using h.closed hf

/-- Where the end arrives, all has arrived. -/
theorem ended (h : Carries whole unsent s got (.fin :: ps)) : s = .ended ∧ got = whole := by
  obtain ⟨hs, hw⟩ := h.closed rfl
  exact ⟨hs, by simpa using hw⟩

/-- What has arrived is a beginning of what was written. -/
theorem arrived (h : Carries whole unsent s got ps) : got <+: whole := (List.prefix_append _ _).trans h.isPrefix

end Carries

end Hop
