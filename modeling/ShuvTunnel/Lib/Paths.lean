/-
# Paths

A path as it is written is taken apart at the slashes: whether it begins at the
root, and its segments, of which `.` and empty ones say nothing and `..` leads
back. `normalize` removes what it can from the text alone, as a language's path
library does; `locate` is where the path leads when no directory on the way is a
link, and `walk` the same when `..` leads back only from directories that exist,
as the operating system has it.

Key definitions: `Paths.Text`, `Paths.normalize`, `Paths.locate`, `Paths.walk`.
Key theorems: `Paths.locateFrom_normalize`, `Paths.isName_of_mem_locateFrom`,
`Paths.walk_eq_some`, `Paths.walk_eq_some_iff`.
-/
import Mathlib.Data.List.Basic
import Mathlib.Data.List.Infix

namespace Paths

/-- The names from the root down. -/
abbrev Location := List String

/-- A path's text, taken apart. -/
structure Text where
  absolute : Bool
  segments : List String
  deriving DecidableEq

/-- The pieces between the slashes. -/
def split (text : String) : List String := (text.toList.splitOn '/').map String.ofList

/-- A path's text is taken apart. -/
def Text.ofString (text : String) : Text := ⟨text.toList.head? = some '/', split text⟩

/-- A segment that names an entry of its directory. -/
def IsName (segment : String) : Prop := segment ≠ "" ∧ segment ≠ "." ∧ segment ≠ ".."

instance (segment : String) : Decidable (IsName segment) := inferInstanceAs (Decidable (_ ∧ _ ∧ _))

/-! ### Where a path leads -/

/-- From a directory over one segment. -/
def enter (l : Location) (segment : String) : Location :=
  if segment = "" ∨ segment = "." then l else if segment = ".." then l.dropLast else l ++ [segment]

/-- Over the segments, one after the other. -/
def locateFrom (l : Location) (segments : List String) : Location := segments.foldl enter l

/-- Where the path leads, from the working directory. -/
def locate (cwd : Location) (t : Text) : Location := locateFrom (if t.absolute then [] else cwd) t.segments

/-- `..` leads back only from a directory that exists. -/
def walk (exist : Location → Bool) : Location → List String → Option Location
  | l, [] => some l
  | l, segment :: segments =>
    if segment = ".." ∧ exist l = false then none else walk exist (enter l segment) segments

/-- The locations on the way. -/
def visited : Location → List String → List Location
  | l, [] => [l]
  | l, segment :: segments => l :: visited (enter l segment) segments

/-! ### Normal forms -/

/-- One more segment, behind those that are left. -/
def push (absolute : Bool) (stack : List String) (segment : String) : List String :=
  if segment = "" ∨ segment = "." then stack
  else if segment = ".." then
    match stack.getLast? with
    | none => if absolute then [] else [".."]
    | some last => if last = ".." then stack ++ [".."] else stack.dropLast
  else stack ++ [segment]

/-- The segments that are left of a path. -/
def normalize (absolute : Bool) (segments : List String) : List String := segments.foldl (push absolute) []

/-- `join(t, names..)`. -/
def Text.join (t : Text) (names : List String) : Text :=
  ⟨t.absolute, normalize t.absolute (t.segments ++ names.flatMap split)⟩

/-- The names are put behind the path as they are. -/
def Text.append (t : Text) (names : List String) : Text := ⟨t.absolute, t.segments ++ names⟩

/-- What is left holds no `.`, and no `..` at the root. -/
def Normal (absolute : Bool) (segments : List String) : Prop :=
  ∀ s ∈ segments, IsName s ∨ (s = ".." ∧ absolute = false)

theorem normal_push {absolute : Bool} {stack : List String} (h : Normal absolute stack) (segment : String) :
    Normal absolute (push absolute stack segment) := by
  unfold push
  split
  · exact h
  · rename_i hdot
    split
    · rename_i hup
      split
      · split
        · exact fun s hs => (nomatch hs)
        · rename_i habs
          intro s hs
          rw [List.mem_singleton.mp hs]
          exact .inr ⟨rfl, by simpa using habs⟩
      · rename_i last hlast
        split
        · rename_i hl
          subst hl
          intro s hs
          rcases List.mem_append.mp hs with hs | hs
          · exact h s hs
          · rw [List.mem_singleton.mp hs]
            exact h ".." (List.mem_of_getLast? hlast)
        · exact fun s hs => h s (List.dropLast_subset _ hs)
    · rename_i hup
      intro s hs
      rcases List.mem_append.mp hs with hs | hs
      · exact h s hs
      · rw [List.mem_singleton.mp hs]
        rw [not_or] at hdot
        exact .inl ⟨hdot.1, hdot.2, hup⟩

theorem mem_normalize {absolute : Bool} {segments : List String} {s : String} (h : s ∈ normalize absolute segments) :
    s ∈ segments := by
  have aux : ∀ (segments stack : List String), s ∈ segments.foldl (push absolute) stack → s ∈ stack ∨ s ∈ segments := by
    intro segments
    induction segments with
    | nil => exact fun _ h => .inl h
    | cons x segments ih =>
      intro stack h
      rcases ih _ h with h | h
      · unfold push at h
        split at h
        · exact .inl h
        · split at h
          · rename_i hx
            split at h
            · split at h
              · cases h
              · exact .inr (List.mem_cons.mpr (.inl ((List.mem_singleton.mp h).trans hx.symm)))
            · split at h
              · rcases List.mem_append.mp h with h | h
                · exact .inl h
                · exact .inr (List.mem_cons.mpr (.inl ((List.mem_singleton.mp h).trans hx.symm)))
              · exact .inl (List.dropLast_subset _ h)
          · rcases List.mem_append.mp h with h | h
            · exact .inl h
            · exact .inr (List.mem_cons.mpr (.inl (List.mem_singleton.mp h)))
      · exact .inr (List.mem_cons_of_mem _ h)
  exact (aux segments [] h).resolve_left List.not_mem_nil

theorem enter_name {l : Location} {segment : String} (h : IsName segment) : enter l segment = l ++ [segment] := by
  unfold enter
  rw [if_neg (not_or.mpr ⟨h.1, h.2.1⟩), if_neg h.2.2]

theorem locateFrom_name {l : Location} {name : String} (h : IsName name) :
    locateFrom l [name] = l ++ [name] := enter_name h

theorem locateFrom_append (l : Location) (xs ys : List String) :
    locateFrom l (xs ++ ys) = locateFrom (locateFrom l xs) ys := List.foldl_append

/-- One more segment leads on from where those that are left lead. -/
theorem locateFrom_push {absolute : Bool} {l : Location} (hl : absolute = true → l = []) {stack : List String}
    (h : Normal absolute stack) (segment : String) :
    locateFrom l (push absolute stack segment) = enter (locateFrom l stack) segment := by
  unfold push
  split
  · rename_i hdot
    unfold enter
    rw [if_pos hdot]
  · rename_i hdot
    split
    · rename_i hup
      subst hup
      split
      · rename_i hnil
        rw [List.getLast?_eq_none_iff] at hnil
        subst hnil
        split
        · rename_i habs
          rw [hl habs]
          rfl
        · rfl
      · rename_i last hlast
        obtain ⟨init, rfl⟩ := List.getLast?_eq_some_iff.mp hlast
        split
        · rw [locateFrom_append]
          rfl
        · rename_i hne
          have hname : IsName last :=
            (h last (List.mem_append_right _ List.mem_cons_self)).resolve_right fun hx => hne hx.1
          rw [List.dropLast_concat, locateFrom_append]
          show _ = enter (enter (locateFrom l init) last) ".."
          rw [enter_name hname]
          show _ = (locateFrom l init ++ [last]).dropLast
          rw [List.dropLast_concat]
    · rw [locateFrom_append]
      rfl

/-- A path and its normal form lead to the same place. -/
theorem locateFrom_normalize {absolute : Bool} {l : Location} (hl : absolute = true → l = []) (segments : List String) :
    locateFrom l (normalize absolute segments) = locateFrom l segments := by
  have aux : ∀ (segments stack : List String), Normal absolute stack →
      locateFrom l (segments.foldl (push absolute) stack) = locateFrom (locateFrom l stack) segments := by
    intro segments
    induction segments with
    | nil => exact fun _ _ => rfl
    | cons s segments ih =>
      intro stack h
      rw [List.foldl_cons, ih _ (normal_push h s), locateFrom_push hl h s]
      rfl
  exact aux segments [] fun s hs => (nomatch hs)

theorem locate_join (cwd : Location) (t : Text) (names : List String) :
    locate cwd (t.join names) = locateFrom (locate cwd t) (names.flatMap split) := by
  unfold locate Text.join
  rw [locateFrom_normalize (fun h => by rw [if_pos h]), locateFrom_append]

theorem locate_append (cwd : Location) (t : Text) (names : List String) :
    locate cwd (t.append names) = locateFrom (locate cwd t) names := locateFrom_append _ _ _

/-- Only names are left on the way from the root. -/
theorem isName_of_mem_locateFrom {l : Location} (hl : ∀ s ∈ l, IsName s) (segments : List String) :
    ∀ s ∈ locateFrom l segments, IsName s := by
  induction segments generalizing l with
  | nil => exact hl
  | cons segment segments ih =>
    refine ih fun s hs => ?_
    unfold enter at hs
    split at hs
    · exact hl s hs
    · rename_i hdot
      split at hs
      · exact hl s (List.dropLast_subset _ hs)
      · rename_i hup
        rcases List.mem_append.mp hs with hs | hs
        · exact hl s hs
        · rw [List.mem_singleton.mp hs]
          rw [not_or] at hdot
          exact ⟨hdot.1, hdot.2, hup⟩

theorem mem_locateFrom {l : Location} {segments : List String} {s : String} (h : s ∈ locateFrom l segments) :
    s ∈ l ∨ s ∈ segments := by
  induction segments generalizing l with
  | nil => exact .inl h
  | cons segment segments ih =>
    rcases ih h with h | h
    · unfold enter at h
      split at h
      · exact .inl h
      · split at h
        · exact .inl (List.dropLast_subset _ h)
        · rcases List.mem_append.mp h with h | h
          · exact .inl h
          · exact .inr (List.mem_cons.mpr (.inl (List.mem_singleton.mp h)))
    · exact .inr (List.mem_cons_of_mem _ h)

/-- No part holds the separator. -/
theorem not_mem_of_mem_splitOn {α : Type*} [BEq α] [LawfulBEq α] {sep : α} {xs part : List α}
    (h : part ∈ xs.splitOn sep) : sep ∉ part := by
  induction xs generalizing part with
  | nil =>
    rw [List.splitOn_nil, List.mem_singleton] at h
    rw [h]
    exact List.not_mem_nil
  | cons x xs ih =>
    rw [List.splitOn_cons_eq_if_modifyHead] at h
    split at h
    · rcases List.mem_cons.mp h with rfl | h
      · exact List.not_mem_nil
      · exact ih h
    · rename_i hx
      cases hs : xs.splitOn sep with
      | nil => exact absurd hs (List.splitOn_ne_nil _ _)
      | cons first rest =>
        rw [hs, List.modifyHead_cons] at h
        rcases List.mem_cons.mp h with rfl | h
        · rw [List.mem_cons, not_or]
          refine ⟨fun he => hx ?_, ih (hs ▸ List.mem_cons_self)⟩
          rw [he]
          exact beq_self_eq_true x
        · exact ih (hs ▸ List.mem_cons_of_mem _ h)

theorem not_mem_slash_split {text segment : String} (h : segment ∈ split text) : '/' ∉ segment.toList := by
  obtain ⟨cs, hcs, rfl⟩ := List.mem_map.mp h
  rw [String.toList_ofList]
  exact not_mem_of_mem_splitOn hcs

/-- The parts hold what the list holds. -/
theorem mem_of_mem_of_mem_splitOn {α : Type*} [BEq α] {sep c : α} {xs part : List α}
    (h : part ∈ xs.splitOn sep) (hc : c ∈ part) : c ∈ xs := by
  induction xs generalizing part with
  | nil =>
    rw [List.splitOn_nil, List.mem_singleton] at h
    rwa [h] at hc
  | cons x xs ih =>
    rw [List.splitOn_cons_eq_if_modifyHead] at h
    split at h
    · rcases List.mem_cons.mp h with rfl | h
      · cases hc
      · exact List.mem_cons_of_mem _ (ih h hc)
    · cases hs : xs.splitOn sep with
      | nil => exact absurd hs (List.splitOn_ne_nil _ _)
      | cons first rest =>
        rw [hs, List.modifyHead_cons] at h
        rcases List.mem_cons.mp h with rfl | h
        · rcases List.mem_cons.mp hc with rfl | hc
          · exact List.mem_cons_self
          · exact List.mem_cons_of_mem _ (ih (hs ▸ List.mem_cons_self) hc)
        · exact List.mem_cons_of_mem _ (ih (hs ▸ List.mem_cons_of_mem _ h) hc)

theorem mem_of_mem_split {text segment : String} {c : Char} (h : segment ∈ split text) (hc : c ∈ segment.toList) :
    c ∈ text.toList := by
  obtain ⟨cs, hcs, rfl⟩ := List.mem_map.mp h
  rw [String.toList_ofList] at hc
  exact mem_of_mem_of_mem_splitOn hcs hc

/-- A text without a slash is one segment. -/
theorem split_of_not_mem_slash {text : String} (h : '/' ∉ text.toList) : split text = [text] := by
  rw [split, List.splitOn_eq_singleton h, List.map_singleton, String.ofList_toList]

/-! ### Walks -/

variable {exist : Location → Bool}

/-- A walk that goes through leads where the path leads. -/
theorem walk_eq_some {l m : Location} {segments : List String} (h : walk exist l segments = some m) :
    m = locateFrom l segments := by
  induction segments generalizing l with
  | nil => exact (Option.some.inj h).symm
  | cons s segments ih =>
    rw [walk] at h
    split at h
    · cases h
    · exact ih h

/-- Without `..` it always does. -/
theorem walk_of_no_up {l : Location} {segments : List String} (h : ".." ∉ segments) :
    walk exist l segments = some (locateFrom l segments) := by
  induction segments generalizing l with
  | nil => rfl
  | cons s segments ih =>
    rw [List.mem_cons, not_or] at h
    rw [walk, if_neg fun hx => h.1 hx.1.symm]
    exact ih h.2

/-- It goes through exactly when every directory exists that `..` leads back
from. -/
theorem walk_eq_some_iff {l : Location} {segments : List String} : walk exist l segments = some (locateFrom l segments) ↔
    ∀ xs ys, segments = xs ++ ".." :: ys → exist (locateFrom l xs) = true := by
  induction segments generalizing l with
  | nil => simp [walk, locateFrom]
  | cons s segments ih =>
    rw [walk]
    by_cases hstuck : s = ".." ∧ exist l = false
    · rw [if_pos hstuck]
      constructor
      · intro h
        cases h
      · intro h
        have hl : exist l = true := h [] segments (by rw [hstuck.1]; rfl)
        rw [hl] at hstuck
        cases hstuck.2
    · rw [if_neg hstuck]
      show walk exist (enter l s) segments = some (locateFrom (enter l s) segments) ↔ _
      rw [ih]
      constructor
      · intro h xs ys he
        cases xs with
        | nil =>
          obtain ⟨rfl, rfl⟩ := List.cons.inj he
          cases hl : exist l with
          | true => exact hl
          | false => exact absurd ⟨rfl, hl⟩ hstuck
        | cons x xs =>
          obtain ⟨rfl, hsegments⟩ := List.cons.inj he
          exact h xs ys hsegments
      · intro h xs ys he
        exact h (s :: xs) ys (by rw [he]; rfl)

/-- What is not on the way does not matter. -/
theorem walk_congr {exist' : Location → Bool} {l : Location} {segments : List String}
    (h : ∀ m ∈ visited l segments, exist m = exist' m) : walk exist l segments = walk exist' l segments := by
  induction segments generalizing l with
  | nil => rfl
  | cons s segments ih =>
    rw [walk, walk, h l List.mem_cons_self, ih fun m hm => h m (List.mem_cons_of_mem _ hm)]

/-- The last location on the way is where the path leads. -/
theorem locateFrom_mem_visited (l : Location) (segments : List String) : locateFrom l segments ∈ visited l segments := by
  induction segments generalizing l with
  | nil => exact List.mem_cons_self
  | cons s segments ih => exact List.mem_cons_of_mem _ (ih (enter l s))

/-- And where a beginning of it leads is on the way. -/
theorem locateFrom_mem_visited_append (l : Location) (xs ys : List String) :
    locateFrom l xs ∈ visited l (xs ++ ys) := by
  induction xs generalizing l with
  | nil =>
    cases ys with
    | nil => exact List.mem_cons_self
    | cons y ys => exact List.mem_cons_self
  | cons x xs ih => exact List.mem_cons_of_mem _ (ih (enter l x))

theorem visited_concat (l : Location) (segments : List String) (s : String) :
    visited l (segments ++ [s]) = visited l segments ++ [enter (locateFrom l segments) s] := by
  induction segments generalizing l with
  | nil => rfl
  | cons x segments ih => exact congrArg (l :: ·) (ih (enter l x))

theorem walk_append (l : Location) (xs ys : List String) :
    walk exist l (xs ++ ys) = (walk exist l xs).bind fun m => walk exist m ys := by
  induction xs generalizing l with
  | nil => rfl
  | cons x xs ih =>
    rw [List.cons_append, walk, walk]
    split
    · rfl
    · exact ih _

end Paths
