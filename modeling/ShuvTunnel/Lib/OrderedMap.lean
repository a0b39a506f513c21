/-
# Maps that keep the order of insertion

A map as the list of its entries, in the order in which the keys came: a key
that is set again keeps its place. And lists that take each element once, in
that order.

Key definitions: `OrderedMap.set`, `OrderedMap.delete`, `OrderedMap.insertAll`.
Key theorems: `lookup_set`, `lookup_delete`, `nodup_set`, `filterMap_lookup`,
`filter_key`, `mem_insertAll`, `nodup_insertAll`.
-/
import Mathlib.Data.List.Nodup

namespace OrderedMap

variable {κ α : Type*} [DecidableEq κ]

/-- The keys, in the order of their insertion. -/
def keys (m : List (κ × α)) : List κ := m.map Prod.fst

/-- An entry that is there keeps its place; a new one comes last. -/
def set (m : List (κ × α)) (k : κ) (v : α) : List (κ × α) :=
  if k ∈ keys m then m.map fun e => if e.1 = k then (k, v) else e else m ++ [(k, v)]

/-- The entry goes. -/
def delete (m : List (κ × α)) (k : κ) : List (κ × α) := m.filter fun e => e.1 ≠ k

variable {m : List (κ × α)} {j k : κ} {v : α}

theorem lookup_cons (e : κ × α) : (e :: m).lookup j = if j = e.1 then some e.2 else m.lookup j := by
  obtain ⟨i, v⟩ := e
  rw [List.lookup_cons]
  by_cases h : j = i
  · rw [if_pos h, beq_iff_eq.mpr h]
  · rw [if_neg h, beq_false_of_ne h]

theorem lookup_eq_none : m.lookup k = none ↔ k ∉ keys m := by
  induction m with
  | nil => simp [keys]
  | cons e m ih =>
    rw [lookup_cons, keys, List.map_cons, List.mem_cons, not_or]
    split
    · rename_i h
      simp [h]
    · rename_i h
      rw [ih]
      simp [h, keys]

theorem lookup_isSome : (m.lookup k).isSome = true ↔ k ∈ keys m := by
  have h := lookup_eq_none (m := m) (k := k)
  cases hl : m.lookup k with
  | none =>
    rw [hl] at h
    simpa using h
  | some v =>
    rw [hl] at h
    simpa using h

theorem lookup_map_set : (m.map fun e => if e.1 = k then (k, v) else e).lookup j =
    if j = k ∧ k ∈ keys m then some v else m.lookup j := by
  induction m with
  | nil => simp [keys]
  | cons e m ih =>
    rw [List.map_cons, lookup_cons, lookup_cons, ih]
    simp only [keys, List.map_cons, List.mem_cons]
    by_cases hek : e.1 = k
    · by_cases hjk : j = k
      · simp [hek, hjk]
      · simp [hek, hjk]
    · by_cases hje : j = e.1
      · have hjk : j ≠ k := fun h => hek (hje.symm.trans h)
        simp [hek, hje]
      · rw [if_neg hek, if_neg hje, if_neg hje]
        exact if_congr (and_congr_right fun _ => (or_iff_right fun h => hek h.symm).symm) rfl rfl

theorem lookup_set : (set m k v).lookup j = if j = k then some v else m.lookup j := by
  unfold set
  split
  · rename_i hk
    rw [lookup_map_set]
    simp [hk]
  · rename_i hk
    rw [List.lookup_append, lookup_cons]
    by_cases hjk : j = k
    · rw [if_pos hjk, if_pos hjk, hjk, lookup_eq_none.mpr hk]
      rfl
    · rw [if_neg hjk, if_neg hjk]
      exact Option.or_none

theorem lookup_delete : (delete m k).lookup j = if j = k then none else m.lookup j := by
  induction m with
  | nil => simp [delete]
  | cons e m ih =>
    unfold delete at ih ⊢
    rw [List.filter_cons]
    by_cases hek : e.1 = k
    · rw [if_neg (by simpa using hek), ih, lookup_cons]
      by_cases hjk : j = k
      · simp [hjk]
      · have : j ≠ e.1 := fun h => hjk (h.trans hek)
        simp [hjk, this]
    · rw [if_pos (by simpa using hek), lookup_cons, lookup_cons, ih]
      by_cases hje : j = e.1
      · have : j ≠ k := fun h => hek (hje.symm.trans h)
        simp [hje, hek]
      · simp [hje]

theorem keys_set : keys (set m k v) = if k ∈ keys m then keys m else keys m ++ [k] := by
  unfold set
  split
  · unfold keys
    rw [List.map_map]
    refine List.map_congr_left fun e _ => ?_
    by_cases hek : e.1 = k
    · simp [hek]
    · simp [hek]
  · simp [keys]

theorem mem_keys_set : j ∈ keys (set m k v) ↔ j = k ∨ j ∈ keys m := by
  rw [keys_set]
  split
  · rename_i hk
    constructor
    · exact .inr
    · rintro (rfl | h)
      · exact hk
      · exact h
  · rw [List.mem_append, List.mem_singleton]
    exact or_comm

theorem nodup_set (h : (keys m).Nodup) : (keys (set m k v)).Nodup := by
  rw [keys_set]
  split
  · exact h
  · rename_i hk
    rw [List.nodup_append]
    refine ⟨h, List.nodup_singleton k, fun a ha b hb => ?_⟩
    rw [List.mem_singleton.mp hb]
    rintro rfl
    exact hk ha

theorem keys_delete : keys (delete m k) = (keys m).filter fun j => j ≠ k := by
  unfold keys delete
  rw [List.filter_map]
  rfl

theorem mem_keys_delete : j ∈ keys (delete m k) ↔ j ≠ k ∧ j ∈ keys m := by
  rw [keys_delete, List.mem_filter, decide_eq_true_eq, and_comm]

theorem nodup_delete (h : (keys m).Nodup) : (keys (delete m k)).Nodup := by
  rw [keys_delete]
  exact h.filter _

/-- The entries are what is found under the keys. -/
theorem filterMap_lookup (h : (keys m).Nodup) : ((keys m).filterMap fun k => (m.lookup k).map fun v => (k, v)) = m := by
  induction m with
  | nil => rfl
  | cons e m ih =>
    unfold keys at h ih ⊢
    rw [List.map_cons, List.nodup_cons] at h
    rw [List.map_cons, List.filterMap_cons, lookup_cons, if_pos rfl, Option.map_some]
    dsimp only
    congr 1
    refine (List.filterMap_congr fun k hk => ?_).trans (ih h.2)
    have hne : k ≠ e.1 := fun he => h.1 (he ▸ hk)
    rw [lookup_cons, if_neg hne]

/-- The entries of a key: at most one. -/
theorem filter_key (h : (keys m).Nodup) (k : κ) :
    m.filter (fun e => e.1 = k) = ((m.lookup k).map fun v => (k, v)).toList := by
  induction m with
  | nil => rfl
  | cons e m ih =>
    unfold keys at h ih
    rw [List.map_cons, List.nodup_cons] at h
    rw [List.filter_cons, lookup_cons]
    by_cases hk : e.1 = k
    · have hnone : m.lookup k = none := lookup_eq_none.mpr (hk ▸ h.1)
      have hnil : m.filter (fun e => e.1 = k) = [] := by
        rw [ih h.2, hnone]
        rfl
      rw [if_pos (decide_eq_true hk), hnil, if_pos hk.symm, ← hk]
      rfl
    · rw [if_neg (by simpa using hk), if_neg (Ne.symm hk)]
      exact ih h.2

/-! ### Each element once -/

variable {β : Type*} [DecidableEq β]

/-- Elements that are put into a set, in the order of their insertion. -/
def insertAll (xs ys : List β) : List β := ys.foldl (fun xs y => if y ∈ xs then xs else xs ++ [y]) xs

theorem mem_insertAll {xs ys : List β} {x : β} : x ∈ insertAll xs ys ↔ x ∈ xs ∨ x ∈ ys := by
  unfold insertAll
  induction ys generalizing xs with
  | nil => simp
  | cons y ys ih =>
    rw [List.foldl_cons, ih, List.mem_cons]
    split
    · rename_i hy
      constructor
      · rintro (h | h)
        · exact .inl h
        · exact .inr (.inr h)
      · rintro (h | rfl | h)
        · exact .inl h
        · exact .inl hy
        · exact .inr h
    · rw [List.mem_append, List.mem_singleton, or_assoc]

theorem nodup_insertAll {xs : List β} (h : xs.Nodup) (ys : List β) : (insertAll xs ys).Nodup := by
  unfold insertAll
  induction ys generalizing xs with
  | nil => exact h
  | cons y ys ih =>
    rw [List.foldl_cons]
    refine ih ?_
    split
    · exact h
    · rename_i hy
      rw [List.nodup_append]
      refine ⟨h, List.nodup_singleton y, fun a ha b hb => ?_⟩
      rw [List.mem_singleton.mp hb]
      rintro rfl
      exact hy ha

end OrderedMap
