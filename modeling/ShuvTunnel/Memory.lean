/-
# The storage in memory and the storage on disk

`storage.ts` has two storages behind one interface: `memory`, two maps, on which
the tests of the SDK run, and `xdg`, which keeps a pending identity and a
complete one in the same files. As long as both have one token and one key, the
disk answers what the maps answer; a pending identity with others changes what
is loaded for the complete one.

`list` goes in the order of insertion in one and in the order of the names in
the other, and an invalid date is only refused by the disk.

Key definitions: `Memory`, `StorageCall`, `Memory.call`, `Xdg.call`, `Agrees`,
`HoldsBoth`.
Key theorems: `Held.call`, `Held.answers`, `xdg_refines_memory`.
-/
import ShuvTunnel.Disk
import Mathlib.Data.List.Sort

namespace ShuvTunnel

open Paths

/-! ### The interface -/

/-- The methods of `ShuvTunnelStorage`, with their arguments. -/
inductive StorageCall
  | profiles
  | load (profile : String)
  | save (profile : String) (tunnel : ShuvTunnelIdentity)
  | loadPending (profile : String)
  | savePending (profile : String) (tunnel : PendingIdentity)
  | remove (profile : String)
  | list

/-- What a method resolves to, or the error it fails with. -/
inductive StorageAnswer
  | void
  | profiles (names : List String)
  | identity (tunnel : Option ShuvTunnelIdentity)
  | pending (tunnel : Option PendingIdentity)
  | stored (tunnels : List (String × ShuvTunnelIdentity))
  | failed (error : LoadError)
  deriving DecidableEq

/-- The answer of a method that may fail. -/
def StorageAnswer.of {α : Type} (f : α → StorageAnswer) : Except LoadError α → StorageAnswer
  | .ok a => f a
  | .error e => failed e

/-- The code units by which JavaScript compares strings. -/
def codeUnits (s : String) : List ℕ :=
  s.toList.flatMap fun c =>
    if c.toNat < 0x10000 then [c.toNat]
    else [0xD800 + (c.toNat - 0x10000) / 0x400, 0xDC00 + (c.toNat - 0x10000) % 0x400]

/-- The first unit that differs decides; a beginning comes first. -/
def notAfter : List ℕ → List ℕ → Bool
  | [], _ => true
  | _ :: _, [] => false
  | x :: xs, y :: ys => decide (x < y) || decide (x = y) && notAfter xs ys

/-- The order of `.sort()`. -/
def InOrder (a b : String) : Prop := notAfter (codeUnits a) (codeUnits b) = true

instance : DecidableRel InOrder := fun a b => inferInstanceAs (Decidable (notAfter (codeUnits a) (codeUnits b) = true))

/-- `.sort()`. -/
def sortStrings (names : List String) : List String := names.insertionSort InOrder

/-! ### In memory -/

/-- `memory()`: two maps in the order of their insertions, with no key twice. -/
structure Memory where
  identities : List (String × ShuvTunnelIdentity)
  pending : List (String × PendingIdentity)
  identities_nodup : (OrderedMap.keys identities).Nodup
  pending_nodup : (OrderedMap.keys pending).Nodup

namespace Memory

/-- The maps at first. -/
def empty : Memory := ⟨[], [], List.nodup_nil, List.nodup_nil⟩

/-- The names in either map, each once, sorted. -/
def profiles (m : Memory) : List String :=
  sortStrings (OrderedMap.insertAll [] (OrderedMap.keys m.identities ++ OrderedMap.keys m.pending))

/-- An identity that is saved takes the pending one away. -/
def save (m : Memory) (profile : String) (tunnel : ShuvTunnelIdentity) : Memory where
  identities := OrderedMap.set m.identities profile tunnel
  pending := OrderedMap.delete m.pending profile
  identities_nodup := OrderedMap.nodup_set m.identities_nodup
  pending_nodup := OrderedMap.nodup_delete m.pending_nodup

/-- A pending identity leaves the complete one as it is. -/
def savePending (m : Memory) (profile : String) (tunnel : PendingIdentity) : Memory where
  identities := m.identities
  pending := OrderedMap.set m.pending profile tunnel
  identities_nodup := m.identities_nodup
  pending_nodup := OrderedMap.nodup_set m.pending_nodup

/-- Both identities go. -/
def remove (m : Memory) (profile : String) : Memory where
  identities := OrderedMap.delete m.identities profile
  pending := OrderedMap.delete m.pending profile
  identities_nodup := OrderedMap.nodup_delete m.identities_nodup
  pending_nodup := OrderedMap.nodup_delete m.pending_nodup

/-- What a method does with the maps. -/
def call (m : Memory) : StorageCall → StorageAnswer × Memory
  | .profiles => (.profiles m.profiles, m)
  | .load profile => (.identity (m.identities.lookup profile), m)
  | .save profile tunnel => (.void, m.save profile tunnel)
  | .loadPending profile => (.pending (m.pending.lookup profile), m)
  | .savePending profile tunnel => (.void, m.savePending profile tunnel)
  | .remove profile => (.void, m.remove profile)
  | .list => (.stored m.identities, m)

end Memory

/-! ### On disk -/

namespace Xdg

variable (env : Environment) (other : String → Date) (disk : Disk)

/-- `profiles`: the entries of the data directory, sorted. -/
def profiles : List String := sortStrings (disk.children (root env))

/-- One profile after the other is loaded, to the first failure. -/
def list : Except LoadError (List (String × ShuvTunnelIdentity)) := do
  let entries ← (profiles env disk).mapM fun profile =>
    return (← load env profile other disk).map fun tunnel => (profile, tunnel)
  return entries.filterMap id

/-- What a method does with the disk. -/
def call : StorageCall → StorageAnswer × Disk
  | .profiles => (.profiles (profiles env disk), disk)
  | .load profile => (.of .identity (load env profile other disk), disk)
  | .save profile tunnel => ((save env profile tunnel disk).map (.of fun _ => .void) id)
  | .loadPending profile => (.of .pending (loadPending env profile disk), disk)
  | .savePending profile tunnel => ((savePending env profile tunnel disk).map (.of fun _ => .void) id)
  | .remove profile => ((remove env profile disk).map (.of fun _ => .void) id)
  | .list => (.of .stored (list env other disk), disk)

end Xdg

/-- What the calls give, one after the other. -/
def answers {σ : Type} (call : σ → StorageCall → StorageAnswer × σ) (s : σ) : List StorageCall → List StorageAnswer
  | [] => []
  | c :: calls => (call s c).1 :: answers call (call s c).2 calls

/-! ### The calls -/

/-- The fields of an identity are not empty, and no white space is around its
token. -/
structure ShuvTunnelIdentity.Filled (i : ShuvTunnelIdentity) : Prop where
  id : i.id ≠ ""
  hostname : i.hostname ≠ ""
  token : i.token ≠ "" ∧ trim i.token = i.token
  privateKey : i.privateKey ≠ ""
  certificate : i.certificate ≠ ""

/-- The same of a pending identity. -/
structure PendingIdentity.Filled (p : PendingIdentity) : Prop where
  id : p.id ≠ ""
  hostname : p.hostname ≠ ""
  token : p.token ≠ "" ∧ trim p.token = p.token
  privateKey : p.privateKey ≠ ""

/-- The names are valid and the identities are filled. -/
def StorageCall.Proper : StorageCall → Prop
  | .load profile | .loadPending profile | .remove profile => Names.isValidProfile profile = true
  | .save profile tunnel => Names.isValidProfile profile = true ∧ tunnel.Filled
  | .savePending profile tunnel => Names.isValidProfile profile = true ∧ tunnel.Filled
  | .profiles | .list => True

/-- No pending identity comes with another token or key than the complete one
has, no date is invalid, and `list` is called when the profiles came in order. -/
def StorageCall.Agrees (m : Memory) : StorageCall → Prop
  | .save _ tunnel => tunnel.certificateExpiry.isSome = true
  | .savePending profile tunnel =>
    ∀ i ∈ m.identities.lookup profile, i.token = tunnel.token ∧ i.privateKey = tunnel.privateKey
  | .list => (OrderedMap.keys m.identities).Pairwise InOrder
  | _ => True

/-- Each call is made to maps that it agrees with. -/
def Agree : Memory → List StorageCall → Prop
  | _, [] => True
  | m, c :: calls => c.Agrees m ∧ Agree (m.call c).2 calls

/-- Nothing is in the data directory. -/
structure Disk.Fresh (env : Environment) (disk : Disk) : Prop where
  dirs : ∀ name, Xdg.root env ++ [name] ∉ disk.dirs
  files : ∀ l, Xdg.root env <+: l → disk.files l = none

/-! ### Sorting -/

theorem notAfter_total (xs ys : List ℕ) : notAfter xs ys = true ∨ notAfter ys xs = true := by
  induction xs generalizing ys with
  | nil => exact .inl rfl
  | cons x xs ih =>
    cases ys with
    | nil => exact .inr rfl
    | cons y ys =>
      simp only [notAfter, Bool.or_eq_true, Bool.and_eq_true, decide_eq_true_eq]
      rcases Nat.lt_trichotomy x y with h | rfl | h
      · exact .inl (.inl h)
      · exact (ih ys).imp (fun h => .inr ⟨rfl, h⟩) fun h => .inr ⟨rfl, h⟩
      · exact .inr (.inl h)

theorem notAfter_trans {xs ys zs : List ℕ} (h : notAfter xs ys = true) (h' : notAfter ys zs = true) :
    notAfter xs zs = true := by
  induction xs generalizing ys zs with
  | nil => rfl
  | cons x xs ih =>
    cases ys with
    | nil => cases h
    | cons y ys =>
      cases zs with
      | nil => cases h'
      | cons z zs =>
        simp only [notAfter, Bool.or_eq_true, Bool.and_eq_true, decide_eq_true_eq] at h h' ⊢
        rcases h with h | ⟨rfl, h⟩
        · exact .inl (by omega)
        · rcases h' with h' | ⟨rfl, h'⟩
          · exact .inl h'
          · exact .inr ⟨rfl, ih h h'⟩

theorem notAfter_antisymm {xs ys : List ℕ} (h : notAfter xs ys = true) (h' : notAfter ys xs = true) : xs = ys := by
  induction xs generalizing ys with
  | nil =>
    cases ys with
    | nil => rfl
    | cons y ys => cases h'
  | cons x xs ih =>
    cases ys with
    | nil => cases h
    | cons y ys =>
      simp only [notAfter, Bool.or_eq_true, Bool.and_eq_true, decide_eq_true_eq] at h h'
      rcases h with h | ⟨rfl, h⟩
      · omega
      · rw [ih h (h'.resolve_left (Nat.lt_irrefl x)).2]

instance : Std.Total InOrder := ⟨fun a b => notAfter_total (codeUnits a) (codeUnits b)⟩

instance : IsTrans String InOrder := ⟨fun _ _ _ h h' => notAfter_trans h h'⟩

theorem pairwise_sortStrings (names : List String) : (sortStrings names).Pairwise InOrder :=
  List.pairwise_insertionSort InOrder names

theorem perm_sortStrings (names : List String) : (sortStrings names).Perm names := List.perm_insertionSort InOrder names

theorem codeUnits_eq_map {s : String} (h : ∀ c ∈ s.toList, c.toNat < 0x10000) : codeUnits s = s.toList.map (·.toNat) := by
  unfold codeUnits
  generalize s.toList = cs at h
  induction cs with
  | nil => rfl
  | cons c cs ih =>
    rw [List.flatMap_cons, if_pos (h c List.mem_cons_self), ih fun c hc => h c (List.mem_cons_of_mem _ hc)]
    rfl

theorem toNat_of_isLabel {name : String} (h : Rust.isLabel name = true) : ∀ c ∈ name.toList, c.toNat < 0x10000 := by
  intro c hc
  have hchar := (char_of_isLabel h).2 c hc
  have hz : c.toNat ≤ 'z'.toNat := by
    simp only [lowerAlnum, Bool.or_eq_true, Bool.and_eq_true, decide_eq_true_eq] at hchar
    rcases hchar with (⟨-, h⟩ | ⟨-, h⟩) | rfl
    · exact h
    · exact Nat.le_trans (show c.toNat ≤ '9'.toNat from h) (by decide)
    · decide
  exact Nat.lt_of_le_of_lt hz (by decide)

theorem codeUnits_injective {a b : String} (ha : Rust.isLabel a = true) (hb : Rust.isLabel b = true)
    (h : codeUnits a = codeUnits b) : a = b := by
  rw [codeUnits_eq_map (toNat_of_isLabel ha), codeUnits_eq_map (toNat_of_isLabel hb)] at h
  exact String.toList_inj.mp (List.map_injective_iff.mpr (fun _ _ h => Char.toNat_inj.mp h) h)

/-- The same names in order are the same list. -/
theorem eq_of_inOrder {xs ys : List String} (h : xs.Perm ys) (hlabel : ∀ x ∈ xs, Rust.isLabel x = true)
    (hxs : xs.Pairwise InOrder) (hys : ys.Pairwise InOrder) : xs = ys := by
  refine h.eq_of_pairwise (fun a b ha hb hab hba => ?_) hxs hys
  exact codeUnits_injective (hlabel a ha) (hlabel b (h.mem_iff.mpr hb)) (notAfter_antisymm hab hba)

/-! ### What the files of a profile hold -/

/-- The files hold this identity. -/
structure HoldsIdentity (i : ShuvTunnelIdentity) (dir : Dir) : Prop where
  filled : i.Filled
  metadata : ∃ t, i.certificateExpiry = some t ∧ dir .tunnelJson = some (utf8 (stringify
    [("id", i.id), ("hostname", i.hostname), ("certificateExpiry", Iso.format t)]))
  token : dir .token = some (utf8 (line i.token))
  privateKey : dir .privateKey = some (utf8 i.privateKey)
  certificate : dir .certificate = some (utf8 i.certificate)
  chain : dir .chain = some (utf8 i.chain)

/-- The files hold this pending identity. -/
structure HoldsPending (p : PendingIdentity) (dir : Dir) : Prop where
  filled : p.Filled
  metadata : dir .pendingJson = some (utf8 (stringify [("id", p.id), ("hostname", p.hostname), ("csr", p.csr)]))
  token : dir .token = some (utf8 (line p.token))
  privateKey : dir .privateKey = some (utf8 p.privateKey)

/-- The files hold what the maps do of a profile. -/
structure HoldsBoth (tunnel : Option ShuvTunnelIdentity) (waiting : Option PendingIdentity) (dir : Dir) : Prop where
  identity : ∀ i ∈ tunnel, HoldsIdentity i dir
  noIdentity : tunnel = none → dir .tunnelJson = none
  pending : ∀ p ∈ waiting, HoldsPending p dir
  noPending : waiting = none → dir .pendingJson = none

section

variable {env : Environment} {other : String → Date} {profile : String} {dir : Dir}
  {tunnel : Option ShuvTunnelIdentity} {waiting : Option PendingIdentity}

theorem load_of_holds (h : HoldsBoth tunnel waiting dir) : load other profile dir = .ok tunnel := by
  cases tunnel with
  | none => exact load_eq_none.mpr (by rw [readText, h.noIdentity rfl]; rfl)
  | some i =>
    obtain ⟨hfilled, ⟨t, ht, hm⟩, htoken, hkey, hcertificate, hchain⟩ := h.identity i rfl
    refine load_of_files hm (stringify_ne_empty _) (parseMetadata_stringify (by decide) (by decide) (by decide) _ _ _)
      ?_ htoken hfilled.token.2 hkey hfilled.privateKey hcertificate hfilled.certificate hchain
    rw [date_parse_format, ht]

theorem loadPending_of_holds (h : HoldsBoth tunnel waiting dir) : loadPending profile dir = .ok waiting := by
  cases waiting with
  | none => exact loadPending_eq_none.mpr (by rw [readText, h.noPending rfl]; rfl)
  | some p =>
    obtain ⟨hfilled, hm, htoken, hkey⟩ := h.pending p rfl
    exact loadPending_of_files hm (stringify_ne_empty _)
      (parseMetadata_stringify (by decide) (by decide) (by decide) _ _ _) htoken hfilled.token.2 hkey hfilled.privateKey

theorem files_savePending (dir : Dir) (p : PendingIdentity) (file : File) :
    Op.applyAll dir ((savePendingWrites p).map Op.ofWrite) file = ((savePendingWrites p).lookup file).or (dir file) :=
  Op.applyAll_writes (nodup_savePendingWrites p) file

theorem holdsPending_savePending {p : PendingIdentity} (hp : p.Filled) (dir : Dir) :
    HoldsPending p (Op.applyAll dir ((savePendingWrites p).map Op.ofWrite)) := by
  refine ⟨hp, ?_, ?_, ?_⟩
  · rw [files_savePending dir p .pendingJson]
    rfl
  · rw [files_savePending dir p .token]
    rfl
  · rw [files_savePending dir p .privateKey]
    rfl

/-- What a pending identity makes of a complete one beside it: both share two files. -/
def PendingIdentity.overwrites (p : PendingIdentity) (i : ShuvTunnelIdentity) : ShuvTunnelIdentity :=
  { i with token := p.token, privateKey := p.privateKey }

theorem holds_overwritten (h : HoldsBoth tunnel waiting dir) {p : PendingIdentity} (hp : p.Filled) :
    HoldsBoth (tunnel.map p.overwrites) (some p) (Op.applyAll dir ((savePendingWrites p).map Op.ofWrite)) := by
  have hwrites := files_savePending dir p
  refine ⟨fun i hi => ?_, fun hi => ?_, fun q hq => ?_, fun hq => (nomatch hq)⟩
  · obtain ⟨j, hj, rfl⟩ := Option.map_eq_some_iff.mp hi
    obtain ⟨hfilled, hm, -, -, hcertificate, hchain⟩ := h.identity j hj
    refine ⟨⟨hfilled.id, hfilled.hostname, hp.token, hp.privateKey, hfilled.certificate⟩, ?_, ?_, ?_, ?_, ?_⟩
    · rwa [hwrites .tunnelJson]
    · rw [hwrites .token]
      rfl
    · rw [hwrites .privateKey]
      rfl
    · rwa [hwrites .certificate]
    · rwa [hwrites .chain]
  · rw [hwrites .tunnelJson]
    exact h.noIdentity (Option.map_eq_none_iff.mp hi)
  · obtain rfl := Option.some.inj hq
    exact holdsPending_savePending hp dir

/-- A pending identity with the token and the key that are there leaves the
complete one. -/
theorem holds_savePending (h : HoldsBoth tunnel waiting dir) {p : PendingIdentity} (hp : p.Filled)
    (hagrees : ∀ i ∈ tunnel, i.token = p.token ∧ i.privateKey = p.privateKey) :
    HoldsBoth tunnel (some p) (Op.applyAll dir ((savePendingWrites p).map Op.ofWrite)) := by
  have hsame : tunnel.map p.overwrites = tunnel := by
    cases tunnel with
    | none => rfl
    | some i =>
      obtain ⟨htoken, hkey⟩ := hagrees i rfl
      rw [Option.map_some, PendingIdentity.overwrites, ← htoken, ← hkey]
  rw [← hsame]
  exact holds_overwritten h hp

/-- A complete identity replaces all that is there. -/
theorem holds_save {i : ShuvTunnelIdentity} (hi : i.Filled) {writes : List (File × Bytes)}
    (hw : saveWrites i = some writes) :
    HoldsBoth (some i) none (Op.applyAll dir (writes.map Op.ofWrite ++ [.remove .pendingJson])) := by
  have hwrites : ∀ file, file ≠ .pendingJson → Op.applyAll dir (writes.map Op.ofWrite ++ [.remove .pendingJson]) file =
      (writes.lookup file).or (dir file) := fun file hne =>
    Op.applyAll_writes_remove (nodup_saveWrites hw) hne
  obtain ⟨t, ht, rfl⟩ := Option.map_eq_some_iff.mp hw
  refine ⟨fun j hj => ?_, fun hj => (nomatch hj), fun q hq => (nomatch hq), fun _ => Op.applyAll_remove _ _ _⟩
  obtain rfl := Option.some.inj hj
  refine ⟨hi, ⟨t, ht, ?_⟩, ?_, ?_, ?_, ?_⟩
  · rw [hwrites .tunnelJson (by decide)]
    rfl
  · rw [hwrites .token (by decide)]
    rfl
  · rw [hwrites .privateKey (by decide)]
    rfl
  · rw [hwrites .certificate (by decide)]
    rfl
  · rw [hwrites .chain (by decide)]
    rfl

theorem holds_empty : HoldsBoth none none (fun _ => none) :=
  ⟨fun _ hi => (nomatch hi), fun _ => rfl, fun _ hp => (nomatch hp), fun _ => rfl⟩

/-! ### One call -/

/-- The disk holds what the maps hold. -/
structure Held (env : Environment) (m : Memory) (disk : Disk) : Prop where
  names : ∀ name, Xdg.root env ++ [name] ∈ disk.dirs ↔
    name ∈ OrderedMap.keys m.identities ∨ name ∈ OrderedMap.keys m.pending
  labels : ∀ name, Xdg.root env ++ [name] ∈ disk.dirs → Rust.isLabel name = true
  holds : ∀ name, Rust.isLabel name = true →
    HoldsBoth (m.identities.lookup name) (m.pending.lookup name) (disk.folder (Xdg.root env ++ [name]))

variable {m m' : Memory} {disk : Disk}

theorem held_empty (h : disk.Fresh env) : Held env Memory.empty disk where
  names name := by
    simp only [Memory.empty, OrderedMap.keys, List.map_nil, List.not_mem_nil, or_self, iff_false]
    exact h.dirs name
  labels name hname := absurd hname (h.dirs name)
  holds name _ := by
    have : disk.folder (Xdg.root env ++ [name]) = fun _ => none := by
      funext file
      refine h.files _ ?_
      rw [List.append_assoc]
      exact List.prefix_append _ _
    rw [this]
    exact holds_empty

/-- What is written in one profile's directory. -/
theorem Held.write (h : Held env m disk) (hlabel : Rust.isLabel profile = true) {ops : List Op}
    (hnames : ∀ name, name ∈ OrderedMap.keys m'.identities ∨ name ∈ OrderedMap.keys m'.pending ↔
      name = profile ∨ name ∈ OrderedMap.keys m.identities ∨ name ∈ OrderedMap.keys m.pending)
    (hothers : ∀ name, name ≠ profile →
      m'.identities.lookup name = m.identities.lookup name ∧ m'.pending.lookup name = m.pending.lookup name)
    (hholds : HoldsBoth (m'.identities.lookup profile) (m'.pending.lookup profile)
      (Op.applyAll (disk.folder (Xdg.root env ++ [profile])) ops)) :
    Held env m' ((disk.makeDirs (Xdg.root env ++ [profile]).inits).applyAll (Xdg.root env ++ [profile]) ops) := by
  have hdirs : ∀ name, Xdg.root env ++ [name] ∈
      ((disk.makeDirs (Xdg.root env ++ [profile]).inits).applyAll (Xdg.root env ++ [profile]) ops).dirs ↔
      name = profile ∨ Xdg.root env ++ [name] ∈ disk.dirs := by
    intro name
    rw [Disk.dirs_applyAll, Disk.mem_makeDirs_inits, List.prefix_append_right_inj, or_comm]
    simp
  constructor
  · intro name
    rw [hdirs, h.names, hnames]
  · intro name hname
    rcases (hdirs name).mp hname with rfl | hname
    · exact hlabel
    · exact h.labels name hname
  · intro name hname
    by_cases he : name = profile
    · rw [he, Disk.folder_applyAll _ (Disk.mem_makeDirs_self disk _), Disk.folder_makeDirs]
      exact hholds
    · have hne : Xdg.root env ++ [name] ≠ Xdg.root env ++ [profile] := fun h =>
        he (List.singleton_inj.mp (List.append_cancel_left h))
      rw [Disk.folder_applyAll_of_ne _ hne, Disk.folder_makeDirs, (hothers name he).1, (hothers name he).2]
      exact h.holds name hname

theorem Held.remove (h : Held env m disk) :
    Held env (m.remove profile) (disk.removeAll (Xdg.root env ++ [profile])) := by
  have hprefix : ∀ name, Xdg.root env ++ [profile] <+: Xdg.root env ++ [name] ↔ name = profile := by
    intro name
    rw [List.prefix_append_right_inj]
    simp [eq_comm]
  constructor
  · intro name
    rw [Disk.mem_removeAll_of_ne (by simp), h.names, hprefix]
    show _ ↔ name ∈ OrderedMap.keys (OrderedMap.delete _ _) ∨ name ∈ OrderedMap.keys (OrderedMap.delete _ _)
    rw [OrderedMap.mem_keys_delete, OrderedMap.mem_keys_delete]
    tauto
  · intro name hname
    exact h.labels name (Disk.mem_removeAll.mp hname).1
  · intro name hname
    show HoldsBoth ((OrderedMap.delete _ _).lookup name) ((OrderedMap.delete _ _).lookup name) _
    rw [OrderedMap.lookup_delete, OrderedMap.lookup_delete]
    by_cases he : name = profile
    · rw [if_pos he, if_pos he, he, Disk.folder_removeAll _ (List.prefix_refl _)]
      exact holds_empty
    · rw [if_neg he, if_neg he, Disk.folder_removeAll_of_not]
      · exact h.holds name hname
      · intro file hp
        rw [List.append_assoc, List.prefix_append_right_inj] at hp
        simp [Ne.symm he] at hp

theorem Xdg.find_of_isLabel (hlabel : Rust.isLabel profile = true) :
    Xdg.find env profile = some (Xdg.root env ++ [profile]) := by
  refine Xdg.find_of_plainName (plainName_of_isLabel hlabel) fun hnul => ?_
  have := (char_of_isLabel hlabel).2 _ hnul
  revert this
  decide

theorem Xdg.save_eq (hlabel : Rust.isLabel profile = true) {i : ShuvTunnelIdentity} {writes : List (File × Bytes)}
    (hw : saveWrites i = some writes) (disk : Disk) : Xdg.save env profile i disk =
      (.ok (), (disk.makeDirs (Xdg.root env ++ [profile]).inits).applyAll (Xdg.root env ++ [profile])
        (writes.map Op.ofWrite ++ [.remove .pendingJson])) := by
  unfold Xdg.save
  rw [Xdg.find_of_isLabel hlabel]
  dsimp only
  rw [hw]

theorem Xdg.savePending_eq (hlabel : Rust.isLabel profile = true) (p : PendingIdentity) (disk : Disk) :
    Xdg.savePending env profile p disk =
      (.ok (), (disk.makeDirs (Xdg.root env ++ [profile]).inits).applyAll (Xdg.root env ++ [profile])
        ((savePendingWrites p).map Op.ofWrite)) := by
  unfold Xdg.savePending
  rw [Xdg.find_of_isLabel hlabel]

theorem saveWrites_of_expiry {i : ShuvTunnelIdentity} {t : Iso.Instant} (ht : i.certificateExpiry = some t) :
    ∃ writes, saveWrites i = some writes := ⟨_, by rw [saveWrites, ht]; rfl⟩

theorem Held.load (h : Held env m disk) (hlabel : Rust.isLabel profile = true) :
    Xdg.load env profile other disk = .ok (m.identities.lookup profile) := by
  unfold Xdg.load
  rw [Xdg.find_of_isLabel hlabel]
  exact load_of_holds (h.holds profile hlabel)

theorem Held.loadPending (h : Held env m disk) (hlabel : Rust.isLabel profile = true) :
    Xdg.loadPending env profile disk = .ok (m.pending.lookup profile) := by
  unfold Xdg.loadPending
  rw [Xdg.find_of_isLabel hlabel]
  exact loadPending_of_holds (h.holds profile hlabel)

/-- What is loaded behind `savePending`. -/
theorem Held.load_savePending (h : Held env m disk) (hlabel : Rust.isLabel profile = true) {p : PendingIdentity}
    (hp : p.Filled) : Xdg.load env profile other (Xdg.savePending env profile p disk).2 =
      .ok ((m.identities.lookup profile).map p.overwrites) := by
  rw [Xdg.savePending_eq hlabel]
  unfold Xdg.load
  rw [Xdg.find_of_isLabel hlabel]
  dsimp only
  rw [Disk.folder_applyAll _ (Disk.mem_makeDirs_self disk _), Disk.folder_makeDirs]
  exact load_of_holds (holds_overwritten (h.holds profile hlabel) hp)

theorem Held.profiles (h : Held env m disk) : Xdg.profiles env disk = m.profiles := by
  have hperm : (disk.children (Xdg.root env)).Perm
      (OrderedMap.insertAll [] (OrderedMap.keys m.identities ++ OrderedMap.keys m.pending)) := by
    rw [List.perm_ext_iff_of_nodup (disk.nodup_children _) (OrderedMap.nodup_insertAll List.nodup_nil _)]
    intro name
    rw [Disk.mem_children, h.names, OrderedMap.mem_insertAll, List.mem_append]
    simp
  have hsorted : (Xdg.profiles env disk).Perm m.profiles := calc
    List.Perm (Xdg.profiles env disk) (disk.children (Xdg.root env)) := perm_sortStrings _
    List.Perm _ (OrderedMap.insertAll [] (OrderedMap.keys m.identities ++ OrderedMap.keys m.pending)) := hperm
    List.Perm _ m.profiles := (perm_sortStrings _).symm
  refine eq_of_inOrder hsorted (fun name hname => ?_) (pairwise_sortStrings _) (pairwise_sortStrings _)
  exact h.labels name (Disk.mem_children.mp ((perm_sortStrings _).mem_iff.mp hname))

theorem mapM_eq_ok {α β : Type} {f : α → Except LoadError β} {g : α → β} {xs : List α}
    (h : ∀ x ∈ xs, f x = .ok (g x)) : xs.mapM f = .ok (xs.map g) := by
  induction xs with
  | nil => rfl
  | cons x xs ih =>
    rw [List.mapM_cons, h x List.mem_cons_self, ih fun y hy => h y (List.mem_cons_of_mem _ hy)]
    rfl

theorem Held.list (h : Held env m disk) (horder : (OrderedMap.keys m.identities).Pairwise InOrder) :
    Xdg.list env other disk = .ok m.identities := by
  have hlabels : ∀ name ∈ Xdg.profiles env disk, Rust.isLabel name = true := fun name hname =>
    h.labels name (Disk.mem_children.mp ((perm_sortStrings _).mem_iff.mp hname))
  have hload : (Xdg.profiles env disk).mapM (fun profile => do
      return (← Xdg.load env profile other disk).map fun tunnel => (profile, tunnel)) =
      .ok ((Xdg.profiles env disk).map fun profile => (m.identities.lookup profile).map fun tunnel => (profile, tunnel)) :=
    mapM_eq_ok fun name hname => by rw [h.load (hlabels name hname)]; rfl
  -- the profiles with an identity, in order, are those of the map
  have hkeys : (Xdg.profiles env disk).filter (· ∈ OrderedMap.keys m.identities) = OrderedMap.keys m.identities := by
    refine eq_of_inOrder ?_ (fun name hname => hlabels name (List.mem_filter.mp hname).1)
      ((pairwise_sortStrings _).filter _) horder
    have hnodup : (Xdg.profiles env disk).Nodup := (perm_sortStrings _).nodup_iff.mpr (disk.nodup_children _)
    rw [List.perm_ext_iff_of_nodup (hnodup.filter _) m.identities_nodup]
    intro name
    rw [List.mem_filter, decide_eq_true_eq, and_iff_right_iff_imp]
    exact fun hname => (perm_sortStrings _).mem_iff.mpr (Disk.mem_children.mpr ((h.names name).mpr (.inl hname)))
  have hnone : ∀ names : List String,
      names.filterMap (fun profile => (m.identities.lookup profile).map fun tunnel => (profile, tunnel)) =
        (names.filter (· ∈ OrderedMap.keys m.identities)).filterMap
          fun profile => (m.identities.lookup profile).map fun tunnel => (profile, tunnel) := by
    intro names
    rw [List.filterMap_filter]
    refine List.filterMap_congr fun name _ => ?_
    by_cases hname : name ∈ OrderedMap.keys m.identities
    · simp [hname]
    · simp [hname, OrderedMap.lookup_eq_none.mpr hname]
  unfold Xdg.list
  rw [hload]
  refine congrArg Except.ok ?_
  rw [List.filterMap_map]
  exact (hnone _).trans (by rw [hkeys, OrderedMap.filterMap_lookup m.identities_nodup])

/-- One call answers the same, and the disk holds what the maps then hold. -/
theorem Held.call (h : Held env m disk) {c : StorageCall} (hproper : c.Proper) (hagrees : c.Agrees m) :
    (Xdg.call env other disk c).1 = (m.call c).1 ∧ Held env (m.call c).2 (Xdg.call env other disk c).2 := by
  cases c with
  | profiles => exact ⟨congrArg StorageAnswer.profiles h.profiles, h⟩
  | load profile =>
    refine ⟨?_, h⟩
    show StorageAnswer.of _ (Xdg.load env profile other disk) = _
    rw [h.load ((isLabel_eq profile).trans hproper)]
    rfl
  | loadPending profile =>
    refine ⟨?_, h⟩
    show StorageAnswer.of _ (Xdg.loadPending env profile disk) = _
    rw [h.loadPending ((isLabel_eq profile).trans hproper)]
    rfl
  | save profile tunnel =>
    obtain ⟨hvalid, hfilled⟩ := hproper
    have hlabel : Rust.isLabel profile = true := (isLabel_eq profile).trans hvalid
    obtain ⟨t, ht⟩ := Option.isSome_iff_exists.mp hagrees
    obtain ⟨writes, hw⟩ := saveWrites_of_expiry ht
    show (Prod.map _ _ (Xdg.save env profile tunnel disk)).1 = _ ∧
      Held env (m.save profile tunnel) (Prod.map _ _ (Xdg.save env profile tunnel disk)).2
    rw [Xdg.save_eq hlabel hw]
    refine ⟨rfl, h.write hlabel (fun name => ?_) (fun name he => ?_) ?_⟩
    · show name ∈ OrderedMap.keys (OrderedMap.set _ _ _) ∨ name ∈ OrderedMap.keys (OrderedMap.delete _ _) ↔ _
      rw [OrderedMap.mem_keys_set, OrderedMap.mem_keys_delete]
      tauto
    · show (OrderedMap.set _ _ _).lookup name = _ ∧ (OrderedMap.delete _ _).lookup name = _
      rw [OrderedMap.lookup_set, OrderedMap.lookup_delete, if_neg he, if_neg he]
      exact ⟨rfl, rfl⟩
    · show HoldsBoth ((OrderedMap.set _ _ _).lookup profile) ((OrderedMap.delete _ _).lookup profile) _
      rw [OrderedMap.lookup_set, OrderedMap.lookup_delete, if_pos rfl, if_pos rfl]
      exact holds_save hfilled hw
  | savePending profile tunnel =>
    obtain ⟨hvalid, hfilled⟩ := hproper
    have hlabel : Rust.isLabel profile = true := (isLabel_eq profile).trans hvalid
    show (Prod.map _ _ (Xdg.savePending env profile tunnel disk)).1 = _ ∧
      Held env (m.savePending profile tunnel) (Prod.map _ _ (Xdg.savePending env profile tunnel disk)).2
    rw [Xdg.savePending_eq hlabel]
    refine ⟨rfl, h.write hlabel (fun name => ?_) (fun name he => ⟨rfl, ?_⟩) ?_⟩
    · show name ∈ OrderedMap.keys m.identities ∨ name ∈ OrderedMap.keys (OrderedMap.set _ _ _) ↔ _
      rw [OrderedMap.mem_keys_set]
      tauto
    · show (OrderedMap.set _ _ _).lookup name = _
      rw [OrderedMap.lookup_set, if_neg he]
    · show HoldsBoth (m.identities.lookup profile) ((OrderedMap.set _ _ _).lookup profile) _
      rw [OrderedMap.lookup_set, if_pos rfl]
      exact holds_savePending (h.holds profile hlabel) hfilled hagrees
  | remove profile =>
    have hlabel : Rust.isLabel profile = true := (isLabel_eq profile).trans hproper
    have hremove : Xdg.remove env profile disk = (.ok (), disk.removeAll (Xdg.root env ++ [profile])) := by
      unfold Xdg.remove
      rw [Xdg.find_of_isLabel hlabel]
    show (Prod.map _ _ (Xdg.remove env profile disk)).1 = _ ∧
      Held env (m.remove profile) (Prod.map _ _ (Xdg.remove env profile disk)).2
    rw [hremove]
    exact ⟨rfl, h.remove⟩
  | list =>
    refine ⟨?_, h⟩
    show StorageAnswer.of _ (Xdg.list env other disk) = _
    rw [h.list hagrees]
    rfl

/-! ### Any sequence of calls -/

theorem Held.answers (h : Held env m disk) {calls : List StorageCall} (hproper : ∀ c ∈ calls, c.Proper)
    (hagree : Agree m calls) : answers (Xdg.call env other) disk calls = answers Memory.call m calls := by
  induction calls generalizing m disk with
  | nil => rfl
  | cons c calls ih =>
    obtain ⟨hagrees, hagree⟩ := hagree
    obtain ⟨hanswer, hheld⟩ := h.call (hproper c List.mem_cons_self) hagrees
    exact congrArg₂ _ hanswer (ih hheld (fun c hc => hproper c (List.mem_cons_of_mem _ hc)) hagree)

end

/-- The disk answers what the maps answer, as long as pending identities come
with the token and the key that are there, the dates are valid, and `list` is
called when the profiles came in order. -/
theorem xdg_refines_memory (env : Environment) (other : String → Date) (disk : Disk) (hfresh : disk.Fresh env)
    (calls : List StorageCall) (hproper : ∀ c ∈ calls, c.Proper) (hagree : Agree Memory.empty calls) :
    answers (Xdg.call env other) disk calls = answers Memory.call Memory.empty calls :=
  (held_empty hfresh).answers hproper hagree

/-! ### A pending identity beside a complete one -/

/-- An environment in which all is in the home directory. -/
def homeEnvironment : Environment where
  home := "/home"
  xdgDataHome := none
  cwd := []
  cwd_spec := by decide
  home_absolute := by decide
  home_spec := by decide
  xdgDataHome_spec _ h := nomatch h

/-- The root, and nothing in it. -/
def emptyDisk : Disk where
  dirs := [[]]
  files _ := none
  dirs_nodup := List.nodup_singleton _
  root_mem := List.mem_singleton.mpr rfl
  above_mem _ hl _ hm := List.mem_singleton.mpr (List.prefix_nil.mp (List.mem_singleton.mp hl ▸ hm))
  housed _ hm := nomatch hm

theorem fresh_emptyDisk (env : Environment) : emptyDisk.Fresh env :=
  ⟨fun _ h => by simp [emptyDisk] at h, fun _ _ => rfl⟩

/-- An identity that is complete. -/
def storedIdentity : ShuvTunnelIdentity :=
  ⟨"demo", "demo.shuv.zip", "token", "KEY", "CERT", "", Iso.parse "2026-01-01T00:00:00.000Z"⟩

theorem filled_storedIdentity : storedIdentity.Filled :=
  ⟨by decide, by decide, ⟨by decide, by decide⟩, by decide, by decide⟩

theorem date_storedIdentity : storedIdentity.certificateExpiry.isSome = true := by decide

/-- What `ensure` saves of a tunnel whose certificate failed, with a key. -/
def pendingAgain (privateKey : String) : PendingIdentity := ⟨"demo", "demo.shuv.zip", "token", privateKey, "CSR"⟩

theorem filled_pendingAgain {privateKey : String} (h : privateKey ≠ "") : (pendingAgain privateKey).Filled :=
  ⟨(by decide : "demo" ≠ ""), (by decide : "demo.shuv.zip" ≠ ""),
    (by decide : "token" ≠ "" ∧ trim "token" = "token"), h⟩

/-- A key is saved again for a tunnel that is complete, and then both are asked
for. -/
def callsAgain (privateKey : String) : List StorageCall :=
  [.save "default" storedIdentity, .savePending "default" (pendingAgain privateKey), .load "default", .list]

theorem proper_callsAgain {privateKey : String} (h : privateKey ≠ "") : ∀ c ∈ callsAgain privateKey, c.Proper := by
  intro c hc
  rcases List.mem_cons.mp hc with rfl | hc
  · exact ⟨by decide, filled_storedIdentity⟩
  rcases List.mem_cons.mp hc with rfl | hc
  · exact ⟨by decide, filled_pendingAgain h⟩
  rcases List.mem_cons.mp hc with rfl | hc
  · show Names.isValidProfile "default" = true
    decide
  rw [List.mem_singleton.mp hc]
  trivial

/-- The certificate is loaded with a key that it is not for. -/
theorem not_xdg_refines_memory : ¬ ∀ (env : Environment) (other : String → Date) (disk : Disk), disk.Fresh env →
    ∀ calls : List StorageCall, (∀ c ∈ calls, c.Proper) →
      answers (Xdg.call env other) disk calls = answers Memory.call Memory.empty calls := by
  intro h
  have hanswers := h homeEnvironment (fun _ => none) emptyDisk (fresh_emptyDisk _) (callsAgain "KEY2")
    (proper_callsAgain (by decide))
  have hfirst : (StorageCall.save "default" storedIdentity).Proper := ⟨by decide, filled_storedIdentity⟩
  have hcall : Held homeEnvironment (Memory.empty.save "default" storedIdentity)
      (Xdg.call homeEnvironment (fun _ => none) emptyDisk (.save "default" storedIdentity)).2 :=
    ((held_empty (fresh_emptyDisk homeEnvironment)).call hfirst date_storedIdentity).2
  have hheld : Held homeEnvironment (Memory.empty.save "default" storedIdentity)
      (Xdg.save homeEnvironment "default" storedIdentity emptyDisk).2 := hcall
  have hlabel : Rust.isLabel "default" = true := by decide
  have hload : Xdg.load homeEnvironment "default" (fun _ => none) _ = _ :=
    hheld.load_savePending hlabel (filled_pendingAgain (by decide : "KEY2" ≠ ""))
  -- the third answers: the disk's has the key of the pending identity
  simp only [callsAgain, answers, Xdg.call, Prod.map_snd, id, List.cons.injEq] at hanswers
  obtain ⟨-, -, hthird, -⟩ := hanswers
  rw [hload] at hthird
  have hkey := congrArg ShuvTunnelIdentity.privateKey (Option.some.inj (StorageAnswer.identity.inj hthird))
  exact absurd hkey (by decide)

theorem agree_callsAgain : Agree Memory.empty (callsAgain "KEY") := by
  refine ⟨date_storedIdentity, fun i hi => ?_, trivial, List.pairwise_singleton _ _, trivial⟩
  obtain rfl : storedIdentity = i := Option.some.inj hi
  exact ⟨rfl, rfl⟩

theorem xdg_refines_memory_again :
    answers (Xdg.call homeEnvironment fun _ => none) emptyDisk (callsAgain "KEY") =
      answers Memory.call Memory.empty (callsAgain "KEY") :=
  xdg_refines_memory homeEnvironment _ emptyDisk (fresh_emptyDisk _) (callsAgain "KEY")
    (proper_callsAgain (by decide)) agree_callsAgain

end ShuvTunnel
