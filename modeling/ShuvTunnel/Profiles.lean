/-
# The directory of a profile

Rust takes a profile only when its name is valid, and each operation first asks
for the profile's directory. But the path of the data directory may lead through
directories from which it leads back, and which another profile's operations
make or remove. TypeScript joins the data directory with whatever
string it is given: `isValidProfile` is there, but only its test calls it. So a
profile may lead out of the data directory, or to the directory of another one.

Key definitions: `Confined`, `Rust.Storage.call`, `Rust.Storage.Steady`, `Xdg.Named`,
`Xdg.Apart`.
Key theorems: `Rust.confined_call`, `Rust.unaffected_iff`, `Xdg.confined_iff`,
`Xdg.unaffected_iff`, `profiles_confined_iff`.
-/
import ShuvTunnel.Memory

namespace ShuvTunnel

open Paths

/-! ### Confinement -/

/-- An operation on the disk reads and writes only in the directory `l`. On the
way to the data directory it may look whether a directory is there, and make
it. -/
structure Confined {α : Type} (way : Location → Prop) (l : Location) (run : Disk → α × Disk) : Prop where
  answer : ∀ disk disk' : Disk, disk.folder l = disk'.folder l →
    (∀ m, way m → (m ∈ disk.dirs ↔ m ∈ disk'.dirs)) → (run disk).1 = (run disk').1
  files : ∀ (disk : Disk) (m : Location), ¬ l <+: m → (run disk).2.files m = disk.files m
  kept : ∀ (disk : Disk), ∀ m ∈ disk.dirs, ¬ l <+: m → m ∈ (run disk).2.dirs
  made : ∀ (disk : Disk), ∀ m ∈ (run disk).2.dirs, m ∈ disk.dirs ∨ l <+: m ∨ way m

section

variable {α : Type} {way : Location → Prop} {l : Location}

/-- An operation that only reads. -/
theorem Confined.of_read {read : Disk → α} (h : ∀ disk disk' : Disk, disk.folder l = disk'.folder l →
    (∀ m, way m → (m ∈ disk.dirs ↔ m ∈ disk'.dirs)) → read disk = read disk') :
    Confined way l fun disk => (read disk, disk) :=
  ⟨h, fun _ _ _ => rfl, fun _ _ hm _ => hm, fun _ _ hm => .inl hm⟩

theorem Confined.of_const {a : α} : Confined way l fun disk => (a, disk) := .of_read fun _ _ _ _ => rfl

/-- An operation that makes the directory and writes its files. -/
theorem Confined.of_write {a : α} {ls : List Location} (ops : List Op)
    (hls : ∀ m, (∃ l' ∈ ls, m <+: l') → l <+: m ∨ way m) :
    Confined way l fun disk => (a, (disk.makeDirs ls).applyAll l ops) := by
  refine ⟨fun _ _ _ _ => rfl, fun disk m hm => ?_, fun disk m hm _ => ?_, fun disk m hm => ?_⟩
  · exact Disk.files_applyAll _ ops fun file he => hm (he ▸ List.prefix_append _ _)
  · rw [Disk.dirs_applyAll]
    exact (Disk.mem_makeDirs disk ls).mpr (.inl hm)
  · rw [Disk.dirs_applyAll] at hm
    exact ((Disk.mem_makeDirs disk ls).mp hm).imp_right (hls m)

theorem Confined.of_remove {a : α} : Confined way l fun disk => (a, disk.removeAll l) := by
  refine ⟨fun _ _ _ _ => rfl, fun disk m hm => ?_, fun disk m hm hl => ?_, fun disk m hm => ?_⟩
  · show (if l.isPrefixOf m then none else disk.files m) = _
    rw [if_neg fun hp => hm (List.isPrefixOf_iff_prefix.mp hp)]
  · exact Disk.mem_removeAll.mpr ⟨hm, .inr hl⟩
  · exact .inl (Disk.mem_removeAll.mp hm).1

/-- An operation that does one thing or the other. -/
theorem Confined.of_or {run run' run'' : Disk → α × Disk} (h : Confined way l run') (h' : Confined way l run'')
    (hanswer : ∀ disk disk', (run disk).1 = (run disk').1) (hor : ∀ disk, run disk = run' disk ∨ run disk = run'' disk) :
    Confined way l run := by
  refine ⟨fun disk disk' _ _ => hanswer disk disk', fun disk => ?_, fun disk => ?_, fun disk => ?_⟩
  · rcases hor disk with he | he
    · rw [he]
      exact h.files disk
    · rw [he]
      exact h'.files disk
  · rcases hor disk with he | he
    · rw [he]
      exact h.kept disk
    · rw [he]
      exact h'.kept disk
  · rcases hor disk with he | he
    · rw [he]
      exact h.made disk
    · rw [he]
      exact h'.made disk

/-- Another profile's directory is as it was. -/
theorem Confined.folder {root : Location} {p q : String} {run : Disk → α × Disk}
    (h : Confined way (root ++ [p]) run) (hne : p ≠ q) (disk : Disk) :
    (run disk).2.folder (root ++ [q]) = disk.folder (root ++ [q]) := by
  funext file
  refine h.files disk _ fun hp => ?_
  rw [List.append_assoc, List.prefix_append_right_inj] at hp
  simp [hne] at hp

end

/-- A disk with these directories, in the first of which are the metadata of an
identity. -/
def strayDisk (l : Location) (ls : List Location) : Disk :=
  (emptyDisk.makeDirs (l :: ls)).apply l (.replace .tunnelJson [0x78])

theorem dirs_strayDisk (l : Location) (ls : List Location) :
    (strayDisk l ls).dirs = (emptyDisk.makeDirs (l :: ls)).dirs :=
  Disk.dirs_applyAll _ l [.replace .tunnelJson [0x78]]

theorem mem_strayDisk {l m : Location} {ls : List Location} :
    m ∈ (strayDisk l ls).dirs ↔ m = [] ∨ ∃ l' ∈ l :: ls, m <+: l' := by
  rw [dirs_strayDisk, Disk.mem_makeDirs]
  exact or_congr_left List.mem_singleton

theorem folder_strayDisk (l : Location) (ls : List Location) :
    (strayDisk l ls).folder l .tunnelJson = some [0x78] := by
  have hl : l ∈ (emptyDisk.makeDirs (l :: ls)).dirs :=
    (Disk.mem_makeDirs _ _).mpr (.inr ⟨l, List.mem_cons_self, List.prefix_refl l⟩)
  exact congrFun (Disk.folder_applyAll _ hl [.replace .tunnelJson [0x78]]) .tunnelJson

theorem folder_strayDisk_of_ne {l m : Location} (h : m ≠ l) (ls : List Location) :
    (strayDisk l ls).folder m = fun _ => none :=
  Disk.folder_applyAll_of_ne _ h [.replace .tunnelJson [0x78]]

/-! ### Rust -/

namespace Rust

/-- The methods of `Storage` that are about one profile, with their arguments. -/
inductive StorageCall
  | load (profile : String)
  | loadPending (profile : String)
  | save (profile : String) (identity : Identity)
  | savePending (profile : String) (pending : PendingIdentity)
  | remove (profile : String)

/-- The profile a method is about. -/
def StorageCall.profile : StorageCall → String
  | load profile | loadPending profile | save profile _ | savePending profile _ | remove profile => profile

/-- What a method returns. -/
inductive StorageAnswer
  | void
  | identity (identity : Option Identity)
  | pending (pending : Option PendingIdentity)
  | failed (error : Error)

/-- The answer of a method that may fail. -/
def StorageAnswer.of {α : Type} (f : α → StorageAnswer) : Except Error α → StorageAnswer
  | .ok a => f a
  | .error e => failed e

namespace Storage

variable (env : Environment)

/-- An operation that fails leaves the disk. -/
def write (run : Disk → Except Error Disk) (disk : Disk) : StorageAnswer × Disk :=
  match run disk with
  | .ok disk => (.void, disk)
  | .error e => (.failed e, disk)

/-- What a method does with the disk. -/
def call (c : StorageCall) (disk : Disk) : StorageAnswer × Disk :=
  match c with
  | .load profile => (.of .identity (load env profile disk), disk)
  | .loadPending profile => (.of .pending (loadPending env profile disk), disk)
  | .save profile identity => write (save env profile identity) disk
  | .savePending profile pending => write (savePending env profile pending) disk
  | .remove profile => write (remove env profile) disk

/-- The data directory, where the path leads. -/
def root : Location := locate env.cwd (dataDir env)

/-- Where its path begins. -/
def origin : Location := if (dataDir env).absolute then [] else env.cwd

/-- The directories on the way to it, and those they are in. -/
def way (m : Location) : Prop := ∃ v ∈ visited (origin env) (dataDir env).segments, m <+: v

end Storage

variable {env : Environment} {profile : String}

theorem find_eq_map (hname : PlainName profile) (disk : Disk) : Storage.find env profile disk =
    (walk (fun l => decide (l ∈ disk.dirs)) (if (dataDir env).absolute then [] else env.cwd)
      (dataDir env).segments).map (· ++ [profile]) := by
  unfold Storage.find
  show walk _ (if (dataDir env).absolute then [] else env.cwd) ((dataDir env).segments ++ [profile]) = _
  rw [walk_append]
  cases walk (fun l => decide (l ∈ disk.dirs)) (if (dataDir env).absolute then [] else env.cwd)
    (dataDir env).segments with
  | none => rfl
  | some m =>
    rw [Option.bind_some, Option.map_some, walk_of_no_up (by simpa using Ne.symm hname.1.2.2), locateFrom_name hname.1]

theorem find_eq (hname : PlainName profile) {disk : Disk} {l : Location} (h : Storage.find env profile disk = some l) :
    l = Storage.root env ++ [profile] := by
  rw [find_eq_map hname] at h
  obtain ⟨m, hm, rfl⟩ := Option.map_eq_some_iff.mp h
  rw [walk_eq_some hm]
  rfl

/-- The path is found or not by what is on the way. -/
theorem dir_congr (hname : PlainName profile) {disk disk' : Disk}
    (hfolder : disk.folder (Storage.root env ++ [profile]) = disk'.folder (Storage.root env ++ [profile]))
    (hway : ∀ m, Storage.way env m → (m ∈ disk.dirs ↔ m ∈ disk'.dirs)) :
    Storage.dir env profile disk = Storage.dir env profile disk' := by
  have hfind : Storage.find env profile disk = Storage.find env profile disk' := by
    rw [find_eq_map hname, find_eq_map hname, walk_congr fun m hm => ?_]
    exact decide_eq_decide.mpr (hway m ⟨m, hm, List.prefix_refl m⟩)
  unfold Storage.dir
  rw [hfind]
  cases hl : Storage.find env profile disk' with
  | none => rfl
  | some l =>
    rw [find_eq hname hl]
    exact hfolder

theorem locate_profile (hname : PlainName profile) :
    locate env.cwd (Storage.profileDir env profile) = Storage.root env ++ [profile] := by
  rw [Storage.profileDir, locate_append]
  exact locateFrom_name hname.1

/-- The directories that are made are on the way, or the profile's. -/
theorem way_of_visited (hname : PlainName profile) {m : Location}
    (h : ∃ v ∈ visited (if (Storage.profileDir env profile).absolute then [] else env.cwd)
      (Storage.profileDir env profile).segments, m <+: v) :
    Storage.root env ++ [profile] <+: m ∨ Storage.way env m := by
  obtain ⟨v, hv, hm⟩ := h
  have hv : v ∈ visited (Storage.origin env) ((dataDir env).segments ++ [profile]) := hv
  rw [visited_concat, List.mem_append, List.mem_singleton, enter_name hname.1] at hv
  rcases hv with hv | rfl
  · exact .inr ⟨v, hv, hm⟩
  · rcases List.prefix_concat_iff.mp hm with rfl | hm
    · exact .inl (List.prefix_refl _)
    · exact .inr ⟨_, locateFrom_mem_visited _ _, hm⟩

/-- What an operation does with a profile that is not valid. -/
theorem call_of_error {c : StorageCall} {e : Error} (h : profileDir c.profile = .error e) :
    Storage.call env c = fun disk => (.failed e, disk) := by
  funext disk
  cases c with
  | load profile =>
    have h : profileDir profile = .error e := h
    show (StorageAnswer.of _ (Rust.load profile _), disk) = _
    rw [Rust.load, h]
    rfl
  | loadPending profile =>
    have h : profileDir profile = .error e := h
    show (StorageAnswer.of _ (Rust.loadPending profile _), disk) = _
    rw [Rust.loadPending, h]
    rfl
  | save profile identity =>
    have h : profileDir profile = .error e := h
    simp only [Storage.call, Storage.write, Storage.save, Storage.ensureDir, h]
    rfl
  | savePending profile pending =>
    have h : profileDir profile = .error e := h
    simp only [Storage.call, Storage.write, Storage.savePending, Storage.ensureDir, h]
    rfl
  | remove profile =>
    have h : profileDir profile = .error e := h
    simp only [Storage.call, Storage.write, Storage.remove, h]
    rfl

/-- The directories that `create_private_dir` makes. -/
def Storage.onTheWay (env : Environment) (profile : String) : List Location :=
  visited (if (Storage.profileDir env profile).absolute then [] else env.cwd) (Storage.profileDir env profile).segments

theorem call_save (hlabel : isLabel profile = true) (identity : Identity) :
    Storage.call env (.save profile identity) = fun disk =>
      (.void, (disk.makeDirs (Storage.onTheWay env profile)).applyAll (Storage.root env ++ [profile])
        (saveOps identity)) := by
  funext disk
  have h : profileDir profile = .ok () := profileDir_eq_ok.mpr hlabel
  simp only [Storage.call, Storage.write, Storage.save, Storage.ensureDir, h,
    locate_profile (plainName_of_isLabel hlabel)]
  rfl

theorem call_savePending (hlabel : isLabel profile = true) (pending : PendingIdentity) :
    Storage.call env (.savePending profile pending) = fun disk =>
      (.void, (disk.makeDirs (Storage.onTheWay env profile)).applyAll (Storage.root env ++ [profile])
        (savePendingOps pending)) := by
  funext disk
  have h : profileDir profile = .ok () := profileDir_eq_ok.mpr hlabel
  simp only [Storage.call, Storage.write, Storage.savePending, Storage.ensureDir, h,
    locate_profile (plainName_of_isLabel hlabel)]
  rfl

theorem removed_of_find (hlabel : isLabel profile = true) {disk : Disk} {l : Location}
    (h : Storage.find env profile disk = some l) :
    Storage.call env (.remove profile) disk = (.void, disk.removeAll (Storage.root env ++ [profile])) := by
  have hok : profileDir profile = .ok () := profileDir_eq_ok.mpr hlabel
  obtain rfl := find_eq (plainName_of_isLabel hlabel) h
  simp only [Storage.call, Storage.write, Storage.remove, hok, h]
  rfl

theorem call_remove (hlabel : isLabel profile = true) (disk : Disk) :
    Storage.call env (.remove profile) disk = (.void, disk.removeAll (Storage.root env ++ [profile])) ∨
      Storage.call env (.remove profile) disk = (.void, disk) := by
  have h : profileDir profile = .ok () := profileDir_eq_ok.mpr hlabel
  cases hl : Storage.find env profile disk with
  | none =>
    refine .inr ?_
    simp only [Storage.call, Storage.write, Storage.remove, h, hl]
    rfl
  | some l => exact .inl (removed_of_find hlabel hl)

theorem answer_remove (hlabel : isLabel profile = true) (disk : Disk) :
    (Storage.call env (.remove profile) disk).1 = .void := by
  rcases call_remove hlabel disk with h | h
  · rw [h]
  · rw [h]

theorem confined_of_isLabel {c : StorageCall} (hlabel : isLabel c.profile = true) :
    Confined (Storage.way env) (Storage.root env ++ [c.profile]) (Storage.call env c) := by
  have hname := plainName_of_isLabel hlabel
  cases c with
  | load profile =>
    exact .of_read fun disk disk' hfolder hway =>
      congrArg (fun dir => StorageAnswer.of .identity (Rust.load profile dir)) (dir_congr hname hfolder hway)
  | loadPending profile =>
    exact .of_read fun disk disk' hfolder hway =>
      congrArg (fun dir => StorageAnswer.of .pending (Rust.loadPending profile dir)) (dir_congr hname hfolder hway)
  | save profile identity =>
    have hlabel : isLabel profile = true := hlabel
    rw [call_save hlabel]
    exact .of_write _ fun m => way_of_visited hname
  | savePending profile pending =>
    have hlabel : isLabel profile = true := hlabel
    rw [call_savePending hlabel]
    exact .of_write _ fun m => way_of_visited hname
  | remove profile =>
    refine .of_or .of_remove .of_const (fun disk disk' => ?_) (call_remove hlabel)
    exact (answer_remove hlabel disk).trans (answer_remove hlabel disk').symm

/-- Each operation is confined to the directory of its profile. -/
theorem confined_call (c : StorageCall) :
    Confined (Storage.way env) (Storage.root env ++ [c.profile]) (Storage.call env c) := by
  by_cases hlabel : isLabel c.profile = true
  · exact confined_of_isLabel hlabel
  · rw [call_of_error (if_neg hlabel)]
    exact .of_const

/-! ### One profile and another -/

/-- What is loaded for `q` is what was loaded before. -/
def Storage.Unaffected (env : Environment) (q : String) (c : StorageCall) (disk : Disk) : Prop :=
  Storage.load env q (Storage.call env c disk).2 = Storage.load env q disk ∧
    Storage.loadPending env q (Storage.call env c disk).2 = Storage.loadPending env q disk

theorem unaffected_of_dir {q : String} {c : StorageCall} {disk : Disk}
    (h : Storage.dir env q (Storage.call env c disk).2 = Storage.dir env q disk) : Storage.Unaffected env q c disk :=
  ⟨congrArg (Rust.load q) h, congrArg (Rust.loadPending q) h⟩

/-- A directory from which the path of the data directory leads back. -/
def Storage.LeadsBack (env : Environment) (d : Location) : Prop :=
  ∃ xs ys, (dataDir env).segments = xs ++ ".." :: ys ∧ d = locateFrom (Storage.origin env) xs

/-- Each is on the way to the data directory all the same; or it is the working
directory, or one that this is in, and no operation on a profile removes it. -/
def Storage.Steady (env : Environment) : Prop :=
  ∀ d, Storage.LeadsBack env d → d <+: Storage.root env ∨
    d <+: env.cwd ∧ ∀ p, isLabel p = true → ¬ Storage.root env ++ [p] <+: d

theorem walk_iff {disk : Disk} : walk (fun l => decide (l ∈ disk.dirs)) (Storage.origin env) (dataDir env).segments =
    some (Storage.root env) ↔ ∀ d, Storage.LeadsBack env d → d ∈ disk.dirs := by
  refine walk_eq_some_iff.trans ⟨?_, fun h xs ys he => decide_eq_true_eq.mpr (h _ ⟨xs, ys, he, rfl⟩)⟩
  rintro h d ⟨xs, ys, he, rfl⟩
  exact decide_eq_true_eq.mp (h xs ys he)

/-- The path goes through. -/
theorem dir_of_walk {disk : Disk} (h : ∀ d, Storage.LeadsBack env d → d ∈ disk.dirs) {q : String} (hname : PlainName q) :
    Storage.dir env q disk = disk.folder (Storage.root env ++ [q]) := by
  have hfind : Storage.find env q disk = some (Storage.root env ++ [q]) := by
    rw [find_eq_map hname]
    exact congrArg (Option.map (· ++ [q])) (walk_iff.mpr h)
  unfold Storage.dir
  rw [hfind]

/-- It does not. -/
theorem dir_of_stuck {disk : Disk} {d : Location} (hd : Storage.LeadsBack env d) (h : d ∉ disk.dirs) {q : String}
    (hname : PlainName q) : Storage.dir env q disk = fun _ => none := by
  unfold Storage.dir
  cases hfind : Storage.find env q disk with
  | none => rfl
  | some l =>
    rw [find_eq_map hname] at hfind
    obtain ⟨m, hm, -⟩ := Option.map_eq_some_iff.mp hfind
    obtain rfl := walk_eq_some hm
    exact absurd (walk_iff.mp hm d hd) h

/-- Where a profile is there, so is all on the way to the data directory. -/
theorem dir_eq_folder {disk : Disk} (h : ∀ d, Storage.LeadsBack env d → d <+: Storage.root env ∨ d ∈ disk.dirs)
    {q : String} (hname : PlainName q) : Storage.dir env q disk = disk.folder (Storage.root env ++ [q]) := by
  by_cases hq : Storage.root env ++ [q] ∈ disk.dirs
  · refine dir_of_walk (fun d hd => ?_) hname
    rcases h d hd with hroot | hmem
    · exact disk.above_mem _ hq d (hroot.trans (List.prefix_append _ _))
    · exact hmem
  · rw [disk.folder_of_not_mem hq]
    unfold Storage.dir
    cases hfind : Storage.find env q disk with
    | none => rfl
    | some l =>
      rw [find_eq hname hfind]
      exact disk.folder_of_not_mem hq

/-- A profile that is found is removed. -/
theorem removed_of_walk {p : String} (hp : isLabel p = true) {disk : Disk}
    (h : ∀ d, Storage.LeadsBack env d → d ∈ disk.dirs) :
    (Storage.call env (.remove p) disk).2 = disk.removeAll (Storage.root env ++ [p]) := by
  have hfind : Storage.find env p disk = some (Storage.root env ++ [p]) := by
    rw [find_eq_map (plainName_of_isLabel hp)]
    exact congrArg (Option.map (· ++ [p])) (walk_iff.mpr h)
  rw [removed_of_find hp hfind]

/-- What an operation on a profile leaves, when its name is valid or not. -/
theorem mem_call {disk : Disk} {d : Location} (hd : d ∈ disk.dirs)
    (h : ∀ p, isLabel p = true → ¬ Storage.root env ++ [p] <+: d) (c : StorageCall) :
    d ∈ (Storage.call env c disk).2.dirs := by
  by_cases hlabel : isLabel c.profile = true
  · exact (confined_call c).kept disk d hd (h _ hlabel)
  · rw [call_of_error (if_neg hlabel)]
    exact hd

theorem unaffected_of_steady (h : Storage.Steady env) {q : String} {c : StorageCall} (hne : c.profile ≠ q)
    {disk : Disk} (hcwd : env.cwd ∈ disk.dirs) : Storage.Unaffected env q c disk := by
  by_cases hlabel : isLabel q = true
  · have hname := plainName_of_isLabel hlabel
    have before : ∀ d, Storage.LeadsBack env d → d <+: Storage.root env ∨ d ∈ disk.dirs := fun d hd =>
      (h d hd).imp_right fun hd => disk.above_mem _ hcwd d hd.1
    have behind : ∀ d, Storage.LeadsBack env d → d <+: Storage.root env ∨ d ∈ (Storage.call env c disk).2.dirs :=
      fun d hd => (h d hd).imp_right fun hd => mem_call (disk.above_mem _ hcwd d hd.1) hd.2 c
    refine unaffected_of_dir ?_
    rw [dir_eq_folder behind hname, dir_eq_folder before hname]
    exact (confined_call c).folder hne disk
  · have hdir : ∀ dir, Rust.load q dir = .error _ ∧ Rust.loadPending q dir = .error _ := fun dir => by
      unfold Rust.load Rust.loadPending
      rw [profileDir, if_neg hlabel]
      exact ⟨rfl, rfl⟩
    exact ⟨(hdir _).1.trans (hdir _).1.symm, (hdir _).2.trans (hdir _).2.symm⟩

/-- What is loaded where the path goes through to the metadata, and what is
where it does not. -/
theorem not_unaffected {q : String} (hq : isLabel q = true) {c : StorageCall} {disk disk' : Disk}
    (hcall : (Storage.call env c disk).2 = disk')
    (h : ¬ (Storage.dir env q disk .tunnelJson = none ↔ Storage.dir env q disk' .tunnelJson = none)) :
    ¬ Storage.Unaffected env q c disk := by
  rintro ⟨hload, -⟩
  rw [hcall] at hload
  refine h ⟨fun hnone => ?_, fun hnone => ?_⟩
  · exact (load_eq_none.mp (hload.trans (load_eq_none.mpr ⟨hq, hnone⟩))).2
  · exact (load_eq_none.mp (hload.symm.trans (load_eq_none.mpr ⟨hq, hnone⟩))).2

/-- An operation on `p` removes a directory through which `q` is found. -/
theorem not_unaffected_of_removed {d : Location} (hd : Storage.LeadsBack env d) {p q : String} (hp : isLabel p = true)
    (hq : isLabel q = true) (hin : Storage.root env ++ [p] <+: d) :
    ∃ disk, env.cwd ∈ disk.dirs ∧ ¬ Storage.Unaffected env q (.remove p) disk := by
  have hname := plainName_of_isLabel hq
  have hmem : ∀ v ∈ visited (Storage.origin env) (dataDir env).segments,
      v ∈ (strayDisk (Storage.root env ++ [q]) (env.cwd :: visited (Storage.origin env) (dataDir env).segments)).dirs :=
    fun v hv => mem_strayDisk.mpr (.inr ⟨v, List.mem_cons_of_mem _ (List.mem_cons_of_mem _ hv), List.prefix_refl v⟩)
  have hthrough : ∀ d, Storage.LeadsBack env d → d ∈ (strayDisk (Storage.root env ++ [q])
      (env.cwd :: visited (Storage.origin env) (dataDir env).segments)).dirs := by
    rintro d ⟨xs, ys, he, rfl⟩
    exact hmem _ (he ▸ locateFrom_mem_visited_append _ xs _)
  refine ⟨strayDisk (Storage.root env ++ [q]) (env.cwd :: visited (Storage.origin env) (dataDir env).segments),
    mem_strayDisk.mpr (.inr ⟨_, List.mem_cons_of_mem _ List.mem_cons_self, List.prefix_refl _⟩), ?_⟩
  have hnil : d ≠ [] := by
    rintro rfl
    simp at hin
  refine not_unaffected hq (removed_of_walk hp hthrough) ?_
  rw [dir_of_walk hthrough hname, folder_strayDisk,
    dir_of_stuck hd (fun hmem => ((Disk.mem_removeAll_of_ne hnil).mp hmem).2 hin) hname]
  simp

/-- A save for `p` makes a directory through which `q` is found. -/
theorem not_unaffected_of_made {d : Location} (hd : Storage.LeadsBack env d) (hroot : ¬ d <+: Storage.root env)
    (hcwd : ¬ d <+: env.cwd) {p q : String} (hp : isLabel p = true) (hq : isLabel q = true) (hne : q ≠ p)
    (hdq : d ≠ Storage.root env ++ [q]) (identity : Identity) :
    ∃ disk, env.cwd ∈ disk.dirs ∧ ¬ Storage.Unaffected env q (.save p identity) disk := by
  have hname := plainName_of_isLabel hq
  refine ⟨strayDisk (Storage.root env ++ [q]) [env.cwd],
    mem_strayDisk.mpr (.inr ⟨_, List.mem_cons_of_mem _ List.mem_cons_self, List.prefix_refl _⟩), ?_⟩
  have hbefore : d ∉ (strayDisk (Storage.root env ++ [q]) [env.cwd]).dirs := fun hmem => by
    rcases mem_strayDisk.mp hmem with rfl | ⟨l, hl, hprefix⟩
    · exact hroot List.nil_prefix
    · rcases List.mem_cons.mp hl with rfl | hl
      · exact (List.prefix_concat_iff.mp hprefix).elim hdq hroot
      · exact hcwd (List.mem_singleton.mp hl ▸ hprefix)
  have hthrough : ∀ d, Storage.LeadsBack env d → d ∈ (((strayDisk (Storage.root env ++ [q]) [env.cwd]).makeDirs
      (Storage.onTheWay env p)).applyAll (Storage.root env ++ [p]) (saveOps identity)).dirs := by
    rintro d ⟨xs, ys, he, rfl⟩
    rw [Disk.dirs_applyAll, Disk.mem_makeDirs]
    refine .inr ⟨_, ?_, List.prefix_refl _⟩
    show _ ∈ visited (Storage.origin env) ((dataDir env).segments ++ [p])
    rw [visited_concat, he]
    exact List.mem_append_left _ (locateFrom_mem_visited_append _ xs _)
  have hne : Storage.root env ++ [q] ≠ Storage.root env ++ [p] := fun he =>
    hne (List.singleton_inj.mp (List.append_cancel_left he))
  refine not_unaffected hq (congrArg Prod.snd (congrFun (call_save hp identity) _)) ?_
  rw [dir_of_stuck hd hbefore hname, dir_of_walk hthrough hname, Disk.folder_applyAll_of_ne _ hne,
    Disk.folder_makeDirs, folder_strayDisk]
  simp

/-- What is loaded for a profile is the same behind the operations on others, when
the working directory is there, exactly when the directories are steady from
which the path leads back. -/
theorem unaffected_iff : (∀ (q : String) (c : StorageCall), c.profile ≠ q → ∀ disk, env.cwd ∈ disk.dirs →
    Storage.Unaffected env q c disk) ↔ Storage.Steady env := by
  refine ⟨fun h d hd => ?_, fun h q c hne disk hcwd => unaffected_of_steady h hne hcwd⟩
  have ha : isLabel "a" = true := by decide
  have hb : isLabel "b" = true := by decide
  by_contra hnot
  rw [not_or, not_and] at hnot
  obtain ⟨hroot, hcwd⟩ := hnot
  by_cases hin : d <+: env.cwd
  · obtain ⟨p, hp⟩ := not_forall.mp (hcwd hin)
    obtain ⟨hlabel, hp⟩ := Classical.not_imp.mp hp
    have hp := not_not.mp hp
    by_cases hpb : p = "b"
    · obtain ⟨disk, hdisk, haffected⟩ := not_unaffected_of_removed hd hlabel ha hp
      exact haffected (h "a" (.remove p) (show p ≠ "a" by rw [hpb]; decide) disk hdisk)
    · obtain ⟨disk, hdisk, haffected⟩ := not_unaffected_of_removed hd hlabel hb hp
      exact haffected (h "b" (.remove p) hpb disk hdisk)
  · have identity : Identity := ⟨"", "", "", "", "", "", ""⟩
    by_cases hdb : d = Storage.root env ++ ["b"]
    · have hda : d ≠ Storage.root env ++ ["a"] := by
        rw [hdb]
        simp
      obtain ⟨disk, hdisk, haffected⟩ := not_unaffected_of_made hd hroot hin hb ha (by decide) hda identity
      exact haffected (h "a" (.save "b" identity) (by decide : "b" ≠ "a") disk hdisk)
    · obtain ⟨disk, hdisk, haffected⟩ := not_unaffected_of_made hd hroot hin ha hb (by decide) hdb identity
      exact haffected (h "b" (.save "a" identity) (by decide : "a" ≠ "b") disk hdisk)

end Rust

/-! ### TypeScript -/

/-- The profile that a call is about. -/
def StorageCall.profile? : StorageCall → Option String
  | .load profile | .loadPending profile | .save profile _ | .savePending profile _ | .remove profile => some profile
  | .profiles | .list => none

namespace Xdg

variable (env : Environment)

/-- The profile is a name of one segment, or Node takes no such path. -/
def Named (profile : String) : Prop := PlainName profile ∨ hasNul (profileData env profile) = true

/-- No file of `q` is in the directory that `p` leads to, nor is it one. -/
def Apart (p q : String) : Prop := ∀ l ∈ find env p, ∀ m ∈ find env q, ∀ file : File, ¬ l <+: m ++ [file.name]

/-- The directories on the way to the data directory. -/
def way (m : Location) : Prop := m <+: root env

/-- What is loaded for `q` is what was loaded before. -/
def Unaffected (other : String → Date) (q : String) (c : StorageCall) (disk : Disk) : Prop :=
  load env q other (call env other disk c).2 = load env q other disk ∧
    loadPending env q (call env other disk c).2 = loadPending env q disk

variable {env} {other : String → Date} {profile : String}

/-- All on the way from the root are names. -/
theorem plain_locateFrom {l : Location} (hl : ∀ s ∈ l, PlainName s) {segments : List String}
    (hslash : ∀ s ∈ segments, '/' ∉ s.toList) : ∀ s ∈ locateFrom l segments, PlainName s := by
  intro s hs
  refine ⟨isName_of_mem_locateFrom (fun s hs => (hl s hs).1) segments s hs, ?_⟩
  rcases mem_locateFrom hs with hs | hs
  · exact (hl s hs).2
  · exact hslash s hs

theorem plain_root : ∀ s ∈ root env, PlainName s := by
  have hsplit : ∀ names : List String, ∀ s ∈ names.flatMap split, '/' ∉ s.toList := fun names s hs => by
    obtain ⟨name, -, hs⟩ := List.mem_flatMap.mp hs
    exact not_mem_slash_split hs
  have hbase : ∀ text : String, ∀ s ∈ locate env.cwd (Text.ofString text), PlainName s := fun text => by
    refine plain_locateFrom (fun s hs => ?_) fun s hs => not_mem_slash_split hs
    split at hs
    · cases hs
    · exact env.cwd_spec s hs
  unfold root dataRoot
  split
  · rw [locate_join]
    exact plain_locateFrom (hbase _) (hsplit _)
  · rw [locate_join, locate_join]
    exact plain_locateFrom (plain_locateFrom (hbase _) (hsplit _)) (hsplit _)

theorem find_eq_some {l : Location} : find env profile = some l ↔
    hasNul (profileData env profile) = false ∧ l = locateFrom (root env) (split profile) := by
  unfold find
  rw [locate_profileData]
  cases hasNul (profileData env profile) with
  | true => simp
  | false =>
    simp only [Bool.false_eq_true, if_false, Option.some.injEq, true_and]
    exact eq_comm

theorem find_eq_none : find env profile = none ↔ hasNul (profileData env profile) = true := by
  unfold find
  cases hasNul (profileData env profile) with
  | true => simp
  | false => simp

theorem plain_find {l : Location} (h : find env profile = some l) : ∀ s ∈ l, PlainName s := by
  obtain ⟨-, rfl⟩ := find_eq_some.mp h
  exact plain_locateFrom plain_root fun s hs => not_mem_slash_split hs

theorem find_of_plain {l : Location} (hname : PlainName profile) (h : find env profile = some l) :
    l = root env ++ [profile] := by
  obtain ⟨-, rfl⟩ := find_eq_some.mp h
  rw [split_of_not_mem_slash hname.2, locateFrom_name hname.1]

/-- What no path is taken for. -/
theorem call_of_nul {c : StorageCall} (hc : c.profile? = some profile) (h : find env profile = none) :
    ∃ answer, (fun disk => call env other disk c) = fun disk => (answer, disk) := by
  cases c with
  | profiles => cases hc
  | list => cases hc
  | load p =>
    obtain rfl := Option.some.inj hc
    exact ⟨_, funext fun disk => by simp only [call, load, h]; rfl⟩
  | loadPending p =>
    obtain rfl := Option.some.inj hc
    exact ⟨_, funext fun disk => by simp only [call, loadPending, h]; rfl⟩
  | save p tunnel =>
    obtain rfl := Option.some.inj hc
    exact ⟨_, funext fun disk => by simp only [call, save, h]; rfl⟩
  | savePending p tunnel =>
    obtain rfl := Option.some.inj hc
    exact ⟨_, funext fun disk => by simp only [call, savePending, h]; rfl⟩
  | remove p =>
    obtain rfl := Option.some.inj hc
    exact ⟨_, funext fun disk => by simp only [call, remove, h]; rfl⟩

theorem way_of_inits {l : Location} {name : String} (hl : l = root env ++ [name]) :
    ∀ m, (∃ l' ∈ l.inits, m <+: l') → l <+: m ∨ way env m := by
  rintro m ⟨l', hl', hm⟩
  have hm := hm.trans ((List.mem_inits _ _).mp hl')
  rw [hl, List.prefix_concat_iff] at hm
  rcases hm with rfl | hm
  · exact .inl (hl ▸ List.prefix_refl _)
  · exact .inr hm

/-- An operation on a named profile is confined to its directory. -/
theorem confined_of_named {c : StorageCall} (hc : c.profile? = some profile) (hnamed : Named env profile) :
    Confined (way env) (root env ++ [profile]) fun disk => call env other disk c := by
  cases hfind : find env profile with
  | none =>
    obtain ⟨answer, hcall⟩ : ∃ answer, (fun disk => call env other disk c) = fun disk => (answer, disk) :=
      call_of_nul hc hfind
    rw [hcall]
    exact .of_const
  | some l =>
    have hname : PlainName profile := hnamed.resolve_right fun hnul => by
      rw [find_eq_none.mpr hnul] at hfind
      cases hfind
    obtain rfl := find_of_plain hname hfind
    cases c with
    | profiles => cases hc
    | list => cases hc
    | load p =>
      obtain rfl := Option.some.inj hc
      refine .of_read fun disk disk' hfolder _ => ?_
      simp only [load, hfind, hfolder]
    | loadPending p =>
      obtain rfl := Option.some.inj hc
      refine .of_read fun disk disk' hfolder _ => ?_
      simp only [loadPending, hfind, hfolder]
    | save p tunnel =>
      obtain rfl := Option.some.inj hc
      cases hw : saveWrites tunnel with
      | some writes =>
        simp only [call, save, hfind, hw]
        exact .of_write _ (way_of_inits rfl)
      | none =>
        simp only [call, save, hfind, hw]
        exact .of_write [] (way_of_inits rfl)
    | savePending p tunnel =>
      obtain rfl := Option.some.inj hc
      simp only [call, savePending, hfind]
      exact .of_write _ (way_of_inits rfl)
    | remove p =>
      obtain rfl := Option.some.inj hc
      simp only [call, remove, hfind]
      exact .of_remove

/-- The metadata of an identity is there. -/
theorem load_ne_none {dir : Dir} (h : dir .tunnelJson = some [0x78]) : ShuvTunnel.load other profile dir ≠ .ok none := by
  rw [Ne, load_eq_none, readText, h]
  decide

/-- A profile that is no name is read elsewhere. -/
theorem named_of_confined
    (h : Confined (way env) (root env ++ [profile]) fun disk => call env other disk (.load profile)) :
    Named env profile := by
  by_contra hnamed
  obtain ⟨hname, hnul⟩ := not_or.mp hnamed
  cases hfind : find env profile with
  | none => exact hnul (find_eq_none.mp hfind)
  | some l =>
    -- the profile is no part of the path
    have hout : root env ++ [profile] ≠ l := by
      rintro rfl
      exact hname (plain_find hfind profile (List.mem_append_right _ List.mem_cons_self))
    have hanswer := h.answer (strayDisk l []) (emptyDisk.makeDirs [l]) (folder_strayDisk_of_ne hout [])
      fun m _ => by rw [dirs_strayDisk]
    have hempty : ShuvTunnel.load other profile (fun _ => none) = .ok none := load_eq_none.mpr rfl
    simp only [call, load, hfind] at hanswer
    have hne : ShuvTunnel.load other profile ((strayDisk l []).folder l) ≠ .ok none := load_ne_none (folder_strayDisk l [])
    refine hne ?_
    cases hl : ShuvTunnel.load other profile ((strayDisk l []).folder l) with
    | ok tunnel =>
      rw [hl] at hanswer
      have : StorageAnswer.identity tunnel = .of .identity (ShuvTunnel.load other profile fun _ => none) := hanswer
      rw [hempty] at this
      rw [StorageAnswer.identity.inj this]
    | error e =>
      rw [hl] at hanswer
      have : StorageAnswer.failed e = .of .identity (ShuvTunnel.load other profile fun _ => none) := hanswer
      rw [hempty] at this
      cases this

theorem confined_iff : (∀ c : StorageCall, c.profile? = some profile →
    Confined (way env) (root env ++ [profile]) fun disk => call env other disk c) ↔ Named env profile :=
  ⟨fun h => named_of_confined (h (.load profile) rfl), fun hnamed _ hc => confined_of_named hc hnamed⟩

/-! ### One profile and another -/

theorem apart_of_named {p q : String} (hne : p ≠ q) (hp : Named env p) (hq : Named env q) : Apart env p q := by
  have hplain : ∀ {name : String} {l : Location}, Named env name → find env name = some l → l = root env ++ [name] :=
    fun hnamed hfind => find_of_plain (hnamed.resolve_right fun hnul => by
      rw [find_eq_none.mpr hnul] at hfind
      cases hfind) hfind
  intro l hl m hm file hprefix
  rw [hplain hp hl, hplain hq hm, List.append_assoc, List.prefix_append_right_inj] at hprefix
  simp [hne] at hprefix

/-- What a call does to a directory that is apart from its profile's. -/
theorem folder_call {c : StorageCall} {l m : Location} (hc : c.profile? = some profile)
    (hfind : find env profile = some l)
    (h : ∀ file : File, ¬ l <+: m ++ [file.name]) (disk : Disk) :
    (call env other disk c).2.folder m = disk.folder m := by
  have hne : m ≠ l := by
    rintro rfl
    exact h .token (List.prefix_append _ _)
  cases c with
  | profiles => cases hc
  | list => cases hc
  | load p => rfl
  | loadPending p => rfl
  | save p tunnel =>
    obtain rfl := Option.some.inj hc
    cases hw : saveWrites tunnel with
    | some writes =>
      simp only [call, save, hfind, hw]
      exact Disk.folder_applyAll_of_ne _ hne _
    | none =>
      simp only [call, save, hfind, hw]
      rfl
  | savePending p tunnel =>
    obtain rfl := Option.some.inj hc
    simp only [call, savePending, hfind]
    exact Disk.folder_applyAll_of_ne _ hne _
  | remove p =>
    obtain rfl := Option.some.inj hc
    simp only [call, remove, hfind]
    exact Disk.folder_removeAll_of_not _ h

theorem unaffected_of_apart {p q : String} (h : Apart env p q) {c : StorageCall} (hc : c.profile? = some p)
    (disk : Disk) : Unaffected env other q c disk := by
  unfold Unaffected load loadPending
  cases hq : find env q with
  | none => exact ⟨rfl, rfl⟩
  | some m =>
    cases hp : find env p with
    | none =>
      obtain ⟨answer, hcall⟩ : ∃ answer, (fun disk => call env other disk c) = fun disk => (answer, disk) :=
        call_of_nul hc hp
      rw [show call env other disk c = (answer, disk) from congrFun hcall disk]
      exact ⟨rfl, rfl⟩
    | some l =>
      dsimp only
      rw [folder_call hc hp (h l hp m hq)]
      exact ⟨rfl, rfl⟩

/-- A full directory, of which nothing can be parsed. -/
def fullDisk (m : Location) : Disk :=
  (emptyDisk.makeDirs m.inits).applyAll m
    ([.tunnelJson, .pendingJson, .token, .privateKey, .certificate, .chain].map fun file => .replace file [0x78])

theorem folder_fullDisk (m : Location) : (fullDisk m).folder m = fun _ => some [0x78] := by
  unfold fullDisk
  rw [Disk.folder_applyAll _ (Disk.mem_makeDirs_self emptyDisk m)]
  funext file
  cases file <;> rfl

theorem truthy_full {dir : Dir} {file : File} (h : dir file = some [0x78]) : truthy (readText dir file) = some "x" := by
  rw [readText, h]
  decide

theorem load_full {dir : Dir} (h : ∀ file, dir file = some [0x78]) :
    ShuvTunnel.load other profile dir = .error .thrown := by
  have hparse : parseMetadata "x" "id" "hostname" "certificateExpiry" = .error .thrown := by decide
  unfold ShuvTunnel.load
  rw [truthy_full (h _), truthy_full (h _), truthy_full (h _), truthy_full (h _), readText, h .chain]
  dsimp only
  rw [hparse]
  rfl

theorem loadPending_full {dir : Dir} (h : ∀ file, dir file = some [0x78]) :
    ShuvTunnel.loadPending profile dir = .error .thrown := by
  have hparse : parseMetadata "x" "id" "hostname" "csr" = .error .thrown := by decide
  unfold ShuvTunnel.loadPending
  rw [truthy_full (h _), truthy_full (h _), truthy_full (h _)]
  dsimp only
  rw [hparse]

/-- Where one of its files is missing, the metadata of an identity are not parsed. -/
theorem load_ne_thrown {dir : Dir} (h : truthy (readText dir .token) = none ∨ truthy (readText dir .privateKey) = none ∨
    truthy (readText dir .certificate) = none ∨ readText dir .chain = none) :
    ShuvTunnel.load other profile dir ≠ .error .thrown := by
  intro he
  unfold ShuvTunnel.load at he
  split at he
  · cases he
  · split at he
    · rename_i htoken hkey hcertificate hchain
      rcases h with h | h | h | h
      · cases h.symm.trans htoken
      · cases h.symm.trans hkey
      · cases h.symm.trans hcertificate
      · cases h.symm.trans hchain
    · cases he

/-- No file is missing where the metadata could not be parsed. -/
theorem present_of_thrown {dir : Dir} (h : ShuvTunnel.load other profile dir = .error .thrown)
    (hpending : ShuvTunnel.loadPending profile dir = .error .thrown) (file : File) : dir file ≠ none := by
  intro hnone
  have hread : readText dir file = none := by rw [readText, hnone]; rfl
  have htruthy : truthy (readText dir file) = none := by rw [hread]; rfl
  cases file with
  | pendingJson =>
    rw [ShuvTunnel.loadPending, htruthy] at hpending
    cases hpending
  | tunnelJson =>
    rw [ShuvTunnel.load, htruthy] at h
    cases h
  | token => exact load_ne_thrown (.inl htruthy) h
  | privateKey => exact load_ne_thrown (.inr (.inl htruthy)) h
  | certificate => exact load_ne_thrown (.inr (.inr (.inl htruthy))) h
  | chain => exact load_ne_thrown (.inr (.inr (.inr hread))) h

theorem apart_of_unaffected {p q : String} (h : ∀ disk, Unaffected env other q (.remove p) disk) : Apart env p q := by
  intro l hl m hm file hprefix
  obtain ⟨hload, hpending⟩ := h (fullDisk m)
  have hremove : (call env other (fullDisk m) (.remove p)).2 = (fullDisk m).removeAll l := by
    simp only [call, remove, Option.mem_def.mp hl]
    rfl
  have hfull : ∀ file, (fullDisk m).folder m file = some [0x78] := congrFun (folder_fullDisk m)
  simp only [load, loadPending, Option.mem_def.mp hm, hremove] at hload hpending
  refine present_of_thrown (hload.trans (load_full hfull)) (hpending.trans (loadPending_full hfull)) file ?_
  show (if l.isPrefixOf (m ++ [file.name]) then none else _) = none
  rw [if_pos (List.isPrefixOf_iff_prefix.mpr hprefix)]

/-- An operation on `p` leaves what is loaded for `q` exactly when they are
apart. -/
theorem unaffected_iff {p q : String} :
    (∀ c : StorageCall, c.profile? = some p → ∀ disk, Unaffected env other q c disk) ↔ Apart env p q :=
  ⟨fun h => apart_of_unaffected fun disk => h (.remove p) rfl disk, fun h _ hc disk => unaffected_of_apart h hc disk⟩

end Xdg

/-! ### Both clients -/

/-- In Rust every operation is confined to the directory of its profile, and
leaves the others, where the working directory exists, exactly when the path of
the data directory is steady. In
TypeScript those on a profile are confined exactly when it is a name, and leave
another exactly when the two are apart, as any two names are. -/
theorem profiles_confined_iff (env : Environment) (other : String → Date) :
    (∀ c : Rust.StorageCall,
      Confined (Rust.Storage.way env) (Rust.Storage.root env ++ [c.profile]) (Rust.Storage.call env c)) ∧
    ((∀ (q : String) (c : Rust.StorageCall), c.profile ≠ q → ∀ disk, env.cwd ∈ disk.dirs →
      Rust.Storage.Unaffected env q c disk) ↔ Rust.Storage.Steady env) ∧
    (∀ p : String, (∀ c : StorageCall, c.profile? = some p →
      Confined (Xdg.way env) (Xdg.root env ++ [p]) fun disk => Xdg.call env other disk c) ↔ Xdg.Named env p) ∧
    (∀ p q : String, (∀ c : StorageCall, c.profile? = some p → ∀ disk, Xdg.Unaffected env other q c disk) ↔
      Xdg.Apart env p q) ∧
    ∀ p q : String, p ≠ q → Xdg.Named env p → Xdg.Named env q → Xdg.Apart env p q :=
  ⟨Rust.confined_call, Rust.unaffected_iff, fun _ => Xdg.confined_iff, fun _ _ => Xdg.unaffected_iff,
    fun _ _ => Xdg.apart_of_named⟩

/-- `remove("..")` removes what is beside the data directory, and the profiles
in it. -/
theorem not_profiles_confined : ¬ ∀ (env : Environment) (other : String → Date) (p : String),
    (∀ c : StorageCall, c.profile? = some p →
      Confined (Xdg.way env) (Xdg.root env ++ [p]) fun disk => Xdg.call env other disk c) ∧
    ∀ q : String, p ≠ q → ∀ c : StorageCall, c.profile? = some p → ∀ disk, Xdg.Unaffected env other q c disk := by
  intro h
  obtain ⟨-, hothers⟩ := h homeEnvironment (fun _ => none) ".."
  have hapart := Xdg.unaffected_iff.mp (hothers "default" (by decide))
  have hup : Xdg.find homeEnvironment ".." = some ["home", ".local", "share"] := by decide
  have hdefault : Xdg.find homeEnvironment "default" = some ["home", ".local", "share", "shuvtunnel", "default"] := by decide
  exact hapart _ hup _ hdefault .token (by decide)

end ShuvTunnel
