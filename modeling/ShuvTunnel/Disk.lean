/-
# The storage under the data directory

Where the two clients keep the directories of the profiles: `paths.rs` and the
beginning of `xdg` in `storage.ts`, which resolve the data directory from the
environment, and the operations of both storages on the disk. TypeScript
normalizes a path when it joins it, Rust leaves that to the operating system;
and Node takes no path with a zero character.

No directory is a link here, and no file is where a directory should be.

Key definitions: `Disk`, `Environment`, `Rust.Storage.save`, `Xdg.save`.
Key theorems: `Disk.folder_applyAll`, `Disk.files_applyAll`, `Xdg.locate_profileData`.
-/
import ShuvTunnel.Storage
import ShuvTunnel.Lib.Paths
import ShuvTunnel.Lib.OrderedMap

namespace ShuvTunnel

open Paths

/-! ### The disk -/

/-- The directories that exist, in some order, and what the files hold. The root
is a directory that exists, and what exists is in directories that exist. -/
structure Disk where
  dirs : List Location
  files : Location → Option Bytes
  dirs_nodup : dirs.Nodup
  root_mem : [] ∈ dirs
  above_mem : ∀ l ∈ dirs, ∀ m, m <+: l → m ∈ dirs
  housed : ∀ m, (files m).isSome = true → m ≠ [] ∧ m.dropLast ∈ dirs

namespace Disk

/-- The files of a profile in that directory. -/
def folder (disk : Disk) (l : Location) : Dir := fun file => disk.files (l ++ [file.name])

/-- The directories are made that are not there, and those they are in. -/
def makeDirs (disk : Disk) (ls : List Location) : Disk where
  dirs := OrderedMap.insertAll disk.dirs (ls.flatMap List.inits)
  files := disk.files
  dirs_nodup := OrderedMap.nodup_insertAll disk.dirs_nodup _
  root_mem := OrderedMap.mem_insertAll.mpr (.inl disk.root_mem)
  above_mem l hl m hm := by
    refine OrderedMap.mem_insertAll.mpr ((OrderedMap.mem_insertAll.mp hl).imp (disk.above_mem l · m hm) fun hl => ?_)
    obtain ⟨l', hl', hprefix⟩ := List.mem_flatMap.mp hl
    exact List.mem_flatMap.mpr ⟨l', hl', (List.mem_inits _ _).mpr (hm.trans ((List.mem_inits _ _).mp hprefix))⟩
  housed m hm := (disk.housed m hm).imp_right fun h => OrderedMap.mem_insertAll.mpr (.inl h)

/-- The operation in the directory `l`; nothing comes of it where there is none. -/
def apply (l : Location) (disk : Disk) (op : Op) : Disk :=
  if hl : l ∈ disk.dirs then
    { disk with
      files := Function.update disk.files (l ++ [op.file.name]) op.content
      housed := fun m hm => by
        by_cases he : m = l ++ [op.file.name]
        · subst he
          exact ⟨List.append_ne_nil_of_right_ne_nil _ (List.cons_ne_nil _ _), by rwa [List.dropLast_concat]⟩
        · rw [Function.update_of_ne he] at hm
          exact disk.housed m hm }
  else disk

/-- The operations in the directory `l`, one after the other. -/
def applyAll (disk : Disk) (l : Location) (ops : List Op) : Disk := ops.foldl (apply l) disk

/-- The directory is removed with all that is in it. The root stays. -/
def removeAll (disk : Disk) (l : Location) : Disk where
  dirs := disk.dirs.filter fun m => m.isEmpty || !l.isPrefixOf m
  files m := if l.isPrefixOf m then none else disk.files m
  dirs_nodup := disk.dirs_nodup.filter _
  root_mem := List.mem_filter.mpr ⟨disk.root_mem, rfl⟩
  above_mem m hm m' hprefix := by
    obtain ⟨hmem, hstays⟩ := List.mem_filter.mp hm
    refine List.mem_filter.mpr ⟨disk.above_mem m hmem m' hprefix, ?_⟩
    rw [Bool.or_eq_true, List.isEmpty_iff, Bool.not_eq_true', ← Bool.not_eq_true, List.isPrefixOf_iff_prefix] at hstays ⊢
    refine hstays.imp (fun hm => ?_) fun hl h => hl (h.trans hprefix)
    rw [hm] at hprefix
    exact List.prefix_nil.mp hprefix
  housed m hm := by
    split at hm
    · cases hm
    · rename_i hl
      obtain ⟨hne, hdir⟩ := disk.housed m hm
      refine ⟨hne, List.mem_filter.mpr ⟨hdir, ?_⟩⟩
      rw [Bool.or_eq_true, Bool.not_eq_true', ← Bool.not_eq_true, List.isPrefixOf_iff_prefix]
      exact .inr fun h => hl (List.isPrefixOf_iff_prefix.mpr (h.trans (List.dropLast_prefix m)))

/-- The names of the directories in a directory. -/
def children (disk : Disk) (l : Location) : List String :=
  disk.dirs.filterMap fun m => if m.dropLast = l then m.getLast? else none

end Disk

/-- A name of one segment, which is a name and not a path. -/
def PlainName (profile : String) : Prop := IsName profile ∧ '/' ∉ profile.toList

instance (profile : String) : Decidable (PlainName profile) := inferInstanceAs (Decidable (_ ∧ _))

/-- What the clients take from the environment. No variable holds a zero
character, and `HOME` is an absolute path. -/
structure Environment where
  home : String
  xdgDataHome : Option String
  cwd : Location
  cwd_spec : ∀ name ∈ cwd, PlainName name
  home_absolute : home.toList.head? = some '/'
  home_spec : Char.ofNat 0 ∉ home.toList
  xdgDataHome_spec : ∀ value ∈ xdgDataHome, Char.ofNat 0 ∉ value.toList

/-! ### Rust -/

namespace Rust

/-- `data_dir`. -/
def dataDir (env : Environment) : Text :=
  (match env.xdgDataHome.filter fun value => value ≠ "" with
    | some value => Text.ofString value
    | none => (Text.ofString env.home).append [".local", "share"]).append ["shuvtunnel"]

namespace Storage

variable (env : Environment) (profile : String)

/-- `self.root.join(profile)`. -/
def profileDir : Text := (dataDir env).append [profile]

/-- Where the system finds the directory of the profile. -/
def find (disk : Disk) : Option Location :=
  walk (fun l => decide (l ∈ disk.dirs)) (if (profileDir env profile).absolute then [] else env.cwd)
    (profileDir env profile).segments

/-- The files of the profile, where its directory is found. -/
def dir (disk : Disk) : Dir :=
  match find env profile disk with
  | some l => disk.folder l
  | none => fun _ => none

/-- `load`, from the files that are found. -/
def load (disk : Disk) : Except Error (Option Identity) := Rust.load profile (dir env profile disk)

/-- `load_pending`, from the files that are found. -/
def loadPending (disk : Disk) : Except Error (Option PendingIdentity) :=
  Rust.loadPending profile (dir env profile disk)

/-- `create_private_dir`, which makes what is not there on the way. -/
def ensureDir (disk : Disk) : Except Error Disk := do
  Rust.profileDir profile
  return disk.makeDirs (visited (if (profileDir env profile).absolute then [] else env.cwd)
    (profileDir env profile).segments)

/-- `save_pending`, in the directory that is made for it. -/
def savePending (pending : PendingIdentity) (disk : Disk) : Except Error Disk := do
  let disk ← ensureDir env profile disk
  return disk.applyAll (locate env.cwd (profileDir env profile)) (savePendingOps pending)

/-- `save`, in the directory that is made for it. -/
def save (identity : Identity) (disk : Disk) : Except Error Disk := do
  let disk ← ensureDir env profile disk
  return disk.applyAll (locate env.cwd (profileDir env profile)) (saveOps identity)

/-- `remove`: with all that is in the directory, where it is found. -/
def remove (disk : Disk) : Except Error Disk := do
  Rust.profileDir profile
  match find env profile disk with
  | some l => return disk.removeAll l
  | none => return disk

end Storage

end Rust

/-! ### TypeScript -/

/-- The text of a path. -/
def pathText (t : Text) : String :=
  if t.absolute then "/" ++ "/".intercalate t.segments
  else if t.segments = [] then "." else "/".intercalate t.segments

/-- Node takes no path that holds a zero character. -/
def hasNul (t : Text) : Bool := t.segments.any fun segment => segment.toList.contains (Char.ofNat 0)

namespace Xdg

variable (env : Environment)

/-- `dataRoot`: an empty `XDG_DATA_HOME` is taken as it is. -/
def dataRoot : Text :=
  match env.xdgDataHome with
  | some value => (Text.ofString value).join ["shuvtunnel"]
  | none => ((Text.ofString env.home).join [".local", "share"]).join ["shuvtunnel"]

variable (profile : String)

/-- `profileData`: any string is joined to the root. -/
def profileData : Text := (dataRoot env).join [profile]

/-- Where the path leads that Node takes. After `join` a `..` is left only at the
beginning, where it leads back from the working directory. -/
def find : Option Location :=
  if hasNul (profileData env profile) then none else some (locate env.cwd (profileData env profile))

/-- `load`, from the directory Node takes the path to. -/
def load (other : String → Date) (disk : Disk) : Except LoadError (Option ShuvTunnelIdentity) :=
  match find env profile with
  | some l => ShuvTunnel.load other profile (disk.folder l)
  | none => .error (.storage ("Failed to read " ++ pathText ((profileData env profile).join ["tunnel.json"])))

/-- `loadPending`, from the directory Node takes the path to. -/
def loadPending (disk : Disk) : Except LoadError (Option PendingIdentity) :=
  match find env profile with
  | some l => ShuvTunnel.loadPending profile (disk.folder l)
  | none => .error (.storage ("Failed to read " ++ pathText ((profileData env profile).join ["pending.json"])))

/-- `savePending`, all of it done. -/
def savePending (tunnel : PendingIdentity) (disk : Disk) : Except LoadError Unit × Disk :=
  match find env profile with
  | some l => (.ok (), (disk.makeDirs l.inits).applyAll l ((savePendingWrites tunnel).map Op.ofWrite))
  | none => (.error (.storage ("Failed to save pending tunnel identity for " ++ profile)), disk)

/-- The directory is made before `toISOString` may throw. -/
def save (tunnel : ShuvTunnelIdentity) (disk : Disk) : Except LoadError Unit × Disk :=
  match find env profile with
  | some l =>
    match saveWrites tunnel with
    | some writes => (.ok (), (disk.makeDirs l.inits).applyAll l (writes.map Op.ofWrite ++ [.remove .pendingJson]))
    | none => (.error (.storage ("Failed to save tunnel identity for " ++ profile)), disk.makeDirs l.inits)
  | none => (.error (.storage ("Failed to save tunnel identity for " ++ profile)), disk)

/-- `remove`: with all that is in the directory, where there is one. -/
def remove (disk : Disk) : Except LoadError Unit × Disk :=
  match find env profile with
  | some l => (.ok (), disk.removeAll l)
  | none => (.error (.storage ("Failed to remove tunnel identity for " ++ profile)), disk)

end Xdg

/-! ### What an operation leaves alone -/

theorem File.name_injective {f g : File} (h : f.name = g.name) : f = g := by
  cases f <;> cases g <;> first | rfl | exact absurd h (by decide)

/-- Operations in one directory leave the other files alone. -/
theorem Disk.files_applyAll (disk : Disk) {l m : Location} (ops : List Op) (h : ∀ file : File, m ≠ l ++ [file.name]) :
    (disk.applyAll l ops).files m = disk.files m := by
  induction ops generalizing disk with
  | nil => rfl
  | cons op ops ih =>
    show ((disk.apply l op).applyAll l ops).files m = _
    rw [ih]
    unfold Disk.apply
    split
    · exact Function.update_of_ne (h op.file) _ _
    · rfl

@[simp] theorem Disk.dirs_applyAll (disk : Disk) (l : Location) (ops : List Op) :
    (disk.applyAll l ops).dirs = disk.dirs := by
  induction ops generalizing disk with
  | nil => rfl
  | cons op ops ih =>
    refine (ih (disk.apply l op)).trans ?_
    unfold Disk.apply
    split
    · rfl
    · rfl

@[simp] theorem Disk.folder_makeDirs (disk : Disk) (ls : List Location) (l : Location) :
    (disk.makeDirs ls).folder l = disk.folder l := rfl

/-- In their directory they are the operations on it. -/
theorem Disk.folder_applyAll (disk : Disk) {l : Location} (hl : l ∈ disk.dirs) (ops : List Op) :
    (disk.applyAll l ops).folder l = Op.applyAll (disk.folder l) ops := by
  induction ops generalizing disk with
  | nil => rfl
  | cons op ops ih =>
    show ((disk.apply l op).applyAll l ops).folder l = Op.applyAll (op.apply (disk.folder l)) ops
    rw [ih _ (by rw [Disk.apply, dif_pos hl]; exact hl)]
    congr 1
    funext file
    unfold Disk.folder Disk.apply Op.apply
    rw [dif_pos hl]
    by_cases hf : file = op.file
    · rw [hf, Function.update_self]
      exact Function.update_self _ _ _
    · have hne : l ++ [file.name] ≠ l ++ [op.file.name] := fun he =>
        hf (File.name_injective (List.singleton_inj.mp (List.append_cancel_left he)))
      rw [Function.update_of_ne hf]
      exact Function.update_of_ne hne _ _

/-- Another directory is as it was. -/
theorem Disk.folder_applyAll_of_ne (disk : Disk) {l m : Location} (h : m ≠ l) (ops : List Op) :
    (disk.applyAll l ops).folder m = disk.folder m := by
  funext file
  refine disk.files_applyAll ops fun g he => h ?_
  have := congrArg List.dropLast he
  rwa [List.dropLast_concat, List.dropLast_concat] at this

theorem Disk.folder_removeAll (disk : Disk) {l m : Location} (h : l <+: m) :
    (disk.removeAll l).folder m = fun _ => none := by
  funext file
  have : l.isPrefixOf (m ++ [file.name]) = true := List.isPrefixOf_iff_prefix.mpr (h.trans (List.prefix_append _ _))
  show (if l.isPrefixOf (m ++ [file.name]) then none else _) = none
  rw [if_pos this]

/-- A profile's directory that is not below stays. -/
theorem Disk.folder_removeAll_of_not (disk : Disk) {l m : Location} (h : ∀ file : File, ¬ l <+: m ++ [file.name]) :
    (disk.removeAll l).folder m = disk.folder m := by
  funext file
  have : ¬ l.isPrefixOf (m ++ [file.name]) = true := fun hp => h file (List.isPrefixOf_iff_prefix.mp hp)
  show (if l.isPrefixOf (m ++ [file.name]) then none else _) = _
  rw [if_neg this]
  rfl

theorem Disk.mem_children {disk : Disk} {l : Location} {name : String} :
    name ∈ disk.children l ↔ l ++ [name] ∈ disk.dirs := by
  unfold Disk.children
  rw [List.mem_filterMap]
  constructor
  · rintro ⟨m, hm, h⟩
    split at h
    · rename_i hl
      rwa [← hl, List.dropLast_append_getLast? name h]
    · cases h
  · intro h
    refine ⟨l ++ [name], h, ?_⟩
    rw [List.dropLast_concat, if_pos rfl, List.getLast?_concat]

theorem Disk.nodup_children (disk : Disk) (l : Location) : (disk.children l).Nodup := by
  refine List.Nodup.filterMap (fun m m' name h h' => ?_) disk.dirs_nodup
  rw [Option.mem_def] at h h'
  split at h
  · split at h'
    · rename_i hl hl'
      rw [← List.dropLast_append_getLast? name h, ← List.dropLast_append_getLast? name h', hl, hl']
    · cases h'
  · cases h

theorem Disk.mem_makeDirs (disk : Disk) (ls : List Location) {m : Location} :
    m ∈ (disk.makeDirs ls).dirs ↔ m ∈ disk.dirs ∨ ∃ l ∈ ls, m <+: l := by
  refine OrderedMap.mem_insertAll.trans (or_congr_right ?_)
  simp only [List.mem_flatMap, List.mem_inits]

/-- The directories on the way to one place. -/
theorem Disk.mem_makeDirs_inits (disk : Disk) (l : Location) {m : Location} :
    m ∈ (disk.makeDirs l.inits).dirs ↔ m ∈ disk.dirs ∨ m <+: l := by
  rw [disk.mem_makeDirs]
  refine or_congr_right ⟨?_, fun h => ⟨l, (List.mem_inits _ _).mpr (List.prefix_refl l), h⟩⟩
  rintro ⟨l', hl', h⟩
  exact h.trans ((List.mem_inits _ _).mp hl')

theorem Disk.mem_makeDirs_self (disk : Disk) (l : Location) : l ∈ (disk.makeDirs l.inits).dirs :=
  (disk.mem_makeDirs_inits l).mpr (.inr (List.prefix_refl l))

theorem Disk.mem_removeAll {disk : Disk} {l m : Location} :
    m ∈ (disk.removeAll l).dirs ↔ m ∈ disk.dirs ∧ (m = [] ∨ ¬ l <+: m) := by
  show m ∈ disk.dirs.filter (fun m => m.isEmpty || !l.isPrefixOf m) ↔ _
  rw [List.mem_filter, Bool.or_eq_true, List.isEmpty_iff, Bool.not_eq_true', ← Bool.not_eq_true,
    List.isPrefixOf_iff_prefix]

theorem Disk.mem_removeAll_of_ne {disk : Disk} {l m : Location} (hm : m ≠ []) :
    m ∈ (disk.removeAll l).dirs ↔ m ∈ disk.dirs ∧ ¬ l <+: m := by
  rw [Disk.mem_removeAll, or_iff_right hm]

/-- What is in a directory that is not there. -/
theorem Disk.folder_of_not_mem (disk : Disk) {l : Location} (h : l ∉ disk.dirs) : disk.folder l = fun _ => none := by
  funext file
  by_contra hfile
  obtain ⟨-, hdir⟩ := disk.housed (l ++ [file.name]) (Option.isSome_iff_ne_none.mpr hfile)
  rw [List.dropLast_concat] at hdir
  exact h hdir

/-! ### The directory of a profile -/

theorem char_of_isLabel {profile : String} (h : Rust.isLabel profile = true) :
    profile ≠ "" ∧ ∀ c ∈ profile.toList, (lowerAlnum c || c = '-') = true := by
  rw [isLabel_eq, labelRegex_iff] at h
  refine ⟨?_, h.2.2.2⟩
  rintro rfl
  cases h.2.1

theorem plainName_of_isLabel {profile : String} (h : Rust.isLabel profile = true) : PlainName profile := by
  obtain ⟨hne, hchar⟩ := char_of_isLabel h
  refine ⟨⟨hne, ?_, ?_⟩, fun hs => ?_⟩
  · rintro rfl
    have := hchar '.' (by decide)
    revert this
    decide
  · rintro rfl
    have := hchar '.' (by decide)
    revert this
    decide
  · have := hchar '/' hs
    revert this
    decide

/-- `create_private_dir` makes the directory of the profile. -/
theorem Rust.Storage.mem_makeDirs (env : Environment) (profile : String) (disk : Disk) :
    locate env.cwd (profileDir env profile) ∈ (disk.makeDirs (visited
      (if (profileDir env profile).absolute then [] else env.cwd) (profileDir env profile).segments)).dirs :=
  (disk.mem_makeDirs _).mpr (.inr ⟨_, locateFrom_mem_visited _ _, List.prefix_refl _⟩)

theorem Xdg.nul_dataRoot (env : Environment) {s : String} (h : s ∈ (Xdg.dataRoot env).segments) :
    Char.ofNat 0 ∉ s.toList := by
  have hconst : ∀ names : List String, (∀ name ∈ names, Char.ofNat 0 ∉ name.toList) →
      ∀ s ∈ names.flatMap split, Char.ofNat 0 ∉ s.toList := by
    intro names hnames s hs hc
    obtain ⟨name, hname, hs⟩ := List.mem_flatMap.mp hs
    exact hnames name hname (mem_of_mem_split hs hc)
  unfold Xdg.dataRoot at h
  split at h
  · rename_i value hvalue
    rcases List.mem_append.mp (mem_normalize h) with h | h
    · exact fun hc => env.xdgDataHome_spec value hvalue (mem_of_mem_split h hc)
    · exact hconst _ (by decide) s h
  · rcases List.mem_append.mp (mem_normalize h) with h | h
    · rcases List.mem_append.mp (mem_normalize h) with h | h
      · exact fun hc => env.home_spec (mem_of_mem_split h hc)
      · exact hconst _ (by decide) s h
    · exact hconst _ (by decide) s h

theorem Xdg.locate_profileData (env : Environment) (profile : String) :
    locate env.cwd (Xdg.profileData env profile) = locateFrom (locate env.cwd (Xdg.dataRoot env)) (split profile) := by
  rw [Xdg.profileData, locate_join, List.flatMap_cons, List.flatMap_nil, List.append_nil]

/-- The data directory, as it is found. -/
def Xdg.root (env : Environment) : Location := locate env.cwd (Xdg.dataRoot env)

/-- The directory of a name is that entry of the data directory. -/
theorem Xdg.find_of_plainName {env : Environment} {profile : String} (h : PlainName profile)
    (hnul : Char.ofNat 0 ∉ profile.toList) : Xdg.find env profile = some (Xdg.root env ++ [profile]) := by
  have hsplit : split profile = [profile] := split_of_not_mem_slash h.2
  have hno : hasNul (Xdg.profileData env profile) = false := by
    simp only [hasNul, List.any_eq_false, List.contains_iff_mem]
    intro s hs
    rcases List.mem_append.mp (mem_normalize hs) with hs | hs
    · exact Xdg.nul_dataRoot env hs
    · rw [List.flatMap_cons, List.flatMap_nil, List.append_nil, hsplit, List.mem_singleton] at hs
      rw [hs]
      exact hnul
  unfold Xdg.find
  rw [hno, Xdg.locate_profileData, hsplit]
  exact congrArg some (enter_name h.1)

end ShuvTunnel
