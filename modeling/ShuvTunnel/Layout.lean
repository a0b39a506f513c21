/-
# One layout for both clients

`docs/protocol.md`, "Local storage", describes one layout on disk that both
clients read and write. Both write the same files; what differs is where. Rust
takes an empty `XDG_DATA_HOME` for one that is not set, TypeScript for the
working directory; and TypeScript resolves the `..` of a path in its text, where
Rust has the system walk back from a directory that need not exist.

Key definitions: `SameRoot`, `Walkable`, `RoundTrips`.
Key theorems: `locate_dataDir_iff`, `round_trips_iff`.
-/
import ShuvTunnel.Memory

namespace ShuvTunnel

open Paths

/-! ### What is shared -/

/-- The identity as Rust has it, its expiry in `toISOString`'s form. -/
def ShuvTunnelIdentity.toRust (i : ShuvTunnelIdentity) (expiry : Iso.Instant) : Rust.Identity where
  id := i.id
  hostname := i.hostname
  token := i.token
  privateKey := i.privateKey
  certificate := i.certificate
  chain := i.chain
  certificateExpiry := Iso.format expiry

/-- What one client saves is what the other loads then, for all identities. No
white space is around a token, by either language's notion. -/
structure RoundTrips (env : Environment) (other : String → Date) (profile : String) (disk : Disk) : Prop where
  fromRust : ∀ (i : ShuvTunnelIdentity) (t : Iso.Instant), i.Filled → i.certificateExpiry = some t →
    Rust.trim i.token = i.token →
    (Rust.Storage.save env profile (i.toRust t) disk).map (Xdg.load env profile other) = .ok (.ok (some i))
  toRust : ∀ (i : ShuvTunnelIdentity) (t : Iso.Instant), i.Filled → i.certificateExpiry = some t →
    Rust.trim i.token = i.token →
    (Xdg.save env profile i disk).1 = .ok () ∧
      Rust.Storage.load env profile (Xdg.save env profile i disk).2 = .ok (some (i.toRust t))
  fromRustPending : ∀ p : PendingIdentity, p.Filled → Rust.trim p.token = p.token →
    (Rust.Storage.savePending env profile p disk).map (Xdg.loadPending env profile) = .ok (.ok (some p))
  toRustPending : ∀ p : PendingIdentity, p.Filled → Rust.trim p.token = p.token →
    (Xdg.savePending env profile p disk).1 = .ok () ∧
      Rust.Storage.loadPending env profile (Xdg.savePending env profile p disk).2 = .ok (some p)

/-- The variable is not empty, or what it stands for in each client happens to
be one directory. -/
def SameRoot (env : Environment) : Prop :=
  env.xdgDataHome = some "" → env.cwd = locate env.cwd ((Text.ofString env.home).append [".local", "share"])

/-- The directories exist that a `..` of the path leads back from, or are made on
the way to the profile's. -/
def Walkable (env : Environment) (profile : String) (disk : Disk) : Prop :=
  ∀ xs ys, (Rust.Storage.profileDir env profile).segments = xs ++ ".." :: ys →
    locateFrom (if (Rust.Storage.profileDir env profile).absolute then [] else env.cwd) xs ∈ disk.dirs ∨
      locateFrom (if (Rust.Storage.profileDir env profile).absolute then [] else env.cwd) xs <+:
        Xdg.root env ++ [profile]

/-! ### The directory -/

variable {env : Environment} {other : String → Date} {profile : String} {disk : Disk}

theorem flatMap_split {names : List String} (h : ∀ name ∈ names, '/' ∉ name.toList) : names.flatMap split = names := by
  induction names with
  | nil => rfl
  | cons name names ih =>
    rw [List.flatMap_cons, split_of_not_mem_slash (h name List.mem_cons_self),
      ih fun n hn => h n (List.mem_cons_of_mem _ hn)]
    rfl

/-- Both have the data directory in one place, if and only if an empty variable
does not separate them. -/
theorem locate_dataDir_iff : locate env.cwd (Rust.dataDir env) = Xdg.root env ↔ SameRoot env := by
  have hlast : ["shuvtunnel"].flatMap split = ["shuvtunnel"] := flatMap_split (by decide)
  have hlocal : [".local", "share"].flatMap split = [".local", "share"] := flatMap_split (by decide)
  have hname : ∀ l : Location, locateFrom l ["shuvtunnel"] = l ++ ["shuvtunnel"] := fun l => locateFrom_name (by decide)
  unfold Xdg.root Rust.dataDir Xdg.dataRoot SameRoot
  cases hx : env.xdgDataHome with
  | none =>
    simp only [Option.filter_none, locate_append, locate_join, hlast, hlocal, reduceCtorEq, IsEmpty.forall_iff]
  | some value =>
    by_cases hvalue : value = ""
    · subst hvalue
      have hempty : locate env.cwd (Text.ofString "") = env.cwd := rfl
      simp only [Option.filter_some, ne_eq, not_true_eq_false, decide_false, Bool.false_eq_true, if_false,
        locate_append, locate_join, hlast, hname, hempty, forall_const]
      rw [List.append_left_inj, eq_comm]
    · simp only [Option.filter_some, ne_eq, hvalue, not_false_eq_true, decide_true, if_true, locate_append, locate_join,
        hlast, Option.some.injEq, IsEmpty.forall_iff]

theorem locate_profileDir (hname : PlainName profile) :
    locate env.cwd (Rust.Storage.profileDir env profile) = locate env.cwd (Rust.dataDir env) ++ [profile] := by
  rw [Rust.Storage.profileDir, locate_append]
  exact locateFrom_name hname.1

/-- The path goes through where the profile's directory was made. -/
theorem find_eq_some (hname : PlainName profile) (hroot : SameRoot env) {disk' : Disk}
    (hdirs : ∀ l, l ∈ disk'.dirs ↔ l ∈ disk.dirs ∨ l <+: Xdg.root env ++ [profile]) :
    Rust.Storage.find env profile disk' = some (Xdg.root env ++ [profile]) ↔ Walkable env profile disk := by
  have hlocate : locateFrom (if (Rust.Storage.profileDir env profile).absolute then [] else env.cwd)
      (Rust.Storage.profileDir env profile).segments = Xdg.root env ++ [profile] := by
    show locate env.cwd (Rust.Storage.profileDir env profile) = _
    rw [locate_profileDir hname, locate_dataDir_iff.mpr hroot]
  unfold Rust.Storage.find Walkable
  rw [← hlocate, walk_eq_some_iff, hlocate]
  simp only [decide_eq_true_eq, hdirs]

/-! ### What one writes and the other reads -/

theorem load_saveOps {i : ShuvTunnelIdentity} {t : Iso.Instant} (hi : i.Filled) (ht : i.certificateExpiry = some t)
    (dir : Dir) : load other profile (Op.applyAll dir (Rust.saveOps (i.toRust t))) = .ok (some i) := by
  have hnodup := Rust.nodup_saveOps (i.toRust t)
  refine load_of_files (Op.applyAll_replace hnodup (j := 4) rfl) (toJson_ne_empty _)
    (parseMetadata_toJson (by decide) (by decide) (by decide) _ _ _) ?_ (Op.applyAll_replace hnodup (j := 0) rfl)
    hi.token.2 (Op.applyAll_replace hnodup (j := 1) rfl) hi.privateKey (Op.applyAll_replace hnodup (j := 2) rfl)
    hi.certificate (Op.applyAll_replace hnodup (j := 3) rfl)
  rw [ht]
  exact date_parse_format t

theorem loadPending_savePendingOps {p : PendingIdentity} (hp : p.Filled) (dir : Dir) :
    loadPending profile (Op.applyAll dir (Rust.savePendingOps p)) = .ok (some p) := by
  have hnodup := Rust.nodup_savePendingOps p
  exact loadPending_of_files (Op.applyAll_replace hnodup (j := 2) rfl) (toJson_ne_empty _)
    (parseMetadata_toJson (by decide) (by decide) (by decide) _ _ _) (Op.applyAll_replace hnodup (j := 0) rfl)
    hp.token.2 (Op.applyAll_replace hnodup (j := 1) rfl) hp.privateKey

/-- What TypeScript wrote, Rust loads. -/
theorem rust_load_of_holds {i : ShuvTunnelIdentity} {t : Iso.Instant} {dir : Dir} (hvalid : Rust.isLabel profile = true)
    (ht : i.certificateExpiry = some t) (htrim : Rust.trim i.token = i.token) (h : HoldsIdentity i dir) :
    Rust.load profile dir = .ok (some (i.toRust t)) := by
  obtain ⟨-, ⟨t', ht', hm⟩, htoken, hkey, hcertificate, hchain⟩ := h
  obtain rfl : t = t' := Option.some.inj (ht.symm.trans ht')
  exact Rust.load_of_files hvalid (Rust.metadata_of_stringify (by decide) (by decide) (by decide) hm) htoken htrim hkey
    hcertificate hchain

theorem rust_loadPending_of_holds {p : PendingIdentity} {dir : Dir} (hvalid : Rust.isLabel profile = true)
    (htrim : Rust.trim p.token = p.token) (h : HoldsPending p dir) : Rust.loadPending profile dir = .ok (some p) := by
  obtain ⟨-, hm, htoken, hkey⟩ := h
  exact Rust.loadPending_of_files hvalid (Rust.metadata_of_stringify (by decide) (by decide) (by decide) hm) htoken htrim
    hkey

/-! ### The four ways -/

theorem dirs_saved (ops : List Op) (l : Location) : l ∈ ((disk.makeDirs (Xdg.root env ++ [profile]).inits).applyAll
    (Xdg.root env ++ [profile]) ops).dirs ↔ l ∈ disk.dirs ∨ l <+: Xdg.root env ++ [profile] := by
  rw [Disk.dirs_applyAll, Disk.mem_makeDirs_inits]

/-- Rust finds what TypeScript wrote there. -/
theorem dir_saved (hname : PlainName profile) (hroot : SameRoot env) (hwalk : Walkable env profile disk) (ops : List Op) :
    Rust.Storage.dir env profile ((disk.makeDirs (Xdg.root env ++ [profile]).inits).applyAll
      (Xdg.root env ++ [profile]) ops) = Op.applyAll (disk.folder (Xdg.root env ++ [profile])) ops := by
  unfold Rust.Storage.dir
  rw [(find_eq_some hname hroot (dirs_saved ops)).mpr hwalk]
  dsimp only
  rw [Disk.folder_applyAll _ (Disk.mem_makeDirs_self disk _), Disk.folder_makeDirs]

/-- Or it finds nothing. -/
theorem dir_saved_of_not (hname : PlainName profile) (hroot : SameRoot env) (hwalk : ¬ Walkable env profile disk)
    (ops : List Op) : Rust.Storage.dir env profile ((disk.makeDirs (Xdg.root env ++ [profile]).inits).applyAll
      (Xdg.root env ++ [profile]) ops) = fun _ => none := by
  have hfind := mt (find_eq_some hname hroot (dirs_saved ops)).mp hwalk
  unfold Rust.Storage.dir
  split
  · rename_i l hl
    refine absurd ?_ hfind
    rw [hl, walk_eq_some hl]
    show some (locate env.cwd (Rust.Storage.profileDir env profile)) = _
    rw [locate_profileDir hname, locate_dataDir_iff.mpr hroot]
  · rfl

theorem round_trips (hlabel : Rust.isLabel profile = true) (hroot : SameRoot env) (hwalk : Walkable env profile disk) :
    RoundTrips env other profile disk := by
  have hname := plainName_of_isLabel hlabel
  have hlocate : locate env.cwd (Rust.Storage.profileDir env profile) = Xdg.root env ++ [profile] := by
    rw [locate_profileDir hname, locate_dataDir_iff.mpr hroot]
  have hvalid : Rust.profileDir profile = .ok () := Rust.profileDir_eq_ok.mpr hlabel
  constructor
  · intro i t hi ht htrim
    unfold Rust.Storage.save Rust.Storage.ensureDir
    rw [hvalid, hlocate]
    refine congrArg Except.ok ?_
    unfold Xdg.load
    rw [Xdg.find_of_isLabel hlabel]
    dsimp only
    rw [Disk.folder_applyAll _ (hlocate ▸ Rust.Storage.mem_makeDirs env profile disk)]
    exact load_saveOps hi ht _
  · intro i t hi ht htrim
    obtain ⟨writes, hw⟩ := saveWrites_of_expiry ht
    rw [Xdg.save_eq hlabel hw]
    refine ⟨rfl, ?_⟩
    unfold Rust.Storage.load
    rw [dir_saved hname hroot hwalk]
    exact rust_load_of_holds hlabel ht htrim ((holds_save hi hw).identity i rfl)
  · intro p hp htrim
    unfold Rust.Storage.savePending Rust.Storage.ensureDir
    rw [hvalid, hlocate]
    refine congrArg Except.ok ?_
    unfold Xdg.loadPending
    rw [Xdg.find_of_isLabel hlabel]
    dsimp only
    rw [Disk.folder_applyAll _ (hlocate ▸ Rust.Storage.mem_makeDirs env profile disk)]
    exact loadPending_savePendingOps hp _
  · intro p hp htrim
    rw [Xdg.savePending_eq hlabel]
    refine ⟨rfl, ?_⟩
    unfold Rust.Storage.loadPending
    rw [dir_saved hname hroot hwalk]
    exact rust_loadPending_of_holds hlabel htrim (holdsPending_savePending hp _)

/-! ### And only then -/

/-- Where the data directories are apart, TypeScript loads what was there before. -/
theorem load_apart (hlabel : Rust.isLabel profile = true) (hroot : ¬ SameRoot env) (i : Rust.Identity) :
    (Rust.Storage.save env profile i disk).map (Xdg.load env profile other) =
      .ok (load other profile (disk.folder (Xdg.root env ++ [profile]))) := by
  have hne : Xdg.root env ++ [profile] ≠ locate env.cwd (Rust.Storage.profileDir env profile) := by
    rw [locate_profileDir (plainName_of_isLabel hlabel)]
    exact fun h => hroot (locate_dataDir_iff.mp (List.append_cancel_right h).symm)
  unfold Rust.Storage.save Rust.Storage.ensureDir
  rw [Rust.profileDir_eq_ok.mpr hlabel]
  refine congrArg Except.ok ?_
  unfold Xdg.load
  rw [Xdg.find_of_isLabel hlabel]
  dsimp only
  rw [Disk.folder_applyAll_of_ne _ hne, Disk.folder_makeDirs]

theorem storedIdentity_expiry : ∃ t, storedIdentity.certificateExpiry = some t :=
  Option.isSome_iff_exists.mp (by decide)

theorem sameRoot_of_roundTrips (hlabel : Rust.isLabel profile = true) (h : RoundTrips env other profile disk) :
    SameRoot env := by
  by_contra hroot
  obtain ⟨t, ht⟩ := storedIdentity_expiry
  -- two identities are saved, one is loaded
  have hfirst := h.fromRust storedIdentity t filled_storedIdentity ht (by decide)
  have hsecond := h.fromRust { storedIdentity with chain := "CHAIN" } t ⟨by decide, by decide, ⟨by decide, by decide⟩,
    by decide, by decide⟩ ht (by decide)
  rw [load_apart hlabel hroot] at hfirst hsecond
  have hchain := hfirst.symm.trans hsecond
  simp only [Except.ok.injEq, Option.some.injEq] at hchain
  have : "" = "CHAIN" := congrArg ShuvTunnelIdentity.chain hchain
  revert this
  decide

theorem walkable_of_roundTrips (hlabel : Rust.isLabel profile = true) (hroot : SameRoot env)
    (h : RoundTrips env other profile disk) : Walkable env profile disk := by
  by_contra hwalk
  obtain ⟨t, ht⟩ := storedIdentity_expiry
  obtain ⟨writes, hw⟩ := saveWrites_of_expiry ht
  obtain ⟨-, hload⟩ := h.toRust storedIdentity t filled_storedIdentity ht (by decide)
  rw [Xdg.save_eq hlabel hw, Rust.Storage.load, dir_saved_of_not (plainName_of_isLabel hlabel) hroot hwalk,
    Rust.load_eq_none.mpr ⟨hlabel, rfl⟩] at hload
  cases hload

/-- The clients share their layout exactly when an empty `XDG_DATA_HOME` does not
separate them and the directories exist that its `..` lead back from. -/
theorem round_trips_iff (env : Environment) (other : String → Date) (profile : String) (disk : Disk)
    (hvalid : Names.isValidProfile profile = true) :
    RoundTrips env other profile disk ↔ SameRoot env ∧ Walkable env profile disk := by
  have hlabel : Rust.isLabel profile = true := (isLabel_eq profile).trans hvalid
  constructor
  · intro h
    have hroot := sameRoot_of_roundTrips hlabel h
    exact ⟨hroot, walkable_of_roundTrips hlabel hroot h⟩
  · rintro ⟨hroot, hwalk⟩
    exact round_trips hlabel hroot hwalk

/-! ### An empty variable -/

/-- An environment whose `XDG_DATA_HOME` is empty. -/
def emptyVariable : Environment :=
  { homeEnvironment with
    xdgDataHome := some ""
    cwd := ["work"]
    cwd_spec := by decide
    xdgDataHome_spec := fun value h => by
      obtain rfl := Option.some.inj h
      decide }

/-- Rust keeps the identity in the home directory, TypeScript looks for it in the
working directory. -/
theorem not_round_trips : ¬ ∀ (env : Environment) (other : String → Date) (profile : String) (disk : Disk),
    Names.isValidProfile profile = true → RoundTrips env other profile disk := by
  intro h
  have hroot := sameRoot_of_roundTrips (by decide : Rust.isLabel "default" = true)
    (h emptyVariable (fun _ => none) "default" emptyDisk (by decide))
  revert hroot
  unfold SameRoot
  decide

theorem round_trips_home : RoundTrips homeEnvironment (fun _ => none) "default" emptyDisk := by
  refine (round_trips_iff homeEnvironment (fun _ => none) "default" emptyDisk (by decide)).mpr ⟨fun h => ?_,
    fun xs ys h => ?_⟩
  · cases h
  · have hup : ".." ∉ (Rust.Storage.profileDir homeEnvironment "default").segments := by decide
    exact absurd (h ▸ List.mem_append_right xs List.mem_cons_self) hup

end ShuvTunnel
