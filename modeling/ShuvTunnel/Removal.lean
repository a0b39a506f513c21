/-
# Removing a profile

`Client::remove` and `tunnel.remove` delete the tunnel on the server and then
what is stored for the profile. Both ask for the complete identity only: a
tunnel that is pending is never deleted, and Rust removes its token with the
directory while TypeScript leaves it there. Rust takes a 404 for a tunnel that
is gone, TypeScript for a failure.

Key definitions: `RemoveAnswer`, `Rust.Client.remove`, `ShuvTunnelClient.remove`,
`Removal.LeavesNoOrphan`, `PendingCovered`.
Key theorems: `remove_leaves_no_orphan_iff`.
-/
import ShuvTunnel.CrashCuts
import ShuvTunnel.Layout

namespace ShuvTunnel

open Paths

/-! ### The two methods -/

/-- What comes of `DELETE /api/tunnel/:id`. -/
inductive RemoveAnswer
  | removed
  | refused (status : ℕ) (tag message : String)
  | unreachable
  deriving DecidableEq

/-- The server has no such tunnel. -/
def RemoveAnswer.Missing : RemoveAnswer → Prop
  | refused status _ _ => status = 404
  | removed | unreachable => False

/-- The server has deleted the tunnel, or has none. -/
def RemoveAnswer.Gone (answer : RemoveAnswer) : Prop := answer = removed ∨ answer.Missing

/-- The server, by the token and the id of the request. -/
abbrev RemoveServer := String → String → RemoveAnswer

/-- One call of `remove`: what it returned, the tunnel it asked the server to
delete with the answer, and the storage then. -/
structure Removal (ε σ : Type) where
  outcome : Except ε Unit
  sent : Option (String × RemoveAnswer)
  storage : σ

/-- The errors of `Client::remove`. -/
inductive Rust.Client.Error
  | storage (error : Rust.Error)
  | api (status : ℕ) (tag message : String)
  | http
  deriving DecidableEq

namespace Rust.Client

/-- `checked`, of the answer. -/
def apiRemove : RemoveAnswer → Except Error Unit
  | .removed => .ok ()
  | .refused status tag message => .error (.api status tag message)
  | .unreachable => .error .http

variable (env : Environment) (profile : String) (disk : Disk)

/-- `self.storage.remove(profile)`. -/
def removeStored (sent : Option (String × RemoveAnswer)) : Removal Error Disk :=
  match Storage.remove env profile disk with
  | .ok disk' => ⟨.ok (), sent, disk'⟩
  | .error e => ⟨.error (.storage e), sent, disk⟩

/-- `remove`: the tunnel is deleted on the server first. -/
def remove (server : RemoveServer) : Removal Error Disk :=
  match Storage.load env profile disk with
  | .error e => ⟨.error (.storage e), none, disk⟩
  | .ok none => removeStored env profile disk none
  | .ok (some identity) =>
    let answer := server identity.token identity.id
    let sent := some (identity.id, answer)
    match apiRemove answer with
    | .ok () => removeStored env profile disk sent
    | .error (.api 404 _ _) => removeStored env profile disk sent
    | .error e => ⟨.error e, sent, disk⟩

end Rust.Client

/-- The storage failed, or its `cause` is the answer to the request. -/
inductive ShuvTunnelClient.Error
  | storage (error : LoadError)
  | client (message : String) (cause : RemoveAnswer)
  | defect
  deriving DecidableEq

/-- `tunnel.remove`, over a storage. -/
def ShuvTunnelClient.remove {σ : Type} (call : σ → StorageCall → StorageAnswer × σ) (profile : String)
    (server : RemoveServer) (storage : σ) : Removal ShuvTunnelClient.Error σ :=
  match call storage (.load profile) with
  | (.identity none, storage) => ⟨.ok (), none, storage⟩
  | (.identity (some identity), storage) =>
    let answer := server identity.token identity.id
    let sent := some (identity.id, answer)
    if answer = .removed then
      match call storage (.remove profile) with
      | (.void, storage) => ⟨.ok (), sent, storage⟩
      | (.failed e, storage) => ⟨.error (.storage e), sent, storage⟩
      | (_, storage) => ⟨.error .defect, sent, storage⟩
    else ⟨.error (.client "Failed to remove tunnel" answer), sent, storage⟩
  | (.failed e, storage) => ⟨.error (.storage e), none, storage⟩
  | (_, storage) => ⟨.error .defect, none, storage⟩

/-! ### What is promised -/

/-- When it succeeds, nothing is stored any more and the tunnels that were are
gone; and it succeeds when the server has no such tunnel. -/
structure Removal.LeavesNoOrphan {ε σ : Type} (r : Removal ε σ) (held : List String) (Empty : σ → Prop) : Prop where
  empty : r.outcome = .ok () → Empty r.storage
  gone : r.outcome = .ok () → ∀ id ∈ held, ∃ answer, r.sent = some (id, answer) ∧ answer.Gone
  missing : ∀ id answer, r.sent = some (id, answer) → answer.Missing → r.outcome = .ok ()

/-- The tunnel that is pending is the one of the complete identity, unless that
one is not removed anyway. The identity is given by its id and token. -/
def PendingCovered (server : RemoveServer) (identity : Option (String × String)) (pending : Option String) : Prop :=
  ∀ id ∈ pending, ∃ i ∈ identity, i.1 = id ∨ ¬ (server i.2 i.1).Gone

/-- The ids of both. -/
def heldIds (identity : Option (String × String)) (pending : Option String) : List String :=
  (identity.map Prod.fst).toList ++ pending.toList

/-! ### The ways it ends -/

section

variable {ε σ : Type} {Empty : σ → Prop} {server : RemoveServer} {pending : Option String} {s : σ}

theorem pendingCovered_none : PendingCovered server none pending ↔ pending = none := by
  unfold PendingCovered
  cases pending with
  | none => simp
  | some id => simp

theorem pendingCovered_some {i : String × String} (h : (server i.2 i.1).Gone) :
    PendingCovered server (some i) pending ↔ ∀ id ∈ pending, i.1 = id := by
  unfold PendingCovered
  simp [h]

/-- No complete identity is stored: nothing is asked. -/
theorem leavesNoOrphan_none (hempty : pending = none → Empty s) :
    (⟨.ok (), none, s⟩ : Removal ε σ).LeavesNoOrphan (heldIds none pending) Empty ↔
      PendingCovered server none pending := by
  rw [pendingCovered_none]
  constructor
  · intro h
    by_contra hpending
    obtain ⟨id, hid⟩ := Option.ne_none_iff_exists'.mp hpending
    have hheld : id ∈ heldIds none pending := by simp [heldIds, hid]
    obtain ⟨answer, hsent, -⟩ := h.gone rfl id hheld
    cases hsent
  · intro hpending
    refine ⟨fun _ => hempty hpending, fun _ id hid => ?_, fun id answer hsent => (by cases hsent)⟩
    rw [hpending] at hid
    cases hid

/-- Its tunnel is gone, and then the storage is emptied. -/
theorem leavesNoOrphan_gone {i : String × String} (hgone : (server i.2 i.1).Gone) (hempty : Empty s) :
    (⟨.ok (), some (i.1, server i.2 i.1), s⟩ : Removal ε σ).LeavesNoOrphan (heldIds (some i) pending) Empty ↔
      PendingCovered server (some i) pending := by
  rw [pendingCovered_some hgone]
  constructor
  · intro h id hid
    have hheld : id ∈ heldIds (some i) pending := by simp [heldIds, Option.mem_def.mp hid]
    obtain ⟨answer, hsent, -⟩ := h.gone rfl id hheld
    exact (Prod.mk.inj (Option.some.inj hsent)).1
  · intro h
    refine ⟨fun _ => hempty, fun _ id hid => ?_, fun _ _ _ _ => rfl⟩
    have heq : i.1 = id := by
      rcases List.mem_append.mp hid with hid | hid
      · simpa [eq_comm] using hid
      · exact h id (Option.mem_toList.mp hid)
    exact ⟨server i.2 i.1, by rw [heq], hgone⟩

/-- The call fails on the answer. -/
theorem leavesNoOrphan_error {i : String × String} {e : ε} :
    (⟨.error e, some (i.1, server i.2 i.1), s⟩ : Removal ε σ).LeavesNoOrphan (heldIds (some i) pending) Empty ↔
      ¬ (server i.2 i.1).Missing := by
  constructor
  · intro h hmissing
    cases h.missing i.1 (server i.2 i.1) rfl hmissing
  · intro h
    refine ⟨fun hok => (by cases hok), fun hok => (by cases hok), fun id answer hsent hmissing => ?_⟩
    rw [← (Prod.mk.inj (Option.some.inj hsent)).2] at hmissing
    exact absurd hmissing h

end

/-! ### Rust -/

namespace Rust.Client

variable {env : Environment} {profile : String} {disk : Disk} {server : RemoveServer}

/-- The complete identity and the pending one that are stored for the profile,
by the ids and the token that count here. -/
def Holds (env : Environment) (profile : String) (disk : Disk) (identity : Option (String × String))
    (pending : Option String) : Prop :=
  (∃ i, Storage.load env profile disk = .ok i ∧ identity = i.map fun i => (i.id, i.token)) ∧
    ∃ p, Storage.loadPending env profile disk = .ok p ∧ pending = p.map fun p => p.id

theorem holds_none_of_dir (hvalid : isLabel profile = true) (h : Storage.dir env profile disk = fun _ => none) :
    Holds env profile disk none none := by
  unfold Holds Storage.load Storage.loadPending
  rw [h]
  exact ⟨⟨none, load_eq_none.mpr ⟨hvalid, rfl⟩, rfl⟩, none, loadPending_eq_none.mpr ⟨hvalid, rfl⟩, rfl⟩

/-- With a valid name the directory is removed. -/
theorem removeStored_spec (disk : Disk) (hvalid : isLabel profile = true) (sent : Option (String × RemoveAnswer)) :
    ∃ disk', removeStored env profile disk sent = ⟨.ok (), sent, disk'⟩ ∧ Holds env profile disk' none none := by
  have hok : profileDir profile = .ok () := profileDir_eq_ok.mpr hvalid
  unfold removeStored Storage.remove
  cases hfind : Storage.find env profile disk with
  | none =>
    refine ⟨disk, by rw [hok]; rfl, holds_none_of_dir hvalid ?_⟩
    unfold Storage.dir
    rw [hfind]
  | some l =>
    refine ⟨disk.removeAll l, by rw [hok]; rfl, holds_none_of_dir hvalid ?_⟩
    unfold Storage.dir
    split
    · rename_i m hm
      -- both walks lead where the path leads
      have hsame : m = l := by
        rw [walk_eq_some hm, walk_eq_some hfind]
      rw [hsame]
      exact disk.folder_removeAll (List.prefix_refl l)
    · rfl

theorem isLabel_of_load {identity : Option Identity} (h : Storage.load env profile disk = .ok identity) :
    isLabel profile = true := by
  cases identity with
  | none => exact (load_eq_none.mp h).1
  | some i => exact (load_eq_some.mp h).1

theorem apiRemove_gone {answer : RemoveAnswer} (h : answer.Gone) :
    apiRemove answer = .ok () ∨ ∃ tag message, apiRemove answer = .error (.api 404 tag message) := by
  cases answer with
  | removed => exact .inl rfl
  | refused status tag message =>
    have hstatus : status = 404 := by simpa [RemoveAnswer.Gone, RemoveAnswer.Missing] using h
    exact .inr ⟨tag, message, by rw [hstatus]; rfl⟩
  | unreachable => simp [RemoveAnswer.Gone, RemoveAnswer.Missing] at h

theorem apiRemove_not_gone {answer : RemoveAnswer} (h : ¬ answer.Gone) :
    ∃ e, apiRemove answer = .error e ∧ ∀ tag message, e ≠ .api 404 tag message := by
  cases answer with
  | removed => simp [RemoveAnswer.Gone] at h
  | refused status tag message =>
    have hstatus : status ≠ 404 := by simpa [RemoveAnswer.Gone, RemoveAnswer.Missing] using h
    exact ⟨.api status tag message, rfl, fun tag' message' he => hstatus (Error.api.inj he).1⟩
  | unreachable => exact ⟨.http, rfl, fun tag message he => (by cases he)⟩

theorem leavesNoOrphan_iff {identity : Option (String × String)} {pending : Option String}
    (h : Holds env profile disk identity pending) :
    (remove env profile disk server).LeavesNoOrphan (heldIds identity pending) (Holds env profile · none none) ↔
      PendingCovered server identity pending := by
  obtain ⟨⟨i, hload, rfl⟩, -⟩ := h
  have hvalid := isLabel_of_load hload
  unfold remove
  rw [hload]
  cases i with
  | none =>
    obtain ⟨disk', hremoved, hempty⟩ := removeStored_spec disk hvalid none
    dsimp only
    rw [hremoved]
    exact leavesNoOrphan_none fun _ => hempty
  | some i =>
    dsimp only
    by_cases hgone : (server i.token i.id).Gone
    · obtain ⟨disk', hremoved, hempty⟩ := removeStored_spec disk hvalid (some (i.id, server i.token i.id))
      rcases apiRemove_gone hgone with hok | ⟨tag, message, hmissing⟩
      · rw [hok]
        dsimp only
        rw [hremoved]
        exact leavesNoOrphan_gone (i := (i.id, i.token)) hgone hempty
      · rw [hmissing, hremoved]
        exact leavesNoOrphan_gone (i := (i.id, i.token)) hgone hempty
    · obtain ⟨e, herror, hne⟩ := apiRemove_not_gone hgone
      rw [herror]
      have hstays : PendingCovered server (some (i.id, i.token)) pending := fun id _ => ⟨_, rfl, .inr hgone⟩
      have hpresent : ¬ (server i.token i.id).Missing := fun hmissing => hgone (.inr hmissing)
      split
      · rename_i hok
        cases hok
      · rename_i tag message he
        exact absurd (Except.error.inj he) (hne tag message)
      · exact iff_of_true ((leavesNoOrphan_error (i := (i.id, i.token))).mpr hpresent) hstays

end Rust.Client

/-! ### TypeScript -/

namespace ShuvTunnelClient

variable {σ : Type} {call : σ → StorageCall → StorageAnswer × σ} {profile : String} {s : σ} {server : RemoveServer}

/-- The storage holds these identities, the complete one given by its id and token
and the pending one by its id. -/
def Holds (call : σ → StorageCall → StorageAnswer × σ) (profile : String) (s : σ) (identity : Option (String × String))
    (pending : Option String) : Prop :=
  (∃ i, call s (.load profile) = (.identity i, s) ∧ identity = i.map fun i => (i.id, i.token)) ∧
    ∃ p, call s (.loadPending profile) = (.pending p, s) ∧ pending = p.map fun p => p.id

/-- Where a profile is loaded it is removed. -/
def Removes (call : σ → StorageCall → StorageAnswer × σ) : Prop :=
  ∀ s profile identity pending, Holds call profile s identity pending →
    ∃ s', call s (.remove profile) = (.void, s') ∧ Holds call profile s' none none

theorem leavesNoOrphan_iff (hcall : Removes call) {identity : Option (String × String)} {pending : Option String}
    (h : Holds call profile s identity pending) :
    (remove call profile server s).LeavesNoOrphan (heldIds identity pending) (Holds call profile · none none) ↔
      PendingCovered server identity pending ∧ ∀ i ∈ identity, ¬ (server i.2 i.1).Missing := by
  obtain ⟨s', hremove, hempty⟩ := hcall s profile identity pending h
  have hheld := h
  obtain ⟨⟨i, hload, rfl⟩, p, hpending, rfl⟩ := h
  unfold remove
  rw [hload]
  cases i with
  | none =>
    have hall : ∀ i ∈ (none : Option (String × String)), ¬ (server i.2 i.1).Missing := fun i hi => (by cases hi)
    rw [Option.map_none, and_iff_left hall]
    refine leavesNoOrphan_none fun hnone => ?_
    rw [hnone] at hheld
    exact hheld
  | some i =>
    have hall : (∀ j ∈ (some i).map fun i => (i.id, i.token), ¬ (server j.2 j.1).Missing) ↔
        ¬ (server i.token i.id).Missing := by simp
    dsimp only
    rw [hall]
    by_cases hremoved : server i.token i.id = .removed
    · have hpresent : ¬ (server i.token i.id).Missing := by
        rw [hremoved]
        exact id
      rw [if_pos hremoved, hremove, and_iff_left hpresent]
      exact leavesNoOrphan_gone (i := (i.id, i.token)) (.inl hremoved) hempty
    · rw [if_neg hremoved]
      refine (leavesNoOrphan_error (i := (i.id, i.token))).trans ⟨fun hpresent => ⟨fun id _ => ?_, hpresent⟩, And.right⟩
      exact ⟨(i.id, i.token), rfl, .inr fun hgone => hgone.elim hremoved hpresent⟩

theorem xdg_removes (env : Environment) (other : String → Date) : Removes (Xdg.call env other) := by
  rintro disk profile identity pending ⟨⟨i, hload, -⟩, -⟩
  cases hfind : Xdg.find env profile with
  | none =>
    -- what is not found is not loaded either
    simp only [Xdg.call, Xdg.load, hfind, StorageAnswer.of] at hload
    cases hload
  | some l =>
    have hfolder : (disk.removeAll l).folder l = fun _ => none := disk.folder_removeAll (List.prefix_refl l)
    have hnone : ∀ file, truthy (readText (fun _ => none) file) = none := fun _ => rfl
    refine ⟨disk.removeAll l, ?_, ⟨none, ?_, rfl⟩, none, ?_, rfl⟩
    · simp only [Xdg.call, Xdg.remove, hfind]
      rfl
    · simp only [Xdg.call, Xdg.load, hfind, hfolder]
      rw [load_eq_none.mpr (hnone .tunnelJson)]
      rfl
    · simp only [Xdg.call, Xdg.loadPending, hfind, hfolder]
      rw [loadPending_eq_none.mpr (hnone .pendingJson)]
      rfl

theorem memory_removes : Removes Memory.call := by
  intro m profile identity pending _
  refine ⟨m.remove profile, rfl, ⟨none, ?_, rfl⟩, none, ?_, rfl⟩
  · rw [Memory.call, Memory.remove, OrderedMap.lookup_delete, if_pos rfl]
  · rw [Memory.call, Memory.remove, OrderedMap.lookup_delete, if_pos rfl]

end ShuvTunnelClient

/-! ### Both clients -/

/-- Rust leaves no orphan exactly when a tunnel that is pending is the one that
is deleted; TypeScript when the server also has not lost that one. -/
theorem remove_leaves_no_orphan_iff (server : RemoveServer) (profile : String) (identity : Option (String × String))
    (pending : Option String) :
    (∀ env disk, Rust.Client.Holds env profile disk identity pending →
      ((Rust.Client.remove env profile disk server).LeavesNoOrphan (heldIds identity pending)
          (Rust.Client.Holds env profile · none none) ↔
        PendingCovered server identity pending)) ∧
    (∀ env other disk, ShuvTunnelClient.Holds (Xdg.call env other) profile disk identity pending →
      ((ShuvTunnelClient.remove (Xdg.call env other) profile server disk).LeavesNoOrphan (heldIds identity pending)
          (ShuvTunnelClient.Holds (Xdg.call env other) profile · none none) ↔
        PendingCovered server identity pending ∧ ∀ i ∈ identity, ¬ (server i.2 i.1).Missing)) ∧
    ∀ m, ShuvTunnelClient.Holds Memory.call profile m identity pending →
      ((ShuvTunnelClient.remove Memory.call profile server m).LeavesNoOrphan (heldIds identity pending)
          (ShuvTunnelClient.Holds Memory.call profile · none none) ↔
        PendingCovered server identity pending ∧ ∀ i ∈ identity, ¬ (server i.2 i.1).Missing) :=
  ⟨fun _ _ h => Rust.Client.leavesNoOrphan_iff h,
    fun env other _ h => ShuvTunnelClient.leavesNoOrphan_iff (ShuvTunnelClient.xdg_removes env other) h,
    fun _ h => ShuvTunnelClient.leavesNoOrphan_iff ShuvTunnelClient.memory_removes h⟩

/-! ### A pending tunnel -/

/-- A tunnel that was created and whose certificate never came. -/
def waitingTunnel : PendingIdentity := ⟨"demo", "demo.shuv.zip", "token", "KEY", "CSR"⟩

/-- Where the profile is. -/
def waitingDir : Location := locate homeEnvironment.cwd (Rust.Storage.profileDir homeEnvironment "default")

/-- The disk after `save_pending`. -/
def waitingDisk : Disk := (emptyDisk.makeDirs waitingDir.inits).applyAll waitingDir (Rust.savePendingOps waitingTunnel)

theorem dir_default (disk : Disk) : Rust.Storage.dir homeEnvironment "default" disk = disk.folder waitingDir := by
  have hfind : Rust.Storage.find homeEnvironment "default" disk = some waitingDir := walk_of_no_up (by decide)
  unfold Rust.Storage.dir
  rw [hfind]

theorem folder_waitingDisk :
    waitingDisk.folder waitingDir = Op.applyAll (fun _ => none) (Rust.savePendingOps waitingTunnel) :=
  Disk.folder_applyAll _ (Disk.mem_makeDirs_self emptyDisk waitingDir) _

theorem holds_waitingDisk : Rust.Client.Holds homeEnvironment "default" waitingDisk none (some "demo") := by
  have hlabel : Rust.isLabel "default" = true := by decide
  have hnodup := Rust.nodup_savePendingOps waitingTunnel
  unfold Rust.Client.Holds Rust.Storage.load Rust.Storage.loadPending
  rw [dir_default, folder_waitingDisk]
  refine ⟨⟨none, Rust.load_eq_none.mpr ⟨hlabel, Op.applyAll_of_not_mem (by decide)⟩, rfl⟩, some waitingTunnel, ?_, rfl⟩
  exact Rust.loadPending_of_files hlabel
    (Rust.metadata_of_toJson (by decide) (by decide) (by decide) (Op.applyAll_replace hnodup (j := 2) rfl))
    (Op.applyAll_replace hnodup (j := 0) rfl) (by decide) (Op.applyAll_replace hnodup (j := 1) rfl)

/-- The maps after `savePending`. -/
def waitingMemory : Memory := Memory.empty.savePending "default" waitingTunnel

theorem holds_waitingMemory : ShuvTunnelClient.Holds Memory.call "default" waitingMemory none (some "demo") :=
  ⟨⟨none, rfl, rfl⟩, some waitingTunnel, rfl, rfl⟩

theorem not_pendingCovered (server : RemoveServer) : ¬ PendingCovered server none (some "demo") := by
  rw [pendingCovered_none]
  exact Option.some_ne_none _

/-- Both clients remove the profile of a tunnel that is pending, and it stays on
the server. -/
theorem not_remove_leaves_no_orphan :
    (¬ ∀ server profile identity pending env disk, Rust.Client.Holds env profile disk identity pending →
      (Rust.Client.remove env profile disk server).LeavesNoOrphan (heldIds identity pending)
        (Rust.Client.Holds env profile · none none)) ∧
    ¬ ∀ server profile identity pending m, ShuvTunnelClient.Holds Memory.call profile m identity pending →
      (ShuvTunnelClient.remove Memory.call profile server m).LeavesNoOrphan (heldIds identity pending)
        (ShuvTunnelClient.Holds Memory.call profile · none none) := by
  constructor
  · intro h
    have hrust := h (fun _ _ => .removed) "default" none (some "demo") homeEnvironment waitingDisk holds_waitingDisk
    exact not_pendingCovered _ ((Rust.Client.leavesNoOrphan_iff holds_waitingDisk).mp hrust)
  · intro h
    have hmemory := h (fun _ _ => .removed) "default" none (some "demo") waitingMemory holds_waitingMemory
    exact not_pendingCovered _
      ((ShuvTunnelClient.leavesNoOrphan_iff ShuvTunnelClient.memory_removes holds_waitingMemory).mp hmemory).1

/-- The disk when the certificate came and `save` died before it removed
`pending.json`. -/
def issuedDisk : Disk := waitingDisk.applyAll waitingDir ((Rust.saveOps Rust.issuedIdentity).take 5)

theorem holds_issuedDisk :
    Rust.Client.Holds homeEnvironment "default" issuedDisk (some ("demo", "token")) (some "demo") := by
  have hlabel : Rust.isLabel "default" = true := by decide
  have hnodup := Rust.nodup_savePendingOps waitingTunnel
  have hsave := Rust.nodup_saveOps Rust.issuedIdentity
  have hmem : waitingDir ∈ waitingDisk.dirs := by
    rw [waitingDisk, Disk.dirs_applyAll]
    exact Disk.mem_makeDirs_self emptyDisk waitingDir
  unfold Rust.Client.Holds Rust.Storage.load Rust.Storage.loadPending
  rw [dir_default, issuedDisk, Disk.folder_applyAll _ hmem, folder_waitingDisk]
  refine ⟨⟨some Rust.issuedIdentity, Rust.load_save hlabel (by decide) _ (by decide), rfl⟩, some waitingTunnel, ?_, rfl⟩
  refine Rust.loadPending_eq_some.mpr ⟨hlabel, ?_, ?_, ?_⟩
  · -- `save` has not come to this file
    refine Rust.metadata_of_toJson (by decide) (by decide) (by decide) ?_
    rw [Op.applyAll_of_not_mem (by decide)]
    exact Op.applyAll_replace hnodup (j := 2) rfl
  · rw [Rust.text_take hsave (j := 0) rfl]
    decide
  · rw [Rust.text_take hsave (j := 1) rfl]
    rfl

/-- The maps with both identities of the tunnel. -/
def issuedMemory : Memory :=
  (Memory.empty.save "default" ⟨"demo", "demo.shuv.zip", "token", "KEY", "CERT", "CHAIN", none⟩).savePending "default"
    waitingTunnel

/-- The tunnel that is pending is the one with the certificate, and is deleted
as that one. -/
theorem remove_leaves_no_orphan_issued :
    (Rust.Client.remove homeEnvironment "default" issuedDisk fun _ _ => .removed).LeavesNoOrphan
        (heldIds (some ("demo", "token")) (some "demo")) (Rust.Client.Holds homeEnvironment "default" · none none) ∧
      (ShuvTunnelClient.remove Memory.call "default" (fun _ _ => .removed) issuedMemory).LeavesNoOrphan
        (heldIds (some ("demo", "token")) (some "demo")) (ShuvTunnelClient.Holds Memory.call "default" · none none) := by
  obtain ⟨hrust, -, hmemory⟩ :=
    remove_leaves_no_orphan_iff (fun _ _ => .removed) "default" (some ("demo", "token")) (some "demo")
  have hcovered : PendingCovered (fun _ _ => .removed) (some ("demo", "token")) (some "demo") :=
    (pendingCovered_some (.inl rfl)).mpr fun id h => Option.some.inj h
  have hholds : ShuvTunnelClient.Holds Memory.call "default" issuedMemory (some ("demo", "token")) (some "demo") :=
    ⟨⟨_, rfl, rfl⟩, some waitingTunnel, rfl, rfl⟩
  exact ⟨(hrust homeEnvironment issuedDisk holds_issuedDisk).mpr hcovered,
    (hmemory issuedMemory hholds).mpr ⟨hcovered, fun i _ h => h⟩⟩

end ShuvTunnel
