/-
# The identities on disk

`storage.rs` and `storage.ts` keep the identity of a profile in the same six
files of one directory (`docs/protocol.md`, "Local storage"): `tunnel.json` or
`pending.json` with the metadata, and the token, the key, the certificate and
its chain in files of their own, of which a pending identity shares the first
two.

Rust replaces one file after the other, each by a rename; TypeScript writes them
all at once. What the disk does is here each file's content; a read or a write
that fails for other reasons is left out.

A JavaScript string is a text here, without lone surrogates. What
`JSON.parse` gives is asserted to be an object of strings; the outcome
`mistyped` stands for all else.

Key definitions: `File`, `Dir`, `Op`, `Rust.load`, `Rust.saveOps`, `load`,
`saveWrites`.
Key theorems: `Op.applyAll_take`, `Op.applyAll_writes`, `Rust.load_eq_some`,
`Rust.loadPending_eq_some`, `load_eq_some`, `loadPending_eq_some`.
-/
import ShuvTunnel.Clients
import ShuvTunnel.Files

namespace ShuvTunnel

/-! ### The directory of a profile -/

/-- The files of a profile. -/
inductive File
  | tunnelJson
  | pendingJson
  | token
  | privateKey
  | certificate
  | chain
  deriving DecidableEq

/-- The name of a file in the directory of its profile. -/
def File.name : File → String
  | tunnelJson => "tunnel.json"
  | pendingJson => "pending.json"
  | token => "token"
  | privateKey => "private-key.pem"
  | certificate => "certificate.pem"
  | chain => "chain.pem"

/-- What the files hold that are there. -/
abbrev Dir := File → Option Bytes

/-- A file is given a content, or removed if it is there. -/
inductive Op
  | replace (file : File) (content : Bytes)
  | remove (file : File)

namespace Op

/-- The file an operation is about. -/
def file : Op → File
  | replace file _ | remove file => file

/-- What the file holds after it. -/
def content : Op → Option Bytes
  | replace _ content => some content
  | remove _ => none

/-- One operation on a directory. -/
def apply (dir : Dir) (op : Op) : Dir := Function.update dir op.file op.content

/-- Operations, one after the other. -/
def applyAll (dir : Dir) (ops : List Op) : Dir := ops.foldl apply dir

@[simp] theorem applyAll_cons (dir : Dir) (op : Op) (ops : List Op) :
    applyAll dir (op :: ops) = applyAll (op.apply dir) ops := rfl

/-- A file that none of the operations is about. -/
theorem applyAll_of_not_mem {dir : Dir} {ops : List Op} {file : File} (h : ∀ op ∈ ops, op.file ≠ file) :
    applyAll dir ops file = dir file := by
  induction ops generalizing dir with
  | nil => rfl
  | cons op ops ih =>
    rw [applyAll_cons, ih fun op hop => h op (List.mem_cons_of_mem _ hop)]
    exact Function.update_of_ne (Ne.symm (h op List.mem_cons_self)) _ _

/-- A file that one of the first operations is about. -/
theorem applyAll_take {dir : Dir} {ops : List Op} (hnodup : (ops.map file).Nodup) {j : ℕ} {op : Op}
    (hj : ops[j]? = some op) (k : ℕ) :
    applyAll dir (ops.take k) op.file = if j < k then op.content else dir op.file := by
  induction ops generalizing dir j k with
  | nil => simp at hj
  | cons first ops ih =>
    rw [List.map_cons, List.nodup_cons] at hnodup
    cases k with
    | zero => rfl
    | succ k =>
      rw [List.take_succ_cons, applyAll_cons]
      cases j with
      | zero =>
        obtain rfl := Option.some.inj hj
        rw [if_pos (Nat.succ_pos k), applyAll_of_not_mem fun op hop he => hnodup.1 ?_]
        · exact Function.update_self _ _ _
        · rw [← he]
          exact List.mem_map_of_mem (List.mem_of_mem_take hop)
      | succ j =>
        have hne : op.file ≠ first.file := fun he => hnodup.1 (by
          rw [← he]
          exact List.mem_map_of_mem (List.mem_of_getElem? hj))
        rw [ih hnodup.2 hj]
        simp only [Nat.add_lt_add_iff_right]
        split
        · rfl
        · exact Function.update_of_ne hne _ _

/-- What the operations give a file, when one is about it. -/
theorem applyAll_replace {dir : Dir} {ops : List Op} (hnodup : (ops.map file).Nodup) {j : ℕ} {f : File} {content : Bytes}
    (hj : ops[j]? = some (.replace f content)) : applyAll dir ops f = some content := by
  have htake : applyAll dir (ops.take ops.length) f = if j < ops.length then some content else dir f :=
    applyAll_take hnodup hj ops.length
  rwa [List.take_length, if_pos (List.getElem?_eq_some_iff.mp hj).1] at htake

end Op

/-- Profile names are labels. -/
def Names.isValidProfile (value : String) : Bool := labelRegex value.toList

/-! ### Rust -/

namespace Rust

/-- `Identity` of the Rust client, whose expiry is the text that was answered. -/
structure Identity where
  id : String
  hostname : String
  token : String
  privateKey : String
  certificate : String
  chain : String
  certificateExpiry : String
  deriving DecidableEq

/-- The errors of the storage that differ for a caller. -/
inductive Error
  | Invalid (message : String)
  | Corrupt (file : File)
  | Io (file : File)
  deriving DecidableEq

/-- `profile_dir` refuses a name that is no label. -/
def profileDir (profile : String) : Except Error Unit :=
  if isLabel profile then .ok ()
  else .error (.Invalid ("invalid profile name '" ++ profile ++ "': use lowercase letters, numbers, and hyphens"))

/-- `read_optional`: a file that is not there is none, one that is not UTF-8 an
error. -/
def readOptional (dir : Dir) (file : File) : Except Error (Option String) :=
  match dir file with
  | none => .ok none
  | some data =>
    match readToString data with
    | some content => .ok (some content)
    | none => .error (.Io file)

/-- `read_json::<T>`, for a structure of three strings. -/
def readJson (dir : Dir) (file : File) (a b c : String) : Except Error (Option (String × String × String)) := do
  match ← readOptional dir file with
  | none => return none
  | some content =>
    match (Json.parse content.toList).bind (readStruct a b c) with
    | some value => return some value
    | none => throw (.Corrupt file)

/-- `read_optional(..)?.ok_or_else(incomplete)?`. -/
def readRequired (incomplete : Error) (dir : Dir) (file : File) : Except Error String := do
  match ← readOptional dir file with
  | some content => return content
  | none => throw incomplete

/-- `tunnel.json`, with its fields. -/
def readTunnelFile (dir : Dir) := readJson dir .tunnelJson "id" "hostname" "certificateExpiry"

/-- `pending.json`, with its fields. -/
def readPendingFile (dir : Dir) := readJson dir .pendingJson "id" "hostname" "csr"

/-- `load`: with the metadata, all other files have to be there. -/
def load (profile : String) (dir : Dir) : Except Error (Option Identity) := do
  profileDir profile
  match ← readTunnelFile dir with
  | none => return none
  | some (id, hostname, certificateExpiry) =>
    let incomplete := Error.Invalid ("incomplete tunnel identity for '" ++ profile ++ "'")
    let token ← readRequired incomplete dir .token
    let privateKey ← readRequired incomplete dir .privateKey
    let certificate ← readRequired incomplete dir .certificate
    let chain ← readRequired incomplete dir .chain
    return some { id, hostname, token := trim token, privateKey, certificate, chain, certificateExpiry }

/-- `load_pending`: with the metadata, the token and the key have to be there. -/
def loadPending (profile : String) (dir : Dir) : Except Error (Option PendingIdentity) := do
  profileDir profile
  match ← readPendingFile dir with
  | none => return none
  | some (id, hostname, csr) =>
    let incomplete := Error.Invalid ("incomplete pending tunnel identity for '" ++ profile ++ "'")
    let token ← readRequired incomplete dir .token
    let privateKey ← readRequired incomplete dir .privateKey
    return some { id, hostname, token := trim token, privateKey, csr }

/-- The calls of `write_secret` in `save_pending`. -/
def savePendingOps (pending : PendingIdentity) : List Op :=
  [.replace .token (utf8 (line pending.token)),
   .replace .privateKey (utf8 pending.privateKey),
   .replace .pendingJson (utf8 (toJson [("id", pending.id), ("hostname", pending.hostname), ("csr", pending.csr)]))]

/-- The calls of `write_secret` in `save`, and `remove_file`. -/
def saveOps (identity : Identity) : List Op :=
  [.replace .token (utf8 (line identity.token)),
   .replace .privateKey (utf8 identity.privateKey),
   .replace .certificate (utf8 identity.certificate),
   .replace .chain (utf8 identity.chain),
   .replace .tunnelJson (utf8 (toJson
     [("id", identity.id), ("hostname", identity.hostname), ("certificateExpiry", identity.certificateExpiry)])),
   .remove .pendingJson]

end Rust

/-! ### TypeScript -/

/-- A `Date`: an instant, or none when it is invalid. -/
abbrev Date := Option Iso.Instant

/-- `new Date(text)`: the texts of `toISOString` are read by the standard, what
else an engine reads is its own. -/
def Date.parse (other : String → Date) (text : String) : Date :=
  match Iso.parse text with
  | some t => some t
  | none => other text

/-- `ShuvTunnelIdentity`, whose expiry is a date. -/
structure ShuvTunnelIdentity where
  id : String
  hostname : String
  token : String
  privateKey : String
  certificate : String
  chain : String
  certificateExpiry : Date
  deriving DecidableEq

/-- Why a read does not give its value: `JSON.parse` throws, and `mistyped` is
what is read when it is not of the type that is asserted. -/
inductive LoadError
  | storage (message : String)
  | thrown
  | mistyped
  deriving DecidableEq

/-- `readFile(file, "utf8")`. -/
def readText (dir : Dir) (file : File) : Option String := (dir file).map readFile

/-- `JSON.parse(metadata)`, taken for an object of three strings. -/
def parseMetadata (metadata : String) (a b c : String) : Except LoadError (String × String × String) :=
  match Json.parse metadata.toList with
  | none => .error .thrown
  | some value =>
    match readFields a b c value with
    | some fields => .ok fields
    | none => .error .mistyped

/-- `load`: without the metadata there is none, and an empty file counts as
missing, the chain apart. -/
def load (other : String → Date) (profile : String) (dir : Dir) : Except LoadError (Option ShuvTunnelIdentity) :=
  match truthy (readText dir .tunnelJson) with
  | none => .ok none
  | some metadata =>
    match truthy (readText dir .token), truthy (readText dir .privateKey), truthy (readText dir .certificate),
      readText dir .chain with
    | some token, some privateKey, some certificate, some chain =>
      match parseMetadata metadata "id" "hostname" "certificateExpiry" with
      | .error e => .error e
      | .ok (id, hostname, certificateExpiry) =>
        .ok (some { id, hostname, token := trim token, privateKey, certificate, chain,
                    certificateExpiry := Date.parse other certificateExpiry })
    | _, _, _, _ => .error (.storage ("Incomplete tunnel identity for " ++ profile))

/-- `loadPending`, with the same rule for an empty file. -/
def loadPending (profile : String) (dir : Dir) : Except LoadError (Option PendingIdentity) :=
  match truthy (readText dir .pendingJson) with
  | none => .ok none
  | some metadata =>
    match truthy (readText dir .token), truthy (readText dir .privateKey) with
    | some token, some privateKey =>
      match parseMetadata metadata "id" "hostname" "csr" with
      | .error e => .error e
      | .ok (id, hostname, csr) => .ok (some { id, hostname, token := trim token, privateKey, csr })
    | _, _ => .error (.storage ("Incomplete pending tunnel identity for " ++ profile))

/-- The calls of `writeFile` in `savePending`. -/
def savePendingWrites (tunnel : PendingIdentity) : List (File × Bytes) :=
  [(.pendingJson, utf8 (stringify [("id", tunnel.id), ("hostname", tunnel.hostname), ("csr", tunnel.csr)])),
   (.token, utf8 (line tunnel.token)),
   (.privateKey, utf8 tunnel.privateKey)]

/-- The calls of `writeFile` in `save`. `toISOString` throws for an invalid date,
before anything is written. -/
def saveWrites (tunnel : ShuvTunnelIdentity) : Option (List (File × Bytes)) :=
  tunnel.certificateExpiry.map fun expiry =>
    [(.tunnelJson, utf8 (stringify
       [("id", tunnel.id), ("hostname", tunnel.hostname), ("certificateExpiry", Iso.format expiry)])),
     (.token, utf8 (line tunnel.token)),
     (.privateKey, utf8 tunnel.privateKey),
     (.certificate, utf8 tunnel.certificate),
     (.chain, utf8 tunnel.chain)]

/-- `writeFile`, as an operation. -/
def Op.ofWrite (write : File × Bytes) : Op := .replace write.1 write.2

/-- No file is written twice. -/
theorem nodup_savePendingWrites (p : PendingIdentity) : ((savePendingWrites p).map Prod.fst).Nodup := by
  show [File.pendingJson, .token, .privateKey].Nodup
  decide

theorem nodup_saveWrites {i : ShuvTunnelIdentity} {writes : List (File × Bytes)} (h : saveWrites i = some writes) :
    (writes.map Prod.fst).Nodup := by
  obtain ⟨t, -, rfl⟩ := Option.map_eq_some_iff.mp h
  show [File.tunnelJson, .token, .privateKey, .certificate, .chain].Nodup
  decide

/-- What is written once is what the file holds. -/
theorem Op.applyAll_writes {dir : Dir} {writes : List (File × Bytes)} (hnodup : (writes.map Prod.fst).Nodup) (file : File) :
    applyAll dir (writes.map ofWrite) file = (writes.lookup file).or (dir file) := by
  induction writes generalizing dir with
  | nil => rfl
  | cons write writes ih =>
    rw [List.map_cons, List.nodup_cons] at hnodup
    rw [List.map_cons, applyAll_cons, ih hnodup.2, List.lookup_cons]
    by_cases h : file = write.1
    · have hnone : writes.lookup file = none := by
        rw [List.lookup_eq_none_iff]
        intro w hw
        rw [h, bne_iff_ne]
        exact fun he => hnodup.1 (he ▸ List.mem_map_of_mem hw)
      rw [hnone, h, beq_self_eq_true]
      exact Function.update_self _ _ _
    · rw [beq_false_of_ne h]
      congr 1
      exact Function.update_of_ne h _ _

theorem Op.applyAll_append (dir : Dir) (ops ops' : List Op) :
    applyAll dir (ops ++ ops') = applyAll (applyAll dir ops) ops' :=
  List.foldl_append

/-- The same when another file is removed then. -/
theorem Op.applyAll_writes_remove {dir : Dir} {writes : List (File × Bytes)} (hnodup : (writes.map Prod.fst).Nodup)
    {file removed : File} (h : file ≠ removed) :
    applyAll dir (writes.map ofWrite ++ [.remove removed]) file = (writes.lookup file).or (dir file) := by
  rw [applyAll_append, ← applyAll_writes hnodup]
  exact Function.update_of_ne h _ _

theorem Op.applyAll_remove (dir : Dir) (ops : List Op) (removed : File) :
    applyAll dir (ops ++ [.remove removed]) removed = none := by
  rw [applyAll_append]
  show Function.update (applyAll dir ops) removed none removed = none
  exact Function.update_self _ _ _

/-! ### What the Rust reads give -/

theorem bind_eq_ok {ε α β : Type} {x : Except ε α} {f : α → Except ε β} {b : β} :
    x >>= f = .ok b ↔ ∃ a, x = .ok a ∧ f a = .ok b := by
  cases x with
  | error e => exact ⟨fun h => (nomatch h), fun ⟨_, h, _⟩ => (nomatch h)⟩
  | ok a => exact ⟨fun h => ⟨a, rfl, h⟩, fun ⟨_, ha, h⟩ => Except.ok.inj ha ▸ h⟩

namespace Rust

variable {profile : String} {dir : Dir} {file : File}

/-- The text of a file. -/
def text (dir : Dir) (file : File) : Option String := (dir file).bind readToString

/-- The three strings of a metadata file. -/
def metadata (dir : Dir) (file : File) (a b c : String) : Option (String × String × String) :=
  (text dir file).bind fun content => (Json.parse content.toList).bind (readStruct a b c)

theorem profileDir_eq_ok : profileDir profile = .ok () ↔ isLabel profile = true := by
  unfold profileDir
  by_cases h : isLabel profile = true
  · simp [h]
  · simp [h]

theorem readOptional_eq_some {s : String} : readOptional dir file = .ok (some s) ↔ text dir file = some s := by
  unfold readOptional text
  cases dir file with
  | none => simp
  | some data =>
    rw [Option.bind_some]
    dsimp only
    cases readToString data with
    | none => simp
    | some content => simp

theorem readOptional_eq_none : readOptional dir file = .ok none ↔ dir file = none := by
  unfold readOptional
  cases dir file with
  | none => simp
  | some data =>
    dsimp only
    cases readToString data with
    | none => simp
    | some content => simp

theorem readRequired_eq_ok {incomplete : Error} {s : String} :
    readRequired incomplete dir file = .ok s ↔ text dir file = some s := by
  unfold readRequired
  rw [bind_eq_ok, ← readOptional_eq_some]
  constructor
  · rintro ⟨x, hx, h⟩
    cases x with
    | none => cases h
    | some content => rw [hx, Except.ok.inj h]
  · exact fun h => ⟨some s, h, rfl⟩

theorem readJson_eq_some {a b c : String} {x : String × String × String} :
    readJson dir file a b c = .ok (some x) ↔ metadata dir file a b c = some x := by
  unfold readJson metadata
  rw [bind_eq_ok, Option.bind_eq_some_iff]
  constructor
  · rintro ⟨y, hy, h⟩
    cases y with
    | none => cases h
    | some content =>
      refine ⟨content, readOptional_eq_some.mp hy, ?_⟩
      dsimp only at h
      split at h
      · rename_i value hvalue
        obtain rfl := Option.some.inj (Except.ok.inj h)
        exact hvalue
      · cases h
  · rintro ⟨content, hcontent, h⟩
    refine ⟨some content, readOptional_eq_some.mpr hcontent, ?_⟩
    dsimp only
    rw [h]
    rfl

theorem readJson_eq_none {a b c : String} : readJson dir file a b c = .ok none ↔ dir file = none := by
  unfold readJson
  rw [bind_eq_ok, ← readOptional_eq_none]
  constructor
  · rintro ⟨y, hy, h⟩
    cases y with
    | none => exact hy
    | some content =>
      dsimp only at h
      split at h
      · cases h
      · cases h
  · exact fun h => ⟨none, h, rfl⟩

/-- `load` gives an identity that is written in the files. -/
theorem load_eq_some {i : Identity} : load profile dir = .ok (some i) ↔ isLabel profile = true ∧
    metadata dir .tunnelJson "id" "hostname" "certificateExpiry" = some (i.id, i.hostname, i.certificateExpiry) ∧
    (text dir .token).map trim = some i.token ∧ text dir .privateKey = some i.privateKey ∧
    text dir .certificate = some i.certificate ∧ text dir .chain = some i.chain := by
  unfold load
  rw [bind_eq_ok]
  constructor
  · rintro ⟨⟨⟩, hvalid, h⟩
    obtain ⟨m, hm, h⟩ := bind_eq_ok.mp h
    cases m with
    | none => cases h
    | some x =>
      obtain ⟨id, hostname, certificateExpiry⟩ := x
      obtain ⟨token, htoken, h⟩ := bind_eq_ok.mp h
      obtain ⟨privateKey, hkey, h⟩ := bind_eq_ok.mp h
      obtain ⟨certificate, hcertificate, h⟩ := bind_eq_ok.mp h
      obtain ⟨chain, hchain, h⟩ := bind_eq_ok.mp h
      obtain rfl := Option.some.inj (Except.ok.inj h)
      exact ⟨profileDir_eq_ok.mp hvalid, readJson_eq_some.mp hm, by rw [readRequired_eq_ok.mp htoken]; rfl,
        readRequired_eq_ok.mp hkey, readRequired_eq_ok.mp hcertificate, readRequired_eq_ok.mp hchain⟩
  · rintro ⟨hvalid, hm, htoken, hkey, hcertificate, hchain⟩
    obtain ⟨token, htoken, htrim⟩ := Option.map_eq_some_iff.mp htoken
    refine ⟨(), profileDir_eq_ok.mpr hvalid, bind_eq_ok.mpr ⟨_, readJson_eq_some.mpr hm, ?_⟩⟩
    refine bind_eq_ok.mpr ⟨token, readRequired_eq_ok.mpr htoken, ?_⟩
    refine bind_eq_ok.mpr ⟨_, readRequired_eq_ok.mpr hkey, ?_⟩
    refine bind_eq_ok.mpr ⟨_, readRequired_eq_ok.mpr hcertificate, ?_⟩
    refine bind_eq_ok.mpr ⟨_, readRequired_eq_ok.mpr hchain, ?_⟩
    rw [htrim]
    rfl

theorem load_eq_none : load profile dir = .ok none ↔ isLabel profile = true ∧ dir .tunnelJson = none := by
  unfold load
  rw [bind_eq_ok, ← profileDir_eq_ok, ← readJson_eq_none]
  constructor
  · rintro ⟨⟨⟩, hvalid, h⟩
    obtain ⟨m, hm, h⟩ := bind_eq_ok.mp h
    cases m with
    | none => exact ⟨hvalid, hm⟩
    | some x =>
      obtain ⟨_, _, h⟩ := bind_eq_ok.mp h
      obtain ⟨_, _, h⟩ := bind_eq_ok.mp h
      obtain ⟨_, _, h⟩ := bind_eq_ok.mp h
      obtain ⟨_, _, h⟩ := bind_eq_ok.mp h
      cases h
  · rintro ⟨hvalid, hm⟩
    exact ⟨(), hvalid, bind_eq_ok.mpr ⟨none, hm, rfl⟩⟩

theorem loadPending_eq_some {p : PendingIdentity} : loadPending profile dir = .ok (some p) ↔
    isLabel profile = true ∧
    metadata dir .pendingJson "id" "hostname" "csr" = some (p.id, p.hostname, p.csr) ∧
    (text dir .token).map trim = some p.token ∧ text dir .privateKey = some p.privateKey := by
  unfold loadPending
  rw [bind_eq_ok]
  constructor
  · rintro ⟨⟨⟩, hvalid, h⟩
    obtain ⟨m, hm, h⟩ := bind_eq_ok.mp h
    cases m with
    | none => cases h
    | some x =>
      obtain ⟨id, hostname, csr⟩ := x
      obtain ⟨token, htoken, h⟩ := bind_eq_ok.mp h
      obtain ⟨privateKey, hkey, h⟩ := bind_eq_ok.mp h
      obtain rfl := Option.some.inj (Except.ok.inj h)
      exact ⟨profileDir_eq_ok.mp hvalid, readJson_eq_some.mp hm, by rw [readRequired_eq_ok.mp htoken]; rfl,
        readRequired_eq_ok.mp hkey⟩
  · rintro ⟨hvalid, hm, htoken, hkey⟩
    obtain ⟨token, htoken, htrim⟩ := Option.map_eq_some_iff.mp htoken
    refine ⟨(), profileDir_eq_ok.mpr hvalid, bind_eq_ok.mpr ⟨_, readJson_eq_some.mpr hm, ?_⟩⟩
    refine bind_eq_ok.mpr ⟨token, readRequired_eq_ok.mpr htoken, ?_⟩
    refine bind_eq_ok.mpr ⟨_, readRequired_eq_ok.mpr hkey, ?_⟩
    rw [htrim]
    rfl

theorem loadPending_eq_none : loadPending profile dir = .ok none ↔
    isLabel profile = true ∧ dir .pendingJson = none := by
  unfold loadPending
  rw [bind_eq_ok, ← profileDir_eq_ok, ← readJson_eq_none]
  constructor
  · rintro ⟨⟨⟩, hvalid, h⟩
    obtain ⟨m, hm, h⟩ := bind_eq_ok.mp h
    cases m with
    | none => exact ⟨hvalid, hm⟩
    | some x =>
      obtain ⟨_, _, h⟩ := bind_eq_ok.mp h
      obtain ⟨_, _, h⟩ := bind_eq_ok.mp h
      cases h
  · rintro ⟨hvalid, hm⟩
    exact ⟨(), hvalid, bind_eq_ok.mpr ⟨none, hm, rfl⟩⟩

theorem text_of_eq {s : String} (h : dir file = some (utf8 s)) : text dir file = some s := by
  rw [text, h, Option.bind_some, readToString_utf8]

/-- The metadata that Rust wrote. -/
theorem metadata_of_toJson {a b c x y z : String} (hab : a ≠ b) (hac : a ≠ c) (hbc : b ≠ c)
    (h : dir file = some (utf8 (toJson [(a, x), (b, y), (c, z)]))) : metadata dir file a b c = some (x, y, z) := by
  rw [metadata, text_of_eq h, Option.bind_some, parse_toJson]
  exact readStruct_fields hab hac hbc x y z

/-- The metadata that TypeScript wrote. -/
theorem metadata_of_stringify {a b c x y z : String} (hab : a ≠ b) (hac : a ≠ c) (hbc : b ≠ c)
    (h : dir file = some (utf8 (stringify [(a, x), (b, y), (c, z)]))) : metadata dir file a b c = some (x, y, z) := by
  rw [metadata, text_of_eq h, Option.bind_some, parse_stringify]
  exact readStruct_fields hab hac hbc x y z

theorem nodup_saveOps (b : Identity) : ((saveOps b).map Op.file).Nodup := by
  show [File.token, .privateKey, .certificate, .chain, .tunnelJson, .pendingJson].Nodup
  decide

theorem nodup_savePendingOps (p : PendingIdentity) : ((savePendingOps p).map Op.file).Nodup := by
  show [File.token, .privateKey, .pendingJson].Nodup
  decide

/-- An identity is loaded whose files were written, by whichever client. -/
theorem load_of_files {i : Identity} (hvalid : isLabel profile = true)
    (hm : metadata dir .tunnelJson "id" "hostname" "certificateExpiry" = some (i.id, i.hostname, i.certificateExpiry))
    (htoken : dir .token = some (utf8 (line i.token))) (htrim : trim i.token = i.token)
    (hkey : dir .privateKey = some (utf8 i.privateKey)) (hcertificate : dir .certificate = some (utf8 i.certificate))
    (hchain : dir .chain = some (utf8 i.chain)) : load profile dir = .ok (some i) :=
  load_eq_some.mpr ⟨hvalid, hm, by rw [text_of_eq htoken, Option.map_some, trim_line, htrim], text_of_eq hkey,
    text_of_eq hcertificate, text_of_eq hchain⟩

theorem loadPending_of_files {p : PendingIdentity} (hvalid : isLabel profile = true)
    (hm : metadata dir .pendingJson "id" "hostname" "csr" = some (p.id, p.hostname, p.csr))
    (htoken : dir .token = some (utf8 (line p.token))) (htrim : trim p.token = p.token)
    (hkey : dir .privateKey = some (utf8 p.privateKey)) : loadPending profile dir = .ok (some p) :=
  loadPending_eq_some.mpr ⟨hvalid, hm, by rw [text_of_eq htoken, Option.map_some, trim_line, htrim], text_of_eq hkey⟩

end Rust

/-! ### What the TypeScript reads give -/

section

variable {other : String → Date} {profile : String} {dir : Dir} {file : File}

theorem load_eq_none : load other profile dir = .ok none ↔ truthy (readText dir .tunnelJson) = none := by
  unfold load
  constructor
  · intro h
    split at h
    · assumption
    · split at h
      · split at h
        · cases h
        · cases h
      · cases h
  · intro h
    rw [h]

theorem load_eq_some {i : ShuvTunnelIdentity} : load other profile dir = .ok (some i) ↔
    ∃ metadata token expiry, truthy (readText dir .tunnelJson) = some metadata ∧
      parseMetadata metadata "id" "hostname" "certificateExpiry" = .ok (i.id, i.hostname, expiry) ∧
      Date.parse other expiry = i.certificateExpiry ∧
      truthy (readText dir .token) = some token ∧ trim token = i.token ∧
      truthy (readText dir .privateKey) = some i.privateKey ∧
      truthy (readText dir .certificate) = some i.certificate ∧ readText dir .chain = some i.chain := by
  unfold load
  constructor
  · intro h
    split at h
    · cases h
    · rename_i metadata hm
      split at h
      · rename_i token privateKey certificate chain htoken hkey hcertificate hchain
        split at h
        · cases h
        · rename_i id hostname expiry hparse
          obtain rfl := Option.some.inj (Except.ok.inj h)
          exact ⟨metadata, token, expiry, hm, hparse, rfl, htoken, rfl, hkey, hcertificate, hchain⟩
      · cases h
  · rintro ⟨metadata, token, expiry, hm, hparse, hdate, htoken, htrim, hkey, hcertificate, hchain⟩
    rw [hm, htoken, hkey, hcertificate, hchain]
    dsimp only
    rw [hparse]
    dsimp only
    rw [htrim, hdate]

theorem loadPending_eq_none : loadPending profile dir = .ok none ↔ truthy (readText dir .pendingJson) = none := by
  unfold loadPending
  constructor
  · intro h
    split at h
    · assumption
    · split at h
      · split at h
        · cases h
        · cases h
      · cases h
  · intro h
    rw [h]

theorem loadPending_eq_some {p : PendingIdentity} : loadPending profile dir = .ok (some p) ↔
    ∃ metadata token, truthy (readText dir .pendingJson) = some metadata ∧
      parseMetadata metadata "id" "hostname" "csr" = .ok (p.id, p.hostname, p.csr) ∧
      truthy (readText dir .token) = some token ∧ trim token = p.token ∧
      truthy (readText dir .privateKey) = some p.privateKey := by
  unfold loadPending
  constructor
  · intro h
    split at h
    · cases h
    · rename_i metadata hm
      split at h
      · rename_i token privateKey htoken hkey
        split at h
        · cases h
        · rename_i id hostname csr hparse
          obtain rfl := Option.some.inj (Except.ok.inj h)
          exact ⟨metadata, token, hm, hparse, htoken, rfl, hkey⟩
      · cases h
  · rintro ⟨metadata, token, hm, hparse, htoken, htrim, hkey⟩
    rw [hm, htoken, hkey]
    dsimp only
    rw [hparse]
    dsimp only
    rw [htrim]

theorem readText_of_eq {s : String} (h : dir file = some (utf8 s)) : readText dir file = some s := by
  rw [readText, h, Option.map_some, readFile_utf8]

theorem stringify_ne_empty (fields : List (String × String)) : stringify fields ≠ "" := by
  intro h
  have := congrArg String.toList h
  obtain ⟨cs, hcs⟩ := Json.object_last fields
  rw [stringify, String.toList_ofList, hcs] at this
  simp at this

theorem toJson_ne_empty (fields : List (String × String)) : Rust.toJson fields ≠ "" := by
  intro h
  have := congrArg String.toList h
  rw [Rust.toJson, String.toList_ofList] at this
  simp at this

theorem line_ne_empty (s : String) : line s ≠ "" := by
  intro h
  have := congrArg String.toList h
  rw [line, String.toList_append] at this
  simp at this

theorem parseMetadata_eq_ok {metadata a b c : String} {value : Json.Value} {fields : String × String × String}
    (h : Json.parse metadata.toList = some value) (hfields : readFields a b c value = some fields) :
    parseMetadata metadata a b c = .ok fields := by
  unfold parseMetadata
  rw [h]
  dsimp only
  rw [hfields]

theorem parseMetadata_stringify {a b c : String} (hab : a ≠ b) (hac : a ≠ c) (hbc : b ≠ c) (x y z : String) :
    parseMetadata (stringify [(a, x), (b, y), (c, z)]) a b c = .ok (x, y, z) :=
  parseMetadata_eq_ok (parse_stringify _) (readFields_fields hab hac hbc x y z)

theorem parseMetadata_toJson {a b c : String} (hab : a ≠ b) (hac : a ≠ c) (hbc : b ≠ c) (x y z : String) :
    parseMetadata (Rust.toJson [(a, x), (b, y), (c, z)]) a b c = .ok (x, y, z) :=
  parseMetadata_eq_ok (Rust.parse_toJson _) (readFields_fields hab hac hbc x y z)

/-- What `toISOString` gives is read back. -/
theorem date_parse_format (t : Iso.Instant) : Date.parse other (Iso.format t) = some t := by
  unfold Date.parse
  rw [Iso.parse_format]

theorem truthy_readText_of_eq {s : String} (h : dir file = some (utf8 s)) (hne : s ≠ "") :
    truthy (readText dir file) = some s :=
  truthy_eq_some.mpr ⟨readText_of_eq h, hne⟩

/-- An identity is loaded whose files were written, by whichever client. -/
theorem load_of_files {i : ShuvTunnelIdentity} {metadata expiry : String}
    (hm : dir .tunnelJson = some (utf8 metadata)) (hne : metadata ≠ "")
    (hparse : parseMetadata metadata "id" "hostname" "certificateExpiry" = .ok (i.id, i.hostname, expiry))
    (hdate : Date.parse other expiry = i.certificateExpiry)
    (htoken : dir .token = some (utf8 (line i.token))) (htrim : trim i.token = i.token)
    (hkey : dir .privateKey = some (utf8 i.privateKey)) (hkne : i.privateKey ≠ "")
    (hcertificate : dir .certificate = some (utf8 i.certificate)) (hcne : i.certificate ≠ "")
    (hchain : dir .chain = some (utf8 i.chain)) : load other profile dir = .ok (some i) :=
  load_eq_some.mpr ⟨metadata, line i.token, expiry, truthy_readText_of_eq hm hne, hparse, hdate,
    truthy_readText_of_eq htoken (line_ne_empty _), by rw [trim_line, htrim], truthy_readText_of_eq hkey hkne,
    truthy_readText_of_eq hcertificate hcne, readText_of_eq hchain⟩

theorem loadPending_of_files {p : PendingIdentity} {metadata : String}
    (hm : dir .pendingJson = some (utf8 metadata)) (hne : metadata ≠ "")
    (hparse : parseMetadata metadata "id" "hostname" "csr" = .ok (p.id, p.hostname, p.csr))
    (htoken : dir .token = some (utf8 (line p.token))) (htrim : trim p.token = p.token)
    (hkey : dir .privateKey = some (utf8 p.privateKey)) (hkne : p.privateKey ≠ "") :
    loadPending profile dir = .ok (some p) :=
  loadPending_eq_some.mpr ⟨metadata, line p.token, truthy_readText_of_eq hm hne, hparse,
    truthy_readText_of_eq htoken (line_ne_empty _), by rw [trim_line, htrim], truthy_readText_of_eq hkey hkne⟩

end

end ShuvTunnel
