/-
# What a crash leaves of a save

`save` and `save_pending` of `storage.rs` replace one file after the other, so
a crash in between leaves the files of the first operations replaced and the
others as they were. Where a profile holds an identity, `load` then gives the
identity with the fields of the replaced files exchanged (`Identity.cut`): the
old one or the new one only if the two agree in the fields on one side of the
cut.

Key definitions: `Rust.Identity.cut`, `Rust.Identity.AgreeBefore`,
`Rust.Identity.AgreeFrom`, `Rust.Identity.AgreePending`.
Key theorems: `Rust.load_cut_save`, `Rust.crash_atomicity`.
-/
import ShuvTunnel.Storage

namespace ShuvTunnel

namespace Rust

/-! ### The identity a crash leaves -/

/-- The identity with the fields of the first `k` files from `b`, in the order in
which `save` writes them. The token is trimmed when it is read. -/
def Identity.cut (a b : Identity) (k : ℕ) : Identity where
  token := if 0 < k then trim b.token else a.token
  privateKey := if 1 < k then b.privateKey else a.privateKey
  certificate := if 2 < k then b.certificate else a.certificate
  chain := if 3 < k then b.chain else a.chain
  id := if 4 < k then b.id else a.id
  hostname := if 4 < k then b.hostname else a.hostname
  certificateExpiry := if 4 < k then b.certificateExpiry else a.certificateExpiry

/-- The same for a pending identity. -/
def Identity.cutPending (a : Identity) (p : PendingIdentity) (k : ℕ) : Identity :=
  { a with
    token := if 0 < k then trim p.token else a.token
    privateKey := if 1 < k then p.privateKey else a.privateKey }

variable {profile : String} {dir : Dir} {a b : Identity} {p : PendingIdentity}

/-- The text of a file that one of the first operations writes. -/
theorem text_take {ops : List Op} (hnodup : (ops.map Op.file).Nodup) {j : ℕ} {file : File} {s : String}
    (hj : ops[j]? = some (.replace file (utf8 s))) (k : ℕ) :
    text (Op.applyAll dir (ops.take k)) file = if j < k then some s else text dir file := by
  have h : Op.applyAll dir (ops.take k) file = if j < k then some (utf8 s) else dir file :=
    Op.applyAll_take hnodup hj k
  split
  · rename_i hk
    rw [if_pos hk] at h
    exact text_of_eq h
  · rename_i hk
    rw [if_neg hk] at h
    exact congrArg (·.bind readToString) h

theorem metadata_take {ops : List Op} (hnodup : (ops.map Op.file).Nodup) {j : ℕ} {file : File} {a b c x y z : String}
    (hj : ops[j]? = some (.replace file (utf8 (toJson [(a, x), (b, y), (c, z)]))))
    (hab : a ≠ b) (hac : a ≠ c) (hbc : b ≠ c) (k : ℕ) :
    metadata (Op.applyAll dir (ops.take k)) file a b c =
      if j < k then some (x, y, z) else metadata dir file a b c := by
  unfold metadata
  rw [text_take hnodup hj]
  split
  · rw [Option.bind_some, parse_toJson]
    exact readStruct_fields hab hac hbc x y z
  · rfl

/-- Each file is that of `b` or the one that was there. -/
theorem load_cut_save (h : load profile dir = .ok (some a)) (b : Identity) (k : ℕ) :
    load profile (Op.applyAll dir ((saveOps b).take k)) = .ok (some (a.cut b k)) := by
  obtain ⟨hvalid, hmeta, htoken, hkey, hcertificate, hchain⟩ := load_eq_some.mp h
  have hnodup := nodup_saveOps b
  refine load_eq_some.mpr ⟨hvalid, ?_, ?_, ?_, ?_, ?_⟩
  · rw [metadata_take hnodup (j := 4) rfl (by decide) (by decide) (by decide), hmeta]
    unfold Identity.cut
    split <;> rfl
  · rw [text_take hnodup (j := 0) rfl, apply_ite (Option.map trim), htoken, Option.map_some, trim_line]
    unfold Identity.cut
    split <;> rfl
  · rw [text_take hnodup (j := 1) rfl, hkey]
    unfold Identity.cut
    split <;> rfl
  · rw [text_take hnodup (j := 2) rfl, hcertificate]
    unfold Identity.cut
    split <;> rfl
  · rw [text_take hnodup (j := 3) rfl, hchain]
    unfold Identity.cut
    split <;> rfl

theorem load_cut_savePending (h : load profile dir = .ok (some a)) (p : PendingIdentity) (k : ℕ) :
    load profile (Op.applyAll dir ((savePendingOps p).take k)) = .ok (some (a.cutPending p k)) := by
  obtain ⟨hvalid, hmeta, htoken, hkey, hcertificate, hchain⟩ := load_eq_some.mp h
  have hnodup := nodup_savePendingOps p
  have hother : ∀ file, file ≠ .token → file ≠ .privateKey → file ≠ .pendingJson →
      Op.applyAll dir ((savePendingOps p).take k) file = dir file := by
    intro file h1 h2 h3
    refine Op.applyAll_of_not_mem fun op hop => ?_
    have hop : op ∈ savePendingOps p := List.mem_of_mem_take hop
    simp only [savePendingOps, List.mem_cons, List.not_mem_nil, or_false] at hop
    rcases hop with rfl | rfl | rfl
    · exact Ne.symm h1
    · exact Ne.symm h2
    · exact Ne.symm h3
  refine load_eq_some.mpr ⟨hvalid, ?_, ?_, ?_, ?_, ?_⟩
  · unfold metadata text
    rw [hother _ (by decide) (by decide) (by decide)]
    exact hmeta
  · rw [text_take hnodup (j := 0) rfl, apply_ite (Option.map trim), htoken, Option.map_some, trim_line]
    unfold Identity.cutPending
    split <;> rfl
  · rw [text_take hnodup (j := 1) rfl, hkey]
    unfold Identity.cutPending
    split <;> rfl
  · unfold text
    rw [hother _ (by decide) (by decide) (by decide)]
    exact hcertificate
  · unfold text
    rw [hother _ (by decide) (by decide) (by decide)]
    exact hchain

/-! ### When it is the old one or the new one -/

/-- In the fields of the first `k` files `b`, as it is read, is `a`. -/
structure Identity.AgreeBefore (k : ℕ) (a b : Identity) : Prop where
  token : 0 < k → trim b.token = a.token
  privateKey : 1 < k → b.privateKey = a.privateKey
  certificate : 2 < k → b.certificate = a.certificate
  chain : 3 < k → b.chain = a.chain
  metadata : 4 < k → b.id = a.id ∧ b.hostname = a.hostname ∧ b.certificateExpiry = a.certificateExpiry

/-- In the fields of the other files `a` is `b`, and the token of `b` is read as
it is. -/
structure Identity.AgreeFrom (k : ℕ) (a b : Identity) : Prop where
  token : if 0 < k then trim b.token = b.token else a.token = b.token
  privateKey : ¬ 1 < k → a.privateKey = b.privateKey
  certificate : ¬ 2 < k → a.certificate = b.certificate
  chain : ¬ 3 < k → a.chain = b.chain
  metadata : ¬ 4 < k → a.id = b.id ∧ a.hostname = b.hostname ∧ a.certificateExpiry = b.certificateExpiry

/-- In the fields of the first `k` files the pending identity, as it is read, is
`a`. -/
structure Identity.AgreePending (k : ℕ) (a : Identity) (p : PendingIdentity) : Prop where
  token : 0 < k → trim p.token = a.token
  privateKey : 1 < k → p.privateKey = a.privateKey

theorem Identity.cut_eq_left {k : ℕ} : a.cut b k = a ↔ a.AgreeBefore k b := by
  obtain ⟨id, hostname, token, privateKey, certificate, chain, certificateExpiry⟩ := a
  simp only [Identity.cut, Identity.mk.injEq, ite_eq_right_iff]
  constructor
  · rintro ⟨hid, hhost, htoken, hkey, hcertificate, hchain, hexpiry⟩
    exact ⟨htoken, hkey, hcertificate, hchain, fun hk => ⟨hid hk, hhost hk, hexpiry hk⟩⟩
  · rintro ⟨htoken, hkey, hcertificate, hchain, hmeta⟩
    exact ⟨fun hk => (hmeta hk).1, fun hk => (hmeta hk).2.1, htoken, hkey, hcertificate, hchain,
      fun hk => (hmeta hk).2.2⟩

theorem Identity.cut_eq_right {k : ℕ} : a.cut b k = b ↔ a.AgreeFrom k b := by
  have htoken : ∀ x y z : String, (if 0 < k then x else y) = z ↔ if 0 < k then x = z else y = z := by
    intro x y z
    split <;> rfl
  obtain ⟨id, hostname, token, privateKey, certificate, chain, certificateExpiry⟩ := b
  simp only [Identity.cut, Identity.mk.injEq, ite_eq_left_iff, htoken]
  constructor
  · rintro ⟨hid, hhost, htoken, hkey, hcertificate, hchain, hexpiry⟩
    exact ⟨htoken, hkey, hcertificate, hchain, fun hk => ⟨hid hk, hhost hk, hexpiry hk⟩⟩
  · rintro ⟨htoken, hkey, hcertificate, hchain, hmeta⟩
    exact ⟨fun hk => (hmeta hk).1, fun hk => (hmeta hk).2.1, htoken, hkey, hcertificate, hchain,
      fun hk => (hmeta hk).2.2⟩

theorem Identity.cutPending_eq {k : ℕ} : a.cutPending p k = a ↔ a.AgreePending k p := by
  obtain ⟨id, hostname, token, privateKey, certificate, chain, certificateExpiry⟩ := a
  simp only [Identity.cutPending, Identity.mk.injEq, ite_eq_right_iff, true_and, and_true]
  constructor
  · exact fun ⟨htoken, hkey⟩ => ⟨htoken, hkey⟩
  · exact fun ⟨htoken, hkey⟩ => ⟨htoken, hkey⟩

/-- **A crash in a save.** A profile holds the identity `a`, and a crash stops
`save(b)` or `save_pending(p)` after `k` of its file operations. Then `load`
gives `a` or `b` exactly when they agree in the fields of the files before the
cut, or in those behind it; and it gives `a` exactly when `p` has its token and
its key, as far as these are replaced. -/
theorem crash_atomicity (profile : String) (dir : Dir) (a : Identity) (h : load profile dir = .ok (some a)) (k : ℕ) :
    (∀ b : Identity,
      (load profile (Op.applyAll dir ((saveOps b).take k)) = .ok (some a) ∨
        load profile (Op.applyAll dir ((saveOps b).take k)) = .ok (some b)) ↔
      a.AgreeBefore k b ∨ a.AgreeFrom k b) ∧
    ∀ p : PendingIdentity,
      load profile (Op.applyAll dir ((savePendingOps p).take k)) = .ok (some a) ↔ a.AgreePending k p := by
  constructor
  · intro b
    rw [load_cut_save h b k]
    simp only [Except.ok.injEq, Option.some.injEq]
    rw [Identity.cut_eq_left, Identity.cut_eq_right]
  · intro p
    rw [load_cut_savePending h p k]
    simp only [Except.ok.injEq, Option.some.injEq]
    exact Identity.cutPending_eq

/-! ### A renewal that is cut -/

/-- What `save` leaves is loaded, once its five files are replaced. -/
theorem load_save {i : Identity} (hvalid : isLabel profile = true) (htoken : trim i.token = i.token) (dir : Dir)
    {k : ℕ} (hk : 4 < k) : load profile (Op.applyAll dir ((saveOps i).take k)) = .ok (some i) := by
  have hnodup := nodup_saveOps i
  refine load_eq_some.mpr ⟨hvalid, ?_, ?_, ?_, ?_, ?_⟩
  · rw [metadata_take hnodup (j := 4) rfl (by decide) (by decide) (by decide), if_pos hk]
  · rw [text_take hnodup (j := 0) rfl, if_pos (by omega), Option.map_some, trim_line, htoken]
  · rw [text_take hnodup (j := 1) rfl, if_pos (by omega)]
  · rw [text_take hnodup (j := 2) rfl, if_pos (by omega)]
  · rw [text_take hnodup (j := 3) rfl, if_pos (by omega)]

/-- An identity, and what a renewal makes of it. -/
def issuedIdentity : Identity :=
  ⟨"demo", "demo.shuv.zip", "token", "KEY", "CERT", "CHAIN", "2026-01-01T00:00:00.000Z"⟩

/-- The identity that the renewal saves. -/
def renewedIdentity : Identity :=
  { issuedIdentity with certificate := "CERT2", chain := "CHAIN2", certificateExpiry := "2026-04-01T00:00:00.000Z" }

/-- What saving the first identity leaves. -/
def issuedDir : Dir := Op.applyAll (fun _ => none) (saveOps issuedIdentity)

theorem load_issuedDir : load "default" issuedDir = .ok (some issuedIdentity) :=
  load_save (by decide) (by decide) _ (k := 6) (by decide)

/-- A renewed certificate, cut behind it: its chain and its expiry are still the
old ones. -/
theorem not_crash_atomicity : ¬ ∀ (profile : String) (dir : Dir) (a b : Identity) (p : PendingIdentity) (k : ℕ),
    load profile dir = .ok (some a) →
      (load profile (Op.applyAll dir ((saveOps b).take k)) = .ok (some a) ∨
        load profile (Op.applyAll dir ((saveOps b).take k)) = .ok (some b)) ∧
      load profile (Op.applyAll dir ((savePendingOps p).take k)) = .ok (some a) := by
  intro h
  obtain ⟨hcut, -⟩ := h "default" issuedDir issuedIdentity renewedIdentity ⟨"", "", "", "", ""⟩ 3 load_issuedDir
  rw [load_cut_save load_issuedDir] at hcut
  simp only [Except.ok.injEq, Option.some.injEq] at hcut
  revert hcut
  decide

/-- Cut before the certificate, the renewal has replaced the token and the key by
what they were. -/
theorem crash_atomicity_renewal :
    load "default" (Op.applyAll issuedDir ((saveOps renewedIdentity).take 2)) = .ok (some issuedIdentity) ∨
      load "default" (Op.applyAll issuedDir ((saveOps renewedIdentity).take 2)) = .ok (some renewedIdentity) :=
  ((crash_atomicity "default" issuedDir issuedIdentity load_issuedDir 2).1 renewedIdentity).mpr
    (.inl ⟨fun _ => by decide, fun _ => rfl, fun h => absurd h (by decide), fun h => absurd h (by decide),
      fun h => absurd h (by decide)⟩)

end Rust

end ShuvTunnel
