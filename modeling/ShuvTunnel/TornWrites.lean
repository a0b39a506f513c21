/-
# What a crash leaves of a provision in TypeScript

`savePending` and then `save` of `storage.ts` write their files all at once
with `writeFile`, which first empties the file and then writes some bytes after
the other. A process that dies in between leaves, of every file, what was
written until then (`Writing`).

Key definitions: `Provisioned`, `Writing`, `writingSystem`, `Recovers`,
`Whole`.
Key theorems: `parts_of_reachable`, `recovers_iff`.
-/
import ShuvTunnel.Storage
import ShuvTunnel.Lib.Lts

namespace ShuvTunnel

/-! ### The writes -/

/-- What a provision saves: a pending identity, and the certificate that is
issued for it. -/
structure Provisioned where
  pending : PendingIdentity
  certificate : String
  chain : String
  expiry : Date

/-- The identity `completePending` saves. -/
def Provisioned.identity (v : Provisioned) : ShuvTunnelIdentity where
  id := v.pending.id
  hostname := v.pending.hostname
  token := v.pending.token
  privateKey := v.pending.privateKey
  certificate := v.certificate
  chain := v.chain
  certificateExpiry := v.expiry

/-- Where the provision is, between the two saves and within them. -/
inductive Stage
  | fresh
  | savingPending
  | pendingSaved
  | saving
  | written
  | saved
  | failed
  deriving DecidableEq

/-- `savePending` has completed. -/
def Stage.hasPending : Stage → Bool
  | fresh | savingPending => false
  | _ => true

/-- A provision that writes: of each file it has opened, how many bytes were
written, and what the disk holds. -/
structure Writing where
  stage : Stage
  opened : File → Option ℕ
  dir : Dir

/-- What is done to the files, which are written at the same time. -/
inductive WriteEvent
  -- `savePending`, and then `save`
  | call
  | opens (file : File)
  | write (file : File) (bytes : ℕ)
  -- `Promise.all`
  | settle
  | rm

namespace Writing

/-- The calls of `writeFile` under way. -/
def writes (v : Provisioned) (s : Writing) : List (File × Bytes) :=
  match s.stage with
  | .savingPending => savePendingWrites v.pending
  | .saving => (saveWrites v.identity).getD []
  | _ => []

/-- What an event does; a file that is opened is empty first. -/
def step (v : Provisioned) (s : Writing) : WriteEvent → Option Writing
  | .call =>
    match s.stage with
    | .fresh => some { s with stage := .savingPending, opened := fun _ => none }
    | .pendingSaved =>
      some { s with stage := if (saveWrites v.identity).isSome then .saving else .failed, opened := fun _ => none }
    | _ => none
  | .opens file =>
    if ((s.writes v).lookup file).isSome ∧ s.opened file = none then
      some { s with
        opened := Function.update s.opened file (some 0)
        dir := Function.update s.dir file (some []) }
    else none
  | .write file bytes =>
    ((s.writes v).lookup file).bind fun content => (s.opened file).bind fun done =>
      if done < content.length then
        some { s with
          opened := Function.update s.opened file (some (done + bytes))
          dir := Function.update s.dir file (some (content.take (done + bytes))) }
      else none
  | .settle =>
    if (s.writes v).all fun w => (s.opened w.1).any fun done => w.2.length ≤ done then
      match s.stage with
      | .savingPending => some { s with stage := .pendingSaved }
      | .saving => some { s with stage := .written }
      | _ => none
    else none
  | .rm =>
    match s.stage with
    | .written => some { s with stage := .saved, dir := Function.update s.dir .pendingJson none }
    | _ => none

end Writing

/-- The provision of an empty profile. -/
def writingSystem (v : Provisioned) : Lts.System Writing WriteEvent := ⟨Writing.step v⟩

/-- A provision before it begins. -/
def unwritten : Writing := { stage := .fresh, opened := fun _ => none, dir := fun _ => none }

/-! ### What is read afterwards -/

section

variable (other : String → Date) (profile : String) (v : Provisioned)

/-- The two reads give nothing or what was being saved, and one of them something
once `savePending` has completed. -/
structure Recovers (s : Writing) : Prop where
  pending : loadPending profile s.dir = .ok none ∨ loadPending profile s.dir = .ok (some v.pending)
  identity : load other profile s.dir = .ok none ∨ load other profile s.dir = .ok (some v.identity)
  either : s.stage.hasPending = true →
    loadPending profile s.dir = .ok (some v.pending) ∨ load other profile s.dir = .ok (some v.identity)

/-- The bytes of `pending.json`. -/
def pendingText (p : PendingIdentity) : Bytes :=
  utf8 (stringify [("id", p.id), ("hostname", p.hostname), ("csr", p.csr)])

/-- The bytes of `tunnel.json`. -/
def tunnelText (i : ShuvTunnelIdentity) (expiry : Iso.Instant) : Bytes :=
  utf8 (stringify [("id", i.id), ("hostname", i.hostname), ("certificateExpiry", Iso.format expiry)])

/-- The token and the key can be read, and are those that are saved. -/
structure KeyWhole (dir : Dir) : Prop where
  token : ∃ text, truthy (readText dir .token) = some text ∧ trim text = v.pending.token
  privateKey : truthy (readText dir .privateKey) = some v.pending.privateKey

/-- `loadPending` has all it needs. -/
structure PendingWhole (dir : Dir) : Prop where
  metadata : dir .pendingJson = some (pendingText v.pending)
  key : KeyWhole v dir

/-- `load` has all it needs. -/
structure IdentityWhole (dir : Dir) : Prop where
  metadata : ∃ expiry, v.expiry = some expiry ∧ dir .tunnelJson = some (tunnelText v.identity expiry)
  key : KeyWhole v dir
  certificate : truthy (readText dir .certificate) = some v.certificate
  chain : readText dir .chain = some v.chain

/-- The metadata that is there is whole, with all that belongs to it. -/
structure Whole (s : Writing) : Prop where
  pending : s.dir .pendingJson = none ∨ s.dir .pendingJson = some [] ∨ PendingWhole v s.dir
  identity : s.dir .tunnelJson = none ∨ s.dir .tunnelJson = some [] ∨ IdentityWhole v s.dir
  either : s.stage.hasPending = true → PendingWhole v s.dir ∨ IdentityWhole v s.dir

/-- Of the metadata a beginning is there. -/
structure Parts (dir : Dir) : Prop where
  pending : ∀ us, dir .pendingJson = some us → us <+: pendingText v.pending
  identity : ∀ us, dir .tunnelJson = some us → ∃ expiry, v.expiry = some expiry ∧ us <+: tunnelText v.identity expiry

end

variable {other : String → Date} {profile : String} {v : Provisioned} {s s' : Writing}

theorem run_ne_nil {data : Bytes} {p : TextDecoder.Pending} (h : data ≠ [] ∨ p.needed ≠ 0) :
    TextDecoder.run p data ≠ [] := by
  have step_out : ∀ (p : TextDecoder.Pending) (b : ℕ),
      (TextDecoder.step p b).1 ≠ [] ∨ (TextDecoder.step p b).2.needed ≠ 0 := by
    intro p b
    have hfirst : (TextDecoder.first b).1 ≠ [] ∨ (TextDecoder.first b).2.needed ≠ 0 := by
      unfold TextDecoder.first
      repeat' split
      all_goals simp
    unfold TextDecoder.step
    split
    · exact hfirst
    · split
      · exact .inl (List.cons_ne_nil _ _)
      · dsimp only
        split
        · exact .inl (List.cons_ne_nil _ _)
        · exact .inr (by simp only; omega)
  induction data generalizing p with
  | nil =>
    have hp : p.needed ≠ 0 := h.resolve_left (not_not.mpr rfl)
    rw [TextDecoder.run, if_neg hp]
    exact List.cons_ne_nil _ _
  | cons b bs ih =>
    rw [TextDecoder.run]
    rcases step_out p b.toNat with hout | hneeded
    · exact fun he => hout (List.append_eq_nil_iff.mp he).1
    · exact fun he => ih (.inr hneeded) (List.append_eq_nil_iff.mp he).2

/-- Only an empty file reads as nothing. -/
theorem truthy_readText_eq_none {dir : Dir} {file : File} :
    truthy (readText dir file) = none ↔ dir file = none ∨ dir file = some [] := by
  unfold readText
  cases hd : dir file with
  | none => simp [truthy]
  | some data =>
    by_cases hdata : data = []
    · rw [hdata]
      simp [truthy, readFile, TextDecoder.run, TextDecoder.idle]
    · have hne : readFile data ≠ "" := by
        intro he
        have := congrArg String.toList he
        rw [readFile, String.toList_ofList] at this
        exact run_ne_nil (.inl hdata) this
      simp [truthy, hne, hdata]

/-- A beginning that parses is the whole. -/
theorem whole_of_parse {us : Bytes} {fields : List (String × String)} (h : us <+: utf8 (stringify fields))
    (hparse : Json.parse (readFile us).toList ≠ none) : us = utf8 (stringify fields) := by
  obtain ⟨ws, hws⟩ := h
  by_cases hnil : ws = []
  · rw [← hws, hnil, List.append_nil]
  · exact absurd (parse_readFile_cut hws.symm hnil) hparse

theorem parse_of_parseMetadata {metadata a b c : String} {x : String × String × String}
    (h : parseMetadata metadata a b c = .ok x) : Json.parse metadata.toList ≠ none := by
  intro hn
  unfold parseMetadata at h
  rw [hn] at h
  cases h

theorem loadPending_whole {dir : Dir} (hparts : Parts v dir) :
    loadPending profile dir = .ok (some v.pending) ↔ PendingWhole v dir := by
  rw [loadPending_eq_some]
  constructor
  · rintro ⟨metadata, token, hm, hparse, htoken, htrim, hkey⟩
    refine ⟨?_, ⟨token, htoken, htrim⟩, hkey⟩
    obtain ⟨us, hus, hread⟩ := Option.map_eq_some_iff.mp (truthy_eq_some.mp hm).1
    rw [hus, whole_of_parse (hparts.pending us hus) (by rw [hread]; exact parse_of_parseMetadata hparse)]
    rfl
  · rintro ⟨hm, ⟨token, htoken, htrim⟩, hkey⟩
    refine ⟨_, token, truthy_eq_some.mpr ⟨readText_of_eq hm, stringify_ne_empty _⟩, ?_, htoken, htrim, hkey⟩
    exact parseMetadata_stringify (by decide) (by decide) (by decide) _ _ _

theorem load_whole {dir : Dir} (hparts : Parts v dir) :
    load other profile dir = .ok (some v.identity) ↔ IdentityWhole v dir := by
  rw [load_eq_some]
  constructor
  · rintro ⟨metadata, token, expiry, hm, hparse, -, htoken, htrim, hkey, hcertificate, hchain⟩
    refine ⟨?_, ⟨⟨token, htoken, htrim⟩, hkey⟩, hcertificate, hchain⟩
    obtain ⟨us, hus, hread⟩ := Option.map_eq_some_iff.mp (truthy_eq_some.mp hm).1
    obtain ⟨t, ht, hpart⟩ := hparts.identity us hus
    refine ⟨t, ht, ?_⟩
    rw [hus, whole_of_parse hpart (by rw [hread]; exact parse_of_parseMetadata hparse)]
    rfl
  · rintro ⟨⟨t, ht, hm⟩, ⟨⟨token, htoken, htrim⟩, hkey⟩, hcertificate, hchain⟩
    refine ⟨_, token, Iso.format t, truthy_eq_some.mpr ⟨readText_of_eq hm, stringify_ne_empty _⟩, ?_, ?_, htoken, htrim,
      hkey, hcertificate, hchain⟩
    · exact parseMetadata_stringify (by decide) (by decide) (by decide) _ _ _
    · rw [date_parse_format]
      exact ht.symm

theorem recovers_of_parts (hparts : Parts v s.dir) : Recovers other profile v s ↔ Whole v s := by
  constructor
  · rintro ⟨hpending, hidentity, heither⟩
    rw [loadPending_eq_none, truthy_readText_eq_none, loadPending_whole hparts, or_assoc] at hpending
    rw [load_eq_none, truthy_readText_eq_none, load_whole hparts, or_assoc] at hidentity
    rw [loadPending_whole hparts, load_whole hparts] at heither
    exact ⟨hpending, hidentity, heither⟩
  · rintro ⟨hpending, hidentity, heither⟩
    refine ⟨?_, ?_, ?_⟩
    · rwa [loadPending_eq_none, truthy_readText_eq_none, loadPending_whole hparts, or_assoc]
    · rwa [load_eq_none, truthy_readText_eq_none, load_whole hparts, or_assoc]
    · rwa [loadPending_whole hparts, load_whole hparts]

/-! ### Every point of the run -/

theorem lookup_pendingJson {content : Bytes} (h : (s.writes v).lookup .pendingJson = some content) :
    content = pendingText v.pending := by
  unfold Writing.writes at h
  split at h
  · exact (Option.some.inj h).symm
  · unfold saveWrites at h
    cases he : v.identity.certificateExpiry with
    | none =>
      rw [he] at h
      cases h
    | some t =>
      rw [he] at h
      cases h
  · cases h

theorem lookup_tunnelJson {content : Bytes} (h : (s.writes v).lookup .tunnelJson = some content) :
    ∃ expiry, v.expiry = some expiry ∧ content = tunnelText v.identity expiry := by
  unfold Writing.writes at h
  split at h
  · cases h
  · unfold saveWrites at h
    cases he : v.identity.certificateExpiry with
    | none =>
      rw [he] at h
      cases h
    | some t =>
      rw [he] at h
      exact ⟨t, he, (Option.some.inj h).symm⟩
  · cases h

/-- A file is given a beginning of what is written to it. -/
theorem Parts.update {file : File} {us : Bytes} (h : Parts v s.dir) {content : Bytes}
    (hc : (s.writes v).lookup file = some content) (hus : us <+: content) :
    Parts v (Function.update s.dir file (some us)) := by
  constructor
  · intro ws hws
    by_cases hf : file = .pendingJson
    · subst hf
      rw [Function.update_self] at hws
      obtain rfl := Option.some.inj hws
      rwa [← lookup_pendingJson hc]
    · rw [Function.update_of_ne (Ne.symm hf)] at hws
      exact h.pending ws hws
  · intro ws hws
    by_cases hf : file = .tunnelJson
    · subst hf
      obtain ⟨t, ht, hcontent⟩ := lookup_tunnelJson hc
      rw [Function.update_self] at hws
      obtain rfl := Option.some.inj hws
      rw [hcontent] at hus
      exact ⟨t, ht, hus⟩
    · rw [Function.update_of_ne (Ne.symm hf)] at hws
      exact h.identity ws hws

theorem parts_step {e : WriteEvent} (h : Parts v s.dir) (hs : s.step v e = some s') : Parts v s'.dir := by
  cases e with
  | call =>
    simp only [Writing.step] at hs
    split at hs
    · obtain rfl := Option.some.inj hs
      exact h
    · obtain rfl := Option.some.inj hs
      exact h
    · cases hs
  | opens file =>
    simp only [Writing.step] at hs
    split at hs
    · rename_i hopen
      obtain rfl := Option.some.inj hs
      obtain ⟨content, hc⟩ := Option.isSome_iff_exists.mp hopen.1
      exact h.update hc (List.nil_prefix)
    · cases hs
  | write file bytes =>
    simp only [Writing.step] at hs
    obtain ⟨content, hc, hs⟩ := Option.bind_eq_some_iff.mp hs
    obtain ⟨done, -, hs⟩ := Option.bind_eq_some_iff.mp hs
    split at hs
    · obtain rfl := Option.some.inj hs
      exact h.update hc (List.take_prefix _ _)
    · cases hs
  | settle =>
    simp only [Writing.step] at hs
    split at hs
    · split at hs
      · obtain rfl := Option.some.inj hs
        exact h
      · obtain rfl := Option.some.inj hs
        exact h
      · cases hs
    · cases hs
  | rm =>
    simp only [Writing.step] at hs
    split at hs
    · obtain rfl := Option.some.inj hs
      refine ⟨fun us hus => ?_, fun us hus => h.identity us hus⟩
      cases hus
    · cases hs

theorem parts_of_reachable (h : Lts.Reachable (writingSystem v) (fun s => s = unwritten) s) : Parts v s.dir := by
  refine h.invariant (I := fun s => Parts v s.dir) ?_ fun s e s' hs hstep => parts_step hs hstep
  rintro s rfl
  exact ⟨fun us hus => (nomatch hus), fun us hus => (nomatch hus)⟩

/-- **A provision that is cut.** Whenever the process dies, the reads give nothing
or what was being saved, and something once `savePending` has completed, exactly
when the metadata on the disk is whole with all that belongs to it. -/
theorem recovers_iff {other : String → Date} {profile : String} {v : Provisioned} {s : Writing}
    (h : Lts.Reachable (writingSystem v) (fun s => s = unwritten) s) : Recovers other profile v s ↔ Whole v s :=
  recovers_of_parts (parts_of_reachable h)

/-! ### `pending.json` before the token -/

/-- A provision. -/
def demoProvisioned : Provisioned where
  pending := ⟨"demo", "demo.shuv.zip", "token", "KEY", "CSR"⟩
  certificate := "CERT"
  chain := "CHAIN"
  expiry := some ⟨1767225600000, by decide⟩

/-- The process dies when `pending.json` is written and the token is not. -/
theorem tokenless_reached : ((writingSystem demoProvisioned).exec unwritten
      [.call, .opens .pendingJson, .write .pendingJson 100]).any (fun s =>
    s.dir .token = none ∧ s.dir .pendingJson = some (pendingText demoProvisioned.pending)) = true := by
  decide

theorem not_recovers : ¬ ∀ (other : String → Date) (profile : String) (v : Provisioned) (s : Writing),
    Lts.Reachable (writingSystem v) (fun s => s = unwritten) s → Recovers other profile v s := by
  intro h
  obtain ⟨s, hs, hends⟩ := (Option.any_eq_true _ _).mp tokenless_reached
  rw [decide_eq_true_eq] at hends
  obtain ⟨htoken, hpending⟩ := hends
  rcases (h (fun _ => none) "default" demoProvisioned s (.of_exec rfl hs)).pending with hload | hload
  · rw [loadPending_eq_none, truthy_readText_eq_none, hpending] at hload
    revert hload
    decide
  · obtain ⟨-, token, -, -, hread, -⟩ := loadPending_eq_some.mp hload
    rw [readText, htoken] at hread
    cases hread

/-- The process dies in `save`, after all of `savePending`: the metadata is opened
and nothing of it written, and the certificate is half written. -/
def interruptedLabels : List WriteEvent :=
  [.call, .opens .pendingJson, .opens .token, .write .pendingJson 100, .opens .privateKey, .write .privateKey 10,
   .write .token 10, .settle, .call, .opens .tunnelJson, .opens .certificate, .write .certificate 2]

theorem interrupted_reached : ((writingSystem demoProvisioned).exec unwritten interruptedLabels).any (fun s =>
    s.dir .pendingJson = some (pendingText demoProvisioned.pending) ∧ s.dir .tunnelJson = some [] ∧
      s.stage.hasPending = true ∧ truthy (readText s.dir .token) = some "token\n" ∧
      truthy (readText s.dir .privateKey) = some "KEY") = true := by
  decide

theorem recovers_interrupted : ∃ s : Writing,
    Lts.Reachable (writingSystem demoProvisioned) (fun s => s = unwritten) s ∧ s.stage.hasPending = true ∧
      s.dir .tunnelJson = some [] ∧ Recovers (fun _ => none) "default" demoProvisioned s := by
  obtain ⟨s, hs, hends⟩ := (Option.any_eq_true _ _).mp interrupted_reached
  rw [decide_eq_true_eq] at hends
  obtain ⟨hpending, htunnel, hstage, htoken, hkey⟩ := hends
  have hr : Lts.Reachable (writingSystem demoProvisioned) (fun s => s = unwritten) s := .of_exec rfl hs
  have hwhole : PendingWhole demoProvisioned s.dir := ⟨hpending, ⟨"token\n", htoken, by decide⟩, hkey⟩
  exact ⟨s, hr, hstage, htunnel,
    (recovers_iff hr).mpr ⟨.inr (.inr hwhole), .inr (.inl htunnel), fun _ => .inl hwhole⟩⟩

end ShuvTunnel
