/-
# An interrupted provision

`Client::create` of `client.rs`, run any number of times on one profile, each
run cut by a crash anywhere. What the API answers is any answer; a token it
gives out has no white space around it. `calls` are the requests sent so far,
`issued` the certificates that were answered.

The files of a pending identity are written before its certificate is
requested, `pending.json` last, and those of the identity keep the same token
and key, `tunnel.json` behind the others, so each crash leaves one of the two to
be read (`OnDisk`).

Key definitions: `Rust.Create`, `Rust.createSystem`, `Rust.OnDisk`,
`Rust.Provisioning`.
Key theorems: `Rust.provisioning_of_reachable`, `Rust.create_resumes`.
-/
import ShuvTunnel.CrashCuts
import ShuvTunnel.Lib.Lts

namespace ShuvTunnel

namespace Rust

/-! ### `Client::create` -/

/-- A request to the API. -/
inductive ApiCall
  | create
  | bindCertificate (pending : PendingIdentity)
  | certificate (pending : PendingIdentity)
  deriving DecidableEq

/-- `CertificateState`, as it is answered. -/
inductive CertificateState
  | challenge
  | issuing
  | ready (certificate chain expiry : String)
  | failed (reason : String)

/-- The identity `complete` saves. -/
def identityOf (pending : PendingIdentity) (certificate chain expiry : String) : Identity where
  id := pending.id
  hostname := pending.hostname
  token := pending.token
  privateKey := pending.privateKey
  certificate := certificate
  chain := chain
  certificateExpiry := expiry

/-- The errors `create` ends with, as far as they differ here. -/
inductive CreateError
  | storage (e : Error)
  | hasTunnel
  | api (tag : String)
  | certificateFailed (reason : String)

/-- Where a run of `create` is; `idle` when there is none. Within `save_pending`
and `save` the operations done are counted. -/
inductive Create
  | idle
  | creating
  | savingPending (pending : PendingIdentity) (done : ℕ)
  | requesting (pending : PendingIdentity)
  | binding (pending : PendingIdentity)
  | polling (pending : PendingIdentity)
  | reading (pending : PendingIdentity)
  | saving (pending : PendingIdentity) (identity : Identity) (done : ℕ)
  | ended (result : Except CreateError Identity)

/-- A certificate, and for whom it was issued. -/
structure Issued where
  pending : PendingIdentity
  certificate : String
  chain : String
  expiry : String

/-- The identity that is made of a certificate. -/
def Issued.identity (c : Issued) : Identity := identityOf c.pending c.certificate c.chain c.expiry

/-- A client of one profile: its files, its run of `create`, its requests, and the
certificates that were issued. -/
structure Machine where
  dir : Dir
  create : Create
  calls : List ApiCall
  issued : List Issued

/-- What happens to a run of `create`, and to the service that issues. -/
inductive CreateEvent
  | start
  -- `api.create()` and `provision::generate` are done
  | created (id hostname token privateKey csr : String)
  | fail (tag : String)
  -- the next file operation
  | write
  | request
  | bound
  | poll
  | answered (state : CertificateState)
  | crash

namespace Machine

/-- `create` up to its first request. -/
def start (profile : String) (s : Machine) : Machine :=
  match load profile s.dir with
  | .error e => { s with create := .ended (.error (.storage e)) }
  | .ok (some _) => { s with create := .ended (.error .hasTunnel) }
  | .ok none =>
    match loadPending profile s.dir with
    | .error e => { s with create := .ended (.error (.storage e)) }
    | .ok (some pending) => { s with create := .requesting pending }
    | .ok none => { s with create := .creating, calls := s.calls ++ [.create] }

/-- The next operation of `save_pending` or `save`. -/
def write (s : Machine) : Option Machine :=
  match s.create with
  | .savingPending pending done =>
    ((savePendingOps pending)[done]?).map fun op =>
      { s with
        dir := op.apply s.dir
        create := if done + 1 < (savePendingOps pending).length then .savingPending pending (done + 1)
          else .requesting pending }
  | .saving pending identity done =>
    ((saveOps identity)[done]?).map fun op =>
      { s with
        dir := op.apply s.dir
        create := if done + 1 < (saveOps identity).length then .saving pending identity (done + 1)
          else .ended (.ok identity) }
  | _ => none

/-- What comes behind an event; a crash may come at any time. -/
def step (profile : String) (s : Machine) : CreateEvent → Option Machine
  | .start =>
    match s.create with
    | .idle | .ended _ => some (s.start profile)
    | _ => none
  | .created id hostname token privateKey csr =>
    match s.create with
    | .creating =>
      if trim token = token then
        some { s with create := .savingPending ⟨id, hostname, token, privateKey, csr⟩ 0 }
      else none
    | _ => none
  -- "A resumed provision may already have an issuance in flight."
  | .fail tag =>
    match s.create with
    | .creating | .polling _ | .reading _ => some { s with create := .ended (.error (.api tag)) }
    | .binding pending =>
      some { s with
        create := if tag = "CertificateInProgressError" then .polling pending else .ended (.error (.api tag)) }
    | _ => none
  | .write => s.write
  | .request =>
    match s.create with
    | .requesting pending => some { s with create := .binding pending, calls := s.calls ++ [.bindCertificate pending] }
    | _ => none
  | .bound =>
    match s.create with
    | .binding pending => some { s with create := .polling pending }
    | _ => none
  | .poll =>
    match s.create with
    | .polling pending => some { s with create := .reading pending, calls := s.calls ++ [.certificate pending] }
    | _ => none
  | .answered state =>
    match s.create with
    | .reading pending =>
      match state with
      | .ready certificate chain expiry =>
        some { s with
          create := .saving pending (identityOf pending certificate chain expiry) 0
          issued := s.issued ++ [⟨pending, certificate, chain, expiry⟩] }
      | .failed reason => some { s with create := .ended (.error (.certificateFailed reason)) }
      | .challenge | .issuing => some { s with create := .polling pending }
    | _ => none
  | .crash => some { s with create := .idle }

end Machine

/-- The runs of `create` on a profile. -/
def createSystem (profile : String) : Lts.System Machine CreateEvent := ⟨Machine.step profile⟩

/-- An empty profile. -/
def freshMachine : Machine := { dir := fun _ => none, create := .idle, calls := [], issued := [] }

/-! ### What is on the disk -/

/-- The token and the key of a pending identity are there. -/
structure HoldsKey (p : PendingIdentity) (dir : Dir) : Prop where
  token : dir .token = some (utf8 (line p.token))
  privateKey : dir .privateKey = some (utf8 p.privateKey)
  trimmed : trim p.token = p.token

/-- `pending.json` is that of the pending identity. -/
def HoldsPending (p : PendingIdentity) (dir : Dir) : Prop :=
  dir .pendingJson = some (utf8 (toJson [("id", p.id), ("hostname", p.hostname), ("csr", p.csr)]))

/-- The other files of an identity are there. -/
structure HoldsIdentity (i : Identity) (dir : Dir) : Prop where
  certificate : dir .certificate = some (utf8 i.certificate)
  chain : dir .chain = some (utf8 i.chain)
  tunnelJson : dir .tunnelJson = some (utf8 (toJson
    [("id", i.id), ("hostname", i.hostname), ("certificateExpiry", i.certificateExpiry)]))

/-- What a crash leaves: nothing that is read, a pending identity, or an
identity that was issued for it. -/
inductive OnDisk (issued : List Issued) (dir : Dir) : Option PendingIdentity → Prop
  | nothing (h : dir .tunnelJson = none) (hp : dir .pendingJson = none) : OnDisk issued dir none
  | pending {p : PendingIdentity} (h : dir .tunnelJson = none) (hk : HoldsKey p dir) (hp : HoldsPending p dir) :
      OnDisk issued dir (some p)
  | identity {p : PendingIdentity} {c : Issued} (hk : HoldsKey p dir) (hi : HoldsIdentity c.identity dir)
      (hc : c ∈ issued) (hcp : c.pending = p) : OnDisk issued dir (some p)

variable {profile : String} {dir : Dir} {issued : List Issued} {p : PendingIdentity} {i : Identity}

theorem load_of_holds (hvalid : isLabel profile = true) {c : Issued} (hk : HoldsKey c.pending dir)
    (hi : HoldsIdentity c.identity dir) : load profile dir = .ok (some c.identity) := by
  refine load_eq_some.mpr ⟨hvalid, ?_, ?_, ?_, ?_, ?_⟩
  · exact metadata_of_toJson (by decide) (by decide) (by decide) hi.tunnelJson
  · rw [text_of_eq hk.token, Option.map_some, trim_line, hk.trimmed]
    rfl
  · exact text_of_eq hk.privateKey
  · exact text_of_eq hi.certificate
  · exact text_of_eq hi.chain

theorem loadPending_of_holds (hvalid : isLabel profile = true) (hk : HoldsKey p dir) (hp : HoldsPending p dir) :
    loadPending profile dir = .ok (some p) := by
  refine loadPending_eq_some.mpr ⟨hvalid, ?_, ?_, ?_⟩
  · exact metadata_of_toJson (by decide) (by decide) (by decide) hp
  · rw [text_of_eq hk.token, Option.map_some, trim_line, hk.trimmed]
  · exact text_of_eq hk.privateKey

/-! ### What holds while it runs -/

/-- In the midst of `save_pending`: its first operations are done. -/
structure SavesPending (p : PendingIdentity) (done : ℕ) (dir : Dir) : Prop where
  left : done < 3
  trimmed : trim p.token = p.token
  noTunnel : dir .tunnelJson = none
  noPending : dir .pendingJson = none
  token : 0 < done → dir .token = some (utf8 (line p.token))
  privateKey : 1 < done → dir .privateKey = some (utf8 p.privateKey)

/-- In the midst of `save`. -/
structure Saves (p : PendingIdentity) (i : Identity) (done : ℕ) (dir : Dir) : Prop where
  left : done < 6
  key : HoldsKey p dir
  pending : HoldsPending p dir
  certificate : 2 < done → dir .certificate = some (utf8 i.certificate)
  chain : 3 < done → dir .chain = some (utf8 i.chain)
  tunnelJson : dir .tunnelJson = if 4 < done then some (utf8 (toJson
    [("id", i.id), ("hostname", i.hostname), ("certificateExpiry", i.certificateExpiry)])) else none

/-- What is on the disk while `create` is there; `owner` is the pending identity
that is on it. -/
inductive Running (issued : List Issued) (dir : Dir) : Create → Option PendingIdentity → Prop
  | idle {owner : Option PendingIdentity} (h : OnDisk issued dir owner) : Running issued dir .idle owner
  | ended {owner : Option PendingIdentity} (result : Except CreateError Identity) (h : OnDisk issued dir owner) :
      Running issued dir (.ended result) owner
  | creating (h : dir .tunnelJson = none) (hp : dir .pendingJson = none) : Running issued dir .creating none
  | savingPending {p : PendingIdentity} {done : ℕ} (h : SavesPending p done dir) :
      Running issued dir (.savingPending p done) none
  | waiting {p : PendingIdentity} {c : Create} (hc : c = .requesting p ∨ c = .binding p ∨ c = .polling p ∨ c = .reading p)
      (h : dir .tunnelJson = none) (hk : HoldsKey p dir) (hp : HoldsPending p dir) : Running issued dir c (some p)
  | saving {p : PendingIdentity} {done : ℕ} {c : Issued} (hc : c ∈ issued) (hcp : c.pending = p)
      (h : Saves p c.identity done dir) : Running issued dir (.saving p c.identity done) (some p)

/-- A certificate was requested for the owner only, and no tunnel was created
since. -/
def Asked (calls : List ApiCall) : Option PendingIdentity → Prop
  | none => ∀ c ∈ calls, c = .create
  | some p => ∃ before after, calls = before ++ after ∧ (∀ c ∈ before, c = .create) ∧
      ∀ c ∈ after, c = .bindCertificate p ∨ c = .certificate p

/-- What holds of a client at all times. -/
def Provisioning (s : Machine) : Prop := ∃ owner, Running s.issued s.dir s.create owner ∧ Asked s.calls owner

/-- A crash leaves what can be read. -/
theorem Running.onDisk {c : Create} {owner : Option PendingIdentity} (h : Running issued dir c owner) :
    OnDisk issued dir owner := by
  cases h with
  | idle h | ended _ h => exact h
  | creating h hp => exact .nothing h hp
  | savingPending h => exact .nothing h.noTunnel h.noPending
  | waiting _ h hk hp => exact .pending h hk hp
  | saving hc hcp h =>
    have htunnel := h.tunnelJson
    split at htunnel
    · rename_i hdone
      exact .identity h.key ⟨h.certificate (by omega), h.chain (by omega), htunnel⟩ hc hcp
    · exact .pending htunnel h.key h.pending

theorem Asked.of_create {calls : List ApiCall} (h : ∀ c ∈ calls, c = .create) (owner : Option PendingIdentity) :
    Asked calls owner := by
  cases owner with
  | none => exact h
  | some p => exact ⟨calls, [], by simp, h, by simp⟩

theorem Asked.call {calls : List ApiCall} (h : Asked calls (some p)) {c : ApiCall}
    (hc : c = .bindCertificate p ∨ c = .certificate p) : Asked (calls ++ [c]) (some p) := by
  obtain ⟨before, after, rfl, hbefore, hafter⟩ := h
  refine ⟨before, after ++ [c], by simp, hbefore, fun d hd => ?_⟩
  rcases List.mem_append.mp hd with hd | hd
  · exact hafter d hd
  · rw [List.mem_singleton.mp hd]
    exact hc

/-- Who was asked for is the owner. -/
theorem Asked.owner_eq {calls : List ApiCall} {owner : Option PendingIdentity} (h : Asked calls owner)
    (hp : .bindCertificate p ∈ calls) : owner = some p := by
  cases owner with
  | none => cases h _ hp
  | some q =>
    obtain ⟨before, after, rfl, hbefore, hafter⟩ := h
    rcases List.mem_append.mp hp with hp | hp
    · cases hbefore _ hp
    · rcases hafter _ hp with he | he
      · rw [ApiCall.bindCertificate.inj he]
      · cases he

/-- Behind a request no tunnel is created. -/
theorem Asked.no_create {calls before after : List ApiCall} (h : Asked calls (some p))
    (hcalls : calls = before ++ .bindCertificate p :: after) : .create ∉ after := by
  intro hcreate
  obtain ⟨before', after', hcalls', hbefore', hafter'⟩ := h
  -- the request is among the calls for the owner, and so is what is behind it
  have hmem : .create ∈ after' := by
    rw [hcalls', List.append_eq_append_iff] at hcalls
    rcases hcalls with ⟨middle, rfl, hmiddle⟩ | ⟨middle, rfl, hmiddle⟩
    · rw [hmiddle]
      exact List.mem_append_right _ (List.mem_cons_of_mem _ hcreate)
    · cases middle with
      | nil =>
        rw [List.nil_append] at hmiddle
        rw [← hmiddle]
        exact List.mem_cons_of_mem _ hcreate
      | cons c middle =>
        obtain ⟨rfl, -⟩ := List.cons.inj hmiddle
        cases hbefore' (.bindCertificate p) (List.mem_append_right _ List.mem_cons_self)
  rcases hafter' _ hmem with he | he
  · cases he
  · cases he

section Steps

variable {s s' : Machine}

theorem provisioning_start (h : Provisioning s) : Provisioning (s.start profile) := by
  obtain ⟨owner, hrun, hasked⟩ := h
  have hdisk := hrun.onDisk
  unfold Machine.start
  split
  · exact ⟨owner, .ended _ hdisk, hasked⟩
  · exact ⟨owner, .ended _ hdisk, hasked⟩
  · rename_i hload
    obtain ⟨hvalid, hnone⟩ := load_eq_none.mp hload
    cases hdisk with
    | nothing hn hp =>
      rw [loadPending_eq_none.mpr ⟨hvalid, hp⟩]
      refine ⟨none, .creating hn hp, fun c hc => ?_⟩
      rcases List.mem_append.mp hc with hc | hc
      · exact hasked c hc
      · exact List.mem_singleton.mp hc
    | pending hn hk hp =>
      rw [loadPending_of_holds hvalid hk hp]
      exact ⟨_, .waiting (.inl rfl) hn hk hp, hasked⟩
    | identity _ hi =>
      rw [hi.tunnelJson] at hnone
      cases hnone

/-- One more operation of `save_pending`. -/
theorem SavesPending.next {done : ℕ} (h : SavesPending p done dir) {op : Op} (hop : (savePendingOps p)[done]? = some op) :
    if done + 1 < 3 then SavesPending p (done + 1) (op.apply dir)
    else op.apply dir .tunnelJson = none ∧ HoldsKey p (op.apply dir) ∧ HoldsPending p (op.apply dir) := by
  obtain ⟨hleft, htrim, htunnel, hpending, htoken, hkey⟩ := h
  have hcases : done = 0 ∨ done = 1 ∨ done = 2 := by omega
  rcases hcases with rfl | rfl | rfl
  · obtain rfl := Option.some.inj hop
    exact ⟨by decide, htrim, htunnel, hpending, fun _ => rfl, fun h => absurd h (by decide)⟩
  · obtain rfl := Option.some.inj hop
    exact ⟨by decide, htrim, htunnel, hpending, fun _ => htoken (by decide), fun _ => rfl⟩
  · obtain rfl := Option.some.inj hop
    exact ⟨htunnel, ⟨htoken (by decide), hkey (by decide), htrim⟩, rfl⟩

/-- One more operation of `save`. -/
theorem Saves.next {done : ℕ} {c : Issued} (h : Saves c.pending c.identity done dir) {op : Op}
    (hop : (saveOps c.identity)[done]? = some op) :
    if done + 1 < 6 then Saves c.pending c.identity (done + 1) (op.apply dir)
    else HoldsKey c.pending (op.apply dir) ∧ HoldsIdentity c.identity (op.apply dir) := by
  obtain ⟨hleft, ⟨htoken, hkey, htrim⟩, hpending, hcertificate, hchain, htunnel⟩ := h
  have hcases : done = 0 ∨ done = 1 ∨ done = 2 ∨ done = 3 ∨ done = 4 ∨ done = 5 := by omega
  rcases hcases with rfl | rfl | rfl | rfl | rfl | rfl
  · obtain rfl := Option.some.inj hop
    exact ⟨by decide, ⟨rfl, hkey, htrim⟩, hpending, fun h => absurd h (by decide), fun h => absurd h (by decide), htunnel⟩
  · obtain rfl := Option.some.inj hop
    exact ⟨by decide, ⟨htoken, rfl, htrim⟩, hpending, fun h => absurd h (by decide), fun h => absurd h (by decide), htunnel⟩
  · obtain rfl := Option.some.inj hop
    exact ⟨by decide, ⟨htoken, hkey, htrim⟩, hpending, fun _ => rfl, fun h => absurd h (by decide), htunnel⟩
  · obtain rfl := Option.some.inj hop
    exact ⟨by decide, ⟨htoken, hkey, htrim⟩, hpending, fun _ => hcertificate (by decide), fun _ => rfl, htunnel⟩
  · obtain rfl := Option.some.inj hop
    exact ⟨by decide, ⟨htoken, hkey, htrim⟩, hpending, fun _ => hcertificate (by decide), fun _ => hchain (by decide), rfl⟩
  · obtain rfl := Option.some.inj hop
    exact ⟨⟨htoken, hkey, htrim⟩, hcertificate (by decide), hchain (by decide), htunnel⟩

theorem provisioning_write (h : Provisioning s) (hw : s.write = some s') : Provisioning s' := by
  obtain ⟨owner, hrun, hasked⟩ := h
  obtain ⟨dir, create, calls, issued⟩ := s
  unfold Machine.write at hw
  cases hrun with
  | savingPending hs =>
    obtain ⟨op, hop, rfl⟩ := Option.map_eq_some_iff.mp hw
    have hnext := hs.next hop
    have hlen : ∀ p, (savePendingOps p).length = 3 := fun _ => rfl
    dsimp only
    rw [hlen]
    split at hnext
    · rename_i hlt
      rw [if_pos hlt]
      exact ⟨none, .savingPending hnext, hasked⟩
    · rename_i hlt
      rw [if_neg hlt]
      obtain ⟨hn, hk, hp⟩ := hnext
      exact ⟨_, .waiting (.inl rfl) hn hk hp, Asked.of_create hasked _⟩
  | saving hc hcp hs =>
    rename_i c
    subst hcp
    obtain ⟨op, hop, rfl⟩ := Option.map_eq_some_iff.mp hw
    have hnext := hs.next hop
    have hlen : ∀ i, (saveOps i).length = 6 := fun _ => rfl
    dsimp only
    rw [hlen]
    split at hnext
    · rename_i hlt
      rw [if_pos hlt]
      exact ⟨_, .saving hc rfl hnext, hasked⟩
    · rename_i hlt
      rw [if_neg hlt]
      exact ⟨_, .ended _ (.identity hnext.1 hnext.2 hc rfl), hasked⟩
  | waiting hc =>
    rcases hc with rfl | rfl | rfl | rfl <;> cases hw
  | _ => cases hw

/-- `create` waits for an answer, or for its turn to ask. -/
theorem Running.of_waiting {c : Create} {owner : Option PendingIdentity} (h : Running issued dir c owner)
    (hc : c = .requesting p ∨ c = .binding p ∨ c = .polling p ∨ c = .reading p) :
    owner = some p ∧ dir .tunnelJson = none ∧ HoldsKey p dir ∧ HoldsPending p dir := by
  cases h with
  | waiting hc' hn hk hp =>
    rename_i q
    have hq : q = p := by
      rcases hc with rfl | rfl | rfl | rfl <;> rcases hc' with he | he | he | he <;> cases he <;> rfl
    subst hq
    exact ⟨rfl, hn, hk, hp⟩
  | _ => rcases hc with he | he | he | he <;> cases he

theorem provisioning_step {e : CreateEvent} (h : Provisioning s) (hs : Machine.step profile s e = some s') :
    Provisioning s' := by
  have hcrash := h
  obtain ⟨owner, hrun, hasked⟩ := hcrash
  have hdisk := hrun.onDisk
  cases e with
  | start =>
    simp only [Machine.step] at hs
    split at hs
    · obtain rfl := Option.some.inj hs
      exact provisioning_start h
    · obtain rfl := Option.some.inj hs
      exact provisioning_start h
    · cases hs
  | created id hostname token privateKey csr =>
    simp only [Machine.step] at hs
    split at hs
    · rename_i hc
      split at hs
      · rename_i htrim
        obtain rfl := Option.some.inj hs
        rw [hc] at hrun
        cases hrun with
        | creating hn hp =>
          exact ⟨none, .savingPending ⟨by decide, htrim, hn, hp, fun h => absurd h (by decide),
            fun h => absurd h (by decide)⟩, hasked⟩
        | waiting hc => rcases hc with he | he | he | he <;> cases he
      · cases hs
    · cases hs
  | fail tag =>
    simp only [Machine.step] at hs
    split at hs
    · obtain rfl := Option.some.inj hs
      exact ⟨owner, .ended _ hdisk, hasked⟩
    · obtain rfl := Option.some.inj hs
      exact ⟨owner, .ended _ hdisk, hasked⟩
    · obtain rfl := Option.some.inj hs
      exact ⟨owner, .ended _ hdisk, hasked⟩
    · rename_i p hc
      obtain rfl := Option.some.inj hs
      rw [hc] at hrun
      obtain ⟨rfl, hn, hk, hp⟩ := hrun.of_waiting (.inr (.inl rfl))
      split
      · exact ⟨some p, .waiting (.inr (.inr (.inl rfl))) hn hk hp, hasked⟩
      · exact ⟨some p, .ended _ hdisk, hasked⟩
    · cases hs
  | write => exact provisioning_write h hs
  | request =>
    simp only [Machine.step] at hs
    split at hs
    · rename_i p hc
      obtain rfl := Option.some.inj hs
      rw [hc] at hrun
      obtain ⟨rfl, hn, hk, hp⟩ := hrun.of_waiting (.inl rfl)
      exact ⟨some p, .waiting (.inr (.inl rfl)) hn hk hp, hasked.call (.inl rfl)⟩
    · cases hs
  | bound =>
    simp only [Machine.step] at hs
    split at hs
    · rename_i p hc
      obtain rfl := Option.some.inj hs
      rw [hc] at hrun
      obtain ⟨rfl, hn, hk, hp⟩ := hrun.of_waiting (.inr (.inl rfl))
      exact ⟨some p, .waiting (.inr (.inr (.inl rfl))) hn hk hp, hasked⟩
    · cases hs
  | poll =>
    simp only [Machine.step] at hs
    split at hs
    · rename_i p hc
      obtain rfl := Option.some.inj hs
      rw [hc] at hrun
      obtain ⟨rfl, hn, hk, hp⟩ := hrun.of_waiting (.inr (.inr (.inl rfl)))
      exact ⟨some p, .waiting (.inr (.inr (.inr rfl))) hn hk hp, hasked.call (.inr rfl)⟩
    · cases hs
  | answered state =>
    simp only [Machine.step] at hs
    split at hs
    · rename_i p hc
      rw [hc] at hrun
      obtain ⟨rfl, hn, hk, hp⟩ := hrun.of_waiting (.inr (.inr (.inr rfl)))
      split at hs
      · rename_i certificate chain expiry
        obtain rfl := Option.some.inj hs
        refine ⟨some p, ?_, hasked⟩
        refine .saving (c := ⟨p, certificate, chain, expiry⟩) (List.mem_append_right _ List.mem_cons_self) rfl ?_
        exact ⟨by decide, hk, hp, fun h => absurd h (by decide), fun h => absurd h (by decide), hn⟩
      · obtain rfl := Option.some.inj hs
        exact ⟨some p, .ended _ hdisk, hasked⟩
      · obtain rfl := Option.some.inj hs
        exact ⟨some p, .waiting (.inr (.inr (.inl rfl))) hn hk hp, hasked⟩
      · obtain rfl := Option.some.inj hs
        exact ⟨some p, .waiting (.inr (.inr (.inl rfl))) hn hk hp, hasked⟩
    · cases hs
  | crash =>
    obtain rfl := Option.some.inj hs
    exact ⟨owner, .idle hdisk, hasked⟩

end Steps

theorem provisioning_of_reachable {s : Machine}
    (h : Lts.Reachable (createSystem profile) (fun s => s = freshMachine) s) : Provisioning s := by
  refine h.invariant (I := Provisioning) ?_ fun s e s' hs hstep => provisioning_step hs hstep
  rintro s rfl
  exact ⟨none, .idle (.nothing rfl rfl), fun c hc => absurd hc List.not_mem_nil⟩

/-- With a name that is not valid nothing is asked. -/
theorem calls_of_invalid (hvalid : ¬ isLabel profile = true) {s : Machine}
    (h : Lts.Reachable (createSystem profile) (fun s => s = freshMachine) s) : s.calls = [] := by
  have hinv : s.calls = [] ∧ (s.create = .idle ∨ ∃ result, s.create = .ended result) := by
    refine h.invariant (I := fun s => s.calls = [] ∧ (s.create = .idle ∨ ∃ result, s.create = .ended result)) ?_ ?_
    · rintro s rfl
      exact ⟨rfl, .inl rfl⟩
    · rintro s e s' ⟨hcalls, hcreate⟩ hstep
      have hload : ∃ e, load profile s.dir = .error e := by
        cases hl : load profile s.dir with
        | error e => exact ⟨e, rfl⟩
        | ok x =>
          cases x with
          | none => exact absurd (load_eq_none.mp hl).1 hvalid
          | some i => exact absurd (load_eq_some.mp hl).1 hvalid
      obtain ⟨err, hload⟩ := hload
      have hstart : (s.start profile).calls = [] ∧ ∃ result, (s.start profile).create = .ended result := by
        unfold Machine.start
        rw [hload]
        exact ⟨hcalls, _, rfl⟩
      have hstep : Machine.step profile s e = some s' := hstep
      cases e with
      | start =>
        rcases hcreate with hc | ⟨result, hc⟩
        · simp only [Machine.step, hc] at hstep
          obtain rfl := Option.some.inj hstep
          exact ⟨hstart.1, .inr hstart.2⟩
        · simp only [Machine.step, hc] at hstep
          obtain rfl := Option.some.inj hstep
          exact ⟨hstart.1, .inr hstart.2⟩
      | crash =>
        obtain rfl := Option.some.inj hstep
        exact ⟨hcalls, .inl rfl⟩
      | _ =>
        rcases hcreate with hc | ⟨result, hc⟩
        · simp [Machine.step, Machine.write, hc] at hstep
        · simp [Machine.step, Machine.write, hc] at hstep
  exact hinv.1

/-- **An interrupted provision resumes.** Once a certificate was requested for a
pending identity, `load` gives at every later point the identity with one of the
certificates that were issued for it, and `create` ends; or there is none,
`load_pending` gives the pending identity, and `create` goes on with it. No other
tunnel is created. -/
theorem create_resumes {profile : String} {s : Machine}
    (h : Lts.Reachable (createSystem profile) (fun s => s = freshMachine) s) {p : PendingIdentity}
    (hp : .bindCertificate p ∈ s.calls) :
    ((∃ c ∈ s.issued, c.pending = p ∧ load profile s.dir = .ok (some c.identity) ∧
        (s.start profile).create = .ended (.error .hasTunnel)) ∨
      (load profile s.dir = .ok none ∧ loadPending profile s.dir = .ok (some p) ∧
        (s.start profile).create = .requesting p)) ∧
    (s.start profile).calls = s.calls ∧
    ∀ before after, s.calls = before ++ .bindCertificate p :: after → .create ∉ after := by
  have hvalid : isLabel profile = true := by
    by_contra hv
    rw [calls_of_invalid hv h] at hp
    cases hp
  obtain ⟨owner, hrun, hasked⟩ := provisioning_of_reachable h
  have howner := hasked.owner_eq hp
  subst howner
  have hload : (∃ c ∈ s.issued, c.pending = p ∧ load profile s.dir = .ok (some c.identity)) ∨
      (load profile s.dir = .ok none ∧ loadPending profile s.dir = .ok (some p)) := by
    cases hrun.onDisk with
    | pending hn hk hpend => exact .inr ⟨load_eq_none.mpr ⟨hvalid, hn⟩, loadPending_of_holds hvalid hk hpend⟩
    | identity hk hi hc hcp =>
      rename_i c
      subst hcp
      exact .inl ⟨c, hc, rfl, load_of_holds hvalid hk hi⟩
  refine ⟨?_, ?_, ?_⟩
  · rcases hload with ⟨c, hc, hcp, hl⟩ | ⟨hn, hl⟩
    · refine .inl ⟨c, hc, hcp, hl, ?_⟩
      rw [Machine.start, hl]
    · refine .inr ⟨hn, hl, ?_⟩
      rw [Machine.start, hn]
      dsimp only
      rw [hl]
  · rcases hload with ⟨c, hc, hcp, hl⟩ | ⟨hn, hl⟩
    · rw [Machine.start, hl]
    · rw [Machine.start, hn]
      dsimp only
      rw [hl]
  · exact fun before after hcalls => hasked.no_create hcalls

/-- A pending identity. -/
def demoPending : PendingIdentity := ⟨"demo", "demo.shuv.zip", "token", "KEY", "CSR"⟩

/-- A run that is cut while it saves the identity, and the next one. -/
def cutProvision : List CreateEvent :=
  [.start, .created "demo" "demo.shuv.zip" "token" "KEY" "CSR", .write, .write, .write, .request, .bound, .poll,
   .answered (.ready "CERT" "CHAIN" "2026-01-01T00:00:00.000Z"), .write, .write, .write, .crash, .start]

theorem cutProvision_asks : ((createSystem "default").exec freshMachine cutProvision).any (fun s =>
    decide (.bindCertificate demoPending ∈ s.calls)) = true := by
  decide

theorem create_resumes_cut : ∃ s : Machine,
    Lts.Reachable (createSystem "default") (fun s => s = freshMachine) s ∧
    .bindCertificate demoPending ∈ s.calls ∧ (s.start "default").calls = s.calls := by
  obtain ⟨s, hs, hmem⟩ := (Option.any_eq_true _ _).mp cutProvision_asks
  rw [decide_eq_true_eq] at hmem
  have hr : Lts.Reachable (createSystem "default") (fun s => s = freshMachine) s := .of_exec rfl hs
  exact ⟨s, hr, hmem, (create_resumes hr hmem).2.1⟩

end Rust

end ShuvTunnel
