/-
# Renewed certificates

The loop of `refresh_certificate` and the method `refreshCertificate`, which ask
for the server's certificate and use one that is renewed for new connections.
The acceptor, or secure context, is built before anything is changed, and it
fails for a certificate that does not match the key; both functions are
parameters here.

Rust saves the identity then, and goes on with it when the save fails. A save
that fails between `certificate.pem` and `tunnel.json` leaves the new certificate
with the old chain or expiry on the disk.

Key definitions: `Rust.Refresher`, `Rust.refreshSystem`, `Rust.Refresher.Swapped`,
`Rust.SavesWhole`, `Refreshed`.
Key theorems: `Rust.swapped_of_run`, `hot_swap`.
-/
import ShuvTunnel.Resumption

namespace ShuvTunnel

namespace Rust

/-! ### Rust -/

/-- What `api.certificate` returns, or none for an error. -/
abbrev CertificateAnswer := Option CertificateState

/-- The identity with the certificate that was answered, when that is another. -/
def Identity.renewedBy (identity : Identity) : CertificateAnswer → Option Identity
  | some (.ready certificate chain expiry) =>
    if certificate = identity.certificate then none
    else some { identity with certificate, chain, certificateExpiry := expiry }
  | _ => none

/-- What the loop works on: its identity, the acceptor it shares with the
sessions, and the directory of the profile, when it has a storage. `built` are
the identities for which an acceptor was built, `renewed` the expiries that were
announced. -/
structure Refresher (α : Type) where
  identity : Identity
  acceptor : α
  storage : Option (String × Dir)
  built : List Identity
  renewed : List String

/-- One iteration: the answer, and how many file operations of the save are done,
which fails when they are not all. -/
structure Refresh where
  answer : CertificateAnswer
  done : ℕ

namespace Refresher

variable {α : Type} (acceptor : Identity → Option α)

/-- `storage.save`, as far as it comes. -/
def save (renewed : Identity) (done : ℕ) (storage : String × Dir) : String × Dir :=
  (storage.1, Op.applyAll storage.2 ((saveOps renewed).take done))

/-- One turn of the loop: a certificate that cannot be used changes nothing, and a
save that fails is let go. -/
def iterate (s : Refresher α) (r : Refresh) : Refresher α :=
  match s.identity.renewedBy r.answer with
  | none => s
  | some renewed =>
    match acceptor renewed with
    | some next =>
      { identity := renewed
        acceptor := next
        storage := s.storage.map (save renewed r.done)
        built := s.built ++ [renewed]
        renewed := s.renewed ++ [renewed.certificateExpiry] }
    -- "ignoring renewed certificate that does not match the key"
    | none => s

end Refresher

/-- The loop, whatever is answered and saved. -/
def refreshSystem {α : Type} (acceptor : Identity → Option α) : Lts.System (Refresher α) Refresh :=
  ⟨fun s r => some (s.iterate acceptor r)⟩

/-! ### What an iteration keeps -/

/-- All but the certificate, its chain and its expiry is the same. -/
structure Identity.SameTunnel (a b : Identity) : Prop where
  id : b.id = a.id
  hostname : b.hostname = a.hostname
  token : b.token = a.token
  privateKey : b.privateKey = a.privateKey

/-- Where the loop begins: `Tunnel::start`, with the identity that `connect` has
loaded. -/
structure Refresher.Starts {α : Type} (acceptor : Identity → Option α) (initial : Identity) (s : Refresher α) :
    Prop where
  identity : s.identity = initial
  shared : acceptor initial = some s.acceptor
  built : s.built = [initial]
  storage : ∀ profile dir, s.storage = some (profile, dir) → load profile dir = .ok (some initial)

/-- The acceptor is that of the identity, which is the initial one but for its
certificate. -/
structure Refresher.Swapped {α : Type} (acceptor : Identity → Option α) (initial : Identity) (s : Refresher α) :
    Prop where
  shared : acceptor s.identity = some s.acceptor
  same : initial.SameTunnel s.identity
  built : ∀ i ∈ s.built, (acceptor i).isSome = true ∧ initial.SameTunnel i

/-- The storage holds an identity for which an acceptor was built. -/
def Refresher.StoresBuilt {α : Type} (s : Refresher α) : Prop :=
  ∀ profile dir, s.storage = some (profile, dir) → ∃ i ∈ s.built, load profile dir = .ok (some i)

/-- No acceptor can be built from the answer. -/
def Refresher.Useless {α : Type} (acceptor : Identity → Option α) (s : Refresher α) (answer : CertificateAnswer) :
    Prop :=
  ∀ renewed ∈ s.identity.renewedBy answer, acceptor renewed = none

/-- A save of a renewed identity that stops between `certificate.pem` and
`tunnel.json` finds what the next files hold in them, or what the last held. -/
def SavesWhole {α : Type} (s : Refresher α) (r : Refresh) : Prop :=
  2 < r.done → r.done < 5 → ∀ renewed ∈ s.identity.renewedBy r.answer, ∀ profile dir stored,
    s.storage = some (profile, dir) → load profile dir = .ok (some stored) →
      stored.AgreeBefore r.done renewed ∨ stored.AgreeFrom r.done renewed

variable {α : Type} {acceptor : Identity → Option α} {initial renewed : Identity} {s : Refresher α}

theorem Identity.SameTunnel.trans {a b c : Identity} (h : a.SameTunnel b) (h' : b.SameTunnel c) : a.SameTunnel c :=
  ⟨h'.id.trans h.id, h'.hostname.trans h.hostname, h'.token.trans h.token, h'.privateKey.trans h.privateKey⟩

theorem Identity.sameTunnel_of_renewedBy {identity : Identity} {answer : CertificateAnswer}
    (h : identity.renewedBy answer = some renewed) : identity.SameTunnel renewed := by
  unfold Identity.renewedBy at h
  split at h
  · split at h
    · cases h
    · rw [← Option.some.inj h]
      exact ⟨rfl, rfl, rfl, rfl⟩
  · cases h

/-- An iteration changes nothing, or it takes up an identity whose acceptor was
built. -/
theorem Refresher.iterate_cases (acceptor : Identity → Option α) (s : Refresher α) (r : Refresh) :
    (s.Useless acceptor r.answer ∧ s.iterate acceptor r = s) ∨
    ∃ renewed next, s.identity.renewedBy r.answer = some renewed ∧ acceptor renewed = some next ∧
      s.iterate acceptor r = ⟨renewed, next, s.storage.map (save renewed r.done), s.built ++ [renewed],
        s.renewed ++ [renewed.certificateExpiry]⟩ := by
  unfold Refresher.iterate Refresher.Useless
  cases hrenewed : s.identity.renewedBy r.answer with
  | none => exact .inl ⟨fun _ h => (by cases h), rfl⟩
  | some renewed =>
    dsimp only
    cases hnext : acceptor renewed with
    | none =>
      refine .inl ⟨fun i hi => ?_, rfl⟩
      rw [← Option.some.inj hi]
      exact hnext
    | some next => exact .inr ⟨renewed, next, rfl, hnext, rfl⟩

/-- What no acceptor can be built from changes nothing. -/
theorem Refresher.iterate_useless {r : Refresh} (h : s.Useless acceptor r.answer) : s.iterate acceptor r = s := by
  rcases iterate_cases acceptor s r with ⟨-, hsame⟩ | ⟨renewed, next, hrenewed, hnext, -⟩
  · exact hsame
  · rw [h renewed hrenewed] at hnext
    cases hnext

theorem Refresher.Starts.swapped (h : s.Starts acceptor initial) : s.Swapped acceptor initial where
  shared := by
    rw [h.identity]
    exact h.shared
  same := by
    rw [h.identity]
    exact ⟨rfl, rfl, rfl, rfl⟩
  built i hi := by
    rw [h.built, List.mem_singleton] at hi
    rw [hi, h.shared]
    exact ⟨rfl, rfl, rfl, rfl, rfl⟩

theorem Refresher.Swapped.iterate (h : s.Swapped acceptor initial) (r : Refresh) :
    (s.iterate acceptor r).Swapped acceptor initial := by
  rcases iterate_cases acceptor s r with ⟨-, hsame⟩ | ⟨renewed, next, hrenewed, hnext, hiterate⟩
  · rw [hsame]
    exact h
  · have hsame : initial.SameTunnel renewed := h.same.trans (Identity.sameTunnel_of_renewedBy hrenewed)
    rw [hiterate]
    refine ⟨hnext, hsame, fun i hi => ?_⟩
    rcases List.mem_append.mp hi with hi | hi
    · exact h.built i hi
    · rw [List.mem_singleton.mp hi, hnext]
      exact ⟨rfl, hsame⟩

/-- In every run, after every iteration. -/
theorem swapped_of_run {t : Refresher α} {es : List (Lts.Event (Refresher α) Refresh)} (h : s.Starts acceptor initial)
    (hrun : Lts.Run (refreshSystem acceptor) s es t) :
    ∀ e ∈ es, e.before.Swapped acceptor initial ∧ e.after.Swapped acceptor initial := by
  refine (hrun.invariant (A := fun _ _ => True) (fun s r s' hs _ hstep => ?_) (fun _ _ => trivial) h.swapped).2
  rw [← Option.some.inj hstep]
  exact hs.iterate r

/-! ### What the storage holds -/

/-- Where one identity replaces another of the same tunnel, the token and the key
stay the same, and only the certificate, the chain and the expiry are cut. -/
theorem Identity.agree_of_sameTunnel {stored : Identity} (h : stored.SameTunnel renewed)
    (htrim : trim renewed.token = renewed.token) {done : ℕ}
    (hwhole : 2 < done → done < 5 → stored.AgreeBefore done renewed ∨ stored.AgreeFrom done renewed) :
    stored.AgreeBefore done renewed ∨ stored.AgreeFrom done renewed := by
  by_cases hfirst : done ≤ 2
  · exact .inl ⟨fun _ => htrim.trans h.token, fun _ => h.privateKey, fun _ => by omega, fun _ => by omega,
      fun _ => by omega⟩
  · by_cases hlast : 5 ≤ done
    · refine .inr ⟨?_, fun _ => by omega, fun _ => by omega, fun _ => by omega, fun _ => by omega⟩
      rw [if_pos (by omega)]
      exact htrim
    · exact hwhole (by omega) (by omega)

/-- The token that is stored is trimmed, as the initial one is. -/
structure Refresher.Stored (acceptor : Identity → Option α) (initial : Identity) (s : Refresher α) : Prop where
  swapped : s.Swapped acceptor initial
  stores : s.StoresBuilt
  trimmed : s.storage.isSome = true → trim initial.token = initial.token

theorem Refresher.Starts.stored (h : s.Starts acceptor initial) : s.Stored acceptor initial where
  swapped := h.swapped
  stores profile dir hstorage :=
    ⟨initial, by rw [h.built]; exact List.mem_singleton_self _, h.storage profile dir hstorage⟩
  trimmed hsome := by
    obtain ⟨⟨profile, dir⟩, hstorage⟩ := Option.isSome_iff_exists.mp hsome
    obtain ⟨-, -, htoken, -⟩ := load_eq_some.mp (h.storage profile dir hstorage)
    obtain ⟨text, -, htext⟩ := Option.map_eq_some_iff.mp htoken
    rw [← htext]
    exact trim_trim text

theorem Refresher.Stored.iterate (h : s.Stored acceptor initial) {r : Refresh} (hwhole : SavesWhole s r) :
    (s.iterate acceptor r).Stored acceptor initial := by
  refine ⟨h.swapped.iterate r, ?_, ?_⟩
  · rcases iterate_cases acceptor s r with ⟨-, hsame⟩ | ⟨renewed, next, hrenewed, -, hiterate⟩
    · rw [hsame]
      exact h.stores
    · rw [hiterate]
      intro profile dir' hstorage'
      obtain ⟨⟨profile', dir⟩, hstorage, hsave⟩ := Option.map_eq_some_iff.mp hstorage'
      obtain ⟨rfl, rfl⟩ := Prod.mk.inj hsave
      obtain ⟨stored, hbuilt, hload⟩ := h.stores profile' dir hstorage
      have hsame : stored.SameTunnel renewed := by
        have hstored := (h.swapped.built stored hbuilt).2
        have hcurrent := h.swapped.same.trans (Identity.sameTunnel_of_renewedBy hrenewed)
        exact ⟨hcurrent.id.trans hstored.id.symm, hcurrent.hostname.trans hstored.hostname.symm,
          hcurrent.token.trans hstored.token.symm, hcurrent.privateKey.trans hstored.privateKey.symm⟩
      have htrim : trim renewed.token = renewed.token := by
        rw [(h.swapped.same.trans (Identity.sameTunnel_of_renewedBy hrenewed)).token]
        exact h.trimmed (by rw [hstorage]; rfl)
      have hcut := Identity.agree_of_sameTunnel hsame htrim fun hfirst hlast =>
        hwhole hfirst hlast renewed hrenewed profile' dir stored hstorage hload
      rw [load_cut_save hload]
      rcases hcut with hcut | hcut
      · exact ⟨stored, List.mem_append_left _ hbuilt, by rw [Identity.cut_eq_left.mpr hcut]⟩
      · exact ⟨renewed, List.mem_append_right _ (List.mem_singleton_self _), by rw [Identity.cut_eq_right.mpr hcut]⟩
  · intro hsome
    rcases iterate_cases acceptor s r with ⟨-, hsame⟩ | ⟨renewed, next, -, -, hiterate⟩
    · rw [hsame] at hsome
      exact h.trimmed hsome
    · rw [hiterate, Option.isSome_map] at hsome
      exact h.trimmed hsome

theorem storesBuilt_of_run {t : Refresher α} {es : List (Lts.Event (Refresher α) Refresh)}
    (h : s.Starts acceptor initial) (hrun : Lts.Run (refreshSystem acceptor) s es t)
    (hwhole : ∀ e ∈ es, SavesWhole e.before e.label) : ∀ e ∈ es, e.after.StoresBuilt := by
  intro e he
  refine ((hrun.invariant (I := Refresher.Stored acceptor initial) (fun s r s' hs hw hstep => ?_) hwhole h.stored).2 e
    he).2.stores
  rw [← Option.some.inj hstep]
  exact hs.iterate hw

end Rust

/-! ### TypeScript -/

/-- `body.state` of the answer, taken for an object of strings. -/
structure AnsweredState where
  type : Option String
  certificate : Option String
  chain : Option String
  expiry : Option String

/-- The identity with the certificate of the state, and the text of its expiry,
when that is another; none is what a request that failed gives. -/
def ShuvTunnelIdentity.renewedBy (other : String → Date) (identity : ShuvTunnelIdentity) :
    Option AnsweredState → Option (ShuvTunnelIdentity × String)
  | none => none
  | some state =>
    if state.type = some "ready" then
      match truthy state.certificate, truthy state.expiry with
      | some certificate, some expiry =>
        if certificate = identity.certificate then none
        else some ({ identity with
          certificate := certificate
          chain := state.chain.getD ""
          certificateExpiry := Date.parse other expiry }, expiry)
      | _, _ => none
    else none

/-- The fields of a `Tunnel` that `refreshCertificate` works on, the identities
`onRenewed` was called with and the expiries that were emitted. -/
structure Refreshed (α : Type) where
  identity : ShuvTunnelIdentity
  secureContext : α
  saved : List ShuvTunnelIdentity
  renewed : List String

section

variable {α : Type} (secureContextFor : ShuvTunnelIdentity → Option α) (other : String → Date)

/-- `secureContextFor` throws where it is none, and the `catch` ignores it. -/
def Refreshed.refreshCertificate (s : Refreshed α) (answer : Option AnsweredState) : Refreshed α :=
  match s.identity.renewedBy other answer with
  | none => s
  | some (renewed, expiry) =>
    match secureContextFor renewed with
    | some next => ⟨renewed, next, s.saved ++ [renewed], s.renewed ++ [expiry]⟩
    | none => s

/-- The refreshes of a tunnel; each answer is none when the request failed. -/
def refreshedSystem : Lts.System (Refreshed α) (Option AnsweredState) :=
  ⟨fun s answer => some (s.refreshCertificate secureContextFor other answer)⟩

/-- A renewal leaves the tunnel and its key. -/
structure ShuvTunnelIdentity.SameTunnel (a b : ShuvTunnelIdentity) : Prop where
  id : b.id = a.id
  hostname : b.hostname = a.hostname
  token : b.token = a.token
  privateKey : b.privateKey = a.privateKey

/-- The context in use is that of the identity in use, which is the tunnel's. -/
structure Refreshed.Swapped (initial : ShuvTunnelIdentity) (s : Refreshed α) : Prop where
  shared : secureContextFor s.identity = some s.secureContext
  same : initial.SameTunnel s.identity

/-- The answer brings no certificate that can be used. -/
def Refreshed.Useless (s : Refreshed α) (answer : Option AnsweredState) : Prop :=
  ∀ r ∈ s.identity.renewedBy other answer, secureContextFor r.1 = none

end

section

variable {α : Type} {secureContextFor : ShuvTunnelIdentity → Option α} {other : String → Date}
  {initial renewed : ShuvTunnelIdentity} {expiry : String} {s : Refreshed α}

theorem ShuvTunnelIdentity.sameTunnel_of_renewedBy {identity : ShuvTunnelIdentity} {answer : Option AnsweredState}
    (h : identity.renewedBy other answer = some (renewed, expiry)) : identity.SameTunnel renewed := by
  unfold ShuvTunnelIdentity.renewedBy at h
  split at h
  · cases h
  · split at h
    · split at h
      · split at h
        · cases h
        · rw [← (Prod.mk.inj (Option.some.inj h)).1]
          exact ⟨rfl, rfl, rfl, rfl⟩
      · cases h
    · cases h

theorem Refreshed.refreshCertificate_useless {answer : Option AnsweredState}
    (h : s.Useless secureContextFor other answer) : s.refreshCertificate secureContextFor other answer = s := by
  unfold Refreshed.refreshCertificate
  split
  · rfl
  · rename_i renewed expiry hrenewed
    have hnone : secureContextFor renewed = none := h (renewed, expiry) hrenewed
    rw [hnone]

theorem Refreshed.Swapped.refreshCertificate (h : s.Swapped secureContextFor initial) (answer : Option AnsweredState) :
    (s.refreshCertificate secureContextFor other answer).Swapped secureContextFor initial := by
  unfold Refreshed.refreshCertificate
  split
  · exact h
  · rename_i renewed expiry hrenewed
    have hsame := ShuvTunnelIdentity.sameTunnel_of_renewedBy hrenewed
    split
    · rename_i next hnext
      exact ⟨hnext, hsame.id.trans h.same.id, hsame.hostname.trans h.same.hostname, hsame.token.trans h.same.token,
        hsame.privateKey.trans h.same.privateKey⟩
    · exact h

theorem Refreshed.swapped_of_run {t : Refreshed α} {es : List (Lts.Event (Refreshed α) (Option AnsweredState))}
    (h : s.Swapped secureContextFor initial) (hrun : Lts.Run (refreshedSystem secureContextFor other) s es t) :
    ∀ e ∈ es, e.after.Swapped secureContextFor initial := by
  intro e he
  refine ((hrun.invariant (A := fun _ _ => True) (fun s answer s' hs _ hstep => ?_) (fun _ _ => trivial) h).2 e he).2
  rw [← Option.some.inj hstep]
  exact hs.refreshCertificate answer

end

/-! ### Both clients -/

/-- After every iteration the acceptor, or secure context, is that of the
identity, which is the initial one but for its certificate, and an answer of no
use has changed nothing; and when every save is whole, the storage holds an
identity whose acceptor was built. -/
theorem hot_swap {α β : Type} (acceptor : Rust.Identity → Option α)
    (secureContextFor : ShuvTunnelIdentity → Option β) (other : String → Date) :
    (∀ initial (s t : Rust.Refresher α) es, s.Starts acceptor initial → Lts.Run (Rust.refreshSystem acceptor) s es t →
      (∀ e ∈ es, e.after.Swapped acceptor initial ∧
        (e.before.Useless acceptor e.label.answer → e.after = e.before)) ∧
      ((∀ e ∈ es, Rust.SavesWhole e.before e.label) → ∀ e ∈ es, e.after.StoresBuilt)) ∧
    ∀ initial (s t : Refreshed β) es, s.identity = initial → secureContextFor initial = some s.secureContext →
      Lts.Run (refreshedSystem secureContextFor other) s es t →
      ∀ e ∈ es, e.after.Swapped secureContextFor initial ∧
        (e.before.Useless secureContextFor other e.label → e.after = e.before) := by
  constructor
  · intro initial s t es hstart hrun
    refine ⟨fun e he => ⟨(Rust.swapped_of_run hstart hrun e he).2, fun huseless => ?_⟩,
      Rust.storesBuilt_of_run hstart hrun⟩
    rw [← Option.some.inj (hrun.step_of_mem he)]
    exact Rust.Refresher.iterate_useless huseless
  · rintro initial s t es rfl hcontext hrun
    have hswapped : s.Swapped secureContextFor s.identity := ⟨hcontext, rfl, rfl, rfl, rfl⟩
    refine fun e he => ⟨Refreshed.swapped_of_run hswapped hrun e he, fun huseless => ?_⟩
    rw [← Option.some.inj (hrun.step_of_mem he)]
    exact Refreshed.refreshCertificate_useless huseless

/-! ### A save that fails -/

namespace Rust

/-- A key that matches every certificate. -/
def matching (identity : Identity) : Option Identity := some identity

/-- The loop of a tunnel that `connect` started on the profile. -/
def renewingRefresher : Refresher Identity :=
  ⟨issuedIdentity, issuedIdentity, some ("default", issuedDir), [issuedIdentity], []⟩

/-- The renewed certificate is answered, and the save stops after some
operations. -/
def renewal (done : ℕ) : Refresh := ⟨some (.ready "CERT2" "CHAIN2" "2026-04-01T00:00:00.000Z"), done⟩

theorem starts_renewingRefresher : renewingRefresher.Starts matching issuedIdentity :=
  ⟨rfl, rfl, rfl, fun profile dir h => by
    obtain ⟨rfl, rfl⟩ := Prod.mk.inj (Option.some.inj h)
    exact load_issuedDir⟩

theorem run_renewal (done : ℕ) : Lts.Run (refreshSystem matching) renewingRefresher
    [⟨renewingRefresher, renewal done, renewingRefresher.iterate matching (renewal done)⟩]
    (renewingRefresher.iterate matching (renewal done)) :=
  .single rfl

/-- The save fails behind `certificate.pem`: with the old chain, the new
certificate is the one of no acceptor. -/
theorem not_hot_swap : ¬ ∀ (acceptor : Identity → Option Identity) initial (s t : Refresher Identity) es,
    s.Starts acceptor initial → Lts.Run (refreshSystem acceptor) s es t → ∀ e ∈ es, e.after.StoresBuilt := by
  intro h
  have hstores := h matching issuedIdentity renewingRefresher _ _ starts_renewingRefresher (run_renewal 3) _
    (List.mem_singleton_self _) "default" (Op.applyAll issuedDir ((saveOps renewedIdentity).take 3)) rfl
  rw [load_cut_save load_issuedDir] at hstores
  obtain ⟨i, hi, hload⟩ := hstores
  obtain rfl := Option.some.inj (Except.ok.inj hload)
  have hnot : issuedIdentity.cut renewedIdentity 3 ∉ [issuedIdentity, renewedIdentity] := by decide
  exact hnot hi

end Rust

/-- The same in TypeScript. -/
def renewingTunnel : Refreshed ShuvTunnelIdentity :=
  have identity := ⟨"demo", "demo.shuv.zip", "token", "KEY", "CERT", "CHAIN", none⟩
  ⟨identity, identity, [], []⟩

/-- An answer that brings a renewed certificate. -/
def renewedState : AnsweredState := ⟨some "ready", some "CERT2", some "CHAIN2", some "2026-04-01T00:00:00.000Z"⟩

/-- The renewal is saved whole. -/
theorem hot_swap_renewal :
    ((Rust.renewingRefresher.iterate Rust.matching (Rust.renewal 6)).Swapped Rust.matching Rust.issuedIdentity ∧
      (Rust.renewingRefresher.iterate Rust.matching (Rust.renewal 6)).StoresBuilt) ∧
    (renewingTunnel.refreshCertificate some (fun _ => none) (some renewedState)).Swapped some renewingTunnel.identity := by
  obtain ⟨hrust, htypescript⟩ := hot_swap Rust.matching some fun _ => none
  obtain ⟨hswapped, hstores⟩ := hrust Rust.issuedIdentity Rust.renewingRefresher _ _ Rust.starts_renewingRefresher
    (Rust.run_renewal 6)
  have hwhole : Rust.SavesWhole Rust.renewingRefresher (Rust.renewal 6) := fun _ hlast => absurd hlast (by decide)
  have hrun : Lts.Run (refreshedSystem some fun _ => none) renewingTunnel
      [⟨renewingTunnel, some renewedState, renewingTunnel.refreshCertificate some (fun _ => none) (some renewedState)⟩]
      (renewingTunnel.refreshCertificate some (fun _ => none) (some renewedState)) := .single rfl
  exact ⟨⟨(hswapped _ (List.mem_singleton_self _)).1,
    hstores (List.forall_mem_singleton.mpr hwhole) _ (List.mem_singleton_self _)⟩,
    (htypescript renewingTunnel.identity renewingTunnel _ _ rfl rfl hrun _ (List.mem_singleton_self _)).1⟩

end ShuvTunnel
