/-
# The stored tunnel and what its handlers answer

The record a tunnel's Durable Object keeps under the key `tunnel`
(`stored-tunnel.ts`), the certificate in it (`protocol/certificate.ts`), and
the results of the object's methods. A timestamp is the milliseconds its ISO
text denotes. The constant `version: 1` is left out.
-/
import Mathlib.Data.List.Basic
import Mathlib.Data.Rat.Defs

namespace ShuvTunnel

/-- Milliseconds since the epoch. -/
abbrev Millis := ℤ

/-! ### Certificates -/

/-- `Certificate.State`. -/
inductive CertificateState
  | challenge (token key : String)
  | issuing
  | ready (certificate chain : String) (expiry : Millis)
  | failed (reason : String)
  deriving DecidableEq

namespace CertificateState

/-- The certificate has been issued and is stored. -/
def isReady : CertificateState → Bool
  | ready .. => true
  | _ => false

/-- The workflow gave up, or could not be started. -/
def isFailed : CertificateState → Bool
  | failed .. => true
  | _ => false

/-- Ready or failed: no issuance is in progress. -/
def settled (c : CertificateState) : Bool := c.isReady || c.isFailed

end CertificateState

/-- `Certificate.Info`. -/
structure CertificateInfo where
  id : String
  state : CertificateState
  deriving DecidableEq

/-! ### The record -/

/-- Whether some bridge of the tunnel is attached. -/
inductive TunnelState
  | offline
  | online
  deriving DecidableEq

/-- A renewal issuing alongside the current certificate, which keeps serving
until it completes. -/
structure Renewal where
  certificateID : String
  startedAt : Millis
  deriving DecidableEq

/-- `StoredTunnel`. -/
structure StoredTunnel where
  id : String
  hostname : String
  state : TunnelState
  certificateID : Option String
  tokenHash : String
  createdAt : Millis
  deletedAt : Option Millis
  certificate : Option CertificateInfo
  certificateCsr : Option String
  certificateIdentifiers : Option (List String)
  lastConnectedAt : Option Millis
  renewal : Option Renewal
  deriving DecidableEq

namespace StoredTunnel

/-- `record.certificate?.state`. -/
def certificateState (r : StoredTunnel) : Option CertificateState := r.certificate.map (·.state)

/-- `record.certificate?.state.type === "ready"`. -/
def ready (r : StoredTunnel) : Bool := r.certificateState.any (·.isReady)

/-- A certificate is stored and is neither ready nor failed. -/
def inProgress (r : StoredTunnel) : Bool := r.certificateState.any fun c => !c.settled

/-- The renewal, when it is the one with this id. -/
def renewalOf (r : StoredTunnel) (id : String) : Option Renewal :=
  r.renewal.filter fun x => x.certificateID = id

theorem ready_iff {r : StoredTunnel} :
    r.ready = true ↔ ∃ c, r.certificate = some c ∧ c.state.isReady = true := by
  simp [ready, certificateState, Option.any_eq_true]

theorem inProgress_iff {r : StoredTunnel} :
    r.inProgress = true ↔ ∃ c, r.certificate = some c ∧ c.state.settled = false := by
  simp [inProgress, certificateState, Option.any_eq_true]

theorem renewalOf_eq_some {r : StoredTunnel} {id : String} {x : Renewal} :
    r.renewalOf id = some x ↔ r.renewal = some x ∧ x.certificateID = id := by
  simp [renewalOf, Option.filter_eq_some_iff]

end StoredTunnel

/-- `Tunnel.Info`. -/
structure TunnelInfo where
  id : String
  hostname : String
  state : TunnelState
  certificateID : Option String
  deriving DecidableEq

/-- A string that is neither absent nor empty. -/
def truthy (x : Option String) : Option String := x.filter fun s => s ≠ ""

theorem truthy_eq_some {x : Option String} {a : String} : truthy x = some a ↔ x = some a ∧ a ≠ "" := by
  simp [truthy, Option.filter_eq_some_iff]

/-- `tunnelInfo`: what a client may see of the record. -/
def tunnelView (record : StoredTunnel) : TunnelInfo where
  id := record.id
  hostname := record.hostname
  state := record.state
  certificateID := truthy record.certificateID

/-- `certificateInfo`: what a client may see of the certificate. -/
def certificateView (certificate : CertificateInfo) : CertificateInfo where
  id := certificate.id
  state := certificate.state

/-! ### Results -/

/-- What `info` returns. -/
inductive TunnelInfoResult
  | ok (tunnel : TunnelInfo)
  | notFound
  | unauthorized
  deriving DecidableEq

/-- What `certificate` returns. -/
inductive CertificateResult
  | ok (certificate : CertificateInfo)
  | notFound
  | unauthorized
  | noCertificate
  deriving DecidableEq

/-- What `bindCertificate` returns, with the texts of its errors. -/
inductive BindCertificateResult
  | ok (certificate : CertificateInfo)
  | notFound
  | unauthorized
  | inProgress
  | invalidRequest (message : String)
  | invalidHostname (provided expected : String)
  | workflowUnavailable (message : String)
  deriving DecidableEq

/-- What `remove` returns. -/
inductive RemoveResult
  | ok
  | notFound
  | unauthorized
  deriving DecidableEq

/-- What a method of the object returns: its value, or the error it throws. -/
inductive Result
  | initialized (tunnel : Option TunnelInfo)
  | info (result : TunnelInfoResult)
  | certificate (result : CertificateResult)
  | bindCertificate (result : BindCertificateResult)
  | remove (result : RemoveResult)
  | response (status : ℕ)
  | void
  | thrown (message : String)
  deriving DecidableEq

end ShuvTunnel
