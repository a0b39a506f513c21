/-
# What outlives the object's memory

The durable side of one tunnel: the stored record and the alarm of its
Durable Object, the clock, and the instances of its certificate workflows.
The storage operations of a handler run without another handler in between
(the object's input gate), so each is a function here; `updateCertificate`,
`scheduleRenewal` and `initializeTunnel` await nothing else and are whole handlers.

Three lists record what happened and are read by no code: `minted` (the
certificate ids drawn and the CSR each was drawn for; `crypto.randomUUID`
never repeats), `creates` (the calls of `CERTIFICATES.create`) and
`deliveries` (the states workflows posted).
-/
import ShuvTunnel.Bridge

namespace ShuvTunnel

/-! ### What is not in the repository -/

/-- A parsed PKCS#10 request: whether its signature verifies, its common name
and the DNS names of its `subjectAltName` extension, `some []` when it has
none and `none` when the extension does not parse. -/
structure CertificateRequest where
  verified : Bool
  commonName : String
  dnsNames : Option (List String)

/-- The names a request asks for: its DNS names, or else its common name. -/
def CertificateRequest.identifiers (request : CertificateRequest) : Option (List String) :=
  request.dnsNames.map fun names => setOf (if names.isEmpty then [request.commonName] else names)

/-- The code the object runs on: SHA-256 in hexadecimal, the PKCS#10 parser
(which rejects the empty text), the certificate authority (`issuedFor` is the
CSR a certificate was issued for), and whether `send` on a socket that is not
open throws or drops the message. -/
structure Platform where
  hashToken : String → String
  decodeCsr : String → Option CertificateRequest
  decodeCsr_empty : decodeCsr "" = none
  issuedFor : String → String
  sendThrows : Bool

/-! ### Certificate workflows -/

/-- The parameters an instance of the certificate workflow is created with. -/
structure CertificateWorkflowParams where
  tunnelID : String
  certificateID : String
  hostname : String
  identifiers : List String
  csr : String
  deriving DecidableEq

/-- `InstanceStatus` of Cloudflare Workflows. -/
inductive WorkflowStatus
  | queued
  | running
  | paused
  | errored
  | terminated
  | complete
  | waiting
  | waitingForPause
  | unknown
  deriving DecidableEq

namespace WorkflowStatus

/-- The instance is not restarted by `create`. -/
def finished : WorkflowStatus → Bool
  | errored => true
  | terminated => true
  | complete => true
  | _ => false

end WorkflowStatus

/-- Where `CertificateWorkflow.run` is: in an attempt of `issue certificate`
before its challenge is posted, after it, and after the certificate is; in
`record certificate failure` before the failure is posted, and after it. -/
inductive Phase
  | ordering
  | validating
  | delivered
  | recording (reason : String)
  | recorded (reason : String)
  deriving DecidableEq

/-- A workflow instance. Its id is `params.certificateID`. -/
structure Instance where
  params : CertificateWorkflowParams
  status : WorkflowStatus
  attempt : ℕ
  phase : Phase
  deriving DecidableEq

/-! ### The durable state -/

/-- The storage of the object, its alarm, and the workflow service as the object
uses it; with the UUIDs drawn and the deliveries made, which nothing reads. -/
structure Durable where
  now : Millis
  record : Option StoredTunnel
  alarm : Option Millis
  instances : List Instance
  minted : List (String × String)
  creates : List CertificateWorkflowParams
  deliveries : List (String × CertificateState)

/-- The milliseconds of a day. -/
def DAY_MS : Millis := 24 * 60 * 60 * 1000
/-- Renew this long before the current certificate expires. -/
def RENEW_BEFORE_MS : Millis := 30 * DAY_MS
/-- Tunnels with no connection in this window are not renewed and expire. -/
def ACTIVE_WINDOW_MS : Millis := 90 * DAY_MS

/-- A renewal that failed is tried again after this long. -/
def RENEWAL_RETRY_MS : Millis := 60 * 60 * 1000
/-- A renewal still running after this long is treated as lost and restarted. -/
def RENEWAL_STALE_MS : Millis := DAY_MS

namespace Durable

/-- `storage.put("tunnel", record)`. -/
def save (d : Durable) (record : StoredTunnel) : Durable := { d with record := some record }

/-- `storage.setAlarm(t)`, which replaces the one that is set. -/
def setAlarm (d : Durable) (t : Millis) : Durable := { d with alarm := some t }

/-- The record, when there is one and it is not deleted. -/
def live (d : Durable) : Option StoredTunnel := d.record.filter fun r => r.deletedAt.isNone

theorem live_eq_some {d : Durable} {r : StoredTunnel} :
    d.live = some r ↔ d.record = some r ∧ r.deletedAt = none := by
  simp [live, Option.filter_eq_some_iff]

theorem live_eq_none {d : Durable} :
    d.live = none ↔ ∀ r, d.record = some r → r.deletedAt ≠ none := by
  simp [live, Option.filter_eq_none_iff]

/-- ``Certificate.ID.makeUnsafe(`cert_${crypto.randomUUID()}`)``, for `csr`. -/
def mint (d : Durable) (uuid csr : String) : Option (Durable × String) :=
  let id := "cert_" ++ uuid
  if id ∈ d.minted.map (·.1) then none else some ({ d with minted := d.minted ++ [(id, csr)] }, id)

/-- The new record; `none` while a tunnel of this name exists. -/
def initializeTunnel (d : Durable) (id hostname tokenHash : String) : Durable × Option TunnelInfo :=
  match d.live with
  | some _ => (d, none)
  | none =>
    let record : StoredTunnel :=
      { id, hostname, tokenHash, state := .offline, createdAt := d.now, certificateID := none,
        deletedAt := none, certificate := none, certificateCsr := none, certificateIdentifiers := none,
        lastConnectedAt := none, renewal := none }
    (d.save record, some (tunnelView record))

/-- `scheduleRenewal`: the alarm rings before a certificate that is ready expires,
and not at once. -/
def scheduleRenewal (d : Durable) (record : StoredTunnel) : Durable :=
  match record.deletedAt, record.certificateState with
  | none, some (.ready _ _ expiry) => d.setAlarm (max (expiry - RENEW_BEFORE_MS) (d.now + 60000))
  | _, _ => d

/-- Stores what a certificate workflow reports; `false` when no tunnel or no
certificate of this id is there. -/
def updateCertificate (d : Durable) (id : String) (input : CertificateState) : Durable × Bool :=
  match d.live with
  | none => (d, false)
  | some record =>
    match record.renewalOf id with
    | some renewal =>
      match input with
      | .ready .. =>
        let renewed := { record with
          certificateID := some renewal.certificateID
          certificate := some ⟨renewal.certificateID, input⟩
          renewal := none }
        ((d.save renewed).scheduleRenewal renewed, true)
      | .failed _ =>
        ((d.save { record with renewal := none }).setAlarm (d.now + RENEWAL_RETRY_MS), true)
      | _ => (d, true)
    | none =>
      -- `String(record.certificateID) !== id`
      if record.certificateID.getD "undefined" ≠ id then (d, false)
      else
        let updated := { record with certificate := some ⟨id, input⟩ }
        ((d.save updated).scheduleRenewal updated, true)

end Durable

end ShuvTunnel
