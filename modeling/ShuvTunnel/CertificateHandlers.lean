/-
# The certificate handlers of `TunnelObject`

`info`, `certificate`, `alarm`, `bindCertificate` and `remove`, with
`startRenewal`, `onAttached` and `ensureCertificateWorkflow`, which two of
them share. (`updateCertificate` and `initialize` never wait: `Durable.lean`.)
-/
import ShuvTunnel.Object

namespace ShuvTunnel

open Coop

namespace Store

/-- The record is stored. -/
def save (s : Store) (record : StoredTunnel) : Store := { s with durable := s.durable.save record }

/-- The alarm is set. -/
def setAlarm (s : Store) (t : Millis) : Store := { s with durable := s.durable.setAlarm t }

/-- Some bridge is attached, or one was within the window. -/
def isActive (s : Store) (record : StoredTunnel) : Bool :=
  !s.bridges.attachedBridges.isEmpty ||
    record.lastConnectedAt.any fun t => s.durable.now - t < ACTIVE_WINDOW_MS

/-- `env.CERTIFICATES.create({ id, params })` is called. -/
def requestCreate (s : Store) (params : CertificateWorkflowParams) : Store :=
  { s with durable := { s.durable with creates := s.durable.creates ++ [params] } }

/-! ### Reading -/

/-- `info`, up to the hash of the token. -/
def info (s : Store) (token : String) : Segment :=
  match s.durable.live with
  | none => (s, .done (.info .notFound))
  | some record => (s, .await (.infoHash token record))

/-- `info`, once the token is hashed. -/
def infoHashed (P : Platform) (s : Store) (token : String) (record : StoredTunnel) : Segment :=
  if P.hashToken token ≠ record.tokenHash then (s, .done (.info .unauthorized))
  else (s, .done (.info (.ok (tunnelView record))))

/-- `certificate`, up to the hash of the token. -/
def certificate (s : Store) (token : String) : Segment :=
  match s.durable.live with
  | none => (s, .done (.certificate .notFound))
  | some record => (s, .await (.certificateHash token record))

/-- `certificate`, once the token is hashed. -/
def certificateHashed (P : Platform) (s : Store) (token : String) (record : StoredTunnel) : Segment :=
  if P.hashToken token ≠ record.tokenHash then (s, .done (.certificate .unauthorized))
  else match record.certificate with
    | none => (s, .done (.certificate .noCertificate))
    | some c => (s, .done (.certificate (.ok (certificateView c))))

/-! ### Renewal -/

/-- Issues a new certificate from the stored CSR; the current one serves until
it is ready. -/
def startRenewal (s : Store) (record : StoredTunnel) (uuid : String) : Option Segment :=
  match truthy record.certificateCsr with
  | none => some (s, .done .void)
  | some csr => (s.durable.mint uuid csr).map fun (d, certificateID) =>
    let params : CertificateWorkflowParams :=
      { tunnelID := record.id, certificateID, hostname := record.hostname,
        identifiers := record.certificateIdentifiers.getD [record.hostname], csr }
    let renewal : Renewal := { certificateID, startedAt := d.now }
    (({ s with durable := d }.save { record with renewal := some renewal }).requestCreate params,
      .await (.renewCreate record params false))

/-- `CERTIFICATES.create` failed: the renewal is taken back and tried again
later. -/
def renewalFailed (s : Store) (record : StoredTunnel) : Segment :=
  ((s.save { record with renewal := none }).setAlarm (s.durable.now + RENEWAL_RETRY_MS), .done .void)

/-- The alarm fires, and is gone. -/
def alarm (s : Store) (uuid : String) : Option Segment :=
  if s.durable.alarm.any (· ≤ s.durable.now) then
    let s := { s with durable := { s.durable with alarm := none } }
    match s.durable.live with
    | none => some (s, .done .void)
    | some record =>
      match record.certificateState with
      | some (.ready _ _ expiry) =>
        if record.renewal.any fun r => s.durable.now - r.startedAt < RENEWAL_STALE_MS then
          some (s, .done .void)
        else if expiry - RENEW_BEFORE_MS > s.durable.now then
          some ({ s with durable := s.durable.scheduleRenewal record }, .done .void)
        else if !s.isActive record then some (s, .done .void)
        else s.startRenewal record uuid
      | _ => some (s, .done .void)
  else none

/-- Renews on connect when the certificate is close to or past expiry, and
schedules the renewal alarm when there is none. -/
def onAttached (s : Store) (record : StoredTunnel) (uuid : String) : Option Segment :=
  match record.certificateState with
  | some (.ready _ _ expiry) =>
    let staleRenewal := record.renewal.any fun r => s.durable.now - r.startedAt ≥ RENEWAL_STALE_MS
    if (record.renewal.isNone || staleRenewal) && expiry - RENEW_BEFORE_MS ≤ s.durable.now then
      s.startRenewal record uuid
    else if s.durable.alarm.isNone then
      some ({ s with durable := s.durable.scheduleRenewal record }, .done .void)
    else some (s, .done .void)
  | _ => some (s, .done .void)

/-! ### `ensureCertificateWorkflow` -/

/-- The error leaves `ensureCertificateWorkflow`: `bindCertificate` stores the
failure of the certificate it stored, or throws. -/
def ensureThrown (s : Store) (e : Ensure) (reason : String) : Segment :=
  if e.issue then
    (s.save { e.record with certificate := some ⟨e.certificate.id, .failed reason⟩ },
      .done (.bindCertificate (.workflowUnavailable reason)))
  else (s, .done (.thrown reason))

/-- `ensureCertificateWorkflow` returns, and so does `bindCertificate`. -/
def ensureReturned (s : Store) (e : Ensure) : Segment :=
  (s, .done (.bindCertificate (.ok (certificateView e.certificate))))

/-- The parameters for the workflow of an ensure; a template makes a missing id
the text `undefined`. -/
def ensureParams (e : Ensure) : CertificateWorkflowParams where
  tunnelID := e.record.id
  certificateID := e.record.certificateID.getD "undefined"
  hostname := e.record.hostname
  identifiers := e.identifiers
  csr := e.csr

/-- `ensureCertificateWorkflow`, up to the instance's handle. -/
def ensureCertificateWorkflow (s : Store) (e : Ensure) : Segment :=
  match truthy e.record.certificateID with
  | none => s.ensureThrown e "Certificate ID is missing"
  | some _ => (s, .await (.ensureGet e))

/-- `await create()`. -/
def ensureCreating (s : Store) (e : Ensure) : Segment :=
  (s.requestCreate (ensureParams e), .await (.ensureCreate e false))

/-- `text.includes(part)`, on the characters. -/
def includes (part : List Char) : List Char → Bool
  | [] => part.isEmpty
  | c :: cs => part.isPrefixOf (c :: cs) || includes part cs

/-- `error.message.includes("instance.not_found")`. -/
def isNotFound (message : String) : Bool := includes "instance.not_found".toList message.toList

/-- `CERTIFICATES.get` answers; it reports `instance.not_found` only of an
instance that is not there. -/
def ensureGot (s : Store) (e : Ensure) : Answer → Option Segment
  | .ok => some (s, .await (.ensureStatus e))
  | .error message =>
    if isNotFound message then
      if s.durable.workflow (ensureParams e).certificateID = none then some (s.ensureCreating e) else none
    else some (s.ensureThrown e message)
  | _ => none

/-- `instance.status()` answers. -/
def ensureStatus (s : Store) (e : Ensure) : Answer → Option Segment
  | .status st =>
    if st = s.durable.workflowStatus (ensureParams e).certificateID then
      match st with
      | .unknown => some (s.ensureCreating e)
      | .errored | .terminated => some (s, .await (.ensureRestart e false))
      | _ => some (s.ensureReturned e)
    else none
  | .error message => some (s.ensureThrown e message)
  | _ => none

/-- The service takes the `create`, answers it, or fails. -/
def ensureCreated (s : Store) (e : Ensure) (accepted : Bool) : Answer → Option Segment
  | .accepted =>
    if accepted then none
    else (s.durable.createWorkflow (ensureParams e)).map fun d =>
      ({ s with durable := d }, .await (.ensureCreate e true))
  | .ok => if accepted then some (s.ensureReturned e) else none
  | .error message => some (s.ensureThrown e message)
  | _ => none

/-- The service takes the `restart`, answers it, or fails. -/
def ensureRestarted (s : Store) (e : Ensure) (accepted : Bool) : Answer → Option Segment
  | .accepted =>
    if accepted then none
    else (s.durable.restartWorkflow (ensureParams e).certificateID).map fun d =>
      ({ s with durable := d }, .await (.ensureRestart e true))
  | .ok => if accepted then some (s.ensureReturned e) else none
  | .error message => some (s.ensureThrown e message)
  | _ => none

/-- The `create` of `startRenewal`. -/
def renewalCreated (s : Store) (record : StoredTunnel) (params : CertificateWorkflowParams)
    (accepted : Bool) : Answer → Option Segment
  | .accepted =>
    if accepted then none
    else (s.durable.createWorkflow params).map fun d =>
      ({ s with durable := d }, .await (.renewCreate record params true))
  | .ok => if accepted then some (s, .done .void) else none
  | .error _ => some (s.renewalFailed record)
  | _ => none

/-! ### `bindCertificate` -/

/-- `bindCertificate`, up to the hash of the token. -/
def bindCertificate (s : Store) (token csr : String) : Segment :=
  match s.durable.live with
  | none => (s, .done (.bindCertificate .notFound))
  | some record => (s, .await (.bindHash token csr record))

/-- `bindCertificate`, once the token is hashed: the CSR is decoded. -/
def bindHashed (P : Platform) (s : Store) (token csr : String) (record : StoredTunnel) : Segment :=
  if P.hashToken token ≠ record.tokenHash then (s, .done (.bindCertificate .unauthorized))
  else match P.decodeCsr csr with
    | none => (s, .done (.bindCertificate (.invalidRequest "Failed to parse CSR")))
    | some request => (s, .await (.bindVerify csr request record))

/-- The answer to a CSR that cannot be parsed. -/
def invalidRequest (s : Store) : Segment :=
  (s, .done (.bindCertificate (.invalidRequest "Failed to parse CSR")))

/-- Stores a certificate that is being issued, and starts its workflow. -/
def bindIssue (s : Store) (csr : String) (identifiers : List String) (record : StoredTunnel)
    (uuid : String) : Option Segment :=
  (s.durable.mint uuid csr).map fun (d, certificateID) =>
    let certificate : CertificateInfo := { id := certificateID, state := .issuing }
    let issuing : StoredTunnel := { record with
      certificateID := some certificateID
      certificate := some certificate
      certificateCsr := some csr
      certificateIdentifiers := some identifiers
      renewal := none }
    ({ s with durable := d }.save issuing).ensureCertificateWorkflow
      { record := issuing, csr, identifiers, certificate, issue := true }

/-- `bindCertificate` once the signature is checked, on the record it read
first. -/
def bindVerified (s : Store) (csr : String) (request : CertificateRequest) (record : StoredTunnel)
    (uuid : String) : Option Segment :=
  if !request.verified then some s.invalidRequest
  else match request.identifiers with
    | none => some s.invalidRequest
    | some identifiers =>
      if request.commonName ≠ record.hostname then
        some (s, .done (.bindCertificate (.invalidHostname request.commonName record.hostname)))
      else if identifiers.any fun x => x ≠ record.hostname && x ≠ "*." ++ record.hostname then
        some (s, .done (.bindCertificate (.invalidHostname (",".intercalate identifiers)
          (record.hostname ++ ",*." ++ record.hostname))))
      else match record.certificate with
        | some certificate =>
          if record.certificateCsr = some csr then
            some (s.ensureCertificateWorkflow { record, csr, identifiers, certificate, issue := false })
          else if record.inProgress then some (s, .done (.bindCertificate .inProgress))
          else s.bindIssue csr identifiers record uuid
        | none => s.bindIssue csr identifiers record uuid

/-! ### `remove` -/

/-- `remove`, up to the hash of the token. -/
def remove (s : Store) (token : String) : Segment :=
  match s.durable.live with
  | none => (s, .done (.remove .notFound))
  | some record => (s, .await (.removeHash token record))

/-- Every socket is closed, every channel finished. -/
def shutDown (b : Bridges) : Bridges :=
  { ({ b with sockets := b.sockets.map Socket.close } : Bridges).finishAll (fun _ => true) true with
    channels := [] }

/-- `remove`, once the token is hashed: the sockets are closed and the record is
marked. -/
def removeHashed (P : Platform) (s : Store) (token : String) (record : StoredTunnel) : Segment :=
  if P.hashToken token ≠ record.tokenHash then (s, .done (.remove .unauthorized))
  else
    ({ s with bridges := shutDown s.bridges }.save
      { record with state := .offline, deletedAt := some s.durable.now }, .done (.remove .ok))

end Store

end ShuvTunnel
