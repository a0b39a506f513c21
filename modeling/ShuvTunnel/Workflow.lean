/-
# The certificate workflow and the service that runs it

`CertificateWorkflow.run` (`certificate-workflow.ts`) as the steps that reach
the tunnel: an attempt of `issue certificate` posts a challenge, then the
certificate; it may throw at any point, and the service may run its body
again although the attempt had stored its certificate, as long as the retries
last (`limit: 2`). After the last attempt `record certificate failure` posts
the failure and `run` returns. What the attempt does in between (the ACME
order, the DNS records) is the certificate authority's, and reaches the
tunnel only through the states posted.
-/
import ShuvTunnel.Durable

namespace ShuvTunnel

/-- `retries: { limit: 2 }`. -/
def ISSUE_RETRIES : ℕ := 2

namespace Instance

/-- The current attempt throws: the next one starts over, or after the last
one its reason is recorded. -/
def throw (i : Instance) (reason : String) : Instance :=
  if i.attempt < ISSUE_RETRIES then { i with attempt := i.attempt + 1, phase := .ordering }
  else { i with phase := .recording reason }

end Instance

/-- What happens to a workflow instance. -/
inductive WorkflowEvent
  | run
  | challenge (token key : String)
  | ready (certificate chain : String) (expiry : Millis)
  | throw (reason : String)
  | record
  | finish
  | halt (terminated : Bool)

namespace Durable

/-- The instance of an id. -/
def workflow (d : Durable) (id : String) : Option Instance :=
  d.instances.find? fun i => i.params.certificateID = id

/-- Changes an instance and leaves the others as they are. -/
def setWorkflow (d : Durable) (id : String) (i : Instance) : Durable :=
  { d with instances := d.instances.map fun j => if j.params.certificateID = id then i else j }

/-! ### `env.CERTIFICATES` -/

/-- The service takes a `create`: a new instance, unless the id is in use. -/
def createWorkflow (d : Durable) (params : CertificateWorkflowParams) : Option Durable :=
  match d.workflow params.certificateID with
  | some _ => none
  | none => some { d with instances := d.instances ++ [⟨params, .queued, 0, .ordering⟩] }

/-- The service takes a `restart`: the instance runs from the start. -/
def restartWorkflow (d : Durable) (id : String) : Option Durable :=
  (d.workflow id).map fun i => d.setWorkflow id { i with status := .queued, attempt := 0, phase := .ordering }

/-- `instance.status()`. -/
def workflowStatus (d : Durable) (id : String) : WorkflowStatus :=
  ((d.workflow id).map (·.status)).getD .unknown

/-! ### `CertificateWorkflow` -/

/-- `this.update(tunnelID, certificateID, state)`; `false` when it throws. -/
def update (d : Durable) (certificateID : String) (state : CertificateState) : Durable × Bool :=
  { d with deliveries := d.deliveries ++ [(certificateID, state)] }.updateCertificate certificateID state

/-- The text of the error that ends an instance whose certificate no tunnel asks
for any more. -/
def persistError : String := "Failed to persist certificate state: tunnel or certificate not found"

/-- One event of the instance `i`, which has not finished. -/
def workflowEvent (P : Platform) (d : Durable) (i : Instance) : WorkflowEvent → Option Durable
  | .run => some (d.setWorkflow i.params.certificateID { i with status := .running })
  | .challenge token key =>
    if i.phase = .ordering then
      let u := d.update i.params.certificateID (.challenge token key)
      some (u.1.setWorkflow i.params.certificateID
        (if u.2 then { i with phase := .validating } else i.throw persistError))
    else none
  | .ready certificate chain expiry =>
    -- a workflow delivers certificates issued for its own CSR
    if i.phase = .validating ∧ P.issuedFor certificate = i.params.csr then
      let u := d.update i.params.certificateID (.ready certificate chain expiry)
      some (u.1.setWorkflow i.params.certificateID
        (if u.2 then { i with phase := .delivered } else i.throw persistError))
    else none
  | .throw reason =>
    match i.phase with
    | .recording _ | .recorded _ => none
    | _ => some (d.setWorkflow i.params.certificateID (i.throw reason))
  | .record =>
    match i.phase with
    | .recording reason | .recorded reason =>
      let u := d.update i.params.certificateID (.failed reason)
      some (u.1.setWorkflow i.params.certificateID
        (if u.2 then { i with phase := .recorded reason } else { i with phase := .recording reason }))
    | _ => none
  | .finish =>
    match i.phase with
    | .delivered | .recorded _ => some (d.setWorkflow i.params.certificateID { i with status := .complete })
    | _ => none
  | .halt terminated =>
    some (d.setWorkflow i.params.certificateID
      { i with status := if terminated then .terminated else .errored })

/-- One event of the workflow `id`. -/
def workflowStep (P : Platform) (d : Durable) (id : String) (e : WorkflowEvent) : Option Durable :=
  match d.workflow id with
  | none => none
  | some i => if i.status.finished then none else d.workflowEvent P i e

end Durable

end ShuvTunnel
