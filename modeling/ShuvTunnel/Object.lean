/-
# The Durable Object of a tunnel: its store and its suspended handlers

The handlers of `TunnelObject` (`tunnel-object.ts`) are cut where they await
something other than the object's storage: a hash, the CSR's verification,
the workflow service, the public socket. A segment is a function on the
store; a `Task` is what the handler carries over the suspension, in
particular the record it read before; the segment after it reads an `Answer`.

The attach handler is also cut where it reads the record. That is one more
point than the input gate allows, so the runs here include the object's.
-/
import ShuvTunnel.Lib.Coop
import ShuvTunnel.Workflow
import ShuvTunnel.Sockets

namespace ShuvTunnel

open Coop

/-- What the object's methods work on. -/
structure Store where
  durable : Durable
  bridges : Bridges

/-! ### Suspended handlers -/

/-- `ensureCertificateWorkflow` on behalf of `bindCertificate`: `certificate`
is the one the call returns, and `issue` tells whether the call stored it
itself, in `record` (then a failure is stored too), or found it there. -/
structure Ensure where
  record : StoredTunnel
  csr : String
  identifiers : List String
  certificate : CertificateInfo
  issue : Bool

/-- The places at which a method is suspended, with what it holds there. -/
inductive Task
  | infoHash (token : String) (record : StoredTunnel)
  | certificateHash (token : String) (record : StoredTunnel)
  | removeHash (token : String) (record : StoredTunnel)
  | bindHash (token csr : String) (record : StoredTunnel)
  | bindVerify (csr : String) (request : CertificateRequest) (record : StoredTunnel)
  | ensureGet (e : Ensure)
  | ensureStatus (e : Ensure)
  | ensureCreate (e : Ensure) (accepted : Bool)
  | ensureRestart (e : Ensure) (accepted : Bool)
  | renewCreate (record : StoredTunnel) (params : CertificateWorkflowParams) (accepted : Bool)
  | attachRecord (socket : ℕ) (token : String) (routes : Option Json)
  | attachHash (socket : ℕ) (token : String) (routes : Option Json) (record : StoredTunnel)
  | connectRead (record : Option StoredTunnel)
  | upload (key : ℕ)
  | settling (key : ℕ)

/-- What the read loop of `connect` finds: the server name and the ALPN of the
ClientHello, when it parses, the chunks read, and the peer's address. -/
structure Hello where
  sni : Option String
  alpn : String
  initial : List Bytes
  remoteAddress : Option String

/-- What a suspended handler is resumed with. `drawn` brings the UUIDs its
segment may draw, `accepted` is the service taking a request. -/
inductive Answer
  | ok
  | drawn (uuid session : String)
  | error (message : String)
  | accepted
  | status (s : WorkflowStatus)
  | hello (h : Hello)
  | chunk (value : Bytes) (bufferedAmount : ℕ)
  | eof

/-- What a method does between two awaits: the store then, and where it is. -/
abbrev Segment := Store × Outcome Task Result

end ShuvTunnel
