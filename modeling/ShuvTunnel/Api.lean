/-
# What the tunnel API answers

The HTTP handlers over the object (`handlers/tunnel.ts`) turn the result of a
method into a value or a tagged error (`protocol/src/api/errors.ts`). An
exception of the object and `workflow-unavailable` become the same error.
-/
import ShuvTunnel.System

namespace ShuvTunnel

/-- `protocol/src/api/errors.ts`. -/
inductive ApiError
  | invalidRequestError (message : String)
  | unauthorizedError (message : String)
  | tunnelNotFoundError (tunnelID message : String)
  | certificateNotFoundError (tunnelID message : String)
  | invalidHostnameError (provided expected message : String)
  | certificateInProgressError (tunnelID message : String)
  | serviceUnavailableError (message : String)
  deriving DecidableEq

/-- The tag clients match on. -/
def ApiError.tag : ApiError → String
  | invalidRequestError .. => "InvalidRequestError"
  | unauthorizedError .. => "UnauthorizedError"
  | tunnelNotFoundError .. => "TunnelNotFoundError"
  | certificateNotFoundError .. => "CertificateNotFoundError"
  | invalidHostnameError .. => "InvalidHostnameError"
  | certificateInProgressError .. => "CertificateInProgressError"
  | serviceUnavailableError .. => "ServiceUnavailableError"

namespace Api

/-- `String(cause)` of an `Error`. -/
def errorText (message : String) : String := "Error: " ++ message

/-- `tunnel.bindCertificate`; `none` for what the method does not return. -/
def bindCertificate (id : String) : Result → Option (Except ApiError CertificateInfo)
  | .bindCertificate (.ok certificate) => some (.ok certificate)
  | .bindCertificate .unauthorized => some (.error (.unauthorizedError "Invalid bearer token"))
  | .bindCertificate .notFound => some (.error (.tunnelNotFoundError id "Tunnel not found"))
  | .bindCertificate (.invalidRequest message) => some (.error (.invalidRequestError message))
  | .bindCertificate (.invalidHostname provided expected) => some (.error
      (.invalidHostnameError provided expected "CSR hostname does not match tunnel hostname"))
  | .bindCertificate .inProgress => some (.error
      (.certificateInProgressError id "Certificate issuance is already in progress"))
  | .bindCertificate (.workflowUnavailable message) => some (.error (.serviceUnavailableError message))
  | .thrown message => some (.error (.serviceUnavailableError (errorText message)))
  | _ => none

/-- `tunnel.getCertificate`. -/
def getCertificate (id : String) : Result → Option (Except ApiError CertificateInfo)
  | .certificate (.ok certificate) => some (.ok certificate)
  | .certificate .unauthorized => some (.error (.unauthorizedError "Invalid bearer token"))
  | .certificate .noCertificate => some (.error (.certificateNotFoundError id "Certificate not found"))
  | .certificate .notFound => some (.error (.tunnelNotFoundError id "Tunnel not found"))
  | .thrown message => some (.error (.serviceUnavailableError (errorText message)))
  | _ => none

theorem getCertificate_ok {id : String} {r : Result} {c : CertificateInfo}
    (h : getCertificate id r = some (.ok c)) : r = .certificate (.ok c) := by
  unfold getCertificate at h
  split at h
  · cases h; rfl
  · cases h
  · cases h
  · cases h
  · cases h
  · cases h

end Api

end ShuvTunnel
