/-
# The tunnel API over HTTP

What a request to an existing tunnel is answered: the handlers of
`handlers/tunnel.ts` over the results of the object's methods, the status and the
JSON body of their values and errors (`protocol/src/api/tunnel.ts`, `errors.ts`),
and what the Rust client reads (`api.rs`). The `certificateID` of a tunnel is not
the `certificateId` its Rust type has.

In `Rust.Api` a struct or an enum is read from an object; serde takes a sequence of
the fields as well, which the server never writes.

Key definitions: `Endpoint.handle`, `Endpoint.respond`, `Rust.Api.receive`.
Key theorems: `returned_of_method`, `Endpoint.received`, `answers_understood`.
-/
import ShuvTunnel.Api
import ShuvTunnel.Removal
import ShuvTunnel.Resumption
import ShuvTunnel.Returns
import ShuvTunnel.Segments
import ShuvTunnel.Touch
import ShuvTunnel.Lib.JsonPrint
import ShuvTunnel.Lib.IsoDate

namespace ShuvTunnel

open Coop

/-! ### The handlers -/

/-- The endpoints that ask for a tunnel's token. -/
inductive Endpoint
  | get
  | bindCertificate
  | getCertificate
  | remove
  deriving DecidableEq

/-- What a handler returns that does not fail. -/
inductive Answered
  | tunnel (tunnel : TunnelInfo)
  | certificate (certificate : CertificateInfo)
  | nothing

namespace Api

/-- `tunnel.get`. -/
def get (id : String) : Result → Option (Except ApiError TunnelInfo)
  | .info (.ok tunnel) => some (.ok tunnel)
  | .info .unauthorized => some (.error (.unauthorizedError "Invalid bearer token"))
  | .info .notFound => some (.error (.tunnelNotFoundError id "Tunnel not found"))
  | .thrown message => some (.error (.serviceUnavailableError (errorText message)))
  | _ => none

/-- `tunnel.remove`. -/
def remove (id : String) : Result → Option (Except ApiError Unit)
  | .remove .ok => some (.ok ())
  | .remove .unauthorized => some (.error (.unauthorizedError "Invalid bearer token"))
  | .remove .notFound => some (.error (.tunnelNotFoundError id "Tunnel not found"))
  | .thrown message => some (.error (.serviceUnavailableError (errorText message)))
  | _ => none

end Api

/-- The handler of the endpoint, for the tunnel `id`. -/
def Endpoint.handle (id : String) (r : Result) : Endpoint → Option (Except ApiError Answered)
  | get => (Api.get id r).map fun x => x.map .tunnel
  | bindCertificate => (Api.bindCertificate id r).map fun x => x.map .certificate
  | getCertificate => (Api.getCertificate id r).map fun x => x.map .certificate
  | remove => (Api.remove id r).map fun x => x.map fun () => .nothing

/-! ### Answers -/

/-- An answer on the wire: its status and its body. -/
structure HttpAnswer where
  status : ℕ
  body : List Char

namespace ApiError

/-- `httpApiStatus`. -/
def status : ApiError → ℕ
  | invalidRequestError .. => 400
  | unauthorizedError .. => 401
  | tunnelNotFoundError .. => 404
  | certificateNotFoundError .. => 404
  | invalidHostnameError .. => 400
  | certificateInProgressError .. => 409
  | serviceUnavailableError .. => 503

/-- The message an error carries. -/
def message : ApiError → String
  | invalidRequestError message => message
  | unauthorizedError message => message
  | tunnelNotFoundError _ message => message
  | certificateNotFoundError _ message => message
  | invalidHostnameError _ _ message => message
  | certificateInProgressError _ message => message
  | serviceUnavailableError message => message

/-- The fields before the message. -/
def fields : ApiError → List (String × String)
  | tunnelNotFoundError tunnelID _ => [("tunnelID", tunnelID)]
  | certificateNotFoundError tunnelID _ => [("tunnelID", tunnelID)]
  | invalidHostnameError provided expected _ => [("provided", provided), ("expected", expected)]
  | certificateInProgressError tunnelID _ => [("tunnelID", tunnelID)]
  | _ => []

/-- `Schema.TaggedErrorClass`. -/
def value (e : ApiError) : Json.Value :=
  .object (("_tag", .string e.tag) :: (e.fields ++ [("message", e.message)]).map fun f => (f.1, .string f.2))

end ApiError

/-- `toISOString`. -/
def isoText (t : Millis) : String := String.ofList (Iso.fields t).text

/-- The state as its schema writes it. -/
def TunnelState.text : TunnelState → String
  | offline => "offline"
  | online => "online"

/-- `Tunnel.Info`; an absent certificate is left out. -/
def TunnelInfo.value (t : TunnelInfo) : Json.Value :=
  .object ([("id", .string t.id), ("hostname", .string t.hostname), ("state", .string t.state.text)] ++
    t.certificateID.toList.map fun c => ("certificateID", .string c))

/-- The state of a certificate as its schema writes it, with its type. -/
def CertificateState.value : CertificateState → Json.Value
  | challenge token key => .object [("type", .string "challenge"), ("token", .string token), ("key", .string key)]
  | issuing => .object [("type", .string "issuing")]
  | ready certificate chain expiry =>
    .object [("type", .string "ready"), ("certificate", .string certificate), ("chain", .string chain),
      ("expiry", .string (isoText expiry))]
  | failed reason => .object [("type", .string "failed"), ("reason", .string reason)]

/-- `Certificate.Info`. -/
def CertificateInfo.value (c : CertificateInfo) : Json.Value :=
  .object [("id", .string c.id), ("state", c.state.value)]

namespace Endpoint

/-- The status of its `success`. -/
def success : Endpoint → ℕ
  | get => 200
  | bindCertificate => 202
  | getCertificate => 200
  | remove => 204

/-- The tags of its `error`s and of the authorization's. -/
def errors : Endpoint → List String
  | get => ["UnauthorizedError", "TunnelNotFoundError", "ServiceUnavailableError"]
  | bindCertificate =>
    ["UnauthorizedError", "InvalidRequestError", "InvalidHostnameError", "TunnelNotFoundError",
     "CertificateInProgressError", "ServiceUnavailableError"]
  | getCertificate =>
    ["UnauthorizedError", "TunnelNotFoundError", "CertificateNotFoundError", "ServiceUnavailableError"]
  | remove => ["UnauthorizedError", "TunnelNotFoundError", "ServiceUnavailableError"]

/-- What the endpoint sends for what its handler returned; nothing has an empty
body. -/
def respond (e : Endpoint) : Except ApiError Answered → HttpAnswer
  | .ok (.tunnel t) => ⟨e.success, Json.print t.value⟩
  | .ok (.certificate c) => ⟨e.success, Json.print c.value⟩
  | .ok .nothing => ⟨e.success, []⟩
  | .error error => ⟨error.status, Json.print error.value⟩

end Endpoint

/-! ### The Rust client -/

namespace Rust.Api

/-- `TunnelInfo` of `api.rs`. -/
structure TunnelInfo where
  id : String
  hostname : String
  state : TunnelState
  certificate_id : Option String

/-- `CertificateInfo` of `api.rs`. -/
structure CertificateInfo where
  id : String
  state : CertificateState

/-- What a request of the Rust client returns. -/
inductive Answered
  | tunnel (tunnel : TunnelInfo)
  | certificate (certificate : CertificateInfo)
  | nothing

/-- A field of a struct, which may be written once. -/
def field (fields : List (String × Json.Value)) (name : String) : Option (Option Json.Value) :=
  match fields.filter fun f => f.1 = name with
  | [] => some none
  | [f] => some (some f.2)
  | _ => none

/-- A `String`. -/
def required (fields : List (String × Json.Value)) (name : String) : Option String :=
  (field fields name).bind fun x => x.bind Json.Value.string?

/-- An `Option<String>`. -/
def optional (fields : List (String × Json.Value)) (name : String) : Option (Option String) :=
  (field fields name).bind fun
    | none | some .null => some none
    | some v => v.string?.map some

/-- `ApiError`, its tag and its message. -/
def apiError : Json.Value → Option (String × String)
  | .object fields =>
    (required fields "_tag").bind fun tag => (field fields "message").bind fun
      | none => some (tag, "")
      | some v => v.string?.map fun message => (tag, message)
  | _ => none

/-- The variants of the state, in lower case. -/
def tunnelState : String → Option TunnelState
  | "offline" => some .offline
  | "online" => some .online
  | _ => none

/-- Reads a `TunnelInfo`. -/
def tunnelInfo : Json.Value → Option TunnelInfo
  | .object fields =>
    (required fields "id").bind fun id => (required fields "hostname").bind fun hostname =>
      ((required fields "state").bind tunnelState).bind fun state =>
        (optional fields "certificateId").map fun certificate_id => ⟨id, hostname, state, certificate_id⟩
  | _ => none

/-- An enum with the tag `type`. -/
def certificateState : Json.Value → Option CertificateState
  | .object fields =>
    (required fields "type").bind fun
      | "challenge" => (required fields "token").bind fun _ => (required fields "key").map fun _ => .challenge
      | "issuing" => some .issuing
      | "ready" =>
        (required fields "certificate").bind fun certificate => (required fields "chain").bind fun chain =>
          (required fields "expiry").map fun expiry => .ready certificate chain expiry
      | "failed" => (required fields "reason").map fun reason => .failed reason
      | _ => none
  | _ => none

/-- Reads a `CertificateInfo`. -/
def certificateInfo : Json.Value → Option CertificateInfo
  | .object fields =>
    (required fields "id").bind fun id => (field fields "state").bind fun state =>
      (state.bind certificateState).map fun state => ⟨id, state⟩
  | _ => none

/-- An answer whose status is no success is an error, with what its body says. -/
def checked (a : HttpAnswer) : Except Client.Error (List Char) :=
  if 200 ≤ a.status ∧ a.status < 300 then .ok a.body
  else match (Json.parse a.body).bind apiError with
    | some (tag, message) => .error (.api a.status tag message)
    | none => .error (.api a.status "HttpError" (String.ofList (a.body.take 200)))

/-- `json`: the status is checked, and the body is decoded. -/
def json {α : Type} (decode : Json.Value → Option α) (a : HttpAnswer) : Except Client.Error α :=
  match checked a with
  | .error e => .error e
  | .ok body => match (Json.parse body).bind decode with
    | some x => .ok x
    | none => .error .http

/-- `get`, `bind_certificate`, `certificate` and `remove`, from the answer on. -/
def receive (a : HttpAnswer) : Endpoint → Except Client.Error Answered
  | .get => (json tunnelInfo a).map .tunnel
  | .bindCertificate => (json certificateInfo a).map .certificate
  | .getCertificate => (json certificateInfo a).map .certificate
  | .remove => (checked a).map fun _ => .nothing

end Rust.Api

/-! ### Every call is answered as its method is -/

/-- The methods a request is made to. -/
inductive Method
  | info
  | certificate
  | bindCertificate
  | remove
  | other
  deriving DecidableEq

/-- The method that is called. -/
def Call.method : Call → Method
  | .info _ => .info
  | .certificate _ => .certificate
  | .bindCertificate .. => .bindCertificate
  | .remove _ => .remove
  | _ => .other

/-- The method that is suspended at a task. -/
def Task.method : Task → Method
  | .infoHash .. => .info
  | .certificateHash .. => .certificate
  | .removeHash .. => .remove
  | .bindHash .. | .bindVerify .. | .ensureGet _ | .ensureStatus _ | .ensureCreate .. | .ensureRestart .. =>
    .bindCertificate
  | _ => .other

/-- The method a segment belongs to. -/
def Cause.method : Cause → Method
  | .call c => c.method
  | .resumed t _ => t.method

/-- The results of a method; for `other` all those that no endpoint answers with. -/
def Method.returns : Method → Result → Prop
  | info, .info _ => True
  | certificate, .certificate _ => True
  | bindCertificate, r => r.ofBind
  | remove, .remove _ => True
  | other, .initialized _ => True
  | other, .response _ => True
  | other, r => r.silent
  | _, _ => False

section Methods

variable {P : Platform} {s s' : Store}

theorem returns_of_silent {r : Result} (h : r.silent) : Method.other.returns r := by
  cases r with
  | void | thrown _ => exact h
  | _ => exact h.elim

theorem method_of_ensure {t : Task} {e : Ensure} (h : t.ensure = some e) : t.method = .bindCertificate := by
  cases t <;> first | rfl | cases h

/-- A segment that waits goes on with the method of its call. -/
theorem Effect.method {c : Cause} {u : Task} {b' : Bridges} (h : Effect P s c s' (.await u))
    (ht : Touch P s.bridges c b' (.await u)) : u.method = c.method := by
  -- the tasks of a channel are left by `connect` only
  have channel : u.key ≠ none → u.method = .other ∧ c.method = .other := fun hk => by
    have hu : u.method = .other := by
      cases u with
      | upload key | settling key => rfl
      | _ => exact absurd rfl hk
    refine ⟨hu, ?_⟩
    cases ht with
    | still _ hkeyless => exact absurd (hkeyless u rfl) hk
    | attached _ _ _ hkeyless => exact absurd (hkeyless u rfl) hk
    | opened => rfl
    | uploaded => rfl
    | uploadEnded => rfl
    | uploadFailed => rfl
  cases h with
  | quiet _ hfollows _ =>
    cases hfollows u rfl with
    | upload | settling =>
      obtain ⟨hu, hc⟩ := channel (by simp [Task.key])
      rw [hu, hc]
    | _ => rfl
  | opened _ _ _ _ hupload =>
    obtain ⟨k, rfl⟩ := hupload u rfl
    rfl
  | requested he _ => exact (method_of_ensure he).symm
  | @taken t _ _ hcreating _ =>
    cases t with
    | ensureCreate _ _ | renewCreate _ _ _ => rfl
    | _ => cases hcreating
  | _ => rfl

theorem start_returns {c : Call} {r : Result} (h : start P s c = some (s', .done r)) : c.method.returns r := by
  cases c with
  | initialized id hostname tokenHash =>
    cases Option.some.inj h
    trivial
  | info token | certificate token | bindCertificate token csr | remove token =>
    have h := Option.some.inj h
    simp only [Store.info, Store.certificate, Store.bindCertificate, Store.remove] at h
    split at h
    · cases h
      trivial
    · cases h
  | alarm uuid => exact returns_of_silent (alarm_returns h r rfl)
  | fetch upgrade protocols position =>
    have h : s.fetch upgrade protocols position = (s', .done r) := Option.some.inj h
    unfold Store.fetch at h
    split at h
    · cases h
      trivial
    · split at h
      · cases h
        trivial
      · split at h <;> (cases h; trivial)
  | webSocketMessage w m => exact returns_of_silent (message_returns h r rfl)
  | webSocketClose w => exact returns_of_silent (close_returns h r rfl)
  | webSocketError w =>
    obtain ⟨x, -, h⟩ := Option.map_eq_some_iff.mp h
    cases h
    trivial
  | connect => cases Option.some.inj h

theorem resume_returns {t : Task} {a : Answer} {r : Result} (h : resume P s t a = some (s', .done r)) :
    t.method.returns r := by
  unfold resume at h
  split at h
  · rename_i token record
    have h : s.infoHashed P token record = (s', .done r) := Option.some.inj h
    unfold Store.infoHashed at h
    split at h <;> (cases h; trivial)
  · rename_i token record
    have h : s.certificateHashed P token record = (s', .done r) := Option.some.inj h
    unfold Store.certificateHashed at h
    split at h
    · cases h
      trivial
    · split at h <;> (cases h; trivial)
  · rename_i token record
    have h : s.removeHashed P token record = (s', .done r) := Option.some.inj h
    unfold Store.removeHashed at h
    split at h <;> (cases h; trivial)
  · rename_i token csr record
    have h : s.bindHashed P token csr record = (s', .done r) := Option.some.inj h
    unfold Store.bindHashed at h
    split at h
    · cases h
      trivial
    · split at h
      · cases h
        trivial
      · cases h
  · exact bindVerified_returns h r rfl
  · exact ensureGot_returns h r rfl
  · exact ensureStatus_returns h r rfl
  · exact ensureCreated_returns h r rfl
  · exact ensureRestarted_returns h r rfl
  · exact returns_of_silent (renewalCreated_returns h r rfl)
  · have h := Option.some.inj h
    unfold Store.attachRead at h
    split at h
    · exact returns_of_silent (Returns.of_eq h (attachError_returns P s _ _) r rfl)
    · cases h
  · exact returns_of_silent (attachHashed_returns h r rfl)
  · exact returns_of_silent (connectHello_returns h r rfl)
  · exact returns_of_silent (upload_returns h r rfl)
  · exact returns_of_silent (settle_returns h r rfl)
  · cases h

/-- In every run a call is answered with a result of its method. -/
theorem returned_of_method {now : Millis} {es : List (Lts.Event State Action)} {t : State}
    (h : Run P (initial now) es t) {k : ℕ} {r : Result} (hr : (k, r) ∈ t.returned) :
    ∃ c, CallIn es k c ∧ c.method.returns r := by
  have started : ∀ s c x o, start P s c = some (x, o) → o.Of Task.method Method.returns c.method := by
    intro s c x o hs
    cases o with
    | done r => exact start_returns hs
    | await u => exact (start_effect hs).method (start_touch hs)
  have resumed : ∀ s t a x o, resume P s t a = some (x, o) → o.Of Task.method Method.returns t.method := by
    intro s t a x o hs
    cases o with
    | done r => exact resume_returns hs
    | await u => exact (resume_effect hs).method (resume_touch hs)
  exact answered_of_run started resumed h rfl rfl hr

end Methods

/-! ### What the client reads is what the object said -/

/-- The state, its expiry as text. -/
def CertificateState.received : CertificateState → Rust.CertificateState
  | challenge .. => .challenge
  | issuing => .issuing
  | ready certificate chain expiry => .ready certificate chain (isoText expiry)
  | failed reason => .failed reason

/-- The answer as the Rust client holds it, without the id of the tunnel's
certificate. -/
def Answered.received : Answered → Rust.Api.Answered
  | tunnel t => .tunnel ⟨t.id, t.hostname, t.state, none⟩
  | certificate c => .certificate ⟨c.id, c.state.received⟩
  | nothing => .nothing

/-- The error of a refusal: its status, its tag and its message. -/
def ApiError.received (e : ApiError) : Rust.Client.Error := .api e.status e.tag e.message

theorem printable_texts (fields : List (String × String)) :
    Json.Printable (.object (fields.map fun f => (f.1, .string f.2))) := by
  refine .object fun f hf => ?_
  obtain ⟨g, -, rfl⟩ := List.mem_map.mp hf
  exact .string g.2

theorem ApiError.printable (e : ApiError) : Json.Printable e.value :=
  printable_texts (("_tag", e.tag) :: (e.fields ++ [("message", e.message)]))

theorem TunnelInfo.printable (t : TunnelInfo) : Json.Printable t.value := by
  unfold TunnelInfo.value
  cases t.certificateID with
  | none => exact printable_texts [("id", t.id), ("hostname", t.hostname), ("state", t.state.text)]
  | some c =>
    exact printable_texts [("id", t.id), ("hostname", t.hostname), ("state", t.state.text), ("certificateID", c)]

theorem CertificateState.printable (c : CertificateState) : Json.Printable c.value := by
  cases c with
  | challenge token key => exact printable_texts [("type", "challenge"), ("token", token), ("key", key)]
  | issuing => exact printable_texts [("type", "issuing")]
  | ready certificate chain expiry =>
    exact printable_texts
      [("type", "ready"), ("certificate", certificate), ("chain", chain), ("expiry", isoText expiry)]
  | failed reason => exact printable_texts [("type", "failed"), ("reason", reason)]

theorem CertificateInfo.printable (c : CertificateInfo) : Json.Printable c.value := by
  refine .object fun f hf => ?_
  simp only [List.mem_cons, List.not_mem_nil, or_false] at hf
  rcases hf with rfl | rfl
  · exact .string c.id
  · exact c.state.printable

namespace Rust.Api

theorem apiError_value (e : ApiError) : apiError e.value = some (e.tag, e.message) := by
  cases e <;> rfl

theorem tunnelInfo_value (t : ShuvTunnel.TunnelInfo) :
    tunnelInfo t.value = some ⟨t.id, t.hostname, t.state, none⟩ := by
  obtain ⟨id, hostname, state, certificateID⟩ := t
  cases certificateID <;> cases state <;> rfl

theorem certificateState_value (c : ShuvTunnel.CertificateState) : certificateState c.value = some c.received := by
  cases c <;> rfl

theorem certificateInfo_value (c : ShuvTunnel.CertificateInfo) :
    certificateInfo c.value = some ⟨c.id, c.state.received⟩ := by
  show (certificateState c.state.value).map _ = _
  rw [certificateState_value]
  rfl

theorem checked_error {e : ApiError} : checked ⟨e.status, Json.print e.value⟩ = .error e.received := by
  have hstatus : ¬ (200 ≤ e.status ∧ e.status < 300) := by cases e <;> simp [ApiError.status]
  unfold checked
  rw [if_neg hstatus, Json.parse_print e.printable, Option.bind_some, apiError_value]
  rfl

theorem json_error {α : Type} (decode : Json.Value → Option α) (e : ApiError) :
    json decode ⟨e.status, Json.print e.value⟩ = .error e.received := by
  unfold json
  rw [checked_error]

theorem json_ok {α : Type} {decode : Json.Value → Option α} {v : Json.Value} {x : α} (hp : Json.Printable v)
    (hx : decode v = some x) {status : ℕ} (hs : 200 ≤ status ∧ status < 300) :
    json decode ⟨status, Json.print v⟩ = .ok x := by
  have hc : checked ⟨status, Json.print v⟩ = .ok (Json.print v) := if_pos hs
  simp only [json, hc, Json.parse_print hp, Option.bind_some, hx]

end Rust.Api

namespace Endpoint

/-- The method of the object its handler calls. -/
def method : Endpoint → Method
  | get => .info
  | bindCertificate => .bindCertificate
  | getCertificate => .certificate
  | remove => .remove

variable {e : Endpoint} {id : String} {r : Result} {x : Except ApiError Answered}

/-- The handler knows every result of its method. -/
theorem handle_isSome (hr : e.method.returns r) : ∃ x, e.handle id r = some x := by
  cases e with
  | get =>
    cases r with
    | info result => cases result <;> exact ⟨_, rfl⟩
    | _ => exact hr.elim
  | bindCertificate =>
    cases r with
    | bindCertificate result => cases result <;> exact ⟨_, rfl⟩
    | thrown message => exact ⟨_, rfl⟩
    | _ => exact hr.elim
  | getCertificate =>
    cases r with
    | certificate result => cases result <;> exact ⟨_, rfl⟩
    | _ => exact hr.elim
  | remove =>
    cases r with
    | remove result => cases result <;> exact ⟨_, rfl⟩
    | _ => exact hr.elim

theorem error_of_map {α β ε : Type} {f : α → β} {y : Except ε α} {error : ε} (h : y.map f = .error error) :
    y = .error error := by
  cases y with
  | error e => exact congrArg Except.error (Except.error.inj h)
  | ok a => cases h

/-- An error is one the endpoint declares. -/
theorem tag_mem {error : ApiError} (h : e.handle id r = some (.error error)) : error.tag ∈ e.errors := by
  cases e with
  | get =>
    obtain ⟨y, hy, hx⟩ := Option.map_eq_some_iff.mp h
    rw [error_of_map hx] at hy
    unfold Api.get at hy
    split at hy <;> cases hy <;> simp [errors, ApiError.tag]
  | bindCertificate =>
    obtain ⟨y, hy, hx⟩ := Option.map_eq_some_iff.mp h
    rw [error_of_map hx] at hy
    unfold Api.bindCertificate at hy
    split at hy <;> cases hy <;> simp [errors, ApiError.tag]
  | getCertificate =>
    obtain ⟨y, hy, hx⟩ := Option.map_eq_some_iff.mp h
    rw [error_of_map hx] at hy
    unfold Api.getCertificate at hy
    split at hy <;> cases hy <;> simp [errors, ApiError.tag]
  | remove =>
    obtain ⟨y, hy, hx⟩ := Option.map_eq_some_iff.mp h
    rw [error_of_map hx] at hy
    unfold Api.remove at hy
    split at hy <;> cases hy <;> simp [errors, ApiError.tag]

/-- What the Rust client makes of what a handler returns. -/
def outcome : Except ApiError Answered → Except Rust.Client.Error Rust.Api.Answered
  | .ok a => .ok a.received
  | .error error => .error error.received

open Rust.Api in
/-- The Rust client reads what the handler returned. -/
theorem received (h : e.handle id r = some x) : receive (e.respond x) e = outcome x := by
  cases e with
  | get =>
    obtain ⟨y, -, rfl⟩ := Option.map_eq_some_iff.mp h
    cases y with
    | error error => exact congrArg (Except.map Rust.Api.Answered.tunnel) (json_error tunnelInfo error)
    | ok t =>
      have hs : 200 ≤ get.success ∧ get.success < 300 := by decide
      exact congrArg (Except.map Rust.Api.Answered.tunnel) (json_ok t.printable (tunnelInfo_value t) hs)
  | bindCertificate =>
    obtain ⟨y, -, rfl⟩ := Option.map_eq_some_iff.mp h
    cases y with
    | error error => exact congrArg (Except.map Rust.Api.Answered.certificate) (json_error certificateInfo error)
    | ok c =>
      have hs : 200 ≤ bindCertificate.success ∧ bindCertificate.success < 300 := by decide
      exact congrArg (Except.map Rust.Api.Answered.certificate) (json_ok c.printable (certificateInfo_value c) hs)
  | getCertificate =>
    obtain ⟨y, -, rfl⟩ := Option.map_eq_some_iff.mp h
    cases y with
    | error error => exact congrArg (Except.map Rust.Api.Answered.certificate) (json_error certificateInfo error)
    | ok c =>
      have hs : 200 ≤ getCertificate.success ∧ getCertificate.success < 300 := by decide
      exact congrArg (Except.map Rust.Api.Answered.certificate) (json_ok c.printable (certificateInfo_value c) hs)
  | remove =>
    obtain ⟨y, -, rfl⟩ := Option.map_eq_some_iff.mp h
    cases y with
    | error error => exact congrArg (Except.map fun _ => Rust.Api.Answered.nothing) (checked_error (e := error))
    | ok a => rfl

end Endpoint

/-- In every run of the object, with its calls in any interleaving, each call that has
returned did so with a result of its method. Where it was made for a request, that one
got a status and a body its endpoint declares, and the Rust client reads of them what
the method returned: the same value, or the error with its tag and its message. Only
the id of a tunnel's certificate does not reach it. -/
theorem answers_understood {P : Platform} {now : Millis} {es : List (Lts.Event State Action)} {t : State}
    (h : Run P (initial now) es t) {k : ℕ} {r : Result} (hr : (k, r) ∈ t.returned) :
    ∃ c, CallIn es k c ∧ c.method.returns r ∧ ∀ (e : Endpoint) (id : String), e.method = c.method →
      ∃ x, e.handle id r = some x ∧ (∀ error, x = .error error → error.tag ∈ e.errors) ∧
        Rust.Api.receive (e.respond x) e = Endpoint.outcome x := by
  obtain ⟨c, hc, hret⟩ := returned_of_method h hr
  refine ⟨c, hc, hret, fun e id he => ?_⟩
  have hret : e.method.returns r := he ▸ hret
  obtain ⟨x, hx⟩ : ∃ x, e.handle id r = some x := Endpoint.handle_isSome hret
  exact ⟨x, hx, fun error herror => Endpoint.tag_mem (herror ▸ hx), Endpoint.received hx⟩

/-- A certificate is asked for twice, by another and by the owner. -/
def askingRun : List Action :=
  initializing :: binding 1 "csr" "1" ++
    [.call (.certificate "other"), .resume 2 .ok, .call (.certificate "tok"), .resume 3 .ok]

theorem answers_understood_asking : ∃ es t, Run plainPlatform (initial 0) es t ∧ es.map (·.label) = askingRun ∧
    (∃ c, CallIn es 2 c ∧ c.method.returns (.certificate .unauthorized) ∧
      ∀ (e : Endpoint) (id : String), e.method = c.method → ∃ x, e.handle id (.certificate .unauthorized) = some x ∧
        (∀ error, x = .error error → error.tag ∈ e.errors) ∧ Rust.Api.receive (e.respond x) e = Endpoint.outcome x) ∧
    Rust.Api.receive (Endpoint.getCertificate.respond (.error (.unauthorizedError "Invalid bearer token")))
      .getCertificate = .error (.api 401 "UnauthorizedError" "Invalid bearer token") := by
  obtain ⟨t, ht, hr⟩ : ∃ t, after plainPlatform askingRun = some t ∧
      (2, Result.certificate .unauthorized) ∈ t.returned := ⟨_, rfl, by decide⟩
  obtain ⟨es, hrun, hl⟩ := Lts.Run.exists_of_exec ht
  have hreceived : Endpoint.getCertificate.handle "t" (.certificate .unauthorized) =
      some (.error (.unauthorizedError "Invalid bearer token")) := rfl
  exact ⟨es, t, hrun, hl, answers_understood hrun hr, Endpoint.received hreceived⟩

end ShuvTunnel
