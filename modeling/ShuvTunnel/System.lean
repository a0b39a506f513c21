/-
# The object as a system

The calls the object receives, the segments its suspended handlers resume
with, and what happens around it: time passes, peers close sockets, the
runtime forgets sockets that are not open, and certificate workflows run. The
states are those the object reaches from an empty storage.
-/
import ShuvTunnel.BridgeHandlers

namespace ShuvTunnel

open Coop

/-- A call of the object; `uuid` is what `crypto.randomUUID` gives it. -/
inductive Call
  | initialized (id hostname tokenHash : String)
  | info (token : String)
  | certificate (token : String)
  | bindCertificate (token csr : String)
  | remove (token : String)
  | alarm (uuid : String)
  | fetch (upgrade protocols : Option String) (position : ℕ)
  | webSocketMessage (socket : ℕ) (message : Message)
  | webSocketClose (socket : ℕ)
  | webSocketError (socket : ℕ)
  | connect

/-- What happens to the object without a call: time, the sockets' own ends, and
the workflows. -/
inductive Event
  | tick (elapsed : ℕ)
  | peerClose (socket : ℕ)
  | forget (socket : ℕ)
  | workflow (id : String) (e : WorkflowEvent)

/-- A method up to its first await. -/
def start (P : Platform) (s : Store) : Call → Option Segment
  | .initialized id hostname tokenHash =>
    let r := s.durable.initializeTunnel id hostname tokenHash
    some ({ s with durable := r.1 }, .done (.initialized r.2))
  | .info token => some (s.info token)
  | .certificate token => some (s.certificate token)
  | .bindCertificate token csr => some (s.bindCertificate token csr)
  | .remove token => some (s.remove token)
  | .alarm uuid => s.alarm uuid
  | .fetch upgrade protocols position => some (s.fetch upgrade protocols position)
  | .webSocketMessage socket message => s.webSocketMessage P socket message
  | .webSocketClose socket => s.webSocketClose socket
  | .webSocketError socket => s.webSocketError socket
  | .connect => some (s, .await (.connectRead s.durable.record))

/-- A method from the answer to an await to the next one, or to its end. -/
def resume (P : Platform) (s : Store) : Task → Answer → Option Segment
  | .infoHash token record, .ok => some (s.infoHashed P token record)
  | .certificateHash token record, .ok => some (s.certificateHashed P token record)
  | .removeHash token record, .ok => some (s.removeHashed P token record)
  | .bindHash token csr record, .ok => some (s.bindHashed P token csr record)
  | .bindVerify csr request record, .drawn uuid _ => s.bindVerified csr request record uuid
  | .ensureGet e, a => s.ensureGot e a
  | .ensureStatus e, a => s.ensureStatus e a
  | .ensureCreate e accepted, a => s.ensureCreated e accepted a
  | .ensureRestart e accepted, a => s.ensureRestarted e accepted a
  | .renewCreate record params accepted, a => s.renewalCreated record params accepted a
  | .attachRecord socket token routes, .ok => some (s.attachRead P socket token routes)
  | .attachHash socket token routes record, .drawn uuid session =>
    s.attachHashed P socket token routes record uuid session
  | .connectRead record, .hello h => s.connectHello P record h
  | .upload key, a => s.upload P key a
  | .settling key, .ok => s.settle key
  | _, _ => none

/-- The world's own steps; a socket is forgotten once it is not open. -/
def environment (P : Platform) (s : Store) : Event → Option Store
  | .tick elapsed => some { s with durable := { s.durable with now := s.durable.now + elapsed } }
  | .peerClose socket => some (s.withBridges (s.bridges.close socket))
  | .forget socket =>
    if s.bridges.isOpen socket then none
    else some (s.withBridges { s.bridges with sockets := s.bridges.sockets.filter fun w => w.id ≠ socket })
  | .workflow id e => (s.durable.workflowStep P id e).map fun d => { s with durable := d }

/-- The handlers of the object, for the cooperative scheduler. -/
def handlers (P : Platform) : Handlers Store Call Task Answer Event Result where
  start := start P
  resume := resume P
  environment := environment P

/-- A state of the object: its store, its suspended handlers and its results. -/
abbrev State := Coop.State Store Task Result

/-- The steps of the object's system. -/
abbrev Action := Coop.Label Call Answer Event

/-- The object over its platform. -/
abbrev tunnelObject (P : Platform) : Lts.System State Action := (handlers P).system

/-- An empty storage, no socket, no handler. -/
def initial (now : Millis) : State where
  store :=
    { durable := { now, record := none, alarm := none, instances := [], minted := [], creates := [],
                   deliveries := [] }
      bridges := { sockets := [], nextSocket := 0, channels := [], connections := [],
                   nextConnection := 0, sequence := 1 } }
  tasks := []
  returned := []
  next := 0

/-- The states the object reaches. -/
abbrev Reachable (P : Platform) : State → Prop :=
  Lts.Reachable (tunnelObject P) fun s => ∃ now, s = initial now

theorem called {P : Platform} {s : State} (h : Reachable P s) : Called s := by
  refine called_of_reachable ?_ h
  rintro s ⟨now, rfl⟩
  exact ⟨fun _ h => (nomatch h), fun _ h => nomatch h⟩

/-- A resumed segment is the step it makes. -/
theorem step_resume {P : Platform} {s : State} {k : ℕ} {t : Task} {a : Answer} (ht : s.task k = some t) :
    (tunnelObject P).step s (.resume k a) =
      (resume P s.store t a).map fun p => (s.wake k).settle k p.1 p.2 := by
  show (s.task k).bind _ = _
  rw [ht]
  rfl

/-- A run of the object. -/
abbrev Run (P : Platform) : State → List (Lts.Event State Action) → State → Prop :=
  Lts.Run (tunnelObject P)

/-! ### Runs of actions -/

/-- The object after the actions `as`, from an empty storage at time 0. -/
def after (P : Platform) (as : List Action) : Option State := (tunnelObject P).exec (initial 0) as

theorem reachable_of_after {P : Platform} {as : List Action} {s : State} (h : after P as = some s) :
    Reachable P s :=
  .of_exec ⟨0, rfl⟩ h

/-- A platform to run the object on: a token is its own hash, every CSR but
the empty one asks for the tunnel `t.d`, a certificate is its CSR. -/
def plainPlatform : Platform where
  hashToken := id
  decodeCsr csr := if csr = "" then none else
    some { verified := true, commonName := "t.d", dnsNames := some [] }
  decodeCsr_empty := rfl
  issuedFor := id
  sendThrows := true

/-- `initialize`, as call 0. -/
def initializing : Action := .call (.initialized "t" "t.d" "tok")

/-- Call `k` binds `csr`, and the service takes its workflow. -/
def binding (k : ℕ) (csr uuid : String) : List Action :=
  [.call (.bindCertificate "tok" csr), .resume k .ok, .resume k (.drawn uuid ""),
   .resume k (.error "instance.not_found"), .resume k .accepted, .resume k .ok]

/-- The workflow of `uuid` posts a challenge. -/
def challenging (uuid : String) : Action := .environment (.workflow ("cert_" ++ uuid) (.challenge "token" "key"))

/-- The workflow of `uuid` posts a challenge and a certificate for `csr`. -/
def delivering (uuid csr : String) (expiry : Millis) : List Action :=
  [challenging uuid, .environment (.workflow ("cert_" ++ uuid) (.ready csr "" expiry))]

/-- The tunnel is bound to `csr` by call 1, and its certificate ready. -/
def provisioned (csr : String) : List Action :=
  initializing :: binding 1 csr "1" ++ delivering "1" csr (40 * DAY_MS)

/-- A socket is accepted. -/
def fetching : Action := .call (.fetch (some "websocket") (some "shuvtunnel") 0)

/-- Socket `w` sends its attach message. -/
def attachMessage (w : ℕ) : Action :=
  .call (.webSocketMessage w (.text (some (.obj [("type", .str "attach"), ("token", .str "tok")]))))

/-- The tunnel is provisioned, and socket 0 attaches with the route `@`, by
call 3. -/
def servingRun : List Action :=
  provisioned "csr" ++ [fetching, attachMessage 0, .resume 3 .ok, .resume 3 (.drawn "" "1")]

end ShuvTunnel
