/-
# The clients that provision a tunnel

`Client::complete` of the Rust client and `completePending` of the TypeScript
client take the same steps: bind the CSR of the pending identity, then ask for
the certificate until it is ready or has failed, and save an identity. Any
number of them do so on one tunnel, each with a pending identity of its own
(or one it resumes), while the object also receives other calls. A request
reaches the object, and its answer the client, at any later time or never.

What a client read (`Client.reading`) records the tunnel the object found when
the request came; the client does not know it.

Key definitions: `Client`, `Client.step`, `World`, `world`.
-/
import ShuvTunnel.Api

namespace ShuvTunnel

/-- `PendingIdentity`, as both clients store it. -/
structure PendingIdentity where
  id : String
  hostname : String
  token : String
  privateKey : String
  csr : String
  deriving DecidableEq

/-- `Identity`, of a tunnel whose certificate has come. -/
structure Identity where
  id : String
  hostname : String
  token : String
  privateKey : String
  certificate : String
  chain : String
  certificateExpiry : Millis
  deriving DecidableEq

/-- Why `complete` gives up: the API's error, a failed certificate, or no
answer. -/
inductive CompleteError
  | api (e : ApiError)
  | certificateFailed (reason : String)
  | lost
  deriving DecidableEq

/-- Where `complete` is. A call the client waits for is given by its number. -/
inductive Client
  | requesting (pending : PendingIdentity)
  | binding (pending : PendingIdentity) (call : ℕ)
  | polling (pending : PendingIdentity)
  | reading (pending : PendingIdentity) (call : ℕ) (record : Option StoredTunnel)
  | saved (pending : PendingIdentity) (identity : Identity)
  | failed (pending : PendingIdentity) (e : CompleteError)

namespace Client

/-- The identity `complete` saves. -/
def identityOf (pending : PendingIdentity) (certificate chain : String) (expiry : Millis) : Identity where
  id := pending.id
  hostname := pending.hostname
  token := pending.token
  privateKey := pending.privateKey
  certificate := certificate
  chain := chain
  certificateExpiry := expiry

/-- `bind_certificate` is answered. -/
def bound (pending : PendingIdentity) : Except ApiError CertificateInfo → Client
  | .ok _ => .polling pending
  -- "A resumed provision may already have an issuance in flight."
  | .error e => if e.tag = "CertificateInProgressError" then .polling pending else .failed pending (.api e)

/-- `certificate` is answered. -/
def polled (pending : PendingIdentity) : Except ApiError CertificateInfo → Client
  | .ok info =>
    match info.state with
    | .ready certificate chain expiry => .saved pending (identityOf pending certificate chain expiry)
    | .failed reason => .failed pending (.certificateFailed reason)
    | .challenge _ _ | .issuing => .polling pending
  | .error e => .failed pending (.api e)

/-- What happens to a client: its request reaches the object, it receives the
answer, or it gives up. -/
inductive Move
  | request
  | receive
  | lose

/-- A client's move: a request starts a call of the object, and its result is
received when the call has returned. -/
def step (P : Platform) (o : State) : Client → Move → Option (State × Client)
  | .requesting pending, .request =>
    ((tunnelObject P).step o (.call (.bindCertificate pending.token pending.csr))).map fun o' =>
      (o', .binding pending o.next)
  | .polling pending, .request =>
    ((tunnelObject P).step o (.call (.certificate pending.token))).map fun o' =>
      (o', .reading pending o.next o.store.durable.live)
  | .binding pending k, .receive =>
    ((o.result k).bind (Api.bindCertificate pending.id)).map fun a => (o, bound pending a)
  | .reading pending k _, .receive =>
    ((o.result k).bind (Api.getCertificate pending.id)).map fun a => (o, polled pending a)
  | .requesting pending, .lose | .binding pending _, .lose | .polling pending, .lose
  | .reading pending _ _, .lose => some (o, .failed pending .lost)
  | _, _ => none

/-- A move is a request, an answer to one, or the end of it. -/
theorem step_cases {P : Platform} {o o' : State} {c c' : Client} {m : Move}
    (h : c.step P o m = some (o', c')) :
    (∃ pending, c = .requesting pending ∧ c' = .binding pending o.next ∧
      (tunnelObject P).step o (.call (.bindCertificate pending.token pending.csr)) = some o') ∨
    (∃ pending, c = .polling pending ∧ c' = .reading pending o.next o.store.durable.live ∧
      (tunnelObject P).step o (.call (.certificate pending.token)) = some o') ∨
    (∃ pending k a, c = .binding pending k ∧ c' = bound pending a ∧ o' = o) ∨
    (∃ pending k record r a, c = .reading pending k record ∧ m = .receive ∧ o.result k = some r ∧
      Api.getCertificate pending.id r = some a ∧ c' = polled pending a ∧ o' = o) ∨
    (∃ pending, m = .lose ∧ c' = .failed pending .lost ∧ o' = o) := by
  cases m with
  | request =>
    cases c with
    | requesting pending =>
      rw [step, Option.map_eq_some_iff] at h
      obtain ⟨x, h1, h2⟩ := h
      obtain ⟨rfl, rfl⟩ := Prod.mk.inj h2
      exact .inl ⟨pending, rfl, rfl, h1⟩
    | polling pending =>
      rw [step, Option.map_eq_some_iff] at h
      obtain ⟨x, h1, h2⟩ := h
      obtain ⟨rfl, rfl⟩ := Prod.mk.inj h2
      exact .inr (.inl ⟨pending, rfl, rfl, h1⟩)
    | _ => cases h
  | receive =>
    cases c with
    | binding pending k =>
      rw [step, Option.map_eq_some_iff] at h
      obtain ⟨a, -, h2⟩ := h
      obtain ⟨rfl, rfl⟩ := Prod.mk.inj h2
      exact .inr (.inr (.inl ⟨pending, k, a, rfl, rfl, rfl⟩))
    | reading pending k record =>
      rw [step, Option.map_eq_some_iff] at h
      obtain ⟨a, h1, h2⟩ := h
      obtain ⟨r, hr, ha⟩ := Option.bind_eq_some_iff.mp h1
      obtain ⟨rfl, rfl⟩ := Prod.mk.inj h2
      exact .inr (.inr (.inr (.inl ⟨pending, k, record, r, a, rfl, rfl, hr, ha, rfl, rfl⟩)))
    | _ => cases h
  | lose =>
    cases c with
    | requesting pending | binding pending k | polling pending | reading pending k record =>
      obtain ⟨rfl, rfl⟩ := Prod.mk.inj (Option.some.inj h)
      exact .inr (.inr (.inr (.inr ⟨pending, rfl, rfl, rfl⟩)))
    | _ => cases h

end Client

/-- The object and the clients of its tunnel. -/
structure World where
  object : State
  clients : List Client

namespace World

/-- The object takes a step of its own, a client begins to complete a pending
identity, or a client moves. -/
inductive Label
  | object (a : Action)
  | complete (pending : PendingIdentity)
  | client (i : ℕ) (m : Client.Move)

/-- The steps of the world: the object's own, a client that begins to complete a
pending identity, and the clients' moves. -/
def step (P : Platform) (w : World) : Label → Option World
  | .object a => ((tunnelObject P).step w.object a).map fun o => { w with object := o }
  | .complete pending => some { w with clients := w.clients ++ [.requesting pending] }
  | .client i m =>
    (w.clients[i]?).bind fun c => (c.step P w.object m).map fun x => ⟨x.1, w.clients.set i x.2⟩

/-- An empty storage, and no client. -/
def Initial (w : World) : Prop := (∃ now, w.object = initial now) ∧ w.clients = []

end World

/-- The clients and the object as one system. -/
abbrev world (P : Platform) : Lts.System World World.Label := ⟨World.step P⟩

end ShuvTunnel
