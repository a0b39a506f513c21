/-
# What a segment can do

Every segment of a handler has one of the effects listed by `Effect`, and
every event of the environment one of those listed by `Change`
(`Segments.lean`). Most are `quiet`: the durable state stays as it is. The
others are the writes of the record, and what the workflow service takes. What
an effect says of the record it writes is what the invariants need; they are
proved by cases on it and never unfold a handler.

`writesBack` tells, before a suspended handler resumes, whether the segment
ends by writing the record the handler read before.

Key definitions: `writesBack`, `Follows`, `Effect`, `Change`, `Update`.
-/
import ShuvTunnel.Quiet

namespace ShuvTunnel

open Coop

/-! ### When a handler writes what it read -/

/-- The CSR is signed and asks for this tunnel's names only. -/
def validRequest (request : CertificateRequest) (record : StoredTunnel) : Bool :=
  request.verified && request.identifiers.any fun identifiers =>
    request.commonName = record.hostname &&
      !identifiers.any fun x => x ≠ record.hostname && x ≠ "*." ++ record.hostname

/-- The record has a certificate, for this very CSR. -/
def resubmits (csr : String) (record : StoredTunnel) : Bool :=
  record.certificate.isSome && record.certificateCsr = some csr

/-- `bindCertificate` stores a new certificate. -/
def bindStores (csr : String) (request : CertificateRequest) (record : StoredTunnel) : Bool :=
  validRequest request record && !resubmits csr record && !record.inProgress

/-- The attach message is accepted. -/
def attachAccepts (P : Platform) (b : Bridges) (socket : ℕ) (token : String) (routes : Option Json)
    (record : StoredTunnel) : Bool :=
  P.hashToken token = record.tokenHash && record.ready &&
    !(Store.requestedRoutes routes).isEmpty && (Store.requestedRoutes routes).all validRoute &&
    !Store.routeConflict b socket (Store.requestedRoutes routes)

/-- `send` on this socket does not throw. -/
def replies (P : Platform) (b : Bridges) (socket : ℕ) : Bool := b.isOpen socket || !P.sendThrows

/-- The connection is given a channel. -/
def connectOpens (b : Bridges) (record : Option StoredTunnel) (hello : Hello) : Bool :=
  record.any (fun r => r.deletedAt.isNone && r.ready) &&
    (truthy (Store.routeOf record hello.sni)).any (fun route => !route.toList.contains '.') &&
    (Store.findBridge b (Store.routeOf record hello.sni)).isSome

/-- Resumed with this answer, the handler ends by writing the record it read
before it was suspended. -/
def writesBack (P : Platform) (s : Store) : Task → Answer → Bool
  | .removeHash token record, .ok => P.hashToken token = record.tokenHash
  | .bindVerify csr request record, .drawn _ _ => bindStores csr request record
  | .ensureGet e, .error message => e.issue && !Store.isNotFound message
  | .ensureStatus e, .error _ => e.issue
  | .ensureCreate e _, .error _ => e.issue
  | .ensureRestart e _, .error _ => e.issue
  | .renewCreate _ _ _, .error _ => true
  | .attachHash socket token routes record, .drawn _ _ =>
    attachAccepts P s.bridges socket token routes record
  | _, _ => false

/-- Resumed with this answer, `connect` enters a channel into the map. -/
def opens (s : Store) : Task → Answer → Bool
  | .connectRead record, .hello h => connectOpens s.bridges record h
  | _, _ => false

/-! ### Ids -/

/-- An id `crypto.randomUUID` can give now. -/
structure Fresh (d : Durable) (id : String) : Prop where
  unused : id ∉ d.minted.map (·.1)
  ne_undefined : id ≠ "undefined"
  ne_empty : id ≠ ""

theorem cert_ne (u x : String) (hx : x.toList.take 5 ≠ "cert_".toList) : "cert_" ++ u ≠ x := by
  rintro rfl
  apply hx
  rw [String.toList_append]
  rfl

theorem mint_cases {d d' : Durable} {uuid csr id : String} (h : d.mint uuid csr = some (d', id)) :
    Fresh d id ∧ d' = { d with minted := d.minted ++ [(id, csr)] } := by
  unfold Durable.mint at h
  simp only at h
  split at h
  · cases h
  · rename_i hn
    obtain ⟨rfl, rfl⟩ := Prod.mk.inj (Option.some.inj h)
    exact ⟨⟨hn, cert_ne _ _ (by decide), cert_ne _ _ (by decide)⟩, rfl⟩

/-! ### Effects -/

/-- What made a segment run: a call, or the answer to a suspended handler. -/
inductive Cause
  | call (c : Call)
  | resumed (t : Task) (a : Answer)

/-- What is excluded of the segment that resumes call `k`, said of its cause
and of the state before. -/
theorem resumed_iff {s : State} {k : ℕ} {t : Task} {a : Answer} {Q : Task → Answer → Prop}
    (ht : s.task k = some t) :
    (∀ t' a', Cause.resumed t a = .resumed t' a' → ¬ Q t' a') ↔ ¬ ∃ t', s.task k = some t' ∧ Q t' a := by
  constructor
  · rintro hn ⟨t', ht', hq⟩
    obtain rfl := Option.some.inj (ht.symm.trans ht')
    exact hn t a rfl hq
  · intro hn t' a' he hq
    obtain ⟨rfl, rfl⟩ := Cause.resumed.inj he
    exact hn ⟨t, ht, hq⟩

/-- The task a quiet segment leaves: a call's first one, or the next of the
same handler. What it carries is what the segment read or was carrying. -/
inductive Follows (P : Platform) (d : Durable) : Cause → Task → Prop
  | info {token : String} {r : StoredTunnel} : d.live = some r →
      Follows P d (.call (.info token)) (.infoHash token r)
  | certificate {token : String} {r : StoredTunnel} : d.live = some r →
      Follows P d (.call (.certificate token)) (.certificateHash token r)
  | remove {token : String} {r : StoredTunnel} : d.live = some r →
      Follows P d (.call (.remove token)) (.removeHash token r)
  | bind {token csr : String} {r : StoredTunnel} : d.live = some r →
      Follows P d (.call (.bindCertificate token csr)) (.bindHash token csr r)
  | attach {w : ℕ} {m : Message} {token : String} {routes : Option Json} :
      Follows P d (.call (.webSocketMessage w m)) (.attachRecord w token routes)
  | connect : Follows P d (.call .connect) (.connectRead d.record)
  | attachRead {w : ℕ} {token : String} {routes : Option Json} {r : StoredTunnel} {a : Answer} :
      d.live = some r → Follows P d (.resumed (.attachRecord w token routes) a) (.attachHash w token routes r)
  | bindHash {token csr : String} {req : CertificateRequest} {r : StoredTunnel} {a : Answer} :
      P.hashToken token = r.tokenHash → P.decodeCsr csr = some req →
      Follows P d (.resumed (.bindHash token csr r) a) (.bindVerify csr req r)
  | resubmit {csr : String} {req : CertificateRequest} {r : StoredTunnel} {ids : List String}
      {c : CertificateInfo} {a : Answer} : r.certificate = some c → r.certificateCsr = some csr →
      Follows P d (.resumed (.bindVerify csr req r) a) (.ensureGet ⟨r, csr, ids, c, false⟩)
  | ensureStatus {e : Ensure} {a : Answer} : Follows P d (.resumed (.ensureGet e) a) (.ensureStatus e)
  | ensureRestart {e : Ensure} {a : Answer} :
      Follows P d (.resumed (.ensureStatus e) a) (.ensureRestart e false)
  | upload {t : Task} {key : ℕ} {a : Answer} : Follows P d (.resumed t a) (.upload key)
  | settling {t : Task} {key : ℕ} {a : Answer} : Follows P d (.resumed t a) (.settling key)

/-- `bindCertificate`'s record with the certificate it issues. -/
def issuingRecord (record : StoredTunnel) (csr : String) (identifiers : List String) (id : String) :
    StoredTunnel :=
  { record with
    certificateID := some id
    certificate := some ⟨id, .issuing⟩
    certificateCsr := some csr
    certificateIdentifiers := some identifiers
    renewal := none }

/-- The ensure that `issue` goes on with. -/
def issueEnsure (record : StoredTunnel) (csr : String) (identifiers : List String) (id : String) : Ensure where
  record := issuingRecord record csr identifiers id
  csr := csr
  identifiers := identifiers
  certificate := ⟨id, .issuing⟩
  issue := true

/-- The parameters of a renewal of the record's certificate. -/
def renewalParams (record : StoredTunnel) (csr id : String) : CertificateWorkflowParams where
  tunnelID := record.id
  certificateID := id
  hostname := record.hostname
  identifiers := record.certificateIdentifiers.getD [record.hostname]
  csr := csr

/-- The id `id` is drawn for `csr`. -/
def Durable.minting (d : Durable) (id csr : String) : Durable := { d with minted := d.minted ++ [(id, csr)] }

/-- `startRenewal` up to its `create`. -/
def Durable.renewing (d : Durable) (record : StoredTunnel) (csr id : String) : Durable :=
  { (d.minting id csr).save { record with renewal := some ⟨id, d.now⟩ } with
    creates := d.creates ++ [renewalParams record csr id] }

/-- The record an accepted attach message writes. -/
def connectedRecord (record : StoredTunnel) (now : Millis) : StoredTunnel :=
  { record with state := .online, lastConnectedAt := some now }

/-- A renewal is recorded that is not stale. -/
def StoredTunnel.renewing (r : StoredTunnel) (now : Millis) : Bool :=
  r.renewal.any fun x => now - x.startedAt < RENEWAL_STALE_MS

/-- The ensure phases of `bindCertificate`, and what they carry. -/
def Task.ensure : Task → Option Ensure
  | .ensureGet e | .ensureStatus e | .ensureCreate e _ | .ensureRestart e _ => some e
  | _ => none

/-- The record a suspended handler read or wrote before. -/
def Task.snapshot : Task → Option StoredTunnel
  | .infoHash _ r | .certificateHash _ r | .removeHash _ r | .bindHash _ _ r | .bindVerify _ _ r
  | .renewCreate r _ _ | .attachHash _ _ _ r => some r
  | .ensureGet e | .ensureStatus e | .ensureCreate e _ | .ensureRestart e _ => some e.record
  | .connectRead r => r
  | .attachRecord .. | .upload _ | .settling _ => none

theorem Task.snapshot_of_ensure {t : Task} {e : Ensure} (h : t.ensure = some e) :
    t.snapshot = some e.record := by
  cases t <;> first | cases h; rfl | cases h

/-- The `create` a handler waits for. -/
def Task.creating : Task → Option CertificateWorkflowParams
  | .ensureCreate e _ => some (Store.ensureParams e)
  | .renewCreate _ params _ => some params
  | _ => none

/-- The same handler once the service has taken its request. -/
def Task.taken : Task → Task
  | .ensureCreate e _ => .ensureCreate e true
  | .ensureRestart e _ => .ensureRestart e true
  | .renewCreate record params _ => .renewCreate record params true
  | t => t

/-- The handler of `remove`, before it stores the deletion. -/
def Task.removing : Task → Bool
  | .removeHash .. => true
  | _ => false

/-- A handler of `bindCertificate` that may still store a certificate, or its
failure. -/
def Task.binds : Task → Bool
  | .bindVerify .. | .ensureGet _ | .ensureStatus _ | .ensureCreate .. | .ensureRestart .. => true
  | _ => false

theorem binds_of_ensure {t : Task} {e : Ensure} (h : t.ensure = some e) : t.binds = true := by
  cases t <;> first | rfl | cases h

/-- Only a call that stored a certificate stores its failure. -/
theorem issue_of_writesBack {P : Platform} {s : Store} {t : Task} {a : Answer} {e : Ensure}
    (h : t.ensure = some e) (hw : writesBack P s t a = true) : e.issue = true := by
  cases t with
  | ensureGet e' =>
    obtain rfl := Option.some.inj h
    cases a with
    | error message => exact (Bool.and_eq_true_iff.mp hw).1
    | _ => cases hw
  | ensureStatus e' | ensureCreate e' accepted | ensureRestart e' accepted =>
    obtain rfl := Option.some.inj h
    cases a with
    | error message => exact hw
    | _ => cases hw
  | _ => cases h

theorem attachAccepts_ready {P : Platform} {b : Bridges} {w : ℕ} {token : String} {routes : Option Json}
    {r : StoredTunnel} (h : attachAccepts P b w token routes r = true) : r.ready = true := by
  simp only [attachAccepts, Bool.and_eq_true] at h
  exact h.1.1.1.2

theorem writesBack_accepted (P : Platform) (s : Store) (t : Task) : writesBack P s t .accepted = false := by
  cases t <;> rfl

theorem opens_accepted (s : Store) (t : Task) : opens s t .accepted = false := by
  cases t <;> rfl

theorem removing_of_ensure {t : Task} {e : Ensure} (h : t.ensure = some e) : t.removing = false := by
  cases t <;> first | rfl | cases h

theorem opens_of_ensure {s : Store} {t : Task} {e : Ensure} (h : t.ensure = some e) (a : Answer) :
    opens s t a = false := by
  cases t <;> first | rfl | cases h

/-- The effect of a segment on the store, and how it ends. -/
inductive Effect (P : Platform) (s : Store) : Cause → Store → Outcome Task Result → Prop
  /-- Nothing durable changes. -/
  | quiet {c : Cause} {b : Bridges} {o : Outcome Task Result} :
      s.bridges.Quiet b → (∀ u, o = .await u → Follows P s.durable c u) →
      (∀ t a, c = .resumed t a → writesBack P s t a = false ∧ opens s t a = false) →
      Effect P s c (s.withBridges b) o
  /-- `connect` enters a channel. -/
  | opened {record : Option StoredTunnel} {h : Hello} {b : Bridges} {o : Outcome Task Result} {conn key : ℕ} :
      connectOpens s.bridges record h = true → s.bridges.Quiet { b with channels := s.bridges.channels } →
      b.channels = s.bridges.channels ++ [(conn, key)] → (∀ p ∈ s.bridges.channels, p.1 ≠ conn) →
      (∀ u, o = .await u → ∃ k, u = .upload k) →
      Effect P s (.resumed (.connectRead record) (.hello h)) (s.withBridges b) o
  /-- `initialize` stores a new record. -/
  | created {id hostname tokenHash : String} {r : StoredTunnel} {o : Result} : s.durable.live = none →
      r.certificate = none → r.certificateID = none → r.certificateCsr = none → r.renewal = none →
      r.deletedAt = none → Effect P s (.call (.initialized id hostname tokenHash)) (s.save r) (.done o)
  /-- The close event of the last attached bridge. -/
  | closed {w : ℕ} {r : StoredTunnel} {b : Bridges} : s.durable.live = some r → s.bridges.Quiet b →
      Effect P s (.call (.webSocketClose w)) ((s.withBridges b).save { r with state := .offline }) (.done .void)
  /-- The alarm, without a renewal: while a bridge is attached, it is set again
  or a renewal is young. -/
  | alarmed {uuid : String} {a : Option Millis} :
      (∀ r, s.durable.live = some r → r.ready = true → s.bridges.attachedBridges ≠ [] →
        truthy r.certificateCsr ≠ none → a.isSome = true ∨ r.renewing s.durable.now = true) →
      Effect P s (.call (.alarm uuid)) { s with durable := { s.durable with alarm := a } } (.done .void)
  /-- The alarm starts a renewal. -/
  | renewing {uuid : String} {r : StoredTunnel} {csr id : String} : s.durable.live = some r → r.ready = true →
      Fresh s.durable id → r.certificateCsr = some csr → csr ≠ "" →
      Effect P s (.call (.alarm uuid)) { s with durable := { s.durable with alarm := none }.renewing r csr id }
        (.await (.renewCreate r (renewalParams r csr id) false))
  /-- `bindCertificate` stores the certificate it issues. -/
  | issued {csr : String} {req : CertificateRequest} {r : StoredTunnel} {ids : List String}
      {id uuid session : String} : bindStores csr req r = true → Fresh s.durable id →
      Effect P s (.resumed (.bindVerify csr req r) (.drawn uuid session))
        { s with durable := (s.durable.minting id csr).save (issuingRecord r csr ids id) }
        (.await (.ensureGet (issueEnsure r csr ids id)))
  /-- The workflow of a certificate `bindCertificate` stored cannot be started. -/
  | issueFailed {t : Task} {e : Ensure} {message reason : String} : t.ensure = some e → e.issue = true →
      writesBack P s t (.error message) = true →
      Effect P s (.resumed t (.error message))
        (s.save { e.record with certificate := some ⟨e.certificate.id, .failed reason⟩ })
        (.done (.bindCertificate (.workflowUnavailable reason)))
  /-- `CERTIFICATES.create` is called. -/
  | requested {t : Task} {a : Answer} {e : Ensure} : t.ensure = some e → writesBack P s t a = false →
      Effect P s (.resumed t a) (s.requestCreate (Store.ensureParams e)) (.await (.ensureCreate e false))
  /-- The service takes a `create`. -/
  | taken {t : Task} {params : CertificateWorkflowParams} {d : Durable} : t.creating = some params →
      s.durable.createWorkflow params = some d →
      Effect P s (.resumed t .accepted) { s with durable := d } (.await t.taken)
  /-- The service takes a `restart`. -/
  | restarted {e : Ensure} {accepted : Bool} {d : Durable} :
      s.durable.restartWorkflow (Store.ensureParams e).certificateID = some d →
      Effect P s (.resumed (.ensureRestart e accepted) .accepted) { s with durable := d }
        (.await (.ensureRestart e true))
  /-- `remove` stores the deletion. -/
  | removed {token : String} {r : StoredTunnel} : P.hashToken token = r.tokenHash →
      Effect P s (.resumed (.removeHash token r) .ok)
        ((s.withBridges (Store.shutDown s.bridges)).save
          { r with state := .offline, deletedAt := some s.durable.now }) (.done (.remove .ok))
  /-- An attach message is accepted, but the socket has closed and the reply
  throws: nothing is done about renewals. -/
  | attachThrown {w : ℕ} {token uuid session : String} {routes : Option Json} {r : StoredTunnel} :
      attachAccepts P s.bridges w token routes r = true → replies P s.bridges w = false →
      Effect P s (.resumed (.attachHash w token routes r) (.drawn uuid session))
        ⟨s.durable.save (connectedRecord r s.durable.now), s.bridges.serializeAttachment w
          { attached := true, session := some ("sess_" ++ session),
            routes := some (Store.requestedRoutes routes) }⟩ (.done (.thrown "send"))
  /-- An attach message is accepted; no renewal is due. -/
  | attached {w : ℕ} {token uuid session : String} {routes : Option Json} {r : StoredTunnel} {b : Bridges}
      {a : Option Millis} {o : Result} : attachAccepts P s.bridges w token routes r = true →
      replies P s.bridges w = true →
      (s.bridges.serializeAttachment w
        { attached := true, session := some ("sess_" ++ session),
          routes := some (Store.requestedRoutes routes) }).Quiet b →
      (r.deletedAt = none → truthy r.certificateCsr ≠ none → a.isSome = true) →
      Effect P s (.resumed (.attachHash w token routes r) (.drawn uuid session))
        ⟨{ s.durable.save (connectedRecord r s.durable.now) with alarm := a }, b⟩ (.done o)
  /-- An attach message is accepted and starts a renewal. -/
  | attachedRenewing {w : ℕ} {token uuid session csr id : String} {routes : Option Json} {r : StoredTunnel}
      {b : Bridges} : attachAccepts P s.bridges w token routes r = true → replies P s.bridges w = true →
      (s.bridges.serializeAttachment w
        { attached := true, session := some ("sess_" ++ session),
          routes := some (Store.requestedRoutes routes) }).Quiet b →
      Fresh s.durable id → r.certificateCsr = some csr → csr ≠ "" →
      Effect P s (.resumed (.attachHash w token routes r) (.drawn uuid session))
        ⟨s.durable.renewing (connectedRecord r s.durable.now) csr id, b⟩
        (.await (.renewCreate (connectedRecord r s.durable.now)
          (renewalParams (connectedRecord r s.durable.now) csr id) false))
  /-- The `create` of a renewal fails. -/
  | renewFailed {r : StoredTunnel} {params : CertificateWorkflowParams} {accepted : Bool} {message : String} :
      Effect P s (.resumed (.renewCreate r params accepted) (.error message))
        ((s.save { r with renewal := none }).setAlarm (s.durable.now + RENEWAL_RETRY_MS)) (.done .void)

/-! ### The environment -/

/-- The same workflows, each with the parameters it was created with. -/
structure SameWorkflows (d d' : Durable) : Prop where
  params : ∀ i' ∈ d'.instances, ∃ i ∈ d.instances, i.params = i'.params
  kept : ∀ i ∈ d.instances, ∃ i' ∈ d'.instances, i'.params.certificateID = i.params.certificateID

/-- The state a workflow posts in this event. -/
def Instance.posts (i : Instance) : WorkflowEvent → Option CertificateState
  | .challenge token key => some (.challenge token key)
  | .ready certificate chain expiry => some (.ready certificate chain expiry)
  | .record =>
    match i.phase with
    | .recording reason | .recorded reason => some (.failed reason)
    | _ => none
  | _ => none

/-- What an event of the environment does. A workflow that posts a state has
run `updateCertificate` before its own instance changes. -/
inductive Change (P : Platform) (s : Store) : Event → Store → Prop
  | tick {n : ℕ} : Change P s (.tick n) { s with durable := { s.durable with now := s.durable.now + n } }
  | sockets {e : Event} {b : Bridges} : (∀ id w, e ≠ .workflow id w) → (∀ n, e ≠ .tick n) →
      s.bridges.Quiet b → Change P s e (s.withBridges b)
  | workflow {id : String} {e : WorkflowEvent} {i : Instance} {is : List Instance} :
      s.durable.workflow id = some i → i.posts e = none →
      SameWorkflows s.durable { s.durable with instances := is } →
      Change P s (.workflow id e) { s with durable := { s.durable with instances := is } }
  | posted {id : String} {e : WorkflowEvent} {i : Instance} {state : CertificateState}
      {is : List Instance} : s.durable.workflow id = some i → i.posts e = some state →
      (∀ c ch x, state = .ready c ch x → P.issuedFor c = i.params.csr) →
      SameWorkflows s.durable { s.durable with instances := is } →
      Change P s (.workflow id e) { s with durable := { (s.durable.update id state).1 with instances := is } }

/-- What `updateCertificate` does: it refuses; it renews, gives up or goes on
with the renewal of this id; or it stores the state of the current
certificate. -/
inductive Update (d : Durable) (id : String) (st : CertificateState) : Durable → Bool → Prop
  | refused : (∀ r, d.live = some r → r.renewalOf id = none ∧ r.certificateID.getD "undefined" ≠ id) →
      Update d id st d false
  | renewed {r : StoredTunnel} {x : Renewal} {a : Millis} : d.live = some r → r.renewal = some x →
      x.certificateID = id → st.isReady = true →
      Update d id st { d with
        record := some { r with certificateID := some id, certificate := some ⟨id, st⟩, renewal := none }
        alarm := some a } true
  | renewalFailed {r : StoredTunnel} {x : Renewal} {a : Millis} : d.live = some r → r.renewal = some x →
      x.certificateID = id → st.isFailed = true →
      Update d id st { d with record := some { r with renewal := none }, alarm := some a } true
  | renewalPending {r : StoredTunnel} {x : Renewal} : d.live = some r → r.renewal = some x →
      x.certificateID = id → st.settled = false → Update d id st d true
  | stored {r : StoredTunnel} {a : Option Millis} : d.live = some r → r.renewalOf id = none →
      r.certificateID.getD "undefined" = id → (st.isReady = true → a.isSome = true) →
      Update d id st { d with record := some { r with certificate := some ⟨id, st⟩ }, alarm := a } true

end ShuvTunnel
