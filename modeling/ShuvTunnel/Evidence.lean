/-
# The calls a record goes back to

A tunnel is founded by an `initialize` that is accepted; the hash it brings is
the token's. A record, stored or carried by a suspended handler, goes back to
that call and to those of callers with the token: what asked for its CSR, what
removed it, what attached (`Attested`). So does a workflow (`Ordered`), and a
suspended handler goes back to its own call (`Task.Backed`). Evidence is a call
in the run so far, so a longer run has it too.

Key definitions: `Founded`, `Made`, `Presented`, `Ordered`, `Posted`, `Attested`,
`Task.Backed`, `Vetted`.
Key theorems: `Effect.vetted`, `Change.vetted`, `initializeTunnel_vetted`.
-/
import ShuvTunnel.Fencing
import ShuvTunnel.Writes

namespace ShuvTunnel

open Coop

/-- What happened so far. -/
abbrev Events := List (Lts.Event State Action)

/-- An `initialize` was accepted that brought these. -/
def Founded (es : Events) (id hostname tokenHash : String) : Prop :=
  ∃ e ∈ es, e.label = .call (.initialized id hostname tokenHash) ∧ e.before.store.durable.live = none

/-- Call `k` is `c`. -/
def Made (es : Events) (k : ℕ) (c : Call) : Prop := ∃ e ∈ es, e.label = .call c ∧ e.before.next = k

/-- The message asks to attach, with this token and these routes. -/
def Message.Attaches (m : Message) (token : String) (routes : Option Json) : Prop :=
  ∃ value control, m = .text value ∧ parseControl value = some control ∧
    (control.field "type").bind Json.string? = some "attach" ∧
    (control.field "token").bind Json.string? = some token ∧ routes = control.field "routes"

variable (P : Platform) (es : Events)

/-- The token's hash is that of a founding. -/
def Trusted (token : String) : Prop := ∃ id hostname, Founded es id hostname (P.hashToken token)

/-- Socket `w` asked to attach with a token that is trusted. -/
def Presented (w : ℕ) (routes : Option Json) : Prop :=
  ∃ k m token, Made es k (.webSocketMessage w m) ∧ m.Attaches token routes ∧ Trusted P es token

/-- The owner of the tunnel with this token hash asked for a certificate for `csr`. -/
def Demanded (tokenHash csr : String) : Prop :=
  ∃ k token, Made es k (.bindCertificate token csr) ∧ P.hashToken token = tokenHash

/-- The workflow is one for a tunnel that was founded, and its owner asked for it. -/
def Ordered (p : CertificateWorkflowParams) : Prop :=
  ∃ tokenHash, Founded es p.tunnelID p.hostname tokenHash ∧ Demanded P es tokenHash p.csr

/-- The workflow `id`, which was ordered, posted this state. -/
def Posted (id : String) (st : CertificateState) : Prop :=
  ∃ e ∈ es, ∃ w i, e.label = .environment (.workflow id w) ∧ e.before.store.durable.workflow id = some i ∧
    i.posts w = some st ∧ Ordered P es i.params

/-- The calls a record goes back to. -/
structure Attested (r : StoredTunnel) : Prop where
  founded : Founded es r.id r.hostname r.tokenHash
  csr : ∀ csr, r.certificateCsr = some csr → Demanded P es r.tokenHash csr
  certificate : ∀ c cert chain expiry, r.certificate = some c → c.state = .ready cert chain expiry →
    r.certificateCsr = some (P.issuedFor cert) ∧ Posted P es c.id c.state
  deleted : r.deletedAt ≠ none → ∃ k token, Made es k (.remove token) ∧ P.hashToken token = r.tokenHash
  connected : r.state = .online ∨ r.lastConnectedAt ≠ none → ∃ w k m token routes,
    Made es k (.webSocketMessage w m) ∧ m.Attaches token routes ∧ P.hashToken token = r.tokenHash

/-- What a suspended handler goes back to: its call, and the record it carries. -/
def Task.Backed (k : ℕ) : Task → Prop
  | .infoHash token r => Made es k (.info token) ∧ Attested P es r
  | .certificateHash token r => Made es k (.certificate token) ∧ Attested P es r
  | .removeHash token r => Made es k (.remove token) ∧ Attested P es r
  | .bindHash token csr r => Made es k (.bindCertificate token csr) ∧ Attested P es r
  | .bindVerify csr _ r =>
    (∃ token, Made es k (.bindCertificate token csr) ∧ P.hashToken token = r.tokenHash) ∧ Attested P es r
  | .ensureGet e | .ensureStatus e | .ensureCreate e _ | .ensureRestart e _ =>
    (∃ token, Made es k (.bindCertificate token e.csr) ∧ P.hashToken token = e.record.tokenHash) ∧
      Attested P es e.record
  | .renewCreate r params _ => Attested P es r ∧ Ordered P es params
  | .attachRecord w token routes => ∃ m, Made es k (.webSocketMessage w m) ∧ m.Attaches token routes
  | .attachHash w token routes r =>
    (∃ m, Made es k (.webSocketMessage w m) ∧ m.Attaches token routes) ∧ Attested P es r
  | .connectRead r => ∀ x, r = some x → Attested P es x
  | .upload _ | .settling _ => True

/-- The cause of a segment of call `k`: an accepted `initialize` is one. -/
def Cause.Backed (s : Store) (k : ℕ) : Cause → Prop
  | .call c => Made es k c ∧ ∀ id hostname tokenHash, c = .initialized id hostname tokenHash →
      s.durable.live = none → Founded es id hostname tokenHash
  | .resumed t _ => t.Backed P es k

variable {P es}

/-! ### Evidence stays -/

section Evidence

variable {fs : Events} (h : es ⊆ fs)
include h

theorem Founded.mono {id hostname tokenHash : String} (hf : Founded es id hostname tokenHash) :
    Founded fs id hostname tokenHash := by
  obtain ⟨e, he, hl⟩ := hf
  exact ⟨e, h he, hl⟩

theorem Made.mono {k : ℕ} {c : Call} (hm : Made es k c) : Made fs k c := by
  obtain ⟨e, he, hl⟩ := hm
  exact ⟨e, h he, hl⟩

theorem Trusted.mono {token : String} (ht : Trusted P es token) : Trusted P fs token := by
  obtain ⟨id, hostname, hf⟩ := ht
  exact ⟨id, hostname, hf.mono h⟩

theorem Presented.mono {w : ℕ} {routes : Option Json} (hp : Presented P es w routes) : Presented P fs w routes := by
  obtain ⟨k, m, token, hm, ha, ht⟩ := hp
  exact ⟨k, m, token, hm.mono h, ha, ht.mono h⟩

theorem Demanded.mono {tokenHash csr : String} (hd : Demanded P es tokenHash csr) : Demanded P fs tokenHash csr := by
  obtain ⟨k, token, hm, ht⟩ := hd
  exact ⟨k, token, hm.mono h, ht⟩

theorem Ordered.mono {p : CertificateWorkflowParams} (ho : Ordered P es p) : Ordered P fs p := by
  obtain ⟨tokenHash, hf, hd⟩ := ho
  exact ⟨tokenHash, hf.mono h, hd.mono h⟩

theorem Posted.mono {id : String} {st : CertificateState} (hp : Posted P es id st) : Posted P fs id st := by
  obtain ⟨e, he, w, i, hl, hi, hst, ho⟩ := hp
  exact ⟨e, h he, w, i, hl, hi, hst, ho.mono h⟩

theorem Attested.mono {r : StoredTunnel} (ha : Attested P es r) : Attested P fs r := by
  refine ⟨ha.founded.mono h, fun csr hc => (ha.csr csr hc).mono h, fun c cert chain expiry hc hs => ?_,
    fun hd => ?_, fun ho => ?_⟩
  · obtain ⟨hcsr, hp⟩ := ha.certificate c cert chain expiry hc hs
    exact ⟨hcsr, hp.mono h⟩
  · obtain ⟨k, token, hm, ht⟩ := ha.deleted hd
    exact ⟨k, token, hm.mono h, ht⟩
  · obtain ⟨w, k, m, token, routes, hm, hx⟩ := ha.connected ho
    exact ⟨w, k, m, token, routes, hm.mono h, hx⟩

theorem Task.Backed.mono {k : ℕ} {t : Task} (ht : t.Backed P es k) : t.Backed P fs k := by
  cases t with
  | infoHash _ _ | certificateHash _ _ | removeHash _ _ | bindHash _ _ _ => exact ⟨ht.1.mono h, ht.2.mono h⟩
  | bindVerify _ _ _ | ensureGet _ | ensureStatus _ | ensureCreate _ _ | ensureRestart _ _ =>
    obtain ⟨⟨token, hm, hx⟩, ha⟩ := ht
    exact ⟨⟨token, hm.mono h, hx⟩, ha.mono h⟩
  | renewCreate _ _ _ => exact ⟨ht.1.mono h, ht.2.mono h⟩
  | attachRecord _ _ _ =>
    obtain ⟨m, hm, hx⟩ := ht
    exact ⟨m, hm.mono h, hx⟩
  | attachHash _ _ _ _ =>
    obtain ⟨⟨m, hm, hx⟩, ha⟩ := ht
    exact ⟨⟨m, hm.mono h, hx⟩, ha.mono h⟩
  | connectRead _ => exact fun x hx => (ht x hx).mono h
  | upload _ | settling _ => trivial

end Evidence

/-! ### The record and the workflows -/

/-- The record and the workflows, those asked for and those that run. -/
structure Vetted (P : Platform) (es : Events) (d : Durable) : Prop where
  record : ∀ r, d.record = some r → Attested P es r
  creates : ∀ p ∈ d.creates, Ordered P es p
  instances : ∀ i ∈ d.instances, Ordered P es i.params

theorem Vetted.mono {fs : Events} (h : es ⊆ fs) {d : Durable} (hd : Vetted P es d) : Vetted P fs d :=
  ⟨fun r hr => (hd.record r hr).mono h, fun p hp => (hd.creates p hp).mono h,
    fun i hi => (hd.instances i hi).mono h⟩

theorem Vetted.live {d : Durable} (hd : Vetted P es d) {r : StoredTunnel} (h : d.live = some r) : Attested P es r :=
  hd.record r (Durable.live_eq_some.mp h).1

/-- Another record is stored, nothing else that matters. -/
theorem Vetted.save {d d' : Durable} (hd : Vetted P es d) {r : StoredTunnel} (h : d'.record = some r)
    (hc : d'.creates = d.creates) (hi : d'.instances = d.instances) (hr : Attested P es r) : Vetted P es d' := by
  refine ⟨fun x hx => ?_, hc ▸ hd.creates, hi ▸ hd.instances⟩
  obtain rfl := Option.some.inj (h.symm.trans hx)
  exact hr

theorem Attested.ordered {r : StoredTunnel} (h : Attested P es r) {csr : String} (hc : r.certificateCsr = some csr)
    (id : String) : Ordered P es (renewalParams r csr id) :=
  ⟨r.tokenHash, h.founded, h.csr csr hc⟩

/-- A workflow `bindCertificate` asks for. -/
theorem ordered_ensureParams {k : ℕ} {e : Ensure}
    (hc : ∃ token, Made es k (.bindCertificate token e.csr) ∧ P.hashToken token = e.record.tokenHash)
    (he : Attested P es e.record) : Ordered P es (Store.ensureParams e) := by
  obtain ⟨token, hm, ht⟩ := hc
  exact ⟨e.record.tokenHash, he.founded, k, token, hm, ht⟩

theorem Task.Backed.ensure {k : ℕ} {t : Task} {e : Ensure} (ht : t.Backed P es k) (he : t.ensure = some e) :
    (∃ token, Made es k (.bindCertificate token e.csr) ∧ P.hashToken token = e.record.tokenHash) ∧
      Attested P es e.record := by
  cases t with
  | ensureGet _ | ensureStatus _ | ensureCreate _ _ | ensureRestart _ _ =>
    obtain rfl := Option.some.inj he
    exact ht
  | _ => cases he

theorem Task.Backed.creating {k : ℕ} {t : Task} {p : CertificateWorkflowParams} (ht : t.Backed P es k)
    (hp : t.creating = some p) : Ordered P es p := by
  cases t with
  | ensureCreate e _ =>
    obtain rfl := Option.some.inj hp
    exact ordered_ensureParams ht.1 ht.2
  | renewCreate _ _ _ =>
    obtain rfl := Option.some.inj hp
    exact ht.2
  | _ => cases hp

theorem Task.Backed.taken {k : ℕ} {t : Task} (ht : t.Backed P es k) : t.taken.Backed P es k := by
  cases t <;> exact ht

/-- `startRenewal`, from a record with this CSR. -/
theorem Vetted.renewing {d : Durable} (hd : Vetted P es d) {r : StoredTunnel} (hr : Attested P es r) {csr : String}
    (hc : r.certificateCsr = some csr) (id : String) : Vetted P es (d.renewing r csr id) := by
  refine ⟨fun x hx => ?_, fun p hp => ?_, hd.instances⟩
  · obtain rfl := Option.some.inj hx
    exact ⟨hr.founded, hr.csr, hr.certificate, hr.deleted, hr.connected⟩
  · rcases List.mem_append.mp hp with hp | hp
    · exact hd.creates p hp
    · obtain rfl := List.mem_singleton.mp hp
      exact hr.ordered hc id

/-- `bindCertificate`'s new record. -/
theorem Attested.issuing {r : StoredTunnel} (hr : Attested P es r) {csr : String}
    (hc : Demanded P es r.tokenHash csr) (ids : List String) (id : String) :
    Attested P es (issuingRecord r csr ids id) := by
  refine ⟨hr.founded, fun c he => ?_, fun c cert chain expiry he hs => ?_, hr.deleted, hr.connected⟩
  · obtain rfl := Option.some.inj he
    exact hc
  · obtain rfl := Option.some.inj he
    cases hs

/-- The record an accepted attach message writes. -/
theorem Attested.connecting {r : StoredTunnel} (hr : Attested P es r) {k w : ℕ} {m : Message} {token : String}
    {routes : Option Json} (hm : Made es k (.webSocketMessage w m)) (ha : m.Attaches token routes)
    (ht : P.hashToken token = r.tokenHash) (now : Millis) : Attested P es (connectedRecord r now) :=
  ⟨hr.founded, hr.csr, hr.certificate, hr.deleted, fun _ => ⟨w, k, m, token, routes, hm, ha, ht⟩⟩

theorem attachAccepts_token {b : Bridges} {w : ℕ} {token : String} {routes : Option Json} {r : StoredTunnel}
    (h : attachAccepts P b w token routes r = true) : P.hashToken token = r.tokenHash := by
  simp only [attachAccepts, Bool.and_eq_true, decide_eq_true_eq] at h
  exact h.1.1.1.1

theorem Follows.backed {s : Store} {c : Cause} {u : Task} {k : ℕ} (h : Follows P s.durable c u)
    (hd : Vetted P es s.durable) (hc : c.Backed P es s k)
    (hattach : ∀ w m token routes, c = .call (.webSocketMessage w m) → u = .attachRecord w token routes →
      m.Attaches token routes) : u.Backed P es k := by
  cases h with
  | info hl | certificate hl | remove hl | bind hl => exact ⟨hc.1, hd.live hl⟩
  | attach => exact ⟨_, hc.1, hattach _ _ _ _ rfl rfl⟩
  | connect => exact hd.record
  | attachRead hl => exact ⟨hc, hd.live hl⟩
  | bindHash ht _ => exact ⟨⟨_, hc.1, ht⟩, hc.2⟩
  | resubmit _ _ => exact hc
  | ensureStatus => exact hc
  | ensureRestart => exact hc
  | upload | settling => trivial

/-- A segment leaves the record and the workflows vetted, and the handler it
leaves is backed. `initialize`, of which the effect does not tell the record,
is apart. -/
theorem Effect.vetted {s s' : Store} {c : Cause} {o : Outcome Task Result} {k : ℕ} (h : Effect P s c s' o)
    (hd : Vetted P es s.durable) (hc : c.Backed P es s k)
    (hinit : ∀ id hostname tokenHash, c ≠ .call (.initialized id hostname tokenHash))
    (hattach : ∀ w m token routes, c = .call (.webSocketMessage w m) → o = .await (.attachRecord w token routes) →
      m.Attaches token routes) : Vetted P es s'.durable ∧ ∀ u, o = .await u → u.Backed P es k := by
  have none : ∀ {r : Result} (u : Task), Outcome.done r = .await u → u.Backed P es k := fun _ h => by cases h
  have one : ∀ {t : Task}, t.Backed P es k → ∀ u, Outcome.await (ρ := Result) t = .await u → u.Backed P es k :=
    fun ht u hu => by cases hu; exact ht
  cases h with
  | quiet _ hu _ =>
    refine ⟨hd, fun u ho => (hu u ho).backed hd hc fun w m token routes hm hr => ?_⟩
    exact hattach w m token routes hm (hr ▸ ho)
  | opened _ _ _ _ hu =>
    refine ⟨hd, fun u ho => ?_⟩
    obtain ⟨key, rfl⟩ := hu u ho
    trivial
  | created _ _ _ _ _ _ => exact absurd rfl (hinit _ _ _)
  | closed hl _ =>
    have hr := hd.live hl
    refine ⟨hd.save rfl rfl rfl ⟨hr.founded, hr.csr, hr.certificate, hr.deleted, fun ho => ?_⟩, none⟩
    rcases ho with ho | ho
    · cases ho
    · exact hr.connected (.inr ho)
  | alarmed _ => exact ⟨⟨hd.record, hd.creates, hd.instances⟩, none⟩
  | renewing hl _ _ hcsr _ =>
    have hr := hd.live hl
    have hd' : Vetted P es { s.durable with alarm := Option.none } := ⟨hd.record, hd.creates, hd.instances⟩
    exact ⟨hd'.renewing hr hcsr _, one ⟨hr, hr.ordered hcsr _⟩⟩
  | @issued csr req r ids id _ _ _ _ =>
    obtain ⟨⟨token, hm, ht⟩, hr⟩ := hc
    have hr' := hr.issuing ⟨k, token, hm, ht⟩ ids id
    exact ⟨hd.save rfl rfl rfl hr', one ⟨⟨token, hm, ht⟩, hr'⟩⟩
  | issueFailed he _ _ =>
    obtain ⟨-, hr⟩ := Task.Backed.ensure hc he
    refine ⟨hd.save rfl rfl rfl
      ⟨hr.founded, hr.csr, fun c cert chain expiry hx hs => ?_, hr.deleted, hr.connected⟩, none⟩
    obtain rfl := Option.some.inj hx
    cases hs
  | requested he _ =>
    obtain ⟨hm, hr⟩ := Task.Backed.ensure hc he
    refine ⟨⟨hd.record, fun p hp => ?_, hd.instances⟩, one ⟨hm, hr⟩⟩
    rcases List.mem_append.mp hp with hp | hp
    · exact hd.creates p hp
    · obtain rfl := List.mem_singleton.mp hp
      exact ordered_ensureParams hm hr
  | @taken t p d ht hw =>
    refine ⟨?_, one (Task.Backed.taken hc)⟩
    unfold Durable.createWorkflow at hw
    split at hw
    · cases hw
    obtain rfl := Option.some.inj hw
    refine ⟨hd.record, hd.creates, fun i hi => ?_⟩
    rcases List.mem_append.mp hi with hi | hi
    · exact hd.instances i hi
    · obtain rfl := List.mem_singleton.mp hi
      exact Task.Backed.creating hc ht
  | restarted hw =>
    refine ⟨?_, one hc⟩
    obtain ⟨i, hi, rfl⟩ := Option.map_eq_some_iff.mp hw
    refine ⟨hd.record, hd.creates, fun j hj => ?_⟩
    obtain ⟨j', hj', rfl⟩ := List.mem_map.mp hj
    split
    · exact hd.instances i (workflow_mem hi).1
    · exact hd.instances j' hj'
  | removed ht =>
    obtain ⟨hm, hr⟩ := hc
    refine ⟨hd.save rfl rfl rfl ⟨hr.founded, hr.csr, hr.certificate, fun _ => ⟨k, _, hm, ht⟩, fun ho => ?_⟩, none⟩
    rcases ho with ho | ho
    · cases ho
    · exact hr.connected (.inr ho)
  | attachThrown ha _ =>
    obtain ⟨⟨m, hm, hx⟩, hr⟩ := hc
    exact ⟨hd.save rfl rfl rfl (hr.connecting hm hx (attachAccepts_token ha) _), none⟩
  | attached ha _ _ _ =>
    obtain ⟨⟨m, hm, hx⟩, hr⟩ := hc
    exact ⟨hd.save rfl rfl rfl (hr.connecting hm hx (attachAccepts_token ha) _), none⟩
  | attachedRenewing ha _ _ _ hcsr _ =>
    obtain ⟨⟨m, hm, hx⟩, hr⟩ := hc
    have hr' := hr.connecting hm hx (attachAccepts_token ha) s.durable.now
    exact ⟨hd.renewing hr' hcsr _, one ⟨hr', hr'.ordered hcsr _⟩⟩
  | renewFailed =>
    obtain ⟨hr, -⟩ := hc
    exact ⟨hd.save rfl rfl rfl ⟨hr.founded, hr.csr, hr.certificate, hr.deleted, hr.connected⟩, none⟩

/-- The event leaves the workflows the parameters they were created with. -/
theorem Vetted.workflows {d : Durable} (hd : Vetted P es d) {is : List Instance}
    (h : SameWorkflows d { d with instances := is }) : ∀ i ∈ is, Ordered P es i.params := by
  intro i hi
  obtain ⟨j, hj, hp⟩ := h.params i hi
  exact hp ▸ hd.instances j hj

/-- A workflow posts a state: of a certificate, one for the CSR of the record that
waits for it. -/
theorem Vetted.update {d d' : Durable} (hd : Vetted P es d) {id : String} {st : CertificateState} {ok : Bool}
    (h : Update d id st d' ok) (hp : Posted P es id st)
    (hst : ∀ r cert chain expiry, d.live = some r → st = .ready cert chain expiry →
      ((∃ x, r.renewal = some x ∧ x.certificateID = id) ∨ r.certificateID.getD "undefined" = id) →
        r.certificateCsr = some (P.issuedFor cert)) : Vetted P es d' := by
  have attest : ∀ {r r' : StoredTunnel}, Attested P es r → r'.id = r.id → r'.hostname = r.hostname →
      r'.tokenHash = r.tokenHash → r'.certificateCsr = r.certificateCsr → r'.deletedAt = r.deletedAt →
      r'.state = r.state → r'.lastConnectedAt = r.lastConnectedAt →
      (r'.certificate = r.certificate ∨ r'.certificate = some ⟨id, st⟩ ∧ ∀ cert chain expiry,
        st = .ready cert chain expiry → r.certificateCsr = some (P.issuedFor cert)) → Attested P es r' := by
    intro r r' hr h1 h2 h3 h4 h5 h6 h7 hc
    refine ⟨by rw [h1, h2, h3]; exact hr.founded, by rw [h3, h4]; exact hr.csr, ?_,
      by rw [h3, h5]; exact hr.deleted, by rw [h3, h6, h7]; exact hr.connected⟩
    rcases hc with hc | ⟨hc, hown⟩
    · rw [hc, h4]
      exact hr.certificate
    · intro c cert chain expiry he hs
      obtain rfl := Option.some.inj (hc.symm.trans he)
      rw [h4]
      exact ⟨hown cert chain expiry hs, hp⟩
  cases h with
  | refused _ => exact hd
  | renewed hl hx hid _ =>
    exact hd.save rfl rfl rfl (attest (hd.live hl) rfl rfl rfl rfl rfl rfl rfl
      (.inr ⟨rfl, fun cert chain expiry hs => hst _ cert chain expiry hl hs (.inl ⟨_, hx, hid⟩)⟩))
  | renewalFailed hl _ _ _ =>
    exact hd.save rfl rfl rfl (attest (hd.live hl) rfl rfl rfl rfl rfl rfl rfl (.inl rfl))
  | renewalPending _ _ _ _ => exact hd
  | stored hl _ hid _ =>
    exact hd.save rfl rfl rfl (attest (hd.live hl) rfl rfl rfl rfl rfl rfl rfl
      (.inr ⟨rfl, fun cert chain expiry hs => hst _ cert chain expiry hl hs (.inr hid)⟩))

theorem Change.vetted {s s' : Store} {e : Event} (h : Change P s e s') (hd : Vetted P es s.durable)
    (hb : Books s.durable) (hp : ∀ id w i st, e = .workflow id w → s.durable.workflow id = some i →
      i.posts w = some st → Ordered P es i.params → Posted P es id st) : Vetted P es s'.durable := by
  cases h with
  | tick => exact ⟨hd.record, hd.creates, hd.instances⟩
  | sockets _ _ _ => exact hd
  | workflow _ _ hs => exact ⟨hd.record, hd.creates, hd.workflows hs⟩
  | @posted id _ i state _ hi hpost hst hs =>
    have hdeliv : Vetted P es { s.durable with deliveries := s.durable.deliveries ++ [(id, state)] } :=
      ⟨hd.record, hd.creates, hd.instances⟩
    have hposted := hp id _ i state rfl hi hpost (hd.instances i (workflow_mem hi).1)
    have hup := hdeliv.update (updateCertificate_cases _ id state) hposted fun r cert chain expiry hl hready hid => by
      rw [hst cert chain expiry hready]
      exact hb.csr_of_workflow hl hi hid
    exact ⟨hup.record, hup.creates, hd.workflows hs⟩

/-- `initialize` stores the record it founds. -/
theorem initializeTunnel_vetted {s : Store} {id hostname tokenHash : String} (hd : Vetted P es s.durable)
    (hf : s.durable.live = none → Founded es id hostname tokenHash) :
    Vetted P es (s.durable.initializeTunnel id hostname tokenHash).1 := by
  unfold Durable.initializeTunnel
  split
  · exact hd
  · rename_i hl
    refine hd.save rfl rfl rfl ⟨hf hl, fun csr h => ?_, fun c cert chain expiry h _ => ?_, fun h => ?_, fun h => ?_⟩
    · cases h
    · cases h
    · exact absurd rfl h
    · rcases h with h | h
      · cases h
      · exact absurd rfl h

end ShuvTunnel
