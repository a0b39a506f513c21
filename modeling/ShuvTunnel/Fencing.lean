/-
# A certificate is fenced to its CSR

The record's certificate, its renewal and its CSR belong together, in the
store and in every record a suspended handler carries, so a stale record
written back is stale as a whole: `Fenced`. What ties them is the list of the
ids drawn, each for one CSR.

Key definitions: `Fenced`, `Books`.
Key theorems: `books_of_reachable`, `fencing`.
-/
import Mathlib.Data.List.Nodup
import ShuvTunnel.Segments

namespace ShuvTunnel

open Coop

/-! ### The invariant -/

/-- The certificate, the renewal and the CSR of a record belong together. -/
structure Fenced (d : Durable) (r : StoredTunnel) : Prop where
  certificate : ∀ c, r.certificate = some c → r.certificateID = some c.id
  drawn : ∀ id, r.certificateID = some id → ∃ csr, r.certificateCsr = some csr ∧ (id, csr) ∈ d.minted
  delivered : ∀ c, r.certificate = some c → c.state.isReady = true → (c.id, c.state) ∈ d.deliveries
  renewal : ∀ x, r.renewal = some x → ∃ csr, r.certificateCsr = some csr ∧
    (x.certificateID, csr) ∈ d.minted ∧ ∃ p ∈ d.creates, p.certificateID = x.certificateID

/-- The ids are fresh, a workflow was asked for with the CSR its id was drawn
for, and a state was posted by a workflow that runs. -/
structure Books (d : Durable) : Prop where
  nodup : (d.minted.map (·.1)).Nodup
  ne_undefined : "undefined" ∉ d.minted.map (·.1)
  ne_empty : "" ∉ d.minted.map (·.1)
  csr_ne_empty : ∀ x ∈ d.minted, x.2 ≠ ""
  creates : ∀ p ∈ d.creates, (p.certificateID, p.csr) ∈ d.minted
  instances : ∀ i ∈ d.instances, i.params ∈ d.creates
  deliveries : ∀ x ∈ d.deliveries, ∃ i ∈ d.instances, i.params.certificateID = x.1
  record : ∀ r, d.record = some r → Fenced d r

/-- The certificate `bindCertificate` answers with has the record's id, drawn
for the CSR it carries. -/
structure Ensure.Fenced (d : Durable) (e : Ensure) : Prop where
  certificateID : e.record.certificateID = some e.certificate.id
  drawn : (e.certificate.id, e.csr) ∈ d.minted

/-- What a suspended handler carries is fenced, and the `create` it waits for
was called. -/
structure Task.Fenced (d : Durable) (t : Task) : Prop where
  snapshot : ∀ r, t.snapshot = some r → ShuvTunnel.Fenced d r
  ensure : ∀ e, t.ensure = some e → e.Fenced d
  creating : ∀ p, t.creating = some p → p ∈ d.creates
  csr : ∀ csr req r, t = .bindVerify csr req r → csr ≠ ""

/-! ### Nothing drawn, asked for or posted is forgotten -/

/-- Nothing that was recorded is lost. -/
structure Grows (d d' : Durable) : Prop where
  minted : d.minted ⊆ d'.minted
  creates : d.creates ⊆ d'.creates
  deliveries : d.deliveries ⊆ d'.deliveries

theorem Grows.of_eq {d d' : Durable} (h1 : d'.minted = d.minted) (h2 : d'.creates = d.creates)
    (h3 : d'.deliveries = d.deliveries) : Grows d d' :=
  ⟨h1 ▸ fun _ h => h, h2 ▸ fun _ h => h, h3 ▸ fun _ h => h⟩

theorem Fenced.mono {d d' : Durable} {r : StoredTunnel} (h : Fenced d r) (hg : Grows d d') : Fenced d' r := by
  refine ⟨h.certificate, fun id hid => ?_, fun c hc hr => hg.deliveries (h.delivered c hc hr), fun x hx => ?_⟩
  · obtain ⟨csr, h1, h2⟩ := h.drawn id hid
    exact ⟨csr, h1, hg.minted h2⟩
  · obtain ⟨csr, h1, h2, p, hp, h3⟩ := h.renewal x hx
    exact ⟨csr, h1, hg.minted h2, p, hg.creates hp, h3⟩

theorem Task.Fenced.mono {d d' : Durable} {t : Task} (h : t.Fenced d) (hg : Grows d d') : t.Fenced d' :=
  ⟨fun r hr => (h.snapshot r hr).mono hg,
    fun e he => ⟨(h.ensure e he).certificateID, hg.minted (h.ensure e he).drawn⟩,
    fun p hp => hg.creates (h.creating p hp), h.csr⟩

/-! ### The records that are written -/

/-- The record without its renewal, or with other particulars. -/
theorem Fenced.of_eq {d : Durable} {r r' : StoredTunnel} (h : Fenced d r)
    (h1 : r'.certificateID = r.certificateID) (h2 : r'.certificate = r.certificate)
    (h3 : r'.certificateCsr = r.certificateCsr) (h4 : r'.renewal = r.renewal ∨ r'.renewal = none) :
    Fenced d r' := by
  refine ⟨fun c hc => ?_, fun id hid => ?_, fun c hc => ?_, fun x hx => ?_⟩
  · rw [h1]; exact h.certificate c (h2 ▸ hc)
  · rw [h3]; exact h.drawn id (h1 ▸ hid)
  · exact h.delivered c (h2 ▸ hc)
  · rw [h3]
    rcases h4 with h4 | h4
    · exact h.renewal x (h4 ▸ hx)
    · rw [h4] at hx; cases hx

/-- Another state of the certificate; a ready one was posted. -/
theorem Fenced.withState {d : Durable} {r : StoredTunnel} {id : String} {st : CertificateState}
    (h : Fenced d r) (hid : r.certificateID = some id)
    (hst : st.isReady = true → (id, st) ∈ d.deliveries) :
    Fenced d { r with certificate := some ⟨id, st⟩ } := by
  refine ⟨fun c hc => ?_, h.drawn, fun c hc hr => ?_, h.renewal⟩
  · obtain rfl := Option.some.inj hc
    exact hid
  · obtain rfl := Option.some.inj hc
    exact hst hr

/-- A new renewal of the record. -/
theorem Fenced.withRenewal {d : Durable} {r : StoredTunnel} {x : Renewal} {csr : String} (h : Fenced d r)
    (hcsr : r.certificateCsr = some csr) (hx : (x.certificateID, csr) ∈ d.minted)
    (hp : ∃ p ∈ d.creates, p.certificateID = x.certificateID) :
    Fenced d { r with renewal := some x } := by
  refine ⟨h.certificate, h.drawn, h.delivered, fun y hy => ?_⟩
  obtain rfl := Option.some.inj hy
  exact ⟨csr, hcsr, hx, hp⟩

/-- A new certificate, for a CSR. -/
theorem fenced_issuing {d : Durable} {r : StoredTunnel} {csr id : String} {ids : List String}
    (h : (id, csr) ∈ d.minted) : Fenced d (issuingRecord r csr ids id) := by
  refine ⟨fun c hc => ?_, fun i hi => ?_, fun c hc hr => ?_, fun x hx => by cases hx⟩
  · obtain rfl := Option.some.inj hc
    rfl
  · obtain rfl := Option.some.inj hi
    exact ⟨csr, rfl, h⟩
  · obtain rfl := Option.some.inj hc
    cases hr

/-! ### The books -/

theorem Books.live {d : Durable} (h : Books d) {r : StoredTunnel} (hr : d.live = some r) : Fenced d r :=
  h.record r (Durable.live_eq_some.mp hr).1

/-- The id of a workflow is not the text of `undefined`. -/
theorem Books.certificateID_eq {d : Durable} (h : Books d) {r : StoredTunnel} {id : String}
    (hid : id ∈ d.minted.map (·.1)) (hc : r.certificateID.getD "undefined" = id) :
    r.certificateID = some id := by
  cases hr : r.certificateID with
  | none =>
    rw [hr] at hc
    obtain rfl : "undefined" = id := hc
    exact absurd hid h.ne_undefined
  | some i =>
    rw [hr] at hc
    exact congrArg some hc

/-- A record is stored, and perhaps the alarm or the clock moves. -/
theorem Books.stored {d d' : Durable} (h : Books d) (h1 : d'.minted = d.minted) (h2 : d'.creates = d.creates)
    (h3 : d'.deliveries = d.deliveries) (h4 : d'.instances = d.instances)
    (hr : ∀ r, d'.record = some r → Fenced d r) : Books d' := by
  refine ⟨h1 ▸ h.nodup, h1 ▸ h.ne_undefined, h1 ▸ h.ne_empty, h1 ▸ h.csr_ne_empty, ?_, ?_, ?_,
    fun r hr' => (hr r hr').mono (.of_eq h1 h2 h3)⟩
  · rw [h1, h2]; exact h.creates
  · rw [h2, h4]; exact h.instances
  · rw [h3, h4]; exact h.deliveries

/-- A fenced record is stored. -/
theorem Books.put {d d' : Durable} {r : StoredTunnel} (h : Books d) (hd : d'.record = some r)
    (h1 : d'.minted = d.minted) (h2 : d'.creates = d.creates) (h3 : d'.deliveries = d.deliveries)
    (h4 : d'.instances = d.instances) (hr : Fenced d r) : Books d' ∧ Grows d d' := by
  refine ⟨h.stored h1 h2 h3 h4 fun r' hr' => ?_, .of_eq h1 h2 h3⟩
  obtain rfl := Option.some.inj (hd.symm.trans hr')
  exact hr

/-- An id is drawn. -/
theorem Books.minting {d : Durable} {id csr : String} (h : Books d) (hf : Fresh d id) (hne : csr ≠ "") :
    Books (d.minting id csr) ∧ Grows d (d.minting id csr) := by
  have hg : Grows d (d.minting id csr) := ⟨List.subset_append_left _ _, fun _ h => h, fun _ h => h⟩
  refine ⟨⟨?_, ?_, ?_, fun x hx => ?_, fun p hp => hg.minted (h.creates p hp), h.instances, h.deliveries,
    fun r hr => (h.record r hr).mono hg⟩, hg⟩
  · rw [Durable.minting, List.map_append]
    refine List.nodup_append.mpr ⟨h.nodup, by simp, fun a ha b hb => ?_⟩
    obtain rfl := List.mem_singleton.mp hb
    exact fun hab => hf.unused (hab ▸ ha)
  · rw [Durable.minting, List.map_append, List.mem_append, not_or]
    exact ⟨h.ne_undefined, fun hm => hf.ne_undefined (List.mem_singleton.mp hm).symm⟩
  · rw [Durable.minting, List.map_append, List.mem_append, not_or]
    exact ⟨h.ne_empty, fun hm => hf.ne_empty (List.mem_singleton.mp hm).symm⟩
  · rcases List.mem_append.mp hx with hx | hx
    · exact h.csr_ne_empty x hx
    · rw [List.mem_singleton.mp hx]
      exact hne

/-- A workflow is asked for. -/
theorem Books.requesting {d : Durable} {p : CertificateWorkflowParams} (h : Books d)
    (hp : (p.certificateID, p.csr) ∈ d.minted) :
    Books { d with creates := d.creates ++ [p] } ∧ Grows d { d with creates := d.creates ++ [p] } := by
  have hg : Grows d { d with creates := d.creates ++ [p] } :=
    ⟨fun _ h => h, List.subset_append_left _ _, fun _ h => h⟩
  refine ⟨⟨h.nodup, h.ne_undefined, h.ne_empty, h.csr_ne_empty, fun q hq => ?_,
    fun i hi => hg.creates (h.instances i hi), h.deliveries, fun r hr => (h.record r hr).mono hg⟩, hg⟩
  rcases List.mem_append.mp hq with hq | hq
  · exact h.creates q hq
  · obtain rfl := List.mem_singleton.mp hq
    exact hp

/-- A renewal is started. -/
theorem Books.renewing {d : Durable} {r : StoredTunnel} {csr id : String} (h : Books d) (hr : Fenced d r)
    (hf : Fresh d id) (hcsr : r.certificateCsr = some csr) (hne : csr ≠ "") :
    Books (d.renewing r csr id) ∧ Grows d (d.renewing r csr id) ∧
      renewalParams r csr id ∈ (d.renewing r csr id).creates := by
  have hnew : (id, csr) ∈ (d.minting id csr).minted := List.mem_append_right _ (List.mem_singleton.mpr rfl)
  obtain ⟨h1, g1⟩ := h.minting hf hne
  obtain ⟨h2, g2⟩ := h1.requesting (p := renewalParams r csr id) hnew
  have hmem : renewalParams r csr id ∈ (d.renewing r csr id).creates :=
    List.mem_append_right _ (List.mem_singleton.mpr rfl)
  have hg : Grows d (d.renewing r csr id) :=
    ⟨fun _ h => g2.minted (g1.minted h), fun _ h => g2.creates (g1.creates h),
      fun _ h => g2.deliveries (g1.deliveries h)⟩
  refine ⟨?_, hg, hmem⟩
  refine ⟨h2.nodup, h2.ne_undefined, h2.ne_empty, h2.csr_ne_empty, h2.creates, h2.instances, h2.deliveries,
    fun r' hr' => ?_⟩
  obtain rfl := Option.some.inj hr'
  exact (hr.mono hg).withRenewal hcsr hnew ⟨_, hmem, rfl⟩

/-- The instances change, and each keeps its parameters. -/
theorem Books.sameWorkflows {d : Durable} {is : List Instance} (h : Books d)
    (hs : SameWorkflows d { d with instances := is }) : Books { d with instances := is } := by
  refine ⟨h.nodup, h.ne_undefined, h.ne_empty, h.csr_ne_empty, h.creates, fun i hi => ?_, fun x hx => ?_,
    fun r hr => (h.record r hr).mono (.of_eq rfl rfl rfl)⟩
  · obtain ⟨j, hj, hp⟩ := hs.params i hi
    exact hp ▸ h.instances j hj
  · obtain ⟨i, hi, hid⟩ := h.deliveries x hx
    obtain ⟨j, hj, hp⟩ := hs.kept i hi
    exact ⟨j, hj, hp.trans hid⟩

/-- The service takes a `create` that was called. -/
theorem Books.created {d d' : Durable} {p : CertificateWorkflowParams} (h : Books d) (hp : p ∈ d.creates)
    (hc : d.createWorkflow p = some d') : Books d' ∧ Grows d d' := by
  unfold Durable.createWorkflow at hc
  split at hc
  · cases hc
  · obtain rfl := Option.some.inj hc
    refine ⟨⟨h.nodup, h.ne_undefined, h.ne_empty, h.csr_ne_empty, h.creates, fun i hi => ?_, fun x hx => ?_,
      fun r hr => (h.record r hr).mono (.of_eq rfl rfl rfl)⟩, .of_eq rfl rfl rfl⟩
    · rcases List.mem_append.mp hi with hi | hi
      · exact h.instances i hi
      · obtain rfl := List.mem_singleton.mp hi
        exact hp
    · obtain ⟨i, hi, hid⟩ := h.deliveries x hx
      exact ⟨i, List.mem_append_left _ hi, hid⟩

/-- The service takes a `restart`. -/
theorem Books.restarted {d d' : Durable} {id : String} (h : Books d) (hr : d.restartWorkflow id = some d') :
    Books d' ∧ Grows d d' := by
  obtain ⟨i, hi, rfl⟩ := Option.map_eq_some_iff.mp hr
  obtain ⟨hm, rfl⟩ := workflow_mem hi
  exact ⟨h.sameWorkflows (sameWorkflows_set hm rfl), .of_eq rfl rfl rfl⟩

theorem Books.instance_drawn {d : Durable} (h : Books d) {i : Instance} (hi : i ∈ d.instances) :
    (i.params.certificateID, i.params.csr) ∈ d.minted :=
  h.creates _ (h.instances i hi)

theorem Books.workflow_drawn {d : Durable} (h : Books d) {id : String} {i : Instance}
    (hw : d.workflow id = some i) : id ∈ d.minted.map (·.1) := by
  obtain ⟨hi, rfl⟩ := workflow_mem hw
  exact List.mem_map.mpr ⟨_, h.instance_drawn hi, rfl⟩

/-- An id was drawn for one CSR. -/
theorem Books.csr_unique {d : Durable} (h : Books d) {id csr csr' : String} (h1 : (id, csr) ∈ d.minted)
    (h2 : (id, csr') ∈ d.minted) : csr = csr' := by
  have := List.inj_on_of_nodup_map h.nodup h1 h2 rfl
  exact (Prod.mk.inj this).2

/-- The workflow that a record waits for was asked for with the record's CSR. -/
theorem Books.csr_of_workflow {d : Durable} (h : Books d) {r : StoredTunnel} (hl : d.live = some r) {id : String}
    {i : Instance} (hw : d.workflow id = some i)
    (hid : (∃ x, r.renewal = some x ∧ x.certificateID = id) ∨ r.certificateID.getD "undefined" = id) :
    r.certificateCsr = some i.params.csr := by
  have hf := h.live hl
  have hdrawn : (id, i.params.csr) ∈ d.minted := by
    obtain ⟨hi, rfl⟩ := workflow_mem hw
    exact h.instance_drawn hi
  rcases hid with ⟨x, hx, rfl⟩ | hid
  · obtain ⟨csr, hcsr, hm, -⟩ := hf.renewal x hx
    rw [hcsr, h.csr_unique hm hdrawn]
  · obtain ⟨csr, hcsr, hm⟩ := hf.drawn _ (h.certificateID_eq (h.workflow_drawn hw) hid)
    rw [hcsr, h.csr_unique hm hdrawn]

/-- A state posted by a workflow is entered. -/
theorem Books.delivered {d : Durable} {id : String} {i : Instance} (h : Books d) (hw : d.workflow id = some i)
    (st : CertificateState) :
    Books { d with deliveries := d.deliveries ++ [(id, st)] } ∧
      Grows d { d with deliveries := d.deliveries ++ [(id, st)] } := by
  obtain ⟨hi, hid⟩ := workflow_mem hw
  have hg : Grows d { d with deliveries := d.deliveries ++ [(id, st)] } :=
    ⟨fun _ h => h, fun _ h => h, List.subset_append_left _ _⟩
  refine ⟨⟨h.nodup, h.ne_undefined, h.ne_empty, h.csr_ne_empty, h.creates, h.instances, fun x hx => ?_,
    fun r hr => (h.record r hr).mono hg⟩, hg⟩
  rcases List.mem_append.mp hx with hx | hx
  · exact h.deliveries x hx
  · obtain rfl := List.mem_singleton.mp hx
    exact ⟨i, hi, hid⟩

/-- A workflow's state is stored. -/
theorem Books.updated {d d' : Durable} {id : String} {st : CertificateState} {ok : Bool} (h : Books d)
    (hid : id ∈ d.minted.map (·.1)) (hst : st.isReady = true → (id, st) ∈ d.deliveries)
    (hu : Update d id st d' ok) : Books d' ∧ Grows d d' := by
  cases hu with
  | refused _ => exact ⟨h, .of_eq rfl rfl rfl⟩
  | renewed hl hx hxid hr =>
    obtain ⟨csr, h1, h2, -⟩ := (h.live hl).renewal _ hx
    refine h.put rfl rfl rfl rfl rfl ⟨fun c hc => ?_, fun i hi => ?_, fun c hc _ => ?_, fun x hx => by cases hx⟩
    · obtain rfl := Option.some.inj hc
      rfl
    · obtain rfl := Option.some.inj hi
      exact ⟨csr, h1, hxid ▸ h2⟩
    · obtain rfl := Option.some.inj hc
      exact hst hr
  | renewalFailed hl _ _ _ => exact h.put rfl rfl rfl rfl rfl ((h.live hl).of_eq rfl rfl rfl (.inr rfl))
  | renewalPending _ _ _ _ => exact ⟨h, .of_eq rfl rfl rfl⟩
  | @stored r a hl _ hc _ =>
    exact h.put rfl rfl rfl rfl rfl ((h.live hl).withState (h.certificateID_eq hid hc) hst)

/-! ### The handlers keep the books -/

/-- A handler that starts no workflow carries a record, or nothing. -/
theorem Task.Fenced.of_snapshot {d : Durable} {t : Task} (h1 : t.ensure = none) (h2 : t.creating = none)
    (h3 : ∀ csr req r, t = .bindVerify csr req r → csr ≠ "")
    (hr : ∀ r, t.snapshot = some r → ShuvTunnel.Fenced d r) : t.Fenced d := by
  refine ⟨hr, fun e he => ?_, fun p hp => ?_, h3⟩
  · rw [h1] at he; cases he
  · rw [h2] at hp; cases hp

/-- A renewal waits for the `create` it called. -/
theorem Task.Fenced.renewCreate {d : Durable} {r : StoredTunnel} {params : CertificateWorkflowParams}
    {accepted : Bool} (hr : ShuvTunnel.Fenced d r) (hp : params ∈ d.creates) :
    (Task.renewCreate r params accepted).Fenced d := by
  refine ⟨fun r' hr' => ?_, (fun _ h => nomatch h), fun p h => ?_, fun _ _ _ h => nomatch h⟩
  · obtain rfl := Option.some.inj hr'
    exact hr
  · obtain rfl := Option.some.inj h
    exact hp

theorem Follows.fenced {P : Platform} {d : Durable} {c : Cause} {u : Task} (hd : Books d)
    (h : Follows P d c u) (hc : ∀ t a, c = .resumed t a → t.Fenced d) : u.Fenced d := by
  have live : ∀ {r : StoredTunnel}, d.live = some r → ∀ x, some r = some x → ShuvTunnel.Fenced d x :=
    fun hl x hx => Option.some.inj hx ▸ hd.live hl
  cases h with
  | info hl => exact .of_snapshot rfl rfl (fun _ _ _ h => by cases h) (live hl)
  | certificate hl => exact .of_snapshot rfl rfl (fun _ _ _ h => by cases h) (live hl)
  | remove hl => exact .of_snapshot rfl rfl (fun _ _ _ h => by cases h) (live hl)
  | bind hl => exact .of_snapshot rfl rfl (fun _ _ _ h => by cases h) (live hl)
  | attach => exact .of_snapshot rfl rfl (fun _ _ _ h => by cases h) fun _ h => by cases h
  | connect => exact .of_snapshot rfl rfl (by simp) fun r hr => hd.record r hr
  | attachRead hl => exact .of_snapshot rfl rfl (by simp) (live hl)
  | bindHash _ hreq =>
    refine .of_snapshot rfl rfl (fun csr req r he => ?_) (hc _ _ rfl).snapshot
    obtain ⟨rfl, -, -⟩ := Task.bindVerify.inj he
    rintro rfl
    rw [P.decodeCsr_empty] at hreq
    cases hreq
  | @resubmit csr req r ids c _ hcert hcsr =>
    have hr := (hc _ _ rfl).snapshot r rfl
    refine ⟨(hc _ _ rfl).snapshot, fun e he => ?_, (fun _ h => nomatch h), fun _ _ _ h => nomatch h⟩
    obtain rfl := Option.some.inj he
    have hid := hr.certificate c hcert
    obtain ⟨csr', h1, h2⟩ := hr.drawn _ hid
    obtain rfl := Option.some.inj (hcsr.symm.trans h1)
    exact ⟨hid, h2⟩
  | ensureStatus =>
    exact ⟨(hc _ _ rfl).snapshot, (hc _ _ rfl).ensure, (fun _ h => nomatch h), fun _ _ _ h => nomatch h⟩
  | ensureRestart =>
    exact ⟨(hc _ _ rfl).snapshot, (hc _ _ rfl).ensure, (fun _ h => nomatch h), fun _ _ _ h => nomatch h⟩
  | upload => exact .of_snapshot rfl rfl (fun _ _ _ h => by cases h) fun _ h => by cases h
  | settling => exact .of_snapshot rfl rfl (fun _ _ _ h => by cases h) fun _ h => by cases h

theorem Task.Fenced.taken {d : Durable} {t : Task} (h : t.Fenced d) : t.taken.Fenced d := by
  cases t <;> first
    | exact h
    | exact ⟨h.snapshot, h.ensure, h.creating, fun _ _ _ h => nomatch h⟩

/-- A segment keeps the books, and leaves a fenced task. -/
theorem Effect.books {P : Platform} {s s' : Store} {c : Cause} {o : Outcome Task Result}
    (h : Effect P s c s' o) (hd : Books s.durable)
    (hc : ∀ t a, c = .resumed t a → t.Fenced s.durable) :
    Books s'.durable ∧ Grows s.durable s'.durable ∧ ∀ u, o = .await u → u.Fenced s'.durable := by
  have same : ∀ {d : Durable}, Grows d d := .of_eq rfl rfl rfl
  -- a segment that stores a fenced record and returns
  have put : ∀ {r : StoredTunnel} {d : Durable} {v : Result}, d.record = some r →
      d.minted = s.durable.minted → d.creates = s.durable.creates → d.deliveries = s.durable.deliveries →
      d.instances = s.durable.instances → Fenced s.durable r →
      Books d ∧ Grows s.durable d ∧ ∀ u : Task, Outcome.done v = .await u → u.Fenced d := by
    intro r d v h1 h2 h3 h4 h5 hr
    obtain ⟨hb, hg⟩ := hd.put h1 h2 h3 h4 h5 hr
    exact ⟨hb, hg, by simp⟩
  cases h with
  | quiet _ ho _ =>
    exact ⟨hd, same, fun u hu => (ho u hu).fenced hd hc⟩
  | opened _ _ _ _ ho =>
    refine ⟨hd, same, fun u hu => ?_⟩
    obtain ⟨k, rfl⟩ := ho u hu
    exact .of_snapshot rfl rfl (fun _ _ _ h => by cases h) fun _ h => by cases h
  | created _ h1 h2 _ h4 _ =>
    refine put rfl rfl rfl rfl rfl ⟨fun c hc => ?_, fun i hi => ?_, fun c hc => ?_, fun x hx => ?_⟩
    · rw [h1] at hc; cases hc
    · rw [h2] at hi; cases hi
    · rw [h1] at hc; cases hc
    · rw [h4] at hx; cases hx
  | closed hl _ =>
    exact put rfl rfl rfl rfl rfl ((hd.live hl).of_eq rfl rfl rfl (.inl rfl))
  | alarmed _ =>
    exact ⟨hd.stored rfl rfl rfl rfl hd.record, .of_eq rfl rfl rfl, by simp⟩
  | @renewing uuid r csr id hl _ hf hcsr hne =>
    have h0 : Books { s.durable with alarm := none } := hd.stored rfl rfl rfl rfl hd.record
    have hr : Fenced { s.durable with alarm := none } r := (hd.live hl).mono (.of_eq rfl rfl rfl)
    obtain ⟨h1, h2, h3⟩ := h0.renewing hr ⟨hf.unused, hf.ne_undefined, hf.ne_empty⟩ hcsr hne
    refine ⟨h1, ⟨h2.minted, h2.creates, h2.deliveries⟩, fun u hu => ?_⟩
    cases hu
    exact .renewCreate (hr.mono h2) h3
  | @issued csr req r ids id uuid session _ hf =>
    have hne := (hc _ _ rfl).csr csr req r rfl
    obtain ⟨h1, h2⟩ := hd.minting hf hne
    have hmem : (id, csr) ∈ (s.durable.minting id csr).minted :=
      List.mem_append_right _ (List.mem_singleton.mpr rfl)
    have hrec : Fenced (s.durable.minting id csr) (issuingRecord r csr ids id) := fenced_issuing hmem
    refine ⟨h1.stored rfl rfl rfl rfl fun r' hr' => ?_, ⟨h2.minted, h2.creates, h2.deliveries⟩, fun u hu => ?_⟩
    · obtain rfl := Option.some.inj hr'
      exact hrec
    · cases hu
      refine ⟨fun r' hr' => ?_, fun e he => ?_, (fun _ h => nomatch h), fun _ _ _ h => nomatch h⟩
      · obtain rfl := Option.some.inj hr'
        exact hrec.mono (.of_eq rfl rfl rfl)
      · obtain rfl := Option.some.inj he
        exact ⟨rfl, hmem⟩
  | issueFailed he _ _ =>
    have ht := hc _ _ rfl
    have hsnap := ht.snapshot _ (Task.snapshot_of_ensure he)
    exact put rfl rfl rfl rfl rfl (hsnap.withState (ht.ensure _ he).certificateID fun h => by cases h)
  | @requested t a e he _ =>
    have ht := hc _ _ rfl
    have hen := ht.ensure _ he
    have hp : ((Store.ensureParams e).certificateID, (Store.ensureParams e).csr) ∈ s.durable.minted := by
      have : (Store.ensureParams e).certificateID = e.certificate.id := by
        simp [Store.ensureParams, hen.certificateID]
      rw [this]
      exact hen.drawn
    obtain ⟨h1, h2⟩ := hd.requesting hp
    refine ⟨h1, h2, fun u hu => ?_⟩
    cases hu
    have ht' := ht.mono h2
    refine ⟨fun r hr => ht'.snapshot r ?_, fun e' he' => ht'.ensure e' ?_, fun p hp => ?_,
      by simp⟩
    · rw [Task.snapshot_of_ensure he]; exact hr
    · rw [he]; exact he'
    · exact Option.some.inj hp ▸ List.mem_append_right _ (List.mem_singleton.mpr rfl)
  | taken hcr hw =>
    have ht := hc _ _ rfl
    obtain ⟨h1, h2⟩ := hd.created (ht.creating _ hcr) hw
    exact ⟨h1, h2, fun u hu => by cases hu; exact (ht.mono h2).taken⟩
  | restarted hw =>
    obtain ⟨h1, h2⟩ := hd.restarted hw
    have ht := (hc _ _ rfl).mono h2
    exact ⟨h1, h2, fun u hu => by cases hu; exact ht.taken⟩
  | removed _ =>
    exact put rfl rfl rfl rfl rfl (((hc _ _ rfl).snapshot _ rfl).of_eq rfl rfl rfl (.inl rfl))
  | attachThrown _ _ =>
    exact put rfl rfl rfl rfl rfl (((hc _ _ rfl).snapshot _ rfl).of_eq rfl rfl rfl (.inl rfl))
  | attached _ _ _ _ =>
    exact put rfl rfl rfl rfl rfl (((hc _ _ rfl).snapshot _ rfl).of_eq rfl rfl rfl (.inl rfl))
  | @attachedRenewing w token uuid session csr id routes r b _ _ _ hf hcsr hne =>
    have hr : Fenced s.durable (connectedRecord r s.durable.now) :=
      ((hc _ _ rfl).snapshot _ rfl).of_eq rfl rfl rfl (.inl rfl)
    obtain ⟨h1, h2, h3⟩ := hd.renewing hr hf hcsr hne
    refine ⟨h1, h2, fun u hu => ?_⟩
    cases hu
    exact .renewCreate (hr.mono h2) h3
  | renewFailed =>
    exact put rfl rfl rfl rfl rfl (((hc _ _ rfl).snapshot _ rfl).of_eq rfl rfl rfl (.inr rfl))

/-- An event of the environment keeps the books. -/
theorem Change.books {P : Platform} {s s' : Store} {e : Event} (h : Change P s e s')
    (hd : Books s.durable) : Books s'.durable ∧ Grows s.durable s'.durable := by
  cases h with
  | tick => exact ⟨hd.stored rfl rfl rfl rfl hd.record, .of_eq rfl rfl rfl⟩
  | sockets _ _ _ => exact ⟨hd, .of_eq rfl rfl rfl⟩
  | workflow _ _ hs => exact ⟨hd.sameWorkflows hs, .of_eq rfl rfl rfl⟩
  | @posted id e i st is hw _ _ hs =>
    obtain ⟨h0, hg⟩ := hd.delivered hw st
    have hmem := hd.workflow_drawn hw
    have hu := updateCertificate_cases { s.durable with deliveries := s.durable.deliveries ++ [(id, st)] } id st
    obtain ⟨h1, h2⟩ := h0.updated hmem (fun _ => List.mem_append_right _ (List.mem_singleton.mpr rfl)) hu
    refine ⟨h1.sameWorkflows ?_, fun _ h => h2.minted (hg.minted h), fun _ h => h2.creates (hg.creates h),
      fun _ h => h2.deliveries (hg.deliveries h)⟩
    refine ⟨fun j hj => ?_, fun j hj => hs.kept j (hu.instances ▸ hj)⟩
    obtain ⟨k, hk, hp⟩ := hs.params j hj
    exact ⟨k, hu.instances.symm ▸ hk, hp⟩

theorem books_keeps (P : Platform) : Keeps (handlers P) (fun _ _ => True)
    (fun s => Books s.durable) (fun s _ t => t.Fenced s.durable) where
  start s c x o hs _ h := by
    obtain ⟨h1, h2, h3⟩ := (start_effect h).books hs.store fun _ _ h => by cases h
    exact ⟨h1, fun _ t ht => ht.mono h2, h3⟩
  resume s k a t x o hs _ ht h := by
    obtain ⟨h1, h2, h3⟩ := (resume_effect h).books hs.store fun t' a' he => by
      obtain ⟨rfl, rfl⟩ := Cause.resumed.inj he
      exact hs.tasks _ (task_mem ht)
    exact ⟨h1, fun _ t ht => ht.mono h2, h3⟩
  environment s e x hs _ h := by
    obtain ⟨h1, h2⟩ := (environment_change h).books hs.store
    exact ⟨h1, fun _ t ht => ht.mono h2⟩

/-- The books are kept, and every suspended handler's record is fenced. -/
theorem books_of_reachable {P : Platform} {s : State} (h : Reachable P s) :
    Holds (fun s => Books s.durable) (fun s _ t => t.Fenced s.durable) s := by
  refine Holds.of_reachable ?_ (books_keeps P) h
  rintro s ⟨now, rfl⟩
  refine ⟨⟨List.nodup_nil, List.not_mem_nil, List.not_mem_nil, ?_, ?_, ?_, ?_, ?_⟩, ?_⟩
  · simp [initial]
  · simp [initial]
  · simp [initial]
  · simp [initial]
  · simp [initial]
  · simp [initial]

/-! ### Fencing -/

namespace Durable

/-- `CERTIFICATES.create` was called for the workflow `id`, and only ever with
this CSR. -/
def RequestedWith (d : Durable) (id csr : String) : Prop :=
  (∃ p ∈ d.creates, p.certificateID = id) ∧ ∀ p ∈ d.creates, p.certificateID = id → p.csr = csr

/-- The workflow `id` exists, created with this CSR. -/
def CreatedWith (d : Durable) (id csr : String) : Prop :=
  (∃ i ∈ d.instances, i.params.certificateID = id) ∧
    ∀ i ∈ d.instances, i.params.certificateID = id → i.params.csr = csr

end Durable

/-- What the record says of the workflows is so, and a workflow of another CSR
is refused. -/
structure FencedIssuance (d : Durable) (r : StoredTunnel) : Prop where
  certificate : ∀ c, r.certificate = some c → r.certificateID = some c.id
  ready : ∀ c, r.certificate = some c → c.state.isReady = true → ∃ csr, r.certificateCsr = some csr ∧
    (c.id, c.state) ∈ d.deliveries ∧ d.CreatedWith c.id csr
  renewal : ∀ x, r.renewal = some x → ∃ csr, r.certificateCsr = some csr ∧
    d.RequestedWith x.certificateID csr ∧
    ∀ i ∈ d.instances, i.params.certificateID = x.certificateID → i.params.csr = csr
  late : ∀ i ∈ d.instances, r.certificateCsr ≠ some i.params.csr →
    ∀ state, d.updateCertificate i.params.certificateID state = (d, false)

/-- The workflow of an id drawn for another CSR is refused. -/
theorem Books.refused {d : Durable} (h : Books d) {r : StoredTunnel} (hr : d.record = some r)
    {i : Instance} (hi : i ∈ d.instances) (hne : r.certificateCsr ≠ some i.params.csr)
    (state : CertificateState) : d.updateCertificate i.params.certificateID state = (d, false) := by
  have hf := h.record r hr
  have hdrawn := h.instance_drawn hi
  unfold Durable.updateCertificate
  split
  · rfl
  · rename_i r' hl
    obtain rfl := Option.some.inj (hr.symm.trans (Durable.live_eq_some.mp hl).1)
    split
    · rename_i x hx
      obtain ⟨hx, hid⟩ := StoredTunnel.renewalOf_eq_some.mp hx
      obtain ⟨csr, h1, h2, -⟩ := hf.renewal x hx
      exact absurd (h.csr_unique (hid ▸ h2) hdrawn ▸ h1) hne
    · split
      · rfl
      · rename_i hid
        have hmem : i.params.certificateID ∈ d.minted.map (·.1) := List.mem_map.mpr ⟨_, hdrawn, rfl⟩
        have hc := h.certificateID_eq hmem (not_not.mp hid)
        obtain ⟨csr, h1, h2⟩ := hf.drawn _ hc
        exact absurd (h.csr_unique h2 hdrawn ▸ h1) hne

/-- In every reachable state the certificate, the renewal and their workflows
belong to the stored CSR. -/
theorem fencing {P : Platform} {s : State} (h : Reachable P s) {r : StoredTunnel}
    (hr : s.store.durable.record = some r) : FencedIssuance s.store.durable r := by
  have hb := (books_of_reachable h).store
  have hf := hb.record r hr
  have instances : ∀ {id csr : String}, (id, csr) ∈ s.store.durable.minted →
      ∀ i ∈ s.store.durable.instances, i.params.certificateID = id → i.params.csr = csr :=
    fun hm i hi hid => hb.csr_unique (hb.instance_drawn hi) (hid ▸ hm)
  refine ⟨hf.certificate, fun c hc hready => ?_, fun x hx => ?_, fun i hi hne st => hb.refused hr hi hne st⟩
  · obtain ⟨csr, h1, h2⟩ := hf.drawn _ (hf.certificate c hc)
    have hd := hf.delivered c hc hready
    exact ⟨csr, h1, hd, hb.deliveries _ hd, instances h2⟩
  · obtain ⟨csr, h1, h2, h3⟩ := hf.renewal x hx
    refine ⟨csr, h1, ⟨h3, fun p hp hid => ?_⟩, instances h2⟩
    exact hb.csr_unique (hb.creates p hp) (hid ▸ h2)

/-- A client attaches shortly before the certificate expires, and its renewal
is created. -/
def renewingRun : List Action :=
  provisioned "csr" ++ [fetching, .environment (.tick (20 * 24 * 60 * 60 * 1000)), attachMessage 0,
    .resume 3 .ok, .resume 3 (.drawn "2" "1"), .resume 3 .accepted]

set_option maxRecDepth 4000 in
theorem renewingRun_state : ∃ s r, after plainPlatform renewingRun = some s ∧
    s.store.durable.record = some r ∧ r.ready = true ∧ r.renewal.isSome = true := by
  refine ⟨_, _, rfl, rfl, ?_, ?_⟩
  · rfl
  · rfl

theorem fencing_renewing : ∃ s r, Reachable plainPlatform s ∧ s.store.durable.record = some r ∧
    r.ready = true ∧ r.renewal.isSome = true ∧ FencedIssuance s.store.durable r := by
  obtain ⟨s, r, hs, hr, h1, h2⟩ := renewingRun_state
  exact ⟨s, r, reachable_of_after hs, hr, h1, h2, fencing (reachable_of_after hs) hr⟩

end ShuvTunnel
