/-
# A failed issuance and its retry

What `bindCertificate` leaves behind on a tunnel whose certificate has failed,
when nothing interrupts it. `ensureCertificateWorkflow` starts a workflow that
is missing and restarts one that errored or was terminated; a workflow that
recorded its failure and returned is `complete`, and it is left at that. A
call with the stored CSR then answers `ok`, and nobody is issuing.

Key definitions: `Retried`.
Key theorems: `ensure_ends`, `retried_iff`.
-/
import ShuvTunnel.Api
import ShuvTunnel.Fencing

namespace ShuvTunnel

open Coop

/-! ### The answer -/

/-- The API answers that the service is unavailable. -/
def Unavailable (r : Result) : Prop :=
  ∃ message, Api.bindCertificate "" r = some (.error (.serviceUnavailableError message))

/-- The call reports that the service is unavailable, or returns while a
workflow of the record's certificate id exists that has not finished. -/
def Retried (s : Store) (r : Result) : Prop :=
  Unavailable r ∨ ((∃ c, r = .bindCertificate (.ok c)) ∧
    ∃ record id i, s.durable.record = some record ∧ record.certificateID = some id ∧
      s.durable.workflow id = some i ∧ i.status.finished = false)

/-! ### The workflow service -/

theorem createWorkflow_spec {d d' : Durable} {p : CertificateWorkflowParams}
    (h : d.createWorkflow p = some d') :
    d'.record = d.record ∧ ∃ i, d'.workflow p.certificateID = some i ∧ i.status = .queued := by
  unfold Durable.createWorkflow at h
  split at h
  · cases h
  · rename_i hw
    obtain rfl := Option.some.inj h
    refine ⟨rfl, ⟨p, .queued, 0, .ordering⟩, ?_, rfl⟩
    unfold Durable.workflow at hw ⊢
    rw [List.find?_append, hw]
    simp

theorem restartWorkflow_spec {d d' : Durable} {id : String} (h : d.restartWorkflow id = some d') :
    d'.record = d.record ∧ ∃ i, d'.workflow id = some i ∧ i.status = .queued := by
  obtain ⟨i, hi, rfl⟩ := Option.map_eq_some_iff.mp h
  obtain ⟨-, hid⟩ := workflow_mem hi
  refine ⟨rfl, { i with status := .queued, attempt := 0, phase := .ordering }, ?_, rfl⟩
  unfold Durable.workflow Durable.setWorkflow at *
  rw [List.find?_map]
  have hp : (fun j : Instance => decide (j.params.certificateID = id)) ∘ (fun j : Instance =>
      if j.params.certificateID = id then { i with status := .queued, attempt := 0, phase := .ordering }
      else j) = fun j => decide (j.params.certificateID = id) := by
    funext j
    by_cases hj : j.params.certificateID = id
    · simp [hj, hid]
    · simp [hj]
  rw [hp, hi]
  simp [hid]

/-- A status that is known is an instance's. -/
theorem workflow_of_status {d : Durable} {id : String} (h : d.workflowStatus id ≠ .unknown) :
    ∃ i, d.workflow id = some i ∧ i.status = d.workflowStatus id := by
  unfold Durable.workflowStatus at *
  cases hw : d.workflow id with
  | none => rw [hw] at h; exact absurd rfl h
  | some i => exact ⟨i, rfl, rfl⟩

/-! ### `ensureCertificateWorkflow` run alone -/

/-- The record's certificate id is `id`. -/
def HasCertificateID (s : Store) (id : String) : Prop :=
  ∃ record, s.durable.record = some record ∧ record.certificateID = some id

section

variable {P : Platform} {e : Ensure} {id : String}

theorem thrown_ends (s : Store) (e : Ensure) (reason : String) :
    Ends (handlers P) Retried (s.ensureThrown e reason) := by
  unfold Store.ensureThrown
  split
  · exact .done (.inl ⟨_, rfl⟩)
  · exact .done (.inl ⟨_, rfl⟩)

theorem returned_ends {s : Store} (hs : HasCertificateID s id) {i : Instance}
    (hi : s.durable.workflow id = some i) (hf : i.status.finished = false) :
    Ends (handlers P) Retried (s.ensureReturned e) := by
  obtain ⟨record, hr, hid⟩ := hs
  exact .done (.inr ⟨⟨_, rfl⟩, record, id, i, hr, hid, hi, hf⟩)

/-- Once the service has taken the request, the workflow is queued. -/
theorem taken_ends {s : Store} {t : Task} (ht : t = .ensureCreate e true ∨ t = .ensureRestart e true)
    (hs : HasCertificateID s id) (hi : ∃ i, s.durable.workflow id = some i ∧ i.status = .queued) :
    Ends (handlers P) Retried (s, .await t) := by
  obtain ⟨i, hi, hq⟩ := hi
  have hf : i.status.finished = false := by rw [hq]; rfl
  rcases ht with rfl | rfl
  · refine .await ⟨.ok, _, rfl⟩ fun a p hp => ?_
    change s.ensureCreated e true a = some p at hp
    unfold Store.ensureCreated at hp
    split at hp
    · cases hp
    · obtain rfl := Option.some.inj hp
      exact returned_ends hs hi hf
    · obtain rfl := Option.some.inj hp
      exact thrown_ends s e _
    · cases hp
  · refine .await ⟨.ok, _, rfl⟩ fun a p hp => ?_
    change s.ensureRestarted e true a = some p at hp
    unfold Store.ensureRestarted at hp
    split at hp
    · cases hp
    · obtain rfl := Option.some.inj hp
      exact returned_ends hs hi hf
    · obtain rfl := Option.some.inj hp
      exact thrown_ends s e _
    · cases hp

theorem creating_ends {s : Store} (he : e.record.certificateID = some id) (hs : HasCertificateID s id) :
    Ends (handlers P) Retried (s.ensureCreating e) := by
  have hid : (Store.ensureParams e).certificateID = id := by simp [Store.ensureParams, he]
  refine .await ⟨.error "", _, rfl⟩ fun a p hp => ?_
  change (s.requestCreate (Store.ensureParams e)).ensureCreated e false a = some p at hp
  unfold Store.ensureCreated at hp
  split at hp
  · obtain ⟨d, hd, rfl⟩ := Option.map_eq_some_iff.mp hp
    obtain ⟨h1, h2⟩ := createWorkflow_spec hd
    rw [hid] at h2
    obtain ⟨record, hr, hrid⟩ := hs
    exact taken_ends (.inl rfl) ⟨record, h1.trans hr, hrid⟩ h2
  · cases hp
  · obtain rfl := Option.some.inj hp
    exact thrown_ends _ e _
  · cases hp

theorem restart_ends {s : Store} (he : e.record.certificateID = some id) (hs : HasCertificateID s id) :
    Ends (handlers P) Retried (s, .await (.ensureRestart e false)) := by
  have hid : (Store.ensureParams e).certificateID = id := by simp [Store.ensureParams, he]
  refine .await ⟨.error "", _, rfl⟩ fun a p hp => ?_
  change s.ensureRestarted e false a = some p at hp
  unfold Store.ensureRestarted at hp
  split at hp
  · obtain ⟨d, hd, rfl⟩ := Option.map_eq_some_iff.mp hp
    rw [hid] at hd
    obtain ⟨h1, h2⟩ := restartWorkflow_spec hd
    obtain ⟨record, hr, hrid⟩ := hs
    exact taken_ends (.inr rfl) ⟨record, h1.trans hr, hrid⟩ h2
  · cases hp
  · obtain rfl := Option.some.inj hp
    exact thrown_ends _ e _
  · cases hp

/-- Unless the workflow of the record's certificate is complete, it is left
running or the call says it is not. -/
theorem ensure_ends {s : Store} (he : e.record.certificateID = some id) (hs : HasCertificateID s id)
    (hc : s.durable.workflowStatus id ≠ .complete) :
    Ends (handlers P) Retried (s, .await (.ensureGet e)) := by
  have hid : (Store.ensureParams e).certificateID = id := by simp [Store.ensureParams, he]
  have status_ends : Ends (handlers P) Retried (s, .await (.ensureStatus e)) := by
    refine .await ⟨.error "", _, rfl⟩ fun a p hp => ?_
    change s.ensureStatus e a = some p at hp
    unfold Store.ensureStatus at hp
    split at hp
    · rename_i st
      split at hp
      · rename_i hst
        rw [hid] at hst
        split at hp
        · obtain rfl := Option.some.inj hp
          exact creating_ends he hs
        · obtain rfl := Option.some.inj hp
          exact restart_ends he hs
        · obtain rfl := Option.some.inj hp
          exact restart_ends he hs
        · rename_i h1 h2 h3
          obtain rfl := Option.some.inj hp
          obtain ⟨i, hi, his⟩ := workflow_of_status (hst ▸ h1)
          refine returned_ends hs hi ?_
          rw [his, ← hst]
          cases st with
          | errored => exact absurd rfl h2
          | terminated => exact absurd rfl h3
          | complete => exact absurd hst.symm hc
          | _ => rfl
      · cases hp
    · obtain rfl := Option.some.inj hp
      exact thrown_ends s e _
    · cases hp
  refine .await ⟨.ok, _, rfl⟩ fun a p hp => ?_
  change s.ensureGot e a = some p at hp
  unfold Store.ensureGot at hp
  split at hp
  · obtain rfl := Option.some.inj hp
    exact status_ends
  · split at hp
    · split at hp
      · obtain rfl := Option.some.inj hp
        exact creating_ends he hs
      · cases hp
    · obtain rfl := Option.some.inj hp
      exact thrown_ends s e _
  · cases hp

end

/-! ### `bindCertificate` run alone -/

/-- Some UUID gives an id that is not in use. -/
theorem exists_mint (d : Durable) (csr : String) : ∃ uuid p, d.mint uuid csr = some p := by
  -- an id longer than all those drawn
  obtain ⟨n, hn⟩ : ∃ n, ∀ x ∈ d.minted.map (·.1), x.length ≤ n := by
    generalize d.minted.map (·.1) = ids
    induction ids with
    | nil => exact ⟨0, by simp⟩
    | cons a l ih =>
      obtain ⟨n, hn⟩ := ih
      refine ⟨max a.length n, fun x hx => ?_⟩
      rcases List.mem_cons.mp hx with rfl | hx
      · exact le_max_left _ _
      · exact (hn x hx).trans (le_max_right _ _)
  have hnew : "cert_" ++ String.ofList (List.replicate (n + 1) 'a') ∉ d.minted.map (·.1) := by
    intro hm
    have := hn _ hm
    simp only [String.length_append, String.length_ofList, List.length_replicate] at this
    omega
  have hsome : (d.mint (String.ofList (List.replicate (n + 1) 'a')) csr).isSome = true := by
    unfold Durable.mint
    simp only
    rw [if_neg hnew]
    rfl
  exact ⟨_, Option.isSome_iff_exists.mp hsome⟩

theorem ensure_workflow_ends {P : Platform} {s : Store} {e : Ensure} (id : String)
    (he : e.record.certificateID = some id) (hs : HasCertificateID s id)
    (hc : s.durable.workflowStatus id ≠ .complete) :
    Ends (handlers P) Retried (s.ensureCertificateWorkflow e) := by
  unfold Store.ensureCertificateWorkflow
  split
  · exact thrown_ends s e _
  · exact ensure_ends he hs hc

/-- The states of `bindCertificate` before it stores anything. -/
theorem bind_ends_iff {P : Platform} {s : Store} {token csr : String} {req : CertificateRequest}
    {r : StoredTunnel} (hl : s.durable.live = some r) (ht : P.hashToken token = r.tokenHash)
    (hreq : P.decodeCsr csr = some req) :
    Ends (handlers P) Retried (s.bindCertificate token csr) ↔
      ((∃ uuid p, s.bindVerified csr req r uuid = some p) ∧
        ∀ uuid p, s.bindVerified csr req r uuid = some p → Ends (handlers P) Retried p) := by
  have h1 : s.bindCertificate token csr = (s, .await (.bindHash token csr r)) := by
    unfold Store.bindCertificate
    rw [hl]
  have h2 : s.bindHashed P token csr r = (s, .await (.bindVerify csr req r)) := by
    unfold Store.bindHashed
    rw [if_neg (not_not.mpr ht), hreq]
  rw [h1]
  constructor
  · intro h
    have h := h.resume (H := handlers P) (a := .ok) (congrArg some h2)
    cases h with
    | await hp h =>
      obtain ⟨a, p, hp⟩ := hp
      refine ⟨?_, fun uuid p hp => h (.drawn uuid "") p hp⟩
      cases a with
      | drawn uuid session => exact ⟨uuid, p, hp⟩
      | _ => cases hp
  · rintro ⟨⟨uuid, p, hp⟩, h⟩
    refine .await ⟨.ok, _, rfl⟩ fun a q hq => ?_
    cases a with
    | ok =>
      obtain rfl := Option.some.inj ((congrArg some h2).symm.trans hq)
      refine .await ⟨.drawn uuid "", p, hp⟩ fun a q hq => ?_
      cases a with
      | drawn uuid session => exact h uuid q hq
      | _ => cases hq
    | _ => cases hq

/-- A certificate for another CSR is issued anew. -/
theorem bindIssue_ends {P : Platform} {s : Store} {csr : String} {identifiers : List String}
    {r : StoredTunnel} (hb : Books s.durable) :
    (∃ uuid p, s.bindIssue csr identifiers r uuid = some p) ∧
      ∀ uuid p, s.bindIssue csr identifiers r uuid = some p → Ends (handlers P) Retried p := by
  constructor
  · obtain ⟨uuid, ⟨d, id⟩, hm⟩ := exists_mint s.durable csr
    refine ⟨uuid, ?_⟩
    unfold Store.bindIssue
    rw [hm]
    exact ⟨_, rfl⟩
  · intro uuid p hp
    obtain ⟨⟨d, id⟩, hm, rfl⟩ := Option.map_eq_some_iff.mp hp
    obtain ⟨hf, rfl⟩ := mint_cases hm
    refine ensure_workflow_ends id rfl ⟨_, rfl, rfl⟩ ?_
    -- no workflow has an id that was not drawn
    have hnone : s.durable.workflow id = none := by
      cases hw : s.durable.workflow id with
      | none => rfl
      | some i =>
        obtain ⟨hi, hid⟩ := workflow_mem hw
        have hd := hb.instance_drawn hi
        rw [hid] at hd
        exact absurd (List.mem_map.mpr ⟨_, hd, rfl⟩) hf.unused
    have hstatus : s.durable.workflowStatus id = .unknown := by
      unfold Durable.workflowStatus
      rw [hnone]
      rfl
    show s.durable.workflowStatus id ≠ .complete
    rw [hstatus]
    decide

/-- `ensureCertificateWorkflow` leaves a workflow that is complete as it is. -/
theorem not_ends_of_complete {P : Platform} {s : Store} {e : Ensure} {r : StoredTunnel} {id : String}
    (hb : Books s.durable) (hr : s.durable.record = some r) (hid : r.certificateID = some id)
    (hc : s.durable.workflowStatus id = .complete) (he : e.record = r) :
    ¬ Ends (handlers P) Retried (s.ensureCertificateWorkflow e) := by
  intro h
  have hne : id ≠ "" := by
    obtain ⟨csr, -, hdrawn⟩ := (hb.record r hr).drawn id hid
    rintro rfl
    exact hb.ne_empty (List.mem_map.mpr ⟨_, hdrawn, rfl⟩)
  have h1 : s.ensureCertificateWorkflow e = (s, .await (.ensureGet e)) := by
    unfold Store.ensureCertificateWorkflow
    rw [he, truthy_eq_some.mpr ⟨hid, hne⟩]
  have hparams : (Store.ensureParams e).certificateID = id := by simp [Store.ensureParams, he, hid]
  have h2 : s.ensureStatus e (.status .complete) = some (s.ensureReturned e) := by
    simp only [Store.ensureStatus, hparams, hc, if_true]
  rw [h1] at h
  have h := h.resume (H := handlers P) (a := .ok) rfl
  have h := h.resume (H := handlers P) (a := .status .complete) h2
  rcases h.result with ⟨m, hm⟩ | ⟨-, record, id', i, h3, h4, h5, h6⟩
  · cases hm
  · obtain rfl := Option.some.inj (hr.symm.trans h3)
    obtain rfl := Option.some.inj (hid.symm.trans h4)
    unfold Durable.workflowStatus at hc
    rw [h5] at hc
    obtain hc : i.status = .complete := hc
    rw [hc] at h6
    cases h6

/-- `bindCertificate`, alone, on a tunnel whose certificate has failed: it
always ends with the issuance retried, or reported to be impossible, exactly
when the tunnel is there and the CSR is another one or the record's workflow
is not complete. -/
theorem retried_iff {P : Platform} {s : State} {r : StoredTunnel} {c : CertificateInfo}
    {token csr : String} {req : CertificateRequest} (h : Reachable P s)
    (hr : s.store.durable.record = some r) (hc : r.certificate = some c) (hf : c.state.isFailed = true)
    (ht : P.hashToken token = r.tokenHash) (hreq : P.decodeCsr csr = some req)
    (hv : validRequest req r = true) :
    Ends (handlers P) Retried (s.store.bindCertificate token csr) ↔
      r.deletedAt = none ∧
        (r.certificateCsr ≠ some csr ∨ s.store.durable.workflowStatus c.id ≠ .complete) := by
  have hb := (books_of_reachable h).store
  have hfenced := hb.record r hr
  have hid := hfenced.certificate c hc
  by_cases hd : r.deletedAt = none
  · have hl : s.store.durable.live = some r := Durable.live_eq_some.mpr ⟨hr, hd⟩
    have hprog : r.inProgress = false := by
      rw [Bool.eq_false_iff, Ne, StoredTunnel.inProgress_iff]
      rintro ⟨c', hc', hs⟩
      obtain rfl := Option.some.inj (hc.symm.trans hc')
      simp [CertificateState.settled, hf] at hs
    rw [bind_ends_iff hl ht hreq]
    obtain ⟨identifiers, hstep⟩ := bindVerified_valid s.store csr hv hc
    by_cases hcsr : r.certificateCsr = some csr
    · simp only [if_pos hcsr] at hstep
      constructor
      · rintro ⟨-, hall⟩
        refine ⟨hd, .inr fun hcomplete => ?_⟩
        exact not_ends_of_complete hb hr hid hcomplete rfl (hall "" _ (hstep ""))
      · rintro ⟨-, hor⟩
        refine ⟨⟨"", _, hstep ""⟩, fun uuid p hp => ?_⟩
        obtain rfl := Option.some.inj ((hstep uuid).symm.trans hp)
        exact ensure_workflow_ends _ hid ⟨r, hr, hid⟩ (hor.resolve_left (not_not.mpr hcsr))
    · simp only [if_neg hcsr, hprog, Bool.false_eq_true, if_false] at hstep
      simp only [hstep, hd, true_and]
      exact iff_of_true (bindIssue_ends hb) (.inl hcsr)
  · have hnone : s.store.durable.live = none := by
      rw [Durable.live_eq_none]
      intro r' hr'
      obtain rfl := Option.some.inj (hr.symm.trans hr')
      exact hd
    have hstart : s.store.bindCertificate token csr = (s.store, .done (.bindCertificate .notFound)) := by
      unfold Store.bindCertificate
      rw [hnone]
    rw [hstart]
    refine iff_of_false (fun h => ?_) fun h => hd h.1
    rcases h.result with ⟨m, hm⟩ | ⟨⟨c', hc'⟩, -⟩
    · cases hm
    · cases hc'

/-! ### A workflow that recorded its failure -/

/-- Each attempt throws, the failure is recorded, and the workflow returns. -/
def failedRun : List Action :=
  initializing :: binding 1 "csr" "1" ++
    [.environment (.workflow "cert_1" (.throw "order")), .environment (.workflow "cert_1" (.throw "order")),
     .environment (.workflow "cert_1" (.throw "order")), .environment (.workflow "cert_1" .record),
     .environment (.workflow "cert_1" .finish)]

set_option maxRecDepth 4000 in
theorem failedRun_state : ∃ s r c, after plainPlatform failedRun = some s ∧
    s.store.durable.record = some r ∧ r.deletedAt = none ∧ r.certificate = some c ∧
    c.state.isFailed = true ∧ plainPlatform.hashToken "tok" = r.tokenHash ∧
    r.certificateCsr = some "csr" ∧ s.store.durable.workflowStatus c.id = .complete ∧
    validRequest ⟨true, "t.d", some []⟩ r = true := by
  refine ⟨_, _, _, rfl, rfl, rfl, rfl, rfl, rfl, rfl, ?_, ?_⟩
  · decide
  · decide

theorem retried_otherCsr : ∃ s, Reachable plainPlatform s ∧
    Ends (handlers plainPlatform) Retried (s.store.bindCertificate "tok" "csr2") := by
  obtain ⟨s, r, c, hs, hr, hd, hc, hf, ht, hcsr, -, hv⟩ := failedRun_state
  refine ⟨s, reachable_of_after hs, (retried_iff (reachable_of_after hs) hr hc hf ht rfl hv).mpr ?_⟩
  refine ⟨hd, .inl ?_⟩
  rw [hcsr]
  decide

/-- With the stored CSR the call answers `ok` and the workflow stays complete. -/
theorem retry_of_complete : ¬ ∀ (s : State) (r : StoredTunnel) (c : CertificateInfo) (token csr : String)
    (req : CertificateRequest), Reachable plainPlatform s → s.store.durable.record = some r →
    r.deletedAt = none → r.certificate = some c → c.state.isFailed = true →
    plainPlatform.hashToken token = r.tokenHash → plainPlatform.decodeCsr csr = some req →
    validRequest req r = true →
    Ends (handlers plainPlatform) Retried (s.store.bindCertificate token csr) := by
  intro h
  obtain ⟨s, r, c, hs, hr, hd, hc, hf, ht, hcsr, hcomplete, hv⟩ := failedRun_state
  have hb := (books_of_reachable (reachable_of_after hs)).store
  have hends := h s r c "tok" "csr" _ (reachable_of_after hs) hr hd hc hf ht rfl hv
  obtain ⟨identifiers, hstep⟩ := bindVerified_valid s.store "csr" hv hc
  have hall := ((bind_ends_iff (Durable.live_eq_some.mpr ⟨hr, hd⟩) ht rfl).mp hends).2
  simp only [if_pos hcsr] at hstep
  exact not_ends_of_complete hb hr ((hb.record r hr).certificate c hc) hcomplete rfl (hall "" _ (hstep ""))

end ShuvTunnel
