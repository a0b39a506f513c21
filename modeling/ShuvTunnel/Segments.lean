/-
# Every segment has one of the effects

The cases of the handlers, once: what a call's first segment, a resumed
segment, an event of the environment and `updateCertificate` can do.

Key theorems: `start_effect`, `resume_effect`, `environment_change`,
`updateCertificate_cases`.
-/
import ShuvTunnel.Effects

namespace ShuvTunnel

open Coop

/-! ### The segments -/

/-- A segment that ends its handler, or goes on, and changes no state. -/
theorem Effect.still {P : Platform} {s : Store} {c : Cause} {o : Outcome Task Result}
    (ho : ∀ u, o = .await u → Follows P s.durable c u)
    (hw : ∀ t a, c = .resumed t a → writesBack P s t a = false ∧ opens s t a = false) :
    Effect P s c s o :=
  .quiet (b := s.bridges) (.refl _) ho hw

theorem startRenewal_cases {s s' : Store} {r : StoredTunnel} {uuid : String} {o : Outcome Task Result}
    (h : s.startRenewal r uuid = some (s', o)) :
    (truthy r.certificateCsr = none ∧ s' = s ∧ o = .done .void) ∨
    ∃ csr id, Fresh s.durable id ∧ r.certificateCsr = some csr ∧ csr ≠ "" ∧
      s' = { s with durable := s.durable.renewing r csr id } ∧
      o = .await (.renewCreate r (renewalParams r csr id) false) := by
  unfold Store.startRenewal at h
  split at h
  · rename_i hc
    obtain ⟨rfl, rfl⟩ := Prod.mk.inj (Option.some.inj h)
    exact .inl ⟨hc, rfl, rfl⟩
  · rename_i csr hc
    obtain ⟨⟨d, id⟩, hm, h⟩ := Option.map_eq_some_iff.mp h
    obtain ⟨hf, rfl⟩ := mint_cases hm
    obtain ⟨rfl, rfl⟩ := Prod.mk.inj h
    obtain ⟨h1, h2⟩ := truthy_eq_some.mp hc
    exact .inr ⟨csr, id, hf, h1, h2, rfl, rfl⟩

/-- A call that only reads ends, or waits with the record it read. -/
theorem live_effect {P : Platform} {s s' : Store} {c : Call} {r : Result} {t : StoredTunnel → Task}
    {o : Outcome Task Result} (ht : ∀ x, s.durable.live = some x → Follows P s.durable (.call c) (t x))
    (h : (match s.durable.live with
      | none => (s, Outcome.done r)
      | some x => (s, .await (t x))) = (s', o)) : Effect P s (.call c) s' o := by
  split at h
  · obtain ⟨rfl, rfl⟩ := Prod.mk.inj h
    exact .still (fun _ h => by cases h) fun _ _ h => by cases h
  · rename_i x hx
    obtain ⟨rfl, rfl⟩ := Prod.mk.inj h
    exact .still (fun u hu => by cases hu; exact ht x hx) fun _ _ h => by cases h

theorem scheduleRenewal_ready (d : Durable) {r : StoredTunnel} (hr : r.ready = true)
    (hl : r.deletedAt = none) : ∃ a, d.scheduleRenewal r = { d with alarm := some a } := by
  obtain ⟨c, hc, hs⟩ := StoredTunnel.ready_iff.mp hr
  have hcs : r.certificateState = some c.state := by simp [StoredTunnel.certificateState, hc]
  unfold Durable.scheduleRenewal
  rw [hl, hcs]
  cases hst : c.state with
  | ready _ _ x => exact ⟨_, rfl⟩
  | challenge _ _ => rw [hst] at hs; cases hs
  | issuing => rw [hst] at hs; cases hs
  | failed _ => rw [hst] at hs; cases hs

theorem scheduleRenewal_alarm (d : Durable) (r : StoredTunnel) :
    ∃ a, d.scheduleRenewal r = { d with alarm := a } := by
  unfold Durable.scheduleRenewal
  split
  · exact ⟨_, rfl⟩
  · exact ⟨d.alarm, rfl⟩

theorem StoredTunnel.ready_of_state {r : StoredTunnel} {c ch : String} {x : Millis}
    (h : r.certificateState = some (.ready c ch x)) : r.ready = true := by
  simp [StoredTunnel.ready, h, CertificateState.isReady]

theorem isActive_of_attached {s : Store} {r : StoredTunnel} (h : s.bridges.attachedBridges ≠ []) :
    s.isActive r = true := by
  unfold Store.isActive
  have : s.bridges.attachedBridges.isEmpty = false := by simpa using h
  rw [this]
  rfl

theorem alarm_effect {P : Platform} {s s' : Store} {uuid : String} {o : Outcome Task Result}
    (h : s.alarm uuid = some (s', o)) : Effect P s (.call (.alarm uuid)) s' o := by
  unfold Store.alarm at h
  split at h
  · simp only at h
    split at h
    · rename_i hl
      obtain ⟨rfl, rfl⟩ := Prod.mk.inj (Option.some.inj h)
      exact .alarmed fun r hr => by cases (show some r = none from hr.symm.trans hl)
    · rename_i r hl
      replace hl : s.durable.live = some r := hl
      have only : ∀ {x : StoredTunnel}, s.durable.live = some x → x = r := fun hx =>
        Option.some.inj (hx.symm.trans hl)
      split at h
      · rename_i c ch x hr
        split at h
        · rename_i hyoung
          obtain ⟨rfl, rfl⟩ := Prod.mk.inj (Option.some.inj h)
          exact .alarmed fun y hy _ _ _ => .inr (only hy ▸ hyoung)
        · split at h
          · obtain ⟨rfl, rfl⟩ := Prod.mk.inj (Option.some.inj h)
            obtain ⟨a, ha⟩ := scheduleRenewal_ready { s.durable with alarm := none }
              (StoredTunnel.ready_of_state hr) (Durable.live_eq_some.mp hl).2
            rw [ha]
            exact .alarmed fun _ _ _ _ _ => .inl rfl
          · split at h
            · rename_i hidle
              obtain ⟨rfl, rfl⟩ := Prod.mk.inj (Option.some.inj h)
              refine .alarmed fun y hy _ hb _ => ?_
              have hactive := isActive_of_attached (s := { s with durable := { s.durable with alarm := none } })
                (r := r) hb
              rw [hactive] at hidle
              cases hidle
            · rcases startRenewal_cases h with ⟨hcsr, rfl, rfl⟩ | ⟨csr, id, hf, hc, hne, rfl, rfl⟩
              · exact .alarmed fun y hy _ _ hn => absurd (only hy ▸ hcsr) hn
              · exact .renewing hl (StoredTunnel.ready_of_state hr)
                  ⟨hf.unused, hf.ne_undefined, hf.ne_empty⟩ hc hne
      · rename_i hno
        obtain ⟨rfl, rfl⟩ := Prod.mk.inj (Option.some.inj h)
        refine .alarmed fun y hy hready _ _ => ?_
        obtain rfl := only hy
        obtain ⟨c, hc, hst⟩ := StoredTunnel.ready_iff.mp hready
        have hcs : y.certificateState = some c.state := by simp [StoredTunnel.certificateState, hc]
        cases hstate : c.state with
        | ready a b x => exact absurd (hcs.trans (congrArg some hstate)) (hno a b x)
        | _ => rw [hstate] at hst; cases hst
  · cases h

/-- A segment that touches only the bridges, and none of their attachments. -/
theorem Effect.bridges {P : Platform} {s : Store} {c : Call} {b : Bridges} {o : Outcome Task Result}
    (hb : s.bridges.Quiet b) (ho : ∀ u, o = .await u → Follows P s.durable (.call c) u) :
    Effect P s (.call c) (s.withBridges b) o :=
  .quiet hb ho fun _ _ h => by cases h

theorem closing_effect {P : Platform} (s : Store) (c : Call) (w : ℕ) :
    Effect P s (.call c) (s.closing w).1 (s.closing w).2 :=
  .bridges (.close _ _) fun _ h => by cases h

theorem message_effect {P : Platform} {s s' : Store} {w : ℕ} {m : Message} {o : Outcome Task Result}
    (h : s.webSocketMessage P w m = some (s', o)) : Effect P s (.call (.webSocketMessage w m)) s' o := by
  obtain ⟨x, -, h⟩ := Option.map_eq_some_iff.mp h
  have done : ∀ {b : Bridges} {r : Result}, s.bridges.Quiet b → s.withBridges b = s' → Outcome.done r = o →
      Effect P s (.call (.webSocketMessage w m)) s' o := by
    rintro b r hb rfl rfl
    exact .bridges hb fun _ h => by cases h
  have same : ∀ {r : Result}, s = s' → Outcome.done r = o → Effect P s (.call (.webSocketMessage w m)) s' o := by
    rintro r rfl rfl
    exact done (.refl _) rfl rfl
  have close : s.closing w = (s', o) → Effect P s (.call (.webSocketMessage w m)) s' o := fun h => by
    have := closing_effect (P := P) s (.webSocketMessage w m) w
    rwa [h] at this
  split at h
  · exact close h
  · rename_i att _
    split at h
    · split at h
      · exact close h
      · unfold Store.dataFrame at h
        split at h
        · obtain ⟨h1, h2⟩ := Prod.mk.inj h
          exact same h1 h2
        · split at h
          · split at h
            · obtain ⟨h1, h2⟩ := Prod.mk.inj h
              exact done (.write _ _ _) h1 h2
            · obtain ⟨h1, h2⟩ := Prod.mk.inj h
              exact same h1 h2
          · obtain ⟨h1, h2⟩ := Prod.mk.inj h
            exact same h1 h2
    · split at h
      · exact close h
      · split at h
        · unfold Store.unattachedControl at h
          split at h
          · split at h
            · exact close h
            · obtain ⟨rfl, rfl⟩ := Prod.mk.inj h
              exact .still (fun u hu => by cases hu; exact .attach) fun _ _ h => by cases h
          · exact close h
        · unfold Store.attachedControl at h
          split at h
          · split at h
            · obtain ⟨h1, h2⟩ := Prod.mk.inj h
              exact same h1 h2
            · rename_i b hs
              obtain ⟨h1, h2⟩ := Prod.mk.inj h
              exact done (.send hs) h1 h2
          · split at h
            · obtain ⟨h1, h2⟩ := Prod.mk.inj h
              exact done (.finish _ _ _) h1 h2
            · obtain ⟨h1, h2⟩ := Prod.mk.inj h
              exact same h1 h2
          · split at h
            · obtain ⟨h1, h2⟩ := Prod.mk.inj h
              exact done (.finish _ _ _) h1 h2
            · obtain ⟨h1, h2⟩ := Prod.mk.inj h
              exact same h1 h2
          · obtain ⟨h1, h2⟩ := Prod.mk.inj h
            exact same h1 h2

theorem close_effect {P : Platform} {s s' : Store} {w : ℕ} {o : Outcome Task Result}
    (h : s.webSocketClose w = some (s', o)) : Effect P s (.call (.webSocketClose w)) s' o := by
  obtain ⟨x, -, h⟩ := Option.bind_eq_some_iff.mp h
  split at h
  · cases h
  · have hq : s.bridges.Quiet (s.bridges.updateSocket w fun w => { w with closeHandled := true }) :=
      .updateSocket _ _ fun w => ⟨rfl, rfl, fun h => h⟩
    have hq' := hq.trans (.finishAll _ (fun c => c.bridge = w) true)
    have hdone : ∀ {b : Bridges}, s.bridges.Quiet b → some (s.withBridges b, Outcome.done Result.void) =
        some (s', o) → Effect P s (.call (.webSocketClose w)) s' o := fun hb h => by
      obtain ⟨rfl, rfl⟩ := Prod.mk.inj (Option.some.inj h)
      exact .bridges hb fun _ h => by cases h
    simp only at h
    split at h
    · exact hdone hq h
    · split at h
      · rename_i r hl
        split at h
        · exact hdone hq' h
        · obtain ⟨rfl, rfl⟩ := Prod.mk.inj (Option.some.inj h)
          exact .closed hl hq'
      · exact hdone hq' h

theorem start_effect {P : Platform} {s s' : Store} {c : Call} {o : Outcome Task Result}
    (h : start P s c = some (s', o)) : Effect P s (.call c) s' o := by
  cases c with
  | initialized id hostname tokenHash =>
    obtain ⟨rfl, rfl⟩ := Prod.mk.inj (Option.some.inj h)
    unfold Durable.initializeTunnel
    split
    · exact .still (fun _ h => by cases h) fun _ _ h => by cases h
    · rename_i hl
      exact .created hl rfl rfl rfl rfl rfl
  | info token => exact live_effect (fun _ => .info) (Option.some.inj h)
  | certificate token => exact live_effect (fun _ => .certificate) (Option.some.inj h)
  | bindCertificate token csr => exact live_effect (fun _ => .bind) (Option.some.inj h)
  | remove token => exact live_effect (fun _ => .remove) (Option.some.inj h)
  | alarm uuid => exact alarm_effect h
  | fetch upgrade protocols position =>
    have := Option.some.inj h
    unfold Store.fetch at this
    have hstill : ∀ {r : Result}, (s, Outcome.done r) = (s', o) →
        Effect P s (.call (.fetch upgrade protocols position)) s' o := by
      intro r h
      obtain ⟨rfl, rfl⟩ := Prod.mk.inj h
      exact .still (fun _ h => by cases h) fun _ _ h => by cases h
    split at this
    · exact hstill this
    · split at this
      · exact hstill this
      · split at this
        · exact hstill this
        · obtain ⟨rfl, rfl⟩ := Prod.mk.inj this
          exact .bridges (.acceptWebSocket _ _) fun _ h => by cases h
  | webSocketMessage socket message => exact message_effect h
  | webSocketClose socket => exact close_effect h
  | webSocketError socket =>
    obtain ⟨x, -, h⟩ := Option.map_eq_some_iff.mp h
    have := closing_effect (P := P) s (.webSocketError socket) socket
    rwa [h] at this
  | connect =>
    obtain ⟨rfl, rfl⟩ := Prod.mk.inj (Option.some.inj h)
    exact .still (fun u hu => by cases hu; exact .connect) fun _ _ h => by cases h

/-- A resumed handler that writes nothing back ends, or goes on. -/
theorem Effect.resumed {P : Platform} {s : Store} {t : Task} {a : Answer} {b : Bridges}
    {o : Outcome Task Result} (hb : s.bridges.Quiet b) (hw : writesBack P s t a = false)
    (hp : opens s t a = false) (ho : ∀ u, o = .await u → Follows P s.durable (.resumed t a) u) :
    Effect P s (.resumed t a) (s.withBridges b) o :=
  .quiet hb ho fun t' a' h => by
    obtain ⟨rfl, rfl⟩ := Cause.resumed.inj h
    exact ⟨hw, hp⟩

/-- A resumed handler that writes nothing back is done. -/
theorem Effect.ended {P : Platform} {s s' : Store} {t : Task} {a : Answer} {r : Result}
    {o : Outcome Task Result} (hw : writesBack P s t a = false) (hp : opens s t a = false)
    (h : (s, Outcome.done r) = (s', o)) : Effect P s (.resumed t a) s' o := by
  obtain ⟨rfl, rfl⟩ := Prod.mk.inj h
  exact .resumed (b := s.bridges) (.refl _) hw hp fun _ h => by cases h

theorem attachError_effect {P : Platform} {s s' : Store} {w : ℕ} {code : String} {t : Task} {a : Answer}
    {o : Outcome Task Result} (hw : writesBack P s t a = false) (hp : opens s t a = false)
    (h : s.attachError P w code = (s', o)) : Effect P s (.resumed t a) s' o := by
  unfold Store.attachError at h
  split at h
  · exact .ended hw hp h
  · rename_i b hb
    obtain ⟨rfl, rfl⟩ := Prod.mk.inj h
    exact .resumed ((Bridges.Quiet.send hb).trans (.close b w)) hw hp fun _ h => by cases h

theorem validRequest_iff {req : CertificateRequest} {r : StoredTunnel} :
    validRequest req r = true ↔ req.verified = true ∧ ∃ identifiers, req.identifiers = some identifiers ∧
      req.commonName = r.hostname ∧
      (identifiers.any fun x => x ≠ r.hostname && x ≠ "*." ++ r.hostname) = false := by
  simp only [validRequest, Bool.and_eq_true, Option.any_eq_true, decide_eq_true_eq, Bool.not_eq_true']

/-- A signed request for the tunnel's names, where a certificate is stored. -/
theorem bindVerified_valid (s : Store) (csr : String) {req : CertificateRequest} {r : StoredTunnel}
    {c : CertificateInfo} (hv : validRequest req r = true) (hc : r.certificate = some c) :
    ∃ identifiers, ∀ uuid, s.bindVerified csr req r uuid =
      if r.certificateCsr = some csr then
        some (s.ensureCertificateWorkflow ⟨r, csr, identifiers, c, false⟩)
      else if r.inProgress then some (s, .done (.bindCertificate .inProgress))
      else s.bindIssue csr identifiers r uuid := by
  obtain ⟨h1, identifiers, h2, h3, h4⟩ := validRequest_iff.mp hv
  refine ⟨identifiers, fun uuid => ?_⟩
  unfold Store.bindVerified
  simp only [h1, h2, h3, h4, hc, Bool.not_true, Bool.false_eq_true, if_false, ne_eq, not_true_eq_false]

/-- `bindCertificate` after the checks: it stores exactly when `bindStores`. -/
theorem bindVerified_effect {P : Platform} {s s' : Store} {csr uuid session : String}
    {req : CertificateRequest} {r : StoredTunnel} {o : Outcome Task Result}
    (h : s.bindVerified csr req r uuid = some (s', o)) :
    Effect P s (.resumed (.bindVerify csr req r) (.drawn uuid session)) s' o := by
  have ended : bindStores csr req r = false → ∀ {x : Result}, some (s, Outcome.done x) = some (s', o) →
      Effect P s (.resumed (.bindVerify csr req r) (.drawn uuid session)) s' o := fun hb _ h =>
    .ended hb rfl (Option.some.inj h)
  have issue : ∀ ids, bindStores csr req r = true → s.bindIssue csr ids r uuid = some (s', o) →
      Effect P s (.resumed (.bindVerify csr req r) (.drawn uuid session)) s' o := fun ids hb h => by
    obtain ⟨⟨d, id⟩, hm, h⟩ := Option.map_eq_some_iff.mp h
    obtain ⟨hf, rfl⟩ := mint_cases hm
    have ht : truthy (some id) = some id := truthy_eq_some.mpr ⟨rfl, hf.ne_empty⟩
    simp only [Store.ensureCertificateWorkflow, ht] at h
    obtain ⟨rfl, rfl⟩ := Prod.mk.inj h
    exact @Effect.issued P s csr req r ids id uuid session hb hf
  unfold Store.bindVerified at h
  split at h
  · rename_i hv
    replace hv : req.verified = false := by simpa using hv
    exact ended (by simp [bindStores, validRequest, hv]) h
  · rename_i hv
    replace hv : req.verified = true := by simpa using hv
    split at h
    · rename_i hi
      exact ended (by simp [bindStores, validRequest, hi]) h
    · rename_i ids hi
      split at h
      · rename_i hc
        exact ended (by simp [bindStores, validRequest, hi, hc]) h
      · rename_i hc
        split at h
        · rename_i ha
          exact ended (by simp only [bindStores, validRequest, hi, Option.any_some, ha]; simp) h
        · rename_i ha
          have hvalid : validRequest req r = true := by
            simp only [validRequest, hv, hi, Bool.true_and, Option.any_some, Bool.and_eq_true,
              decide_eq_true_eq, Bool.not_eq_true']
            exact ⟨not_not.mp hc, by simpa using ha⟩
          split at h
          · rename_i c hcert
            split at h
            · rename_i hcsr
              have hb : bindStores csr req r = false := by simp [bindStores, resubmits, hcert, hcsr]
              unfold Store.ensureCertificateWorkflow Store.ensureThrown at h
              split at h
              · exact ended hb (by simpa using h)
              · obtain ⟨rfl, rfl⟩ := Prod.mk.inj (Option.some.inj h)
                exact .resumed (b := s.bridges) (.refl _) hb rfl fun u hu => by
                  cases hu; exact .resubmit hcert hcsr
            · rename_i hcsr
              split at h
              · rename_i hp
                exact ended (by simp [bindStores, hp]) h
              · rename_i hp
                exact issue ids (by simp [bindStores, hvalid, resubmits, hcsr, hp]) h
          · rename_i hcert
            refine issue ids ?_ h
            simp [bindStores, hvalid, resubmits, hcert, StoredTunnel.inProgress,
              StoredTunnel.certificateState]

theorem thrown_effect {P : Platform} {s s' : Store} {t : Task} {e : Ensure} {message reason : String}
    {o : Outcome Task Result} (ht : t.ensure = some e) (hp : opens s t (.error message) = false)
    (hw : writesBack P s t (.error message) = e.issue) (h : s.ensureThrown e reason = (s', o)) :
    Effect P s (.resumed t (.error message)) s' o := by
  unfold Store.ensureThrown at h
  split at h
  · rename_i hi
    obtain ⟨rfl, rfl⟩ := Prod.mk.inj h
    exact .issueFailed ht hi (hw.trans hi)
  · rename_i hi
    exact .ended (hw.trans (by simpa using hi)) hp h

theorem ensureGot_effect {P : Platform} {s s' : Store} {e : Ensure} {a : Answer} {o : Outcome Task Result}
    (h : s.ensureGot e a = some (s', o)) : Effect P s (.resumed (.ensureGet e) a) s' o := by
  unfold Store.ensureGot at h
  split at h
  · obtain ⟨rfl, rfl⟩ := Prod.mk.inj (Option.some.inj h)
    exact .resumed (b := s.bridges) (.refl _) rfl rfl fun u hu => by cases hu; exact .ensureStatus
  · rename_i message
    split at h
    · rename_i hn
      split at h
      · obtain ⟨rfl, rfl⟩ := Prod.mk.inj (Option.some.inj h)
        exact .requested rfl (by simp [writesBack, hn])
      · cases h
    · rename_i hn
      exact thrown_effect rfl rfl (by simp [writesBack, hn]) (Option.some.inj h)
  · cases h

theorem ensureStatus_effect {P : Platform} {s s' : Store} {e : Ensure} {a : Answer}
    {o : Outcome Task Result} (h : s.ensureStatus e a = some (s', o)) :
    Effect P s (.resumed (.ensureStatus e) a) s' o := by
  unfold Store.ensureStatus at h
  split at h
  · split at h
    · split at h
      · obtain ⟨rfl, rfl⟩ := Prod.mk.inj (Option.some.inj h)
        exact .requested rfl rfl
      · obtain ⟨rfl, rfl⟩ := Prod.mk.inj (Option.some.inj h)
        exact .resumed (b := s.bridges) (.refl _) rfl rfl fun u hu => by cases hu; exact .ensureRestart
      · obtain ⟨rfl, rfl⟩ := Prod.mk.inj (Option.some.inj h)
        exact .resumed (b := s.bridges) (.refl _) rfl rfl fun u hu => by cases hu; exact .ensureRestart
      · exact .ended rfl rfl (Option.some.inj h)
    · cases h
  · exact thrown_effect rfl rfl rfl (Option.some.inj h)
  · cases h

theorem ensureCreated_effect {P : Platform} {s s' : Store} {e : Ensure} {accepted : Bool} {a : Answer}
    {o : Outcome Task Result} (h : s.ensureCreated e accepted a = some (s', o)) :
    Effect P s (.resumed (.ensureCreate e accepted) a) s' o := by
  unfold Store.ensureCreated at h
  split at h
  · split at h
    · cases h
    · obtain ⟨d, hd, h⟩ := Option.map_eq_some_iff.mp h
      obtain ⟨rfl, rfl⟩ := Prod.mk.inj h
      exact .taken (t := .ensureCreate e accepted) rfl hd
  · split at h
    · exact .ended rfl rfl (Option.some.inj h)
    · cases h
  · exact thrown_effect rfl rfl rfl (Option.some.inj h)
  · cases h

theorem ensureRestarted_effect {P : Platform} {s s' : Store} {e : Ensure} {accepted : Bool} {a : Answer}
    {o : Outcome Task Result} (h : s.ensureRestarted e accepted a = some (s', o)) :
    Effect P s (.resumed (.ensureRestart e accepted) a) s' o := by
  unfold Store.ensureRestarted at h
  split at h
  · split at h
    · cases h
    · obtain ⟨d, hd, h⟩ := Option.map_eq_some_iff.mp h
      obtain ⟨rfl, rfl⟩ := Prod.mk.inj h
      exact .restarted hd
  · split at h
    · exact .ended rfl rfl (Option.some.inj h)
    · cases h
  · exact thrown_effect rfl rfl rfl (Option.some.inj h)
  · cases h

theorem renewalCreated_effect {P : Platform} {s s' : Store} {r : StoredTunnel}
    {params : CertificateWorkflowParams} {accepted : Bool} {a : Answer} {o : Outcome Task Result}
    (h : s.renewalCreated r params accepted a = some (s', o)) :
    Effect P s (.resumed (.renewCreate r params accepted) a) s' o := by
  unfold Store.renewalCreated at h
  split at h
  · split at h
    · cases h
    · obtain ⟨d, hd, h⟩ := Option.map_eq_some_iff.mp h
      obtain ⟨rfl, rfl⟩ := Prod.mk.inj h
      exact .taken (t := .renewCreate r params accepted) rfl hd
  · split at h
    · exact .ended rfl rfl (Option.some.inj h)
    · cases h
  · obtain ⟨rfl, rfl⟩ := Prod.mk.inj (Option.some.inj h)
    exact .renewFailed
  · cases h

theorem replies_of_send {P : Platform} {b b' : Bridges} {w : ℕ} {m : ServerMessage}
    (h : b.send P w m = some b') : replies P b w = true := by
  unfold Bridges.send at h
  unfold replies
  split at h
  · rename_i ho
    simp [ho]
  · split at h
    · cases h
    · rename_i ht
      simp [ht]

theorem replies_of_send_none {P : Platform} {b : Bridges} {w : ℕ} {m : ServerMessage}
    (h : b.send P w m = none) : replies P b w = false := by
  unfold Bridges.send at h
  unfold replies
  split at h
  · cases h
  · rename_i ho
    split at h
    · rename_i ht
      simp [ho, ht]
    · cases h

theorem serializeAttachment_isOpen (b : Bridges) (w : ℕ) (a : BridgeAttachment) :
    (b.serializeAttachment w a).isOpen w = b.isOpen w := by
  unfold Bridges.isOpen Bridges.socket Bridges.serializeAttachment Bridges.updateSocket
  induction b.sockets with
  | nil => rfl
  | cons x xs ih =>
    by_cases hx : x.id = w
    · simp [hx, Socket.isOpen]
    · simpa [hx] using ih

theorem replies_serializeAttachment (P : Platform) (b : Bridges) (w : ℕ) (a : BridgeAttachment) :
    replies P (b.serializeAttachment w a) w = replies P b w := by
  have h : (b.serializeAttachment w a).isOpen w = b.isOpen w := serializeAttachment_isOpen b w a
  unfold replies
  rw [h]

/-- `onAttached` on the record the attach message has just stored. -/
theorem onAttached_effect {P : Platform} {s s' : Store} {w : ℕ} {token uuid session : String}
    {routes : Option Json} {r : StoredTunnel} {b : Bridges} {o : Outcome Task Result}
    (ha : attachAccepts P s.bridges w token routes r = true) (hs : replies P s.bridges w = true)
    (hq : (s.bridges.serializeAttachment w
      { attached := true, session := some ("sess_" ++ session),
        routes := some (Store.requestedRoutes routes) }).Quiet b)
    (hr : (connectedRecord r s.durable.now).ready = true)
    (h : (⟨s.durable.save (connectedRecord r s.durable.now), b⟩ : Store).onAttached
      (connectedRecord r s.durable.now) uuid = some (s', o)) :
    Effect P s (.resumed (.attachHash w token routes r) (.drawn uuid session)) s' o := by
  unfold Store.onAttached at h
  split at h
  · simp only at h
    split at h
    · rcases startRenewal_cases h with ⟨hcsr, rfl, rfl⟩ | ⟨csr, id, hf, hcsr, hne, rfl, rfl⟩
      · exact .attached (a := s.durable.alarm) ha hs hq fun _ hn => absurd hcsr hn
      · exact .attachedRenewing ha hs hq ⟨hf.unused, hf.ne_undefined, hf.ne_empty⟩ hcsr hne
    · split at h
      · obtain ⟨rfl, rfl⟩ := Prod.mk.inj (Option.some.inj h)
        by_cases hd : r.deletedAt = none
        · obtain ⟨a, ha'⟩ := scheduleRenewal_ready (s.durable.save (connectedRecord r s.durable.now)) hr hd
          rw [ha']
          exact .attached ha hs hq fun _ _ => rfl
        · obtain ⟨a, ha'⟩ := scheduleRenewal_alarm (s.durable.save (connectedRecord r s.durable.now))
            (connectedRecord r s.durable.now)
          rw [ha']
          exact .attached ha hs hq fun hn => absurd hn hd
      · rename_i halarm
        obtain ⟨rfl, rfl⟩ := Prod.mk.inj (Option.some.inj h)
        refine .attached (a := s.durable.alarm) ha hs hq fun _ _ => ?_
        simpa [Durable.save, Option.isSome_iff_ne_none] using halarm
  · rename_i hno
    obtain ⟨c, hc, hst⟩ := StoredTunnel.ready_iff.mp hr
    have hcs : (connectedRecord r s.durable.now).certificateState = some c.state := by
      simp [StoredTunnel.certificateState, hc]
    cases hstate : c.state with
    | ready a b x => exact absurd (hcs.trans (congrArg some hstate)) (hno a b x)
    | _ => rw [hstate] at hst; cases hst

/-- The attach message is refused, or accepted: then the record and the
attachment are written, and the reply is sent or throws. -/
theorem attachHashed_cases {P : Platform} {s s' : Store} {w : ℕ} {token uuid session : String}
    {routes : Option Json} {r : StoredTunnel} {o : Outcome Task Result}
    (h : s.attachHashed P w token routes r uuid session = some (s', o)) :
    (attachAccepts P s.bridges w token routes r = false ∧ ∃ code, s.attachError P w code = (s', o)) ∨
    ∃ b₁, attachAccepts P s.bridges w token routes r = true ∧
      b₁ = s.bridges.serializeAttachment w { attached := true, session := some ("sess_" ++ session),
                                             routes := some (Store.requestedRoutes routes) } ∧
      (b₁.send P w (.attached ("sess_" ++ session) (Store.requestedRoutes routes) HEARTBEAT_MS IDLE_TIMEOUT_MS) = none ∧
          s' = ⟨s.durable.save (connectedRecord r s.durable.now), b₁⟩ ∧ o = .done (.thrown "send") ∨
        ∃ b, b₁.send P w (.attached ("sess_" ++ session) (Store.requestedRoutes routes) HEARTBEAT_MS
            IDLE_TIMEOUT_MS) = some b ∧
          (⟨s.durable.save (connectedRecord r s.durable.now), b⟩ : Store).onAttached
            (connectedRecord r s.durable.now) uuid = some (s', o)) := by
  unfold Store.attachHashed at h
  simp only at h
  split at h
  · rename_i ht
    exact .inl ⟨by simp [attachAccepts, ht], _, Option.some.inj h⟩
  · rename_i ht
    split at h
    · rename_i hr
      replace hr : r.ready = false := by simpa using hr
      exact .inl ⟨by simp [attachAccepts, hr], _, Option.some.inj h⟩
    · rename_i hr
      split at h
      · rename_i hv
        refine .inl ⟨?_, _, Option.some.inj h⟩
        simp only [Bool.or_eq_true, List.any_eq_true, Bool.not_eq_true'] at hv
        rcases hv with hv | ⟨x, hx, hv⟩
        · simp [attachAccepts, hv]
        · have : (Store.requestedRoutes routes).all validRoute = false :=
            List.all_eq_false.mpr ⟨x, hx, by simp [hv]⟩
          simp [attachAccepts, this]
      · rename_i hv
        split at h
        · rename_i hc
          exact .inl ⟨by simp [attachAccepts, hc], _, Option.some.inj h⟩
        · rename_i hc
          have ha : attachAccepts P s.bridges w token routes r = true := by
            simp only [attachAccepts, Bool.and_eq_true, decide_eq_true_eq, Bool.not_eq_true']
            simp only [Bool.or_eq_true, not_or, List.any_eq_true, Bool.not_eq_true', not_exists,
              not_and, Bool.not_eq_false] at hv
            exact ⟨⟨⟨⟨not_not.mp ht, by simpa using hr⟩, by simpa using hv.1⟩,
              List.all_eq_true.mpr hv.2⟩, by simpa using hc⟩
          refine .inr ⟨_, ha, rfl, ?_⟩
          split at h
          · rename_i hthrow
            obtain ⟨rfl, rfl⟩ := Prod.mk.inj (Option.some.inj h)
            exact .inl ⟨hthrow, rfl, rfl⟩
          · rename_i b hb
            exact .inr ⟨b, hb, h⟩

theorem attachHashed_effect {P : Platform} {s s' : Store} {w : ℕ} {token uuid session : String}
    {routes : Option Json} {r : StoredTunnel} {o : Outcome Task Result}
    (h : s.attachHashed P w token routes r uuid session = some (s', o)) :
    Effect P s (.resumed (.attachHash w token routes r) (.drawn uuid session)) s' o := by
  rcases attachHashed_cases h with ⟨ha, code, h⟩ | ⟨b₁, ha, rfl, ⟨hthrow, rfl, rfl⟩ | ⟨b, hb, h⟩⟩
  · exact attachError_effect ha rfl h
  · have hr := replies_of_send_none hthrow
    exact .attachThrown ha ((replies_serializeAttachment _ _ _ _).symm.trans hr)
  · have hs := replies_of_send hb
    exact onAttached_effect ha ((replies_serializeAttachment _ _ _ _).symm.trans hs) (.send hb)
      (attachAccepts_ready ha) h

theorem allocate_free {taken : List ℕ} {fuel n conn n' : ℕ}
    (h : Store.allocate taken fuel n = some (conn, n')) : conn ≠ 0 ∧ conn ∉ taken := by
  induction fuel generalizing n with
  | zero => cases h
  | succ fuel ih =>
    unfold Store.allocate at h
    simp only at h
    split at h
    · exact ih h
    · rename_i hn
      obtain ⟨rfl, -⟩ := Prod.mk.inj (Option.some.inj h)
      simpa using hn

theorem connectHello_effect {P : Platform} {s s' : Store} {record : Option StoredTunnel} {hello : Hello}
    {o : Outcome Task Result} (h : s.connectHello P record hello = some (s', o)) :
    Effect P s (.resumed (.connectRead record) (.hello hello)) s' o := by
  unfold Store.connectHello at h
  simp only at h
  split at h
  · rename_i r route bridge hr hb
    have hopens : connectOpens s.bridges (some r) hello =
        (r.deletedAt.isNone && r.ready && !route.toList.contains '.') := by
      simp only [connectOpens, hr, hb, Option.any_some, Option.isSome_some, Bool.and_true]
    split at h
    · rename_i hbad
      refine .ended rfl ?_ (Option.some.inj h)
      show connectOpens s.bridges (some r) hello = false
      rw [hopens]
      simp only [Bool.or_eq_true, Bool.not_eq_true'] at hbad
      rcases hbad with (hbad | hbad) | hbad
      · obtain ⟨x, hx⟩ := Option.isSome_iff_exists.mp hbad
        simp [hx]
      · simp [hbad]
      · simp only [hbad, Bool.not_true, Bool.and_false]
    · rename_i hok
      have ho : connectOpens s.bridges (some r) hello = true := by
        rw [hopens]
        simp only [Bool.or_eq_true, not_or, Bool.not_eq_true', Bool.not_eq_true, Bool.not_eq_false] at hok
        obtain ⟨⟨h1, h2⟩, h3⟩ := hok
        simp only [h2, h3, Bool.not_false, Bool.and_true]
        simpa using h1
      obtain ⟨⟨conn, n⟩, ha, h⟩ := Option.map_eq_some_iff.mp h
      have hfree := (allocate_free ha).2
      have hnew : ∀ p ∈ s.bridges.channels, p.1 ≠ conn := fun p hp he =>
        hfree (List.mem_map.mpr ⟨p, hp, he⟩)
      simp only at h
      split at h
      · obtain ⟨rfl, rfl⟩ := Prod.mk.inj h
        exact .opened ho (.of_sockets rfl rfl fun _ h => h) rfl hnew fun _ h => by cases h
      · rename_i b hs
        obtain ⟨rfl, rfl⟩ := Prod.mk.inj h
        have hq := Bridges.Quiet.sendAll hs
        refine .opened ho ⟨hq.sockets, fun _ h => h, fun hn => ?_⟩ (Bridges.sendAll_channels hs) hnew fun u hu => ?_
        · have := hq.numbered ⟨hn.nodup, hn.lt⟩
          exact ⟨this.nodup, this.lt⟩
        · cases hu
          exact ⟨_, rfl⟩
  · rename_i hno
    refine .ended rfl ?_ (Option.some.inj h)
    show connectOpens s.bridges _ hello = false
    by_contra hc
    simp only [connectOpens, Bool.not_eq_false, Bool.and_eq_true] at hc
    obtain ⟨⟨h1, h2⟩, h3⟩ := hc
    obtain ⟨r, hr, -⟩ := (Option.any_eq_true _ _).mp h1
    obtain ⟨route, hroute, -⟩ := (Option.any_eq_true _ _).mp h2
    obtain ⟨bridge, hb⟩ := Option.isSome_iff_exists.mp h3
    exact hno r route bridge hr hroute hb

theorem upload_effect {P : Platform} {s s' : Store} {key : ℕ} {a : Answer} {o : Outcome Task Result}
    (h : s.upload P key a = some (s', o)) : Effect P s (.resumed (.upload key) a) s' o := by
  have hw : writesBack P s (.upload key) a = false := by cases a <;> rfl
  have hp : opens s (.upload key) a = false := by cases a <;> rfl
  obtain ⟨c, -, h⟩ := Option.bind_eq_some_iff.mp h
  have ended : ∀ {b : Bridges} {k : ℕ}, s.bridges.Quiet b →
      (s.withBridges b).uploadEnded k = (s', o) → Effect P s (.resumed (.upload key) a) s' o := fun hb h => by
    obtain ⟨rfl, rfl⟩ := Prod.mk.inj h
    exact .resumed hb hw hp fun u hu => by cases hu; exact .settling
  have failed : s.uploadFailed P c = (s', o) → Effect P s (.resumed (.upload key) a) s' o := fun h => by
    unfold Store.uploadFailed at h
    split at h
    · exact ended (b := s.bridges) (.refl _) h
    · rename_i b hb
      exact ended ((Bridges.Quiet.send hb).trans (.finish _ _ _)) h
  split at h
  · split at h
    · exact failed (Option.some.inj h)
    · rename_i b hb
      exact ended (.send hb) (Option.some.inj h)
  · split at h
    · exact failed (Option.some.inj h)
    · split at h
      · exact failed (Option.some.inj h)
      · rename_i b hb
        obtain ⟨rfl, rfl⟩ := Prod.mk.inj (Option.some.inj h)
        exact .resumed (.send hb) hw hp fun u hu => by cases hu; exact .upload
  · exact failed (Option.some.inj h)
  · cases h

theorem resume_effect {P : Platform} {s s' : Store} {t : Task} {a : Answer} {o : Outcome Task Result}
    (h : resume P s t a = some (s', o)) : Effect P s (.resumed t a) s' o := by
  unfold resume at h
  split at h
  · have h := Option.some.inj h
    unfold Store.infoHashed at h
    split at h
    · exact .ended rfl rfl h
    · exact .ended rfl rfl h
  · have h := Option.some.inj h
    unfold Store.certificateHashed at h
    split at h
    · exact .ended rfl rfl h
    · split at h
      · exact .ended rfl rfl h
      · exact .ended rfl rfl h
  · have h := Option.some.inj h
    unfold Store.removeHashed at h
    split at h
    · rename_i ht
      exact .ended (by simp [writesBack, ht]) rfl h
    · rename_i ht
      obtain ⟨rfl, rfl⟩ := Prod.mk.inj h
      exact .removed (not_not.mp ht)
  · have h := Option.some.inj h
    unfold Store.bindHashed at h
    split at h
    · exact .ended rfl rfl h
    · rename_i ht
      split at h
      · exact .ended rfl rfl h
      · rename_i req hreq
        obtain ⟨rfl, rfl⟩ := Prod.mk.inj h
        exact .resumed (b := s.bridges) (.refl _) rfl rfl fun u hu => by
          cases hu; exact .bindHash (not_not.mp ht) hreq
  · exact bindVerified_effect h
  · exact ensureGot_effect h
  · exact ensureStatus_effect h
  · exact ensureCreated_effect h
  · exact ensureRestarted_effect h
  · exact renewalCreated_effect h
  · have h := Option.some.inj h
    unfold Store.attachRead at h
    split at h
    · exact attachError_effect rfl rfl h
    · rename_i r hl
      obtain ⟨rfl, rfl⟩ := Prod.mk.inj h
      exact .resumed (b := s.bridges) (.refl _) rfl rfl fun u hu => by cases hu; exact .attachRead hl
  · exact attachHashed_effect h
  · exact connectHello_effect h
  · exact upload_effect h
  · obtain ⟨c, -, h⟩ := Option.bind_eq_some_iff.mp h
    split at h
    · obtain ⟨rfl, rfl⟩ := Prod.mk.inj (Option.some.inj h)
      exact .resumed (.finish _ _ _) rfl rfl fun _ h => by cases h
    · cases h
  · cases h

/-! ### The environment -/

theorem updateCertificate_cases (d : Durable) (id : String) (st : CertificateState) :
    Update d id st (d.updateCertificate id st).1 (d.updateCertificate id st).2 := by
  unfold Durable.updateCertificate
  split
  · rename_i hl
    exact .refused fun r hr => by rw [hl] at hr; cases hr
  · rename_i r hl
    have hd := (Durable.live_eq_some.mp hl).2
    split
    · rename_i x hx
      obtain ⟨hxr, rfl⟩ := StoredTunnel.renewalOf_eq_some.mp hx
      split
      · rename_i c ch e
        obtain ⟨a, ha⟩ := scheduleRenewal_ready
          (d.save { r with
            certificateID := some x.certificateID
            certificate := some ⟨x.certificateID, .ready c ch e⟩
            renewal := none })
          (r := { r with
            certificateID := some x.certificateID
            certificate := some ⟨x.certificateID, .ready c ch e⟩
            renewal := none }) rfl hd
        simp only [ha]
        exact .renewed hl hxr rfl rfl
      · exact .renewalFailed hl hxr rfl rfl
      · rename_i h1 h2
        refine .renewalPending hl hxr rfl ?_
        cases st with
        | ready c ch e => exact absurd rfl (h1 c ch e)
        | failed reason => exact absurd rfl (h2 reason)
        | challenge _ _ => rfl
        | issuing => rfl
    · rename_i hx
      split
      · rename_i hid
        refine .refused fun r' hr' => ?_
        obtain rfl := Option.some.inj (hl.symm.trans hr')
        exact ⟨hx, hid⟩
      · rename_i hid
        by_cases hr : st.isReady = true
        · obtain ⟨a, ha⟩ := scheduleRenewal_ready (d.save { r with certificate := some ⟨id, st⟩ })
            (r := { r with certificate := some ⟨id, st⟩ }) (StoredTunnel.ready_iff.mpr ⟨_, rfl, hr⟩) hd
          simp only [ha]
          exact .stored hl hx (not_not.mp hid) fun _ => rfl
        · obtain ⟨a, ha⟩ := scheduleRenewal_alarm (d.save { r with certificate := some ⟨id, st⟩ })
            { r with certificate := some ⟨id, st⟩ }
          simp only [ha]
          exact .stored hl hx (not_not.mp hid) fun h => absurd h hr

theorem Update.instances {d d' : Durable} {id : String} {st : CertificateState} {ok : Bool}
    (h : Update d id st d' ok) : d'.instances = d.instances := by
  cases h <;> rfl

/-- A `create` changes the instances only. -/
theorem createWorkflow_frame {d d' : Durable} {p : CertificateWorkflowParams}
    (h : d.createWorkflow p = some d') : d' = { d with instances := d'.instances } := by
  unfold Durable.createWorkflow at h
  split at h
  · cases h
  · obtain rfl := Option.some.inj h
    rfl

/-- So does a `restart`. -/
theorem restartWorkflow_frame {d d' : Durable} {id : String} (h : d.restartWorkflow id = some d') :
    d' = { d with instances := d'.instances } := by
  obtain ⟨i, -, rfl⟩ := Option.map_eq_some_iff.mp h
  rfl

theorem sameWorkflows_set {d : Durable} {i j : Instance} (hi : i ∈ d.instances) (hj : j.params = i.params) :
    SameWorkflows d (d.setWorkflow i.params.certificateID j) := by
  refine ⟨fun k' hk' => ?_, fun k hk => ⟨_, List.mem_map_of_mem hk, ?_⟩⟩
  · obtain ⟨k, hk, rfl⟩ := List.mem_map.mp hk'
    split
    · exact ⟨i, hi, hj.symm⟩
    · exact ⟨k, hk, rfl⟩
  · split
    · rename_i hid
      rw [hj, hid]
    · rfl

theorem throw_params (i : Instance) (reason : String) : (i.throw reason).params = i.params := by
  unfold Instance.throw
  split <;> rfl

theorem workflow_mem {d : Durable} {id : String} {i : Instance} (h : d.workflow id = some i) :
    i ∈ d.instances ∧ i.params.certificateID = id :=
  ⟨List.mem_of_find?_eq_some h, by simpa using List.find?_some h⟩

theorem workflowStep_change {P : Platform} {s : Store} {id : String} {e : WorkflowEvent} {d : Durable}
    (h : s.durable.workflowStep P id e = some d) :
    Change P s (.workflow id e) { s with durable := d } := by
  unfold Durable.workflowStep at h
  split at h
  · cases h
  · rename_i i hw
    obtain ⟨hi, rfl⟩ := workflow_mem hw
    split at h
    · cases h
    · -- an event that changes only the instance
      have kept : ∀ {j : Instance}, i.posts e = none →
          some (s.durable.setWorkflow i.params.certificateID j) = some d → j.params = i.params →
          Change P s (.workflow i.params.certificateID e) { s with durable := d } := fun hp h hj => by
        obtain rfl := Option.some.inj h
        exact .workflow hw hp (sameWorkflows_set hi hj)
      -- an event that posts a state first
      have posts : ∀ {st : CertificateState} {j : Instance}, i.posts e = some st →
          (∀ c ch x, st = .ready c ch x → P.issuedFor c = i.params.csr) → j.params = i.params →
          some ((s.durable.update i.params.certificateID st).1.setWorkflow i.params.certificateID j) =
            some d →
          Change P s (.workflow i.params.certificateID e) { s with durable := d } := fun hp hst hj h => by
        obtain rfl := Option.some.inj h
        refine .posted hw hp hst ?_
        have := sameWorkflows_set hi hj
        simp only [Durable.update]
        rw [(updateCertificate_cases _ _ _).instances]
        exact this
      unfold Durable.workflowEvent at h
      split at h
      · exact kept rfl h rfl
      · split at h
        · refine posts rfl (by simp) ?_ h
          split
          · rfl
          · exact throw_params _ _
        · cases h
      · split at h
        · rename_i hok
          refine posts rfl (fun c ch x h => ?_) ?_ h
          · obtain ⟨rfl, -, -⟩ := CertificateState.ready.inj h
            exact hok.2
          · split
            · rfl
            · exact throw_params _ _
        · cases h
      · split at h
        · cases h
        · cases h
        · exact kept rfl h (throw_params _ _)
      · split at h
        · rename_i reason hphase
          refine posts (by simp only [Instance.posts, hphase]) (by simp) ?_ h
          split <;> rfl
        · rename_i reason hphase
          refine posts (by simp only [Instance.posts, hphase]) (by simp) ?_ h
          split <;> rfl
        · cases h
      · split at h
        · exact kept rfl h rfl
        · exact kept rfl h rfl
        · cases h
      · exact kept rfl h rfl

theorem environment_change {P : Platform} {s s' : Store} {e : Event} (h : environment P s e = some s') :
    Change P s e s' := by
  unfold environment at h
  split at h
  · obtain rfl := Option.some.inj h
    exact .tick
  · obtain rfl := Option.some.inj h
    exact .sockets (by simp) (by simp) (.close _ _)
  · split at h
    · cases h
    · rename_i id _
      obtain rfl := Option.some.inj h
      refine .sockets (by simp) (by simp)
        ⟨fun w hw => .inl ?_, fun _ h => h, fun hn => ?_⟩
      · exact ⟨w, (List.mem_filter.mp hw).1, .refl w⟩
      · have hsub : ((s.bridges.sockets.filter fun w => w.id ≠ id).map (·.id)).Sublist
            (s.bridges.sockets.map (·.id)) := List.filter_sublist.map _
        exact ⟨hsub.nodup hn.nodup, fun i hi => hn.lt i (hsub.subset hi)⟩
  · obtain ⟨d, hd, rfl⟩ := Option.map_eq_some_iff.mp h
    exact workflowStep_change hd

end ShuvTunnel
