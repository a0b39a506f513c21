/-
# When a renewal is stranded

A tunnel with a ready certificate and an attached bridge depends on an alarm,
or on a renewal that is not stale: without either, nothing renews the
certificate until the next attach. Two steps lose both. Time passes until the
recorded renewal is stale while no alarm is set (the alarm that started the
renewal was consumed, and its workflow never reported); and an attach message
is accepted whose reply throws, before `onAttached` is reached.

Key definitions: `Covered`, `Strands`.
Key theorems: `Effect.covered_iff`, `Change.covered_iff`, `coverage_iff`.
-/
import ShuvTunnel.Fencing
import ShuvTunnel.Snapshots

namespace ShuvTunnel

open Coop

/-! ### The property and the steps that lose it -/

/-- While the certificate is ready and a bridge attached, an alarm is set or a
renewal is recorded that is younger than `RENEWAL_STALE_MS`. -/
def Covered (s : Store) : Prop :=
  ∀ r, s.durable.live = some r → r.ready = true → s.bridges.attachedBridges ≠ [] →
    s.durable.alarm.isSome = true ∨ r.renewing s.durable.now = true

/-- The recorded renewal is stale after `n` milliseconds, or there is none, and
no alarm is set. -/
def TickStrands (s : Store) (n : ℕ) : Prop :=
  ∃ r, s.durable.live = some r ∧ r.ready = true ∧ s.bridges.attachedBridges ≠ [] ∧
    s.durable.alarm = none ∧ r.renewing (s.durable.now + n) = false

/-- An attach message is accepted and its reply throws, while no alarm is set
and the record it read has no young renewal. -/
def AttachStrands (P : Platform) (s : Store) : Task → Answer → Prop
  | .attachHash w token routes r, .drawn _ _ =>
    attachAccepts P s.bridges w token routes r = true ∧ replies P s.bridges w = false ∧
      s.durable.alarm = none ∧ r.renewing s.durable.now = false ∧
      ∃ x ∈ s.bridges.sockets, x.id = w ∨ x.attached = true
  | _, _ => False

/-- The steps behind which a renewal is lost: a tick that outlasts it, or an
attach that throws. -/
def Strands (P : Platform) (s : State) : Action → Prop
  | .environment (.tick n) => TickStrands s.store n
  | .resume k a => ∃ t, s.task k = some t ∧ AttachStrands P s.store t a
  | _ => False

instance (s : Store) (n : ℕ) : Decidable (TickStrands s n) :=
  decidable_of_iff (s.durable.live.any (fun r => r.ready && !s.bridges.attachedBridges.isEmpty &&
    s.durable.alarm.isNone && !r.renewing (s.durable.now + n)) = true) <| by
    simp [TickStrands, Option.any_eq_true, and_assoc]

instance (P : Platform) (s : Store) (t : Task) (a : Answer) : Decidable (AttachStrands P s t a) := by
  unfold AttachStrands
  split <;> infer_instance

instance (P : Platform) (s : State) (a : Action) : Decidable (Strands P s a) := by
  unfold Strands
  split
  · infer_instance
  · exact Option.decidableExistsMem _
  · infer_instance

/-! ### Keeping it covered -/

theorem Covered.of_alarm {s : Store} (h : s.durable.alarm.isSome = true) : Covered s :=
  fun _ _ _ _ => .inl h

/-- The record is not ready, or deleted. -/
theorem Covered.of_record {s : Store} (h : ∀ r, s.durable.record = some r → r.ready = true → r.deletedAt ≠ none) :
    Covered s := fun r hr hready _ =>
  absurd (Durable.live_eq_some.mp hr).2 (h r (Durable.live_eq_some.mp hr).1 hready)

theorem Covered.of_unready {s : Store} (h : ∀ r, s.durable.record = some r → r.ready = false) : Covered s :=
  .of_record fun r hr hready => by rw [h r hr] at hready; cases hready

/-- The same alarm and clock, the certificate and the renewal of before, and no
bridge attached that was not. -/
theorem Covered.same {s s' : Store} (h : Covered s) (ha : s'.durable.alarm = s.durable.alarm)
    (hn : s'.durable.now = s.durable.now)
    (hr : ∀ r', s'.durable.live = some r' → ∃ r, s.durable.live = some r ∧ r'.ready = r.ready ∧
      r'.renewal = r.renewal)
    (hb : s'.bridges.attachedBridges ≠ [] → s.bridges.attachedBridges ≠ []) : Covered s' := by
  intro r' hr' hready hbr
  obtain ⟨r, hl, h1, h2⟩ := hr r' hr'
  have := h r hl (h1 ▸ hready) (hb hbr)
  unfold StoredTunnel.renewing at this ⊢
  rw [ha, hn, h2]
  exact this

theorem Covered.of_live {s s' : Store} (h : Covered s) (ha : s'.durable.alarm = s.durable.alarm)
    (hn : s'.durable.now = s.durable.now) (hr : s'.durable.record = s.durable.record)
    (hb : s'.bridges.attachedBridges ≠ [] → s.bridges.attachedBridges ≠ []) : Covered s' := by
  refine h.same ha hn (fun r hl => ⟨r, ?_, rfl, rfl⟩) hb
  unfold Durable.live at *
  rw [← hr]
  exact hl

/-- A renewal that starts now is young. -/
theorem renewing_now {r : StoredTunnel} {id : String} {now : Millis} (h : r.renewal = some ⟨id, now⟩) :
    r.renewing now = true := by
  unfold StoredTunnel.renewing
  rw [h]
  simp [RENEWAL_STALE_MS, DAY_MS]

theorem Covered.of_renewing {d : Durable} {r : StoredTunnel} {csr id : String} {b : Bridges} :
    Covered ⟨d.renewing r csr id, b⟩ := by
  intro x hx _ _
  obtain rfl := Option.some.inj (Durable.live_eq_some.mp hx).1
  exact .inr (renewing_now rfl)

/-- A ready certificate has a CSR that renews it. -/
theorem csr_of_ready {d : Durable} {r : StoredTunnel} (hd : Books d) (hf : Fenced d r)
    (hr : r.ready = true) : truthy r.certificateCsr ≠ none := by
  obtain ⟨c, hc, -⟩ := StoredTunnel.ready_iff.mp hr
  obtain ⟨csr, h1, h2⟩ := hf.drawn _ (hf.certificate c hc)
  rw [truthy_eq_some.mpr ⟨h1, hd.csr_ne_empty _ h2⟩]
  exact Option.some_ne_none csr

/-! ### One segment -/

theorem AttachStrands.cases {P : Platform} {s : Store} {t : Task} {a : Answer} (h : AttachStrands P s t a) :
    ∃ w token routes r uuid session, t = .attachHash w token routes r ∧ a = .drawn uuid session ∧
      attachAccepts P s.bridges w token routes r = true ∧ replies P s.bridges w = false ∧
      s.durable.alarm = none ∧ r.renewing s.durable.now = false ∧
      ∃ x ∈ s.bridges.sockets, x.id = w ∨ x.attached = true := by
  unfold AttachStrands at h
  split at h
  · exact ⟨_, _, _, _, _, _, rfl, rfl, h⟩
  · exact h.elim

/-- An accepted attach message leaves a bridge attached, unless its socket is
gone and there was none. -/
theorem attachedBridges_serialize {b : Bridges} {w : ℕ} {session : Option String}
    {routes : Option (List String)} :
    (b.serializeAttachment w { attached := true, session, routes }).attachedBridges ≠ [] ↔
      ∃ x ∈ b.sockets, x.id = w ∨ x.attached = true := by
  constructor
  · intro h
    obtain ⟨y, hy⟩ := List.exists_mem_of_ne_nil _ h
    obtain ⟨hm, ha⟩ := List.mem_filter.mp hy
    obtain ⟨x, hx, rfl⟩ := List.mem_map.mp hm
    by_cases hid : x.id = w
    · exact ⟨x, hx, .inl hid⟩
    · rw [if_neg hid] at ha
      exact ⟨x, hx, .inr ha⟩
  · rintro ⟨x, hx, h⟩
    refine List.ne_nil_of_mem (List.mem_filter.mpr ⟨List.mem_map_of_mem hx, ?_⟩)
    by_cases hid : x.id = w
    · rw [if_pos hid]
      rfl
    · rw [if_neg hid]
      exact h.resolve_left hid

/-- The record an accepted attach message stores. -/
theorem Covered.connected_iff {d : Durable} {r : StoredTunnel} {b : Bridges} (hl : r.deletedAt = none)
    (hr : r.ready = true) :
    Covered ⟨d.save (connectedRecord r d.now), b⟩ ↔
      (b.attachedBridges ≠ [] → d.alarm.isSome = true ∨ r.renewing d.now = true) := by
  constructor
  · intro h hb
    exact h (connectedRecord r d.now) (Durable.live_eq_some.mpr ⟨rfl, hl⟩) hr hb
  · intro h x hx _ hb
    obtain rfl := Option.some.inj (Durable.live_eq_some.mp hx).1
    exact h hb

/-- After a segment the tunnel is covered, unless it resumed a handler that
strands it. -/
theorem Effect.covered_iff {P : Platform} {s s' : Store} {c : Cause} {o : Outcome Task Result}
    (h : Effect P s c s' o) (hs : Covered s) (hd : Books s.durable)
    (hc : ∀ t a, c = .resumed t a → t.Fenced s.durable ∧ t.Sound) :
    Covered s' ↔ ∀ t a, c = .resumed t a → ¬ AttachStrands P s t a := by
  have call : ∀ {x : Call}, ∀ t a, Cause.call x = .resumed t a → ¬ AttachStrands P s t a :=
    by simp
  -- a handler that resumes otherwise than the attach message's
  have other : ∀ {t : Task} {a : Answer},
      (∀ w token routes r uuid session, t = .attachHash w token routes r → a ≠ .drawn uuid session) →
      ∀ t' a', Cause.resumed t a = .resumed t' a' → ¬ AttachStrands P s t' a' := fun hn t' a' he hst => by
    obtain ⟨rfl, rfl⟩ := Cause.resumed.inj he
    obtain ⟨w, token, routes, r, uuid, session, h1, h2, -⟩ := hst.cases
    exact hn w token routes r uuid session h1 h2
  -- the attach message's reply was sent
  have replied : ∀ {w : ℕ} {token : String} {routes : Option Json} {r : StoredTunnel} {a : Answer},
      replies P s.bridges w = true → ∀ t' a', Cause.resumed (.attachHash w token routes r) a =
        .resumed t' a' → ¬ AttachStrands P s t' a' := fun hs' t' a' he hst => by
    obtain ⟨rfl, rfl⟩ := Cause.resumed.inj he
    obtain ⟨w, token, routes, r, uuid, session, h1, -, -, hno, -⟩ := hst.cases
    obtain ⟨rfl, -⟩ := Task.attachHash.inj h1
    rw [hs'] at hno
    cases hno
  cases h with
  | quiet hq _ hw =>
    refine iff_of_true (hs.of_live rfl rfl rfl hq.attachedBridges) fun t a he hst => ?_
    obtain ⟨w, token, routes, r, uuid, session, rfl, rfl, ha, -⟩ := hst.cases
    have : attachAccepts P s.bridges w token routes r = false := (hw _ _ he).1
    rw [ha] at this
    cases this
  | opened _ hq _ _ _ =>
    exact iff_of_true (hs.of_live rfl rfl rfl hq.attachedBridges) (other fun _ _ _ _ _ _ h => by cases h)
  | created _ hcert _ _ _ _ =>
    refine iff_of_true (.of_unready fun r hr => ?_) call
    obtain rfl := Option.some.inj hr
    simp [StoredTunnel.ready, StoredTunnel.certificateState, hcert]
  | closed hl hq =>
    refine iff_of_true (hs.same rfl rfl (fun r' hr' => ⟨_, hl, ?_⟩) hq.attachedBridges) call
    obtain rfl := Option.some.inj (Durable.live_eq_some.mp hr').1
    exact ⟨rfl, rfl⟩
  | alarmed ha =>
    exact iff_of_true (fun r hl hr hb => ha r hl hr hb (csr_of_ready hd (hd.live hl) hr)) call
  | renewing _ _ _ _ _ => exact iff_of_true .of_renewing call
  | issued _ _ =>
    refine iff_of_true (.of_unready fun r hr => ?_) (other fun _ _ _ _ _ _ h => by cases h)
    obtain rfl := Option.some.inj hr
    rfl
  | issueFailed _ _ _ =>
    refine iff_of_true (.of_unready fun r hr => ?_) (other fun _ _ _ _ _ _ _ h => by cases h)
    obtain rfl := Option.some.inj hr
    rfl
  | requested he _ =>
    refine iff_of_true (hs.of_live rfl rfl rfl id) (other fun _ _ _ _ _ _ h => ?_)
    rw [h] at he
    cases he
  | taken _ hw =>
    rw [createWorkflow_frame hw]
    exact iff_of_true (hs.of_live rfl rfl rfl id) (other fun _ _ _ _ _ _ _ h => by cases h)
  | restarted hw =>
    rw [restartWorkflow_frame hw]
    exact iff_of_true (hs.of_live rfl rfl rfl id) (other fun _ _ _ _ _ _ _ h => by cases h)
  | removed _ =>
    refine iff_of_true (.of_record fun r hr _ => ?_) (other fun _ _ _ _ _ _ h => by cases h)
    obtain rfl := Option.some.inj hr
    exact Option.some_ne_none _
  | @attachThrown w token uuid session routes r ha hs' =>
    have hl : r.deletedAt = none := (hc _ _ rfl).2.not_deleted rfl (by simp)
    rw [Covered.connected_iff hl (attachAccepts_ready ha), attachedBridges_serialize]
    constructor
    · intro hcov t a he hst
      obtain ⟨rfl, rfl⟩ := Cause.resumed.inj he
      obtain ⟨-, -, halarm, hyoung, hx⟩ := hst
      rcases hcov hx with h | h
      · rw [halarm] at h; cases h
      · rw [hyoung] at h; cases h
    · intro hn hx
      by_contra hno
      rw [not_or, Bool.not_eq_true, Bool.not_eq_true, Option.isSome_eq_false_iff, Option.isNone_iff_eq_none] at hno
      exact hn _ _ rfl ⟨ha, hs', hno.1, hno.2, hx⟩
  | @attached w token uuid session routes r b a o ha hs' _ halarm =>
    have hl : r.deletedAt = none := (hc _ _ rfl).2.not_deleted rfl (by simp)
    have hcsr := csr_of_ready hd ((hc _ _ rfl).1.snapshot r rfl) (attachAccepts_ready ha)
    exact iff_of_true (.of_alarm (halarm hl hcsr)) (replied hs')
  | attachedRenewing _ hs' _ _ _ _ => exact iff_of_true .of_renewing (replied hs')
  | renewFailed => exact iff_of_true (.of_alarm rfl) (other fun _ _ _ _ _ _ h => by cases h)

/-! ### The environment, and runs -/

theorem Update.covered {d d' : Durable} {id : String} {st : CertificateState} {ok : Bool} {b : Bridges}
    (h : Update d id st d' ok) (hs : Covered ⟨d, b⟩) : Covered ⟨d', b⟩ := by
  cases h with
  | refused _ => exact hs
  | renewed _ _ _ _ => exact .of_alarm rfl
  | renewalFailed _ _ _ _ => exact .of_alarm rfl
  | renewalPending _ _ _ _ => exact hs
  | stored _ _ _ ha =>
    by_cases hr : st.isReady = true
    · exact .of_alarm (ha hr)
    · refine .of_unready fun r hr' => ?_
      obtain rfl := Option.some.inj hr'
      simpa [StoredTunnel.ready, StoredTunnel.certificateState] using hr

theorem Change.covered_iff {P : Platform} {s s' : Store} {e : Event} (h : Change P s e s') (hs : Covered s) :
    Covered s' ↔ ∀ n, e = .tick n → ¬ TickStrands s n := by
  cases h with
  | @tick n =>
    constructor
    · rintro hcov m he ⟨r, hl, hr, hb, halarm, hyoung⟩
      obtain rfl := Event.tick.inj he
      rcases hcov r hl hr hb with h | h
      · have h : s.durable.alarm.isSome = true := h
        rw [halarm] at h
        cases h
      · have h : r.renewing (s.durable.now + n) = true := h
        rw [hyoung] at h
        cases h
    · intro hn r hl hr hb
      by_contra hno
      rw [not_or, Bool.not_eq_true, Bool.not_eq_true, Option.isSome_eq_false_iff,
        Option.isNone_iff_eq_none] at hno
      exact hn n rfl ⟨r, hl, hr, hb, hno.1, hno.2⟩
  | sockets _ ht hq =>
    exact iff_of_true (hs.of_live rfl rfl rfl hq.attachedBridges) fun n he => absurd he (ht n)
  | workflow _ _ _ => exact iff_of_true (hs.of_live rfl rfl rfl id) fun _ he => by cases he
  | @posted id e i st is _ _ _ _ =>
    refine iff_of_true ?_ fun _ he => by cases he
    have hu := updateCertificate_cases
      { s.durable with deliveries := s.durable.deliveries ++ [(id, st)] } id st
    exact (hu.covered (hs.of_live rfl rfl rfl fun h => h)).of_live rfl rfl rfl fun h => h

/-- From a covered state a step keeps the tunnel covered exactly when it does
not strand it. -/
theorem step_covered_iff {P : Platform} {s s' : State} {l : Action} (h : Reachable P s)
    (hs : Covered s.store) (hstep : (tunnelObject P).step s l = some s') :
    Covered s'.store ↔ ¬ Strands P s l := by
  have hb := books_of_reachable h
  obtain ⟨c, x, o, rfl, h1, rfl⟩ | ⟨k, a, t, x, o, rfl, ht, h1, rfl⟩ | ⟨e, x, rfl, h1, rfl⟩ :=
    step_cases hstep
  · rw [settle_store, (start_effect h1).covered_iff hs hb.store fun _ _ h => by cases h]
    exact iff_of_true (by simp) fun h => h
  · rw [settle_store, (resume_effect h1).covered_iff hs hb.store fun t' a' he => by
      obtain ⟨rfl, rfl⟩ := Cause.resumed.inj he
      exact ⟨hb.tasks _ (task_mem ht), sound_of_reachable h _ (task_mem ht)⟩]
    exact resumed_iff ht
  · rw [(environment_change h1).covered_iff hs]
    constructor
    · intro hn hst
      cases e with
      | tick n => exact hn n rfl hst
      | _ => exact hst
    · rintro hn n rfl hst
      exact hn hst

/-- Along every run the tunnel stays covered exactly as long as no step strands
it. -/
theorem coverage_iff {P : Platform} {now : Millis} {t : State} {es : List (Lts.Event State Action)}
    (h : Run P (initial now) es t) :
    (∀ e ∈ es, Covered e.after.store) ↔ ∀ e ∈ es, ¬ Strands P e.before e.label := by
  refine h.safe_iff (J := fun s => Reachable P s ∧ Covered s.store) (A := fun _ _ => True)
    (fun e hs _ hstep hq => ⟨hs.1.step hstep, hq⟩) (fun e hs _ hstep => step_covered_iff hs.1 hs.2 hstep)
    (fun _ _ => trivial) ⟨.of_init ⟨now, rfl⟩, ?_⟩
  exact .of_unready fun r hr => by cases hr

/-- The alarm starts a renewal, and the new certificate is delivered before it is
stale. -/
def renewedRun : List Action :=
  servingRun ++ [.environment (.tick (10 * 24 * 60 * 60 * 1000)), .call (.alarm "2"), .resume 4 .accepted, .resume 4 .ok] ++
    delivering "2" "csr" (60 * DAY_MS) ++ [.environment (.tick (24 * 60 * 60 * 1000))]

set_option maxRecDepth 8000 in
theorem renewedRun_state : ∃ t, after plainPlatform renewedRun = some t ∧
    t.store.durable.live.any (·.ready) = true ∧ t.store.bridges.attachedBridges.length = 1 ∧
    ((tunnelObject plainPlatform).trace (initial 0) renewedRun).all
      (fun e => decide (¬ Strands plainPlatform e.before e.label)) = true :=
  ⟨_, rfl, rfl, rfl, by decide⟩

theorem coverage_renewed : ∃ es t, Run plainPlatform (initial 0) es t ∧ es.map (·.label) = renewedRun ∧
    t.store.durable.live.any (·.ready) = true ∧ t.store.bridges.attachedBridges.length = 1 ∧
    ∀ e ∈ es, Covered e.after.store := by
  obtain ⟨t, ht, hready, hattached, hno⟩ := renewedRun_state
  have hrun : Run plainPlatform (initial 0) _ t := .of_exec ht
  refine ⟨_, t, hrun, Lts.map_label_trace ht, hready, hattached, (coverage_iff hrun).mpr fun e he => ?_⟩
  exact of_decide_eq_true (List.all_eq_true.mp hno e he)

/-- The alarm starts a renewal, the service takes its workflow, and a day
passes. -/
def lostRun : List Action :=
  servingRun ++ [.environment (.tick (10 * 24 * 60 * 60 * 1000)), .call (.alarm "2"), .resume 4 .accepted,
    .environment (.tick (24 * 60 * 60 * 1000))]

set_option maxRecDepth 4000 in
theorem stranded_lost : ¬ ∀ s, Reachable plainPlatform s → Covered s.store := by
  intro h
  obtain ⟨s, r, hs, hl, hr, hb, ha, hy⟩ : ∃ s r, after plainPlatform lostRun = some s ∧
      s.store.durable.live = some r ∧ r.ready = true ∧ s.store.bridges.attachedBridges.length = 1 ∧
      s.store.durable.alarm = none ∧ r.renewing s.store.durable.now = false :=
    ⟨_, _, rfl, rfl, rfl, rfl, rfl, by decide⟩
  have hne : s.store.bridges.attachedBridges ≠ [] := fun h => by rw [h] at hb; cases hb
  rcases h s (reachable_of_after hs) r hl hr hne with h | h
  · rw [ha] at h; cases h
  · rw [hy] at h; cases h

end ShuvTunnel
