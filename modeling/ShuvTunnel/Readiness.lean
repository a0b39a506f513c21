/-
# When a ready certificate stops being ready

As long as nobody removes the tunnel or binds another CSR, every handler that
is called writes a record whose certificate is ready: an attach message is
accepted and a renewal started only on such a record, and the stored CSR is
not issued again. What is left are the workflows, and a `bindCertificate` from
before. `updateCertificate` takes any state for the record's own certificate
id, also after it has stored `ready`: a workflow whose body runs once more
posts `challenge` over the certificate it delivered.

Key definitions: `Ready`, `Allowed`, `Regresses`.
Key theorems: `Effect.ready_iff`, `Change.ready_iff`, `readiness_iff`.
-/
import ShuvTunnel.Fencing
import ShuvTunnel.Snapshots

namespace ShuvTunnel

open Coop

/-! ### The property, the events and the steps that lose it -/

/-- The stored certificate is ready. -/
def Ready (s : Store) : Prop := ∃ r, s.durable.record = some r ∧ r.ready = true

/-- The call is not `remove`, binds the stored CSR only, and does not make a
deleted tunnel anew. -/
def Allowed (s : State) : Action → Prop
  | .call (.remove _) => False
  | .call (.initialized _ _ _) => s.store.durable.live ≠ none
  | .call (.bindCertificate _ csr) => ∀ r, s.store.durable.record = some r → r.certificateCsr = some csr
  | _ => True

/-- A `bindCertificate` stores a certificate, or its failure. -/
def Binds (P : Platform) (s : Store) (t : Task) (a : Answer) : Prop :=
  t.binds = true ∧ writesBack P s t a = true

/-- A workflow posts a state other than `ready` for the record's own
certificate, or a `bindCertificate` that was called before call `n` stores a
certificate or its failure. -/
def Regresses (P : Platform) (n : ℕ) (s : State) : Action → Prop
  | .environment (.workflow id e) => ∃ i state r, s.store.durable.workflow id = some i ∧
      i.posts e = some state ∧ state.isReady = false ∧ s.store.durable.live = some r ∧
      r.renewalOf id = none ∧ r.certificateID = some id
  | .resume k a => k < n ∧ ∃ t, s.task k = some t ∧ Binds P s.store t a
  | _ => False

/-- A suspended `bindCertificate` that will store nothing: the record it read
has a certificate for the CSR it binds. -/
structure Task.Harmless (t : Task) : Prop where
  bindHash : ∀ token csr r, t = .bindHash token csr r → resubmits csr r = true
  bindVerify : ∀ csr req r, t = .bindVerify csr req r → resubmits csr r = true
  ensure : ∀ e, t.ensure = some e → e.issue = false

/-! ### The handlers -/

/-- A handler that does not bind. -/
theorem Task.Harmless.of_ne {t : Task} (h1 : ∀ token csr r, t ≠ .bindHash token csr r)
    (h2 : ∀ csr req r, t ≠ .bindVerify csr req r) (h3 : t.ensure = none) : t.Harmless := by
  refine ⟨fun _ _ _ h => absurd h (h1 _ _ _), fun _ _ _ h => absurd h (h2 _ _ _), fun e he => ?_⟩
  rw [h3] at he
  cases he

/-- `ensureCertificateWorkflow` on behalf of a call that stored nothing. -/
theorem Task.Harmless.of_ensure {t : Task} {e : Ensure} (ht : t.ensure = some e) (he : e.issue = false) :
    t.Harmless := by
  refine ⟨?_, ?_, fun e' he' => ?_⟩
  · rintro token csr r rfl; cases ht
  · rintro csr req r rfl; cases ht
  · obtain rfl := Option.some.inj (ht.symm.trans he')
    exact he

theorem Task.Harmless.not_binds {P : Platform} {s : Store} {t : Task} {a : Answer} (h : t.Harmless) :
    ¬ Binds P s t a := by
  rintro ⟨hb, hw⟩
  have issue : ∀ e, t.ensure ≠ some e := by
    intro e he
    have h1 := issue_of_writesBack he hw
    rw [h.ensure e he] at h1
    cases h1
  cases t with
  | bindVerify csr req r =>
    cases a with
    | drawn uuid session =>
      have hw : bindStores csr req r = true := hw
      simp [bindStores, h.bindVerify csr req r rfl] at hw
    | _ => cases hw
  | ensureGet e | ensureStatus e | ensureCreate e accepted | ensureRestart e accepted =>
    exact issue e rfl
  | _ => cases hb

theorem Follows.harmless {P : Platform} {s : State} {c : Cause} {u : Task}
    (h : Follows P s.store.durable c u) (hready : Ready s.store)
    (hcall : ∀ x, c = .call x → Allowed s (.call x)) (hc : ∀ t a, c = .resumed t a → t.Harmless) :
    u.Harmless := by
  cases h with
  | info _ => exact .of_ne (by simp) (by simp) rfl
  | certificate _ => exact .of_ne (by simp) (by simp) rfl
  | remove _ => exact .of_ne (by simp) (by simp) rfl
  | @bind token csr r hl =>
    obtain ⟨hr, -⟩ := Durable.live_eq_some.mp hl
    have hcsr : r.certificateCsr = some csr := hcall _ rfl r hr
    obtain ⟨r', hr', hr''⟩ := hready
    obtain rfl := Option.some.inj (hr.symm.trans hr')
    obtain ⟨x, hx, -⟩ := StoredTunnel.ready_iff.mp hr''
    have hre : resubmits csr r = true := by simp [resubmits, hx, hcsr]
    refine ⟨?_, by simp, fun _ h => by cases h⟩
    rintro _ _ _ h
    obtain ⟨-, rfl, rfl⟩ := Task.bindHash.inj h
    exact hre
  | attach => exact .of_ne (by simp) (by simp) rfl
  | connect => exact .of_ne (by simp) (by simp) rfl
  | attachRead _ => exact .of_ne (by simp) (by simp) rfl
  | bindHash _ _ =>
    have hre := (hc _ _ rfl).bindHash _ _ _ rfl
    refine ⟨by simp, ?_, fun _ h => by cases h⟩
    rintro _ _ _ h
    obtain ⟨rfl, -, rfl⟩ := Task.bindVerify.inj h
    exact hre
  | resubmit _ _ => exact .of_ensure rfl rfl
  | ensureStatus => exact .of_ensure rfl ((hc _ _ rfl).ensure _ rfl)
  | ensureRestart => exact .of_ensure rfl ((hc _ _ rfl).ensure _ rfl)
  | upload => exact .of_ne (by simp) (by simp) rfl
  | settling => exact .of_ne (by simp) (by simp) rfl

theorem Task.Harmless.taken {t : Task} (h : t.Harmless) : t.taken.Harmless := by
  cases t with
  | ensureCreate e accepted => exact .of_ensure rfl (h.ensure e rfl)
  | ensureRestart e accepted => exact .of_ensure rfl (h.ensure e rfl)
  | renewCreate r params accepted =>
    exact .of_ne (fun _ _ _ h => nomatch h) (fun _ _ _ h => nomatch h) rfl
  | _ => exact h

/-- The handlers of the allowed calls stay harmless. -/
theorem Effect.harmless {P : Platform} {s : State} {s' : Store} {c : Cause} {o : Outcome Task Result}
    (h : Effect P s.store c s' o) (hready : Ready s.store)
    (hcall : ∀ x, c = .call x → Allowed s (.call x))
    (hc : ∀ t a, c = .resumed t a → t.Harmless) : ∀ u, o = .await u → u.Harmless := by
  intro u hu
  cases h with
  | quiet _ ho _ => exact (ho u hu).harmless hready hcall hc
  | opened _ _ _ _ ho =>
    obtain ⟨k, rfl⟩ := ho u hu
    exact .of_ne (by simp) (by simp) rfl
  | renewing _ _ _ _ _ => cases hu; exact .of_ne (by simp) (by simp) rfl
  | issued hb _ =>
    have hre := (hc _ _ rfl).bindVerify _ _ _ rfl
    simp [bindStores, hre] at hb
  | requested he _ => cases hu; exact .of_ensure rfl ((hc _ _ rfl).ensure _ he)
  | taken _ _ => cases hu; exact (hc _ _ rfl).taken
  | restarted _ => cases hu; exact .of_ensure rfl ((hc _ _ rfl).ensure _ rfl)
  | attachedRenewing _ _ _ _ _ _ => cases hu; exact .of_ne (by simp) (by simp) rfl
  | _ => cases hu

/-- `remove` is not called, so no handler of it is left. -/
theorem Effect.not_removing {P : Platform} {s : State} {s' : Store} {c : Cause} {o : Outcome Task Result}
    (h : Effect P s.store c s' o) (hcall : ∀ x, c = .call x → Allowed s (.call x)) :
    ∀ u, o = .await u → u.removing = false := by
  intro u hu
  cases h with
  | quiet _ ho _ =>
    cases ho u hu with
    | remove _ => exact (hcall _ rfl).elim
    | _ => rfl
  | opened _ _ _ _ ho =>
    obtain ⟨k, rfl⟩ := ho u hu
    rfl
  | @taken t params d hcr _ =>
    cases hu
    cases t with
    | removeHash token r => cases hcr
    | _ => rfl
  | renewing _ _ _ _ _ => cases hu; rfl
  | issued _ _ => cases hu; rfl
  | requested _ _ => cases hu; rfl
  | restarted _ => cases hu; rfl
  | attachedRenewing _ _ _ _ _ _ => cases hu; rfl
  | _ => cases hu

theorem Ready.of_record {s s' : Store} (h : Ready s) (hr : s'.durable.record = s.durable.record) : Ready s' := by
  obtain ⟨r, h1, h2⟩ := h
  exact ⟨r, hr.trans h1, h2⟩

theorem not_ready {d : Durable} {r : StoredTunnel} {b : Bridges} (hr : d.record = some r) (h : r.ready = false) :
    ¬ Ready ⟨d, b⟩ := by
  rintro ⟨r', hr', h'⟩
  obtain rfl := Option.some.inj (hr.symm.trans hr')
  rw [h] at h'
  cases h'

/-- A segment of an allowed call keeps the certificate ready, unless it is the
segment in which a `bindCertificate` stores one. -/
theorem Effect.ready_iff {P : Platform} {s : State} {s' : Store} {c : Cause} {o : Outcome Task Result}
    (h : Effect P s.store c s' o) (hready : Ready s.store)
    (hcall : ∀ x, c = .call x → Allowed s (.call x))
    (hc : ∀ t a, c = .resumed t a → t.removing = false ∧ t.Sound) :
    Ready s' ↔ ∀ t a, c = .resumed t a → ¬ Binds P s.store t a := by
  have call : ∀ {x : Call}, ∀ t a, Cause.call x = .resumed t a → ¬ Binds P s.store t a :=
    by simp
  have quiet : ∀ {t : Task} {a : Answer}, t.binds = false ∨ writesBack P s.store t a = false →
      ∀ t' a', Cause.resumed t a = .resumed t' a' → ¬ Binds P s.store t' a' := by
    intro t a h t' a' he
    obtain ⟨rfl, rfl⟩ := Cause.resumed.inj he
    rintro ⟨h1, h2⟩
    rcases h with h | h
    · rw [h] at h1; cases h1
    · rw [h] at h2; cases h2
  cases h with
  | quiet _ _ hw => exact iff_of_true hready fun t a he => quiet (.inr (hw t a he).1) t a rfl
  | opened _ _ _ _ _ => exact iff_of_true hready (quiet (.inl rfl))
  | created hl _ _ _ _ _ => exact absurd hl (hcall _ rfl)
  | closed hl _ =>
    obtain ⟨r, h1, h2⟩ := hready
    obtain rfl := Option.some.inj (h1.symm.trans (Durable.live_eq_some.mp hl).1)
    exact iff_of_true ⟨_, rfl, h2⟩ call
  | alarmed _ => exact iff_of_true (hready.of_record rfl) call
  | renewing _ hr _ _ _ => exact iff_of_true ⟨_, rfl, hr⟩ call
  | issued hb _ => exact iff_of_false (not_ready rfl rfl) fun h => h _ _ rfl ⟨rfl, hb⟩
  | issueFailed he _ hw =>
    exact iff_of_false (not_ready rfl rfl) fun h => h _ _ rfl ⟨binds_of_ensure he, hw⟩
  | requested _ hw => exact iff_of_true (hready.of_record rfl) (quiet (.inr hw))
  | taken _ hw =>
    rw [createWorkflow_frame hw]
    exact iff_of_true (hready.of_record rfl) (quiet (.inr (writesBack_accepted _ _ _)))
  | restarted hw =>
    rw [restartWorkflow_frame hw]
    exact iff_of_true (hready.of_record rfl) (quiet (.inr rfl))
  | removed _ => cases (hc _ _ rfl).1
  | attachThrown ha _ => exact iff_of_true ⟨_, rfl, attachAccepts_ready ha⟩ (quiet (.inl rfl))
  | attached ha _ _ _ => exact iff_of_true ⟨_, rfl, attachAccepts_ready ha⟩ (quiet (.inl rfl))
  | attachedRenewing ha _ _ _ _ _ => exact iff_of_true ⟨_, rfl, attachAccepts_ready ha⟩ (quiet (.inl rfl))
  | @renewFailed r params accepted message =>
    have hr := (hc _ _ rfl).2.ready r params accepted rfl
    exact iff_of_true ⟨{ r with renewal := Option.none }, rfl, hr⟩ (quiet (.inl rfl))

/-! ### The workflows -/

/-- `updateCertificate` leaves the certificate ready, unless it stores another
state of it. -/
theorem Update.ready_iff {d d' : Durable} {id : String} {st : CertificateState} {ok : Bool} {r : StoredTunnel}
    (h : Update d id st d' ok) (hd : Books d) (hid : id ∈ d.minted.map (·.1)) (hr : d.record = some r)
    (hready : r.ready = true) :
    (∃ r', d'.record = some r' ∧ r'.ready = true) ↔
      ¬ (st.isReady = false ∧ ∃ r, d.live = some r ∧ r.renewalOf id = none ∧ r.certificateID = some id) := by
  have renewal : ∀ {x : Renewal}, d.live = some r → r.renewal = some x → x.certificateID = id →
      ¬ ∃ r, d.live = some r ∧ r.renewalOf id = none ∧ r.certificateID = some id := by
    rintro x hl hx hxid ⟨r', hl', hno, -⟩
    obtain rfl := Option.some.inj (hl.symm.trans hl')
    rw [StoredTunnel.renewalOf_eq_some.mpr ⟨hx, hxid⟩] at hno
    cases hno
  have only : ∀ {r' : StoredTunnel}, d.live = some r' → r' = r := fun hl =>
    Option.some.inj ((Durable.live_eq_some.mp hl).1.symm.trans hr)
  cases h with
  | refused hno =>
    refine iff_of_true ⟨r, hr, hready⟩ ?_
    rintro ⟨-, r', hl, -, hc⟩
    exact (hno r' hl).2 (by rw [hc]; rfl)
  | renewed _ _ _ hst =>
    refine iff_of_true ⟨_, rfl, StoredTunnel.ready_iff.mpr ⟨_, rfl, hst⟩⟩ ?_
    rintro ⟨h, -⟩
    rw [hst] at h
    cases h
  | renewalFailed hl hx hxid _ =>
    obtain rfl := only hl
    exact iff_of_true ⟨_, rfl, hready⟩ fun h => renewal hl hx hxid h.2
  | renewalPending hl hx hxid _ =>
    obtain rfl := only hl
    exact iff_of_true ⟨_, hr, hready⟩ fun h => renewal hl hx hxid h.2
  | @stored r' a hl hno hc _ =>
    obtain rfl := only hl
    have hcid := hd.certificateID_eq hid hc
    by_cases hst : st.isReady = true
    · refine iff_of_true ⟨_, rfl, StoredTunnel.ready_iff.mpr ⟨_, rfl, hst⟩⟩ ?_
      rintro ⟨h, -⟩
      rw [hst] at h
      cases h
    · refine iff_of_false ?_ fun h => h ⟨by simpa using hst, r', hl, hno, hcid⟩
      rintro ⟨x, hx, hxr⟩
      obtain rfl := Option.some.inj hx
      obtain ⟨y, hy, hyr⟩ := StoredTunnel.ready_iff.mp hxr
      obtain rfl := Option.some.inj hy
      exact hst hyr

theorem Change.ready_iff {P : Platform} {n : ℕ} {s : State} {s' : Store} {e : Event} (h : Change P s.store e s')
    (hready : Ready s.store) (hd : Books s.store.durable) :
    Ready s' ↔ ¬ Regresses P n s (.environment e) := by
  cases h with
  | tick => exact iff_of_true (hready.of_record rfl) fun h => h
  | sockets hw _ _ =>
    refine iff_of_true hready fun h => ?_
    cases e with
    | workflow id w => exact hw id w rfl
    | _ => exact h
  | workflow hw hp _ =>
    refine iff_of_true (hready.of_record rfl) ?_
    rintro ⟨i', st, r, hw', hp', -⟩
    obtain rfl := Option.some.inj (hw.symm.trans hw')
    rw [hp] at hp'
    cases hp'
  | @posted id e i st is hw hp _ _ =>
    obtain ⟨r, hr, hready⟩ := hready
    have hu := updateCertificate_cases
      { s.store.durable with deliveries := s.store.durable.deliveries ++ [(id, st)] } id st
    have hiff := hu.ready_iff (hd.delivered hw st).1 (hd.workflow_drawn hw) hr hready
    refine hiff.trans (not_congr ⟨?_, ?_⟩)
    · rintro ⟨hst, r', hl, hno, hid⟩
      exact ⟨i, st, r', hw, hp, hst, hl, hno, hid⟩
    · rintro ⟨i', st', r', hw', hp', hst, hl, hno, hid⟩
      obtain rfl := Option.some.inj (hw.symm.trans hw')
      obtain rfl := Option.some.inj (hp.symm.trans hp')
      exact ⟨hst, r', hl, hno, hid⟩

/-! ### Runs -/

/-- The certificate is ready, no handler of `remove` is suspended, and those
called from call `n` on are harmless. -/
structure Untouched (n : ℕ) (s : State) : Prop where
  next : n ≤ s.next
  holds : Holds Ready (fun _ k t => t.removing = false ∧ (n ≤ k → t.Harmless)) s

/-- An allowed step keeps the certificate ready exactly when it does not
regress it. -/
theorem step_ready_iff {P : Platform} {n : ℕ} {s s' : State} {l : Action} (h : Reachable P s)
    (hs : Untouched n s) (hA : Allowed s l) (hstep : (tunnelObject P).step s l = some s') :
    Ready s'.store ↔ ¬ Regresses P n s l := by
  obtain ⟨c, x, o, rfl, h1, rfl⟩ | ⟨k, a, t, x, o, rfl, ht, h1, rfl⟩ | ⟨e, x, rfl, h1, rfl⟩ :=
    step_cases hstep
  · have hcall : ∀ x, Cause.call c = .call x → Allowed s (.call x) := fun x hx => Cause.call.inj hx ▸ hA
    rw [settle_store, (start_effect h1).ready_iff hs.holds.store hcall fun _ _ h => nomatch h]
    exact iff_of_true (by simp) fun h => h
  · have hmem := task_mem ht
    rw [settle_store, (resume_effect h1).ready_iff hs.holds.store (by simp) fun t' a' he => by
      obtain ⟨rfl, rfl⟩ := Cause.resumed.inj he
      exact ⟨(hs.holds.tasks _ hmem).1, sound_of_reachable h _ hmem⟩, resumed_iff ht]
    -- a handler called since is harmless, so it stores nothing
    refine not_congr ⟨fun hb => ⟨?_, hb⟩, fun hb => hb.2⟩
    obtain ⟨t', ht', hb⟩ := hb
    obtain rfl := Option.some.inj (ht.symm.trans ht')
    by_contra hk
    exact ((hs.holds.tasks _ hmem).2 (Nat.not_lt.mp hk)).not_binds hb
  · exact (environment_change h1).ready_iff hs.holds.store (books_of_reachable h).store

theorem untouched_step {P : Platform} {n : ℕ} {s s' : State} {l : Action} (hs : Untouched n s)
    (hA : Allowed s l) (hstep : (tunnelObject P).step s l = some s') (hready : Ready s'.store) :
    Untouched n s' := by
  refine ⟨hs.next.trans (next_le hstep), hs.holds.advance hstep ?_ ?_ ?_⟩
  · rintro c o rfl h1
    have he := start_effect h1
    have hcall : ∀ x, Cause.call c = .call x → Allowed s (.call x) := fun x hx => Cause.call.inj hx ▸ hA
    refine ⟨hready, fun _ _ ht => ht, fun u hu => ⟨he.not_removing hcall u hu, fun _ => ?_⟩⟩
    exact he.harmless hs.holds.store hcall (by simp) u hu
  · rintro k a t o rfl ht h1
    have he := resume_effect h1
    refine ⟨hready, fun _ _ ht => ht, fun u hu => ⟨he.not_removing (by simp) u hu, fun hk => ?_⟩⟩
    refine he.harmless hs.holds.store (by simp) (fun t' a' h => ?_) u hu
    obtain ⟨rfl, rfl⟩ := Cause.resumed.inj h
    exact (hs.holds.tasks _ (task_mem ht)).2 hk
  · rintro e rfl h1
    exact ⟨hready, fun _ _ ht => ht⟩

/-- Along a run of the allowed calls the certificate stays ready exactly when
no workflow posts another state for it, and no `bindCertificate` from before
the run stores one. -/
theorem readiness_iff {P : Platform} {s t : State} {es : List (Lts.Event State Action)} (h : Reachable P s)
    (hready : Ready s.store) (htasks : ∀ p ∈ s.tasks, p.2.removing = false) (hr : Run P s es t)
    (hA : ∀ e ∈ es, Allowed e.before e.label) :
    (∀ e ∈ es, Ready e.after.store) ↔ ∀ e ∈ es, ¬ Regresses P s.next e.before e.label := by
  have h0 : Untouched s.next s := by
    refine ⟨le_refl _, hready, fun p hp => ⟨htasks p hp, fun hn => ?_⟩⟩
    exact absurd ((called h).tasks p hp) (Nat.not_lt.mpr hn)
  exact hr.safe_iff (J := fun x => Reachable P x ∧ Untouched s.next x) (A := Allowed)
    (fun _ hs hA hstep hG => ⟨hs.1.step hstep, untouched_step hs.2 hA hstep hG⟩)
    (fun _ hs hA hstep => step_ready_iff hs.1 hs.2 hA hstep) hA ⟨h, h0⟩

/-! ### A workflow that runs its body again -/

/-- Socket 0 attaches, by call 3. -/
def attaching : List Action := [fetching, attachMessage 0, .resume 3 .ok, .resume 3 (.drawn "" "1")]

/-- The workflow's attempt is run again after it has delivered. -/
def runAgain : List Action := [.environment (.workflow "cert_1" (.throw "timeout")), challenging "1"]

set_option maxRecDepth 4000 in
theorem provisioned_state : ∃ s t u r r', after plainPlatform (provisioned "csr") = some s ∧
    s.store.durable.record = some r ∧ r.ready = true ∧ s.tasks = [] ∧ s.next = 2 ∧
    (tunnelObject plainPlatform).exec s attaching = some t ∧
    (tunnelObject plainPlatform).exec s runAgain = some u ∧
    u.store.durable.record = some r' ∧ r'.ready = false := by
  refine ⟨_, _, _, _, _, rfl, rfl, ?_, ?_, ?_, rfl, rfl, rfl, ?_⟩
  · rfl
  · rfl
  · rfl
  · rfl

theorem attaching_allowed : ∀ l ∈ attaching, (∀ s, Allowed s l) ∧ ∀ s, ¬ Regresses plainPlatform 2 s l := by
  simp [attaching, fetching, attachMessage, Allowed, Regresses]

theorem runAgain_allowed : ∀ l ∈ runAgain, ∀ s, Allowed s l := by
  simp [runAgain, challenging, Allowed]

/-- An attach message leaves the certificate ready. -/
theorem readiness_attaching : ∃ s t es, Reachable plainPlatform s ∧ Ready s.store ∧ Run plainPlatform s es t ∧
    es.map (·.label) = attaching ∧ ∀ e ∈ es, Ready e.after.store := by
  obtain ⟨s, t, -, r, -, hs, hr, hready, htasks, hnext, ht, -⟩ := provisioned_state
  obtain ⟨es, hrun, hl⟩ := Lts.Run.exists_of_exec ht
  have hmem : ∀ e ∈ es, e.label ∈ attaching := fun e he => hl ▸ List.mem_map_of_mem he
  have hremoving : ∀ p ∈ s.tasks, p.2.removing = false := by
    rw [htasks]
    exact by simp
  refine ⟨s, t, es, reachable_of_after hs, ⟨r, hr, hready⟩, hrun, hl, ?_⟩
  have hiff := readiness_iff (reachable_of_after hs) ⟨r, hr, hready⟩ hremoving hrun fun e he =>
    (attaching_allowed _ (hmem e he)).1 _
  rw [hnext] at hiff
  exact hiff.mpr fun e he => (attaching_allowed _ (hmem e he)).2 _

theorem challenge_regresses : ¬ ∀ (s t : State) (es : List (Lts.Event State Action)), Reachable plainPlatform s →
    Ready s.store → (∀ p ∈ s.tasks, p.2.removing = false) → Run plainPlatform s es t →
    (∀ e ∈ es, Allowed e.before e.label) → ∀ e ∈ es, Ready e.after.store := by
  intro h
  obtain ⟨s, -, u, r, r', hs, hr, hready, htasks, -, -, hu, hr', hnot⟩ := provisioned_state
  obtain ⟨es, hrun, hl⟩ := Lts.Run.exists_of_exec hu
  have hmem : ∀ e ∈ es, e.label ∈ runAgain := fun e he => hl ▸ List.mem_map_of_mem he
  have hremoving : ∀ p ∈ s.tasks, p.2.removing = false := by
    rw [htasks]
    exact by simp
  have hall := h s u es (reachable_of_after hs) ⟨r, hr, hready⟩ hremoving hrun fun e he =>
    runAgain_allowed _ (hmem e he) _
  obtain ⟨r'', hr'', hready''⟩ := hrun.last (I := fun s => Ready s.store) ⟨r, hr, hready⟩ hall
  obtain rfl := Option.some.inj (hr'.symm.trans hr'')
  rw [hnot] at hready''
  cases hready''

end ShuvTunnel
