/-
# One issuance at a time

`bindCertificate` refuses a second CSR while the certificate is in progress,
but it looks at the record it read before two waits. A certificate in progress
is lost to another bind exactly where a handler writes over it a record with
another certificate (`overwrites`). Along a run without such a step every
certificate that was accepted has settled, or is still the one that is stored
(`Kept`); so it has settled before the next is accepted.

Key definitions: `overwrites`, `Kept`, `OneAtATime`.
Key theorems: `kept_step`, `oneIssuance`.
-/
import ShuvTunnel.Fencing
import ShuvTunnel.Writes

namespace ShuvTunnel

open Coop

/-! ### The property, and the steps that lose it -/

/-- The certificate `id` is stored, ready or failed. -/
def Settles (s : Store) (id : String) : Prop := ∃ c, held s = some c ∧ c.id = id ∧ c.state.settled = true

/-- It was, after one of these events. -/
def Past (es : List (Lts.Event State Action)) (id : String) : Prop := ∃ e ∈ es, Settles e.after.store id

/-- Call `k`, a `bindCertificate`, has checked the CSR, and decides on the
record it read. -/
def Verifies (e : Lts.Event State Action) (k : ℕ) (csr : String) (req : CertificateRequest)
    (r : StoredTunnel) : Prop :=
  (∃ uuid session, e.label = .resume k (.drawn uuid session)) ∧
    e.before.task k = some (.bindVerify csr req r) ∧ validRequest req r = true

/-- It accepts, and stores the certificate `id`. -/
def Accepts (e : Lts.Event State Action) (k : ℕ) (id : String) : Prop :=
  ∃ csr req r, Verifies e k csr req r ∧ bindStores csr req r = true ∧
    held e.after.store = some ⟨id, .issuing⟩

/-- When a `bindCertificate` decides about a CSR the record it read is not
bound to, each certificate accepted before has settled, or it answers that an
issuance is in progress and changes nothing. -/
def OneAtATime (es : List (Lts.Event State Action)) : Prop :=
  ∀ past e post e₁ k₁ id k csr req r, es = past ++ e :: post → e₁ ∈ past → Accepts e₁ k₁ id →
    Verifies e k csr req r → r.certificateCsr ≠ some csr →
    Past past id ∨ (e.after.store = e.before.store ∧
      e.after.returned = e.before.returned ++ [(k, .bindCertificate .inProgress)])

/-- The id of the certificate in the record the handler would write back; a
`bindCertificate` that accepts draws a new one. -/
def Task.certificateID : Task → Option String
  | .ensureGet e | .ensureStatus e | .ensureCreate e _ | .ensureRestart e _ => some e.certificate.id
  | .bindVerify .. => none
  | t => (t.snapshot.bind (·.certificate)).map (·.id)

/-- The stored certificate is in progress, and a suspended handler resumes
that writes a record with another; or the tunnel was deleted and is made
anew. -/
def overwrites (P : Platform) (s : State) : Action → Bool
  | .resume k a => (s.task k).any fun t => writesBack P s.store t a &&
      s.store.durable.record.any fun r => r.inProgress && t.certificateID ≠ r.certificate.map (·.id)
  | .call (.initialized _ _ _) => s.store.durable.live.isNone && s.store.durable.record.any (·.inProgress)
  | _ => false

/-! ### What the past has settled -/

/-- What the record `r` says is settled was so before. -/
structure Clean (es : List (Lts.Event State Action)) (r : StoredTunnel) : Prop where
  settled : ∀ c, r.certificate = some c → c.state.settled = true → Past es c.id
  renewal : r.renewal ≠ none → ∃ c, r.certificate = some c ∧ Past es c.id

/-- The accepted certificates have settled, or are stored. -/
structure Kept (es : List (Lts.Event State Action)) (s : Store) : Prop where
  accepted : ∀ e ∈ es, ∀ k id, Accepts e k id → Past es id ∨ ∃ c, held s = some c ∧ c.id = id
  record : ∀ r, s.durable.record = some r → Clean es r

theorem Past.append {es fs : List (Lts.Event State Action)} {id : String} (h : Past es id) : Past (es ++ fs) id := by
  obtain ⟨e, he, hs⟩ := h
  exact ⟨e, List.mem_append_left _ he, hs⟩

theorem Clean.append {es fs : List (Lts.Event State Action)} {r : StoredTunnel} (h : Clean es r) :
    Clean (es ++ fs) r := by
  refine ⟨fun c hc hs => (h.settled c hc hs).append, fun hx => ?_⟩
  obtain ⟨c, hc, hp⟩ := h.renewal hx
  exact ⟨c, hc, hp.append⟩

theorem Clean.of_eq {es : List (Lts.Event State Action)} {r r' : StoredTunnel} (h : Clean es r)
    (h1 : r'.certificate = r.certificate) (h2 : r'.renewal = r.renewal) : Clean es r' :=
  ⟨fun c hc => h.settled c (h1 ▸ hc), fun hx => by rw [h1]; exact h.renewal (h2 ▸ hx)⟩

theorem Clean.ready {es : List (Lts.Event State Action)} {r : StoredTunnel} (h : Clean es r)
    (hr : r.ready = true) : ∃ c, r.certificate = some c ∧ Past es c.id := by
  obtain ⟨c, hc, hst⟩ := StoredTunnel.ready_iff.mp hr
  exact ⟨c, hc, h.settled c hc (by rw [CertificateState.settled, hst]; rfl)⟩

/-- A certificate that is stored and not in progress has settled. -/
theorem Kept.past_of_settled {es : List (Lts.Event State Action)} {s : Store} (h : Kept es s)
    {c : CertificateInfo} (hc : held s = some c) (hs : c.state.settled = true) : Past es c.id := by
  obtain ⟨r, hr, hc⟩ := Option.bind_eq_some_iff.mp hc
  exact (h.record r hr).settled c hc hs

/-- One more event: the stored certificate has settled or stays, and a record
with a renewal has one that has. -/
theorem Kept.event {es : List (Lts.Event State Action)} {s : Store} {e : Lts.Event State Action} (h : Kept es s)
    (hheld : ∀ c, held s = some c → Past es c.id ∨ ∃ c', held e.after.store = some c' ∧ c'.id = c.id)
    (hrenewal : ∀ r, e.after.store.durable.record = some r → r.renewal ≠ none →
      ∃ c, r.certificate = some c ∧ Past (es ++ [e]) c.id) : Kept (es ++ [e]) e.after.store := by
  refine ⟨fun e' he' k id hacc => ?_, fun r hr => ⟨fun c hc hs => ?_, hrenewal r hr⟩⟩
  · rcases List.mem_append.mp he' with he' | he'
    · rcases h.accepted e' he' k id hacc with hp | ⟨c, hc, rfl⟩
      · exact .inl hp.append
      · rcases hheld c hc with hp | hc'
        · exact .inl hp.append
        · exact .inr hc'
    · obtain rfl := List.mem_singleton.mp he'
      obtain ⟨_, _, _, -, -, hc⟩ := hacc
      exact .inr ⟨_, hc, rfl⟩
  · exact ⟨e, List.mem_append_right _ (List.mem_singleton.mpr rfl), c, (held_of_record hr).trans hc, rfl, hs⟩

/-! ### One segment -/

theorem Task.certificateID_of_snapshot {t : Task} {r : StoredTunnel} (hb : t.binds = false)
    (h : t.snapshot = some r) : t.certificateID = r.certificate.map (·.id) := by
  have hmap : (t.snapshot.bind (·.certificate)).map (·.id) = r.certificate.map (·.id) := by
    rw [h]
    rfl
  cases t with
  | bindVerify csr req r => cases hb
  | ensureGet e | ensureStatus e | ensureCreate e accepted | ensureRestart e accepted => cases hb
  | _ => exact hmap

theorem Task.certificateID_of_ensure {t : Task} {e : Ensure} (h : t.ensure = some e) :
    t.certificateID = some e.certificate.id := by
  cases t <;> first | cases h; rfl | cases h

/-- A certificate in progress is not written over. -/
structure Spares (P : Platform) (s : Store) (c : Cause) : Prop where
  resumed : ∀ x, held s = some x → x.state.settled = false → ∀ t a, c = .resumed t a →
    writesBack P s t a = true → t.certificateID = some x.id
  created : ∀ x, held s = some x → x.state.settled = false → s.durable.live = none →
    ∀ id hostname tokenHash, c ≠ .call (.initialized id hostname tokenHash)

theorem Effect.kept {P : Platform} {s : Store} {c : Cause} {o : Outcome Task Result}
    {es : List (Lts.Event State Action)} {e : Lts.Event State Action} (h : Effect P s c e.after.store o)
    (hk : Kept es s) (hc : ∀ t a, c = .resumed t a → ∀ r, t.snapshot = some r → Clean es r)
    (hs : Spares P s c) : Kept (es ++ [e]) e.after.store := by
  refine hk.event (fun x hx => ?_) fun r' hr' hne => ?_
  · by_cases hset : x.state.settled = true
    · exact .inl (hk.past_of_settled hx hset)
    have hset : x.state.settled = false := by simpa using hset
    right
    obtain ⟨r, hr, hxr⟩ := Option.bind_eq_some_iff.mp hx
    obtain ⟨r', hr'⟩ := h.record_some hr
    have hheld : held e.after.store = r'.certificate := held_of_record hr'
    rw [hheld]
    cases h.wrote hr' with
    | kept hr₀ h1 _ =>
      obtain rfl := Option.some.inj (hr.symm.trans hr₀)
      exact ⟨x, h1.trans hxr, rfl⟩
    | renewing hr₀ _ h1 _ _ =>
      obtain rfl := Option.some.inj (hr.symm.trans hr₀)
      exact ⟨x, h1.trans hxr, rfl⟩
    | created hcall hl _ _ => exact absurd hcall (hs.created x hx hset hl _ _ _)
    | issued hres hb _ _ => cases hs.resumed x hx hset _ _ hres hb
    | failed hres he hw h1 _ =>
      have hid := hs.resumed x hx hset _ _ hres hw
      rw [Task.certificateID_of_ensure he] at hid
      exact ⟨_, h1, Option.some.inj hid⟩
    | back hres hsnap hw hb h1 _ | backRenewing hres hsnap hw hb _ h1 _ _ =>
      have hid := hs.resumed x hx hset _ _ hres hw
      rw [Task.certificateID_of_snapshot hb hsnap] at hid
      obtain ⟨y, hy, hyid⟩ := Option.map_eq_some_iff.mp hid
      exact ⟨y, h1.trans hy, hyid⟩
  · cases h.wrote hr' with
    | kept hr₀ h1 h2 =>
      rw [h1]
      exact ((hk.record _ hr₀).append).renewal (h2 ▸ hne)
    | renewing hr₀ hready h1 _ _ =>
      rw [h1]
      exact ((hk.record _ hr₀).append).ready hready
    | created _ _ _ hno => exact absurd hno hne
    | issued _ _ _ hno => exact absurd hno hne
    | failed _ _ _ h1 _ =>
      refine ⟨_, h1, e, List.mem_append_right _ (List.mem_singleton.mpr rfl), _, ?_, rfl, ?_⟩
      · exact (held_of_record hr').trans h1
      · rfl
    | back hres hsnap _ _ h1 h2 =>
      rw [h1]
      rcases h2 with h2 | h2
      · exact ((hc _ _ hres _ hsnap).append).renewal (h2 ▸ hne)
      · exact absurd h2 hne
    | backRenewing hres hsnap _ _ hready h1 _ _ =>
      rw [h1]
      exact ((hc _ _ hres _ hsnap).append).ready hready

/-! ### The environment -/

/-- A state that a workflow posts. -/
theorem Update.kept {d d' : Durable} {id : String} {st : CertificateState} {ok : Bool} {b : Bridges}
    {es : List (Lts.Event State Action)} {e : Lts.Event State Action} (h : Update d id st d' ok)
    (hd : Books d) (hid : id ∈ d.minted.map (·.1)) (hk : Kept es ⟨d, b⟩)
    (he : e.after.store.durable.record = d'.record) : Kept (es ++ [e]) e.after.store := by
  have held_of : ∀ {r : StoredTunnel} {x : CertificateInfo}, d.live = some r → held ⟨d, b⟩ = some x →
      r.certificate = some x := fun hl hx =>
    (held_of_record (s := ⟨d, b⟩) (Durable.live_eq_some.mp hl).1).symm.trans hx
  have clean : ∀ {r : StoredTunnel}, d.live = some r → Clean es r := fun hl =>
    hk.record _ (Durable.live_eq_some.mp hl).1
  have same : d'.record = d.record → Kept (es ++ [e]) e.after.store := by
    intro hr
    refine hk.event (fun x hx => .inr ⟨x, ?_, rfl⟩) fun r hr' hne => ?_
    · rw [held, he, hr]; exact hx
    · exact ((hk.record r (hr ▸ he ▸ hr')).append).renewal hne
  cases h with
  | refused _ => exact same rfl
  | renewalPending _ _ _ _ => exact same rfl
  | @renewed r x a hl hx hxid hst =>
    refine hk.event (fun y hy => .inl ?_) fun r' hr' hne => ?_
    · obtain ⟨c, hc, hp⟩ := (clean hl).renewal (by rw [hx]; exact Option.some_ne_none _)
      obtain rfl := Option.some.inj (hc.symm.trans (held_of hl hy))
      exact hp
    · obtain rfl := Option.some.inj (he.symm.trans hr')
      exact absurd rfl hne
  | @renewalFailed r x a hl hx hxid hst =>
    refine hk.event (fun y hy => .inr ⟨y, ?_, rfl⟩) fun r' hr' hne => ?_
    · have hry := held_of hl hy
      rw [held, he]
      exact hry
    · obtain rfl := Option.some.inj (he.symm.trans hr')
      exact absurd rfl hne
  | @stored r a hl hno hc _ =>
    have hcid := hd.certificateID_eq hid hc
    have own : ∀ {y : CertificateInfo}, r.certificate = some y → y.id = id := fun hy =>
      (Option.some.inj (hcid.symm.trans ((hd.live hl).certificate _ hy))).symm
    refine hk.event (fun y hy => .inr ⟨⟨id, st⟩, ?_, (own (held_of hl hy)).symm⟩) fun r' hr' hne => ?_
    · rw [held, he]; rfl
    · obtain rfl := Option.some.inj (he.symm.trans hr')
      obtain ⟨y, hy, hp⟩ := (clean hl).renewal hne
      exact ⟨⟨id, st⟩, rfl, own hy ▸ hp.append⟩

theorem Change.kept {P : Platform} {s : Store} {w : Event} {es : List (Lts.Event State Action)}
    {e : Lts.Event State Action} (h : Change P s w e.after.store) (hd : Books s.durable) (hk : Kept es s) :
    Kept (es ++ [e]) e.after.store := by
  have same : e.after.store.durable.record = s.durable.record → Kept (es ++ [e]) e.after.store := by
    intro hr
    refine hk.event (fun x hx => .inr ⟨x, ?_, rfl⟩) fun r hr' hne => ?_
    · rw [held, hr]; exact hx
    · exact ((hk.record r (hr ▸ hr')).append).renewal hne
  generalize hs' : e.after.store = s' at h
  cases h with
  | tick => exact hs' ▸ same (by rw [hs'])
  | sockets _ _ _ => exact hs' ▸ same (by rw [hs']; rfl)
  | workflow _ _ _ => exact hs' ▸ same (by rw [hs'])
  | @posted id w i st is hw _ _ _ =>
    have hu := updateCertificate_cases
      { s.durable with deliveries := s.durable.deliveries ++ [(id, st)] } id st
    have hk' : Kept es ⟨{ s.durable with deliveries := s.durable.deliveries ++ [(id, st)] }, s.bridges⟩ :=
      ⟨hk.accepted, hk.record⟩
    have := hu.kept (e := e) (hd.delivered hw st).1 (hd.workflow_drawn hw) hk' (by rw [hs']; rfl)
    exact hs' ▸ this

/-! ### Runs -/

/-- The past is kept by the store and by what the suspended handlers carry. -/
def Remembers (P : Platform) (es : List (Lts.Event State Action)) (s : State) : Prop :=
  Reachable P s ∧ Holds (Kept es) (fun _ _ t => ∀ r, t.snapshot = some r → Clean es r) s

/-- What a handler carries on is clean. -/
theorem Carries.clean {P : Platform} {s s' : Store} {c : Cause} {r : StoredTunnel}
    {es fs : List (Lts.Event State Action)} (h : Carries P s s' c r) (hk : Kept es s) (hk' : Kept (es ++ fs) s')
    (hc : ∀ t a, c = .resumed t a → ∀ r, t.snapshot = some r → Clean es r) : Clean (es ++ fs) r := by
  cases h with
  | read hr => exact (hk.record r hr).append
  | stored hr => exact hk'.record r hr
  | carried hres ht => exact (hc _ _ hres _ ht).append
  | written hres ht _ _ h1 h2 => exact ((hc _ _ hres _ ht).of_eq h1 h2).append

theorem spares_of_resume {P : Platform} {s : State} {k : ℕ} {a : Answer} {t : Task} (ht : s.task k = some t)
    (h : overwrites P s (.resume k a) = false) : Spares P s.store (.resumed t a) := by
  refine ⟨fun x hx hset t' a' he hw => ?_, by simp⟩
  obtain ⟨rfl, rfl⟩ := Cause.resumed.inj he
  obtain ⟨r, hr, hxr⟩ := Option.bind_eq_some_iff.mp hx
  have hin : r.inProgress = true := StoredTunnel.inProgress_iff.mpr ⟨x, hxr, hset⟩
  simp only [overwrites, ht, Option.any_some, hw, hr, hin, hxr, Option.map_some, Bool.true_and,
    decide_eq_false_iff_not, not_not] at h
  exact h

theorem spares_of_call {P : Platform} {s : State} {x : Call} (h : overwrites P s (.call x) = false) :
    Spares P s.store (.call x) := by
  refine ⟨(by simp), fun y hy hset hl id hostname tokenHash he => ?_⟩
  obtain rfl := Cause.call.inj he
  obtain ⟨r, hr, hyr⟩ := Option.bind_eq_some_iff.mp hy
  have hin : r.inProgress = true := StoredTunnel.inProgress_iff.mpr ⟨y, hyr, hset⟩
  simp [overwrites, hl, hr, hin] at h

theorem kept_step {P : Platform} {es : List (Lts.Event State Action)} {s s' : State} {l : Action}
    (h : Remembers P es s) (hno : overwrites P s l = false) (hstep : (tunnelObject P).step s l = some s') :
    Remembers P (es ++ [⟨s, l, s'⟩]) s' := by
  obtain ⟨hreach, hs⟩ := h
  refine ⟨hreach.step hstep, hs.advance hstep ?_ ?_ ?_⟩
  · rintro c o rfl h1
    have he := start_effect h1
    have hc : ∀ t a, Cause.call c = .resumed t a → ∀ r, t.snapshot = some r → Clean es r :=
      by simp
    have hk := Effect.kept (e := ⟨s, .call c, s'⟩) he hs.store hc (spares_of_call hno)
    refine ⟨hk, fun _ t ht r hr => (ht r hr).append, fun u hu r hr => ?_⟩
    subst hu
    exact (he.carries hr).clean hs.store hk hc
  · rintro k a t o rfl ht h1
    have he := resume_effect h1
    have hc : ∀ t' a', Cause.resumed t a = .resumed t' a' → ∀ r, t'.snapshot = some r → Clean es r := by
      intro t' a' he r hr
      obtain ⟨rfl, rfl⟩ := Cause.resumed.inj he
      exact hs.tasks _ (task_mem ht) r hr
    have hk := Effect.kept (e := ⟨s, .resume k a, s'⟩) he hs.store hc (spares_of_resume ht hno)
    refine ⟨hk, fun _ t ht r hr => (ht r hr).append, fun u hu r hr => ?_⟩
    subst hu
    exact (he.carries hr).clean hs.store hk hc
  · rintro w rfl h1
    have hk := Change.kept (e := ⟨s, .environment w, s'⟩) (environment_change h1)
      (books_of_reachable hreach).store hs.store
    exact ⟨hk, fun _ t ht r hr => (ht r hr).append⟩

theorem remembers_initial (P : Platform) (now : Millis) : Remembers P [] (initial now) := by
  refine ⟨.of_init ⟨now, rfl⟩, ⟨fun _ h => (nomatch h), fun r hr => ?_⟩, fun _ h => nomatch h⟩
  cases hr

/-- A valid CSR that the record is not bound to, while it is in progress. -/
theorem verified_inProgress {P : Platform} {e : Lts.Event State Action} {k : ℕ} {csr : String}
    {req : CertificateRequest} {r : StoredTunnel} (hv : Verifies e k csr req r)
    (hstep : (tunnelObject P).step e.before e.label = some e.after) (hcsr : r.certificateCsr ≠ some csr)
    (hr : r.inProgress = true) : e.after.store = e.before.store ∧
      e.after.returned = e.before.returned ++ [(k, .bindCertificate .inProgress)] := by
  obtain ⟨⟨uuid, session, hl⟩, ht, hreq⟩ := hv
  obtain ⟨c, hc, -⟩ := StoredTunnel.inProgress_iff.mp hr
  obtain ⟨ids, hb⟩ := bindVerified_valid e.before.store csr hreq hc
  rw [hl, step_resume ht] at hstep
  obtain ⟨p, h1, h2⟩ := Option.map_eq_some_iff.mp hstep
  have h1 : e.before.store.bindVerified csr req r uuid = some p := h1
  rw [hb, if_neg hcsr, if_pos hr] at h1
  obtain rfl := Option.some.inj h1
  rw [← h2]
  exact ⟨rfl, rfl⟩

/-- Along a run that never writes over a certificate in progress there is one
issuance at a time. -/
theorem oneIssuance {P : Platform} {now : Millis} {es : List (Lts.Event State Action)} {t : State}
    (hr : Run P (initial now) es t) (hno : ∀ e ∈ es, overwrites P e.before e.label = false) :
    OneAtATime es := by
  rintro past e post e₁ k₁ id k csr req r rfl he₁ hacc hv hcsr
  obtain ⟨hpast, hstep⟩ := hr.at
  by_cases hin : r.inProgress = true
  · exact .inr (verified_inProgress hv hstep hcsr hin)
  · left
    have hin : r.inProgress = false := by simpa using hin
    obtain ⟨-, hs⟩ := hpast.history (I := Remembers P) (A := fun s l => overwrites P s l = false)
      (fun _ _ _ _ h1 h2 h3 => kept_step h1 h2 h3) (fun e he => hno e (List.mem_append_left _ he))
      (remembers_initial P now)
    rcases hs.store.accepted e₁ he₁ k₁ id hacc with hp | ⟨c, hc, rfl⟩
    · exact hp
    -- the certificate is still stored, and this bind accepts: it has settled
    obtain ⟨⟨uuid, session, hl⟩, ht, hreq⟩ := hv
    have hnow := hno e (List.mem_append_right _ List.mem_cons_self)
    rw [hl] at hnow
    have hb : writesBack P e.before.store (.bindVerify csr req r) (.drawn uuid session) = true := by
      simp [writesBack, bindStores, resubmits, hreq, hcsr, hin]
    by_contra hpast
    have hset : c.state.settled = false := by
      by_contra h
      exact hpast (hs.store.past_of_settled hc (by simpa using h))
    cases (spares_of_resume ht hnow).resumed c hc hset _ _ rfl hb

/-- A second CSR is bound once the first certificate is ready. -/
def reboundRun : List Action := provisioned "csr" ++ binding 2 "csr2" "2"

set_option maxRecDepth 8000 in
theorem reboundRun_state : ∃ t, after plainPlatform reboundRun = some t ∧
    ((tunnelObject plainPlatform).trace (initial 0) reboundRun).all
      (fun e => !overwrites plainPlatform e.before e.label) = true := by
  refine ⟨_, rfl, ?_⟩
  rfl

theorem oneIssuance_rebound : ∃ es t, Run plainPlatform (initial 0) es t ∧ es.map (·.label) = reboundRun ∧
    OneAtATime es := by
  obtain ⟨t, ht, hno⟩ := reboundRun_state
  have hrun : Run plainPlatform (initial 0) _ t := .of_exec ht
  refine ⟨_, t, hrun, Lts.map_label_trace ht, oneIssuance hrun fun e he => ?_⟩
  simpa using List.all_eq_true.mp hno e he

/-! ### Two binds at once -/

/-- Two CSRs are bound, and each call reads the record before either stores. -/
def racing : List Action :=
  [initializing, .call (.bindCertificate "tok" "csr"), .call (.bindCertificate "tok" "csr2"), .resume 1 .ok,
   .resume 2 .ok]

/-- Call `k` starts its workflow and returns. -/
def issuing (k : ℕ) : List Action := [.resume k (.error "instance.not_found"), .resume k .accepted, .resume k .ok]

set_option maxRecDepth 8000 in
theorem racing_state : ∃ s s' s'' t, after plainPlatform racing = some s ∧
    (tunnelObject plainPlatform).step s (.resume 1 (.drawn "1" "")) = some s' ∧
    (tunnelObject plainPlatform).step s' (.resume 2 (.drawn "2" "")) = some s'' ∧
    (tunnelObject plainPlatform).exec s'' (issuing 1 ++ issuing 2) = some t ∧
    Accepts ⟨s, .resume 1 (.drawn "1" ""), s'⟩ 1 "cert_1" ∧
    Accepts ⟨s', .resume 2 (.drawn "2" ""), s''⟩ 2 "cert_2" ∧
    (1, .bindCertificate (.ok ⟨"cert_1", .issuing⟩)) ∈ t.returned ∧
    (2, .bindCertificate (.ok ⟨"cert_2", .issuing⟩)) ∈ t.returned ∧
    ((tunnelObject plainPlatform).trace (initial 0) racing).all (fun e => (held e.after.store).isNone) = true := by
  refine ⟨_, _, _, _, rfl, rfl, rfl, rfl, ?_, ?_, ?_, ?_, ?_⟩
  · exact ⟨_, _, _, ⟨⟨_, _, rfl⟩, rfl, rfl⟩, rfl, rfl⟩
  · exact ⟨_, _, _, ⟨⟨_, _, rfl⟩, rfl, rfl⟩, rfl, rfl⟩
  · decide
  · decide
  · rfl

theorem two_issuances : ¬ ∀ (es : List (Lts.Event State Action)) (t : State), Run plainPlatform (initial 0) es t →
    ∀ past e post e₁ k₁ id₁ c₁ k id c, es = past ++ e :: post → e₁ ∈ past → Accepts e₁ k₁ id₁ →
      Accepts e k id → (k₁, .bindCertificate (.ok c₁)) ∈ t.returned → (k, .bindCertificate (.ok c)) ∈ t.returned →
      Past past id₁ := by
  intro h
  obtain ⟨s, s', s'', t, hs, h1, h2, ht, hacc₁, hacc, hok₁, hok, hnone⟩ := racing_state
  have hrun : Run plainPlatform (initial 0) _ t :=
    ((Lts.Run.of_exec hs).append (.single h1)).append (.cons h2 (.of_exec ht))
  have hlast : (⟨s, .resume 1 (.drawn "1" ""), s'⟩ : Lts.Event State Action) ∈
      (tunnelObject plainPlatform).trace (initial 0) racing ++ [⟨s, .resume 1 (.drawn "1" ""), s'⟩] :=
    List.mem_append_right _ (List.mem_singleton.mpr rfl)
  obtain ⟨e, he, c, hc, -, hset⟩ := h _ t hrun _ _ _ _ _ _ _ _ _ _ rfl hlast hacc₁ hacc hok₁ hok
  rcases List.mem_append.mp he with he | he
  · have hn := List.all_eq_true.mp hnone e he
    rw [hc] at hn
    cases hn
  · obtain rfl := List.mem_singleton.mp he
    obtain ⟨_, _, _, -, -, hheld⟩ := hacc₁
    obtain rfl := Option.some.inj (hheld.symm.trans hc)
    cases hset

end ShuvTunnel
