/-
# A certificate that was acknowledged

A workflow posts its certificate, `updateCertificate` stores it and answers
true. A handler that was suspended then still carries the record from before:
when it writes that back (`Outdated`), the acknowledged certificate is lost and
the renewal slot is there again. Along a run without such a step every later
certificate is the acknowledged one, or a later update or bind stored it
(`Current`).

Key definitions: `Acknowledges`, `Outdated`, `Current`.
Key theorems: `current_step`, `acknowledged_lasts`.
-/
import ShuvTunnel.Fencing
import ShuvTunnel.Writes

namespace ShuvTunnel

open Coop

/-! ### The property, and the steps that lose it -/

/-- The workflow `id` posts a ready certificate, and `updateCertificate` stores
it and answers true. -/
structure Acknowledges (P : Platform) (s s' : State) (c : CertificateInfo) : Prop where
  posted : ∃ w i, s.store.durable.workflow c.id = some i ∧ i.posts w = some c.state ∧
    (tunnelObject P).step s (.environment (.workflow c.id w)) = some s'
  ready : c.state.isReady = true
  answered : (s.store.durable.update c.id c.state).2 = true

/-- A workflow's update or a step of a `bindCertificate` stores the certificate
`c`. -/
def Stores (e : Lts.Event State Action) (c : CertificateInfo) : Prop :=
  ((∃ id w, e.label = .environment (.workflow id w)) ∨
    ∃ k a t, e.label = .resume k a ∧ e.before.task k = some t ∧ t.binds = true) ∧
  held e.before.store ≠ some c ∧ held e.after.store = some c

/-- The record's certificate is `c` or was stored since, and its renewal is not
the one that ended with `c`. -/
structure Current (c : CertificateInfo) (es : List (Lts.Event State Action)) (r : StoredTunnel) : Prop where
  certificate : ∀ x, r.certificate = some x → x = c ∨ ∃ e ∈ es, Stores e x
  renewal : ∀ x, r.renewal = some x → x.certificateID ≠ c.id

/-- A handler resumes that was suspended in `s₁` with a record that is not up
to date with `c`, and writes it back (its certificate, its renewal or its
failure; a `bindCertificate` that stores a new certificate keeps neither). -/
def Outdated (P : Platform) (s₁ : State) (c : CertificateInfo) (s : State) : Action → Prop
  | .resume k a => ∃ t t₁ r, s.task k = some t ∧ writesBack P s.store t a = true ∧
      (∀ csr req r, t ≠ .bindVerify csr req r) ∧ t.snapshot = some r ∧ (k, t₁) ∈ s₁.tasks ∧
      t₁.snapshot = some r ∧
      (r.certificate ≠ some c ∨ ∃ x, r.renewal = some x ∧ x.certificateID = c.id)
  | _ => False

/-! ### What is up to date -/

theorem Current.append {c : CertificateInfo} {es fs : List (Lts.Event State Action)} {r : StoredTunnel}
    (h : Current c es r) : Current c (es ++ fs) r := by
  refine ⟨fun x hx => ?_, h.renewal⟩
  rcases h.certificate x hx with hx | ⟨e, he, hs⟩
  · exact .inl hx
  · exact .inr ⟨e, List.mem_append_left _ he, hs⟩

theorem Current.of_eq {c : CertificateInfo} {es : List (Lts.Event State Action)} {r r' : StoredTunnel}
    (h : Current c es r) (h1 : r'.certificate = r.certificate)
    (h2 : ∀ x, r'.renewal = some x → x.certificateID ≠ c.id) : Current c es r' :=
  ⟨fun x hx => h.certificate x (h1 ▸ hx), h2⟩

/-- The certificate that an event stores is current after it. -/
theorem current_stored {c x : CertificateInfo} {es : List (Lts.Event State Action)}
    {e : Lts.Event State Action} {r : StoredTunnel}
    (hl : (∃ id w, e.label = .environment (.workflow id w)) ∨
      ∃ k a t, e.label = .resume k a ∧ e.before.task k = some t ∧ t.binds = true)
    (hb : ∀ y, held e.before.store = some y → y = c ∨ ∃ e ∈ es, Stores e y)
    (ha : held e.after.store = some x) (hr : r.certificate = some x)
    (hx : ∀ y, r.renewal = some y → y.certificateID ≠ c.id) : Current c (es ++ [e]) r := by
  refine ⟨fun y hy => ?_, hx⟩
  obtain rfl := Option.some.inj (hr.symm.trans hy)
  by_cases hbefore : held e.before.store = some x
  · rcases hb x hbefore with h | ⟨e', he', hs⟩
    · exact .inl h
    · exact .inr ⟨e', List.mem_append_left _ he', hs⟩
  · exact .inr ⟨e, List.mem_append_right _ (List.mem_singleton.mpr rfl), hl, hbefore, ha⟩

/-- The stored record is up to date, and the id of `c` is not drawn again. -/
structure UpToDate (c : CertificateInfo) (es : List (Lts.Event State Action)) (s : Store) : Prop where
  record : ∀ r, s.durable.record = some r → Current c es r
  minted : c.id ∈ s.durable.minted.map (·.1)

theorem UpToDate.held {c : CertificateInfo} {es : List (Lts.Event State Action)} {s : Store} (h : UpToDate c es s) :
    ∀ y, held s = some y → y = c ∨ ∃ e ∈ es, Stores e y := by
  intro y hy
  obtain ⟨r, hr, hy⟩ := Option.bind_eq_some_iff.mp hy
  exact (h.record r hr).certificate y hy

/-- A renewal that is new has another id. -/
theorem UpToDate.fresh {c : CertificateInfo} {es : List (Lts.Event State Action)} {s : Store}
    (h : UpToDate c es s) {id : String} (hf : Fresh s.durable id) : id ≠ c.id := by
  rintro rfl
  exact hf.unused h.minted

/-! ### One segment -/

/-- The record that the event's handler writes back is up to date. -/
def WritesCurrent (P : Platform) (c : CertificateInfo) (es : List (Lts.Event State Action))
    (e : Lts.Event State Action) (t : Task) (a : Answer) : Prop :=
  ∀ r, t.snapshot = some r → writesBack P e.before.store t a = true →
    (∀ csr req r, t ≠ .bindVerify csr req r) → Current c es r

theorem Effect.current {P : Platform} {cause : Cause} {o : Outcome Task Result} {c : CertificateInfo}
    {es : List (Lts.Event State Action)} {e : Lts.Event State Action}
    (h : Effect P e.before.store cause e.after.store o) (hup : UpToDate c es e.before.store)
    (hc : ∀ t a, cause = .resumed t a → (∃ k, e.label = .resume k a ∧ e.before.task k = some t) ∧
      WritesCurrent P c es e t a) : UpToDate c (es ++ [e]) e.after.store := by
  refine ⟨fun r' hr' => ?_, List.map_subset _ h.deliveries.2 hup.minted⟩
  have hheld : ShuvTunnel.held e.after.store = r'.certificate := held_of_record hr'
  -- a certificate stored by a `bindCertificate`
  have bound : ∀ {t : Task} {a : Answer} {x : CertificateInfo}, cause = .resumed t a → t.binds = true →
      r'.certificate = some x → (∀ y, r'.renewal = some y → y.certificateID ≠ c.id) →
      Current c (es ++ [e]) r' := by
    intro t a x hcause hb hx hren
    obtain ⟨⟨k, hl, ht⟩, -⟩ := hc t a hcause
    exact current_stored (.inr ⟨k, a, t, hl, ht, hb⟩) hup.held (hheld.trans hx) hx hren
  have not_verify : ∀ {t : Task}, t.binds = false → ∀ csr req r, t ≠ .bindVerify csr req r := by
    rintro t hb csr req r rfl
    cases hb
  cases h.wrote hr' with
  | kept hr h1 h2 =>
    have hcur : Current c (es ++ [e]) _ := (hup.record _ hr).append
    exact hcur.of_eq h1 fun x hx => hcur.renewal x (h2 ▸ hx)
  | renewing hr _ h1 h2 hf =>
    refine ((hup.record _ hr).append).of_eq h1 fun x hx => ?_
    obtain rfl := Option.some.inj (h2.symm.trans hx)
    exact hup.fresh hf
  | created _ _ h1 h2 =>
    refine ⟨fun x hx => ?_, fun x hx => ?_⟩
    · rw [h1] at hx; cases hx
    · rw [h2] at hx; cases hx
  | issued hcause _ h1 h2 =>
    refine bound hcause rfl h1 fun y hy => ?_
    rw [h2] at hy
    cases hy
  | @failed t a en reason hcause he hw h1 h2 =>
    have hv : ∀ csr req r, t ≠ .bindVerify csr req r := by
      rintro csr req r rfl
      cases he
    have hcur := (hc _ _ hcause).2 _ (Task.snapshot_of_ensure he) hw hv
    exact bound hcause (binds_of_ensure he) h1 fun y hy => hcur.renewal y (h2 ▸ hy)
  | back hcause hsnap hw hb h1 h2 =>
    have hcur := (hc _ _ hcause).2 _ hsnap hw (not_verify hb)
    refine (hcur.append).of_eq h1 fun x hx => ?_
    rcases h2 with h2 | h2
    · exact hcur.renewal x (h2 ▸ hx)
    · rw [h2] at hx; cases hx
  | backRenewing hcause hsnap hw hb _ h1 h2 hf =>
    have hcur := (hc _ _ hcause).2 _ hsnap hw (not_verify hb)
    refine (hcur.append).of_eq h1 fun x hx => ?_
    obtain rfl := Option.some.inj (h2.symm.trans hx)
    exact hup.fresh hf

/-! ### The workflows -/

/-- A state that a workflow posts: the record it stores is up to date. -/
theorem Update.current {d d' : Durable} {id : String} {st : CertificateState} {ok : Bool} {c : CertificateInfo}
    {es : List (Lts.Event State Action)} {e : Lts.Event State Action} (h : Update d id st d' ok)
    (hl : ∃ id w, e.label = .environment (.workflow id w)) (hup : UpToDate c es e.before.store)
    (hb : d.record = e.before.store.durable.record) (ha : e.after.store.durable.record = d'.record) :
    ∀ r, d'.record = some r → Current c (es ++ [e]) r := by
  have before : ∀ {r : StoredTunnel}, d.live = some r → Current c (es ++ [e]) r := fun hl =>
    (hup.record _ (hb ▸ (Durable.live_eq_some.mp hl).1)).append
  intro r' hr'
  have stored : ∀ {x : CertificateInfo}, r'.certificate = some x →
      (∀ y, r'.renewal = some y → y.certificateID ≠ c.id) → Current c (es ++ [e]) r' := fun hx hren =>
    current_stored (.inl hl) hup.held ((held_of_record (ha.trans hr')).trans hx) hx hren
  cases h with
  | refused _ => exact (hup.record _ (hb ▸ hr')).append
  | renewalPending _ _ _ _ => exact (hup.record _ (hb ▸ hr')).append
  | renewed _ _ _ _ =>
    obtain rfl := Option.some.inj hr'
    exact stored rfl fun _ h => nomatch h
  | renewalFailed hlive _ _ _ =>
    obtain rfl := Option.some.inj hr'
    exact (before hlive).of_eq rfl fun _ h => nomatch h
  | stored hlive _ _ _ =>
    obtain rfl := Option.some.inj hr'
    exact stored rfl (before hlive).renewal

theorem Change.current {P : Platform} {w : Event} {c : CertificateInfo} {es : List (Lts.Event State Action)}
    {e : Lts.Event State Action} (h : Change P e.before.store w e.after.store) (hl : e.label = .environment w)
    (hup : UpToDate c es e.before.store) : UpToDate c (es ++ [e]) e.after.store := by
  have same : e.after.store.durable.record = e.before.store.durable.record →
      e.after.store.durable.minted = e.before.store.durable.minted → UpToDate c (es ++ [e]) e.after.store :=
    fun h1 h2 => ⟨fun r hr => (hup.record r (h1 ▸ hr)).append, h2 ▸ hup.minted⟩
  generalize hs' : e.after.store = s' at h
  cases h with
  | tick => exact hs' ▸ same (by rw [hs']) (by rw [hs'])
  | sockets _ _ _ => exact hs' ▸ same (by rw [hs']; rfl) (by rw [hs']; rfl)
  | workflow _ _ _ => exact hs' ▸ same (by rw [hs']) (by rw [hs'])
  | @posted id w i st is _ _ _ _ =>
    have hu := updateCertificate_cases
      { e.before.store.durable with deliveries := e.before.store.durable.deliveries ++ [(id, st)] } id st
    refine ⟨hu.current ⟨id, w, hl⟩ hup rfl (by rw [hs']; rfl), ?_⟩
    exact List.map_subset _ hu.deliveries.2 hup.minted

/-! ### Runs -/

/-- The store is up to date, and so is what each suspended handler carries,
unless it carried it already when `c` was acknowledged, in `s₁`. -/
def Tracks (s₁ : State) (c : CertificateInfo) (es : List (Lts.Event State Action)) (s : State) :
    Prop :=
  Holds (UpToDate c es) (fun _ k t => ∀ r, t.snapshot = some r →
    Current c es r ∨ ∃ t₁, (k, t₁) ∈ s₁.tasks ∧ t₁.snapshot = some r) s

theorem Carries.current {P : Platform} {c : CertificateInfo} {cause : Cause} {r : StoredTunnel}
    {es : List (Lts.Event State Action)} {e : Lts.Event State Action}
    (h : Carries P e.before.store e.after.store cause r) (hup : UpToDate c es e.before.store)
    (hup' : UpToDate c (es ++ [e]) e.after.store)
    (hc : ∀ t a, cause = .resumed t a → WritesCurrent P c es e t a) :
    Current c (es ++ [e]) r ∨ ∃ t a, cause = .resumed t a ∧ t.snapshot = some r := by
  cases h with
  | read hr => exact .inl (hup.record r hr).append
  | stored hr => exact .inl (hup'.record r hr)
  | carried hcause ht => exact .inr ⟨_, _, hcause, ht⟩
  | @written t a r₀ hcause ht hw hb h1 h2 =>
    left
    have hcur : Current c (es ++ [e]) r₀ := (hc t a hcause r₀ ht hw (by rintro _ _ _ rfl; cases hb)).append
    exact hcur.of_eq h1 fun x hx => hcur.renewal x (h2 ▸ hx)

/-- What a handler writes back is up to date, unless that is `Outdated`. -/
theorem Tracks.writesCurrent {P : Platform} {s₁ s s' : State} {c : CertificateInfo}
    {es : List (Lts.Event State Action)} {k : ℕ} {a : Answer} {t : Task} (hs : Tracks s₁ c es s)
    (hno : ¬ Outdated P s₁ c s (.resume k a)) (ht : s.task k = some t) :
    WritesCurrent P c es ⟨s, .resume k a, s'⟩ t a := by
  intro r hr hw hv
  rcases hs.tasks _ (task_mem ht) r hr with hcur | ⟨t₁, ht₁, hr₁⟩
  · exact hcur
  · refine ⟨fun x hx => .inl ?_, fun x hx hid => ?_⟩
    · by_contra hne
      refine hno ⟨t, t₁, r, ht, hw, hv, hr, ht₁, hr₁, .inl fun h => hne ?_⟩
      exact Option.some.inj (hx.symm.trans h)
    · exact hno ⟨t, t₁, r, ht, hw, hv, hr, ht₁, hr₁, .inr ⟨x, hx, hid⟩⟩

theorem current_step {P : Platform} {s₁ s s' : State} {c : CertificateInfo} {es : List (Lts.Event State Action)}
    {l : Action} (hs : Tracks s₁ c es s) (hno : ¬ Outdated P s₁ c s l)
    (hstep : (tunnelObject P).step s l = some s') : Tracks s₁ c (es ++ [⟨s, l, s'⟩]) s' := by
  refine hs.advance hstep ?_ ?_ ?_
  · rintro call o rfl h1
    have he := start_effect h1
    have hup := Effect.current (e := ⟨s, .call call, s'⟩) he hs.store fun _ _ h => nomatch h
    refine ⟨hup, fun _ t ht r hr => (ht r hr).imp_left Current.append, fun u hu r hr => ?_⟩
    subst hu
    rcases (he.carries hr).current (e := ⟨s, .call call, s'⟩) hs.store hup (by simp) with
      hcur | ⟨_, _, h, -⟩
    · exact .inl hcur
    · cases h
  · rintro k a t o rfl ht h1
    have he := resume_effect h1
    have hwrites : WritesCurrent P c es ⟨s, .resume k a, s'⟩ t a := hs.writesCurrent hno ht
    have hup := Effect.current (e := ⟨s, .resume k a, s'⟩) he hs.store fun t' a' h => by
      obtain ⟨rfl, rfl⟩ := Cause.resumed.inj h
      exact ⟨⟨k, rfl, ht⟩, hwrites⟩
    refine ⟨hup, fun _ t ht r hr => (ht r hr).imp_left Current.append, fun u hu r hr => ?_⟩
    subst hu
    rcases (he.carries hr).current (e := ⟨s, .resume k a, s'⟩) hs.store hup (fun t' a' h => by
      obtain ⟨rfl, rfl⟩ := Cause.resumed.inj h
      exact hwrites) with hcur | ⟨t', a', h, hr'⟩
    · exact .inl hcur
    · -- what it carries it carried before
      obtain ⟨rfl, rfl⟩ := Cause.resumed.inj h
      exact (hs.tasks _ (task_mem ht) r hr').imp_left Current.append
  · rintro w rfl h1
    have hup := Change.current (e := ⟨s, .environment w, s'⟩) (environment_change h1) rfl hs.store
    exact ⟨hup, fun _ t ht r hr => (ht r hr).imp_left Current.append⟩

/-- `updateCertificate` answers true to a ready certificate: it has stored it,
and the renewal that ended with it is gone. -/
theorem Update.acknowledged {d d' : Durable} {id : String} {st : CertificateState} {ok : Bool}
    (h : Update d id st d' ok) (hok : ok = true) (hst : st.isReady = true) :
    ∀ r, d'.record = some r → r.certificate = some ⟨id, st⟩ ∧ ∀ x, r.renewal = some x → x.certificateID ≠ id := by
  intro r hr
  cases h with
  | refused _ => cases hok
  | renewed _ _ _ _ =>
    obtain rfl := Option.some.inj hr
    exact ⟨rfl, by simp⟩
  | renewalFailed _ _ _ hfailed =>
    cases st with
    | ready certificate chain expiry => cases hfailed
    | _ => cases hst
  | renewalPending _ _ _ hset => simp [CertificateState.settled, hst] at hset
  | @stored r₀ a _ hno _ _ =>
    obtain rfl := Option.some.inj hr
    refine ⟨rfl, fun x hx hid => ?_⟩
    have hsome : r₀.renewalOf id = some x := StoredTunnel.renewalOf_eq_some.mpr ⟨hx, hid⟩
    rw [hsome] at hno
    cases hno

/-- The certificate that was acknowledged is stored. -/
theorem tracks_acknowledged {P : Platform} {s s' : State} {c : CertificateInfo} (h : Reachable P s)
    (hack : Acknowledges P s s' c) : Tracks s' c [] s' := by
  refine ⟨?_, fun p hp r hr => .inr ⟨p.2, hp, hr⟩⟩
  obtain ⟨w, i, hw, hp, hstep⟩ := hack.posted
  obtain ⟨x, hx, rfl⟩ := Option.map_eq_some_iff.mp hstep
  have hchange : Change P s.store (.workflow c.id w) x := environment_change hx
  cases hchange with
  | sockets hno _ _ => exact absurd rfl (hno _ _)
  | workflow hw' hnone _ =>
    obtain rfl := Option.some.inj (hw.symm.trans hw')
    rw [hp] at hnone
    cases hnone
  | @posted _ _ i' st is hw' hp' _ _ =>
    obtain rfl := Option.some.inj (hw.symm.trans hw')
    obtain rfl := Option.some.inj (hp.symm.trans hp')
    have hu := updateCertificate_cases
      { s.store.durable with deliveries := s.store.durable.deliveries ++ [(c.id, c.state)] } c.id c.state
    refine ⟨fun r hr => ?_, ?_⟩
    · obtain ⟨h1, h2⟩ := hu.acknowledged hack.answered hack.ready r hr
      exact ⟨fun x hx => .inl (Option.some.inj (hx.symm.trans h1)), h2⟩
    · exact List.map_subset _ hu.deliveries.2 ((books_of_reachable h).store.workflow_drawn hw)

/-- Along a run in which no handler writes back a record from before the
certificate `c` was acknowledged, every later certificate is `c` or was stored
since, and the renewal slot does not come back. -/
theorem acknowledged_lasts {P : Platform} {s s' t : State} {c : CertificateInfo}
    {es : List (Lts.Event State Action)} (h : Reachable P s) (hack : Acknowledges P s s' c)
    (hr : Run P s' es t) (hno : ∀ e ∈ es, ¬ Outdated P s' c e.before e.label) :
    ∀ past e post, es = past ++ e :: post → ∀ r, e.after.store.durable.record = some r →
      Current c (past ++ [e]) r := by
  rintro past e post rfl r hrec
  obtain ⟨hpast, hstep⟩ := hr.at
  have hs : Tracks s' c past e.before := hpast.history (I := Tracks s' c)
    (A := fun s l => ¬ Outdated P s' c s l) (fun _ _ _ _ h1 h2 h3 => current_step h1 h2 h3)
    (fun e he => hno e (List.mem_append_left _ he)) (tracks_acknowledged h hack)
  have hlast := current_step hs (hno e (List.mem_append_right _ List.mem_cons_self)) hstep
  exact hlast.store.record r hrec

/-! ### An attach message that was suspended -/

/-- A renewal was started by call 3, and its workflow has posted a challenge;
the client connects again, with socket 1. -/
def renewalRun : List Action :=
  renewingRun ++ [.resume 3 .ok, challenging "2", .environment (.peerClose 0), fetching]

/-- The renewed certificate. -/
def renewed : CertificateInfo := ⟨"cert_2", .ready "csr" "" (110 * DAY_MS)⟩

/-- Its workflow posts it. -/
def renewing : WorkflowEvent := .ready "csr" "" (110 * DAY_MS)

/-- Its attach message has not read the record, and call 6 has, when the renewed
certificate is posted. -/
def suspendedRun : List Action := renewalRun ++ [attachMessage 1, .call (.info "tok")]

set_option maxRecDepth 8000 in
theorem suspendedRun_state : ∃ s s' s₁ s₂ t r, after plainPlatform suspendedRun = some s ∧
    Acknowledges plainPlatform s s' renewed ∧ s'.tasks = [(5, .attachRecord 1 "tok" none), (6, .infoHash "tok" r)] ∧
    r.certificate ≠ some renewed ∧ (tunnelObject plainPlatform).step s' (.resume 6 .ok) = some s₁ ∧
    (tunnelObject plainPlatform).step s₁ (.resume 5 .ok) = some s₂ ∧
    (tunnelObject plainPlatform).step s₂ (.resume 5 (.drawn "3" "2")) = some t ∧
    t.store.durable.record.bind (·.certificate) = some renewed := by
  refine ⟨_, _, _, _, _, _, rfl, ⟨⟨renewing, _, rfl, rfl, rfl⟩, rfl, ?_⟩, rfl, ?_, rfl, rfl, rfl, ?_⟩
  · rfl
  · decide
  · rfl

/-- Both handlers go on after the renewal: the one only answers, the other reads
the record then. -/
theorem acknowledged_attaching : ∃ s s' t es, Reachable plainPlatform s ∧ Acknowledges plainPlatform s s' renewed ∧
    s'.tasks.length = 2 ∧ Run plainPlatform s' es t ∧
    es.map (·.label) = [.resume 6 .ok, .resume 5 .ok, .resume 5 (.drawn "3" "2")] ∧
    t.store.durable.record.bind (·.certificate) = some renewed ∧
    ∀ past e post, es = past ++ e :: post → ∀ r, e.after.store.durable.record = some r →
      Current renewed (past ++ [e]) r := by
  obtain ⟨s, s', s₁, s₂, t, r, hs, hack, htasks, -, h₁, h₂, h₃, hrenewed⟩ := suspendedRun_state
  have hrun : Run plainPlatform s' [⟨s', .resume 6 .ok, s₁⟩, ⟨s₁, .resume 5 .ok, s₂⟩,
      ⟨s₂, .resume 5 (.drawn "3" "2"), t⟩] t := .cons h₁ (.cons h₂ (.single h₃))
  -- the attach message carries no record, and `info` writes none
  have hattach : ∀ (x : State) (a : Answer), ¬ Outdated plainPlatform s' renewed x (.resume 5 a) := by
    rintro x a ⟨-, t₁, r, -, -, -, -, ht₁, hr, -⟩
    obtain rfl : t₁ = .attachRecord 1 "tok" none := by simpa [htasks] using ht₁
    cases hr
  have hinfo : ¬ Outdated plainPlatform s' renewed s' (.resume 6 .ok) := by
    rintro ⟨u, -, -, hu, hw, -⟩
    have htask : s'.task 6 = some (.infoHash "tok" r) := by
      unfold Coop.State.task
      rw [htasks]
      rfl
    obtain rfl := Option.some.inj (htask.symm.trans hu)
    cases hw
  refine ⟨s, s', t, _, reachable_of_after hs, hack, by rw [htasks]; rfl, hrun, rfl, hrenewed,
    acknowledged_lasts (reachable_of_after hs) hack hrun fun e he => ?_⟩
  simp only [List.mem_cons, List.not_mem_nil, or_false] at he
  rcases he with rfl | rfl | rfl
  · exact hinfo
  · exact hattach _ _
  · exact hattach _ _

set_option maxRecDepth 8000 in
/-- The client attaches before, and the handler goes on after the renewal. -/
theorem overtaken_state : ∃ s s' t u r x,
    after plainPlatform (renewalRun ++ [attachMessage 1, .resume 5 .ok]) = some s ∧
    Acknowledges plainPlatform s s' renewed ∧
    (tunnelObject plainPlatform).step s' (.resume 5 (.drawn "3" "2")) = some t ∧ s'.task 5 = some u ∧
    u.binds = false ∧ t.store.durable.record = some r ∧ r.certificate = some x ∧ x.id = "cert_1" := by
  refine ⟨_, _, _, _, _, _, rfl, ⟨⟨renewing, _, rfl, rfl, rfl⟩, rfl, ?_⟩, rfl, rfl, ?_, rfl, rfl, ?_⟩
  · rfl
  · rfl
  · rfl

theorem renewal_lost : ¬ ∀ (s s' t : State) (c : CertificateInfo) (es : List (Lts.Event State Action)),
    Reachable plainPlatform s → Acknowledges plainPlatform s s' c → Run plainPlatform s' es t →
    ∀ past e post, es = past ++ e :: post → ∀ r, e.after.store.durable.record = some r →
      Current c (past ++ [e]) r := by
  intro h
  obtain ⟨s, s', t, u, r, x, hs, hack, hstep, hu, hbinds, hr, hx, hid⟩ := overtaken_state
  have hcur := h s s' t renewed _ (reachable_of_after hs) hack (.single hstep) [] _ [] rfl r hr
  rcases hcur.certificate x hx with rfl | ⟨e, he, hstores, -⟩
  · exact absurd hid (by decide)
  · obtain rfl := List.mem_singleton.mp he
    rcases hstores with ⟨_, _, hl⟩ | ⟨k, a, t', hl, ht', hb⟩
    · cases hl
    · obtain ⟨rfl, rfl⟩ := Coop.Label.resume.inj hl
      obtain rfl := Option.some.inj (hu.symm.trans ht')
      rw [hbinds] at hb
      cases hb

end ShuvTunnel
