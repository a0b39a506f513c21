/-
# The certificate a client saves

A ready certificate was issued for the CSR of the record it stands in
(`Issued`): the fencing of `Fencing.lean`, and the authority's own word for
what a workflow delivers. A client saves what it reads, so what it saves
matches its key exactly when the record it read was bound to its CSR. The
object promises a client no such thing: when `bindCertificate` answers
`in-progress`, the certificate being issued is always another CSR's.

Key definitions: `Issued`, `Client.Matches`, `Mistaken`.
Key theorems: `issued_of_reachable`, `step_matches_iff`, `provision_iff`.
-/
import ShuvTunnel.Clients
import ShuvTunnel.Fencing
import ShuvTunnel.Writes

namespace ShuvTunnel

open Coop

/-! ### What a ready certificate was issued for -/

/-- The record's ready certificate was issued for the record's CSR. -/
def StoredTunnel.Issued (P : Platform) (r : StoredTunnel) : Prop :=
  ∀ c x ch expiry, r.certificate = some c → c.state = .ready x ch expiry →
    r.certificateCsr = some (P.issuedFor x)

/-- A workflow delivered only certificates for the CSR its id was drawn for. -/
def Delivered (P : Platform) (d : Durable) : Prop :=
  ∀ id x ch expiry, (id, .ready x ch expiry) ∈ d.deliveries → (id, P.issuedFor x) ∈ d.minted

theorem Effect.delivered {P : Platform} {s s' : Store} {c : Cause} {o : Outcome Task Result}
    (h : Effect P s c s' o) (hd : Delivered P s.durable) : Delivered P s'.durable := by
  obtain ⟨h1, h2⟩ := h.deliveries
  exact fun id x ch expiry hx => h2 (hd id x ch expiry (h1 hx))

theorem Change.delivered {P : Platform} {s s' : Store} {e : Event} (h : Change P s e s')
    (hb : Books s.durable) (hd : Delivered P s.durable) : Delivered P s'.durable := by
  cases h with
  | tick => exact hd
  | sockets _ _ _ => exact hd
  | workflow _ _ _ => exact hd
  | @posted id e i st is hw _ hcsr _ =>
    obtain ⟨h1, h2⟩ := (updateCertificate_cases
      { s.durable with deliveries := s.durable.deliveries ++ [(id, st)] } id st).deliveries
    obtain ⟨hi, hid⟩ := workflow_mem hw
    intro id' x ch expiry hx
    have hx : (id', .ready x ch expiry) ∈ s.durable.deliveries ++ [(id, st)] := h1 hx
    have hdrawn : (id', P.issuedFor x) ∈ s.durable.minted := by
      rcases List.mem_append.mp hx with hx | hx
      · exact hd id' x ch expiry hx
      · obtain ⟨rfl, hst⟩ := Prod.mk.inj (List.mem_singleton.mp hx)
        rw [hcsr x ch expiry hst.symm, ← hid]
        exact hb.instance_drawn hi
    exact h2 hdrawn

theorem delivered_of_reachable {P : Platform} {s : State} (h : Reachable P s) : Delivered P s.store.durable := by
  refine (h.invariant (I := fun s => Reachable P s ∧ Delivered P s.store.durable) ?_ ?_).2
  · rintro s ⟨now, rfl⟩
    exact ⟨.of_init ⟨now, rfl⟩, fun _ _ _ _ h => nomatch h⟩
  · rintro s l s' ⟨hs, hd⟩ hstep
    refine ⟨hs.step hstep, ?_⟩
    obtain ⟨c, x, o, rfl, h1, rfl⟩ | ⟨k, a, t, x, o, rfl, -, h1, rfl⟩ | ⟨e, x, rfl, h1, rfl⟩ :=
      step_cases hstep
    · rw [settle_store]; exact (start_effect h1).delivered hd
    · rw [settle_store]; exact (resume_effect h1).delivered hd
    · exact (environment_change h1).delivered (books_of_reachable hs).store hd

theorem issued_of_reachable {P : Platform} {s : State} (h : Reachable P s) {r : StoredTunnel}
    (hr : s.store.durable.record = some r) : r.Issued P := by
  intro c x ch expiry hc hst
  have hb := (books_of_reachable h).store
  have hf := hb.record r hr
  obtain ⟨csr, hcsr, hdrawn⟩ := hf.drawn _ (hf.certificate c hc)
  have hmem := hf.delivered c hc (by rw [hst]; rfl)
  rw [hst] at hmem
  have hissued := delivered_of_reachable h _ _ _ _ hmem
  rw [hcsr, hb.csr_unique hdrawn hissued]

/-! ### What a call of `certificate` answers -/

/-- Call `k` is `certificate`'s and found this record. -/
structure Reads (o : State) (k : ℕ) (record : Option StoredTunnel) : Prop where
  lt : k < o.next
  task : ∀ t, (k, t) ∈ o.tasks → ∃ token r, t = .certificateHash token r ∧ record = some r
  result : ∀ c, (k, .certificate (.ok c)) ∈ o.returned → ∃ r, record = some r ∧ r.certificate = some c

theorem Reads.of_call {P : Platform} {o o' : State} {token : String} (ho : Called o)
    (h : (tunnelObject P).step o (.call (.certificate token)) = some o') :
    Reads o' o.next o.store.durable.live := by
  have h : ((start P o.store (.certificate token)).map fun p =>
      { o with next := o.next + 1 }.settle o.next p.1 p.2) = some o' := h
  obtain ⟨⟨x, out⟩, h1, rfl⟩ := Option.map_eq_some_iff.mp h
  have hx : o.store.certificate token = (x, out) := Option.some.inj h1
  have new : ∀ {t : Task}, (o.next, t) ∈ o.tasks → False := fun h => absurd (ho.tasks _ h) (Nat.lt_irrefl _)
  have none : ∀ {r : Result}, (o.next, r) ∈ o.returned → False := fun h =>
    absurd (ho.returned _ h) (Nat.lt_irrefl _)
  unfold Store.certificate at hx
  refine ⟨by rw [settle_next]; exact Nat.lt_succ_self _, fun t ht => ?_, fun c hc => ?_⟩
  · rcases mem_settle_tasks ht with ht | ⟨-, ht⟩
    · exact (new ht).elim
    · split at hx
      · rw [← (Prod.mk.inj hx).2] at ht; cases ht
      · rename_i r hl
        rw [← (Prod.mk.inj hx).2] at ht
        cases ht
        exact ⟨token, r, rfl, hl⟩
  · rcases mem_settle_returned hc with hc | ⟨-, hc⟩
    · exact (none hc).elim
    · split at hx
      · rw [← (Prod.mk.inj hx).2] at hc; cases hc
      · rw [← (Prod.mk.inj hx).2] at hc; cases hc

/-- The answer is the certificate of the record the call found. -/
theorem certificateHashed_ok {P : Platform} {s x : Store} {token : String} {r : StoredTunnel} {c : CertificateInfo}
    (h : s.certificateHashed P token r = (x, .done (.certificate (.ok c)))) : r.certificate = some c := by
  unfold Store.certificateHashed at h
  split at h
  · cases h
  · split at h
    · cases h
    · rename_i c' hc'
      cases h
      exact hc'

theorem Reads.step {P : Platform} {o o' : State} {l : Action} {k : ℕ} {record : Option StoredTunnel}
    (hk : Reads o k record) (h : (tunnelObject P).step o l = some o') : Reads o' k record := by
  obtain ⟨c, x, out, rfl, -, rfl⟩ | ⟨j, a, t, x, out, rfl, ht, h1, rfl⟩ | ⟨e, x, rfl, -, rfl⟩ := step_cases h
  · refine ⟨by rw [settle_next]; exact Nat.lt_succ_of_lt hk.lt, fun t ht => ?_, fun c hc => ?_⟩
    · rcases mem_settle_tasks ht with ht | ⟨hj, -⟩
      · exact hk.task t ht
      · exact absurd hk.lt (Nat.not_lt.mpr hj.ge)
    · rcases mem_settle_returned hc with hc | ⟨hj, -⟩
      · exact hk.result c hc
      · exact absurd hk.lt (Nat.not_lt.mpr hj.ge)
  · -- the call itself is resumed only to answer with what it found
    have own : j = k → ∃ token r, record = some r ∧ o.store.certificateHashed P token r = (x, out) := by
      rintro rfl
      obtain ⟨token, r, rfl, hr⟩ := hk.task t (task_mem ht)
      cases a with
      | ok => exact ⟨token, r, hr, Option.some.inj h1⟩
      | _ => cases h1
    refine ⟨by rw [settle_next]; exact hk.lt, fun t' ht' => ?_, fun c hc => ?_⟩
    · rcases mem_settle_tasks ht' with ht' | ⟨hj, rfl⟩
      · exact hk.task t' (mem_wake_tasks ht')
      · obtain ⟨token, r, -, hx⟩ := own hj.symm
        unfold Store.certificateHashed at hx
        split at hx
        · cases hx
        · split at hx <;> cases hx
    · rcases mem_settle_returned hc with hc | ⟨hj, rfl⟩
      · exact hk.result c hc
      · obtain ⟨token, r, hr, hx⟩ := own hj.symm
        exact ⟨r, hr, certificateHashed_ok hx⟩
  · exact ⟨hk.lt, hk.task, hk.result⟩

/-! ### What the clients save -/

/-- What the client saved belongs to the pending identity it completed: the
certificate was issued for its CSR, the private key is its own. -/
def Client.Matches (P : Platform) (c : Client) : Prop :=
  ∀ pending identity, c = .saved pending identity →
    P.issuedFor identity.certificate = pending.csr ∧ identity.privateKey = pending.privateKey

/-- A client receives a ready certificate, read from a record bound to another
CSR than its own. -/
def Mistaken (w : World) : World.Label → Prop
  | .client i .receive => ∃ pending k r c, w.clients[i]? = some (.reading pending k (some r)) ∧
      w.object.result k = some (.certificate (.ok c)) ∧ c.state.isReady = true ∧
      r.certificateCsr ≠ some pending.csr
  | _ => False

/-- What a client waits for was read from a record of the object, whose
certificate was issued for its CSR. -/
structure World.Sound (P : Platform) (w : World) : Prop where
  object : Reachable P w.object
  reads : ∀ pending k record, .reading pending k record ∈ w.clients →
    Reads w.object k record ∧ ∀ r, record = some r → r.Issued P

/-- The object takes a step, and the clients do not. -/
theorem World.Sound.object_step {P : Platform} {w : World} {l : Action} {o : State} (h : w.Sound P)
    (ho : (tunnelObject P).step w.object l = some o) : World.Sound P { w with object := o } :=
  ⟨h.object.step ho, fun pending k record hc => ⟨(h.reads pending k record hc).1.step ho,
    (h.reads pending k record hc).2⟩⟩

/-- A client becomes another that waits for no certificate, or for one that
was read from the object's record. -/
theorem World.Sound.set {P : Platform} {w : World} {i : ℕ} {c : Client} (h : w.Sound P)
    (hc : ∀ pending k record, c = .reading pending k record →
      Reads w.object k record ∧ ∀ r, record = some r → r.Issued P) :
    World.Sound P { w with clients := w.clients.set i c } := by
  refine ⟨h.object, fun pending k record hm => ?_⟩
  rcases List.mem_or_eq_of_mem_set hm with hm | hm
  · exact h.reads pending k record hm
  · exact hc pending k record hm.symm

theorem bound_ne_reading {pending p : PendingIdentity} {a : Except ApiError CertificateInfo} {k : ℕ}
    {record : Option StoredTunnel} : Client.bound pending a ≠ .reading p k record := by
  intro h
  unfold Client.bound at h
  split at h
  · cases h
  · split at h <;> cases h

theorem polled_ne_reading {pending p : PendingIdentity} {a : Except ApiError CertificateInfo} {k : ℕ}
    {record : Option StoredTunnel} : Client.polled pending a ≠ .reading p k record := by
  intro h
  unfold Client.polled at h
  split at h
  · split at h <;> cases h
  · cases h

theorem World.Sound.step {P : Platform} {w w' : World} {l : World.Label} (h : w.Sound P)
    (hstep : (world P).step w l = some w') : w'.Sound P := by
  cases l with
  | object a =>
    obtain ⟨o, ho, rfl⟩ := Option.map_eq_some_iff.mp hstep
    exact h.object_step ho
  | complete pending =>
    obtain rfl := Option.some.inj hstep
    refine ⟨h.object, fun p k record hm => ?_⟩
    rcases List.mem_append.mp hm with hm | hm
    · exact h.reads p k record hm
    · cases List.mem_singleton.mp hm
  | client i m =>
    obtain ⟨c, -, h1⟩ := Option.bind_eq_some_iff.mp hstep
    obtain ⟨⟨o, c'⟩, h2, rfl⟩ := Option.map_eq_some_iff.mp h1
    obtain ⟨pending, rfl, rfl, ho⟩ | ⟨pending, rfl, rfl, ho⟩ | ⟨pending, k, a, rfl, rfl, rfl⟩ |
      ⟨pending, k, record, r, a, rfl, rfl, -, -, rfl, rfl⟩ | ⟨pending, rfl, rfl, rfl⟩ := Client.step_cases h2
    · exact (h.object_step ho).set fun _ _ _ h => nomatch h
    · refine (h.object_step ho).set fun p k record hc => ?_
      obtain ⟨rfl, rfl, rfl⟩ := Client.reading.inj hc
      refine ⟨Reads.of_call (called h.object) ho, fun r hr => ?_⟩
      exact issued_of_reachable h.object (Durable.live_eq_some.mp hr).1
    · exact h.set fun _ _ _ h => absurd h bound_ne_reading
    · exact h.set fun _ _ _ h => absurd h polled_ne_reading
    · exact h.set fun _ _ _ h => nomatch h

/-! ### One step -/

theorem bound_matches (P : Platform) (pending : PendingIdentity) (a : Except ApiError CertificateInfo) :
    (Client.bound pending a).Matches P := by
  intro p identity h
  unfold Client.bound at h
  split at h
  · cases h
  · split at h <;> cases h

/-- A client that polled saves what it read, when that is ready. -/
theorem polled_matches_iff {P : Platform} {pending : PendingIdentity} {a : Except ApiError CertificateInfo} :
    (Client.polled pending a).Matches P ↔ ∀ c x ch expiry, a = .ok c → c.state = .ready x ch expiry →
      P.issuedFor x = pending.csr := by
  constructor
  · rintro h c x ch expiry rfl hst
    have hsaved : Client.polled pending (.ok c) = .saved pending (Client.identityOf pending x ch expiry) := by
      simp [Client.polled, hst]
    exact (h _ _ hsaved).1
  · intro h p identity hs
    cases a with
    | error e => cases hs
    | ok c =>
      simp only [Client.polled] at hs
      split at hs
      · rename_i x ch expiry hst
        cases hs
        exact ⟨h c x ch expiry rfl hst, rfl⟩
      · cases hs
      · cases hs
      · cases hs

/-- Client `i` becomes `c`; the others match. -/
theorem matches_set_iff {P : Platform} {w : World} {i : ℕ} {c c' : Client} (hi : w.clients[i]? = some c)
    (hm : ∀ c ∈ w.clients, c.Matches P) : (∀ x ∈ w.clients.set i c', x.Matches P) ↔ c'.Matches P := by
  obtain ⟨hlt, -⟩ := List.getElem?_eq_some_iff.mp hi
  constructor
  · exact fun h => h _ (List.mem_set hlt c')
  · intro h x hx
    rcases List.mem_or_eq_of_mem_set hx with hx | rfl
    · exact hm x hx
    · exact h

/-- A ready certificate that a client receives matches exactly when the record
it was read from was bound to the client's CSR. -/
theorem received_matches_iff {P : Platform} {w : World} {i k : ℕ} {pending : PendingIdentity}
    {record : Option StoredTunnel} {res : Result} {a : Except ApiError CertificateInfo} (h : w.Sound P)
    (hi : w.clients[i]? = some (.reading pending k record)) (hres : w.object.result k = some res)
    (ha : Api.getCertificate pending.id res = some a) :
    (Client.polled pending a).Matches P ↔ ¬ Mistaken w (.client i .receive) := by
  obtain ⟨hreads, hissued⟩ := h.reads pending k record (List.mem_of_getElem? hi)
  rw [polled_matches_iff]
  constructor
  · rintro hmatch ⟨p, k', r, c, hi', hres', hready, hne⟩
    obtain ⟨rfl, rfl, rfl⟩ := Client.reading.inj (Option.some.inj (hi.symm.trans hi'))
    obtain rfl := Option.some.inj (hres.symm.trans hres')
    obtain rfl := Option.some.inj ha
    obtain ⟨r', hr', hc⟩ := hreads.result c (result_mem hres)
    obtain rfl := Option.some.inj hr'
    match hst : c.state with
    | .ready x ch expiry =>
      refine hne ?_
      rw [hissued _ rfl c x ch expiry hc hst, hmatch c x ch expiry rfl hst]
    | .challenge _ _ | .issuing | .failed _ =>
      rw [hst] at hready
      cases hready
  · rintro hno c x ch expiry rfl hst
    obtain rfl := Api.getCertificate_ok ha
    obtain ⟨r, rfl, hc⟩ := hreads.result c (result_mem hres)
    have hcsr := hissued r rfl c x ch expiry hc hst
    by_contra hne
    refine hno ⟨pending, k, r, c, hi, hres, by rw [hst]; rfl, fun h => hne ?_⟩
    exact Option.some.inj (hcsr.symm.trans h)

theorem step_matches_iff {P : Platform} {w w' : World} {l : World.Label} (h : w.Sound P)
    (hm : ∀ c ∈ w.clients, c.Matches P) (hstep : (world P).step w l = some w') :
    (∀ c ∈ w'.clients, c.Matches P) ↔ ¬ Mistaken w l := by
  cases l with
  | object a =>
    obtain ⟨o, -, rfl⟩ := Option.map_eq_some_iff.mp hstep
    exact iff_of_true hm fun h => h
  | complete pending =>
    obtain rfl := Option.some.inj hstep
    refine iff_of_true (fun c hc => ?_) fun h => h
    rcases List.mem_append.mp hc with hc | hc
    · exact hm c hc
    · obtain rfl := List.mem_singleton.mp hc
      exact fun _ _ h => nomatch h
  | client i m =>
    obtain ⟨c, hi, h1⟩ := Option.bind_eq_some_iff.mp hstep
    obtain ⟨⟨o, c'⟩, h2, rfl⟩ := Option.map_eq_some_iff.mp h1
    -- a client that does not receive a certificate is not mistaken, and saves nothing
    have other : (∀ pending k record, c = .reading pending k record → m ≠ .receive) →
        ¬ Mistaken w (.client i m) := by
      intro hno hmis
      cases m with
      | receive =>
        obtain ⟨pending, k, r, x, hi', -⟩ := hmis
        exact hno _ _ _ (Option.some.inj (hi.symm.trans hi')) rfl
      | _ => exact hmis
    refine (matches_set_iff hi hm).trans ?_
    obtain ⟨pending, rfl, rfl, -⟩ | ⟨pending, rfl, rfl, -⟩ | ⟨pending, k, a, rfl, rfl, rfl⟩ |
      ⟨pending, k, record, r, a, rfl, rfl, hres, ha, rfl, rfl⟩ | ⟨pending, rfl, rfl, rfl⟩ := Client.step_cases h2
    · exact iff_of_true (fun _ _ h => nomatch h) (other fun _ _ _ h => nomatch h)
    · exact iff_of_true (fun _ _ h => nomatch h) (other fun _ _ _ h => nomatch h)
    · exact iff_of_true (bound_matches P pending a) (other fun _ _ _ h => nomatch h)
    · exact received_matches_iff h hi hres ha
    · exact iff_of_true (fun _ _ h => nomatch h) (other fun _ _ _ _ h => nomatch h)

/-! ### Runs -/

/-- The states the clients and the object reach. -/
abbrev World.Reachable (P : Platform) : World → Prop := Lts.Reachable (world P) World.Initial

theorem World.sound_of_reachable {P : Platform} {w : World} (h : World.Reachable P w) : w.Sound P := by
  refine h.invariant ?_ fun _ _ _ hw hstep => hw.step hstep
  rintro ⟨o, cs⟩ ⟨hinit, hcs⟩
  obtain rfl : cs = [] := hcs
  exact ⟨.of_init hinit, by simp⟩

/-- Along a run of the clients and the object, every client that saves an
identity saves a certificate for its own CSR exactly when none receives a ready
certificate from a record bound to another. -/
theorem provision_iff {P : Platform} {w w' : World} {es : List (Lts.Event World World.Label)}
    (h : World.Reachable P w) (hm : ∀ c ∈ w.clients, c.Matches P) (hr : Lts.Run (world P) w es w') :
    (∀ e ∈ es, ∀ c ∈ e.after.clients, c.Matches P) ↔ ∀ e ∈ es, ¬ Mistaken e.before e.label :=
  hr.safe_iff (J := fun w => World.Reachable P w ∧ ∀ c ∈ w.clients, c.Matches P) (A := fun _ _ => True)
    (fun _ hw _ hstep hG => ⟨hw.1.step hstep, hG⟩)
    (fun _ hw _ hstep => step_matches_iff (World.sound_of_reachable hw.1) hw.2 hstep)
    (fun _ _ => trivial) ⟨h, hm⟩

/-! ### Two clients, two keys -/

/-- A pending identity of the tunnel, with its key and its CSR. -/
def pendingOf (key csr : String) : PendingIdentity where
  id := "t"
  hostname := "t.d"
  token := "tok"
  privateKey := key
  csr := csr

/-- A client begins to bind its CSR; the object answers call `k` of it as far
as the answers go. -/
def begins (i k : ℕ) (key csr : String) (answers : List Answer) : List World.Label :=
  .complete (pendingOf key csr) :: .client i .request ::
    answers.map (fun a => .object (.resume k a)) ++ [.client i .receive]

/-- Client `i` asks for the certificate, by call `k`, and the object answers. -/
def polls (i k : ℕ) : List World.Label := [.client i .request, .object (.resume k .ok)]

/-- Client 0 binds "csr", and the object issues it. -/
def issuedRun : List World.Label :=
  .object initializing ::
    begins 0 1 "key" "csr" [.ok, .drawn "1" "", .error "instance.not_found", .accepted, .ok]

/-- Client 1 binds "csr2" meanwhile, and is told that an issuance is in
progress; then client `i` asks for the certificate that was delivered. -/
def polledRun (i : ℕ) : List World.Label :=
  issuedRun ++ begins 1 2 "key2" "csr2" [.ok, .drawn "2" ""] ++
    (delivering "1" "csr" (40 * DAY_MS)).map .object ++ polls i 3

/-- The world before anything is called. -/
def noWorld : World := ⟨initial 0, []⟩

set_option maxRecDepth 4000 in
/-- The client that is issued for reads its own certificate. -/
theorem polledRun_own : ∃ w w' r, (world plainPlatform).exec noWorld (polledRun 0) = some w ∧
    (world plainPlatform).step w (.client 0 .receive) = some w' ∧
    w.clients = [.reading (pendingOf "key" "csr") 3 (some r), .polling (pendingOf "key2" "csr2")] ∧
    r.certificateCsr = some "csr" ∧
    w'.clients[0]? = some (.saved (pendingOf "key" "csr")
      (Client.identityOf (pendingOf "key" "csr") "csr" "" (40 * DAY_MS))) := by
  refine ⟨_, _, _, rfl, rfl, rfl, ?_, ?_⟩
  · rfl
  · rfl

set_option maxRecDepth 4000 in
/-- The other client reads the same certificate. -/
theorem polledRun_other : ∃ w w' r, (world plainPlatform).exec noWorld (polledRun 1) = some w ∧
    (world plainPlatform).step w (.client 1 .receive) = some w' ∧
    w.clients = [.polling (pendingOf "key" "csr"), .reading (pendingOf "key2" "csr2") 3 (some r)] ∧
    w'.clients[1]? = some (.saved (pendingOf "key2" "csr2")
      (Client.identityOf (pendingOf "key2" "csr2") "csr" "" (40 * DAY_MS))) := by
  refine ⟨_, _, _, rfl, rfl, rfl, ?_⟩
  rfl

theorem reachable_of_exec {ls : List World.Label} {w : World} (h : (world plainPlatform).exec noWorld ls = some w) :
    World.Reachable plainPlatform w :=
  .of_exec ⟨⟨0, rfl⟩, rfl⟩ h

theorem provision_own : ∃ w w' es identity, World.Reachable plainPlatform w ∧
    Lts.Run (world plainPlatform) w es w' ∧
    w'.clients[0]? = some (.saved (pendingOf "key" "csr") identity) ∧
    ∀ e ∈ es, ∀ c ∈ e.after.clients, c.Matches plainPlatform := by
  obtain ⟨w, w', r, hw, hstep, hc, hcsr, hsaved⟩ := polledRun_own
  have hnone : ∀ c ∈ w.clients, c.Matches plainPlatform := by
    rw [hc]
    simp [Client.Matches]
  have hiff := provision_iff (reachable_of_exec hw) hnone (.single hstep)
  refine ⟨w, w', _, _, reachable_of_exec hw, .single hstep, hsaved, hiff.mpr fun e he => ?_⟩
  obtain rfl := List.mem_singleton.mp he
  rintro ⟨pending, k, r', c, hi, -, -, hne⟩
  have hi : w.clients[0]? = some (.reading pending k (some r')) := hi
  rw [hc] at hi
  obtain ⟨rfl, -, hr⟩ := Client.reading.inj (Option.some.inj hi)
  obtain rfl := Option.some.inj hr
  exact hne hcsr

theorem other_key_saved : ¬ ∀ (w w' : World) (es : List (Lts.Event World World.Label)),
    World.Reachable plainPlatform w → (∀ c ∈ w.clients, c.Matches plainPlatform) →
    Lts.Run (world plainPlatform) w es w' → ∀ e ∈ es, ∀ c ∈ e.after.clients, c.Matches plainPlatform := by
  intro h
  obtain ⟨w, w', r, hw, hstep, hc, hsaved⟩ := polledRun_other
  have hnone : ∀ c ∈ w.clients, c.Matches plainPlatform := by
    rw [hc]
    simp [Client.Matches]
  have hall := h w w' _ (reachable_of_exec hw) hnone (.single hstep) _ (List.mem_singleton.mpr rfl)
  have hmatch := (hall _ (List.mem_of_getElem? hsaved) _ _ rfl).1
  exact absurd hmatch (by decide)

end ShuvTunnel
