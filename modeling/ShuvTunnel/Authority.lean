/-
# Nothing happens to a tunnel without its token

Whatever a run of the object leads to (a CSR on record, a workflow and what it
issues, a deletion, an attached socket and the routes it holds, a connection,
an answer that is not a refusal) goes back to a call of that run that brought a
token with the hash of a founding. The handlers check the token against a
record they read before they waited, and other handlers run meanwhile; what a
suspended handler goes back to is part of the invariant.

Key definitions: `OpenedOn`, `Vouches`, `Result.Backed`, `Authorized`.
Key theorems: `Touch.vouches`, `resume_backed`, `effects_authorized`.
-/
import ShuvTunnel.Evidence
import ShuvTunnel.Handshake
import ShuvTunnel.Reset
import ShuvTunnel.Returns

namespace ShuvTunnel

open Coop

variable {P : Platform} {es : Events}

/-! ### The sockets and the channels -/

/-- If it is attached, it asked to attach with a trusted token, for the routes it
has. -/
def Vouched (P : Platform) (es : Events) (x : Socket) : Prop :=
  x.attached = true → ∃ routes, Presented P es x.id routes ∧ x.routes = Store.requestedRoutes routes

/-- The connection was opened in a step of the run, when its socket was attached
and vouched for. -/
def OpenedOn (P : Platform) (es : Events) (c : Channel) : Prop :=
  ∃ e ∈ es, e.before.store.bridges.connection c.key = none ∧
    (∃ d, e.after.store.bridges.connection c.key = some d ∧ d.bridge = c.bridge) ∧
    ∃ x ∈ e.before.store.bridges.sockets, x.id = c.bridge ∧ x.attached = true ∧ Vouched P es x

/-- Every socket is vouched for, and every connection was opened on one that was
attached. -/
structure Vouches (P : Platform) (es : Events) (b : Bridges) : Prop where
  sockets : ∀ x ∈ b.sockets, Vouched P es x
  connections : ∀ c ∈ b.connections, OpenedOn P es c

theorem Vouched.mono {fs : Events} (h : es ⊆ fs) {x : Socket} (hx : Vouched P es x) : Vouched P fs x := by
  intro ha
  obtain ⟨routes, hp, hr⟩ := hx ha
  exact ⟨routes, hp.mono h, hr⟩

theorem Vouches.mono {fs : Events} (h : es ⊆ fs) {b : Bridges} (hb : Vouches P es b) : Vouches P fs b := by
  refine ⟨fun x hx => (hb.sockets x hx).mono h, fun c hc => ?_⟩
  obtain ⟨e, he, hnone, hnew, x, hx, hid, ha, hv⟩ := hb.connections c hc
  exact ⟨e, h he, hnone, hnew, x, hx, hid, ha, hv.mono h⟩

section Sockets

variable {b b' : Bridges}

theorem Vouches.updateSocket (hb : Vouches P es b) (id : ℕ) {f : Socket → Socket}
    (hf : ∀ x ∈ b.sockets, x.id = id → Vouched P es (f x)) : Vouches P es (b.updateSocket id f) := by
  refine ⟨fun x hx => ?_, hb.connections⟩
  obtain ⟨y, hy, rfl⟩ := List.mem_map.mp hx
  by_cases hid : y.id = id
  · rw [if_pos hid]
    exact hf y hy hid
  · rw [if_neg hid]
    exact hb.sockets y hy

theorem Vouched.close {x : Socket} (h : Vouched P es x) : Vouched P es x.close := h

theorem Vouches.close (hb : Vouches P es b) (id : ℕ) : Vouches P es (b.close id) :=
  hb.updateSocket id fun x hx _ => (hb.sockets x hx).close

theorem Vouches.sendAll (hb : Vouches P es b) {id : ℕ} {ms : List ServerMessage}
    (h : Store.sendAll P b id ms = some b') : Vouches P es b' := by
  by_cases ho : b.isOpen id = true
  · rw [Bridges.sendAll_open ho] at h
    obtain rfl := Option.some.inj h
    exact hb.updateSocket id fun x hx _ => hb.sockets x hx
  · rw [Bridges.sendAll_shut (by simpa using ho) h]
    exact hb

theorem Vouches.send (hb : Vouches P es b) {id : ℕ} {m : ServerMessage} (h : b.send P id m = some b') :
    Vouches P es b' :=
  hb.sendAll (Bridges.sendAll_singleton h)

/-- The sockets are those of before, and so are the connections. -/
theorem Vouches.channels (hb : Vouches P es b) (hs : b'.sockets = b.sockets)
    (hc : ∀ c' ∈ b'.connections, ∃ c ∈ b.connections, c'.key = c.key ∧ c'.bridge = c.bridge) :
    Vouches P es b' := by
  refine ⟨hs ▸ hb.sockets, fun c' hc' => ?_⟩
  obtain ⟨c, hc, hkey, hbridge⟩ := hc c' hc'
  rw [OpenedOn, hkey, hbridge]
  exact hb.connections c hc

theorem Vouches.finish (hb : Vouches P es b) (key : ℕ) (error : Bool) : Vouches P es (b.finish key error) :=
  hb.channels (b.finish_sockets key error) (finish_bridges b key error)

theorem Vouches.finishAll (hb : Vouches P es b) (p : Channel → Bool) (error : Bool) :
    Vouches P es (b.finishAll p error) := by
  unfold Bridges.finishAll
  generalize b.channels.map (·.2) = keys
  induction keys generalizing b with
  | nil => exact hb
  | cons key keys ih =>
    rw [List.foldl_cons]
    split
    · exact ih (hb.finish key error)
    · exact ih hb

end Sockets

/-- A message to attach leaves the handler that checks its token. -/
theorem message_attaches {s s' : Store} {w : ℕ} {m : Message} {u : Task}
    (h : s.webSocketMessage P w m = some (s', .await u)) :
    ∃ token routes, u = .attachRecord w token routes ∧ m.Attaches token routes := by
  obtain ⟨x, -, hm⟩ := Option.map_eq_some_iff.mp h
  have done : ∀ {y : Store} {r : Result}, (y, Outcome.done r) = (s', .await u) →
      ∃ token routes, u = .attachRecord w token routes ∧ m.Attaches token routes := fun h => by
    cases (Prod.mk.inj h).2
  split at hm
  · exact done hm
  split at hm
  · split at hm
    · exact done hm
    · unfold Store.dataFrame at hm
      split at hm
      · exact done hm
      · split at hm
        · split at hm <;> exact done hm
        · exact done hm
  rename_i value
  split at hm
  · exact done hm
  rename_i type control hparsed
  obtain ⟨control', hcontrol, hmap⟩ := Option.bind_eq_some_iff.mp hparsed
  obtain ⟨type', htype, heq⟩ := Option.map_eq_some_iff.mp hmap
  obtain ⟨rfl, rfl⟩ := Prod.mk.inj heq
  split at hm
  · unfold Store.unattachedControl at hm
    split at hm
    · rename_i token htoken
      split at hm
      · exact done hm
      · rename_i hattach
        obtain ⟨-, hu⟩ := Prod.mk.inj hm
        cases hu
        exact ⟨token, _, rfl, value, control', rfl, hcontrol, by rw [htype, not_not.mp hattach], htoken, rfl⟩
    · exact done hm
  · unfold Store.attachedControl at hm
    split at hm
    · split at hm <;> exact done hm
    · split at hm <;> exact done hm
    · split at hm <;> exact done hm
    · exact done hm

theorem Attested.trusted {r : StoredTunnel} (h : Attested P es r) {token : String}
    (ht : P.hashToken token = r.tokenHash) : Trusted P es token :=
  ⟨r.id, r.hostname, ht ▸ h.founded⟩

/-- The segment of a handler that is backed leaves sockets and connections
vouched for; it is a step of the run. -/
theorem Touch.vouches {b b' : Bridges} {s : Store} {c : Cause} {o : Outcome Task Result} {k : ℕ}
    (h : Touch P b c b' o) (hb : Vouches P es b) (hown : b.Owned) (hc : c.Backed P es s k)
    (he : ∃ e ∈ es, e.before.store.bridges = b ∧ e.after.store.bridges = b') : Vouches P es b' := by
  -- a channel that is entered has a key that was free, and goes to a socket that claims its route
  have entered : ∀ {route : String} {bridge : Socket} {conn sequence : ℕ},
      b.sockets.find? (fun w => w.claims route) = some bridge →
      b'.connections = (enterChannel b bridge.id conn sequence).connections →
      Vouches P es (enterChannel b bridge.id conn sequence) := by
    intro route bridge conn sequence hfind hafter
    have hmem := List.mem_of_find?_eq_some hfind
    have hclaims := List.find?_some hfind
    have hatt : bridge.attached = true := (claims_iff.mp hclaims).1
    refine ⟨hb.sockets, fun x hx => ?_⟩
    rcases List.mem_append.mp hx with hx | hx
    · exact hb.connections x hx
    · rw [List.mem_singleton.mp hx]
      obtain ⟨e, he, rfl, rfl⟩ := he
      refine ⟨e, he, hown.connection_next, ⟨_, ?_, rfl⟩, bridge, hmem, rfl, hatt, hb.sockets bridge hmem⟩
      rw [Bridges.connection, hafter]
      exact Bridges.enterChannel_connection.trans (if_pos ⟨rfl, hown.connection_next⟩)
  cases h with
  | still _ _ => exact hb
  | @accepted _ _ position =>
    refine ⟨fun x hx => ?_, hb.connections⟩
    rcases List.mem_append.mp hx with hx | hx
    · exact hb.sockets x (List.mem_of_mem_take hx)
    · rcases List.mem_cons.mp hx with rfl | hx
      · exact fun ha => nomatch ha
      · exact hb.sockets x (List.mem_of_mem_drop hx)
  | closed _ => exact hb.close _
  | refused _ hs => exact (hb.send hs).close _
  | @attached w token uuid session routes r b₁ b' o ha hb₁ hs _ =>
    obtain ⟨⟨m, hm, hx⟩, hr⟩ := hc
    have hp : Presented P es w routes := ⟨k, m, token, hm, hx, hr.trusted (attachAccepts_token ha)⟩
    have h₁ : Vouches P es b₁ := hb₁ ▸ hb.updateSocket w fun x _ hid _ => ⟨routes, hid ▸ hp, rfl⟩
    rcases hs with rfl | hs
    · exact h₁
    · exact h₁.send hs
  | ponged hs => exact hb.send hs
  | finished _ _ => exact hb.finish _ _
  | written _ _ _ =>
    refine hb.channels rfl (updateConnection_bridges b _ (f := fun c => if c.writer = .active then
      { c with written := c.written ++ [_] } else c) fun c => ?_)
    split <;> exact ⟨rfl, rfl⟩
  | @closeHandled w _ b₁ _ _ _ _ hb₁ hs =>
    have h₁ : Vouches P es b₁ := hb₁ ▸ hb.updateSocket w fun x hx _ => hb.sockets x hx
    rcases hs with ⟨rfl, -⟩ | ⟨rfl, -⟩
    · exact h₁
    · exact h₁.finishAll _ _
  | shutDown =>
    have hclosed : Vouches P es { b with sockets := b.sockets.map Socket.close } := by
      refine ⟨fun x hx => ?_, hb.connections⟩
      obtain ⟨y, hy, rfl⟩ := List.mem_map.mp hx
      exact (hb.sockets y hy).close
    have hall := hclosed.finishAll (fun _ => true) true
    exact ⟨hall.sockets, hall.connections⟩
  | opened _ _ _ _ hfind _ hs => exact (entered hfind (Bridges.sameChannels_sendAll hs).connections).sendAll hs
  | openThrown hfind _ _ => exact entered hfind rfl
  | uploaded _ hs => exact hb.send hs
  | uploadEnded _ hs => exact hb.send hs
  | uploadFailed _ _ hs =>
    rcases hs with ⟨rfl, -⟩ | ⟨b₁, hs, rfl⟩
    · exact hb
    · exact (hb.send hs).finish _ _
  | settled _ _ => exact hb

theorem environment_vouches {s s' : Store} {e : Event} (h : environment P s e = some s')
    (hb : Vouches P es s.bridges) : Vouches P es s'.bridges := by
  cases e with
  | tick n =>
    obtain rfl := Option.some.inj h
    exact hb
  | peerClose w =>
    obtain rfl := Option.some.inj h
    exact hb.close w
  | forget w =>
    rw [environment] at h
    split at h
    · cases h
    · obtain rfl := Option.some.inj h
      exact ⟨fun x hx => hb.sockets x (List.mem_filter.mp hx).1, hb.connections⟩
  | workflow id e =>
    obtain ⟨d, -, rfl⟩ := Option.map_eq_some_iff.mp h
    exact hb

/-! ### The answers -/

/-- The answer of call `k`: unless it refuses, the call brought a token that is
trusted; the tunnel it tells of is the one founded with it. -/
def Result.Backed (P : Platform) (es : Events) (k : ℕ) : Result → Prop
  | .info (.ok tunnel) =>
    ∃ token, Made es k (.info token) ∧ Founded es tunnel.id tunnel.hostname (P.hashToken token)
  | .certificate (.ok _) | .certificate .noCertificate =>
    ∃ token, Made es k (.certificate token) ∧ Trusted P es token
  | .bindCertificate .notFound | .bindCertificate .unauthorized => True
  | .bindCertificate _ => ∃ token csr, Made es k (.bindCertificate token csr) ∧ Trusted P es token
  | .remove .ok => ∃ token, Made es k (.remove token) ∧ Trusted P es token
  | _ => True

theorem Result.Backed.mono {fs : Events} (h : es ⊆ fs) {k : ℕ} {r : Result} (hr : r.Backed P es k) :
    r.Backed P fs k := by
  cases r with
  | info x =>
    cases x with
    | ok tunnel =>
      obtain ⟨token, hm, hf⟩ := hr
      exact ⟨token, hm.mono h, hf.mono h⟩
    | _ => trivial
  | certificate x =>
    cases x with
    | ok _ | noCertificate =>
      obtain ⟨token, hm, ht⟩ := hr
      exact ⟨token, hm.mono h, ht.mono h⟩
    | _ => trivial
  | bindCertificate x =>
    cases x with
    | notFound | unauthorized => trivial
    | _ =>
      obtain ⟨token, csr, hm, ht⟩ := hr
      exact ⟨token, csr, hm.mono h, ht.mono h⟩
  | remove x =>
    cases x with
    | ok =>
      obtain ⟨token, hm, ht⟩ := hr
      exact ⟨token, hm.mono h, ht.mono h⟩
    | _ => trivial
  | _ => trivial

theorem Result.backed_of_silent {r : Result} (h : r.silent) {k : ℕ} : r.Backed P es k := by
  cases r with
  | void | thrown _ => trivial
  | _ => exact h.elim

theorem Result.backed_of_bind {r : Result} (h : r.ofBind) {k : ℕ} {token csr : String}
    (hm : Made es k (.bindCertificate token csr)) (ht : Trusted P es token) : r.Backed P es k := by
  cases r with
  | bindCertificate x => cases x <;> first | trivial | exact ⟨token, csr, hm, ht⟩
  | thrown _ => trivial
  | _ => exact h.elim

/-- What a resumed handler returns, it returns to a call that was entitled to it. -/
theorem resume_backed {s s' : Store} {t : Task} {a : Answer} {r : Result} {k : ℕ}
    (h : resume P s t a = some (s', .done r)) (ht : t.Backed P es k) : r.Backed P es k := by
  have bound : ∀ {e : Ensure}, t.ensure = some e → Returns Result.ofBind (.done r) → r.Backed P es k := by
    intro e he hy
    obtain ⟨⟨token, hm, hhash⟩, hr⟩ := ht.ensure he
    exact Result.backed_of_bind (hy r rfl) hm (hr.trusted hhash)
  unfold resume at h
  split at h
  · rename_i token record
    obtain ⟨hm, hr⟩ := ht
    have h : s.infoHashed P token record = (s', .done r) := Option.some.inj h
    unfold Store.infoHashed at h
    split at h
    · cases h
      trivial
    · rename_i hhash
      cases h
      exact ⟨token, hm, (not_not.mp hhash) ▸ hr.founded⟩
  · rename_i token record
    obtain ⟨hm, hr⟩ := ht
    have h : s.certificateHashed P token record = (s', .done r) := Option.some.inj h
    unfold Store.certificateHashed at h
    split at h
    · cases h
      trivial
    · rename_i hhash
      have htrust := hr.trusted (not_not.mp hhash)
      split at h
      · cases h
        exact ⟨token, hm, htrust⟩
      · cases h
        exact ⟨token, hm, htrust⟩
  · rename_i token record
    obtain ⟨hm, hr⟩ := ht
    have h : s.removeHashed P token record = (s', .done r) := Option.some.inj h
    unfold Store.removeHashed at h
    split at h
    · cases h
      trivial
    · rename_i hhash
      cases h
      exact ⟨token, hm, hr.trusted (not_not.mp hhash)⟩
  · rename_i token csr record
    obtain ⟨hm, hr⟩ := ht
    have h : s.bindHashed P token csr record = (s', .done r) := Option.some.inj h
    unfold Store.bindHashed at h
    split at h
    · cases h
      trivial
    · rename_i hhash
      split at h
      · cases h
        exact ⟨token, csr, hm, hr.trusted (not_not.mp hhash)⟩
      · cases h
  · obtain ⟨⟨token, hm, hhash⟩, hr⟩ := ht
    exact Result.backed_of_bind (bindVerified_returns h r rfl) hm (hr.trusted hhash)
  · exact bound rfl (ensureGot_returns h)
  · exact bound rfl (ensureStatus_returns h)
  · exact bound rfl (ensureCreated_returns h)
  · exact bound rfl (ensureRestarted_returns h)
  · exact Result.backed_of_silent (renewalCreated_returns h r rfl)
  · have h := Option.some.inj h
    unfold Store.attachRead at h
    split at h
    · exact Result.backed_of_silent (Returns.of_eq h (attachError_returns P s _ _) r rfl)
    · cases h
  · exact Result.backed_of_silent (attachHashed_returns h r rfl)
  · exact Result.backed_of_silent (connectHello_returns h r rfl)
  · exact Result.backed_of_silent (upload_returns h r rfl)
  · exact Result.backed_of_silent (settle_returns h r rfl)
  · cases h

/-- A call that is answered at once is refused, or answered nothing. -/
theorem start_backed {s s' : Store} {c : Call} {r : Result} {k : ℕ} (h : start P s c = some (s', .done r)) :
    r.Backed P es k := by
  cases c with
  | initialized id hostname tokenHash =>
    cases Option.some.inj h
    trivial
  | info token | certificate token | bindCertificate token csr | remove token =>
    have h := Option.some.inj h
    simp only [Store.info, Store.certificate, Store.bindCertificate, Store.remove] at h
    split at h
    · cases h
      trivial
    · cases h
  | alarm uuid => exact Result.backed_of_silent (alarm_returns h r rfl)
  | fetch upgrade protocols position =>
    have h : s.fetch upgrade protocols position = (s', .done r) := Option.some.inj h
    unfold Store.fetch at h
    split at h
    · cases h
      trivial
    · split at h
      · cases h
        trivial
      · split at h <;> (cases h; trivial)
  | webSocketMessage w m => exact Result.backed_of_silent (message_returns h r rfl)
  | webSocketClose w => exact Result.backed_of_silent (close_returns h r rfl)
  | webSocketError w =>
    obtain ⟨x, -, h⟩ := Option.map_eq_some_iff.mp h
    cases h
    trivial
  | connect => cases Option.some.inj h

/-! ### Every run -/

/-- What every step keeps, given what every reachable state has. -/
structure Backs (P : Platform) (es : Events) (s : State) : Prop where
  durable : Vetted P es s.store.durable
  bridges : Vouches P es s.store.bridges
  tasks : ∀ p ∈ s.tasks, p.2.Backed P es p.1
  returned : ∀ p ∈ s.returned, p.2.Backed P es p.1

theorem Backs.mono {fs : Events} (h : es ⊆ fs) {s : State} (hs : Backs P es s) : Backs P fs s :=
  ⟨hs.durable.mono h, hs.bridges.mono h, fun p hp => (hs.tasks p hp).mono h, fun p hp => (hs.returned p hp).mono h⟩

/-- A segment that leaves the store in order, and its handler with a task or a
result that is backed. -/
theorem Backs.settle {s : State} {k : ℕ} {x : Store} {o : Outcome Task Result} (hd : Vetted P es x.durable)
    (hb : Vouches P es x.bridges) (ht : ∀ p ∈ s.tasks, p.2.Backed P es p.1)
    (hr : ∀ p ∈ s.returned, p.2.Backed P es p.1) (hu : ∀ u, o = .await u → u.Backed P es k)
    (ho : ∀ r, o = .done r → r.Backed P es k) : Backs P es (s.settle k x o) := by
  refine ⟨by rw [settle_store]; exact hd, by rw [settle_store]; exact hb, fun p hp => ?_, fun p hp => ?_⟩
  · rcases mem_settle_tasks hp with hp | ⟨rfl, hawait⟩
    · exact ht p hp
    · exact hu p.2 hawait
  · rcases mem_settle_returned hp with hp | ⟨rfl, hdone⟩
    · exact hr p hp
    · exact ho p.2 hdone

/-- The first segment of a call leaves the record and the workflows vetted, and
the handler it leaves is backed. -/
theorem start_vetted {s s' : Store} {c : Call} {o : Outcome Task Result} {k : ℕ} (h : start P s c = some (s', o))
    (hd : Vetted P es s.durable) (hc : (Cause.call c).Backed P es s k) :
    Vetted P es s'.durable ∧ ∀ u, o = .await u → u.Backed P es k := by
  by_cases hinit : ∃ id hostname tokenHash, c = .initialized id hostname tokenHash
  · obtain ⟨id, hostname, tokenHash, rfl⟩ := hinit
    cases Option.some.inj h
    exact ⟨initializeTunnel_vetted hd (hc.2 id hostname tokenHash rfl), fun _ hu => by cases hu⟩
  · refine (start_effect h).vetted hd hc (fun id hostname tokenHash he => hinit ⟨_, _, _, Cause.call.inj he⟩)
      fun w m token routes hm ho => ?_
    cases hm
    subst ho
    obtain ⟨token', routes', hu, ha⟩ := message_attaches h
    cases hu
    exact ha

theorem Backs.step {s s' : State} {l : Action} (hs : Backs P es s) (hr : Reachable P s)
    (h : (tunnelObject P).step s l = some s') : Backs P (es ++ [⟨s, l, s'⟩]) s' := by
  have hnow := hs.mono (List.subset_append_left es [⟨s, l, s'⟩])
  have hmem : (⟨s, l, s'⟩ : Lts.Event State Action) ∈ es ++ [⟨s, l, s'⟩] := by simp
  have hown := owned_of_reachable hr
  obtain ⟨c, x, o, rfl, h1, hs'⟩ | ⟨k, a, t, x, o, rfl, ht, h1, hs'⟩ | ⟨e, x, rfl, h1, hs'⟩ := step_cases h
  · have hc : (Cause.call c).Backed P (es ++ [⟨s, .call c, s'⟩]) s.store s.next :=
      ⟨⟨_, hmem, rfl, rfl⟩, fun id hostname tokenHash he hl => ⟨_, hmem, by rw [he], hl⟩⟩
    have h1 : start P s.store c = some (x, o) := h1
    have hstore : s'.store = x := by rw [hs', settle_store]
    have hb := (start_touch h1).vouches hnow.bridges hown hc ⟨_, hmem, rfl, congrArg Store.bridges hstore⟩
    obtain ⟨hd, hu⟩ := start_vetted h1 hnow.durable hc
    rw [hs'] at hd hb hu hnow ⊢
    exact .settle hd hb hnow.tasks hnow.returned hu fun r ho => start_backed (ho ▸ h1)
  · have htask := hnow.tasks _ (task_mem ht)
    have h1 : resume P s.store t a = some (x, o) := h1
    have hstore : s'.store = x := by rw [hs', settle_store]
    have hv := (resume_effect h1).vetted hnow.durable htask (fun _ _ _ h => nomatch h) fun _ _ _ _ h => nomatch h
    have hb := (resume_touch h1).vouches (s := s.store) hnow.bridges hown htask
      ⟨_, hmem, rfl, congrArg Store.bridges hstore⟩
    have hr : ∀ r, o = .done r → r.Backed P (es ++ [⟨s, .resume k a, s'⟩]) k :=
      fun r ho => resume_backed (ho ▸ h1) htask
    have hw : ∀ p ∈ (s.wake k).tasks, p.2.Backed P (es ++ [⟨s, .resume k a, s'⟩]) p.1 :=
      fun p hp => hnow.tasks p (mem_wake_tasks hp)
    have hret := hnow.returned
    rw [hs'] at hv hb hr hw hret ⊢
    exact .settle hv.1 hb hw hret hv.2 hr
  · have hd := (environment_change h1).vetted hnow.durable (books_of_reachable hr).store
      fun id w i st he hi hst ho => ⟨_, hmem, w, i, by rw [he], hi, hst, ho⟩
    have hb := environment_vouches h1 hnow.bridges
    have ht := hnow.tasks
    have hr := hnow.returned
    rw [hs'] at hd hb ht hr ⊢
    exact ⟨hd, hb, ht, hr⟩

end ShuvTunnel
