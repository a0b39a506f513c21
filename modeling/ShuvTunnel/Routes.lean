/-
# A route has one bridge

Two open sockets that are attached never hold a common route. The attach
handler has read the socket's attachment two suspensions before it writes it,
but it looks for a conflict in the very segment that commits the routes, over
the sockets of that moment; every other segment only closes sockets.

Key definitions: `RoutesExclusive`.
Key theorems: `routeExclusivity`.
-/
import ShuvTunnel.Segments

namespace ShuvTunnel

open Coop

/-! ### The invariant -/

/-- A bridge's routes: at least one, none twice, each a valid name. -/
def ValidRoutes (routes : List String) : Prop :=
  routes ≠ [] ∧ routes.Nodup ∧ ∀ r ∈ routes, validRoute r = true

/-- Two sockets of different ids do not share a route while both are open. -/
structure Bridges.Exclusive (b : Bridges) : Prop where
  numbered : b.Numbered
  disjoint : ∀ v ∈ b.sockets, ∀ w ∈ b.sockets, v.id ≠ w.id → v.isOpen = true → w.isOpen = true →
    v.attached = true → w.attached = true → v.routes.Disjoint w.routes
  valid : ∀ w ∈ b.sockets, w.attached = true → ValidRoutes w.routes

/-- What does not attach a socket keeps the routes apart. -/
theorem Bridges.Exclusive.quiet {b b' : Bridges} (h : b.Exclusive) (hq : b.Quiet b') : b'.Exclusive := by
  refine ⟨hq.numbered h.numbered, fun v hv w hw hne hvo hwo hva hwa => ?_, fun w hw ha => ?_⟩
  · obtain ⟨v', hv', hsv⟩ := hq.attached hv hva
    obtain ⟨w', hw', hsw⟩ := hq.attached hw hwa
    rw [hsv.routes, hsw.routes]
    have hne' : v'.id ≠ w'.id := by rw [hsv.1, hsw.1]; exact hne
    exact h.disjoint v' hv' w' hw' hne' (hsv.2.2 hvo) (hsw.2.2 hwo) (hsv.attached ▸ hva) (hsw.attached ▸ hwa)
  · obtain ⟨w', hw', hsw⟩ := hq.attached hw ha
    rw [hsw.routes]
    exact h.valid w' hw' (hsw.attached ▸ ha)

/-! ### The attach message -/

/-- The routes an attach message may ask for. -/
theorem requestedRoutes_nodup (routes : Option Json) : (Store.requestedRoutes routes).Nodup := by
  unfold Store.requestedRoutes
  split
  · exact setOf_nodup _
  · simp

/-- No other open bridge holds a route that is asked for without conflict. -/
theorem disjoint_of_not_conflict {b : Bridges} {id : ℕ} {routes : List String}
    (h : Store.routeConflict b id routes = false) {w : Socket} (hw : w ∈ b.sockets) (hne : w.id ≠ id)
    (ho : w.isOpen = true) (ha : w.attached = true) : w.routes.Disjoint routes := by
  intro r hr hr'
  have hc : Store.routeConflict b id routes = true := by
    refine List.any_eq_true.mpr ⟨w, hw, ?_⟩
    have : w.routes.any routes.contains = true := List.any_eq_true.mpr ⟨r, hr, by simpa using hr'⟩
    simp [hne, ho, ha, this]
  rw [h] at hc
  cases hc

/-- An accepted attach message keeps the routes apart. -/
theorem Bridges.Exclusive.attach {b : Bridges} {id : ℕ} {session : String} {routes : List String}
    (h : b.Exclusive) (hr : ValidRoutes routes) (hc : Store.routeConflict b id routes = false) :
    (b.serializeAttachment id
      { attached := true, session := some session, routes := some routes }).Exclusive := by
  -- a socket after the message is one of before, or the attached one
  have cases_socket : ∀ w' ∈ (b.serializeAttachment id
      { attached := true, session := some session, routes := some routes }).sockets,
      (w' ∈ b.sockets ∧ w'.id ≠ id) ∨ (w'.id = id ∧ w'.routes = routes) := by
    intro w' hw'
    obtain ⟨w, hw, rfl⟩ := List.mem_map.mp hw'
    by_cases hid : w.id = id
    · right
      rw [if_pos hid]
      exact ⟨hid, rfl⟩
    · left
      rw [if_neg hid]
      exact ⟨hw, hid⟩
  refine ⟨h.numbered.of_ids (updateSocket_ids b id fun _ => rfl) rfl,
    fun v hv w hw hne hvo hwo hva hwa => ?_, fun w hw ha => ?_⟩
  · rcases cases_socket v hv with ⟨hv, hvid⟩ | ⟨hvid, hvr⟩
    · rcases cases_socket w hw with ⟨hw, hwid⟩ | ⟨hwid, hwr⟩
      · exact h.disjoint v hv w hw hne hvo hwo hva hwa
      · rw [hwr]
        exact disjoint_of_not_conflict hc hv hvid hvo hva
    · rcases cases_socket w hw with ⟨hw, hwid⟩ | ⟨hwid, hwr⟩
      · rw [hvr]
        exact fun r hr hr' => disjoint_of_not_conflict hc hw hwid hwo hwa hr' hr
      · exact absurd (hvid.trans hwid.symm) hne
  · rcases cases_socket w hw with ⟨hw, -⟩ | ⟨-, hwr⟩
    · exact h.valid w hw ha
    · rw [hwr]
      exact hr

theorem attachAccepts_iff {P : Platform} {b : Bridges} {id : ℕ} {token : String} {routes : Option Json}
    {r : StoredTunnel} : attachAccepts P b id token routes r = true ↔
      P.hashToken token = r.tokenHash ∧ r.ready = true ∧ ValidRoutes (Store.requestedRoutes routes) ∧
        Store.routeConflict b id (Store.requestedRoutes routes) = false := by
  have := requestedRoutes_nodup routes
  simp only [attachAccepts, ValidRoutes, Bool.and_eq_true, decide_eq_true_eq, Bool.not_eq_true',
    List.isEmpty_eq_false_iff, List.all_eq_true]
  tauto

/-! ### Every segment -/

theorem Effect.exclusive {P : Platform} {s s' : Store} {c : Cause} {o : Outcome Task Result}
    (h : Effect P s c s' o) (hb : s.bridges.Exclusive) : s'.bridges.Exclusive := by
  cases h with
  | quiet hq _ _ => exact hb.quiet hq
  | opened _ hq _ _ _ =>
    have := hb.quiet hq
    exact ⟨⟨this.numbered.nodup, this.numbered.lt⟩, this.disjoint, this.valid⟩
  | closed _ hq => exact hb.quiet hq
  | removed _ => exact hb.quiet (.shutDown _)
  | attachThrown ha _ =>
    obtain ⟨-, -, hr, hc⟩ := attachAccepts_iff.mp ha
    exact hb.attach hr hc
  | attached ha _ hq _ =>
    obtain ⟨-, -, hr, hc⟩ := attachAccepts_iff.mp ha
    exact (hb.attach hr hc).quiet hq
  | attachedRenewing ha _ hq _ _ _ =>
    obtain ⟨-, -, hr, hc⟩ := attachAccepts_iff.mp ha
    exact (hb.attach hr hc).quiet hq
  | created _ _ _ _ _ _ => exact hb
  | alarmed _ => exact hb
  | renewing _ _ _ _ _ => exact hb
  | issued _ _ => exact hb
  | issueFailed _ _ _ => exact hb
  | requested _ _ => exact hb
  | taken _ _ => exact hb
  | restarted _ => exact hb
  | renewFailed => exact hb

theorem Change.exclusive {P : Platform} {s s' : Store} {e : Event} (h : Change P s e s')
    (hb : s.bridges.Exclusive) : s'.bridges.Exclusive := by
  cases h with
  | sockets _ _ hq => exact hb.quiet hq
  | tick => exact hb
  | workflow _ _ _ => exact hb
  | posted _ _ _ _ => exact hb

theorem exclusive_of_reachable {P : Platform} {s : State} (h : Reachable P s) : s.store.bridges.Exclusive := by
  refine (Holds.of_reachable (H := handlers P) (G := fun s => s.bridges.Exclusive) (T := fun _ _ _ => True)
    ?_ ⟨?_, ?_, ?_⟩ h).store
  · rintro s ⟨now, rfl⟩
    refine ⟨⟨⟨List.nodup_nil, ?_⟩, ?_, ?_⟩, fun _ _ => trivial⟩
    · exact fun _ h => by cases h
    · exact fun _ h => by cases h
    · exact fun _ h => by cases h
  · intro s c x o hs _ h
    exact ⟨(start_effect h).exclusive hs.store, fun _ _ _ => trivial, fun _ _ => trivial⟩
  · intro s k a t x o hs _ _ h
    exact ⟨(resume_effect h).exclusive hs.store, fun _ _ _ => trivial, fun _ _ => trivial⟩
  · intro s e x hs _ h
    exact ⟨(environment_change h).exclusive hs.store, fun _ _ _ => trivial⟩

/-! ### Exclusivity -/

/-- Any two accepted sockets have different ids and, both open and attached,
no common route; and an attached socket's routes are well formed. -/
structure RoutesExclusive (sockets : List Socket) : Prop where
  distinct : sockets.Pairwise fun v w => v.id ≠ w.id
  disjoint : sockets.Pairwise fun v w => v.isOpen = true → w.isOpen = true → v.attached = true →
    w.attached = true → v.routes.Disjoint w.routes
  valid : ∀ w ∈ sockets, w.attached = true → ValidRoutes w.routes

theorem routeExclusivity {P : Platform} {s : State} (h : Reachable P s) :
    RoutesExclusive s.store.bridges.sockets := by
  have hb := exclusive_of_reachable h
  have hids : s.store.bridges.sockets.Pairwise fun v w => v.id ≠ w.id :=
    List.pairwise_map.mp hb.numbered.nodup
  refine ⟨hids, ?_, hb.valid⟩
  exact hids.imp_of_mem fun hv hw hne => hb.disjoint _ hv _ hw hne

/-- Two clients attach, to the routes `@` and `a`. -/
def attachingRun : List Action :=
  provisioned "csr" ++ [fetching, fetching, attachMessage 0, .resume 4 .ok,
    .call (.webSocketMessage 1 (.text (some (.obj [("type", .str "attach"), ("token", .str "tok"),
      ("routes", .arr [.str "a", .str "a"])])))), .resume 5 .ok,
    .resume 5 (.drawn "" "1"), .resume 4 (.drawn "" "2")]

set_option maxRecDepth 4000 in
theorem attachingRun_state : ∃ s, after plainPlatform attachingRun = some s ∧
    s.store.bridges.sockets.map (fun w => (w.id, w.isOpen, w.attached, w.routes)) =
      [(1, true, true, ["a"]), (0, true, true, ["@"])] := by
  refine ⟨_, rfl, ?_⟩
  decide

theorem routeExclusivity_attaching : ∃ s, Reachable plainPlatform s ∧
    s.store.bridges.sockets.map (fun w => (w.id, w.isOpen, w.attached, w.routes)) =
      [(1, true, true, ["a"]), (0, true, true, ["@"])] ∧
    RoutesExclusive s.store.bridges.sockets := by
  obtain ⟨s, hs, hw⟩ := attachingRun_state
  exact ⟨s, reachable_of_after hs, hw, routeExclusivity (reachable_of_after hs)⟩

end ShuvTunnel
