/-
# Which bridge a connection is opened on

`connect` gives a connection to the first accepted socket that is attached
with its route. A socket that has begun to close stays in the list for a
while, and its route may already be another's: `attach` and the close handler
skip a socket that is not open, `connect` does not. So the connection reaches
an open bridge of its route exactly when the first one in the list is open.

Key definitions: `OpensOn`, `FirstClaimantOpen`, `NumberFree`.
Key theorems: `allocate_isSome_iff`, `sendAll_open`, `opensOn_iff`.
-/
import Mathlib.Data.Finset.Card
import ShuvTunnel.Routes

namespace ShuvTunnel

open Coop

/-! ### Connection numbers -/

/-- Some connection number is not in use. -/
def NumberFree (b : Bridges) : Prop := ∃ conn, 0 < conn ∧ conn < 2 ^ 32 ∧ conn ∉ b.channels.map (·.1)

/-- The search gives up only where every number it tried is zero or taken. -/
theorem allocate_eq_none_iff {taken : List ℕ} {fuel n : ℕ} :
    Store.allocate taken fuel n = none ↔
      ∀ i < fuel, (n + i) % 2 ^ 32 = 0 ∨ (n + i) % 2 ^ 32 ∈ taken := by
  induction fuel generalizing n with
  | zero => simp [Store.allocate]
  | succ fuel ih =>
    unfold Store.allocate
    simp only
    by_cases hn : n % 2 ^ 32 = 0 ∨ n % 2 ^ 32 ∈ taken
    · have hc : (n % 2 ^ 32 = 0 || taken.contains (n % 2 ^ 32)) = true := by simpa using hn
      rw [if_pos (by simpa using hc), ih]
      constructor
      · intro h i hi
        cases i with
        | zero => exact hn
        | succ i =>
          have := h i (by omega)
          rwa [Nat.add_right_comm, Nat.add_assoc] at this
      · intro h i hi
        have := h (i + 1) (by omega)
        rwa [Nat.add_right_comm, Nat.add_assoc]
    · have hc : ¬ ((decide (n % 2 ^ 32 = 0) || taken.contains (n % 2 ^ 32)) = true) := by simpa using hn
      rw [if_neg hc]
      constructor
      · intro h; cases h
      · intro h
        exact absurd (h 0 (by omega)) hn

/-- The search has tried enough numbers: it fails only when all are taken. -/
theorem allocate_isSome_iff {taken : List ℕ} (n : ℕ) :
    (Store.allocate taken (taken.length + 2) n).isSome = true ↔
      ∃ conn, 0 < conn ∧ conn < 2 ^ 32 ∧ conn ∉ taken := by
  constructor
  · intro h
    by_contra hno
    rw [Option.isSome_iff_ne_none] at h
    refine h (allocate_eq_none_iff.mpr fun i _ => ?_)
    by_contra hi
    rw [not_or] at hi
    exact hno ⟨_, Nat.pos_of_ne_zero hi.1, Nat.mod_lt _ (by decide), hi.2⟩
  · rintro ⟨conn, h0, hlt, hfree⟩
    rw [Option.isSome_iff_ne_none]
    intro hnone
    have hbad := allocate_eq_none_iff.mp hnone
    by_cases hlen : taken.length + 2 ≤ 2 ^ 32
    · -- the numbers tried are different, and too many for the bad ones
      have hinj : Set.InjOn (fun i => (n + i) % 2 ^ 32) (Finset.range (taken.length + 2)) := by
        intro i hi j hj hij
        simp only [Finset.coe_range, Set.mem_Iio] at hi hj
        simp only at hij
        omega
      have hmaps : ∀ i ∈ Finset.range (taken.length + 2), (n + i) % 2 ^ 32 ∈ insert 0 taken.toFinset := by
        intro i hi
        rcases hbad i (Finset.mem_range.mp hi) with h | h
        · exact h ▸ Finset.mem_insert_self _ _
        · exact Finset.mem_insert_of_mem (List.mem_toFinset.mpr h)
      have hcard := Finset.card_le_card_of_injOn _ hmaps hinj
      have h1 := Finset.card_insert_le 0 taken.toFinset
      have h2 := List.toFinset_card_le taken
      rw [Finset.card_range] at hcard
      omega
    · -- every number is tried, the free one too
      have hi : (conn + (2 ^ 32 - n % 2 ^ 32)) % 2 ^ 32 < taken.length + 2 := by
        have := Nat.mod_lt (conn + (2 ^ 32 - n % 2 ^ 32)) (y := 2 ^ 32) (by decide)
        omega
      have heq : (n + (conn + (2 ^ 32 - n % 2 ^ 32)) % 2 ^ 32) % 2 ^ 32 = conn := by omega
      rcases hbad _ hi with h | h
      · omega
      · exact hfree (heq ▸ h)

/-! ### Sending to a socket -/

namespace Bridges

/-- Of a socket in the list, the id decides. -/
theorem socket_of_mem {b : Bridges} (h : b.Numbered) {w : Socket} (hw : w ∈ b.sockets) :
    b.socket w.id = some w := by
  unfold Bridges.socket
  have hids : b.sockets.Pairwise fun v w => v.id ≠ w.id := List.pairwise_map.mp h.nodup
  generalize b.sockets = ws at hw hids
  induction ws with
  | nil => cases hw
  | cons v ws ih =>
    rw [List.pairwise_cons] at hids
    rcases List.mem_cons.mp hw with rfl | hw
    · simp
    · have hne : v.id ≠ w.id := hids.1 w hw
      rw [List.find?_cons_of_neg (by simpa using hne)]
      exact ih hw hids.2

theorem eq_of_id {b : Bridges} (h : b.Numbered) {v w : Socket} (hv : v ∈ b.sockets) (hw : w ∈ b.sockets)
    (hid : v.id = w.id) : v = w := by
  have h1 := socket_of_mem h hv
  have h2 := socket_of_mem h hw
  rw [hid, h2] at h1
  exact (Option.some.inj h1).symm

theorem isOpen_of_mem {b : Bridges} (h : b.Numbered) {w : Socket} (hw : w ∈ b.sockets) :
    b.isOpen w.id = w.isOpen := by
  unfold Bridges.isOpen
  rw [socket_of_mem h hw]
  rfl

/-- The messages, appended to what socket `id` was sent. -/
def sending (b : Bridges) (id : ℕ) (ms : List ServerMessage) : Bridges :=
  b.updateSocket id fun w => { w with sent := w.sent ++ ms }

theorem sending_isOpen (b : Bridges) (id : ℕ) (ms : List ServerMessage) :
    (b.sending id ms).isOpen id = b.isOpen id := by
  unfold Bridges.isOpen Bridges.socket sending updateSocket
  induction b.sockets with
  | nil => rfl
  | cons w ws ih =>
    by_cases hw : w.id = id
    · simp [hw, Socket.isOpen]
    · simpa [hw] using ih

theorem sending_nil (b : Bridges) (id : ℕ) : b.sending id [] = b := by
  unfold sending updateSocket
  have : (fun w : Socket => if w.id = id then { w with sent := w.sent ++ [] } else w) = fun w => w := by
    funext w
    by_cases hw : w.id = id
    · subst hw
      simp
    · simp [hw]
  rw [this, List.map_id']

theorem sending_append (b : Bridges) (id : ℕ) (ms ns : List ServerMessage) :
    (b.sending id ms).sending id ns = b.sending id (ms ++ ns) := by
  unfold sending updateSocket
  simp only [List.map_map, Bridges.mk.injEq, and_true]
  refine List.map_congr_left fun w _ => ?_
  by_cases hw : w.id = id
  · simp [hw]
  · simp [hw]

/-- All messages reach an open socket. -/
theorem sendAll_open {P : Platform} {b : Bridges} {id : ℕ} (h : b.isOpen id = true)
    (ms : List ServerMessage) : Store.sendAll P b id ms = some (b.sending id ms) := by
  induction ms generalizing b with
  | nil => rw [sending_nil]; rfl
  | cons m ms ih =>
    have hs : b.send P id m = some (b.sending id [m]) := by
      unfold Bridges.send
      rw [if_pos h]
      rfl
    rw [Store.sendAll, hs, Option.bind_some, ih (by rw [sending_isOpen]; exact h), sending_append]
    rfl

/-- None reaches a socket that is not. -/
theorem sendAll_shut {P : Platform} {b b' : Bridges} {id : ℕ} (h : b.isOpen id = false)
    {ms : List ServerMessage} (hs : Store.sendAll P b id ms = some b') : b' = b := by
  induction ms generalizing b with
  | nil => exact (Option.some.inj hs).symm
  | cons m ms ih =>
    obtain ⟨c, hc, hs⟩ := Option.bind_eq_some_iff.mp hs
    unfold Bridges.send at hc
    rw [if_neg (by rw [h]; decide)] at hc
    split at hc
    · cases hc
    · obtain rfl := Option.some.inj hc
      exact ih h hs

end Bridges

/-! ### The first claimant -/

/-- An open bridge claims the route. -/
def Claimed (b : Bridges) (route : String) : Prop :=
  ∃ w ∈ b.sockets, w.isOpen = true ∧ w.claims route = true

/-- The first accepted socket that claims the route is open. -/
def FirstClaimantOpen (b : Bridges) (route : String) : Prop :=
  ∃ w, b.sockets.find? (fun w => w.claims route) = some w ∧ w.isOpen = true

/-- The message that opens a connection. -/
def openMessage (conn : ℕ) (hello : Hello) : ServerMessage :=
  .openConn conn (hello.remoteAddress.getD "unknown") hello.sni hello.alpn

/-- Call `k` of `connect`, resumed with the ClientHello, sends its open message
to an open socket that claims the route. -/
def OpensOn (P : Platform) (s : State) (k : ℕ) (hello : Hello) (route : String) : Prop :=
  ∃ s', (tunnelObject P).step s (.resume k (.hello hello)) = some s' ∧
    ∃ w ∈ s.store.bridges.sockets, w.isOpen = true ∧ w.claims route = true ∧
      ∃ w' ∈ s'.store.bridges.sockets, w'.id = w.id ∧
        ∃ conn frames, w'.sent = w.sent ++ openMessage conn hello :: frames

theorem claims_iff {w : Socket} {route : String} :
    w.claims route = true ↔ w.attached = true ∧ route ∈ w.routes := by
  simp [Socket.claims]

/-- The channel's entry, before the bridge is told. -/
def enterChannel (b : Bridges) (bridge conn sequence : ℕ) : Bridges :=
  { b with
    sequence, nextConnection := b.nextConnection + 1
    channels := b.channels ++ [(conn, b.nextConnection)]
    connections := b.connections ++ [{ key := b.nextConnection, conn, bridge, written := [],
                                       writer := .active, finished := false }] }

/-- Opening a channel sends nothing to another socket. -/
theorem openChannel_other {P : Platform} {s x : Store} {bridge : Socket} {hello : Hello} {o : Outcome Task Result}
    (h : s.openChannel P bridge hello = some (x, o)) {v : Socket} (hv : v ∈ x.bridges.sockets)
    (hid : v.id ≠ bridge.id) : v ∈ s.bridges.sockets := by
  obtain ⟨⟨conn, n⟩, -, hopen⟩ := Option.map_eq_some_iff.mp h
  simp only at hopen
  by_cases ho : (enterChannel s.bridges bridge.id conn n).isOpen bridge.id = true
  · have hs := Bridges.sendAll_open (P := P) ho (openMessage conn hello :: hello.initial.map (.dataFrame conn))
    unfold enterChannel openMessage at hs
    rw [hs] at hopen
    obtain ⟨rfl, -⟩ := Prod.mk.inj hopen
    obtain ⟨u, hu, rfl⟩ := List.mem_map.mp hv
    by_cases hub : u.id = bridge.id
    · rw [if_pos hub] at hid
      exact absurd hub hid
    · rw [if_neg hub]
      exact hu
  · split at hopen
    · obtain ⟨rfl, -⟩ := Prod.mk.inj hopen
      exact hv
    · rename_i b hs
      obtain ⟨rfl, -⟩ := Prod.mk.inj hopen
      have hshut : (enterChannel s.bridges bridge.id conn n).isOpen bridge.id = false := by simpa using ho
      rw [Bridges.sendAll_shut hshut hs] at hv
      exact hv

/-- A number was free when a channel was opened. -/
theorem openChannel_free {P : Platform} {s x : Store} {bridge : Socket} {hello : Hello} {o : Outcome Task Result}
    (h : s.openChannel P bridge hello = some (x, o)) : NumberFree s.bridges := by
  obtain ⟨⟨conn, n⟩, ha, -⟩ := Option.map_eq_some_iff.mp h
  have hsome := Option.isSome_iff_exists.mpr ⟨_, ha⟩
  rw [← List.length_map (f := fun p : ℕ × ℕ => p.1)] at hsome
  exact (allocate_isSome_iff _).mp hsome

/-- An open channel's bridge is sent its open message. -/
theorem openChannel_open {P : Platform} {s : Store} {w : Socket} (hello : Hello) (hn : s.bridges.Numbered)
    (hw : w ∈ s.bridges.sockets) (ho : w.isOpen = true) (hfree : NumberFree s.bridges) :
    ∃ x o, s.openChannel P w hello = some (x, o) ∧
      ∃ w' ∈ x.bridges.sockets, w'.id = w.id ∧
        ∃ conn frames, w'.sent = w.sent ++ openMessage conn hello :: frames := by
  have hsome := (allocate_isSome_iff s.bridges.sequence).mpr hfree
  rw [List.length_map] at hsome
  obtain ⟨⟨conn, n⟩, ha⟩ := Option.isSome_iff_exists.mp hsome
  have hopen : (enterChannel s.bridges w.id conn n).isOpen w.id = true := (Bridges.isOpen_of_mem hn hw).trans ho
  have hs := Bridges.sendAll_open (P := P) hopen (openMessage conn hello :: hello.initial.map (.dataFrame conn))
  have hchannel : s.openChannel P w hello =
      some (s.withBridges ((enterChannel s.bridges w.id conn n).sending w.id
        (openMessage conn hello :: hello.initial.map (.dataFrame conn))), .await (.upload s.bridges.nextConnection)) := by
    unfold Store.openChannel
    simp only [ha, Option.map_some]
    unfold enterChannel openMessage at hs
    rw [hs]
    rfl
  refine ⟨_, _, hchannel, _, List.mem_map.mpr ⟨w, hw, if_pos rfl⟩, rfl, conn, hello.initial.map (.dataFrame conn), rfl⟩

/-- With the record and the route in order, the first claimant is the bridge. -/
theorem connectHello_eq {P : Platform} {s : Store} {r : StoredTunnel} {hello : Hello} {route : String}
    {bridge : Socket} (hl : r.deletedAt = none) (hr : r.ready = true)
    (hroute : Store.routeOf (some r) hello.sni = some route) (hne : route ≠ "") (hdot : '.' ∉ route.toList)
    (hb : s.bridges.sockets.find? (fun w => w.claims route) = some bridge) :
    s.connectHello P (some r) hello = s.openChannel P bridge hello := by
  have hfind : Store.findBridge s.bridges (Store.routeOf (some r) hello.sni) = some bridge := by
    rw [hroute]; exact hb
  have ht : truthy (Store.routeOf (some r) hello.sni) = some route := by
    rw [hroute]; exact truthy_eq_some.mpr ⟨rfl, hne⟩
  have hok : ¬ ((r.deletedAt.isSome || !r.ready || route.toList.contains '.') = true) := by
    simp [hl, hr, hdot]
  unfold Store.connectHello
  simp only [hfind, ht]
  rw [if_neg hok]

/-- A connection whose record was ready, for a route an open bridge claims,
is opened on such a bridge exactly when the first claimant is open and a
connection number is free. -/
theorem opensOn_iff {P : Platform} {s : State} {k : ℕ} {r : StoredTunnel} {hello : Hello} {route : String}
    (h : Reachable P s) (ht : s.task k = some (.connectRead (some r))) (hl : r.deletedAt = none)
    (hr : r.ready = true) (hroute : Store.routeOf (some r) hello.sni = some route) :
    (Claimed s.store.bridges route → OpensOn P s k hello route) ↔
      (Claimed s.store.bridges route →
        FirstClaimantOpen s.store.bridges route ∧ NumberFree s.store.bridges) := by
  have hx := exclusive_of_reachable h
  refine imp_congr_right fun ⟨v, hv, hvo, hvc⟩ => ?_
  -- a claimed route is a valid one
  have hvalid := (hx.valid v hv (claims_iff.mp hvc).1).2.2 route (claims_iff.mp hvc).2
  obtain ⟨hne, hdot⟩ := validRoute_spec hvalid
  obtain ⟨bridge, hb⟩ : ∃ bridge, s.store.bridges.sockets.find? (fun w => w.claims route) = some bridge :=
    Option.isSome_iff_exists.mp (List.find?_isSome.mpr ⟨v, hv, hvc⟩)
  have hmem := List.mem_of_find?_eq_some hb
  have hstep : (tunnelObject P).step s (.resume k (.hello hello)) =
      (s.store.openChannel P bridge hello).map fun p => (s.wake k).settle k p.1 p.2 := by
    rw [step_resume ht, ← connectHello_eq (P := P) hl hr hroute hne hdot hb]
    rfl
  unfold OpensOn
  rw [hstep]
  constructor
  · rintro ⟨s', hs', w, hw, hwo, -, w', hw', hid, conn, frames, hsent⟩
    obtain ⟨⟨x, o⟩, hopen, rfl⟩ := Option.map_eq_some_iff.mp hs'
    rw [settle_store] at hw'
    -- the socket that was sent something is the one found
    have hbridge : w = bridge := by
      by_contra hne
      have hother : w'.id ≠ bridge.id := fun he =>
        hne (Bridges.eq_of_id hx.numbered hw hmem (hid.symm.trans he))
      have hsame := Bridges.eq_of_id hx.numbered (openChannel_other hopen hw' hother) hw hid
      rw [hsame] at hsent
      simp at hsent
    exact ⟨⟨bridge, hb, hbridge ▸ hwo⟩, openChannel_free hopen⟩
  · rintro ⟨⟨bridge', hb', ho⟩, hfree⟩
    obtain rfl := Option.some.inj (hb.symm.trans hb')
    obtain ⟨x, o, hopen, w', hw', hid, hsent⟩ := openChannel_open (P := P) hello hx.numbered hmem ho hfree
    rw [hopen]
    refine ⟨_, rfl, bridge, hmem, ho, by simpa using List.find?_some hb, w', ?_, hid, hsent⟩
    rw [settle_store]
    exact hw'

/-! ### A route handed over -/

/-- A connection for the tunnel's own name. -/
def rootHello : Hello := { sni := some "t.d", alpn := "", initial := [], remoteAddress := none }

set_option maxRecDepth 4000 in
theorem servingRun_state : ∃ s r, after plainPlatform (servingRun ++ [.call .connect]) = some s ∧
    s.task 4 = some (.connectRead (some r)) ∧ r.deletedAt = none ∧ r.ready = true ∧
    Store.routeOf (some r) rootHello.sni = some "@" ∧ s.store.bridges.channels = [] ∧
    ∃ w ∈ s.store.bridges.sockets, s.store.bridges.sockets.find? (fun w => w.claims "@") = some w ∧
      w.isOpen = true ∧ w.claims "@" = true := by
  refine ⟨_, _, rfl, rfl, rfl, rfl, rfl, rfl, _, List.mem_singleton.mpr rfl, ?_⟩
  exact ⟨rfl, rfl, rfl⟩

theorem opensOn_serving : ∃ s, Reachable plainPlatform s ∧ OpensOn plainPlatform s 4 rootHello "@" := by
  obtain ⟨s, r, hs, ht, hl, hr, hroute, hch, w, hw, hfind, ho, hc⟩ := servingRun_state
  have hfree : NumberFree s.store.bridges := ⟨1, by decide, by decide, by rw [hch]; decide⟩
  exact ⟨s, reachable_of_after hs, (opensOn_iff (reachable_of_after hs) ht hl hr hroute).mpr
    (fun _ => ⟨⟨w, hfind, ho⟩, hfree⟩) ⟨w, hw, ho, hc⟩⟩

/-- The bridge begins to close, another one attaches to its route, and a
connection arrives. -/
def handoverRun : List Action :=
  servingRun ++ [.environment (.peerClose 0), .call (.fetch (some "websocket") (some "shuvtunnel") 1),
    attachMessage 1, .resume 5 .ok, .resume 5 (.drawn "" "2"), .call .connect]

set_option maxRecDepth 4000 in
/-- The connection is given to the bridge that is closing. -/
theorem connect_to_closing : ¬ ∀ (s : State) (k : ℕ) (r : StoredTunnel) (hello : Hello) (route : String),
    Reachable plainPlatform s → s.store.durable.record = some r → r.deletedAt = none → r.ready = true →
    s.task k = some (.connectRead (some r)) → Store.routeOf (some r) hello.sni = some route →
    Claimed s.store.bridges route → OpensOn plainPlatform s k hello route := by
  intro h
  obtain ⟨s, hs, w, hw, ho, hc⟩ : ∃ s, after plainPlatform handoverRun = some s ∧
      ∃ w ∈ s.store.bridges.sockets, w.isOpen = true ∧ w.claims "@" = true :=
    ⟨_, rfl, _, List.mem_cons_of_mem _ (List.mem_singleton.mpr rfl), rfl, rfl⟩
  obtain ⟨s₁, r, x, h1, h2, h3, h4, h5, h6, h7, h8⟩ : ∃ s₁ r x, after plainPlatform handoverRun = some s₁ ∧
      s₁.store.durable.record = some r ∧ r.deletedAt = none ∧ r.ready = true ∧
      s₁.task 6 = some (.connectRead (some r)) ∧ Store.routeOf (some r) rootHello.sni = some "@" ∧
      (tunnelObject plainPlatform).step s₁ (.resume 6 (.hello rootHello)) = some x ∧
      ∀ w ∈ s₁.store.bridges.sockets, ∀ w' ∈ x.store.bridges.sockets, w'.id = w.id → w'.sent = w.sent :=
    ⟨_, _, _, rfl, rfl, rfl, rfl, rfl, rfl, rfl, by decide⟩
  obtain rfl := Option.some.inj (hs.symm.trans h1)
  obtain ⟨s', hs', v, hv, -, -, v', hv', hid, conn, frames, hsent⟩ :=
    h s 6 r rootHello "@" (reachable_of_after hs) h2 h3 h4 h5 h6 ⟨w, hw, ho, hc⟩
  obtain rfl := Option.some.inj (h7.symm.trans hs')
  rw [h8 v hv v' hv' hid] at hsent
  simp at hsent

end ShuvTunnel
