/-
# The numbers of connections

`connect` takes the next number of `sequence`, a double that only grows, cut to 32
bits, and goes on while that is zero or the number of a channel. As long as the
double counts exactly and the map leaves a number free, the loop ends: more numbers
than there are channels, one after the other, differ in their 32 bits.

Key definitions: `AllocationLoop`, `connectionNumbers`.
Key theorems: `numberFree_of_room`, `allocationLoop_of_allocate`, `allocation_sound`.
-/
import Mathlib.Order.Interval.Finset.Nat
import ShuvTunnel.Turns
import ShuvTunnel.Lib.Binary64
import ShuvTunnel.Lib.OrderedMap

namespace ShuvTunnel

open Binary64 Coop

/-- `let conn = this.sequence++ >>> 0; while (conn === 0 || this.channels.has(conn))
conn = this.sequence++ >>> 0;` from a value of `this.sequence` to the number it ends
with and the value that it leaves. -/
inductive AllocationLoop (taken : List ℕ) : Double → ℕ → Double → Prop
  | found {n : ℕ} : n % 2 ^ 32 ≠ 0 → n % 2 ^ 32 ∉ taken →
      AllocationLoop taken (.finite n) (n % 2 ^ 32) (.ofRat (n + 1))
  | next {n conn : ℕ} {last : Double} : n % 2 ^ 32 = 0 ∨ n % 2 ^ 32 ∈ taken →
      AllocationLoop taken (.ofRat (n + 1)) conn last → AllocationLoop taken (.finite n) conn last

/-- The keys of the map. -/
def connectionNumbers (b : Bridges) : List ℕ := b.channels.map (·.1)

/-- It ends in one way. -/
theorem AllocationLoop.unique {taken : List ℕ} {x last last' : Double} {conn conn' : ℕ}
    (h : AllocationLoop taken x conn last) (h' : AllocationLoop taken x conn' last') : conn' = conn ∧ last' = last := by
  induction h with
  | @found n hne hfree =>
    generalize hx : Double.finite (n : ℚ) = x at h'
    cases h' with
    | found _ _ =>
      obtain rfl := Nat.cast_injective (Double.finite.inj hx)
      exact ⟨rfl, rfl⟩
    | next hbad _ =>
      obtain rfl := Nat.cast_injective (Double.finite.inj hx)
      exact (hbad.elim hne hfree).elim
  | @next n conn last hbad _ ih =>
    generalize hx : Double.finite (n : ℚ) = x at h'
    cases h' with
    | found hne hfree =>
      obtain rfl := Nat.cast_injective (Double.finite.inj hx)
      exact (hbad.elim hne hfree).elim
    | next _ hrest =>
      obtain rfl := Nat.cast_injective (Double.finite.inj hx)
      exact ih hrest

/-- Below `2 ^ 53` the double counts. -/
theorem ofRat_succ {n : ℕ} (h : n + 1 < 2 ^ 53) : Double.ofRat (n + 1) = .finite ((n + 1 : ℕ) : ℚ) := by
  rw [← ofRat_natCast h]
  push_cast
  rfl

/-- Where the search ends within its rounds, and these within the doubles that
count, the loop ends as it does. -/
theorem allocationLoop_of_allocate {taken : List ℕ} {rounds n conn n' : ℕ} (hexact : n + rounds < 2 ^ 53)
    (h : Store.allocate taken rounds n = some (conn, n')) :
    AllocationLoop taken (.finite n) conn (.finite n') ∧ n' ≤ n + rounds := by
  induction rounds generalizing n with
  | zero => cases h
  | succ rounds ih =>
    have hsucc := ofRat_succ (n := n) (by omega)
    unfold Store.allocate at h
    simp only at h
    split at h
    · rename_i hbad
      obtain ⟨hloop, hle⟩ := ih (by omega) h
      refine ⟨.next (by simpa using hbad) ?_, by omega⟩
      rw [hsucc]
      exact hloop
    · rename_i hgood
      obtain ⟨rfl, rfl⟩ := Prod.mk.inj (Option.some.inj h)
      have hfree : n % 2 ^ 32 ≠ 0 ∧ n % 2 ^ 32 ∉ taken := by simpa using hgood
      refine ⟨?_, by omega⟩
      rw [← hsucc]
      exact .found hfree.1 hfree.2

/-- With fewer channels than there are numbers one is free. -/
theorem numberFree_of_room {b : Bridges} (h : b.channels.length < 2 ^ 32 - 1) : NumberFree b := by
  have hcard : (connectionNumbers b).toFinset.card < (Finset.Ioo 0 (2 ^ 32)).card := by
    have hle := (connectionNumbers b).toFinset_card_le
    rw [connectionNumbers, List.length_map] at hle
    rw [Nat.card_Ioo]
    exact lt_of_le_of_lt hle h
  obtain ⟨conn, hconn, hfree⟩ := Finset.exists_mem_notMem_of_card_lt_card hcard
  obtain ⟨hpos, hlt⟩ := Finset.mem_Ioo.mp hconn
  exact ⟨conn, hpos, hlt, fun hmem => hfree (List.mem_toFinset.mpr hmem)⟩

/-- A new key is set behind the others. -/
theorem set_channels {b : Bridges} {conn : ℕ} (h : conn ∉ connectionNumbers b) (key : ℕ) :
    OrderedMap.set b.channels conn key = b.channels ++ [(conn, key)] := if_neg h

/-- No segment puts another channel under a number that is taken. -/
theorem Touch.fresh {P : Platform} {b b' : Bridges} {c : Cause} {o : Outcome Task Result} (h : Touch P b c b' o)
    (hb : b.Owned) : ∀ entry ∈ b'.channels, entry ∈ b.channels ∨ entry.1 ∉ connectionNumbers b := by
  intro entry hentry
  rcases h.keys with hk | ⟨bridge, conn, sequence, route, -, ha, -, hs⟩
  · -- an entry is that of a channel that is not finished, and was not before
    left
    obtain ⟨x', hx', hconn, hfinished⟩ := (h.owned hb).entry entry hentry
    obtain ⟨x, hx⟩ := Option.isSome_iff_exists.mp (hk entry.2 (by rw [hx']; rfl))
    obtain ⟨y, hy, hmoves⟩ := h.moves.connection entry.2 x hx
    obtain rfl := Option.some.inj (hy.symm.trans hx')
    have hopen : x.finished = false := Bool.eq_false_iff.mpr fun hf => by
      rw [hmoves.finished hf] at hfinished
      cases hfinished
    have hmem := hb.unfinished entry.2 x hx hopen
    rwa [← hmoves.conn, hconn] at hmem
  · rw [hs.channels] at hentry
    rcases List.mem_append.mp hentry with hentry | hentry
    · exact .inl hentry
    · obtain rfl := List.mem_singleton.mp hentry
      exact .inr (allocate_free ha).2

theorem step_fresh {P : Platform} {s s' : State} {a : Action} (hs : s.store.bridges.Owned)
    (h : (tunnelObject P).step s a = some s') :
    ∀ entry ∈ s'.store.bridges.channels, entry ∈ s.store.bridges.channels ∨
      entry.1 ∉ connectionNumbers s.store.bridges := by
  obtain ⟨c, x, o, rfl, h1, rfl⟩ | ⟨k, a, t, x, o, rfl, -, h1, rfl⟩ | ⟨e, x, rfl, h1, rfl⟩ := step_cases h
  · rw [settle_store]
    exact (start_touch h1).fresh hs
  · rw [settle_store]
    exact (resume_touch h1).fresh hs
  · intro entry hentry
    left
    rwa [← (environment_sameChannels h1).channels]

/-- **Connection numbers.** In a reachable state whose counter is exact and whose map
leaves a number free, the loop of `connect` ends with a number that is not zero, is
of 32 bits and is no key of the map, and `channels.set` adds an entry for it behind
the others; it is the number that the model allocates. No two entries share a number,
nor do two channels that are not finished, and no step puts another channel under a
number that is taken. -/
theorem allocation_sound {P : Platform} {s : State} (h : Reachable P s)
    (hexact : s.store.bridges.sequence < 2 ^ 53 - 2 ^ 32) (hroom : s.store.bridges.channels.length < 2 ^ 32 - 1) :
    (∃ conn last, AllocationLoop (connectionNumbers s.store.bridges) (.finite s.store.bridges.sequence) conn
        (.finite (last : ℕ)) ∧
      (∀ conn' last', AllocationLoop (connectionNumbers s.store.bridges) (.finite s.store.bridges.sequence) conn' last' →
        conn' = conn) ∧
      conn ≠ 0 ∧ conn < 2 ^ 32 ∧ conn ∉ connectionNumbers s.store.bridges ∧
      Store.allocate (connectionNumbers s.store.bridges) (s.store.bridges.channels.length + 2)
        s.store.bridges.sequence = some (conn, last) ∧
      ∀ key, OrderedMap.set s.store.bridges.channels conn key = s.store.bridges.channels ++ [(conn, key)]) ∧
    (connectionNumbers s.store.bridges).Nodup ∧
    (∀ k k' c c', s.store.bridges.connection k = some c → s.store.bridges.connection k' = some c' →
      c.finished = false → c'.finished = false → c.conn = c'.conn → k = k') ∧
    ∀ a s', (tunnelObject P).step s a = some s' → ∀ entry ∈ s'.store.bridges.channels,
      entry ∈ s.store.bridges.channels ∨ entry.1 ∉ connectionNumbers s.store.bridges := by
  have howned := owned_of_reachable h
  refine ⟨?_, howned.numbers, ?_, fun a s' hstep => step_fresh howned hstep⟩
  · have hsome := (allocate_isSome_iff s.store.bridges.sequence).mpr (numberFree_of_room hroom)
    rw [List.length_map] at hsome
    obtain ⟨⟨conn, last⟩, hallocate⟩ := Option.isSome_iff_exists.mp hsome
    obtain ⟨hloop, -⟩ := allocationLoop_of_allocate (by omega) hallocate
    obtain ⟨hne, hfree⟩ := allocate_free hallocate
    exact ⟨conn, last, hloop, fun conn' last' h' => (hloop.unique h').1, hne, allocate_lt hallocate, hfree, hallocate,
      set_channels hfree⟩
  · intro k k' c c' hk hk' hf hf' hconn
    have he := howned.eq_of_number (howned.unfinished k c hk hf) (howned.unfinished k' c' hk' hf') hconn
    exact congrArg Prod.snd he

set_option maxRecDepth 4000 in
/-- One connection is open. -/
theorem connectedRun_state : ∃ s, after plainPlatform (servingRun ++ [.call .connect, .resume 4 (.hello rootHello)]) =
      some s ∧ connectionNumbers s.store.bridges = [1] ∧ s.store.bridges.sequence = 2 :=
  ⟨_, rfl, rfl, rfl⟩

theorem allocation_sound_connected : ∃ s, Reachable plainPlatform s ∧ connectionNumbers s.store.bridges = [1] ∧
    ∃ conn last, AllocationLoop [1] (.finite (2 : ℕ)) conn last ∧ conn ≠ 0 ∧ conn ∉ [1] := by
  obtain ⟨s, hs, hnumbers, hsequence⟩ := connectedRun_state
  have hlength : s.store.bridges.channels.length = 1 := by
    rw [← List.length_map (f := fun entry : ℕ × ℕ => entry.1)]
    exact congrArg List.length hnumbers
  obtain ⟨⟨conn, last, hloop, -, hne, -, hfree, -⟩, -⟩ := allocation_sound (reachable_of_after hs)
    (by rw [hsequence]; decide) (by rw [hlength]; decide)
  rw [hnumbers, hsequence] at hloop
  rw [hnumbers] at hfree
  exact ⟨s, reachable_of_after hs, hnumbers, conn, _, hloop, hne, hfree⟩

end ShuvTunnel
