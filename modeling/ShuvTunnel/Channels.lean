/-
# Who owns a channel

A channel belongs to the bridge it was opened on. The map holds the channels
that are not finished, each under its own number and no two under one number,
so what a bridge asks for by a number reaches its own channels only.

Key definitions: `Channel.finish`, `Channel.write`, `Bridges.Owned`, `ChannelTouch`.
Key theorems: `finish_connection`, `write_connection`, `finishAll_connection`,
`enterChannel_connection`, `Touch.channels`, `Touch.owned`, `owned_of_reachable`.
-/
import ShuvTunnel.Touch

namespace ShuvTunnel

open Coop

/-! ### The channel of a key -/

/-- `channel.finish(error)` of the channel itself. -/
def Channel.finish (c : Channel) (error : Bool) : Channel :=
  if c.finished then c else { c with finished := true, writer := if error then .aborted else .closed }

namespace Channel

variable (c : Channel) (error : Bool)

theorem finish_conn : (c.finish error).conn = c.conn := by unfold Channel.finish; split <;> rfl
theorem finish_bridge : (c.finish error).bridge = c.bridge := by unfold Channel.finish; split <;> rfl
theorem finish_written : (c.finish error).written = c.written := by unfold Channel.finish; split <;> rfl
theorem finish_finished : (c.finish error).finished = true := by
  unfold Channel.finish
  split
  · assumption
  · rfl

/-- `channel.writer.write(payload)` of the channel itself. -/
def write (payload : Bytes) : Channel :=
  if c.writer = .active then { c with written := c.written ++ [payload] } else c

variable (payload : Bytes)

theorem write_key : (c.write payload).key = c.key := by unfold Channel.write; split <;> rfl
theorem write_conn : (c.write payload).conn = c.conn := by unfold Channel.write; split <;> rfl
theorem write_bridge : (c.write payload).bridge = c.bridge := by unfold Channel.write; split <;> rfl
theorem write_finished : (c.write payload).finished = c.finished := by unfold Channel.write; split <;> rfl
theorem write_writer : (c.write payload).writer = c.writer := by unfold Channel.write; split <;> rfl

theorem prefix_write : c.written <+: (c.write payload).written := by
  unfold Channel.write
  split
  · exact List.prefix_append _ _
  · exact List.prefix_refl _

end Channel

namespace Bridges

variable {b : Bridges}

theorem connection_updateConnection {f : Channel → Channel} (hf : ∀ c, (f c).key = c.key) (key k : ℕ) :
    (b.updateConnection key f).connection k =
      if k = key then (b.connection k).map f else b.connection k := by
  unfold connection updateConnection
  induction b.connections with
  | nil => split <;> rfl
  | cons c cs ih =>
    by_cases hk : k = key
    · rw [if_pos hk] at ih ⊢
      subst hk
      by_cases hc : c.key = k
      · simp [hc, hf]
      · simpa [hc] using ih
    · rw [if_neg hk] at ih ⊢
      by_cases hc : c.key = key
      · have hck : c.key ≠ k := fun he => hk (he.symm.trans hc)
        have hck' : key ≠ k := fun he => hk he.symm
        simpa [hc, hf, hck'] using ih
      · by_cases hck : c.key = k
        · simp [hck, hk]
        · simpa [hc, hck] using ih

theorem finish_eq {key : ℕ} {c : Channel} {error : Bool} (hc : b.connection key = some c)
    (hf : c.finished = false) :
    b.finish key error =
      { b.updateConnection key fun c => { c with
          finished := true, writer := if error then .aborted else .closed } with
        channels := b.channels.filter fun p => p.1 ≠ c.conn } := by
  unfold finish
  rw [hc]
  simp only [hf]
  rfl

/-- Finishing a channel changes no other. -/
theorem finish_connection (key k : ℕ) (error : Bool) :
    (b.finish key error).connection k =
      if k = key then (b.connection k).map (·.finish error) else b.connection k := by
  cases hc : b.connection key with
  | none =>
    have hsame : b.finish key error = b := by
      unfold finish
      rw [hc]
    rw [hsame]
    split
    · rename_i hk
      rw [hk, hc]
      rfl
    · rfl
  | some c =>
    by_cases hf : c.finished = true
    · rw [finish_finished hc hf]
      split
      · rename_i hk
        rw [hk, hc, Option.map_some, Channel.finish, if_pos hf]
      · rfl
    · have hf : c.finished = false := by simpa using hf
      rw [finish_eq hc hf]
      have hupdate := connection_updateConnection (b := b) (f := fun c : Channel => { c with
        finished := true, writer := if error then .aborted else .closed }) (fun _ => rfl) key k
      refine hupdate.trans ?_
      split
      · rename_i hk
        rw [hk, hc]
        unfold Channel.finish
        simp only [Option.map_some, hf]
        rfl
      · rfl

theorem write_connection (key k : ℕ) (payload : Bytes) :
    (b.write key payload).connection k =
      if k = key then (b.connection k).map (·.write payload) else b.connection k :=
  connection_updateConnection (fun c => Channel.write_key c payload) key k

/-- Several channels are finished, each once. -/
theorem foldl_finish_connection {p : Channel → Bool} {error : Bool}
    (hp : ∀ c, p (c.finish error) = p c) (keys : List ℕ) (k : ℕ) :
    (keys.foldl (fun b key => if (b.connection key).any p then b.finish key error else b) b).connection k =
      (b.connection k).map fun c => if k ∈ keys ∧ p c = true then c.finish error else c := by
  induction keys generalizing b with
  | nil => simp
  | cons key keys ih =>
    rw [List.foldl_cons, ih]
    have twice : ∀ c : Channel, (c.finish error).finish error = c.finish error := fun c => by
      rw [Channel.finish, if_pos (c.finish_finished error)]
    by_cases hany : (b.connection key).any p = true
    · rw [if_pos hany, finish_connection]
      by_cases hk : k = key
      · subst hk
        rw [if_pos rfl, Option.map_map]
        obtain ⟨c, hc, hpc⟩ := (Option.any_eq_true _ _).mp hany
        rw [hc]
        simp [hp, hpc, twice]
      · rw [if_neg hk]
        simp [hk]
    · rw [if_neg hany]
      by_cases hk : k = key
      · subst hk
        cases hc : b.connection k with
        | none => rfl
        | some c =>
          rw [hc] at hany
          have hpc : p c = false := by simpa using hany
          simp [hpc]
      · simp [hk]

theorem finishAll_connection {p : Channel → Bool} {error : Bool} (hp : ∀ c, p (c.finish error) = p c) (k : ℕ) :
    (b.finishAll p error).connection k =
      (b.connection k).map fun c =>
        if k ∈ b.channels.map (·.2) ∧ p c = true then c.finish error else c :=
  foldl_finish_connection hp _ k

/-- The channel entered, under the next key. -/
def newChannel (b : Bridges) (bridge conn : ℕ) : Channel :=
  { key := b.nextConnection, conn, bridge, written := [], writer := .active, finished := false }

theorem enterChannel_connection {bridge conn sequence k : ℕ} :
    (enterChannel b bridge conn sequence).connection k =
      if k = b.nextConnection ∧ b.connection k = none then some (b.newChannel bridge conn) else b.connection k := by
  have hfind : (enterChannel b bridge conn sequence).connection k =
      (b.connection k).or (if b.nextConnection = k then some (b.newChannel bridge conn) else none) := by
    unfold connection enterChannel
    rw [List.find?_append]
    simp [newChannel]
  rw [hfind]
  cases hc : b.connection k with
  | some c => simp
  | none =>
    by_cases hk : k = b.nextConnection
    · simp [hk]
    · simp [hk, Ne.symm hk]

/-! ### The map -/

/-- The map and the channels are those of before. -/
structure SameChannels (b b' : Bridges) : Prop where
  channels : b'.channels = b.channels
  connections : b'.connections = b.connections
  nextConnection : b'.nextConnection = b.nextConnection

theorem SameChannels.refl (b : Bridges) : SameChannels b b := ⟨rfl, rfl, rfl⟩

theorem SameChannels.trans {a b c : Bridges} (h : SameChannels a b) (h' : SameChannels b c) : SameChannels a c :=
  ⟨h'.channels.trans h.channels, h'.connections.trans h.connections, h'.nextConnection.trans h.nextConnection⟩

theorem SameChannels.connection {b b' : Bridges} (h : SameChannels b b') (k : ℕ) :
    b'.connection k = b.connection k := by
  unfold Bridges.connection
  rw [h.connections]

theorem sameChannels_send {P : Platform} {b b' : Bridges} {id : ℕ} {m : ServerMessage}
    (h : b.send P id m = some b') : SameChannels b b' := by
  unfold Bridges.send at h
  split at h
  · obtain rfl := Option.some.inj h
    exact ⟨rfl, rfl, rfl⟩
  · split at h
    · cases h
    · obtain rfl := Option.some.inj h
      exact .refl b

theorem sameChannels_sendAll {P : Platform} {b b' : Bridges} {id : ℕ} {ms : List ServerMessage}
    (h : Store.sendAll P b id ms = some b') : SameChannels b b' := by
  induction ms generalizing b with
  | nil =>
    obtain rfl := Option.some.inj h
    exact .refl b
  | cons m ms ih =>
    obtain ⟨c, hc, h⟩ := Option.bind_eq_some_iff.mp h
    exact (sameChannels_send hc).trans (ih h)

theorem sameChannels_updateSocket (b : Bridges) (id : ℕ) (f : Socket → Socket) :
    SameChannels b (b.updateSocket id f) := ⟨rfl, rfl, rfl⟩

/-- The map holds the channels that are not finished, each under its number,
and no number twice. -/
structure Owned (b : Bridges) : Prop where
  numbers : (b.channels.map (·.1)).Nodup
  lt : ∀ k c, b.connection k = some c → k < b.nextConnection
  entry : ∀ p ∈ b.channels, ∃ c, b.connection p.2 = some c ∧ c.conn = p.1 ∧ c.finished = false
  unfinished : ∀ k c, b.connection k = some c → c.finished = false → (c.conn, k) ∈ b.channels

theorem Owned.same {b b' : Bridges} (h : b.Owned) (hs : SameChannels b b') : b'.Owned := by
  refine ⟨?_, fun k c hc => ?_, fun p hp => ?_, fun k c hc hf => ?_⟩
  · rw [hs.channels]
    exact h.numbers
  · rw [hs.nextConnection]
    rw [hs.connection] at hc
    exact h.lt k c hc
  · rw [hs.connection]
    rw [hs.channels] at hp
    exact h.entry p hp
  · rw [hs.channels]
    rw [hs.connection] at hc
    exact h.unfinished k c hc hf

/-- Under one number there is one entry. -/
theorem Owned.eq_of_number {b : Bridges} (h : b.Owned) {p q : ℕ × ℕ} (hp : p ∈ b.channels) (hq : q ∈ b.channels)
    (he : p.1 = q.1) : p = q :=
  List.inj_on_of_nodup_map h.numbers hp hq he

/-- No channel is entered under the next key yet. -/
theorem Owned.connection_next {b : Bridges} (h : b.Owned) : b.connection b.nextConnection = none := by
  cases hc : b.connection b.nextConnection with
  | none => rfl
  | some c => exact absurd (h.lt _ c hc) (lt_irrefl _)

theorem Owned.finish {b : Bridges} (h : b.Owned) (key : ℕ) (error : Bool) : (b.finish key error).Owned := by
  cases hc : b.connection key with
  | none =>
    have hsame : b.finish key error = b := by
      unfold Bridges.finish
      rw [hc]
    rw [hsame]
    exact h
  | some c =>
    by_cases hf : c.finished = true
    · rw [finish_finished hc hf]
      exact h
    have hf : c.finished = false := by simpa using hf
    have hch : (b.finish key error).channels = b.channels.filter fun p => p.1 ≠ c.conn := by
      rw [finish_eq hc hf]
    have hn : (b.finish key error).nextConnection = b.nextConnection := by
      rw [finish_eq hc hf]
      rfl
    refine ⟨?_, fun k x hx => ?_, fun p hp => ?_, fun k x hx hxf => ?_⟩
    · rw [hch]
      exact h.numbers.sublist (List.filter_sublist.map _)
    · rw [hn]
      rw [finish_connection] at hx
      split at hx
      · obtain ⟨y, hy, -⟩ := Option.map_eq_some_iff.mp hx
        exact h.lt k y hy
      · exact h.lt k x hx
    · rw [hch, List.mem_filter] at hp
      obtain ⟨y, hy, hyn, hyf⟩ := h.entry p hp.1
      have hne : p.2 ≠ key := fun he => by
        rw [he, hc] at hy
        obtain rfl := Option.some.inj hy
        simp [hyn] at hp
      rw [finish_connection, if_neg hne]
      exact ⟨y, hy, hyn, hyf⟩
    · rw [finish_connection] at hx
      split at hx
      · obtain ⟨y, hy, rfl⟩ := Option.map_eq_some_iff.mp hx
        rw [Channel.finish_finished] at hxf
        cases hxf
      · rename_i hne
        have hmem := h.unfinished k x hx hxf
        rw [hch, List.mem_filter]
        refine ⟨hmem, ?_⟩
        have hnumber : x.conn ≠ c.conn := fun he =>
          hne (congrArg Prod.snd (h.eq_of_number hmem (h.unfinished key c hc hf) he))
        simpa using hnumber

theorem Owned.finishAll {b : Bridges} (h : b.Owned) (p : Channel → Bool) (error : Bool) :
    (b.finishAll p error).Owned := by
  unfold Bridges.finishAll
  generalize b.channels.map (·.2) = keys
  induction keys generalizing b with
  | nil => exact h
  | cons key keys ih =>
    rw [List.foldl_cons]
    split
    · exact ih (h.finish key error)
    · exact ih h

theorem Owned.write {b : Bridges} (h : b.Owned) (key : ℕ) (payload : Bytes) : (b.write key payload).Owned := by
  refine ⟨h.numbers, fun k c hc => ?_, fun p hp => ?_, fun k c hc hf => ?_⟩
  · rw [write_connection] at hc
    split at hc
    · obtain ⟨x, hx, -⟩ := Option.map_eq_some_iff.mp hc
      exact h.lt k x hx
    · exact h.lt k c hc
  · obtain ⟨c, hc, hn, hf⟩ := h.entry p hp
    rw [write_connection, hc]
    split
    · exact ⟨c.write payload, rfl, (c.write_conn payload).trans hn, (c.write_finished payload).trans hf⟩
    · exact ⟨c, rfl, hn, hf⟩
  · rw [write_connection] at hc
    split at hc
    · obtain ⟨x, hx, rfl⟩ := Option.map_eq_some_iff.mp hc
      rw [Channel.write_conn]
      exact h.unfinished k x hx (by rw [← x.write_finished payload]; exact hf)
    · exact h.unfinished k c hc hf

theorem Owned.enter {b : Bridges} (h : b.Owned) {bridge conn sequence : ℕ} (hn : conn ∉ b.channels.map (·.1)) :
    (enterChannel b bridge conn sequence).Owned := by
  have hnone := h.connection_next
  refine ⟨?_, fun k c hc => ?_, fun p hp => ?_, fun k c hc hf => ?_⟩
  · show ((b.channels ++ [(conn, b.nextConnection)]).map (·.1)).Nodup
    rw [List.map_append, List.map_singleton]
    exact List.nodup_append.mpr ⟨h.numbers, by simp, fun a ha x hx he => hn (by simp_all)⟩
  · show k < b.nextConnection + 1
    rw [enterChannel_connection] at hc
    split at hc
    · rename_i hk
      rw [hk.1]
      exact Nat.lt_succ_self _
    · exact Nat.lt_succ_of_lt (h.lt k c hc)
  · rcases List.mem_append.mp hp with hp | hp
    · obtain ⟨c, hc, hcn, hf⟩ := h.entry p hp
      have hne : ¬ (p.2 = b.nextConnection ∧ b.connection p.2 = none) := by rw [hc]; simp
      rw [enterChannel_connection, if_neg hne]
      exact ⟨c, hc, hcn, hf⟩
    · obtain rfl := List.mem_singleton.mp hp
      rw [enterChannel_connection, if_pos ⟨rfl, hnone⟩]
      exact ⟨_, rfl, rfl, rfl⟩
  · show (c.conn, k) ∈ b.channels ++ [(conn, b.nextConnection)]
    rw [enterChannel_connection] at hc
    split at hc
    · rename_i hk
      obtain rfl := Option.some.inj hc
      rw [hk.1]
      exact List.mem_append_right _ (List.mem_singleton.mpr rfl)
    · exact List.mem_append_left _ (h.unfinished k c hc hf)

/-- Once all are finished the map may be emptied. -/
theorem Owned.shutDown {b : Bridges} (h : b.Owned) : (Store.shutDown b).Owned := by
  have h₁ : ({ b with sockets := b.sockets.map Socket.close } : Bridges).Owned := h.same ⟨rfl, rfl, rfl⟩
  have h₂ := h₁.finishAll (fun _ => true) true
  have hconn : ∀ k, (Store.shutDown b).connection k = (({ b with
      sockets := b.sockets.map Socket.close } : Bridges).finishAll (fun _ => true) true).connection k := fun _ => rfl
  refine ⟨List.nodup_nil, fun k c hc => h₂.lt k c hc, fun p hp => ?_, fun k c hc hf => ?_⟩
  · cases hp
  · rw [hconn, finishAll_connection fun _ => rfl] at hc
    obtain ⟨x, hx, hxc⟩ := Option.map_eq_some_iff.mp hc
    exfalso
    split at hxc
    · rw [← hxc, Channel.finish_finished] at hf
      cases hf
    · rename_i hk
      rw [← hxc] at hf
      exact hk ⟨List.mem_map.mpr ⟨_, h₁.unfinished k x hx hf, rfl⟩, rfl⟩

end Bridges

/-! ### What a segment does to the channels -/

/-- The ways a segment changes the channels: `end`, `reset` and data frames of
the bridge, the end of a bridge or of the tunnel, a `connect`, a failed upload.
Whatever is sent or closed besides leaves them as they are. -/
inductive ChannelTouch (b : Bridges) : Cause → Bridges → Outcome Task Result → Prop
  | same {c : Cause} {b' : Bridges} {o : Outcome Task Result} : b.SameChannels b' → ChannelTouch b c b' o
  | finished {w : ℕ} {m : Message} {conn : ℚ} {key : ℕ} {error : Bool} {o : Outcome Task Result} :
      m.Finishes conn error → Store.ownChannel b w conn = some key →
      ChannelTouch b (.call (.webSocketMessage w m)) (b.finish key error) o
  | written {w : ℕ} {data payload : Bytes} {conn : ℕ} {c : Channel} {o : Outcome Task Result} :
      b.channel conn = some c → c.bridge = w →
      ChannelTouch b (.call (.webSocketMessage w (.binary data))) (b.write c.key payload) o
  | ended {w : ℕ} {x : Socket} {b₁ : Bridges} {o : Outcome Task Result} : b.socket w = some x → x.isOpen = false →
      b.SameChannels b₁ →
      ChannelTouch b (.call (.webSocketClose w)) (b₁.finishAll (fun c => c.bridge = w) true) o
  | shutDown {c : Cause} {o : Outcome Task Result} : ChannelTouch b c (Store.shutDown b) o
  | entered {record : Option StoredTunnel} {hello : Hello} {route : String} {bridge : Socket}
      {conn sequence : ℕ} {b' : Bridges} {o : Outcome Task Result} :
      b.sockets.find? (fun w => w.claims route) = some bridge →
      Store.allocate (b.channels.map (·.1)) (b.channels.length + 2) b.sequence = some (conn, sequence) →
      (enterChannel b bridge.id conn sequence).SameChannels b' →
      ChannelTouch b (.resumed (.connectRead record) (.hello hello)) b' o
  | aborted {key : ℕ} {a : Answer} {b₁ : Bridges} : b.SameChannels b₁ →
      ChannelTouch b (.resumed (.upload key) a) (b₁.finish key true) (.await (.settling key))

theorem Touch.channels {P : Platform} {b b' : Bridges} {c : Cause} {o : Outcome Task Result}
    (h : Touch P b c b' o) : ChannelTouch b c b' o := by
  cases h with
  | still _ _ => exact .same (.refl b)
  | accepted => exact .same ⟨rfl, rfl, rfl⟩
  | closed _ => exact .same (Bridges.sameChannels_updateSocket _ _ _)
  | refused _ hs =>
    exact .same ((Bridges.sameChannels_send hs).trans (Bridges.sameChannels_updateSocket _ _ _))
  | @attached _ _ _ _ _ _ b₁ _ _ _ hb₁ hs _ =>
    have h₁ : b.SameChannels b₁ := hb₁ ▸ Bridges.sameChannels_updateSocket b _ _
    rcases hs with rfl | hs
    · exact .same h₁
    · exact .same (h₁.trans (Bridges.sameChannels_send hs))
  | ponged hs => exact .same (Bridges.sameChannels_send hs)
  | finished hm hown => exact .finished hm hown
  | written _ hc hw => exact .written hc hw
  | @closeHandled w _ b₁ _ hx hxo _ hb₁ hs =>
    have h₁ : b.SameChannels b₁ := hb₁ ▸ Bridges.sameChannels_updateSocket b w _
    rcases hs with ⟨rfl, -⟩ | ⟨rfl, -⟩
    · exact .same h₁
    · exact .ended hx hxo h₁
  | shutDown => exact .shutDown
  | opened _ _ _ _ hfind ha hs => exact .entered hfind ha (Bridges.sameChannels_sendAll hs)
  | openThrown hfind ha _ => exact .entered hfind ha (.refl _)
  | uploaded _ hs => exact .same (Bridges.sameChannels_send hs)
  | uploadEnded _ hs => exact .same (Bridges.sameChannels_send hs)
  | uploadFailed _ _ hs =>
    rcases hs with ⟨rfl, -⟩ | ⟨b₁, hs, rfl⟩
    · exact .same (.refl _)
    · exact .aborted (Bridges.sameChannels_send hs)
  | settled _ _ => exact .same (.refl _)

/-- What a segment does to the map keeps it in order. -/
theorem Touch.owned {P : Platform} {b b' : Bridges} {c : Cause} {o : Outcome Task Result}
    (h : Touch P b c b' o) (hb : b.Owned) : b'.Owned := by
  cases h.channels with
  | same hs => exact hb.same hs
  | finished _ _ => exact hb.finish _ _
  | written _ _ => exact hb.write _ _
  | ended _ _ hs => exact (hb.same hs).finishAll _ _
  | shutDown => exact hb.shutDown
  | entered _ ha hs => exact (hb.enter (allocate_free ha).2).same hs
  | aborted hs => exact (hb.same hs).finish _ _

theorem environment_sameChannels {P : Platform} {s s' : Store} {e : Event} (h : environment P s e = some s') :
    Bridges.SameChannels s.bridges s'.bridges := by
  cases e with
  | tick n =>
    obtain rfl := Option.some.inj h
    exact .refl _
  | peerClose w =>
    obtain rfl := Option.some.inj h
    exact Bridges.sameChannels_updateSocket _ _ _
  | forget w =>
    unfold environment at h
    simp only at h
    split at h
    · cases h
    · obtain rfl := Option.some.inj h
      exact ⟨rfl, rfl, rfl⟩
  | workflow id e =>
    obtain ⟨d, -, rfl⟩ := Option.map_eq_some_iff.mp h
    exact .refl _

theorem owned_step {P : Platform} {s s' : State} {l : Action} (hs : s.store.bridges.Owned)
    (h : (tunnelObject P).step s l = some s') : s'.store.bridges.Owned := by
  obtain ⟨c, x, o, rfl, h1, rfl⟩ | ⟨k, a, t, x, o, rfl, -, h1, rfl⟩ | ⟨e, x, rfl, h1, rfl⟩ := step_cases h
  · rw [settle_store]
    exact (start_touch h1).owned hs
  · rw [settle_store]
    exact (resume_touch h1).owned hs
  · exact hs.same (environment_sameChannels h1)

theorem owned_of_reachable {P : Platform} {s : State} (h : Reachable P s) : s.store.bridges.Owned := by
  refine h.invariant ?_ fun _ _ _ => owned_step
  rintro s ⟨now, rfl⟩
  exact ⟨List.nodup_nil, fun _ _ hc => (nomatch hc), fun _ hp => (nomatch hp), fun _ _ hc => (nomatch hc)⟩

end ShuvTunnel
