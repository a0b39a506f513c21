/-
# The calls of `connect` and what they send

A channel is held by the call of `connect` that opened it, from one turn of
its upload to the next; no other call waits for the channel. Messages about a
connection are sent by that call alone: the open message with the bytes read
so far, then one message a turn.

Key definitions: `Uploads`, `UploadSends`, `Sends`.
Key theorems: `Touch.holds`, `Touch.keys`, `uploads_of_reachable`, `Touch.sends`.
-/
import ShuvTunnel.Moves

namespace ShuvTunnel

open Coop

/-! ### Who holds a channel -/

/-- A channel's task is followed by a task of the same channel, and begins
with the channel. -/
theorem Touch.holds {P : Platform} {b b' : Bridges} {c : Cause} {u : Task} {key : ℕ}
    (h : Touch P b c b' (.await u)) (hu : u.key = some key) :
    (c.key = some key ∧ (b.connection key).isSome) ∨
      c.key = none ∧ key = b.nextConnection ∧ b'.nextConnection = key + 1 := by
  have absent : Keyless (.await u) → False := fun ho => by rw [ho u rfl] at hu; cases hu
  cases h with
  | still _ ho => exact (absent ho).elim
  | attached _ _ _ ho => exact (absent ho).elim
  | opened _ _ _ _ _ _ hs =>
    obtain rfl : b.nextConnection = key := Option.some.inj hu
    exact .inr ⟨rfl, rfl, (Bridges.sameChannels_sendAll hs).nextConnection⟩
  | @uploaded k _ _ _ _ hc _ =>
    obtain rfl : k = key := Option.some.inj hu
    exact .inl ⟨rfl, by rw [hc]; rfl⟩
  | @uploadEnded k _ _ hc _ =>
    obtain rfl : k = key := Option.some.inj hu
    exact .inl ⟨rfl, by rw [hc]; rfl⟩
  | @uploadFailed k _ _ _ hc _ _ =>
    obtain rfl : k = key := Option.some.inj hu
    exact .inl ⟨rfl, by rw [hc]; rfl⟩

/-- A channel's bridge has been accepted, and is attached as long as it is
listed. -/
def Bridges.Served (b : Bridges) : Prop :=
  ∀ k c, b.connection k = some c → c.bridge < b.nextSocket ∧ ∀ w, b.socket c.bridge = some w → w.attached = true

/-- A call that waits for a channel is the only one, and the channel is there. -/
structure Uploads (s : State) : Prop where
  calls : (s.tasks.map (·.1)).Nodup
  lt : ∀ p ∈ s.tasks, ∀ key, p.2.key = some key → key < s.store.bridges.nextConnection
  one : ∀ p ∈ s.tasks, ∀ q ∈ s.tasks, ∀ key, p.2.key = some key → q.2.key = some key → p.1 = q.1
  served : s.store.bridges.Served

/-- The channels are those of before, each as it has become. -/
def Bridges.SameKeys (b b' : Bridges) : Prop := ∀ k, (b'.connection k).isSome → (b.connection k).isSome

namespace Bridges

theorem SameChannels.keys {b b' : Bridges} (h : b.SameChannels b') : b.SameKeys b' := fun k hk => by
  rwa [h.connection] at hk

theorem SameKeys.trans {a b c : Bridges} (h : a.SameKeys b) (h' : b.SameKeys c) : a.SameKeys c :=
  fun k hk => h k (h' k hk)

theorem sameKeys_finish (b : Bridges) (key : ℕ) (error : Bool) : b.SameKeys (b.finish key error) := by
  intro k hk
  rw [finish_connection] at hk
  split at hk
  · simpa using hk
  · exact hk

theorem sameKeys_finishAll (b : Bridges) (p : Channel → Bool) (error : Bool) :
    b.SameKeys (b.finishAll p error) := by
  unfold finishAll
  generalize b.channels.map (·.2) = keys
  induction keys generalizing b with
  | nil => exact fun _ h => h
  | cons key keys ih =>
    rw [List.foldl_cons]
    split
    · exact (sameKeys_finish b key error).trans (ih _)
    · exact ih b

theorem sameKeys_write (b : Bridges) (key : ℕ) (payload : Bytes) : b.SameKeys (b.write key payload) := by
  intro k hk
  rw [write_connection] at hk
  split at hk
  · simpa using hk
  · exact hk

end Bridges

/-- Only `connect` enters a channel, and on a bridge that claims its route. -/
theorem Touch.keys {P : Platform} {b b' : Bridges} {c : Cause} {o : Outcome Task Result} (h : Touch P b c b' o) :
    b.SameKeys b' ∨ ∃ bridge conn sequence route, b.sockets.find? (fun w => w.claims route) = some bridge ∧
      Store.allocate (b.channels.map (·.1)) (b.channels.length + 2) b.sequence = some (conn, sequence) ∧
      (∃ record hello, c = .resumed (.connectRead record) (.hello hello)) ∧
      (enterChannel b bridge.id conn sequence).SameChannels b' := by
  cases h.channels with
  | same hs => exact .inl hs.keys
  | finished _ _ => exact .inl (Bridges.sameKeys_finish b _ _)
  | written _ _ => exact .inl (Bridges.sameKeys_write b _ _)
  | ended _ _ hs => exact .inl (hs.keys.trans (Bridges.sameKeys_finishAll _ _ _))
  | shutDown =>
    exact .inl (Bridges.sameKeys_finishAll { b with sockets := b.sockets.map Socket.close } (fun _ => true) true)
  | entered hfind ha hs => exact .inr ⟨_, _, _, _, hfind, ha, ⟨_, _, rfl⟩, hs⟩
  | aborted hs => exact .inl (hs.keys.trans (Bridges.sameKeys_finish _ _ _))

theorem Bridges.Served.moves {b b' : Bridges} (h : b.Served) (hm : b.Moves b') (hk : b.SameKeys b') :
    b'.Served := by
  intro k c' hc'
  obtain ⟨c, hc⟩ := Option.isSome_iff_exists.mp (hk k (by rw [hc']; rfl))
  obtain ⟨x, hx, hcx⟩ := hm.connection k c hc
  obtain rfl := Option.some.inj (hx.symm.trans hc')
  obtain ⟨hlt, hatt⟩ := h k c hc
  refine ⟨?_, fun w' hw' => ?_⟩
  · rw [hcx.bridge]
    exact lt_of_lt_of_le hlt hm.nextSocket
  · rw [hcx.bridge] at hw'
    obtain ⟨w, hw, hww⟩ := hm.socket _ hlt w' hw'
    exact hww.attached (hatt w hw)

theorem Bridges.Served.enter {b : Bridges} (h : b.Served) (hn : b.Numbered) {bridge : Socket} {conn sequence : ℕ}
    {route : String} (hfind : b.sockets.find? (fun w => w.claims route) = some bridge) :
    (enterChannel b bridge.id conn sequence).Served := by
  have hmem := List.mem_of_find?_eq_some hfind
  have hclaims : bridge.claims route = true := by simpa using List.find?_some hfind
  intro k c hc
  rw [Bridges.enterChannel_connection] at hc
  split at hc
  · obtain rfl := Option.some.inj hc
    refine ⟨hn.lt _ (List.mem_map.mpr ⟨_, hmem, rfl⟩), fun w hw => ?_⟩
    obtain rfl : bridge = w := Option.some.inj ((Bridges.socket_of_mem hn hmem).symm.trans hw)
    exact (claims_iff.mp hclaims).1
  · exact h k c hc

theorem Touch.served {P : Platform} {b b' : Bridges} {c : Cause} {o : Outcome Task Result} (h : Touch P b c b' o)
    (hn : b.Numbered) (hb : b.Served) : b'.Served := by
  rcases h.keys with hk | ⟨bridge, conn, sequence, route, hfind, -, -, hs⟩
  · exact hb.moves h.moves hk
  · intro k x hx
    rw [hs.connection] at hx
    obtain ⟨hlt, hatt⟩ := hb.enter hn hfind k x hx
    have hlt : x.bridge < b.nextSocket := hlt
    refine ⟨lt_of_lt_of_le hlt h.moves.nextSocket, fun w' hw' => ?_⟩
    obtain ⟨w, hw, hww⟩ := h.moves.socket _ hlt w' hw'
    exact hww.attached (hatt w hw)

theorem Uploads.settle {s : State} {k : ℕ} {x : Store} {o : Outcome Task Result} (h : Uploads s)
    (hm : s.store.bridges.Moves x.bridges) (hx : x.bridges.Served)
    (hk : ((s.settle k x o).tasks.map (·.1)).Nodup)
    (ho : ∀ u key, o = .await u → u.key = some key → key < x.bridges.nextConnection ∧
      ∀ q ∈ s.tasks, q.2.key = some key → q.1 = k) : Uploads (s.settle k x o) := by
  refine ⟨hk, fun p hp key hkey => ?_, fun p hp q hq key hkey hkey' => ?_, by rw [settle_store]; exact hx⟩
  · rw [settle_store]
    rcases mem_settle_tasks hp with hp | ⟨-, hu⟩
    · exact lt_of_lt_of_le (h.lt p hp key hkey) hm.nextConnection
    · exact (ho _ key hu hkey).1
  · rcases mem_settle_tasks hp with hp | ⟨hpk, hu⟩
    · rcases mem_settle_tasks hq with hq | ⟨hqk, hv⟩
      · exact h.one p hp q hq key hkey hkey'
      · exact ((ho _ key hv hkey').2 p hp hkey).trans hqk.symm
    · rcases mem_settle_tasks hq with hq | ⟨hqk, -⟩
      · exact hpk.trans ((ho _ key hu hkey).2 q hq hkey').symm
      · exact hpk.trans hqk.symm

theorem Uploads.wake {s : State} (h : Uploads s) (k : ℕ) : Uploads (s.wake k) :=
  ⟨h.calls.sublist (List.filter_sublist.map _), fun p hp => h.lt p (mem_wake_tasks hp),
    fun p hp q hq => h.one p (mem_wake_tasks hp) q (mem_wake_tasks hq), h.served⟩

theorem uploads_step {P : Platform} {s s' : State} {l : Action} (hn : s.store.bridges.Numbered)
    (hk : (s'.tasks.map (·.1)).Nodup) (h : Uploads s) (hs : (tunnelObject P).step s l = some s') :
    Uploads s' := by
  have hm := step_moves hs
  obtain ⟨c, x, o, rfl, h1, rfl⟩ | ⟨k, a, t, x, o, rfl, ht, h1, rfl⟩ | ⟨e, x, rfl, h1, rfl⟩ := step_cases hs
  · rw [settle_store] at hm
    have htouch := start_touch h1
    have h' : Uploads { s with next := s.next + 1 } := ⟨h.calls, h.lt, h.one, h.served⟩
    refine h'.settle hm (htouch.served hn h.served) hk fun u key ho hkey => ?_
    rw [ho] at htouch
    -- a call's first segment holds no channel yet
    rcases htouch.holds hkey with ⟨hc, -⟩ | ⟨-, rfl, hnext⟩
    · cases hc
    · refine ⟨by omega, fun q hq hqk => absurd (h.lt q hq _ hqk) (lt_irrefl _)⟩
  · rw [settle_store] at hm
    have htouch := resume_touch h1
    refine (h.wake k).settle hm (htouch.served hn h.served) hk fun u key ho hkey => ?_
    rw [ho] at htouch
    rcases htouch.holds hkey with ⟨hc, -⟩ | ⟨-, rfl, hnext⟩
    · have hc : t.key = some key := hc
      refine ⟨lt_of_lt_of_le (h.lt _ (task_mem ht) key hc) hm.nextConnection, fun q hq hqk => ?_⟩
      exact h.one q (mem_wake_tasks hq) _ (task_mem ht) key hqk hc
    · exact ⟨by omega, fun q hq hqk => absurd (h.lt q (mem_wake_tasks hq) _ hqk) (lt_irrefl _)⟩
  · have hch := environment_sameChannels h1
    refine ⟨h.calls, fun p hp key hkey => lt_of_lt_of_le (h.lt p hp key hkey) hm.nextConnection, h.one, ?_⟩
    exact h.served.moves hm hch.keys

theorem tasks_nodup {P : Platform} {s : State} (h : Reachable P s) : (s.tasks.map (·.1)).Nodup := by
  refine nodup_of_reachable ?_ ?_ h
  · rintro s ⟨now, rfl⟩
    exact ⟨fun _ h => (nomatch h), fun _ h => nomatch h⟩
  · rintro s ⟨now, rfl⟩
    exact List.nodup_nil

theorem uploads_of_reachable {P : Platform} {s : State} (h : Reachable P s) : Uploads s := by
  refine (h.invariant (I := fun s => Reachable P s ∧ Uploads s) ?_ fun s l s' hs hstep => ?_).2
  · rintro s ⟨now, rfl⟩
    refine ⟨.of_init ⟨now, rfl⟩, List.nodup_nil, fun _ hp => (nomatch hp), fun _ hp => (nomatch hp), ?_⟩
    exact fun _ _ hc => (nomatch hc)
  · have hr := hs.1.step hstep
    exact ⟨hr, uploads_step (exclusive_of_reachable hs.1).numbered (tasks_nodup hr) hs.2 hstep⟩

/-! ### What is sent about a connection -/

/-- What a turn of the upload sends, when its bridge is open: a chunk, the end,
or a reset. -/
inductive UploadSends (conn : ℕ) : Answer → Outcome Task Result → List ServerMessage → Prop
  | chunk {value : Bytes} {bufferedAmount key : ℕ} :
      UploadSends conn (.chunk value bufferedAmount) (.await (.upload key)) [.dataFrame conn value]
  | ended {key : ℕ} : UploadSends conn .eof (.await (.settling key)) [.endConn conn]
  | failed {a : Answer} {key : ℕ} :
      UploadSends conn a (.await (.settling key)) [.resetConn conn "client_io_error"]

/-- What a segment sends on one socket, and why. -/
inductive Sends (b : Bridges) (w : ℕ) (c : Cause) (b' : Bridges) (o : Outcome Task Result) :
    List ServerMessage → Prop
  /-- Nothing about a connection. -/
  | other {ms : List ServerMessage} : (∀ m ∈ ms, m.conn? = none) → Sends b w c b' o ms
  /-- A channel is opened. -/
  | opened {record : Option StoredTunnel} {hello : Hello} {conn : ℕ} :
      c = .resumed (.connectRead record) (.hello hello) → o = .await (.upload b.nextConnection) →
      conn ∉ b.channels.map (·.1) → b'.connection b.nextConnection = some (b.newChannel w conn) →
      Sends b w c b' o (openMessage conn hello :: hello.initial.map (.dataFrame conn))
  /-- A channel's upload takes a turn. -/
  | uploaded {key : ℕ} {x : Channel} {a : Answer} {ms : List ServerMessage} : c = .resumed (.upload key) a →
      b.connection key = some x → x.bridge = w → UploadSends x.conn a o ms → Sends b w c b' o ms

/-- The socket was sent nothing, or the messages while it was open. -/
theorem Bridges.sent_cases {P : Platform} {b b' : Bridges} {id w : ℕ} {ms : List ServerMessage} {x x' : Socket}
    (h : Store.sendAll P b id ms = some b') (hx : b.socket w = some x) (hx' : b'.socket w = some x') :
    x'.sent = x.sent ∨ w = id ∧ x.isOpen = true ∧ x'.sent = x.sent ++ ms := by
  rw [Bridges.sendAll_socket h] at hx'
  split at hx'
  · rename_i hw
    rw [hx] at hx'
    obtain rfl := Option.some.inj hx'
    refine .inr ⟨hw.1, ?_, rfl⟩
    have ho := hw.2
    rw [← hw.1] at ho
    unfold Bridges.isOpen at ho
    rw [hx] at ho
    exact ho
  · rw [hx] at hx'
    obtain rfl := Option.some.inj hx'
    exact .inl rfl

/-- The socket of an id is there after a change of sockets when it was before. -/
theorem Bridges.sent_updateSocket {b : Bridges} {id w : ℕ} {f : Socket → Socket} {x' : Socket}
    (hid : ∀ w, (f w).id = w.id) (hf : ∀ w, (f w).sent = w.sent) (h : (b.updateSocket id f).socket w = some x') :
    ∃ x, b.socket w = some x ∧ x'.sent = x.sent := by
  rw [Bridges.socket_updateSocket hid] at h
  split at h
  · obtain ⟨x, hx, rfl⟩ := Option.map_eq_some_iff.mp h
    exact ⟨x, hx, hf x⟩
  · exact ⟨x', h, rfl⟩

/-- What a socket's list gains is what `Sends` says, and nothing unless the
socket is open. -/
theorem Touch.sends {P : Platform} {b b' : Bridges} {c : Cause} {o : Outcome Task Result} {w : ℕ} {x x' : Socket}
    (h : Touch P b c b' o) (hn : b.Numbered) (hb : b.Owned) (hx : b.socket w = some x)
    (hx' : b'.socket w = some x') :
    ∃ ms, x'.sent = x.sent ++ ms ∧ (ms ≠ [] → x.isOpen = true) ∧ Sends b w c b' o ms := by
  have nothing : x'.sent = x.sent → ∃ ms, x'.sent = x.sent ++ ms ∧ (ms ≠ [] → x.isOpen = true) ∧
      Sends b w c b' o ms := fun he =>
    ⟨[], he.trans (List.append_nil _).symm, fun h => absurd rfl h, .other fun _ h => nomatch h⟩
  have same : b'.sockets = b.sockets → x'.sent = x.sent := fun hs => by
    rw [Bridges.socket_of_sockets hs, hx] at hx'
    obtain rfl := Option.some.inj hx'
    rfl
  have updated : ∀ {id : ℕ} {f : Socket → Socket}, (∀ w, (f w).id = w.id) → (∀ w, (f w).sent = w.sent) →
      (b.updateSocket id f).socket w = some x' → x'.sent = x.sent := fun hid hf h => by
    obtain ⟨y, hy, he⟩ := Bridges.sent_updateSocket hid hf h
    obtain rfl := Option.some.inj (hx.symm.trans hy)
    exact he
  -- the messages `ms`, if they can be sent on this socket
  have sent : ∀ {b₁ : Bridges} {y : Socket} {id : ℕ} {ms : List ServerMessage}, Store.sendAll P b id ms = some b₁ →
      b₁.socket w = some y → x'.sent = y.sent → (w = id → Sends b w c b' o ms) →
      ∃ ms, x'.sent = x.sent ++ ms ∧ (ms ≠ [] → x.isOpen = true) ∧ Sends b w c b' o ms :=
    fun hs hy he hms => by
      rcases Bridges.sent_cases hs hx hy with hsame | ⟨hw, ho, happ⟩
      · exact nothing (he.trans hsame)
      · exact ⟨_, he.trans happ, fun _ => ho, hms hw⟩
  have other : ∀ {m : ServerMessage}, m.conn? = none → Sends b w c b' o [m] := fun hm =>
    .other fun m h => by rw [List.mem_singleton.mp h]; exact hm
  cases h with
  | still _ _ => exact nothing (same rfl)
  | accepted =>
    have hw : w ≠ b.nextSocket := by
      have hmem := List.mem_of_find?_eq_some hx
      have hid : x.id = w := by simpa using List.find?_some hx
      exact Nat.ne_of_lt (hid ▸ hn.lt _ (List.mem_map.mpr ⟨x, hmem, rfl⟩))
    rw [Bridges.acceptWebSocket_socket hw, hx] at hx'
    obtain rfl := Option.some.inj hx'
    exact nothing rfl
  | closed _ => exact nothing (updated (f := Socket.close) (fun _ => rfl) (fun _ => rfl) hx')
  | refused _ hs =>
    obtain ⟨y, hy, he⟩ := Bridges.sent_updateSocket (f := Socket.close) (fun _ => rfl) (fun _ => rfl) hx'
    exact sent (Bridges.sendAll_singleton hs) hy he fun _ => other rfl
  | @attached id _ _ _ _ _ b₁ _ _ _ hb₁ hs _ =>
    rcases hs with rfl | hs
    · rw [hb₁] at hx'
      exact nothing (updated (f := fun w => { w with attachment := some _ }) (fun _ => rfl) (fun _ => rfl) hx')
    · -- the reply is sent on the socket as it is attached
      have hy : ∃ y, b₁.socket w = some y ∧ y.sent = x.sent ∧ y.isOpen = x.isOpen := by
        rw [hb₁, Bridges.serializeAttachment,
          Bridges.socket_updateSocket (f := fun w => { w with attachment := some _ }) fun _ => rfl, hx]
        split
        · exact ⟨_, rfl, rfl, rfl⟩
        · exact ⟨_, rfl, rfl, rfl⟩
      obtain ⟨y, hy, hsent, hopen⟩ := hy
      rcases Bridges.sent_cases (Bridges.sendAll_singleton hs) hy hx' with he | ⟨-, ho, he⟩
      · exact nothing (he.trans hsent)
      · exact ⟨_, he.trans (by rw [hsent]), fun _ => hopen ▸ ho, other rfl⟩
  | ponged hs => exact sent (Bridges.sendAll_singleton hs) hx' rfl fun _ => other rfl
  | finished _ _ => exact nothing (same (Bridges.finish_sockets _ _ _))
  | written _ _ _ => exact nothing (same rfl)
  | @closeHandled id _ b₁ _ _ _ _ hb₁ hs =>
    have hs : b'.sockets = (b.updateSocket id fun w => { w with closeHandled := true }).sockets := by
      rcases hs with ⟨rfl, -⟩ | ⟨rfl, -⟩
      · rw [hb₁]
      · rw [Bridges.finishAll_sockets, hb₁]
    rw [Bridges.socket_of_sockets hs] at hx'
    exact nothing (updated (f := fun w => { w with closeHandled := true }) (fun _ => rfl) (fun _ => rfl) hx')
  | shutDown =>
    rw [Bridges.shutDown_socket, hx] at hx'
    obtain rfl := Option.some.inj hx'
    exact nothing rfl
  | @opened _ _ _ _ _ conn _ _ _ _ _ _ _ ha hs =>
    have hsame := Bridges.sameChannels_sendAll hs
    rcases Bridges.sent_cases hs hx hx' with he | ⟨rfl, ho, he⟩
    · exact nothing he
    · refine ⟨_, he, fun _ => ho, .opened rfl rfl (allocate_free ha).2 ?_⟩
      rw [hsame.connection, Bridges.enterChannel_connection, if_pos ⟨rfl, hb.connection_next⟩]
  | openThrown _ _ _ => exact nothing (same rfl)
  | uploaded hc hs =>
    exact sent (Bridges.sendAll_singleton hs) hx' rfl fun hw => .uploaded rfl hc hw.symm .chunk
  | uploadEnded hc hs =>
    exact sent (Bridges.sendAll_singleton hs) hx' rfl fun hw => .uploaded rfl hc hw.symm .ended
  | uploadFailed hc _ hs =>
    rcases hs with ⟨rfl, -⟩ | ⟨b₁, hs, rfl⟩
    · exact nothing (same rfl)
    · rw [Bridges.socket_of_sockets (Bridges.finish_sockets _ _ _)] at hx'
      exact sent (Bridges.sendAll_singleton hs) hx' rfl fun hw => .uploaded rfl hc hw.symm .failed
  | settled _ _ => exact nothing (same rfl)

end ShuvTunnel
