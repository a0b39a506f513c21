/-
# What no step takes back

Whatever a step does to the bridges, a socket does not open again, is not
detached, and does not forget what it was sent; a channel keeps its number and
its bridge, and is finished once.

Key definitions: `Socket.Moves`, `Channel.Moves`, `Bridges.Moves`.
Key theorems: `Touch.moves`, `step_moves`, `Run.moves`.
-/
import ShuvTunnel.Channels

namespace ShuvTunnel

open Coop

/-! ### The socket of an id -/

namespace Bridges

variable {b : Bridges}

theorem socket_updateSocket {f : Socket → Socket} (hf : ∀ w, (f w).id = w.id) (id w : ℕ) :
    (b.updateSocket id f).socket w = if w = id then (b.socket w).map f else b.socket w := by
  unfold socket updateSocket
  simp only
  induction b.sockets with
  | nil => split <;> rfl
  | cons x xs ih =>
    by_cases hw : w = id
    · rw [if_pos hw] at ih ⊢
      subst hw
      by_cases hx : x.id = w
      · simp [hx, hf]
      · simpa [hx] using ih
    · rw [if_neg hw] at ih ⊢
      by_cases hx : x.id = id
      · have hxw : id ≠ w := fun he => hw he.symm
        simpa [hx, hf, hxw] using ih
      · by_cases hxw : x.id = w
        · simp [hxw, hw]
        · simpa [hx, hxw] using ih

theorem socket_of_sockets {b' : Bridges} (h : b'.sockets = b.sockets) (w : ℕ) : b'.socket w = b.socket w := by
  unfold socket
  rw [h]

theorem sending_socket (id : ℕ) (ms : List ServerMessage) (w : ℕ) :
    (b.sending id ms).socket w =
      if w = id then (b.socket w).map fun x => { x with sent := x.sent ++ ms } else b.socket w :=
  socket_updateSocket (f := fun x => { x with sent := x.sent ++ ms }) (fun _ => rfl) id w

/-- The messages reach the socket while it is open. -/
theorem sendAll_socket {P : Platform} {b' : Bridges} {id : ℕ} {ms : List ServerMessage}
    (h : Store.sendAll P b id ms = some b') (w : ℕ) :
    b'.socket w = if w = id ∧ b.isOpen id = true then (b.socket w).map fun x => { x with sent := x.sent ++ ms }
      else b.socket w := by
  by_cases ho : b.isOpen id = true
  · rw [sendAll_open ho] at h
    obtain rfl := Option.some.inj h
    rw [sending_socket]
    simp [ho]
  · rw [sendAll_shut (by simpa using ho) h]
    simp [ho]

/-- One message is sent as one of several is. -/
theorem sendAll_singleton {P : Platform} {b' : Bridges} {id : ℕ} {m : ServerMessage} (h : b.send P id m = some b') :
    Store.sendAll P b id [m] = some b' := by
  rw [Store.sendAll, h]
  rfl

theorem send_socket {P : Platform} {b' : Bridges} {id : ℕ} {m : ServerMessage} (h : b.send P id m = some b')
    (w : ℕ) :
    b'.socket w = if w = id ∧ b.isOpen id = true then (b.socket w).map fun x => { x with sent := x.sent ++ [m] }
      else b.socket w :=
  sendAll_socket (sendAll_singleton h) w

theorem shutDown_socket (w : ℕ) : (Store.shutDown b).socket w = (b.socket w).map Socket.close := by
  have hs : (Store.shutDown b).sockets = b.sockets.map Socket.close := by
    rw [Store.shutDown, finishAll_sockets]
  unfold socket
  rw [hs]
  induction b.sockets with
  | nil => rfl
  | cons x xs ih =>
    have hid : x.close.id = x.id := rfl
    by_cases hx : x.id = w
    · simp [hid, hx]
    · simpa [hid, hx] using ih

theorem acceptWebSocket_socket {position w : ℕ} (hw : w ≠ b.nextSocket) :
    (Store.acceptWebSocket b position).socket w = b.socket w := by
  have hsplit : b.sockets.find? (fun x => x.id = w) =
      (b.sockets.take position ++ b.sockets.drop position).find? (fun x => x.id = w) := by
    rw [List.take_append_drop]
  unfold socket Store.acceptWebSocket
  rw [hsplit, List.find?_append, List.find?_append, List.find?_cons_of_neg (by simpa using Ne.symm hw)]

theorem forget_socket {id w : ℕ} :
    ({ b with sockets := b.sockets.filter fun x => x.id ≠ id } : Bridges).socket w =
      if w = id then none else b.socket w := by
  unfold socket
  rw [List.find?_filter]
  split
  · rename_i hw
    rw [List.find?_eq_none]
    intro x _
    simp [hw]
  · rename_i hw
    congr 1
    funext x
    by_cases hx : x.id = w
    · simp [hx, hw]
    · simp [hx]

end Bridges

/-! ### Moves -/

/-- What may become of a socket. -/
structure Socket.Moves (x x' : Socket) : Prop where
  id : x'.id = x.id
  isOpen : x'.isOpen = true → x.isOpen = true
  attached : x.attached = true → x'.attached = true
  closeHandled : x.closeHandled = true → x'.closeHandled = true
  sent : x.sent <+: x'.sent

theorem Socket.Moves.refl (x : Socket) : x.Moves x :=
  ⟨rfl, fun h => h, fun h => h, fun h => h, List.prefix_refl _⟩

theorem Socket.Moves.trans {x y z : Socket} (h : x.Moves y) (h' : y.Moves z) : x.Moves z :=
  ⟨h'.id.trans h.id, fun ho => h.isOpen (h'.isOpen ho), fun ha => h'.attached (h.attached ha),
    fun hc => h'.closeHandled (h.closeHandled hc), h.sent.trans h'.sent⟩

theorem Socket.moves_close (x : Socket) : x.Moves x.close :=
  ⟨rfl, fun h => by simp at h, fun h => h, fun h => h, List.prefix_refl _⟩

theorem Socket.moves_attach (session : Option String) (routes : Option (List String)) (x : Socket) :
    x.Moves { x with attachment := some { attached := true, session, routes } } :=
  ⟨rfl, fun h => h, fun _ => rfl, fun h => h, List.prefix_refl _⟩

theorem Socket.moves_handled (x : Socket) : x.Moves { x with closeHandled := true } :=
  ⟨rfl, fun h => h, fun h => h, fun _ => rfl, List.prefix_refl _⟩

/-- What may become of a channel. -/
structure Channel.Moves (c c' : Channel) : Prop where
  conn : c'.conn = c.conn
  bridge : c'.bridge = c.bridge
  finished : c.finished = true → c'.finished = true
  written : c.written <+: c'.written

theorem Channel.Moves.refl (c : Channel) : c.Moves c := ⟨rfl, rfl, fun h => h, List.prefix_refl _⟩

theorem Channel.Moves.trans {c d e : Channel} (h : c.Moves d) (h' : d.Moves e) : c.Moves e :=
  ⟨h'.conn.trans h.conn, h'.bridge.trans h.bridge, fun hf => h'.finished (h.finished hf),
    h.written.trans h'.written⟩

theorem Channel.moves_finish (c : Channel) (error : Bool) : c.Moves (c.finish error) :=
  ⟨c.finish_conn error, c.finish_bridge error, fun _ => c.finish_finished error, by
    rw [c.finish_written error]⟩

theorem Channel.moves_write (c : Channel) (payload : Bytes) : c.Moves (c.write payload) :=
  ⟨c.write_conn payload, c.write_bridge payload, fun hf => (c.write_finished payload).trans hf,
    c.prefix_write payload⟩

namespace Bridges

/-- What may become of the sockets and the channels. -/
structure Moves (b b' : Bridges) : Prop where
  nextSocket : b.nextSocket ≤ b'.nextSocket
  socket : ∀ w < b.nextSocket, ∀ x', b'.socket w = some x' → ∃ x, b.socket w = some x ∧ x.Moves x'
  nextConnection : b.nextConnection ≤ b'.nextConnection
  connection : ∀ k c, b.connection k = some c → ∃ c', b'.connection k = some c' ∧ c.Moves c'

theorem Moves.refl (b : Bridges) : b.Moves b :=
  ⟨le_refl _, fun _ _ x h => ⟨x, h, .refl x⟩, le_refl _, fun _ c h => ⟨c, h, .refl c⟩⟩

theorem Moves.trans {a b c : Bridges} (h : a.Moves b) (h' : b.Moves c) : a.Moves c := by
  refine ⟨h.nextSocket.trans h'.nextSocket, fun w hw z hz => ?_, h.nextConnection.trans h'.nextConnection,
    fun k x hx => ?_⟩
  · obtain ⟨y, hy, hyz⟩ := h'.socket w (lt_of_lt_of_le hw h.nextSocket) z hz
    obtain ⟨x, hx, hxy⟩ := h.socket w hw y hy
    exact ⟨x, hx, hxy.trans hyz⟩
  · obtain ⟨y, hy, hxy⟩ := h.connection k x hx
    obtain ⟨z, hz, hyz⟩ := h'.connection k y hy
    exact ⟨z, hz, hxy.trans hyz⟩

/-- Every socket that is left was changed by `f`, and the channels stay. -/
theorem Moves.of_sockets {b b' : Bridges} (hc : b.SameChannels b') (hn : b.nextSocket ≤ b'.nextSocket)
    (hs : ∀ w < b.nextSocket, ∀ x', b'.socket w = some x' → ∃ x, b.socket w = some x ∧ x.Moves x') :
    b.Moves b' :=
  ⟨hn, hs, le_of_eq hc.nextConnection.symm, fun k c h => ⟨c, (hc.connection k).trans h, .refl c⟩⟩

theorem moves_updateSocket {f : Socket → Socket} (hf : ∀ x : Socket, x.Moves (f x)) (b : Bridges) (id : ℕ) :
    b.Moves (b.updateSocket id f) := by
  refine .of_sockets (sameChannels_updateSocket b id f) (le_refl _) fun w _ x' hx' => ?_
  rw [socket_updateSocket fun w => (hf w).id] at hx'
  split at hx'
  · obtain ⟨x, hx, rfl⟩ := Option.map_eq_some_iff.mp hx'
    exact ⟨x, hx, hf x⟩
  · exact ⟨x', hx', .refl x'⟩

theorem moves_close (b : Bridges) (id : ℕ) : b.Moves (b.close id) :=
  moves_updateSocket Socket.moves_close b id

theorem moves_serializeAttachment (b : Bridges) (id : ℕ) (session : Option String)
    (routes : Option (List String)) :
    b.Moves (b.serializeAttachment id { attached := true, session, routes }) :=
  moves_updateSocket (Socket.moves_attach session routes) b id

theorem moves_sendAll {P : Platform} {b b' : Bridges} {id : ℕ} {ms : List ServerMessage}
    (h : Store.sendAll P b id ms = some b') : b.Moves b' := by
  refine .of_sockets (sameChannels_sendAll h) ?_ fun w _ x' hx' => ?_
  · by_cases ho : b.isOpen id = true
    · rw [sendAll_open ho] at h
      obtain rfl := Option.some.inj h
      exact le_refl _
    · rw [sendAll_shut (by simpa using ho) h]
  · rw [sendAll_socket h] at hx'
    split at hx'
    · obtain ⟨x, hx, rfl⟩ := Option.map_eq_some_iff.mp hx'
      exact ⟨x, hx, rfl, fun h => h, fun h => h, fun h => h, List.prefix_append _ _⟩
    · exact ⟨x', hx', .refl x'⟩

theorem moves_send {P : Platform} {b b' : Bridges} {id : ℕ} {m : ServerMessage} (h : b.send P id m = some b') :
    b.Moves b' :=
  moves_sendAll (sendAll_singleton h)

/-- The sockets stay, and each channel that is there moves. -/
theorem Moves.of_connections {b b' : Bridges} (hs : b'.sockets = b.sockets) (hn : b'.nextSocket = b.nextSocket)
    (hk : b.nextConnection ≤ b'.nextConnection)
    (hc : ∀ k c, b.connection k = some c → ∃ c', b'.connection k = some c' ∧ c.Moves c') : b.Moves b' :=
  ⟨le_of_eq hn.symm, fun w _ x h => ⟨x, (socket_of_sockets hs w).symm.trans h, .refl x⟩, hk, hc⟩

theorem finish_nextConnection (b : Bridges) (key : ℕ) (error : Bool) :
    (b.finish key error).nextConnection = b.nextConnection := by
  unfold finish
  split
  · rfl
  · split <;> rfl

theorem moves_finish (b : Bridges) (key : ℕ) (error : Bool) : b.Moves (b.finish key error) := by
  refine .of_connections (by simp) (by simp) (le_of_eq (finish_nextConnection b key error).symm) fun k c hc => ?_
  rw [finish_connection, hc]
  split
  · exact ⟨_, rfl, c.moves_finish error⟩
  · exact ⟨c, rfl, .refl c⟩

theorem moves_finishAll (b : Bridges) (p : Channel → Bool) (error : Bool) : b.Moves (b.finishAll p error) := by
  unfold finishAll
  generalize b.channels.map (·.2) = keys
  induction keys generalizing b with
  | nil => exact .refl b
  | cons key keys ih =>
    rw [List.foldl_cons]
    split
    · exact (moves_finish b key error).trans (ih _)
    · exact ih b

theorem moves_write (b : Bridges) (key : ℕ) (payload : Bytes) : b.Moves (b.write key payload) := by
  refine .of_connections rfl rfl (le_refl _) fun k c hc => ?_
  rw [write_connection, hc]
  split
  · exact ⟨_, rfl, c.moves_write payload⟩
  · exact ⟨c, rfl, .refl c⟩

theorem moves_enterChannel (b : Bridges) (bridge conn sequence : ℕ) :
    b.Moves (enterChannel b bridge conn sequence) := by
  refine .of_connections rfl rfl (Nat.le_succ _) fun k c hc => ?_
  rw [enterChannel_connection, if_neg (by rw [hc]; simp)]
  exact ⟨c, hc, .refl c⟩

theorem moves_shutDown (b : Bridges) : b.Moves (Store.shutDown b) := by
  have h := moves_finishAll { b with sockets := b.sockets.map Socket.close } (fun _ => true) true
  refine ⟨?_, fun w _ x' hx' => ?_, h.nextConnection, h.connection⟩
  · rw [Store.shutDown, finishAll_nextSocket]
  · rw [shutDown_socket] at hx'
    obtain ⟨x, hx, rfl⟩ := Option.map_eq_some_iff.mp hx'
    exact ⟨x, hx, x.moves_close⟩

theorem moves_acceptWebSocket (b : Bridges) (position : ℕ) : b.Moves (Store.acceptWebSocket b position) := by
  refine .of_sockets ⟨rfl, rfl, rfl⟩ (Nat.le_succ _) fun w hw x' hx' => ?_
  rw [acceptWebSocket_socket (Nat.ne_of_lt hw)] at hx'
  exact ⟨x', hx', .refl x'⟩

theorem moves_forget (b : Bridges) (id : ℕ) :
    b.Moves { b with sockets := b.sockets.filter fun x => x.id ≠ id } := by
  refine .of_sockets ⟨rfl, rfl, rfl⟩ (le_refl _) fun w _ x' hx' => ?_
  rw [forget_socket] at hx'
  split at hx'
  · cases hx'
  · exact ⟨x', hx', .refl x'⟩

end Bridges

theorem Touch.moves {P : Platform} {b b' : Bridges} {c : Cause} {o : Outcome Task Result}
    (h : Touch P b c b' o) : b.Moves b' := by
  cases h with
  | still _ _ => exact .refl b
  | accepted => exact Bridges.moves_acceptWebSocket b _
  | closed _ => exact Bridges.moves_close b _
  | refused _ hs => exact (Bridges.moves_send hs).trans (Bridges.moves_close _ _)
  | @attached _ _ _ _ _ _ b₁ _ _ _ hb₁ hs _ =>
    have h₁ : b.Moves b₁ := hb₁ ▸ Bridges.moves_serializeAttachment b _ _ _
    rcases hs with rfl | hs
    · exact h₁
    · exact h₁.trans (Bridges.moves_send hs)
  | ponged hs => exact Bridges.moves_send hs
  | finished _ _ => exact Bridges.moves_finish b _ _
  | written _ _ _ => exact Bridges.moves_write b _ _
  | @closeHandled w _ b₁ _ _ _ _ hb₁ hs =>
    have h₁ : b.Moves b₁ := hb₁ ▸ Bridges.moves_updateSocket Socket.moves_handled b w
    rcases hs with ⟨rfl, -⟩ | ⟨rfl, -⟩
    · exact h₁
    · exact h₁.trans (Bridges.moves_finishAll _ _ _)
  | shutDown => exact Bridges.moves_shutDown b
  | opened _ _ _ _ _ _ hs => exact (Bridges.moves_enterChannel b _ _ _).trans (Bridges.moves_sendAll hs)
  | openThrown _ _ _ => exact Bridges.moves_enterChannel b _ _ _
  | uploaded _ hs => exact Bridges.moves_send hs
  | uploadEnded _ hs => exact Bridges.moves_send hs
  | uploadFailed _ _ hs =>
    rcases hs with ⟨rfl, -⟩ | ⟨b₁, hs, rfl⟩
    · exact .refl b'
    · exact (Bridges.moves_send hs).trans (Bridges.moves_finish _ _ _)
  | settled _ _ => exact .refl b

theorem environment_moves {P : Platform} {s s' : Store} {e : Event} (h : environment P s e = some s') :
    s.bridges.Moves s'.bridges := by
  cases e with
  | tick n =>
    obtain rfl := Option.some.inj h
    exact .refl _
  | peerClose w =>
    obtain rfl := Option.some.inj h
    exact Bridges.moves_close _ _
  | forget w =>
    unfold environment at h
    simp only at h
    split at h
    · cases h
    · obtain rfl := Option.some.inj h
      exact Bridges.moves_forget _ _
  | workflow id e =>
    obtain ⟨d, -, rfl⟩ := Option.map_eq_some_iff.mp h
    exact .refl _

theorem step_moves {P : Platform} {s s' : State} {l : Action} (h : (tunnelObject P).step s l = some s') :
    s.store.bridges.Moves s'.store.bridges := by
  obtain ⟨c, x, o, rfl, h1, rfl⟩ | ⟨k, a, t, x, o, rfl, -, h1, rfl⟩ | ⟨e, x, rfl, h1, rfl⟩ := step_cases h
  · rw [settle_store]
    exact (start_touch h1).moves
  · rw [settle_store]
    exact (resume_touch h1).moves
  · exact environment_moves h1

theorem Run.moves {P : Platform} {s t : State} {es : List (Lts.Event State Action)} (h : Run P s es t) :
    s.store.bridges.Moves t.store.bridges := by
  induction h with
  | nil => exact .refl _
  | cons hs _ ih => exact (step_moves hs).trans ih

end ShuvTunnel
