/-
# One connection, one step

What a segment makes of a connection and of the messages about it: only a
message of its own bridge writes to its public socket or closes the writer,
everything else leaves it as it is or aborts it; it is entered once, under a
number of 32 bits; and while its bridge is open, a turn of its upload sends
exactly one message.

Key definitions: `Enters`, `Bridges.Numbers`.
Key theorems: `Touch.entered`, `step_entered`, `Touch.stays`, `step_stays`,
`Touch.turn`, `Touch.begins`.
-/
import ShuvTunnel.Isolation
import ShuvTunnel.Uploads

namespace ShuvTunnel

open Coop

/-- What happens around the object sends nothing. -/
theorem environment_sent {P : Platform} {s s' : Store} {e : Event} (h : environment P s e = some s') {w : ℕ}
    {x' : Socket} (hx' : s'.bridges.socket w = some x') : ∃ x, s.bridges.socket w = some x ∧ x'.sent = x.sent := by
  cases e with
  | tick elapsed =>
    obtain rfl := Option.some.inj h
    exact ⟨x', hx', rfl⟩
  | peerClose id =>
    obtain rfl := Option.some.inj h
    exact Bridges.sent_updateSocket (f := Socket.close) (fun _ => rfl) (fun _ => rfl) hx'
  | forget id =>
    unfold environment at h
    simp only at h
    split at h
    · cases h
    · obtain rfl := Option.some.inj h
      have hx' : ({ s.bridges with sockets := s.bridges.sockets.filter fun x => x.id ≠ id } : Bridges).socket w =
        some x' := hx'
      rw [Bridges.forget_socket] at hx'
      split at hx'
      · cases hx'
      · exact ⟨x', hx', rfl⟩
  | workflow id e =>
    obtain ⟨d, -, rfl⟩ := Option.map_eq_some_iff.mp h
    exact ⟨x', hx', rfl⟩

/-- A socket that is listed anew was sent nothing. -/
theorem Touch.listed {P : Platform} {b b' : Bridges} {c : Cause} {o : Outcome Task Result} {w : ℕ} {x' : Socket}
    (h : Touch P b c b' o) (hw : b.socket w = none) (hx' : b'.socket w = some x') : x'.sent = [] := by
  have absent : b'.socket w = none → x'.sent = [] := fun hn => by
    rw [hn] at hx'
    cases hx'
  have updated : ∀ {b₁ : Bridges} {id : ℕ} {f : Socket → Socket}, (∀ w, (f w).id = w.id) → b₁.socket w = none →
      (b₁.updateSocket id f).socket w = none := fun hf hn => by
    rw [Bridges.socket_updateSocket hf, hn]
    split <;> rfl
  have sent : ∀ {b₁ b₂ : Bridges} {id : ℕ} {ms : List ServerMessage}, Store.sendAll P b₁ id ms = some b₂ →
      b₁.socket w = none → b₂.socket w = none := fun hs hn => by
    rw [Bridges.sendAll_socket hs, hn]
    split <;> rfl
  cases h with
  | still _ _ => exact absent hw
  | @accepted _ _ position =>
    by_cases hid : w = b.nextSocket
    · subst hid
      unfold Bridges.socket Store.acceptWebSocket at hx'
      have htake : (b.sockets.take position).find? (fun x => x.id = b.nextSocket) = none := by
        rw [List.find?_eq_none]
        intro x hx
        exact List.find?_eq_none.mp hw x (List.mem_of_mem_take hx)
      rw [List.find?_append, htake, Option.none_or, List.find?_cons_of_pos (by simp)] at hx'
      rw [← Option.some.inj hx']
    · exact absent ((Bridges.acceptWebSocket_socket hid).trans hw)
  | closed _ => exact absent (updated (f := Socket.close) (fun _ => rfl) hw)
  | refused _ hs =>
    exact absent (updated (f := Socket.close) (fun _ => rfl) (sent (Bridges.sendAll_singleton hs) hw))
  | @attached id _ _ _ _ _ b₁ _ _ _ hb₁ hs _ =>
    have h₁ : b₁.socket w = none := by
      rw [hb₁]
      exact updated (f := fun w => { w with attachment := some _ }) (fun _ => rfl) hw
    rcases hs with rfl | hs
    · exact absent h₁
    · exact absent (sent (Bridges.sendAll_singleton hs) h₁)
  | ponged hs => exact absent (sent (Bridges.sendAll_singleton hs) hw)
  | finished _ _ => exact absent ((Bridges.socket_of_sockets (Bridges.finish_sockets _ _ _) w).trans hw)
  | written _ _ _ => exact absent hw
  | @closeHandled id _ b₁ _ _ _ _ hb₁ hs =>
    have h₁ : b₁.socket w = none := by
      rw [hb₁]
      exact updated (f := fun w => { w with closeHandled := true }) (fun _ => rfl) hw
    rcases hs with ⟨rfl, -⟩ | ⟨rfl, -⟩
    · exact absent h₁
    · exact absent ((Bridges.socket_of_sockets (Bridges.finishAll_sockets _ _ _) w).trans h₁)
  | shutDown => exact absent (by rw [Bridges.shutDown_socket, hw]; rfl)
  | @opened _ _ _ _ bridge conn sequence _ _ _ _ _ _ _ hs =>
    have hn : (enterChannel b bridge.id conn sequence).socket w = none := hw
    exact absent (sent hs hn)
  | openThrown _ _ _ => exact absent hw
  | uploaded _ hs => exact absent (sent (Bridges.sendAll_singleton hs) hw)
  | uploadEnded _ hs => exact absent (sent (Bridges.sendAll_singleton hs) hw)
  | uploadFailed _ _ hs =>
    rcases hs with ⟨rfl, -⟩ | ⟨b₁, hs, rfl⟩
    · exact absent hw
    · refine absent ((Bridges.socket_of_sockets (Bridges.finish_sockets _ _ _) w).trans ?_)
      exact sent (Bridges.sendAll_singleton hs) hw
  | settled _ _ => exact absent hw

/-! ### How a connection begins -/

/-- A number has 32 bits. -/
theorem allocate_lt {taken : List ℕ} {fuel n conn n' : ℕ}
    (h : Store.allocate taken fuel n = some (conn, n')) : conn < 2 ^ 32 := by
  induction fuel generalizing n with
  | zero => cases h
  | succ fuel ih =>
    unfold Store.allocate at h
    simp only at h
    split at h
    · exact ih h
    · obtain ⟨rfl, -⟩ := Prod.mk.inj (Option.some.inj h)
      exact Nat.mod_lt _ (by decide)

/-- What `connect` enters. -/
structure Enters (b : Bridges) (c : Cause) (key : ℕ) (x : Channel) : Prop where
  next : key = b.nextConnection
  listed : ∃ w ∈ b.sockets, w.id = x.bridge
  cause : ∃ record hello, c = .resumed (.connectRead record) (.hello hello)
  fresh : x = b.newChannel x.bridge x.conn
  small : x.conn < 2 ^ 32

/-- A connection was there before, or `connect` enters it. -/
theorem Touch.entered {P : Platform} {b b' : Bridges} {c : Cause} {o : Outcome Task Result} {key : ℕ} {x : Channel}
    (h : Touch P b c b' o) (hx : b'.connection key = some x) :
    (b.connection key).isSome = true ∨ Enters b c key x := by
  rcases h.keys with hk | ⟨bridge, conn, sequence, route, hfind, ha, hc, hs⟩
  · exact .inl (hk key (by rw [hx]; rfl))
  · rw [hs.connection, Bridges.enterChannel_connection] at hx
    split at hx
    · rename_i hk
      obtain rfl := Option.some.inj hx
      exact .inr ⟨hk.1, ⟨bridge, List.mem_of_find?_eq_some hfind, rfl⟩, hc, rfl, allocate_lt ha⟩
    · exact .inl (by rw [hx]; rfl)

/-- A connection was there before a step, or the step enters it. -/
theorem step_entered {P : Platform} {s s' : State} {a : Action} {key : ℕ} {x : Channel}
    (hs : (tunnelObject P).step s a = some s') (hx : s'.store.bridges.connection key = some x) :
    (∃ y, s.store.bridges.connection key = some y ∧ y.Moves x) ∨
      ∃ k ans t, a = .resume k ans ∧ s.task k = some t ∧ Enters s.store.bridges (.resumed t ans) key x := by
  have hmoves := (step_moves hs).connection key
  have old : (s.store.bridges.connection key).isSome = true →
      ∃ y, s.store.bridges.connection key = some y ∧ y.Moves x := fun hsome => by
    obtain ⟨y, hy⟩ := Option.isSome_iff_exists.mp hsome
    obtain ⟨x', hx', hyx⟩ := hmoves y hy
    obtain rfl := Option.some.inj (hx'.symm.trans hx)
    exact ⟨y, hy, hyx⟩
  obtain ⟨c, z, o, rfl, h1, rfl⟩ | ⟨k, ans, t, z, o, rfl, ht, h1, rfl⟩ | ⟨e, z, rfl, h1, rfl⟩ := step_cases hs
  · rw [settle_store] at hx
    rcases (start_touch h1).entered hx with hsome | ⟨-, -, ⟨_, _, hc⟩, -⟩
    · exact .inl (old hsome)
    · cases hc
  · rw [settle_store] at hx
    rcases (resume_touch h1).entered hx with hsome | henters
    · exact .inl (old hsome)
    · exact .inr ⟨k, ans, t, rfl, ht, henters⟩
  · refine .inl (old ?_)
    rw [← (environment_sameChannels h1).connection]
    exact Option.isSome_iff_exists.mpr ⟨x, hx⟩

/-- So a connection with a key of before was there before. -/
theorem connection_was {P : Platform} {s s' : State} {a : Action} {key : ℕ} {x : Channel}
    (hs : (tunnelObject P).step s a = some s') (hlt : key < s.store.bridges.nextConnection)
    (hx : s'.store.bridges.connection key = some x) :
    ∃ y, s.store.bridges.connection key = some y ∧ y.Moves x := by
  rcases step_entered hs hx with hy | ⟨_, _, _, _, _, henters⟩
  · exact hy
  · exact absurd henters.next (Nat.ne_of_lt hlt)

/-- A socket of before that is open was open before. -/
theorem Bridges.Moves.isOpen {b b' : Bridges} (h : b.Moves b') {w : ℕ} (hw : w < b.nextSocket)
    (ho : b'.isOpen w = true) : b.isOpen w = true := by
  obtain ⟨x', hx', ho'⟩ := (Option.any_eq_true _ _).mp ho
  obtain ⟨x, hx, hxx⟩ := h.socket w hw x' hx'
  exact (Option.any_eq_true _ _).mpr ⟨x, hx, hxx.isOpen ho'⟩

/-- Every connection has a number of 32 bits. -/
def Bridges.Numbers (b : Bridges) : Prop := ∀ key x, b.connection key = some x → x.conn < 2 ^ 32

theorem Touch.numbers {P : Platform} {b b' : Bridges} {c : Cause} {o : Outcome Task Result} (h : Touch P b c b' o)
    (hb : b.Numbers) : b'.Numbers := by
  intro key x hx
  rcases h.entered hx with hold | henters
  · obtain ⟨y, hy⟩ := Option.isSome_iff_exists.mp hold
    obtain ⟨x', hx', hyx⟩ := h.moves.connection key y hy
    obtain rfl := Option.some.inj (hx'.symm.trans hx)
    rw [hyx.conn]
    exact hb key y hy
  · exact henters.small

theorem numbers_of_reachable {P : Platform} {s : State} (h : Reachable P s) : s.store.bridges.Numbers := by
  refine h.invariant (I := fun s => s.store.bridges.Numbers) ?_ fun s l s' hb hs => ?_
  · rintro s ⟨now, rfl⟩
    exact fun _ _ hx => nomatch hx
  · obtain ⟨c, x, o, rfl, h1, rfl⟩ | ⟨k, a, t, x, o, rfl, -, h1, rfl⟩ | ⟨e, x, rfl, h1, rfl⟩ := step_cases hs
    · rw [settle_store]
      exact (start_touch h1).numbers hb
    · rw [settle_store]
      exact (resume_touch h1).numbers hb
    · exact fun key y hy => hb key y (by rw [← (environment_sameChannels h1).connection]; exact hy)

/-! ### What becomes of it -/

/-- Only a message of its own bridge does more to a connection than abort it. -/
theorem Touch.stays {P : Platform} {b b' : Bridges} {c : Cause} {o : Outcome Task Result} {key : ℕ} {x : Channel}
    (h : Touch P b c b' o) (hx : b.connection key = some x) :
    b'.connection key = some x ∨ b'.connection key = some (x.finish true) ∨
      ∃ m, c = .call (.webSocketMessage x.bridge m) := by
  have finished : ∀ {b₁ : Bridges} (k : ℕ), b₁.connection key = some x →
      (b₁.finish k true).connection key = some x ∨ (b₁.finish k true).connection key = some (x.finish true) :=
    fun k hx => by
      rw [Bridges.finish_connection, hx]
      split
      · exact .inr rfl
      · exact .inl rfl
  have finishedAll : ∀ {b₁ : Bridges} (p : Channel → Bool), (∀ c, p (c.finish true) = p c) →
      b₁.connection key = some x → (b₁.finishAll p true).connection key = some x ∨
        (b₁.finishAll p true).connection key = some (x.finish true) := fun {b₁} p hp hx => by
    rw [Bridges.finishAll_connection hp, hx, Option.map_some]
    split
    · exact .inr rfl
    · exact .inl rfl
  have aborts : b'.connection key = some x ∨ b'.connection key = some (x.finish true) →
      b'.connection key = some x ∨ b'.connection key = some (x.finish true) ∨
        ∃ m, c = .call (.webSocketMessage x.bridge m) := fun h => h.elim .inl fun h => .inr (.inl h)
  cases h.channels with
  | same hs => exact .inl ((hs.connection key).trans hx)
  | @finished w m conn k error _ _ hown =>
    obtain ⟨n, y, -, -, hy, hw⟩ := ownChannel_eq_some hown
    by_cases hk : key = k
    · subst hk
      obtain rfl := Option.some.inj (hx.symm.trans hy)
      exact .inr (.inr ⟨m, by rw [hw]⟩)
    · exact .inl (by rw [Bridges.finish_connection, if_neg hk]; exact hx)
  | @written w data payload conn y _ hy hw =>
    by_cases hk : key = y.key
    · subst hk
      obtain rfl := Option.some.inj (hx.symm.trans (channel_eq_some hy).2)
      exact .inr (.inr ⟨_, by rw [hw]⟩)
    · exact .inl (by rw [Bridges.write_connection, if_neg hk]; exact hx)
  | ended _ _ hs => exact aborts (finishedAll _ (fun c => by rw [c.finish_bridge]) ((hs.connection key).trans hx))
  | shutDown =>
    have h₁ : b.SameChannels { b with sockets := b.sockets.map Socket.close } := ⟨rfl, rfl, rfl⟩
    exact aborts (finishedAll (fun _ => true) (fun _ => rfl) ((h₁.connection key).trans hx))
  | entered _ _ hs =>
    rw [hs.connection, Bridges.enterChannel_connection, if_neg (by rw [hx]; simp)]
    exact .inl hx
  | aborted hs => exact aborts (finished _ ((hs.connection key).trans hx))

/-- So does a step. -/
theorem step_stays {P : Platform} {s s' : State} {a : Action} {key : ℕ} {x : Channel}
    (hs : (tunnelObject P).step s a = some s') (hx : s.store.bridges.connection key = some x) :
    s'.store.bridges.connection key = some x ∨ s'.store.bridges.connection key = some (x.finish true) ∨
      ∃ m, a = .call (.webSocketMessage x.bridge m) := by
  obtain ⟨c, z, o, rfl, h1, rfl⟩ | ⟨k, ans, t, z, o, rfl, ht, h1, rfl⟩ | ⟨e, z, rfl, h1, rfl⟩ := step_cases hs
  · rw [settle_store]
    rcases (start_touch h1).stays hx with h | h | ⟨m, hc⟩
    · exact .inl h
    · exact .inr (.inl h)
    · obtain rfl := Cause.call.inj hc
      exact .inr (.inr ⟨m, rfl⟩)
  · rw [settle_store]
    rcases (resume_touch h1).stays hx with h | h | ⟨m, hc⟩
    · exact .inl h
    · exact .inr (.inl h)
    · cases hc
  · exact .inl (((environment_sameChannels h1).connection key).trans hx)

/-! ### What its upload sends -/

/-- While the bridge is open, a turn of the upload sends one message. -/
theorem Touch.turn {P : Platform} {b b' : Bridges} {key : ℕ} {a : Answer} {o : Outcome Task Result} {x : Channel}
    {w : Socket} (h : Touch P b (.resumed (.upload key) a) b' o) (hx : b.connection key = some x)
    (hw : b.socket x.bridge = some w) (ho : w.isOpen = true) :
    ∃ w' m, b'.socket x.bridge = some w' ∧ w'.sent = w.sent ++ [m] ∧ UploadSends x.conn a o [m] := by
  have hopen : b.isOpen x.bridge = true := by
    unfold Bridges.isOpen
    rw [hw]
    exact ho
  have sent : ∀ {b₁ : Bridges} {m : ServerMessage}, b.send P x.bridge m = some b₁ →
      ∃ w', b₁.socket x.bridge = some w' ∧ w'.sent = w.sent ++ [m] := fun hs =>
    ⟨_, by rw [Bridges.send_socket hs, if_pos ⟨rfl, hopen⟩, hw]; rfl, rfl⟩
  cases h with
  | still hk _ => cases hk
  | closed hf => cases hf
  | refused hf _ => cases hf
  | uploaded hc hs =>
    obtain rfl := Option.some.inj (hx.symm.trans hc)
    obtain ⟨w', hw', he⟩ := sent hs
    exact ⟨w', _, hw', he, .chunk⟩
  | uploadEnded hc hs =>
    obtain rfl := Option.some.inj (hx.symm.trans hc)
    obtain ⟨w', hw', he⟩ := sent hs
    exact ⟨w', _, hw', he, .ended⟩
  | uploadFailed hc _ hs =>
    obtain rfl := Option.some.inj (hx.symm.trans hc)
    rcases hs with ⟨-, hnone⟩ | ⟨b₁, hs, rfl⟩
    · unfold Bridges.send at hnone
      rw [if_pos hopen] at hnone
      cases hnone
    · obtain ⟨w', hw', he⟩ := sent hs
      refine ⟨w', _, ?_, he, .failed⟩
      rw [Bridges.socket_of_sockets (Bridges.finish_sockets _ _ _)]
      exact hw'

/-- A `connect` that has read goes on with the upload of a new connection. -/
theorem Touch.opens {P : Platform} {b b' : Bridges} {record : Option StoredTunnel} {a : Answer} {u : Task} {key : ℕ}
    (h : Touch P b (.resumed (.connectRead record) a) b' (.await u)) (hu : u.key = some key) :
    (∃ hello, a = .hello hello) ∧ u = .upload key := by
  cases h with
  | still _ ho =>
    rw [ho u rfl] at hu
    cases hu
  | opened _ _ _ _ _ _ _ =>
    obtain rfl := Option.some.inj hu
    exact ⟨⟨_, rfl⟩, rfl⟩

/-- The upload begins with what the object has read of the stream: the open
message and a data frame for each chunk, when the bridge is open. -/
theorem Touch.begins {P : Platform} {b b' : Bridges} {record : Option StoredTunnel} {hello : Hello} {key : ℕ}
    (h : Touch P b (.resumed (.connectRead record) (.hello hello)) b' (.await (.upload key))) (hb : b.Owned) :
    key = b.nextConnection ∧ ∃ x, b'.connection key = some x ∧ ∀ w, b.socket x.bridge = some w → w.isOpen = true →
      ∃ w', b'.socket x.bridge = some w' ∧
        w'.sent = w.sent ++ (openMessage x.conn hello :: hello.initial.map (.dataFrame x.conn)) := by
  cases h with
  | still _ ho => cases ho _ rfl
  | @opened _ _ _ _ bridge conn sequence _ _ _ _ _ _ _ hs =>
    refine ⟨rfl, b.newChannel bridge.id conn, ?_, fun w hw ho => ?_⟩
    · rw [(Bridges.sameChannels_sendAll hs).connection, Bridges.enterChannel_connection,
        if_pos ⟨rfl, hb.connection_next⟩]
    · have hw : (enterChannel b bridge.id conn sequence).socket bridge.id = some w := hw
      have hopen : (enterChannel b bridge.id conn sequence).isOpen bridge.id = true := by
        unfold Bridges.isOpen
        rw [hw]
        exact ho
      refine ⟨{ w with sent := _ }, ?_, rfl⟩
      show b'.socket bridge.id = _
      rw [Bridges.sendAll_socket hs, if_pos ⟨rfl, hopen⟩, hw]
      rfl

end ShuvTunnel
