/-
# A bridge reaches only what is its own

Connection numbers are shared by all bridges of a tunnel, and a client sends
what it likes. Whatever a socket sends, and for as long as the handler of that
message runs, the other sockets and the channels of other bridges stay as they
are: every access goes through a socket's own id or through the map, whose
entries are the channels of their bridges (`Bridges.Owned`).

Key definitions: `Isolated`, `Cause.Serves`.
Key theorems: `Touch.isolated`, `Serving.step`, `bridge_isolation`.
-/
import ShuvTunnel.Moves

namespace ShuvTunnel

open Coop

/-- What belongs to others than the bridge `A` is as before: the sockets, with
their attachments and all they were sent, the channels, with all that was
written to them and the state of their writers, and their entries in the map. -/
structure Isolated (A : ℕ) (b b' : Bridges) : Prop where
  socket : ∀ w, w ≠ A → b'.socket w = b.socket w
  connection : ∀ k c, b.connection k = some c → c.bridge ≠ A → b'.connection k = some c
  entry : ∀ p ∈ b.channels, ∀ c, b.connection p.2 = some c → c.bridge ≠ A → p ∈ b'.channels

theorem Isolated.refl (A : ℕ) (b : Bridges) : Isolated A b b :=
  ⟨fun _ _ => rfl, fun _ _ h _ => h, fun _ h _ _ _ => h⟩

theorem Isolated.trans {A : ℕ} {b c d : Bridges} (h : Isolated A b c) (h' : Isolated A c d) : Isolated A b d :=
  ⟨fun w hw => (h'.socket w hw).trans (h.socket w hw),
    fun k x hx hA => h'.connection k x (h.connection k x hx hA) hA,
    fun p hp x hx hA => h'.entry p (h.entry p hp x hx hA) x (h.connection _ x hx hA) hA⟩

/-- The channels are those of before, and so are the other sockets. -/
theorem Isolated.of_socket {A : ℕ} {b b' : Bridges} (hc : b.SameChannels b')
    (hs : ∀ w, w ≠ A → b'.socket w = b.socket w) : Isolated A b b' :=
  ⟨hs, fun k _ h _ => (hc.connection k).trans h, fun p hp _ _ _ => by rw [hc.channels]; exact hp⟩

theorem isolated_updateSocket {f : Socket → Socket} (hf : ∀ w, (f w).id = w.id) (b : Bridges) (A : ℕ) :
    Isolated A b (b.updateSocket A f) := by
  refine .of_socket (Bridges.sameChannels_updateSocket b A f) fun w hw => ?_
  rw [Bridges.socket_updateSocket hf, if_neg hw]

theorem isolated_send {P : Platform} {b b' : Bridges} {A : ℕ} {m : ServerMessage} (h : b.send P A m = some b') :
    Isolated A b b' := by
  refine .of_socket (Bridges.sameChannels_send h) fun w hw => ?_
  rw [Bridges.send_socket h, if_neg fun hc => hw hc.1]

theorem isolated_finish {A key : ℕ} {b : Bridges} {c : Channel} (hb : b.Owned) (hc : b.connection key = some c)
    (hA : c.bridge = A) (error : Bool) : Isolated A b (b.finish key error) := by
  refine ⟨fun w _ => Bridges.socket_of_sockets (Bridges.finish_sockets _ _ _) w, fun k x hx hxA => ?_,
    fun p hp x hx hxA => ?_⟩
  · have hk : k ≠ key := by
      rintro rfl
      obtain rfl := Option.some.inj (hx.symm.trans hc)
      exact hxA hA
    rw [Bridges.finish_connection, if_neg hk]
    exact hx
  · by_cases hf : c.finished = true
    · rw [finish_finished hc hf]
      exact hp
    · -- the entry under the channel's number is the channel's own
      have hf : c.finished = false := by simpa using hf
      rw [Bridges.finish_eq hc hf]
      refine List.mem_filter.mpr ⟨hp, ?_⟩
      have hne : p.1 ≠ c.conn := fun he => by
        have := hb.eq_of_number hp (hb.unfinished key c hc hf) he
        rw [this] at hx
        obtain rfl := Option.some.inj (hx.symm.trans hc)
        exact hxA hA
      simpa using hne

theorem isolated_write {A : ℕ} {b : Bridges} {c : Channel} (hc : b.connection c.key = some c)
    (hA : c.bridge = A) (payload : Bytes) : Isolated A b (b.write c.key payload) := by
  refine ⟨fun _ _ => rfl, fun k x hx hxA => ?_, fun p hp _ _ _ => hp⟩
  have hk : k ≠ c.key := by
    rintro rfl
    obtain rfl := Option.some.inj (hx.symm.trans hc)
    exact hxA hA
  rw [Bridges.write_connection, if_neg hk]
  exact hx

/-- A number leads to a channel through the map. -/
theorem channel_eq_some {b : Bridges} {conn : ℕ} {c : Channel} (h : b.channel conn = some c) :
    (conn, c.key) ∈ b.channels ∧ b.connection c.key = some c := by
  obtain ⟨key, hk, hc⟩ := Option.bind_eq_some_iff.mp h
  rw [connection_key hc]
  exact ⟨mem_of_lookup hk, hc⟩

theorem ownChannel_eq_some {b : Bridges} {w key : ℕ} {conn : ℚ} (h : Store.ownChannel b w conn = some key) :
    ∃ (n : ℕ) (c : Channel), (n : ℚ) = conn ∧ (n, key) ∈ b.channels ∧ b.connection key = some c ∧ c.bridge = w := by
  obtain ⟨c, hc, h⟩ := Option.bind_eq_some_iff.mp h
  obtain ⟨p, hp, hc⟩ := Option.bind_eq_some_iff.mp hc
  split at h
  · rename_i hw
    obtain rfl := Option.some.inj h
    have hkey := connection_key hc
    refine ⟨p.1, c, by simpa using List.find?_some hp, ?_, by rw [hkey]; exact hc, hw⟩
    rw [hkey]
    exact List.mem_of_find?_eq_some hp
  · cases h

theorem attachedControl_ping {P : Platform} {s : Store} {socket : ℕ} {control : Json} {t : ℚ}
    (ht : (control.field "time_sent").bind Json.number? = some t) :
    s.attachedControl P socket "ping" control = (s.bridges.send P socket (.pong t)).elim
      (s, .done (.thrown "send")) fun b => (s.withBridges b, .done .void) := by
  unfold Store.attachedControl
  rw [ht]
  cases hs : s.bridges.send P socket (.pong t) with
  | none => simp [hs]
  | some b => simp [hs]

/-- An `end`, or with an error a `reset`, finishes the channel if it is the sender's. -/
theorem attachedControl_finish {P : Platform} {s : Store} {socket : ℕ} {control : Json} {conn : ℚ}
    (hconn : (control.field "conn").bind Json.number? = some conn) (error : Bool) :
    s.attachedControl P socket (if error then "reset" else "end") control =
      (Store.ownChannel s.bridges socket conn).elim (s, .done .void)
        fun key => (s.withBridges (s.bridges.finish key error), .done .void) := by
  unfold Store.attachedControl
  rw [hconn]
  cases hown : Store.ownChannel s.bridges socket conn with
  | none => cases error <;> simp [hown]
  | some key => cases error <;> simp [hown]

/-! ### The handler of a message -/

/-- The segment belongs to the handler of a message from `A`: the first one,
one of the attach message, or the renewal an attach message starts. -/
def Cause.Serves (A : ℕ) : Cause → Prop
  | .call (.webSocketMessage w _) => w = A
  | .resumed (.attachRecord w _ _) _ => w = A
  | .resumed (.attachHash w _ _ _) _ => w = A
  | .resumed (.renewCreate ..) _ => True
  | _ => False

theorem Cause.Serves.eq_of_for {A w : ℕ} {c : Cause} (h : c.Serves A) (hw : c.For w) : w = A := by
  cases hw with
  | message => exact h
  | error => exact h.elim
  | record => exact h
  | hash => exact h

/-- The segment leaves what is not `A`'s as it is. -/
theorem Touch.isolated {P : Platform} {b b' : Bridges} {c : Cause} {o : Outcome Task Result} {A : ℕ}
    (h : Touch P b c b' o) (hc : c.Serves A) (hb : b.Owned) : Isolated A b b' := by
  cases h with
  | still _ _ => exact .refl A b
  | accepted => exact hc.elim
  | closed hw =>
    obtain rfl := hc.eq_of_for hw
    exact isolated_updateSocket (f := Socket.close) (fun _ => rfl) b _
  | refused hw hs =>
    obtain rfl := hc.eq_of_for hw
    exact (isolated_send hs).trans (isolated_updateSocket (f := Socket.close) (fun _ => rfl) _ _)
  | @attached w _ _ _ _ _ b₁ _ _ _ hb₁ hs _ =>
    obtain rfl : w = A := hc
    have h₁ : Isolated w b b₁ :=
      hb₁ ▸ isolated_updateSocket (f := fun w => { w with attachment := some _ }) (fun _ => rfl) b w
    rcases hs with rfl | hs
    · exact h₁
    · exact h₁.trans (isolated_send hs)
  | @ponged w _ _ _ hs =>
    obtain rfl : w = A := hc
    exact isolated_send hs
  | @finished w _ _ _ _ _ hown =>
    obtain rfl : w = A := hc
    obtain ⟨n, x, -, -, hx, hw⟩ := ownChannel_eq_some hown
    exact isolated_finish hb hx hw _
  | @written w _ _ _ x _ hx hw =>
    obtain rfl : w = A := hc
    exact isolated_write (channel_eq_some hx).2 hw _
  | closeHandled _ _ _ _ _ => exact hc.elim
  | shutDown => exact hc.elim
  | opened _ _ _ _ _ _ _ => exact hc.elim
  | openThrown _ _ _ => exact hc.elim
  | uploaded _ _ => exact hc.elim
  | uploadEnded _ _ => exact hc.elim
  | uploadFailed _ _ _ => exact hc.elim
  | settled _ _ => exact hc.elim

/-- A task of that handler. -/
def Task.Serves (A : ℕ) (t : Task) : Prop := ∀ a, (Cause.resumed t a).Serves A

/-- It is not the task of a channel. -/
theorem Touch.keyless {P : Platform} {b b' : Bridges} {c : Cause} {u : Task} {A : ℕ}
    (h : Touch P b c b' (.await u)) (hc : c.Serves A) : u.key = none := by
  cases h with
  | still _ ho => exact ho u rfl
  | attached _ _ _ ho => exact ho u rfl
  | _ => exact hc.elim

/-- The handler goes on as that handler. -/
theorem Follows.serves {P : Platform} {d : Durable} {c : Cause} {u : Task} {A : ℕ} (h : Follows P d c u)
    (hc : c.Serves A) (hu : u.key = none) : u.Serves A := by
  cases h with
  | attach => exact fun _ => hc
  | attachRead _ => exact fun _ => hc
  | upload => cases hu
  | settling => cases hu
  | _ => exact hc.elim

theorem Effect.serves {P : Platform} {s s' : Store} {c : Cause} {u : Task} {A : ℕ}
    (h : Effect P s c s' (.await u)) (hc : c.Serves A) (hu : u.key = none) : u.Serves A := by
  cases h with
  | quiet _ ho _ => exact (ho u rfl).serves hc hu
  | opened _ _ _ _ _ => exact hc.elim
  | renewing _ _ _ _ _ => exact hc.elim
  | issued _ _ => exact hc.elim
  | @requested t a e he _ =>
    cases t with
    | ensureGet _ | ensureStatus _ | ensureCreate _ _ | ensureRestart _ _ => exact hc.elim
    | _ => cases he
  | @taken t params d ht _ =>
    cases t with
    | renewCreate r params' accepted => exact fun _ => trivial
    | ensureCreate _ _ => exact hc.elim
    | _ => cases ht
  | restarted _ => exact hc.elim
  | attachedRenewing _ _ _ _ _ _ => exact fun _ => trivial

/-- What is known of the state while call `k` is the handler of a message from
`A`. -/
structure Serving (P : Platform) (A k : ℕ) (s : State) : Prop where
  reachable : Reachable P s
  called : k < s.next
  tasks : ∀ u, (k, u) ∈ s.tasks → u.Serves A

theorem Serving.of_message {P : Platform} {s s' : State} {A : ℕ} {m : Message} (h : Reachable P s)
    (hs : (tunnelObject P).step s (.call (.webSocketMessage A m)) = some s') :
    Serving P A s.next s' ∧ Isolated A s.store.bridges s'.store.bridges := by
  have hreach := h.step hs
  have hs : (handlers P).step s (.call (.webSocketMessage A m)) = some s' := hs
  obtain ⟨⟨x, o⟩, h1, rfl⟩ := Option.map_eq_some_iff.mp hs
  have h1 : start P s.store (.webSocketMessage A m) = some (x, o) := h1
  have htouch := start_touch h1
  refine ⟨⟨hreach, ?_, fun u hu => ?_⟩, ?_⟩
  · rw [settle_next]
    exact Nat.lt_succ_self _
  · rcases mem_settle_tasks hu with hu | ⟨-, ho⟩
    · exact absurd ((ShuvTunnel.called h).tasks _ hu) (lt_irrefl _)
    · have ho : o = .await u := ho
      rw [ho] at htouch h1
      exact (start_effect h1).serves rfl (htouch.keyless rfl)
  · rw [settle_store]
    exact htouch.isolated rfl (owned_of_reachable h)

theorem Serving.step {P : Platform} {A k : ℕ} {s s' : State} {l : Action} (h : Serving P A k s)
    (hs : (tunnelObject P).step s l = some s') : Serving P A k s' := by
  refine ⟨h.reachable.step hs, lt_of_lt_of_le h.called (next_le hs), fun u hu => ?_⟩
  obtain ⟨c, x, o, rfl, -, rfl⟩ | ⟨j, a, t, x, o, rfl, ht, h1, rfl⟩ | ⟨e, x, rfl, -, rfl⟩ := step_cases hs
  · rcases mem_settle_tasks hu with hu | ⟨hk, -⟩
    · exact h.tasks u hu
    · exact absurd hk (Nat.ne_of_lt h.called)
  · rcases mem_settle_tasks hu with hu | ⟨hk, ho⟩
    · exact h.tasks u (mem_wake_tasks hu)
    · have hk : k = j := hk
      have ho : o = .await u := ho
      have hserves := h.tasks t (hk ▸ task_mem ht) a
      rw [ho] at h1
      exact (resume_effect h1).serves hserves ((resume_touch h1).keyless hserves)
  · exact h.tasks u hu

/-- A later segment of the handler. -/
theorem Serving.isolated {P : Platform} {A k : ℕ} {s s' : State} {a : Answer} (h : Serving P A k s)
    (hs : (tunnelObject P).step s (.resume k a) = some s') : Isolated A s.store.bridges s'.store.bridges := by
  have hs : (handlers P).step s (.resume k a) = some s' := hs
  obtain ⟨t, ht, hs⟩ := Option.bind_eq_some_iff.mp hs
  obtain ⟨⟨x, o⟩, h1, rfl⟩ := Option.map_eq_some_iff.mp hs
  rw [settle_store]
  exact (resume_touch h1).isolated (h.tasks t (task_mem ht) a) (owned_of_reachable h.reachable)

/-- While the handler of a message runs, each of its segments leaves what is
not its socket's as it is, and whatever others do in between. -/
theorem bridge_isolation {P : Platform} {s s' t : State} {A : ℕ} {m : Message}
    {es : List (Lts.Event State Action)} (h : Reachable P s)
    (hs : (tunnelObject P).step s (.call (.webSocketMessage A m)) = some s') (hr : Run P s' es t) :
    Isolated A s.store.bridges s'.store.bridges ∧
      ∀ e ∈ es, ∀ a, e.label = .resume s.next a → Isolated A e.before.store.bridges e.after.store.bridges := by
  obtain ⟨hserving, hfirst⟩ := Serving.of_message h hs
  refine ⟨hfirst, fun e he a hl => ?_⟩
  have hinv := hr.invariant (A := fun _ _ => True) (fun _ _ _ hy _ hstep => hy.step hstep) (fun _ _ => trivial)
    hserving
  obtain ⟨fs, gs, rfl⟩ := List.append_of_mem he
  have hstep := hr.at.2
  rw [hl] at hstep
  exact (hinv.2 e he).1.isolated hstep

/-- Socket 0 is attached, a connection is opened on it, and socket 1 is accepted. -/
def secondRun : List Action := servingRun ++ [.call .connect, .resume 4 (.hello rootHello), fetching]

/-- Socket 1 asks to attach for the route `a`. -/
def secondMessage : Message :=
  .text (some (.obj [("type", .str "attach"), ("token", .str "tok"), ("routes", .arr [.str "a"])]))

/-- It attaches, while the upload of the connection goes on. -/
def secondLabels : List Action := [.resume 6 .ok, .resume 4 (.chunk [1] 0), .resume 6 (.drawn "" "2")]

set_option maxRecDepth 4000 in
theorem secondRun_state : ∃ s s' t c, after plainPlatform secondRun = some s ∧
    (tunnelObject plainPlatform).step s (.call (.webSocketMessage 1 secondMessage)) = some s' ∧
    (tunnelObject plainPlatform).exec s' secondLabels = some t ∧ s.next = 6 ∧
    s.store.bridges.connection 0 = some c ∧ c.bridge = 0 ∧ c.finished = false ∧
    (t.store.bridges.attachedBridges.map fun w => (w.id, w.routes)) = [(1, ["a"]), (0, ["@"])] :=
  ⟨_, _, _, _, rfl, rfl, rfl, rfl, rfl, rfl, rfl, by decide⟩

/-- A second bridge attaches: its message and the two segments after it leave the
first one and its channel alone. -/
theorem bridge_isolation_second : ∃ s s' t es c, Reachable plainPlatform s ∧
    s.store.bridges.connection 0 = some c ∧ c.bridge = 0 ∧ c.finished = false ∧
    Run plainPlatform s' es t ∧ es.map (·.label) = secondLabels ∧
    (t.store.bridges.attachedBridges.map fun w => (w.id, w.routes)) = [(1, ["a"]), (0, ["@"])] ∧
    s'.store.bridges.connection 0 = some c ∧ s'.store.bridges.socket 0 = s.store.bridges.socket 0 ∧
    ∀ e ∈ es, ∀ a, e.label = .resume 6 a → Isolated 1 e.before.store.bridges e.after.store.bridges := by
  obtain ⟨s, s', t, c, hs, h1, h2, hnext, hc, hbridge, hf, hattached⟩ := secondRun_state
  obtain ⟨es, hr, hl⟩ := Lts.Run.exists_of_exec h2
  obtain ⟨hfirst, hrest⟩ := bridge_isolation (reachable_of_after hs) h1 hr
  refine ⟨s, s', t, es, c, reachable_of_after hs, hc, hbridge, hf, hr, hl, hattached,
    hfirst.connection 0 c hc (by rw [hbridge]; decide), hfirst.socket 0 (by decide), fun e he a ha => ?_⟩
  rw [← hnext] at ha
  exact hrest e he a ha

end ShuvTunnel
