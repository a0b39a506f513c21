/-
# The client and the object agree on the attachment

A client sends one attach message at most, before all else, and is attached
once it has taken `attached`. So the handler of that message is the only one of
the bridge's socket: a client that is attached has the session and the routes
the object holds for its socket, whatever other bridges, calls and events come
in between, and no other open bridge has one of these routes.

Key definitions: `Peer.Attends`, `Untold`, `Granted`, `Network.Agreeing`.
Key theorems: `step_socket`, `Network.agreeing_of_reached`,
`client_agrees`.
-/
import ShuvTunnel.Attempts
import ShuvTunnel.DownloadFidelity

namespace ShuvTunnel

open Coop

/-! ### What a client says -/

namespace ClientMessage

/-- The message asks to be attached. -/
def isAttach : ClientMessage → Bool
  | attach .. => true
  | _ => false

theorem isAttach_of_conn {m : ClientMessage} {n : ℕ} (h : m.conn? = some n) : m.isAttach = false := by
  cases m <;> first | rfl | cases h

/-- Only an attach message asks to attach, with its own routes. -/
theorem attaches_message {m : ClientMessage} {token : String} {routes : Option Json}
    (h : m.message.Attaches token routes) : ∃ rs, m = .attach token rs ∧ routes = some (.arr (rs.map .str)) := by
  obtain ⟨value, control, hm, hc, htype, htoken, rfl⟩ := h
  cases m with
  | attach token' rs =>
    obtain rfl := Message.text.inj hm
    obtain rfl := Option.some.inj hc
    obtain rfl := Option.some.inj htoken
    exact ⟨rs, rfl, rfl⟩
  | ping time_sent =>
    obtain rfl := Message.text.inj hm
    obtain rfl := Option.some.inj hc
    exact absurd (Option.some.inj htype) (by decide)
  | endConn conn =>
    obtain rfl := Message.text.inj hm
    obtain rfl := Option.some.inj hc
    exact absurd (Option.some.inj htype) (by decide)
  | resetConn conn code =>
    obtain rfl := Message.text.inj hm
    obtain rfl := Option.some.inj hc
    exact absurd (Option.some.inj htype) (by decide)
  | dataFrame conn payload => cases hm

end ClientMessage

/-- A session sends its attach message once, as it begins, and is attached by
an `attached` message alone. -/
structure Peer.Attends (C : Peer) (o : Options) where
  Begun : C.Session → Prop
  Attached : C.Session → Prop
  start : ¬ Attached C.start
  take : ∀ {s m stalled s' ms}, C.take s m stalled = some (s', ms) →
    (∀ a ∈ ms, a.isAttach = false) ∧ (Begun s → Begun s') ∧ (Attached s' → Attached s ∨ m.isAttached = true)
  move : ∀ {s μ s' ms}, C.move s μ = some (s', ms) → (Begun s → Begun s') ∧ (Attached s' → Attached s) ∧
    ((∀ a ∈ ms, a.isAttach = false) ∨ ms = [.attach o.token o.routes] ∧ ¬ Begun s ∧ Begun s')

theorem no_attach_nil : ∀ a ∈ ([] : List ClientMessage), a.isAttach = false := fun _ h => nomatch h

theorem no_attach_singleton {m : ClientMessage} {n : ℕ} (h : m.conn? = some n) : ∀ a ∈ [m], a.isAttach = false := by
  intro a ha
  rw [List.mem_singleton.mp ha]
  exact ClientMessage.isAttach_of_conn h

/-! ### The Rust client -/

namespace Rust

variable {s s' : Session} {ms : List ClientMessage}

theorem RunChannel.step_attach {t t' : RunChannel} {μ : ChannelMove} (h : t.step μ = some (t', ms)) :
    ∀ a ∈ ms, a.isAttach = false := by
  cases steps_of_step h with
  | sends _ _ => exact no_attach_singleton rfl
  | sendsEnd _ _ => exact no_attach_singleton rfl
  | reports _ => exact no_attach_singleton rfl
  | _ => exact no_attach_nil

namespace Session

theorem sendInbound_phase {i : ℕ} {item : Inbound} (h : s.sendInbound i item = some s') : s'.phase = s.phase := by
  obtain ⟨t, -, h⟩ := Option.bind_eq_some_iff.mp h
  split at h
  · rw [Option.some.inj h]
  · split at h
    · obtain rfl := Option.some.inj h
      rfl
    · cases h

theorem onBinary_attach {frame : Bytes} {stalled : Bool} (h : s.onBinary frame stalled = some (s', ms)) :
    s'.phase = s.phase ∧ ∀ a ∈ ms, a.isAttach = false := by
  have done : ∀ {x : Session} {ns : List ClientMessage}, some (x, ns) = some (s', ms) → x.phase = s.phase →
      (∀ a ∈ ns, a.isAttach = false) → s'.phase = s.phase ∧ ∀ a ∈ ms, a.isAttach = false := fun he hp hn => by
    obtain ⟨rfl, rfl⟩ := Prod.mk.inj (Option.some.inj he)
    exact ⟨hp, hn⟩
  unfold onBinary at h
  split at h
  · exact done h rfl no_attach_nil
  · split at h
    · exact done h rfl no_attach_nil
    · split at h
      · rename_i hs
        exact done h (sendInbound_phase hs) no_attach_nil
      · split at h
        · exact done h rfl (no_attach_singleton rfl)
        · cases h

theorem onMessage_attach {o : Options} {m : ServerMessage} {stalled : Bool}
    (h : s.onMessage o stalled m = some (s', ms)) : s'.phase = s.phase ∧ ∀ a ∈ ms, a.isAttach = false := by
  have done : ∀ {x : Session} {ns : List ClientMessage}, some (x, ns) = some (s', ms) → x.phase = s.phase →
      (∀ a ∈ ns, a.isAttach = false) → s'.phase = s.phase ∧ ∀ a ∈ ms, a.isAttach = false := fun he hp hn => by
    obtain ⟨rfl, rfl⟩ := Prod.mk.inj (Option.some.inj he)
    exact ⟨hp, hn⟩
  unfold onMessage at h
  split at h
  · exact onBinary_attach h
  · split at h
    · exact done h rfl (no_attach_singleton rfl)
    · exact done h rfl no_attach_nil
  · split at h
    · exact done h rfl no_attach_nil
    · obtain ⟨x, hx, he⟩ := Option.map_eq_some_iff.mp h
      exact done (congrArg some he) (sendInbound_phase hx) no_attach_nil
  · split at h
    · exact done h rfl no_attach_nil
    · exact done h rfl no_attach_nil
  · exact done h rfl no_attach_nil

end Session

/-- The attach message is the first the session sends. -/
def attends (o : Options) : (peer o).Attends o where
  Begun s := s.phase ≠ .connecting
  Attached s := s.phase = .attached
  start h := nomatch h
  take {s m stalled s' ms} h := by
    have h : Session.take o s m stalled = some (s', ms) := h
    unfold Session.take at h
    split at h
    · cases h
    · split at h
      · cases h
      · obtain ⟨rfl, rfl⟩ := Prod.mk.inj (Option.some.inj h)
        exact ⟨no_attach_nil, fun _ he => (nomatch he), fun _ => .inr rfl⟩
      · obtain ⟨rfl, rfl⟩ := Prod.mk.inj (Option.some.inj h)
        exact ⟨no_attach_nil, fun hb => hb, fun ha => .inl ha⟩
      · obtain ⟨rfl, rfl⟩ := Prod.mk.inj (Option.some.inj h)
        exact ⟨no_attach_nil, fun hb => hb, fun ha => .inl ha⟩
      · obtain ⟨hp, hms⟩ := Session.onMessage_attach h
        exact ⟨hms, fun hb => by rwa [hp], fun ha => .inl (by rwa [hp] at ha)⟩
  move {s μ s' ms} h := by
    have h : Session.move o s μ = some (s', ms) := h
    cases μ with
    | attach =>
      simp only [Session.move] at h
      split at h
      · rename_i hc
        obtain ⟨rfl, rfl⟩ := Prod.mk.inj (Option.some.inj h)
        have hphase : s.phase = .connecting := by simpa using (Bool.and_eq_true_iff.mp hc).2
        exact ⟨fun _ he => (nomatch he), fun he => (nomatch he),
          .inr ⟨rfl, fun hb => hb hphase, fun he => nomatch he⟩⟩
      · cases h
    | ping time_sent =>
      simp only [Session.move] at h
      split at h
      · obtain ⟨rfl, rfl⟩ := Prod.mk.inj (Option.some.inj h)
        refine ⟨fun hb => hb, fun ha => ha, .inl fun a ha => ?_⟩
        rw [List.mem_singleton.mp ha]
        rfl
      · cases h
    | channel i μ =>
      obtain ⟨t, -, h⟩ := Option.bind_eq_some_iff.mp h
      obtain ⟨p, hp, h⟩ := Option.bind_eq_some_iff.mp h
      split at h
      · cases h
      · obtain ⟨rfl, rfl⟩ := Prod.mk.inj (Option.some.inj h)
        exact ⟨fun hb => hb, fun ha => ha, .inl (RunChannel.step_attach hp)⟩
    | join i =>
      obtain ⟨t, -, h⟩ := Option.bind_eq_some_iff.mp h
      split at h
      · obtain ⟨rfl, rfl⟩ := Prod.mk.inj (Option.some.inj h)
        exact ⟨fun hb => hb, fun ha => ha, .inl no_attach_nil⟩
      · cases h
    | disconnect =>
      simp only [Session.move] at h
      split at h
      · cases h
      · obtain ⟨rfl, rfl⟩ := Prod.mk.inj (Option.some.inj h)
        exact ⟨fun hb => hb, fun ha => ha, .inl no_attach_nil⟩

end Rust

/-! ### The TypeScript client -/

namespace TypeScript

namespace Session

/-- What is no attach message leaves the attachment as it is. -/
structure Aside (s s' : Session) (ms : List ClientMessage) : Prop where
  begun : s.readyState ≠ .CONNECTING → s'.readyState ≠ .CONNECTING
  attached : s'.attached = s.attached
  sent : ∀ a ∈ ms, a.isAttach = false

variable {s s' s'' : Session} {ms ms' : List ClientMessage}

theorem Aside.refl (s : Session) : Aside s s [] := ⟨fun h => h, rfl, no_attach_nil⟩

theorem Aside.trans (h : Aside s s' ms) (h' : Aside s' s'' ms') : Aside s s'' (ms ++ ms') := by
  refine ⟨fun hb => h'.begun (h.begun hb), h'.attached.trans h.attached, fun a ha => ?_⟩
  rcases List.mem_append.mp ha with ha | ha
  · exact h.sent a ha
  · exact h'.sent a ha

theorem Aside.same (hr : s'.readyState = s.readyState) (ha : s'.attached = s.attached)
    (hm : ∀ a ∈ ms, a.isAttach = false) : Aside s s' ms :=
  ⟨fun h => hr ▸ h, ha, hm⟩

theorem sendControl_attach {m : ClientMessage} {n : ℕ} (h : m.conn? = some n) :
    ∀ a ∈ s.sendControl m, a.isAttach = false := fun a ha => by
  rw [mem_sendControl ha]
  exact ClientMessage.isAttach_of_conn h

theorem destroy_aside (s : Session) (i : ℕ) (code : String) (notify : Bool) :
    Aside s (s.destroy i code notify).1 (s.destroy i code notify).2 := by
  unfold destroy
  split
  · exact .refl s
  · split
    · exact .refl s
    · cases notify with
      | false => exact .same rfl rfl no_attach_nil
      | true => exact .same rfl rfl (sendControl_attach rfl)

theorem destroyAll_aside (code : String) (is : List ℕ) (s : Session) :
    Aside s (destroyAll code is s).1 (destroyAll code is s).2 := by
  induction is generalizing s with
  | nil => exact .refl s
  | cons i is ih => exact (destroy_aside s i code true).trans (ih _)

theorem finishSession_aside (s : Session) : Aside s s.finishSession.1 s.finishSession.2 := by
  unfold finishSession
  split
  · exact .refl s
  · have hall := destroyAll_aside "bridge disconnected" s.values { s with isOver := true }
    exact ⟨fun _ he => (nomatch he), hall.attached, hall.sent⟩

theorem push_aside (s : Session) (i : ℕ) (payload : Bytes) : Aside s (s.push i payload).1 (s.push i payload).2 := by
  unfold push
  split
  · exact .refl s
  · split
    · exact .refl s
    · split
      · exact destroy_aside s i _ true
      · split
        · exact .refl s
        · exact .same rfl rfl no_attach_nil

theorem endInbound_aside (s : Session) (i : ℕ) : Aside s (s.endInbound i) [] := by
  unfold endInbound
  split
  · exact .refl s
  · split
    · exact .refl s
    · exact .same rfl rfl no_attach_nil

theorem onData_aside (s : Session) (frame : Bytes) : Aside s (s.onData frame).1 (s.onData frame).2 := by
  unfold onData
  split
  · exact .refl s
  · split
    · exact .refl s
    · exact push_aside s _ _

/-- Only `attached` attaches. -/
theorem onControl_aside {U : Unicode} {o : Options} {m : ServerMessage} :
    Aside s (s.onControl U o m).1 (s.onControl U o m).2 ∨
      m.isAttached = true ∧ s.onControl U o m = ({ s with attached := true }, []) := by
  cases m with
  | attached session routes heartbeat idle => exact .inr ⟨rfl, rfl⟩
  | attachError code =>
    refine .inl ?_
    simp only [onControl]
    split
    · exact .refl s
    · exact finishSession_aside s
  | openConn conn public_peer sni accepted_at =>
    refine .inl ?_
    cases sni with
    | none => exact .refl s
    | some sni =>
      simp only [onControl]
      split
      · exact .refl s
      · split
        · exact .same rfl rfl (sendControl_attach rfl)
        · split
          · exact .same rfl rfl no_attach_nil
          · split
            · exact .refl s
            · exact .same rfl rfl (sendControl_attach rfl)
  | endConn conn =>
    refine .inl ?_
    simp only [onControl]
    split
    · exact .refl s
    · split
      · exact .refl s
      · exact endInbound_aside s _
  | resetConn conn code =>
    refine .inl ?_
    simp only [onControl]
    split
    · exact .refl s
    · split
      · exact .refl s
      · exact destroy_aside s _ _ _
  | pong time_sent => exact .inl (.refl s)
  | dataFrame conn payload => exact .inl (.refl s)

/-- A channel that goes on leaves the attachment as it is. -/
theorem goOn_aside {i : ℕ} {f : Channel → Option (Channel × List ClientMessage)}
    (hf : ∀ c p, f c = some p → ∀ a ∈ p.2, a.isAttach = false) (h : s.goOn i f = some (s', ms)) : Aside s s' ms := by
  obtain ⟨c, -, h⟩ := Option.bind_eq_some_iff.mp h
  split at h
  · cases h
  · obtain ⟨p, hp, he⟩ := Option.map_eq_some_iff.mp h
    obtain ⟨rfl, rfl⟩ := Prod.mk.inj he
    exact .same rfl rfl (hf c p hp)

variable {U : Unicode} {o : Options}

theorem take_aside {m : ServerMessage} (stalled : Bool) (h : s.take U o m stalled = some (s', ms)) :
    Aside s s' ms ∨ m.isAttached = true ∧ s' = { s with attached := true } ∧ ms = [] := by
  unfold take at h
  split at h
  · split at h
    · rename_i conn payload
      have ha := onData_aside s (buildDataFrame conn payload)
      rw [Option.some.inj h] at ha
      exact .inl ha
    · rcases onControl_aside (s := s) (U := U) (o := o) (m := m) with ha | ⟨hm, he⟩
      · have he : s.onControl U o m = (s', ms) := Option.some.inj h
        rw [he] at ha
        exact .inl ha
      · obtain ⟨rfl, rfl⟩ := Prod.mk.inj (he.symm.trans (Option.some.inj h))
        exact .inr ⟨hm, rfl, rfl⟩
  · cases h

theorem move_aside {μ : Move} (h : s.move o μ = some (s', ms)) : Aside s s' ms ∨
    s.readyState = .CONNECTING ∧ s' = { s with readyState := .OPEN } ∧ ms = [.attach o.token o.routes] := by
  cases μ with
  | «open» =>
    simp only [move] at h
    split at h
    · rename_i hc
      obtain ⟨rfl, rfl⟩ := Prod.mk.inj (Option.some.inj h)
      exact .inr ⟨hc.1, rfl, rfl⟩
    · cases h
  | ping time_sent =>
    simp only [move] at h
    split at h
    · obtain ⟨rfl, rfl⟩ := Prod.mk.inj (Option.some.inj h)
      refine .inl (.same rfl rfl fun a ha => ?_)
      rw [mem_sendControl ha]
      rfl
    · cases h
  | read i n =>
    refine .inl (goOn_aside (fun c p hp => ?_) h)
    obtain rfl := Option.some.inj hp
    exact no_attach_nil
  | write i data =>
    refine .inl (goOn_aside (fun c p hp => ?_) h)
    split at hp
    · cases hp
    · split at hp
      · obtain rfl := Option.some.inj hp
        intro a ha
        obtain ⟨payload, -, rfl⟩ := List.mem_map.mp ha
        rfl
      · obtain rfl := Option.some.inj hp
        exact no_attach_nil
  | final i =>
    refine .inl (goOn_aside (fun c p hp => ?_) h)
    split at hp
    · cases hp
    · split at hp
      · obtain rfl := Option.some.inj hp
        exact no_attach_singleton rfl
      · obtain rfl := Option.some.inj hp
        exact no_attach_nil
  | error i connecting =>
    have ha := destroy_aside s i (if connecting then "upstream_connect_failed" else "upstream_io_error") true
    rw [Option.some.inj h] at ha
    exact .inl ha
  | close i =>
    have ha := destroy_aside s i "" false
    rw [Option.some.inj h] at ha
    exact .inl ha
  | closing =>
    obtain ⟨rfl, rfl⟩ := Prod.mk.inj (Option.some.inj h)
    exact .inl ⟨fun _ he => ReadyState.noConfusion he, rfl, no_attach_nil⟩
  | finish =>
    have ha := finishSession_aside s
    rw [Option.some.inj h] at ha
    exact .inl ha

end Session

/-- So is the attach message of this session. -/
def attends (U : Unicode) (o : Options) : (peer U o).Attends o where
  Begun s := Session.readyState s ≠ .CONNECTING
  Attached s := Session.attached s = true
  start h := nomatch h
  take {s m stalled s' ms} h := by
    rcases Session.take_aside stalled h with ha | ⟨hm, rfl, rfl⟩
    · exact ⟨ha.sent, ha.begun, fun hyes => .inl (ha.attached ▸ hyes)⟩
    · exact ⟨no_attach_nil, fun hb => hb, fun _ => .inr hm⟩
  move {s μ s' ms} h := by
    rcases Session.move_aside h with ha | ⟨hs, rfl, rfl⟩
    · exact ⟨ha.begun, fun hyes => ha.attached ▸ hyes, .inl ha.sent⟩
    · exact ⟨fun _ he => (nomatch he), fun hyes => hyes, .inr ⟨rfl, fun hb => hb hs, fun he => nomatch he⟩⟩

end TypeScript

/-- Both libraries send one attach message at most. -/
def Library.attends (U : Unicode) (o : Options) : (L : Library) → (L.peer U o).Attends o
  | rust => Rust.attends o
  | typescript => TypeScript.attends U o

/-! ### The object's side -/

/-- What a step makes of socket `w`: it has the attachment and the greetings it
had, or none yet, or the last segment of its attach message attaches it. -/
theorem step_socket {P : Platform} {s s' : State} {l : Action} {w : ℕ} {x' : Socket} (h : Reachable P s)
    (hs : (tunnelObject P).step s l = some s') (hx' : s'.store.bridges.socket w = some x') :
    (∃ x, s.store.bridges.socket w = some x ∧ x'.attachment = x.attachment ∧ x'.greetings = x.greetings) ∨
      (x'.attached = false ∧ x'.greetings = []) ∨
      ∃ k a token routes r session x, l = .resume k a ∧ s.task k = some (.attachHash w token routes r) ∧
        s.store.bridges.socket w = some x ∧ Greeted x x' session (Store.requestedRoutes routes) := by
  have hn := (exclusive_of_reachable h).numbered
  obtain ⟨hmem', hid'⟩ := mem_of_socket hx'
  have listed : ∀ x ∈ s.store.bridges.sockets, x'.id = x.id → s.store.bridges.socket w = some x := fun x hx hid => by
    rw [← hid', hid]
    exact Bridges.socket_of_mem hn hx
  rcases step_greets hs with hu | ⟨k, a, v, token, routes, r, session, hl, ht, hm⟩
  · rcases hu x' hmem' with ⟨x, hx, hid, hatt, hg⟩ | hnew
    · exact .inl ⟨x, listed x hx hid, hatt, hg⟩
    · exact .inr (.inl hnew)
  · rcases hm x' hmem' with ⟨x, hx, hid, hatt, hg⟩ | hnew | ⟨hv, x, hx, hg⟩
    · exact .inl ⟨x, listed x hx hid, hatt, hg⟩
    · exact .inr (.inl hnew)
    · obtain rfl := hv.symm.trans hid'
      exact .inr (.inr ⟨k, a, token, routes, r, session, x, hl, ht, listed x hx hg.id, hg⟩)

/-- Socket `w` is not attached, and was not told so. -/
structure Untold (b : Bridges) (w : ℕ) (log : List ServerMessage) : Prop where
  attached : ∀ x, b.socket w = some x → x.attached = false
  told : log.filter (·.isAttached) = []

/-- Socket `w` is attached with these, if it is still listed, and was told
nothing else. -/
structure Granted (b : Bridges) (w : ℕ) (log : List ServerMessage) (session : String)
    (routes : List String) : Prop where
  accepted : w < b.nextSocket
  attachment : ∀ x, b.socket w = some x →
    x.attachment = some { attached := true, session := some session, routes := some routes }
  told : log.filter (·.isAttached) = [] ∨
    log.filter (·.isAttached) = [.attached session routes HEARTBEAT_MS IDLE_TIMEOUT_MS]

section Step

variable {P : Platform} {s s' : State} {l : Action} {w : ℕ} {log : List ServerMessage}

/-- What is noted of the socket after a step. -/
def noted (s : State) (w : ℕ) (log : List ServerMessage) : List ServerMessage :=
  ((s.store.bridges.socket w).map (·.sent)).getD log

theorem noted_of_socket {x : Socket} (hx : s.store.bridges.socket w = some x) : noted s w log = x.sent := by
  unfold noted
  rw [hx]
  rfl

theorem noted_unlisted (hx : s.store.bridges.socket w = none) : noted s w log = log := by
  unfold noted
  rw [hx]
  rfl

/-- A socket that is not attached stays so, or its attach message attaches it. -/
theorem Untold.step (hf : Untold s.store.bridges w log) (h : Reachable P s) (hnoted : Noted s.store.bridges w log)
    (hs : (tunnelObject P).step s l = some s') : Untold s'.store.bridges w (noted s' w log) ∨
      ∃ k a token routes r session, l = .resume k a ∧ s.task k = some (.attachHash w token routes r) ∧
        Granted s'.store.bridges w (noted s' w log) session (Store.requestedRoutes routes) := by
  cases hx' : s'.store.bridges.socket w with
  | none =>
    refine .inl ⟨fun x hx => (by rw [hx'] at hx; cases hx), ?_⟩
    rw [noted_unlisted hx']
    exact hf.told
  | some x' =>
    have fresh : x'.attached = false → x'.greetings = [] → Untold s'.store.bridges w (noted s' w log) :=
      fun hno hnone => by
      refine ⟨fun x hx => ?_, ?_⟩
      · rw [hx'] at hx
        rw [← Option.some.inj hx]
        exact hno
      · rw [noted_of_socket hx']
        exact hnone
    rcases step_socket h hs hx' with ⟨x, hx, hatt, hg⟩ | ⟨hno, hnone⟩ |
      ⟨k, a, token, routes, r, session, x, hl, ht, hx, hg⟩
    · refine .inl (fresh ?_ ?_)
      · have hno := hf.attached x hx
        unfold Socket.attached at hno ⊢
        rw [hatt]
        exact hno
      · have hnone := hf.told
        rw [hnoted.sent x hx] at hnone
        exact hg.trans hnone
    · exact .inl (fresh hno hnone)
    · refine .inr ⟨k, a, token, routes, r, session, hl, ht, ?_, fun y hy => ?_, ?_⟩
      · have hmem := (mem_of_socket hx').1
        have hlt := (exclusive_of_reachable (h.step hs)).numbered.lt _ (List.mem_map_of_mem hmem)
        rwa [(mem_of_socket hx').2] at hlt
      · rw [hx'] at hy
        rw [← Option.some.inj hy]
        exact hg.attachment
      · have hnone := hf.told
        rw [hnoted.sent x hx] at hnone
        have hnone : x.greetings = [] := hnone
        rw [noted_of_socket hx']
        show x'.greetings = [] ∨ x'.greetings = _
        rcases hg.greetings with he | he
        · rw [hnone, List.nil_append] at he
          exact .inr he
        · exact .inl (he.trans hnone)

/-- And once it is attached, it stays as it is while no handler of an attach
message is there. -/
theorem Granted.step {session : String} {routes : List String} (hh : Granted s.store.bridges w log session routes)
    (h : Reachable P s) (hnoted : Noted s.store.bridges w log) (hs : (tunnelObject P).step s l = some s')
    (hnone : attempts w s = 0) : Granted s'.store.bridges w (noted s' w log) session routes := by
  have hm := step_moves hs
  refine ⟨hh.accepted.trans_le hm.nextSocket, fun x' hx' => ?_, ?_⟩
  · obtain ⟨x, hx, hmoves⟩ := hm.socket w hh.accepted x' hx'
    rcases step_socket h hs hx' with ⟨y, hy, hatt, -⟩ | ⟨hno, -⟩ |
      ⟨k, a, token, routes', r, session', y, hl, ht, -, -⟩
    · rw [hatt]
      exact hh.attachment y hy
    · have hyes : x.attached = true := by
        unfold Socket.attached
        rw [hh.attachment x hx]
        rfl
      rw [hmoves.attached hyes] at hno
      cases hno
    · have hlt := (step_attempts (w := w) hs).2 k a token routes' r hl ht
      rw [hnone] at hlt
      exact absurd hlt (Nat.not_lt_zero _)
  · cases hx' : s'.store.bridges.socket w with
    | none =>
      rw [noted_unlisted hx']
      exact hh.told
    | some x' =>
      rw [noted_of_socket hx']
      rcases step_socket h hs hx' with ⟨y, hy, -, hg⟩ | ⟨-, hg⟩ | ⟨k, a, token, routes', r, session', y, hl, ht, -, -⟩
      · have htold := hh.told
        rw [hnoted.sent y hy] at htold
        have htold : y.greetings = [] ∨ y.greetings = _ := htold
        rwa [← hg] at htold
      · exact .inl hg
      · have hlt := (step_attempts (w := w) hs).2 k a token routes' r hl ht
        rw [hnone] at hlt
        exact absurd hlt (Nat.not_lt_zero _)

end Step

/-! ### What the handlers were asked -/

/-- The routes that the handler of an attach message of socket `w` was asked for. -/
def Task.asked (w : ℕ) : Task → Option (Option Json)
  | .attachRecord v _ routes | .attachHash v _ routes _ => if v = w then some routes else none
  | _ => none

theorem Task.attaches_of_asked {w : ℕ} {t : Task} {routes : Option Json} (h : t.asked w = some routes) :
    t.attaches w = true := by
  cases t with
  | attachRecord v token rs =>
    simp only [asked] at h
    split at h
    · rename_i hv
      simp [attaches, hv]
    · cases h
  | attachHash v token rs r =>
    simp only [asked] at h
    split at h
    · rename_i hv
      simp [attaches, hv]
    · cases h
  | _ => cases h

/-- A handler of a step was there, asked for the same, or is that of the attach
message that arrives. -/
theorem step_asked {P : Platform} {s s' : State} {l : Action} {w : ℕ} (h : (tunnelObject P).step s l = some s')
    {p : ℕ × Task} (hp : p ∈ s'.tasks) {routes : Option Json} (ha : p.2.asked w = some routes) :
    (∃ q ∈ s.tasks, q.2.asked w = some routes) ∨
      ∃ m token, l = .call (.webSocketMessage w m) ∧ m.Attaches token routes := by
  obtain ⟨c, x, o, rfl, h1, rfl⟩ | ⟨k, a, t, x, o, rfl, ht, h1, rfl⟩ | ⟨e, x, rfl, -, rfl⟩ := step_cases h
  · rcases mem_settle_tasks hp with hp | ⟨-, ho⟩
    · exact .inl ⟨p, hp, ha⟩
    · rw [ho] at h1
      obtain ⟨m, token, routes', rfl, he, hm⟩ := attaches_of_start h1 (Task.attaches_of_asked ha)
      rw [he] at ha
      simp only [Task.asked, if_true] at ha
      obtain rfl := Option.some.inj ha
      exact .inr ⟨m, token, rfl, hm⟩
  · rcases mem_settle_tasks hp with hp | ⟨-, ho⟩
    · exact .inl ⟨p, (List.mem_filter.mp hp).1, ha⟩
    · rw [ho] at h1
      obtain ⟨token, routes', r, rfl, he⟩ := attaches_of_resume h1 (Task.attaches_of_asked ha)
      rw [he] at ha
      exact .inl ⟨_, task_mem ht, ha⟩
  · exact .inl ⟨p, hp, ha⟩

theorem mem_foldl_insert {α : Type*} [DecidableEq α] {a : α} : ∀ (xs acc : List α),
    a ∈ xs.foldl (fun acc x => if x ∈ acc then acc else acc ++ [x]) acc ↔ a ∈ acc ∨ a ∈ xs
  | [], acc => by simp
  | x :: xs, acc => by
    rw [List.foldl_cons, mem_foldl_insert xs, List.mem_cons]
    split
    · rename_i hx
      exact ⟨fun h => h.imp_right .inr, fun h => by
        rcases h with h | rfl | h
        · exact .inl h
        · exact .inl hx
        · exact .inr h⟩
    · rw [List.mem_append, List.mem_singleton, or_assoc]

/-- A set has the elements it is made of. -/
theorem mem_setOf {α : Type*} [DecidableEq α] {xs : List α} {a : α} : a ∈ setOf xs ↔ a ∈ xs := by
  unfold setOf
  rw [mem_foldl_insert]
  simp

theorem requestedRoutes_map (routes : List String) :
    Store.requestedRoutes (some (.arr (routes.map .str))) = setOf routes := by
  have hall : (routes.map Json.str).filterMap Json.string? = routes := by
    induction routes with
    | nil => rfl
    | cons route routes ih => rw [List.map_cons, List.filterMap_cons, ih]; rfl
  rw [Store.requestedRoutes, hall]

/-! ### The network -/

namespace Network

variable {C : Peer} {S : Site} {o : Options} {A : C.Attends o} {n n' : Network C}

/-- The attach messages on the way, and those that are being handled. -/
def pending (S : Site) (n : Network C) : ℕ := n.wire.countP (·.isAttach) + attempts S.bridge n.object

/-- The client and the object are in step. -/
structure Agreeing (A : C.Attends o) (S : Site) (n : Network C) : Prop where
  sent : ∀ m ∈ n.wire, m.isAttach = true → m = .attach o.token o.routes
  asked : ∀ p ∈ n.object.tasks, ∀ routes, p.2.asked S.bridge = some routes → routes = some (.arr (o.routes.map .str))
  once : n.pending S ≤ 1
  settled : Untold n.object.store.bridges S.bridge n.log ∧ (A.Begun n.client ∨ n.pending S = 0) ∨
    n.pending S = 0 ∧ A.Begun n.client ∧
      ∃ session, Granted n.object.store.bridges S.bridge n.log session (setOf o.routes)
  greets : Greets n.log
  heard : A.Attached n.client → ∃ m ∈ n.log.take n.taken, m.isAttached = true

theorem agreeing_initial (now : Millis) : (initial C now).Agreeing A S where
  sent _ hm := nomatch hm
  asked _ hp := nomatch hp
  once := Nat.zero_le _
  settled := .inl ⟨⟨fun _ hx => (nomatch hx), rfl⟩, .inr rfl⟩
  greets := greets_refusals fun _ hm => nomatch hm
  heard ha := absurd ha A.start

/-- The object goes on; `wire` is what is under way then. -/
theorem Agreeing.object (h : n.Agreeing A S) (hb : n.Base S) {a : Action} {s : State} (wire : List ClientMessage)
    (hs : (tunnelObject S.P).step n.object a = some s) (hsub : wire.Sublist n.wire)
    (hcount : wire.countP (·.isAttach) + attempts S.bridge s ≤ n.pending S)
    (hasked : ∀ m token routes, a = .call (.webSocketMessage S.bridge m) → m.Attaches token routes →
      routes = some (.arr (o.routes.map .str))) :
    ({ n.observe S s with wire } : Network C).Agreeing A S := by
  have hlog : (n.observe S s).log = noted s S.bridge n.log := rfl
  obtain ⟨ms, hgrown, -⟩ := hb.says hs
  have hgrown : (n.observe S s).log = n.log ++ ms := hgrown
  refine ⟨fun m hm => h.sent m (hsub.subset hm), fun p hp routes hr => ?_, hcount.trans h.once, ?_, ?_,
    fun hatt => ?_⟩
  · rcases step_asked hs hp hr with ⟨q, hq, hqr⟩ | ⟨m, token, hl, hm⟩
    · exact h.asked q hq routes hqr
    · exact hasked m token routes hl hm
  · rcases h.settled with ⟨hf, hbegun⟩ | ⟨hnone, hbegun, session, hh⟩
    · rcases hf.step hb.object hb.noted hs with hf' | ⟨k, ans, token, routes, r, session, hl, ht, hh⟩
      · refine .inl ⟨hf', hbegun.imp_right fun hnone => ?_⟩
        exact Nat.le_zero.mp (hcount.trans hnone.le)
      · -- the handler that ends was the only one
        have hlt := (step_attempts (w := S.bridge) hs).2 k ans token routes r hl ht
        have hwire : wire.countP (·.isAttach) ≤ n.wire.countP (·.isAttach) := hsub.countP_le
        have honce : n.wire.countP (·.isAttach) + attempts S.bridge n.object ≤ 1 := h.once
        have hzero : wire.countP (·.isAttach) + attempts S.bridge s = 0 := by omega
        have hsome : n.wire.countP (·.isAttach) + attempts S.bridge n.object ≠ 0 := by omega
        have hrequested : routes = some (.arr (o.routes.map .str)) :=
          h.asked _ (task_mem ht) routes (by simp [Task.asked])
        rw [hrequested, requestedRoutes_map] at hh
        exact .inr ⟨hzero, hbegun.resolve_right hsome, session, hh⟩
    · refine .inr ⟨Nat.le_zero.mp (hcount.trans hnone.le), hbegun, session, hh.step hb.object hb.noted hs ?_⟩
      exact (Nat.add_eq_zero_iff.mp hnone).2
  · show Greets (noted s S.bridge n.log)
    cases hx : s.store.bridges.socket S.bridge with
    | none =>
      rw [noted_unlisted hx]
      exact h.greets
    | some x =>
      rw [noted_of_socket hx]
      exact ((tells_of_reachable (hb.object.step hs)).sockets x (mem_of_socket hx).1).greets
  · obtain ⟨m, hm, hyes⟩ := h.heard hatt
    refine ⟨m, ?_, hyes⟩
    show m ∈ (n.observe S s).log.take n.taken
    rw [hgrown]
    rw [List.take_append]
    exact List.mem_append_left _ hm

/-- The client goes on. -/
theorem Agreeing.proceed (h : n.Agreeing A S) {p : C.Session × List ClientMessage} {taken : ℕ}
    (htaken : n.taken ≤ taken) (hbegun : A.Begun n.client → A.Begun p.1)
    (hheard : A.Attached p.1 → A.Attached n.client ∨ ∃ m ∈ n.log.take taken, m.isAttached = true)
    (hms : (∀ a ∈ p.2, a.isAttach = false) ∨ p.2 = [.attach o.token o.routes] ∧ ¬ A.Begun n.client ∧ A.Begun p.1) :
    ({ n.proceed p with taken } : Network C).Agreeing A S := by
  have hheard' : A.Attached p.1 → ∃ m ∈ n.log.take taken, m.isAttached = true := fun ha => by
    rcases hheard ha with hyes | hm
    · obtain ⟨m, hm, hyes⟩ := h.heard hyes
      exact ⟨m, (List.take_prefix_take_left htaken).subset hm, hyes⟩
    · exact hm
  have hsettled := h.settled
  rcases hms with hno | ⟨hattach, hnew, hnow⟩
  · have hcount : (n.proceed p).wire.countP (·.isAttach) = n.wire.countP (·.isAttach) := by
      show (if n.severed then n.wire else n.wire ++ p.2).countP _ = _
      split
      · rfl
      · have hzero : p.2.countP (·.isAttach) = 0 := List.countP_eq_zero.mpr fun a ha => by simp [hno a ha]
        rw [List.countP_append, hzero, Nat.add_zero]
    have hpending : (({ n.proceed p with taken } : Network C)).pending S = n.pending S := congrArg (· + _) hcount
    refine ⟨fun m hm hyes => ?_, h.asked, by rw [hpending]; exact h.once, ?_, h.greets, hheard'⟩
    · have hm : m ∈ if n.severed then n.wire else n.wire ++ p.2 := hm
      split at hm
      · exact h.sent m hm hyes
      · rcases List.mem_append.mp hm with hm | hm
        · exact h.sent m hm hyes
        · rw [hno m hm] at hyes
          cases hyes
    · rw [hpending]
      exact hsettled.imp (fun hf => ⟨hf.1, hf.2.imp_left hbegun⟩) fun hh => ⟨hh.1, hbegun hh.2.1, hh.2.2⟩
  · -- the session begins, so nothing was sent before
    obtain ⟨hf, hnone⟩ : Untold n.object.store.bridges S.bridge n.log ∧ n.pending S = 0 := by
      rcases hsettled with ⟨hf, hb⟩ | ⟨-, hb, -⟩
      · exact ⟨hf, hb.resolve_left hnew⟩
      · exact absurd hb hnew
    have hzero := Nat.add_eq_zero_iff.mp hnone
    refine ⟨fun m hm hyes => ?_, h.asked, ?_, .inl ⟨hf, .inl hnow⟩, h.greets, hheard'⟩
    · have hm : m ∈ if n.severed then n.wire else n.wire ++ p.2 := hm
      split at hm
      · exact h.sent m hm hyes
      · rcases List.mem_append.mp hm with hm | hm
        · exact h.sent m hm hyes
        · rw [hattach] at hm
          exact List.mem_singleton.mp hm
    · show (if n.severed then n.wire else n.wire ++ p.2).countP _ + attempts S.bridge n.object ≤ 1
      rw [hzero.2, Nat.add_zero]
      split
      · rw [hzero.1]
        exact Nat.zero_le 1
      · rw [List.countP_append, hzero.1, hattach]
        exact le_refl 1

theorem Agreeing.step {μ : NetworkMove C} (h : n.Agreeing A S) (hb : n.Base S) (hs : n.step S μ = some n') :
    n'.Agreeing A S := by
  cases kind_of_step hb hs with
  | aside hn =>
    rw [hn]
    exact ⟨h.sent, h.asked, h.once, h.settled, h.greets, h.heard⟩
  | @object a hcall ha hn =>
    have hobject := h.object hb n.wire ha (List.Sublist.refl _) (by
      rcases (step_attempts (w := S.bridge) ha).1 with hle | ⟨-, hattaching⟩
      · exact Nat.add_le_add_left hle _
      · cases a with
        | call c =>
          cases c with
          | webSocketMessage v m =>
            obtain ⟨rfl, -⟩ := hattaching
            exact absurd rfl (hcall m)
          | _ => cases hattaching
        | _ => cases hattaching)
      fun m _ _ he _ => absurd he (hcall m)
    rw [hn]
    exact ⟨hobject.sent, hobject.asked, hobject.once, hobject.settled, hobject.greets, hobject.heard⟩
  | @deliver m wire hwire ha hn =>
    have hattach : ∀ token routes, m.message.Attaches token routes →
        m.isAttach = true ∧ routes = some (.arr (o.routes.map .str)) := fun token routes hm => by
      obtain ⟨rs, rfl, rfl⟩ := ClientMessage.attaches_message hm
      have he := h.sent _ (by rw [hwire]; exact List.mem_cons_self) rfl
      cases he
      exact ⟨rfl, rfl⟩
    have hobject := h.object hb wire ha (hwire ▸ List.sublist_cons_self m wire) (by
      show _ ≤ n.wire.countP (·.isAttach) + attempts S.bridge n.object
      rw [hwire, List.countP_cons]
      rcases (step_attempts (w := S.bridge) ha).1 with hle | ⟨he, -, token, routes, hm⟩
      · omega
      · rw [he, if_pos (hattach token routes hm).1]
        omega)
      fun m' token routes he hm => by
        obtain ⟨-, rfl⟩ := Call.webSocketMessage.inj (Coop.Label.call.inj he)
        exact (hattach token routes hm).2
    rw [hn]
    exact ⟨hobject.sent, hobject.asked, hobject.once, hobject.settled, hobject.greets, hobject.heard⟩
  | @sever j hn =>
    have hsub : (n.wire.take j).Sublist n.wire := List.take_sublist j n.wire
    have hcount : n'.pending S ≤ n.pending S := by
      rw [hn]
      exact Nat.add_le_add_right hsub.countP_le _
    refine ⟨fun m hm => ?_, ?_, hcount.trans h.once, ?_, ?_, ?_⟩
    · rw [hn] at hm
      exact h.sent m (hsub.subset hm)
    · rw [hn]
      exact h.asked
    · have hsettled := h.settled
      have hzero : n.pending S = 0 → n'.pending S = 0 := fun he => Nat.le_zero.mp (hcount.trans he.le)
      rw [hn] at hzero ⊢
      exact hsettled.imp (fun hf => ⟨hf.1, hf.2.imp_right hzero⟩) fun hh => ⟨hzero hh.1, hh.2⟩
    · rw [hn]
      exact h.greets
    · rw [hn]
      exact h.heard
  | @take m stalled p hm hp hn =>
    obtain ⟨hms, hbegun, hatt⟩ := A.take hp
    rw [hn]
    refine h.proceed (Nat.le_succ _) hbegun (fun ha => (hatt ha).imp_right fun hyes => ⟨m, ?_, hyes⟩) (.inl hms)
    exact List.mem_iff_getElem?.mpr ⟨n.taken, by rw [List.getElem?_take_of_lt (Nat.lt_succ_self _)]; exact hm⟩
  | client hp hn =>
    obtain ⟨hbegun, hatt, hms⟩ := A.move hp
    rw [hn]
    exact h.proceed (le_refl _) hbegun (fun ha => .inl (hatt ha)) hms

theorem agreeing_of_reached (A : C.Attends o) (h : n.Reached S) : n.Agreeing A S := by
  refine (h.invariant (I := fun n => n.Base S ∧ n.Agreeing A S) ?_ fun n μ n' hn hs => ?_).2
  · rintro n ⟨now, rfl⟩
    exact ⟨base_initial now, agreeing_initial now⟩
  · exact ⟨hn.1.step hs, hn.2.step hn.1 hs⟩

end Network

/-! ### Both libraries -/

/-- Whether the session was told that it is attached. -/
def Library.isAttached (U : Unicode) (o : Options) : (L : Library) → (L.peer U o).Session → Bool
  | rust, s => decide (Rust.Session.phase s = .attached)
  | typescript, s => TypeScript.Session.attached s

theorem Library.isAttached_iff {U : Unicode} {o : Options} {L : Library} {s : (L.peer U o).Session} :
    L.isAttached U o s = true ↔ (L.attends U o).Attached s := by
  cases L with
  | rust => exact decide_eq_true_iff
  | typescript => exact Iff.rfl

/-- What comes before the first `attached` is refusals. -/
theorem Greets.refusals {before after : List ServerMessage} {m : ServerMessage} (h : Greets (before ++ m :: after))
    (hno : ∀ a ∈ before, a.isAttached = false) : ∀ a ∈ before, a.isRefusal = true := by
  induction before with
  | nil => exact fun _ ha => nomatch ha
  | cons b before ih =>
    cases hb : b.isRefusal with
    | true =>
      unfold Greets at h
      rw [List.cons_append, List.dropWhile_cons_of_pos hb] at h
      intro a ha
      rcases List.mem_cons.mp ha with rfl | ha
      · exact hb
      · exact ih h (fun c hc => hno c (List.mem_cons_of_mem _ hc)) a ha
    | false =>
      unfold Greets at h
      rw [List.cons_append, List.dropWhile_cons_of_neg (by simp [hb])] at h
      have hyes := h b rfl
      rw [hno b List.mem_cons_self] at hyes
      cases hyes

/-- A client that is attached was told so once, behind refusals only, with the
session and the routes the object holds for its socket, which are those it asked
for; and while the socket is open no other open bridge has one of them. -/
theorem client_agrees {S : Site} {U : Unicode} {o : Options} {L : Library} {n : Network (L.peer U o)}
    (h : n.Reached S) (ha : L.isAttached U o n.client = true) : ∃ session refusals rest,
      n.log = refusals ++ .attached session (setOf o.routes) HEARTBEAT_MS IDLE_TIMEOUT_MS :: rest ∧
      refusals.length < n.taken ∧ (∀ m ∈ refusals, m.isRefusal = true) ∧ (∀ m ∈ rest, m.isAttached = false) ∧
      ∀ x, n.object.store.bridges.socket S.bridge = some x →
        x.attachment = some { attached := true, session := some session, routes := some (setOf o.routes) } ∧
          (x.isOpen = true → ∀ y ∈ n.object.store.bridges.sockets, y.id ≠ S.bridge → y.isOpen = true →
            ∀ route ∈ o.routes, y.claims route = false) := by
  have hagree := Network.agreeing_of_reached (L.attends U o) h
  obtain ⟨m, hm, hyes⟩ := hagree.heard (Library.isAttached_iff.mp ha)
  have htold : n.log.filter (·.isAttached) ≠ [] := fun he => by
    have hno := List.filter_eq_nil_iff.mp he m (List.mem_of_mem_take hm)
    exact hno hyes
  obtain ⟨-, -, session, hh⟩ := hagree.settled.resolve_left fun hu => htold hu.1.told
  obtain ⟨refusals, rest, hlog, hbefore, -, hafter⟩ := List.filter_eq_cons_iff.mp (hh.told.resolve_left htold)
  have hbefore : ∀ a ∈ refusals, a.isAttached = false := fun a ha => by simpa using hbefore a ha
  refine ⟨session, refusals, rest, hlog, ?_, ?_, fun a ha => ?_, fun x hx => ⟨hh.attachment x hx, ?_⟩⟩
  · by_contra hle
    rw [hlog, List.take_append_of_le_length (by omega)] at hm
    rw [hbefore m (List.mem_of_mem_take hm)] at hyes
    cases hyes
  · exact Greets.refusals (hlog ▸ hagree.greets) hbefore
  · simpa using List.filter_eq_nil_iff.mp hafter a ha
  · intro hopen y hy hid hyopen route hroute
    obtain ⟨hmem, hxid⟩ := mem_of_socket hx
    cases hclaims : y.claims route with
    | false => rfl
    | true =>
      rw [Socket.claims, Bool.and_eq_true] at hclaims
      have hxatt : x.attached = true := by
        unfold Socket.attached
        rw [hh.attachment x hx]
        rfl
      have hxroutes : x.routes = setOf o.routes := by
        unfold Socket.routes
        rw [hh.attachment x hx]
        rfl
      have hdisjoint := (exclusive_of_reachable (Network.base_of_reached h).object).disjoint y hy x hmem
        (fun he => hid (he.trans hxid)) hyopen hopen hclaims.1 hxatt
      rw [hxroutes] at hdisjoint
      exact absurd (mem_setOf.mpr hroute) (hdisjoint (by simpa using hclaims.2))

/-- The client attaches. -/
def attachRun : List (NetworkMove (Rust.peer plainOptions)) :=
  (provisioned "csr" ++ [fetching]).map .object ++
    [.client .attach, .deliver, .object (.resume 3 .ok), .object (.resume 3 (.drawn "" "1")), .take false]

theorem attachRun_ends : ((network plainSite (Rust.peer plainOptions)).exec (.initial _ 0) attachRun).any (fun n =>
    Library.isAttached plainUnicode plainOptions .rust n.client &&
      (n.object.store.bridges.socket 0).isSome) = true := by
  decide

theorem client_agrees_attached : ∃ (n : Network (Rust.peer plainOptions)) (x : Socket) (session : String),
    n.Reached plainSite ∧ n.object.store.bridges.socket 0 = some x ∧
      x.attachment = some { attached := true, session := some session, routes := some ["@"] } := by
  obtain ⟨n, hn, hends⟩ := (Option.any_eq_true _ _).mp attachRun_ends
  obtain ⟨hattached, hlisted⟩ := Bool.and_eq_true_iff.mp hends
  obtain ⟨x, hx⟩ := Option.isSome_iff_exists.mp hlisted
  have hr := Network.reached_of_exec hn
  obtain ⟨session, -, -, -, -, -, -, hheld⟩ := client_agrees (U := plainUnicode) (L := .rust) hr hattached
  exact ⟨n, x, session, hr, hx, (hheld x hx).1⟩

end ShuvTunnel
