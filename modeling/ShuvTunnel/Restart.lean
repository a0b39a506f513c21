/-
# A service starts again

A process of the service may die anywhere. Whatever it leaves behind, with the socket
still there and requests on it, does not stop the next one: its lock has gone with it,
and who has the lock takes the old socket away. So from every state in which no process
has the lock there is a way to one that serves, and to the answer of a request.

Key theorems: `Control.can_start`, `Control.can_ask`, `Control.restart_answers`.
-/
import ShuvTunnel.Requests

namespace ShuvTunnel
namespace Control

variable {G : Program} {stale : Bool} {es : List (Lts.Event State Label)} {s : State}

namespace State

/-- A move of the process that was spawned last. -/
theorem step_last {P : List Process} {C : List Connection} {shared shared' : Shared} {p p' : Process}
    {m : ProcessMove} {seen : List Seen} (h : p.step P.length shared m = some (shared', p', seen)) :
    (machine G).step ⟨shared, P ++ [p], C⟩ (.process P.length m) =
      some (⟨shared', P ++ [p'], C.map (Connection.settle P.length p')⟩, seen) := by
  show ((P ++ [p])[P.length]?).bind _ = _
  rw [List.getElem?_concat_length, Option.bind_some]
  dsimp only
  rw [h]
  simp

/-- A move of a connection. -/
theorem step_of {s : State} {c : ℕ} {x x' : Connection} {p p' : Process} {m : ConnectionMove} {seen : List Seen}
    (hx : s.connections[c]? = some x) (hp : s.processes[x.server]? = some p)
    (h : x.step c p m = some (x', p', seen)) :
    (machine G).step s (.connection c m) = some
      ({ s with processes := s.processes.set x.server p', connections := s.connections.set c x' }, seen) := by
  show (s.connections[c]?).bind _ = _
  rw [hx, Option.bind_some, hp, Option.bind_some, h]
  rfl

end State

/-- The first `reconcile` does what it may and leaves a daemon that serves. -/
theorem start_serves (reads : Daemon.Reads) : ∃ watched, Watched.fresh.step (.start reads) = some watched ∧
    watched.daemon.phase = .serving :=
  ⟨_, rfl, (Daemon.reconcile_onward reads _).phase⟩

/-- Where no one has the lock, one who starts comes to serve, whatever was left behind. -/
theorem can_start (hfree : s.shared.lock = none) (pid : UInt32) (now : UInt64) (reads : Daemon.Reads) :
    ∃ s' p, (machine G).Can s [.starts s.processes.length pid now reads] s' ∧
      s'.connections.length = s.connections.length ∧ s'.shared.socket = some s.processes.length ∧
      s'.processes[s.processes.length]? = some p ∧ p.place = .looping ∧ p.listening = true ∧ p.queue = [] ∧
      Watched.fresh.step (.start reads) = some p.watched ∧ p.watched.daemon.phase = .serving ∧
      p.toInstance s.processes.length = ⟨s.processes.length, pid, now, p.watched⟩ := by
  obtain ⟨⟨lock, socket⟩, P, C⟩ := s
  subst hfree
  obtain ⟨watched, hstart, hserving⟩ := start_serves reads
  let p (place : Place) (listening : Bool) : Process := { Process.fresh pid with place, listening }
  have hspawn : (machine G).step ⟨⟨none, socket⟩, P, C⟩ (.spawn pid) =
      some (⟨⟨none, socket⟩, P ++ [p .opening false], C⟩, []) := rfl
  have hopen : (p .opening false).step P.length ⟨none, socket⟩ (.openLock false) =
      some (⟨none, socket⟩, p .opened false, []) := rfl
  have hlock : (p .opened false).step P.length ⟨none, socket⟩ (.tryLock false) =
      some (⟨some P.length, socket⟩, p .locked false, []) := rfl
  have hremove : (p .locked false).step P.length ⟨some P.length, socket⟩ (.removeStale false) =
      some (⟨some P.length, none⟩, p .cleared false, []) := rfl
  have hbind : (p .cleared false).step P.length ⟨some P.length, none⟩ (.bind false) =
      some (⟨some P.length, some P.length⟩, p .bound true, []) := rfl
  have hset : (p .bound true).step P.length ⟨some P.length, some P.length⟩ (.setPermissions false) =
      some (⟨some P.length, some P.length⟩, p .guarded true, []) := rfl
  have hsettle : (p .guarded true).step P.length ⟨some P.length, some P.length⟩ (.start now reads) =
      some (⟨some P.length, some P.length⟩, { p .settling true with startedAt := now, watched },
        [.starts P.length pid now reads]) := by
    unfold Process.step
    dsimp only
    rw [if_pos rfl, show (p .guarded true).watched = Watched.fresh from rfl, hstart]
    rfl
  have hloop : ({ p .settling true with startedAt := now, watched } : Process).step P.length
      ⟨some P.length, some P.length⟩ (.signals false) =
      some (⟨some P.length, some P.length⟩, { p .looping true with startedAt := now, watched }, []) := rfl
  refine ⟨_, { p .looping true with startedAt := now, watched }, .step hspawn <| .step (State.step_last hopen) <|
    .step (State.step_last hlock) <| .step (State.step_last hremove) <| .step (State.step_last hbind) <|
    .step (State.step_last hset) <| .step (State.step_last hsettle) <| .step (State.step_last hloop) <| .refl _,
    ?_, rfl, ?_, rfl, rfl, rfl, hstart, hserving, rfl⟩
  · simp
  · exact List.getElem?_concat_length

section Asking

variable {c k : ℕ} {x x' : Connection} {p p' : Process} {seen rest : List Seen}

/-- A move of a connection, and what comes then. -/
theorem can_move {m : ConnectionMove} (hx : s.connections[c]? = some x) (hserver : x.server = k)
    (hp : s.processes[k]? = some p) (h : x.step c p m = some (x', p', seen))
    (hrest : ∀ t : State, t.connections[c]? = some x' → t.processes[k]? = some p' → ∃ u, (machine G).Can t rest u) :
    ∃ u, (machine G).Can s (seen ++ rest) u := by
  subst hserver
  obtain ⟨u, hu⟩ := hrest { s with processes := s.processes.set x.server p', connections := s.connections.set c x' }
    (List.getElem?_set_self (State.lt_of_getElem? hx)) (List.getElem?_set_self (State.lt_of_getElem? hp))
  exact ⟨u, .step (State.step_of hx hp h) hu⟩

/-- A command is handled, and what comes then. -/
theorem can_handle {reads : Daemon.Reads} {tunnel : TunnelStatus} {command : Command} {response : Response}
    (hx : s.connections[c]? = some x) (hp : s.processes[k]? = some p)
    (h : p.handle G k reads tunnel = some (c, command, p', response))
    (hrest : ∀ t : State, t.connections[c]? = some (x.reply response) → t.processes[k]? = some p' →
      ∃ u, (machine G).Can t rest u) :
    ∃ u, (machine G).Can s (.handled c command reads tunnel :: rest) u := by
  obtain ⟨u, hu⟩ := hrest
    { s with processes := s.processes.set k p', connections := s.connections.modify c (Connection.reply response) }
    (by rw [List.getElem?_modify, hx]; exact congrArg some (if_pos rfl))
    (List.getElem?_set_self (State.lt_of_getElem? hp))
  have hstep : (machine G).step s (.handle k reads tunnel) = some
      ({ s with
          processes := s.processes.set k p'
          connections := s.connections.modify c (Connection.reply response) },
        [.handled c command reads tunnel]) := by
    show (s.processes[k]?).bind _ = _
    rw [hp, Option.bind_some, h]
    rfl
  exact ⟨u, .step hstep hu⟩

/-- Who serves and has nothing to do answers who asks. -/
theorem can_ask (hp : s.processes[k]? = some p) (hsocket : s.shared.socket = some k) (hplace : p.place = .looping)
    (hlistening : p.listening = true) (hqueue : p.queue = []) (hserving : p.watched.daemon.phase = .serving)
    (reads : Daemon.Reads) (tunnel : TunnelStatus) :
    ∃ u, (machine G).Can s [.called (some .status), .handled s.connections.length .status reads tunnel,
      .returned s.connections.length ⟨true, some ((p.toInstance k).status G tunnel), none⟩] u := by
  obtain ⟨place, pid, startedAt, listening, queue, watched⟩ := p
  dsimp only at hplace hlistening hqueue hserving
  subst hplace hlistening hqueue
  generalize hc : s.connections.length = c
  let p (queue : List (ℕ × Command)) : Process := ⟨.looping, pid, startedAt, true, queue, watched⟩
  let r : Response := ⟨true, some (((p []).toInstance k).status G tunnel), none⟩
  let x (input : List Char) (stage : Stage) (output : List Char) : Connection :=
    ⟨k, some .status, input, false, stage, output, false⟩
  let line := requestText .status
  have hconnect : (machine G).step s (.connect (some .status)) =
      some ({ s with connections := s.connections ++ [x [] .backlog []] }, [.called (some .status)]) := by
    show (s.shared.socket).bind _ = _
    rw [hsocket, Option.bind_some, hp, Option.bind_some]
    rfl
  have hsend : (x [] .backlog []).step c (p []) .send = some (x line .backlog [], p [], []) := rfl
  have haccept : (x line .backlog []).step c (p []) .accept = some (x line .reading [], p [], []) := rfl
  have hread : (x line .reading []).step c (p []) (.read "") = some (x line (.sending .status) [], p [], []) := by
    unfold Connection.step
    dsimp only
    rw [if_pos rfl, readLine_requestText, Option.map_some, readRequest_requestText]
  have henqueue : (x line (.sending .status) []).step c (p []) .enqueue =
      some (x line .waiting [], p [(c, .status)], []) := rfl
  have hhandle : (p [(c, .status)]).handle G k reads tunnel = some (c, .status, p [], r) := by
    have hstep : watched.step (Command.status.event reads) = some watched := if_pos hserving
    unfold Process.handle Instance.handle
    rw [if_pos rfl]
    dsimp only [p, Process.toInstance]
    rw [hstep]
    rfl
  have hflush : (x line (.replying (responseText r)) []).step c (p []) (.flush (responseText r).length) =
      some (x line (.replying []) (responseText r), p [], []) := by
    simp [Connection.step, x]
  have hshutdown : (x line (.replying []) (responseText r)).step c (p []) .shutdown =
      some (x line .done (responseText r), p [], []) := rfl
  have hfinish : (x line .done (responseText r)).step c (p []) .finish =
      some ({ x line .done (responseText r) with finished := true }, p [], [.returned c r]) := by
    unfold Connection.step
    dsimp only
    rw [if_pos ⟨rfl, rfl, rfl⟩, readResponse_responseText]
    rfl
  suffices h : ∃ u, (machine G).Can { s with connections := s.connections ++ [x [] .backlog []] }
      [.handled c .status reads tunnel, .returned c r] u by
    obtain ⟨u, hu⟩ := h
    exact ⟨u, .step hconnect hu⟩
  have hx : (s.connections ++ [x [] .backlog []])[c]? = some (x [] .backlog []) := by
    rw [← hc, List.getElem?_concat_length]
  refine can_move hx rfl hp hsend fun t hx hp => ?_
  refine can_move hx rfl hp haccept fun t hx hp => ?_
  refine can_move hx rfl hp hread fun t hx hp => ?_
  refine can_move hx rfl hp henqueue fun t hx hp => ?_
  refine can_handle hx hp hhandle fun t hx hp => ?_
  refine can_move hx rfl hp hflush fun t hx hp => ?_
  refine can_move hx rfl hp hshutdown fun t hx hp => ?_
  exact can_move hx rfl hp hfinish fun t _ _ => ⟨t, .refl t⟩

end Asking

/-- However the processes before it went, one who starts when they have gone, or have
given the lock up, serves: what they left behind does not stop it, and it answers. -/
theorem restart_answers (h : Lts.Run (machine G).system (.initial stale) es s)
    (hfree : ∀ p ∈ s.processes, p.place.locks = false) (pid : UInt32) (now : UInt64) (reads : Daemon.Reads)
    (tunnel : TunnelStatus) :
    ∃ watched u, Watched.fresh.step (.start reads) = some watched ∧
      (machine G).Can s [.starts s.processes.length pid now reads, .called (some .status),
        .handled s.connections.length .status reads tunnel, .returned s.connections.length
          ⟨true, some (Instance.status G tunnel ⟨s.processes.length, pid, now, watched⟩), none⟩] u := by
  obtain ⟨hs, -⟩ := sound_of_run h
  have hlock : s.shared.lock = none := by
    cases hk : s.shared.lock with
    | none => rfl
    | some k =>
      have hp := List.getElem?_eq_getElem (hs.lock k hk)
      have hl := (hs.fits k _ hp).locks.mpr hk
      rw [hfree _ (List.mem_of_getElem? hp)] at hl
      cases hl
  obtain ⟨s', p, hcan, hlength, hsocket, hp, hplace, hlistening, hqueue, hstart, hserving, hinstance⟩ :=
    can_start (G := G) hlock pid now reads
  obtain ⟨u, hu⟩ := can_ask hp hsocket hplace hlistening hqueue hserving reads tunnel
  rw [hlength, hinstance] at hu
  exact ⟨p.watched, u, hstart, hcan.trans hu⟩

/-- The one before has died in its loop, and its socket is still there. -/
def crashedRun : List Label := servingRun ++ [.process 1 .crash]

theorem restart_answers_crashed : ∃ es s, Lts.Run (machine plainProgram).system (.initial false) es s ∧
    es.map (·.label) = crashedRun ∧ s.shared.socket = some 1 ∧
    ∃ watched u, Watched.fresh.step (.start issuedReads) = some watched ∧
      (machine plainProgram).Can s [.starts 2 9 6 issuedReads, .called (some .status),
        .handled 0 .status issuedReads quietTunnel, .returned 0
          ⟨true, some (Instance.status plainProgram quietTunnel ⟨2, 9, 6, watched⟩), none⟩] u := by
  obtain ⟨s, hs, hsocket, hplaces, hlength, hconnections⟩ :
      ∃ s, (machine plainProgram).system.exec (.initial false) crashedRun = some s ∧ s.shared.socket = some 1 ∧
        s.processes.map (·.place) = [.gone, .gone] ∧ s.processes.length = 2 ∧ s.connections.length = 0 :=
    ⟨_, rfl, rfl, by decide, rfl, rfl⟩
  have hfree : ∀ p ∈ s.processes, p.place.locks = false := by
    intro p hp
    have hgone : p.place ∈ [Place.gone, .gone] := hplaces ▸ List.mem_map_of_mem hp
    obtain he : p.place = .gone := by simpa using hgone
    rw [he]
    rfl
  obtain ⟨es, hrun, hl⟩ := Lts.Run.exists_of_exec hs
  have h := restart_answers hrun hfree 9 6 issuedReads quietTunnel
  rw [hlength, hconnections] at h
  exact ⟨es, s, hrun, hl, hsocket, h⟩

end Control
end ShuvTunnel
