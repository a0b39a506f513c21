/-
# Backpressure of the bridge

A channel of the TypeScript client hands its writes to `sendData` with a callback,
which runs at once or, while the WebSocket has much to send, waits for the drain
timer or for the end of the session. A callback may itself send or end the session,
so the loops that run the callbacks are left and entered again: a state has the stack
of the callbacks that are running, each with what its loop has still to run.

Key definitions: `DrainSession.sendData`, `drainSystem`, `Accounted`, `Armed`.
Key theorems: `Accounted.step`, `Armed.step`, `callbacks_once`.
-/
import ShuvTunnel.Frames
import ShuvTunnel.Lib.Lts
import Mathlib.Data.List.Nodup

namespace ShuvTunnel

/-- From so many buffered bytes on, `sendData` waits. -/
def HIGH_WATER_MARK : ℕ := 1024 * 1024

/-- At so many or fewer, those that wait go on. -/
def LOW_WATER_MARK : ℕ := 256 * 1024

/-- A callback, and whether it is given an error. -/
structure Invocation where
  call : ℕ
  error : Bool
  deriving DecidableEq

/-- A callback that is running, and the waiters that the loop around it has still to run. -/
structure DrainFrame where
  call : ℕ
  waiters : List ℕ

/-- A session in `sendData` and `end`. The calls of `sendData` are numbered, and
`invoked` lists the callbacks that were run; `intervals` are the timers of the
runtime that are not cleared. -/
structure DrainSession where
  finish : Bool
  drainWaiters : List ℕ
  drainTimer : Option ℕ
  intervals : List ℕ
  nextTimer : ℕ
  sent : List Bytes
  stack : List DrainFrame
  calls : ℕ
  invoked : List Invocation

/-- What happens to the session, from within its callbacks as well. -/
inductive DrainLabel
  -- with the state of the socket, and its `bufferedAmount` behind the frames
  | sendData (conn : ℕ) (data : Bytes) (isOpen : Bool) (bufferedAmount : ℕ)
  -- the callback of an interval, which runs on its own
  | tick (timer bufferedAmount : ℕ)
  | endSession
  -- the callback that is running returns
  | callbackReturns

namespace DrainSession

/-- `done(..)`. -/
def invoke (error : Bool) (call : ℕ) (waiters : List ℕ) (s : DrainSession) : DrainSession :=
  { s with stack := ⟨call, waiters⟩ :: s.stack, invoked := s.invoked ++ [⟨call, error⟩] }

/-- `for (const waiter of waiters) waiter()`, up to the first. -/
def runWaiters (waiters : List ℕ) (s : DrainSession) : DrainSession :=
  match waiters with
  | [] => s
  | waiter :: waiters => s.invoke false waiter waiters

/-- `clearInterval(timer)`. -/
def clearInterval (timer : Option ℕ) (s : DrainSession) : DrainSession :=
  { s with intervals := s.intervals.filter fun t => some t ≠ timer }

/-- `this.drainTimer ??= setInterval(..)`. -/
def armDrainTimer (s : DrainSession) : DrainSession :=
  match s.drainTimer with
  | some _ => s
  | none =>
    { s with drainTimer := some s.nextTimer, intervals := s.intervals ++ [s.nextTimer], nextTimer := s.nextTimer + 1 }

/-- `sendData` of a session. -/
def sendData (conn : ℕ) (data : Bytes) (isOpen : Bool) (bufferedAmount : ℕ) (s : DrainSession) : DrainSession :=
  let call := s.calls
  let s := { s with calls := call + 1 }
  if !s.finish || !isOpen then s.invoke true call []
  else
    let s := { s with sent := s.sent ++ (sendDataChunks data).map (buildDataFrame conn) }
    if bufferedAmount < HIGH_WATER_MARK then s.invoke false call []
    else { s with drainWaiters := s.drainWaiters ++ [call] }.armDrainTimer

/-- The callback of the drain timer. -/
def drain (bufferedAmount : ℕ) (s : DrainSession) : DrainSession :=
  if LOW_WATER_MARK < bufferedAmount && s.finish then s
  else
    let waiters := s.drainWaiters
    { s.clearInterval s.drainTimer with drainTimer := none, drainWaiters := [] }.runWaiters waiters

/-- What `end` does before it destroys the channels and closes the socket. -/
def endSession (s : DrainSession) : DrainSession :=
  if s.finish then
    let waiters := s.drainWaiters
    { { s with finish := false }.clearInterval s.drainTimer with drainWaiters := [] }.runWaiters waiters
  else s

/-- A timer runs while nothing else does; everything else runs then or in a callback. -/
def step (s : DrainSession) : DrainLabel → Option DrainSession
  | .sendData conn data isOpen bufferedAmount => some (s.sendData conn data isOpen bufferedAmount)
  | .tick timer bufferedAmount =>
    if s.stack.isEmpty && s.intervals.contains timer then some (s.drain bufferedAmount) else none
  | .endSession => some s.endSession
  | .callbackReturns =>
    match s.stack with
    | [] => none
    | frame :: stack => some ({ s with stack }.runWaiters frame.waiters)

/-- `run` was called. -/
def fresh : DrainSession where
  finish := true
  drainWaiters := []
  drainTimer := none
  intervals := []
  nextTimer := 0
  sent := []
  stack := []
  calls := 0
  invoked := []

/-- What the loops have still to run. -/
def pending (s : DrainSession) : List ℕ := s.stack.flatMap DrainFrame.waiters

/-- How often the callback of a call was run. -/
def timesInvoked (s : DrainSession) (call : ℕ) : ℕ := (s.invoked.map Invocation.call).count call

end DrainSession

/-- The session, as a system. -/
def drainSystem : Lts.System DrainSession DrainLabel := ⟨DrainSession.step⟩

namespace DrainSession

variable {s s' : DrainSession} {a : DrainLabel}

/-! ### Where a callback is -/

/-- How often a callback was run, waits for the timer or is about to be run by a loop. -/
def account (s : DrainSession) (call : ℕ) : ℕ :=
  s.timesInvoked call + s.drainWaiters.count call + s.pending.count call

theorem account_invoke (error : Bool) (call : ℕ) (waiters : List ℕ) (s : DrainSession) (c : ℕ) :
    (s.invoke error call waiters).account c = s.account c + [call].count c + waiters.count c := by
  simp only [account, timesInvoked, pending, invoke, List.map_append, List.map_cons, List.map_nil,
    List.flatMap_cons, List.count_append]
  omega

theorem account_runWaiters (waiters : List ℕ) (s : DrainSession) (c : ℕ) :
    (s.runWaiters waiters).account c = s.account c + waiters.count c := by
  cases waiters with
  | nil => rfl
  | cons waiter waiters =>
    have hcons : (waiter :: waiters).count c = [waiter].count c + waiters.count c := by
      rw [← List.count_append, List.singleton_append]
    rw [runWaiters, account_invoke, hcons, Nat.add_assoc]

theorem account_armDrainTimer (s : DrainSession) (c : ℕ) : s.armDrainTimer.account c = s.account c := by
  unfold armDrainTimer
  split <;> rfl

/-- A call of `sendData` has its callback somewhere. -/
theorem account_sendData (conn : ℕ) (data : Bytes) (isOpen : Bool) (bufferedAmount : ℕ) (s : DrainSession) (c : ℕ) :
    (s.sendData conn data isOpen bufferedAmount).account c = s.account c + [s.calls].count c := by
  unfold sendData
  dsimp only
  split
  · rw [account_invoke]
    rfl
  · split
    · rw [account_invoke]
      rfl
    · rw [account_armDrainTimer]
      simp only [account, timesInvoked, pending, List.count_append]
      omega

/-- To drain moves callbacks from the waiters to a loop. -/
theorem account_drain (bufferedAmount : ℕ) (s : DrainSession) (c : ℕ) :
    (s.drain bufferedAmount).account c = s.account c := by
  unfold drain
  split
  · rfl
  · rw [account_runWaiters]
    simp only [account, timesInvoked, pending, clearInterval, List.count_nil]
    omega

theorem account_endSession (s : DrainSession) (c : ℕ) : s.endSession.account c = s.account c := by
  unfold endSession
  split
  · rw [account_runWaiters]
    simp only [account, timesInvoked, pending, clearInterval, List.count_nil]
    omega
  · rfl

theorem account_return {frame : DrainFrame} {stack : List DrainFrame} (h : s.stack = frame :: stack) (c : ℕ) :
    ({ s with stack }.runWaiters frame.waiters).account c = s.account c := by
  rw [account_runWaiters]
  simp only [account, timesInvoked, pending, h, List.flatMap_cons, List.count_append]
  omega

/-! ### What else the steps do -/

/-- The session, its waiters and its timers, which running callbacks leaves as they are. -/
structure SameTimers (s s' : DrainSession) : Prop where
  finish : s'.finish = s.finish
  drainWaiters : s'.drainWaiters = s.drainWaiters
  drainTimer : s'.drainTimer = s.drainTimer
  intervals : s'.intervals = s.intervals

theorem sameTimers_runWaiters (waiters : List ℕ) (s : DrainSession) : s.SameTimers (s.runWaiters waiters) := by
  cases waiters with
  | nil => exact ⟨rfl, rfl, rfl, rfl⟩
  | cons waiter waiters => exact ⟨rfl, rfl, rfl, rfl⟩

theorem calls_runWaiters (waiters : List ℕ) (s : DrainSession) : (s.runWaiters waiters).calls = s.calls := by
  cases waiters with
  | nil => rfl
  | cons waiter waiters => rfl

theorem calls_armDrainTimer (s : DrainSession) : s.armDrainTimer.calls = s.calls := by
  unfold armDrainTimer
  split <;> rfl

theorem calls_sendData (conn : ℕ) (data : Bytes) (isOpen : Bool) (bufferedAmount : ℕ) (s : DrainSession) :
    (s.sendData conn data isOpen bufferedAmount).calls = s.calls + 1 := by
  unfold sendData
  dsimp only
  split
  · rfl
  · split
    · rfl
    · rw [calls_armDrainTimer]

theorem calls_drain (bufferedAmount : ℕ) (s : DrainSession) : (s.drain bufferedAmount).calls = s.calls := by
  unfold drain
  split
  · rfl
  · exact calls_runWaiters _ _

theorem calls_endSession (s : DrainSession) : s.endSession.calls = s.calls := by
  unfold endSession
  split
  · exact calls_runWaiters _ _
  · rfl

/-! ### The invariants -/

/-- Each callback so far is in one place. -/
def Accounted (s : DrainSession) : Prop := ∀ call, s.account call = (List.range s.calls).count call

theorem Accounted.step (hs : s.Accounted) (hstep : s.step a = some s') : s'.Accounted := by
  intro call
  cases a with
  | sendData conn data isOpen bufferedAmount =>
    obtain rfl := Option.some.inj hstep
    rw [account_sendData, calls_sendData, List.range_succ, List.count_append, hs call]
  | tick timer bufferedAmount =>
    obtain ⟨-, h⟩ := Option.ite_none_right_eq_some.mp hstep
    rw [← Option.some.inj h, account_drain, calls_drain, hs call]
  | endSession =>
    obtain rfl := Option.some.inj hstep
    rw [account_endSession, calls_endSession, hs call]
  | callbackReturns =>
    simp only [DrainSession.step] at hstep
    split at hstep
    · cases hstep
    · rename_i frame stack hstack
      rw [← Option.some.inj hstep, account_return hstack, calls_runWaiters, hs call]

/-- While the session is on, a timer that is set runs, and it is set while callbacks
wait. Behind the end there is neither. -/
structure Armed (s : DrainSession) : Prop where
  ended : s.finish = false → s.drainWaiters = [] ∧ s.intervals = []
  only : ∀ timer ∈ s.intervals, s.drainTimer = some timer
  alive : s.finish = true → ∀ timer, s.drainTimer = some timer → timer ∈ s.intervals
  waiting : s.finish = true → s.drainWaiters ≠ [] → s.drainTimer.isSome = true

theorem Armed.same (hs : s.Armed) (h : s.SameTimers s') : s'.Armed := by
  constructor
  · rw [h.finish, h.drainWaiters, h.intervals]
    exact hs.ended
  · rw [h.intervals, h.drainTimer]
    exact hs.only
  · rw [h.finish, h.intervals, h.drainTimer]
    exact hs.alive
  · rw [h.finish, h.drainWaiters, h.drainTimer]
    exact hs.waiting

/-- No timer is left where the one that is set is cleared. -/
theorem Armed.clearInterval (hs : s.Armed) : (s.clearInterval s.drainTimer).intervals = [] :=
  List.filter_eq_nil_iff.mpr fun timer htimer => by simp [hs.only timer htimer]

/-- A callback waits in a session that is on, with a timer. -/
theorem Armed.wait (hs : s.Armed) (hfinish : s.finish = true) (waiters : List ℕ) :
    ({ s with drainWaiters := waiters } : DrainSession).armDrainTimer.Armed := by
  unfold armDrainTimer
  dsimp only
  split
  · rename_i timer htimer
    exact ⟨fun h => absurd (hfinish.symm.trans h) (by decide), hs.only, hs.alive, fun _ _ => by rw [htimer]; rfl⟩
  · rename_i htimer
    have hnone : s.intervals = [] := List.eq_nil_iff_forall_not_mem.mpr fun timer hmem => by
      have := hs.only timer hmem
      rw [htimer] at this
      cases this
    refine ⟨fun h => absurd (hfinish.symm.trans h) (by decide), fun timer hmem => ?_, fun _ timer hset => ?_,
      fun _ _ => rfl⟩
    · rw [hnone] at hmem
      rw [List.mem_singleton.mp hmem]
    · rw [hnone]
      obtain rfl := Option.some.inj hset
      exact List.mem_singleton_self _

theorem Armed.sendData (hs : s.Armed) (conn : ℕ) (data : Bytes) (isOpen : Bool) (bufferedAmount : ℕ) :
    (s.sendData conn data isOpen bufferedAmount).Armed := by
  unfold DrainSession.sendData
  dsimp only
  split
  · exact hs.same ⟨rfl, rfl, rfl, rfl⟩
  · rename_i hopen
    split
    · exact hs.same ⟨rfl, rfl, rfl, rfl⟩
    · have hsent : ({ s with
          calls := s.calls + 1
          sent := s.sent ++ (sendDataChunks data).map (buildDataFrame conn) } : DrainSession).Armed :=
        hs.same ⟨rfl, rfl, rfl, rfl⟩
      have hfinish : s.finish = true := by
        cases hf : s.finish with
        | true => rfl
        | false => simp [hf] at hopen
      exact hsent.wait hfinish _

/-- Behind a flush there is no timer, and no callback waits for one. -/
theorem Armed.drain (hs : s.Armed) (bufferedAmount : ℕ) : (s.drain bufferedAmount).Armed := by
  unfold DrainSession.drain
  split
  · exact hs
  · have hflushed : ({ s.clearInterval s.drainTimer with drainTimer := none, drainWaiters := [] } : DrainSession).Armed :=
      ⟨fun _ => ⟨rfl, hs.clearInterval⟩, fun timer hmem => (by rw [hs.clearInterval] at hmem; cases hmem),
        fun _ _ h => (nomatch h), fun _ h => absurd rfl h⟩
    exact hflushed.same (sameTimers_runWaiters _ _)

theorem Armed.endSession (hs : s.Armed) : s.endSession.Armed := by
  unfold DrainSession.endSession
  split
  · have hended : ({ ({ s with finish := false } : DrainSession).clearInterval s.drainTimer with
        drainWaiters := [] } : DrainSession).Armed :=
      ⟨fun _ => ⟨rfl, hs.clearInterval⟩, fun timer hmem => hs.only timer (List.mem_of_mem_filter hmem),
        fun h => (nomatch h), fun h => (nomatch h)⟩
    exact hended.same (sameTimers_runWaiters _ _)
  · exact hs

theorem Armed.step (hs : s.Armed) (hstep : s.step a = some s') : s'.Armed := by
  cases a with
  | sendData conn data isOpen bufferedAmount =>
    obtain rfl := Option.some.inj hstep
    exact hs.sendData conn data isOpen bufferedAmount
  | tick timer bufferedAmount =>
    obtain ⟨-, h⟩ := Option.ite_none_right_eq_some.mp hstep
    rw [← Option.some.inj h]
    exact hs.drain bufferedAmount
  | endSession =>
    obtain rfl := Option.some.inj hstep
    exact hs.endSession
  | callbackReturns =>
    simp only [DrainSession.step] at hstep
    split at hstep
    · cases hstep
    · rename_i frame stack _
      rw [← Option.some.inj hstep]
      have hpopped : ({ s with stack } : DrainSession).Armed := hs.same ⟨rfl, rfl, rfl, rfl⟩
      exact hpopped.same (sameTimers_runWaiters _ _)

theorem sendData_ended (h : s.finish = false) (conn : ℕ) (data : Bytes) (isOpen : Bool) (bufferedAmount : ℕ) :
    (s.sendData conn data isOpen bufferedAmount).invoked = s.invoked ++ [⟨s.calls, true⟩] := by
  unfold DrainSession.sendData
  rw [if_pos (by simp [h])]
  rfl

theorem Accounted.account_eq_one (hs : s.Accounted) {call : ℕ} (h : call < s.calls) : s.account call = 1 := by
  rw [hs call]
  exact List.count_eq_one_of_mem List.nodup_range (List.mem_range.mpr h)

theorem Accounted.account_le_one (hs : s.Accounted) (call : ℕ) : s.account call ≤ 1 := by
  rw [hs call]
  exact List.nodup_iff_count_le_one.mp List.nodup_range call

end DrainSession

open DrainSession in
/-- **Callbacks run once.** In every run of calls, timers and returns of callbacks, with
the end wherever it falls: no callback is run twice; when the session has ended and
none is running, each was run; one that is given to `sendData` behind the end is run at
once, with an error. While one waits for the timer and the session is on, the timer
that is set runs; and one that was not run waits or is next in a loop that is running. -/
theorem callbacks_once {es : List (Lts.Event DrainSession DrainLabel)} {t : DrainSession}
    (h : Lts.Run drainSystem .fresh es t) :
    (∀ call, t.timesInvoked call ≤ 1) ∧
    (t.finish = false → t.stack = [] → ∀ call < t.calls, t.timesInvoked call = 1) ∧
    (∀ e ∈ es, ∀ conn data isOpen bufferedAmount, e.label = .sendData conn data isOpen bufferedAmount →
      e.before.finish = false → e.after.invoked = e.before.invoked ++ [⟨e.before.calls, true⟩]) ∧
    (t.finish = true → t.drainWaiters ≠ [] → ∃ timer, t.drainTimer = some timer ∧ timer ∈ t.intervals) ∧
    ∀ call < t.calls, t.timesInvoked call = 0 → call ∈ t.drainWaiters ∨ ∃ frame ∈ t.stack, call ∈ frame.waiters := by
  obtain ⟨⟨haccounted, harmed⟩, -⟩ := h.invariant (I := fun s => s.Accounted ∧ s.Armed) (A := fun _ _ => True)
    (fun _ _ _ hs _ hstep => ⟨hs.1.step hstep, hs.2.step hstep⟩) (fun _ _ => trivial)
    ⟨fun _ => rfl, fun h => (nomatch h), fun _ h => (nomatch h), fun _ _ h => (nomatch h), fun _ h => absurd rfl h⟩
  refine ⟨fun call => ?_, fun hended hstack call hcall => ?_,
    fun e he conn data isOpen bufferedAmount hlabel hended => ?_, fun hfinish hwaiting => ?_,
    fun call hcall hnot => ?_⟩
  · have := haccounted.account_le_one call
    unfold account at this
    omega
  · have hone := haccounted.account_eq_one hcall
    have hnone : t.pending = [] := by rw [pending, hstack]; rfl
    rwa [account, (harmed.ended hended).1, hnone, List.count_nil, Nat.add_zero] at hone
  · have hstep := h.step_of_mem he
    rw [hlabel] at hstep
    rw [← Option.some.inj hstep, sendData_ended hended]
  · obtain ⟨timer, htimer⟩ := Option.isSome_iff_exists.mp (harmed.waiting hfinish hwaiting)
    exact ⟨timer, htimer, harmed.alive hfinish timer htimer⟩
  · have hone := haccounted.account_eq_one hcall
    rw [account, hnot, Nat.zero_add] at hone
    by_cases hwaits : call ∈ t.drainWaiters
    · exact .inl hwaits
    · rw [List.count_eq_zero_of_not_mem hwaits, Nat.zero_add] at hone
      have hmem : call ∈ t.pending := List.count_pos_iff.mp (by omega)
      exact .inr (List.mem_flatMap.mp hmem)

/-- The callback of the first of two writes that wait makes another, which the socket
has room for, and ends the session; then the loop goes on with the second. -/
def reentrantRun : List DrainLabel :=
  [.sendData 1 [1] true HIGH_WATER_MARK, .sendData 2 [2] true HIGH_WATER_MARK, .tick 0 0, .sendData 1 [3] true 0,
    .callbackReturns, .endSession, .sendData 2 [4] true 0, .callbackReturns, .callbackReturns, .callbackReturns]

theorem reentrantRun_ends : ∃ t, drainSystem.exec .fresh reentrantRun = some t ∧ t.finish = false ∧ t.stack = [] ∧
    t.calls = 4 ∧ t.invoked = [⟨0, false⟩, ⟨2, false⟩, ⟨3, true⟩, ⟨1, false⟩] :=
  ⟨_, rfl, rfl, rfl, rfl, rfl⟩

theorem callbacks_once_reentrant : ∃ t, drainSystem.exec .fresh reentrantRun = some t ∧
    ∀ call < 4, t.timesInvoked call = 1 := by
  obtain ⟨t, hexec, hended, hstack, hcalls, -⟩ := reentrantRun_ends
  exact ⟨t, hexec, fun call hcall => (callbacks_once (.of_exec hexec)).2.1 hended hstack call (hcalls ▸ hcall)⟩

end ShuvTunnel
