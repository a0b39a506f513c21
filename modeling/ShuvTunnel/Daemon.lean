/-
# The background service

`daemon.rs` keeps the tunnel of a profile connected to the routes in its config
file. `reconcile` starts a tunnel, hands it new routes or resumes a pending
provision; commands, signals and the ticks of `check` call it. What it reads of
the disk and what comes of `client.connect` is whatever a label says.

`check` records a tunnel that stopped with a fatal error in `stopped`, and looks
at that before it takes up an edit of the config, but not before it reconciles
for a provisioning task that has finished.

Key definitions: `Daemon`, `Daemon.tryReconcile`, `Daemon.check`, `daemonSystem`,
`StaysStopped`, `Daemon.Reads.Connects`.
Key theorems: `Daemon.reconcile_idle`, `fatal_stop_sticky_iff`.
-/
import ShuvTunnel.Storage
import ShuvTunnel.Lib.Lts

namespace ShuvTunnel

/-! ### The daemon -/

/-- What `reconcile` finds: the config file, the profile in the storage, and what
comes of connecting and of `set_routes`. -/
structure Daemon.Reads where
  modified : Option ℕ
  identity : Except String (Option Rust.Identity)
  pending : Except String Bool
  routes : Except String (List (String × String))
  connect : Except String Unit
  setRoutes : Except String Unit

/-- `stopped` is the last error of a tunnel in the state `Stopped`. -/
structure Daemon.Running where
  identity : Rust.Identity
  routes : List (String × String)
  stopped : Option (Option String)

/-- The task that provisions: it runs, or it has ended and was not looked at. -/
inductive Daemon.Provisioning
  | inFlight
  | finished
  deriving DecidableEq

/-- `serve`: before its loop, in it, and behind it. -/
inductive Daemon.Phase
  | starting
  | serving
  | ended
  deriving DecidableEq

/-- `started` counts the tunnels that were started. -/
structure Daemon where
  phase : Daemon.Phase
  running : Option Daemon.Running
  provisioning : Option Daemon.Provisioning
  provisioningError : Option String
  stopped : Bool
  lastError : Option String
  configModified : Option ℕ
  started : ℕ

namespace Daemon

/-- `record_error`. -/
def recordError (message : String) (d : Daemon) : Daemon := { d with lastError := some message }

/-- `try_reconcile`: what is read from the storage and the configuration decides
what runs. -/
def tryReconcile (r : Reads) (d : Daemon) : Except String Unit × Daemon :=
  let d := { d with configModified := r.modified }
  match r.identity with
  | .error e => (.error e, d)
  | .ok none =>
    let d := { d with running := none }
    if d.provisioning = none then
      match r.pending with
      | .error e => (.error e, d)
      | .ok true => (.ok (), { d with provisioning := some .inFlight })
      | .ok false => (.ok (), d)
    else (.ok (), d)
  | .ok (some identity) =>
    match r.routes with
    | .error e => (.error e, d)
    | .ok routes =>
      -- "only a different tunnel requires a restart"
      match d.running.filter fun running =>
          running.identity.id = identity.id && running.identity.token = identity.token with
      | some running =>
        match r.setRoutes with
        | .error e => (.error e, d)
        | .ok () => (.ok (), { d with running := some { running with routes } })
      | none =>
        let d := { d with running := none }
        match r.connect with
        | .error e => (.error e, d)
        | .ok () =>
          (.ok (), { d with
            stopped := false
            running := some { identity, routes, stopped := none }
            started := d.started + 1 })

/-- `reconcile`: an error is recorded. -/
def reconcile (r : Reads) (d : Daemon) : Daemon :=
  match d.tryReconcile r with
  | (.ok (), d) => d
  | (.error message, d) => d.recordError message

/-- The first half of `check`: what has become of the provisioning task. -/
def noticeProvisioning (r : Reads) (d : Daemon) : Daemon :=
  let d := match d.provisioningError with
    | some error => { d with provisioningError := none }.recordError error
    | none => d
  if d.provisioning = some .finished then { d with provisioning := none }.reconcile r else d

/-- The error of a tunnel that has stopped. -/
def fatalStop (d : Daemon) : Option String :=
  d.running.bind fun running => running.stopped.map fun error => error.getD "tunnel stopped"

/-- `first` is read for a finished provisioning task, `modified` and then `second`
for an edit of the config. -/
def check (first : Reads) (modified : Option ℕ) (second : Reads) (d : Daemon) : Daemon :=
  let d := d.noticeProvisioning first
  match d.fatalStop with
  | some error => { d with running := none, stopped := true }.recordError error
  | none => if !d.stopped && decide (modified ≠ d.configModified) then d.reconcile second else d

/-- The daemon ends with all that it has. -/
def shutDown (d : Daemon) : Daemon := { d with phase := .ended, running := none, provisioning := none }

end Daemon

/-! ### Its runs -/

/-- What the daemon meets: commands, signals, ticks, and what the tunnel and the
task do. -/
inductive DaemonEvent
  -- the first `reconcile` of `serve`
  | start (reads : Daemon.Reads)
  | status
  | reload (reads : Daemon.Reads)
  | stop
  | terminate
  | interrupt
  | hangup (reads : Daemon.Reads)
  | tick (first : Daemon.Reads) (modified : Option ℕ) (second : Daemon.Reads)
  -- the running tunnel and the provisioning task, on their own
  | tunnelStops (error : Option String)
  | resumeFails (message : String)
  | resumeEnds

/-- A daemon under observation: `fatal` says that `check` has recorded a fatal stop
and neither a Reload command nor a SIGHUP was handled since. -/
structure Watched where
  daemon : Daemon
  fatal : Bool

namespace Watched

/-- What an event does to the daemon; an event that cannot happen now has no step. -/
def step (s : Watched) : DaemonEvent → Option Watched
  | .start reads =>
    if s.daemon.phase = .starting then
      some { s with daemon := { s.daemon with phase := .serving }.reconcile reads }
    else none
  | .status => if s.daemon.phase = .serving then some s else none
  | .reload reads =>
    if s.daemon.phase = .serving then
      some { daemon := { s.daemon with stopped := false }.reconcile reads, fatal := false }
    else none
  | .stop | .terminate | .interrupt =>
    if s.daemon.phase = .serving then some { s with daemon := s.daemon.shutDown } else none
  | .hangup reads =>
    if s.daemon.phase = .serving then some { daemon := s.daemon.reconcile reads, fatal := false } else none
  | .tick first modified second =>
    if s.daemon.phase = .serving then
      some { daemon := s.daemon.check first modified second
             fatal := s.fatal || (s.daemon.noticeProvisioning first).fatalStop.isSome }
    else none
  | .tunnelStops error =>
    s.daemon.running.map fun running =>
      { s with daemon := { s.daemon with running := some { running with stopped := some error } } }
  | .resumeFails message =>
    if s.daemon.provisioning = some .inFlight then
      some { s with daemon := { s.daemon with provisioningError := some message } }
    else none
  | .resumeEnds =>
    if s.daemon.provisioning = some .inFlight then
      some { s with daemon := { s.daemon with provisioning := some .finished } }
    else none

end Watched

/-- The daemon, as a system of its events. -/
def daemonSystem : Lts.System Watched DaemonEvent := ⟨Watched.step⟩

/-- `Daemon { .. }` of `serve`. -/
def Daemon.fresh : Daemon where
  phase := .starting
  running := none
  provisioning := none
  provisioningError := none
  stopped := false
  lastError := none
  configModified := none
  started := 0

/-- A daemon that was not started. -/
def Watched.fresh : Watched := ⟨Daemon.fresh, false⟩

/-- A Reload command or a SIGHUP. -/
def DaemonEvent.resumes : DaemonEvent → Bool
  | reload _ | hangup _ => true
  | _ => false

/-- While a fatal stop stands, the step starts no tunnel. -/
def StaysStopped (e : Lts.Event Watched DaemonEvent) : Prop :=
  e.before.fatal = true → e.label.resumes = false → e.after.daemon.started = e.before.daemon.started

/-- An identity is there, the config loads and connecting succeeds. -/
def Daemon.Reads.Connects (r : Daemon.Reads) : Prop :=
  (∃ identity, r.identity = .ok (some identity)) ∧ (∃ routes, r.routes = .ok routes) ∧ r.connect = .ok ()

/-- A tick finds that a provisioning task has finished, while a fatal stop stands,
and that the tunnel could be started. -/
def Bypasses (s : Watched) (a : DaemonEvent) : Prop :=
  s.fatal = true ∧ ∃ first modified second, a = .tick first modified second ∧
    s.daemon.provisioning = some .finished ∧ first.Connects

/-! ### What a reconciliation does -/

namespace Daemon

variable {d d' : Daemon} {r : Reads}

/-- Nothing runs, and `check` has recorded why. -/
def Halted (d : Daemon) : Prop := d.stopped = true ∧ d.running = none

/-- The number of tunnels started and the phase, after a reconciliation. -/
structure Onward (d d' : Daemon) : Prop where
  started : d.started ≤ d'.started
  phase : d'.phase = d.phase

theorem tryReconcile_onward (r : Reads) (d : Daemon) : d.Onward (d.tryReconcile r).2 := by
  unfold tryReconcile
  dsimp only
  split
  · exact ⟨Nat.le_refl _, rfl⟩
  · split
    · split <;> exact ⟨Nat.le_refl _, rfl⟩
    · exact ⟨Nat.le_refl _, rfl⟩
  · split
    · exact ⟨Nat.le_refl _, rfl⟩
    · split
      · split <;> exact ⟨Nat.le_refl _, rfl⟩
      · split
        · exact ⟨Nat.le_refl _, rfl⟩
        · exact ⟨Nat.le_succ _, rfl⟩

theorem reconcile_onward (r : Reads) (d : Daemon) : d.Onward (d.reconcile r) := by
  have h := tryReconcile_onward r d
  unfold reconcile
  split
  · rename_i d' hd
    rw [hd] at h
    exact h
  · rename_i message d' hd
    rw [hd] at h
    exact ⟨h.started, h.phase⟩

/-- Where nothing runs, what connects is started. -/
theorem tryReconcile_connects (h : r.Connects) (hrunning : d.running = none) :
    (d.tryReconcile r).1 = .ok () ∧ (d.tryReconcile r).2.started = d.started + 1 ∧
      (d.tryReconcile r).2.fatalStop = none := by
  obtain ⟨⟨identity, hidentity⟩, ⟨routes, hroutes⟩, hconnect⟩ := h
  unfold tryReconcile
  simp [hidentity, hroutes, hconnect, hrunning, fatalStop]

/-- And otherwise it stays as it is. -/
theorem tryReconcile_idle (h : ¬ r.Connects) (hrunning : d.running = none) :
    (d.tryReconcile r).2.started = d.started ∧ (d.tryReconcile r).2.stopped = d.stopped ∧
      (d.tryReconcile r).2.running = none := by
  unfold tryReconcile
  simp only [hrunning, Option.filter_none]
  split
  · exact ⟨rfl, rfl, rfl⟩
  · split
    · split <;> exact ⟨rfl, rfl, rfl⟩
    · exact ⟨rfl, rfl, rfl⟩
  · rename_i identity hidentity
    split
    · exact ⟨rfl, rfl, rfl⟩
    · rename_i routes hroutes
      split
      · exact ⟨rfl, rfl, rfl⟩
      · rename_i hconnect
        exact absurd ⟨⟨identity, hidentity⟩, ⟨routes, hroutes⟩, hconnect⟩ h

theorem reconcile_connects (h : r.Connects) (hrunning : d.running = none) :
    (d.reconcile r).started = d.started + 1 ∧ (d.reconcile r).fatalStop = none := by
  obtain ⟨hok, hstarted, hstop⟩ := tryReconcile_connects h hrunning
  unfold reconcile
  split
  · rename_i d' hd
    rw [hd] at hstarted hstop
    exact ⟨hstarted, hstop⟩
  · rename_i message d' hd
    rw [hd] at hok
    cases hok

theorem reconcile_idle (h : ¬ r.Connects) (hhalted : d.Halted) :
    (d.reconcile r).started = d.started ∧ (d.reconcile r).Halted := by
  obtain ⟨hstarted, hstopped, hrunning⟩ := tryReconcile_idle h hhalted.2
  unfold reconcile
  split
  · rename_i d' hd
    rw [hd] at hstarted hstopped hrunning
    exact ⟨hstarted, hstopped.trans hhalted.1, hrunning⟩
  · rename_i message d' hd
    rw [hd] at hstarted hstopped hrunning
    exact ⟨hstarted, hstopped.trans hhalted.1, hrunning⟩

/-- The error of a provision is recorded, and nothing else of it matters here. -/
theorem noticeProvisioning_eq (r : Reads) (d : Daemon) : ∃ d', d.noticeProvisioning r =
      (if d.provisioning = some .finished then ({ d' with provisioning := none } : Daemon).reconcile r else d') ∧
    d'.running = d.running ∧ d'.stopped = d.stopped ∧ d'.started = d.started ∧ d'.phase = d.phase := by
  unfold noticeProvisioning
  cases d.provisioningError with
  | none => exact ⟨d, rfl, rfl, rfl, rfl, rfl⟩
  | some error => exact ⟨{ d with provisioningError := none }.recordError error, rfl, rfl, rfl, rfl, rfl⟩

theorem noticeProvisioning_onward (r : Reads) (d : Daemon) : d.Onward (d.noticeProvisioning r) := by
  obtain ⟨d', hnotice, -, -, hstarted, hphase⟩ := noticeProvisioning_eq r d
  have hsame : d.Onward d' := ⟨hstarted.ge, hphase⟩
  rw [hnotice]
  split
  · have h := reconcile_onward r { d' with provisioning := none }
    exact ⟨hsame.started.trans h.started, h.phase.trans hsame.phase⟩
  · exact hsame

/-- In a daemon that is halted, a finished provision is all that starts a tunnel. -/
theorem noticeProvisioning_connects (h : r.Connects) (hhalted : d.Halted)
    (hfinished : d.provisioning = some .finished) :
    (d.noticeProvisioning r).started = d.started + 1 ∧ (d.noticeProvisioning r).fatalStop = none := by
  obtain ⟨d', hnotice, hrunning, -, hstarted, -⟩ := noticeProvisioning_eq r d
  rw [hnotice, if_pos hfinished, ← hstarted]
  exact reconcile_connects h (hrunning.trans hhalted.2)

theorem noticeProvisioning_idle (h : d.provisioning = some .finished → ¬ r.Connects) (hhalted : d.Halted) :
    (d.noticeProvisioning r).started = d.started ∧ (d.noticeProvisioning r).Halted := by
  obtain ⟨d', hnotice, hrunning, hstopped, hstarted, -⟩ := noticeProvisioning_eq r d
  have hhalted' : d'.Halted := ⟨hstopped.trans hhalted.1, hrunning.trans hhalted.2⟩
  rw [hnotice, ← hstarted]
  split
  · rename_i hfinished
    exact reconcile_idle (h hfinished) hhalted'
  · exact ⟨rfl, hhalted'⟩

/-- `check` starts no fewer tunnels than its first half. -/
theorem noticeProvisioning_onward_check (first : Reads) (modified : Option ℕ) (second : Reads) (d : Daemon) :
    (d.noticeProvisioning first).Onward (d.check first modified second) := by
  unfold check
  dsimp only
  split
  · exact ⟨Nat.le_refl _, rfl⟩
  · split
    · exact reconcile_onward second _
    · exact ⟨Nat.le_refl _, rfl⟩

/-- The second half leaves a halted daemon alone. -/
theorem check_of_halted {first : Reads} (h : (d.noticeProvisioning first).Halted) (modified : Option ℕ)
    (second : Reads) :
    d.check first modified second = d.noticeProvisioning first := by
  have hstop : (d.noticeProvisioning first).fatalStop = none := by rw [fatalStop, h.2, Option.bind_none]
  unfold check
  dsimp only
  rw [hstop]
  simp [h.1]

/-- Where it records a stop, it leaves a halted daemon. -/
theorem check_halts {first : Reads} (h : (d.noticeProvisioning first).fatalStop.isSome = true) (modified : Option ℕ)
    (second : Reads) : (d.check first modified second).Halted := by
  obtain ⟨error, herror⟩ := Option.isSome_iff_exists.mp h
  unfold check
  dsimp only
  rw [herror]
  exact ⟨rfl, rfl⟩

end Daemon

/-! ### The runs -/

namespace Watched

/-- While a fatal stop stands, the daemon is halted. -/
structure Sound (s : Watched) : Prop where
  halted : s.fatal = true → s.daemon.Halted
  begun : s.fatal = true → s.daemon.phase ≠ .starting

variable {s s' : Watched} {a : DaemonEvent}

/-- A tick that does not bypass a fatal stop leaves it standing. -/
theorem check_of_not_bypasses {first second : Daemon.Reads} {modified : Option ℕ} (hs : s.Sound)
    (hfatal : s.fatal = true) (h : ¬ Bypasses s (.tick first modified second)) :
    (s.daemon.check first modified second).started = s.daemon.started ∧
      (s.daemon.check first modified second).Halted := by
  have hidle := Daemon.noticeProvisioning_idle (r := first)
    (fun hfinished hconnects => h ⟨hfatal, first, modified, second, rfl, hfinished, hconnects⟩) (hs.halted hfatal)
  rw [Daemon.check_of_halted hidle.2]
  exact hidle

theorem staysStopped_iff (hs : s.Sound) (hstep : s.step a = some s') : StaysStopped ⟨s, a, s'⟩ ↔ ¬ Bypasses s a := by
  constructor
  · rintro hstays ⟨hfatal, first, modified, second, rfl, hfinished, hconnects⟩
    obtain ⟨-, h⟩ := Option.ite_none_right_eq_some.mp hstep
    have hstarted : s'.daemon.started = s.daemon.started := hstays hfatal rfl
    obtain ⟨hone, -⟩ := Daemon.noticeProvisioning_connects hconnects (hs.halted hfatal) hfinished
    have hmore := (Daemon.noticeProvisioning_onward_check first modified second s.daemon).started
    rw [← Option.some.inj h] at hstarted
    dsimp only at hstarted
    omega
  · intro h hfatal hresumes
    cases a with
    | start reads => exact absurd (Option.ite_none_right_eq_some.mp hstep).1 (hs.begun hfatal)
    | reload reads => cases hresumes
    | hangup reads => cases hresumes
    | tick first modified second =>
      obtain ⟨-, hstep⟩ := Option.ite_none_right_eq_some.mp hstep
      rw [← Option.some.inj hstep]
      exact (check_of_not_bypasses hs hfatal h).1
    | tunnelStops error =>
      obtain ⟨running, -, rfl⟩ := Option.map_eq_some_iff.mp hstep
      rfl
    | _ =>
      obtain ⟨-, hstep⟩ := Option.ite_none_right_eq_some.mp hstep
      obtain rfl := Option.some.inj hstep
      rfl

theorem Sound.of_not_fatal (h : s.fatal = false) : s.Sound := by
  have hfalse : ¬ s.fatal = true := by rw [h]; decide
  exact ⟨fun hfatal => absurd hfatal hfalse, fun hfatal => absurd hfatal hfalse⟩

theorem Sound.step (hs : s.Sound) (hstep : s.step a = some s') (h : ¬ Bypasses s a) : s'.Sound := by
  cases a with
  | start reads =>
    obtain ⟨hphase, hstep⟩ := Option.ite_none_right_eq_some.mp hstep
    rw [← Option.some.inj hstep]
    exact Sound.of_not_fatal (Bool.eq_false_iff.mpr fun hfatal => hs.begun hfatal hphase)
  | reload reads | hangup reads =>
    obtain ⟨-, hstep⟩ := Option.ite_none_right_eq_some.mp hstep
    rw [← Option.some.inj hstep]
    exact Sound.of_not_fatal rfl
  | tick first modified second =>
    obtain ⟨hphase, hstep⟩ := Option.ite_none_right_eq_some.mp hstep
    have hserving : (s.daemon.check first modified second).phase = .serving := by
      rw [(Daemon.noticeProvisioning_onward_check first modified second s.daemon).phase,
        (Daemon.noticeProvisioning_onward first s.daemon).phase, hphase]
    rw [← Option.some.inj hstep]
    refine ⟨fun hfatal => ?_, fun _ => by rw [hserving]; decide⟩
    rcases Bool.or_eq_true_iff.mp hfatal with hfatal | hrecords
    · exact (check_of_not_bypasses hs hfatal h).2
    · exact Daemon.check_halts hrecords modified second
  | tunnelStops error =>
    obtain ⟨running, hrunning, rfl⟩ := Option.map_eq_some_iff.mp hstep
    refine Sound.of_not_fatal (Bool.eq_false_iff.mpr fun hfatal => ?_)
    rw [(hs.halted hfatal).2] at hrunning
    cases hrunning
  | stop | terminate | interrupt =>
    obtain ⟨-, hstep⟩ := Option.ite_none_right_eq_some.mp hstep
    rw [← Option.some.inj hstep]
    exact ⟨fun hfatal => ⟨(hs.halted hfatal).1, rfl⟩, fun _ hphase => (by cases hphase)⟩
  | status | resumeFails message | resumeEnds =>
    obtain ⟨-, hstep⟩ := Option.ite_none_right_eq_some.mp hstep
    rw [← Option.some.inj hstep]
    exact ⟨hs.halted, hs.begun⟩

theorem sound_fresh : fresh.Sound := Sound.of_not_fatal rfl

end Watched

/-- In a run of the daemon no tunnel is started while a fatal stop stands, exactly
when no tick reconciles for a finished provision what could be started. -/
theorem fatal_stop_sticky_iff {es : List (Lts.Event Watched DaemonEvent)} {t : Watched}
    (h : Lts.Run daemonSystem Watched.fresh es t) :
    (∀ e ∈ es, StaysStopped e) ↔ ∀ e ∈ es, ¬ Bypasses e.before e.label :=
  h.safe_iff (A := fun _ _ => True)
    (fun _ hs _ hstep hstays => hs.step hstep ((Watched.staysStopped_iff hs hstep).mp hstays))
    (fun _ hs _ hstep => Watched.staysStopped_iff hs hstep) (fun _ _ => trivial) Watched.sound_fresh

/-! ### A provision that outlasts a tunnel -/

/-- A provision is pending. -/
def pendingReads : Daemon.Reads where
  modified := some 1
  identity := .ok none
  pending := .ok true
  routes := .ok [("@", "localhost:3000")]
  connect := .ok ()
  setRoutes := .ok ()

/-- Its identity is there, and the config was edited. -/
def issuedReads : Daemon.Reads :=
  { pendingReads with
    modified := some 2
    identity := .ok (some ⟨"demo", "demo.shuv.zip", "token", "KEY", "CERT", "CHAIN", "2026-01-01T00:00:00.000Z"⟩)
    pending := .ok false }

/-- A tick that finds a new identity. -/
def issuedTick : DaemonEvent := .tick issuedReads (some 2) issuedReads

/-- The service resumes a provision, an edit of the config makes it start the
tunnel that another process has provisioned, the tunnel stops, and then the
service's own provision ends. -/
def bypassRun : List DaemonEvent :=
  [.start pendingReads, issuedTick, .tunnelStops (some "bad_token"), issuedTick, .resumeEnds]

theorem bypassRun_ends : ∃ s s', daemonSystem.exec Watched.fresh bypassRun = some s ∧ s.fatal = true ∧
    daemonSystem.step s issuedTick = some s' ∧ s'.daemon.started = s.daemon.started + 1 :=
  ⟨_, _, rfl, rfl, rfl, rfl⟩

/-- The tunnel that was recorded as stopped is started again by the next tick. -/
theorem not_fatal_stop_sticky : ¬ ∀ (es : List (Lts.Event Watched DaemonEvent)) (t : Watched),
    Lts.Run daemonSystem Watched.fresh es t → ∀ e ∈ es, StaysStopped e := by
  intro h
  obtain ⟨s, s', hexec, hfatal, hstep, hstarted⟩ := bypassRun_ends
  have hrun : Lts.Run daemonSystem Watched.fresh _ s' := (Lts.Run.of_exec hexec).append (.single hstep)
  have hstays := h _ s' hrun ⟨s, issuedTick, s'⟩ (List.mem_append_right _ (List.mem_singleton_self _)) hfatal rfl
  dsimp only at hstays
  omega

/-- The tunnel stops, which a tick records; another sees the config edited; then a
Reload starts it again, and the service's own provision ends. -/
def stickyRun : List DaemonEvent :=
  [.start pendingReads, issuedTick, .tunnelStops (some "bad_token"), issuedTick,
   .tick issuedReads (some 3) issuedReads, .reload issuedReads, .resumeEnds, issuedTick]

theorem stickyRun_ends : ∃ s, daemonSystem.exec Watched.fresh stickyRun = some s ∧ s.daemon.started = 2 ∧
    (daemonSystem.trace Watched.fresh stickyRun).any (fun e => e.before.fatal && !e.label.resumes) = true ∧
    (daemonSystem.trace Watched.fresh stickyRun).all
      (fun e => !(e.before.fatal && e.before.daemon.provisioning == some .finished)) = true :=
  ⟨_, rfl, rfl, rfl, rfl⟩

theorem fatal_stop_sticky_reload : ∃ s es, Lts.Run daemonSystem Watched.fresh es s ∧ es.map (·.label) = stickyRun ∧
    s.daemon.started = 2 ∧ (∃ e ∈ es, e.before.fatal = true ∧ e.label.resumes = false) ∧ ∀ e ∈ es, StaysStopped e := by
  obtain ⟨s, hexec, hstarted, hstands, hfinished⟩ := stickyRun_ends
  have hrun := Lts.Run.of_exec hexec
  refine ⟨s, _, hrun, Lts.map_label_trace hexec, hstarted, ?_, (fatal_stop_sticky_iff hrun).mpr fun e he => ?_⟩
  · simpa using List.any_eq_true.mp hstands
  · rintro ⟨hfatal, first, modified, second, -, hprovisioned, -⟩
    have hnot := List.all_eq_true.mp hfinished e he
    simp [hfatal, hprovisioned] at hnot

end ShuvTunnel
