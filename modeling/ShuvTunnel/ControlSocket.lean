/-
# The service of a profile and its socket

Every `serve` of a profile goes for the same lock file and the same socket. One gets
the lock, puts its listener where the socket was, reads requests from it and answers
them in the loop of `serve`; it may end or die at any point, with its socket left
behind. Here any number of processes do so, and any number of connections are made
and dropped meanwhile, by `service::request` and by other programs.

The kernel gives up the lock of a process that has gone, and closes its listener and
its connections.

Key definitions: `Control.Process.step`, `Control.Process.handle`,
`Control.Connection.step`, `Control.machine`.
Key theorems: `Control.Process.Fits.step`, `Control.Process.Fits.frame`.
-/
import ShuvTunnel.Daemon
import ShuvTunnel.Control

namespace ShuvTunnel
namespace Control

/-! ### The processes -/

/-- Where `serve` is. -/
inductive Place
  | opening
  -- the lock file is open
  | opened
  | locked
  -- the old socket is removed
  | cleared
  | bound
  -- only its owner may connect
  | guarded
  -- the accept loop runs, and there are no signal handlers yet
  | settling
  | looping
  | stopping
  -- the socket is removed
  | closed
  -- `serve` has returned, but the process has not
  | returned
  | gone
  deriving DecidableEq

/-- The lock is held. -/
def Place.locks : Place → Bool
  | locked | cleared | bound | guarded | settling | looping | stopping | closed => true
  | _ => false

/-- The socket is there. -/
def Place.binds : Place → Bool
  | bound | guarded | settling | looping | stopping => true
  | _ => false

/-- There was no daemon yet. -/
def Place.early : Place → Bool
  | opening | opened | locked | cleared | bound | guarded => true
  | _ => false

/-- There is a daemon. -/
def Place.live : Place → Bool
  | settling | looping | stopping | closed => true
  | _ => false

/-- `queue` holds what the channel to the loop does: a command and whose it is. -/
structure Process where
  place : Place
  pid : UInt32
  startedAt : UInt64
  listening : Bool
  queue : List (ℕ × Command)
  watched : Watched

/-- A process that has just begun `serve`. -/
def Process.fresh (pid : UInt32) : Process where
  place := .opening
  pid
  startedAt := 0
  listening := false
  queue := []
  watched := .fresh

/-- The lock file, with the process that has the lock, and the socket, with the one
that bound it. -/
structure Shared where
  lock : Option ℕ
  socket : Option ℕ

/-- The lock goes with the process that has it. -/
def Shared.unlock (k : ℕ) (s : Shared) : Shared := if s.lock = some k then { s with lock := none } else s

/-- What a process does on its way through `serve`; `fails` says that the system
refused it. -/
inductive ProcessMove
  | openLock (fails : Bool)
  | tryLock (fails : Bool)
  | removeStale (fails : Bool)
  | bind (fails : Bool)
  | setPermissions (fails : Bool)
  | start (now : UInt64) (reads : Daemon.Reads)
  | signals (fails : Bool)
  -- a signal, a tick, or what the tunnel and the provisioning task do on their own
  | daemon (e : DaemonEvent)
  | dropListener
  | removeSocket (fails : Bool)
  | leave
  | exit
  | crash

/-- What of the daemon's events the loop selects; commands come through the channel. -/
def selected : DaemonEvent → Bool
  | .terminate | .interrupt | .hangup _ | .tick _ _ _ => true
  | _ => false

/-- What happens to the daemon without the loop. -/
def spontaneous : DaemonEvent → Bool
  | .tunnelStops _ | .resumeFails _ | .resumeEnds => true
  | _ => false

/-- Those that break the loop. -/
def breaks : DaemonEvent → Bool
  | .terminate | .interrupt => true
  | _ => false

/-- A daemon as a requester may know it. -/
structure Instance where
  number : ℕ
  pid : UInt32
  startedAt : UInt64
  watched : Watched

/-- What is seen of a service from outside. -/
inductive Seen
  | starts (k : ℕ) (pid : UInt32) (now : UInt64) (reads : Daemon.Reads)
  | moves (e : DaemonEvent)
  | ends
  | called (command : Option Command)
  | handled (c : ℕ) (command : Command) (reads : Daemon.Reads) (tunnel : TunnelStatus)
  | returned (c : ℕ) (response : Response)

namespace Process

/-- The daemon of a process, with its number. -/
def toInstance (k : ℕ) (p : Process) : Instance := ⟨k, p.pid, p.startedAt, p.watched⟩

/-- `serve` is over, and what it had is dropped. -/
def drop (place : Place) (listening : Bool) (p : Process) : Process :=
  { p with
    place, listening, queue := []
    watched := { p.watched with daemon := p.watched.daemon.shutDown } }

/-- The daemon is seen to end where there is one. -/
def ends (p : Process) : List Seen := if p.place.live then [.ends] else []

/-- `serve` returns early; an accept loop goes on. -/
def returns (k : ℕ) (s : Shared) (p : Process) : Shared × Process × List Seen :=
  (s.unlock k, p.drop .returned (p.place = .settling && p.listening), p.ends)

/-- A move of a process: what it makes of the files all share, where it is then,
and what is seen. -/
def step (k : ℕ) (s : Shared) (p : Process) : ProcessMove → Option (Shared × Process × List Seen)
  | .openLock fails =>
    if p.place = .opening then
      some (if fails then p.returns k s else (s, { p with place := .opened }, []))
    else none
  | .tryLock fails =>
    if p.place = .opened then
      if fails = false ∧ s.lock = none then some ({ s with lock := some k }, { p with place := .locked }, [])
      -- "the background service is already running for profile '{profile}'"
      else some (p.returns k s)
    else none
  | .removeStale fails =>
    if p.place = .locked then
      some (if fails then s else { s with socket := none }, { p with place := .cleared }, [])
    else none
  | .bind fails =>
    if p.place = .cleared then
      if fails = false ∧ s.socket = none then
        some ({ s with socket := some k }, { p with place := .bound, listening := true }, [])
      else some (p.returns k s)
    else none
  | .setPermissions fails =>
    if p.place = .bound then
      some (if fails then p.returns k s else (s, { p with place := .guarded }, []))
    else none
  | .start now reads =>
    if p.place = .guarded then
      (p.watched.step (.start reads)).map fun watched =>
        (s, { p with place := .settling, startedAt := now, watched }, [.starts k p.pid now reads])
    else none
  | .signals fails =>
    if p.place = .settling then
      some (if fails then p.returns k s else (s, { p with place := .looping }, []))
    else none
  | .daemon e =>
    if (selected e = true ∧ p.place = .looping) ∨
        (spontaneous e = true ∧ (p.place = .settling ∨ p.place = .looping)) then
      (p.watched.step e).map fun watched =>
        (s, { p with place := if breaks e then .stopping else p.place, watched }, [.moves e])
    else none
  -- `accept.abort()` takes the listener when the accept loop is next waited for
  | .dropListener =>
    if p.place = .stopping ∨ p.place = .closed ∨ p.place = .returned then
      some (s, { p with listening := false }, [])
    else none
  | .removeSocket fails =>
    if p.place = .stopping then
      some (if fails then s else { s with socket := none }, { p with place := .closed }, [])
    else none
  | .leave => if p.place = .closed then some (s.unlock k, p.drop .returned p.listening, p.ends) else none
  | .exit => if p.place = .returned then some (s, { p with place := .gone, listening := false }, []) else none
  | .crash => if p.place = .gone then none else some (s.unlock k, p.drop .gone false, p.ends)

/-! ### What a process does -/

/-- A move of a process, by what it does to the lock, the socket and the daemon. -/
inductive Goes (k : ℕ) (s : Shared) (p : Process) : Shared → Process → List Seen → Prop
  | locks (hfree : s.lock = none) (hp : p.place = .opened) :
      Goes k s p { s with lock := some k } { p with place := .locked } []
  | onward {place : Place} (listening : Bool) (hlocks : place.locks = p.place.locks)
      (hlive : place.live = p.place.live) (hbinds : place.binds = true → p.place.binds = true)
      (hearly : place.early = true → p.place.early = true) : Goes k s p s { p with place, listening } []
  | clears {place : Place} (hp : p.place.locks = true) (hlocks : place.locks = true)
      (hlive : place.live = p.place.live) (hbinds : place.binds = false)
      (hearly : place.early = true → p.place.early = true) :
      Goes k s p { s with socket := none } { p with place } []
  | binds (hp : p.place = .cleared) :
      Goes k s p { s with socket := some k } { p with place := .bound, listening := true } []
  | starts (hp : p.place = .guarded) {now : UInt64} {reads : Daemon.Reads} {watched : Watched}
      (h : p.watched.step (.start reads) = some watched) :
      Goes k s p s { p with place := .settling, startedAt := now, watched } [.starts k p.pid now reads]
  | moves {place : Place} {e : DaemonEvent} {watched : Watched} (hp : p.place = .settling ∨ p.place = .looping)
      (hplace : place = p.place ∨ place = .stopping) (h : p.watched.step e = some watched) :
      Goes k s p s { p with place, watched } [.moves e]
  | ends {place : Place} (listening : Bool) (hplace : place = .returned ∨ place = .gone) :
      Goes k s p (s.unlock k) (p.drop place listening) p.ends

variable {k : ℕ} {s s' : Shared} {p p' : Process} {seen : List Seen}

theorem goes_returns : Goes k s p (p.returns k s).1 (p.returns k s).2.1 (p.returns k s).2.2 := .ends _ (.inl rfl)

/-- Each move is one of them. -/
theorem goes_of_step {m : ProcessMove} (h : p.step k s m = some (s', p', seen)) : Goes k s p s' p' seen := by
  cases m with
  | openLock fails =>
    obtain ⟨hp, h⟩ := Option.ite_none_right_eq_some.mp h
    cases fails with
    | true =>
      cases h
      exact goes_returns
    | false =>
      cases h
      exact .onward p.listening (by rw [hp]; rfl) (by rw [hp]; rfl) nofun fun _ => by rw [hp]; rfl
  | tryLock fails =>
    obtain ⟨hp, h⟩ := Option.ite_none_right_eq_some.mp h
    split at h
    · rename_i hfree
      cases h
      exact .locks hfree.2 hp
    · cases h
      exact goes_returns
  | removeStale fails =>
    obtain ⟨hp, h⟩ := Option.ite_none_right_eq_some.mp h
    cases fails with
    | true =>
      cases h
      exact .onward p.listening (by rw [hp]; rfl) (by rw [hp]; rfl) nofun fun _ => by rw [hp]; rfl
    | false =>
      cases h
      exact .clears (by rw [hp]; rfl) rfl (by rw [hp]; rfl) rfl fun _ => by rw [hp]; rfl
  | bind fails =>
    obtain ⟨hp, h⟩ := Option.ite_none_right_eq_some.mp h
    split at h
    · cases h
      exact .binds hp
    · cases h
      exact goes_returns
  | setPermissions fails =>
    obtain ⟨hp, h⟩ := Option.ite_none_right_eq_some.mp h
    cases fails with
    | true =>
      cases h
      exact goes_returns
    | false =>
      cases h
      exact .onward p.listening (by rw [hp]; rfl) (by rw [hp]; rfl) (fun _ => by rw [hp]; rfl)
        fun _ => by rw [hp]; rfl
  | start now reads =>
    obtain ⟨hp, h⟩ := Option.ite_none_right_eq_some.mp h
    obtain ⟨watched, hstep, h⟩ := Option.map_eq_some_iff.mp h
    cases h
    exact .starts hp hstep
  | signals fails =>
    obtain ⟨hp, h⟩ := Option.ite_none_right_eq_some.mp h
    cases fails with
    | true =>
      cases h
      exact goes_returns
    | false =>
      cases h
      exact .onward p.listening (by rw [hp]; rfl) (by rw [hp]; rfl) (fun _ => by rw [hp]; rfl) nofun
  | daemon e =>
    obtain ⟨hp, h⟩ := Option.ite_none_right_eq_some.mp h
    obtain ⟨watched, hstep, h⟩ := Option.map_eq_some_iff.mp h
    cases h
    refine .moves ?_ ?_ hstep
    · rcases hp with hp | hp
      · exact .inr hp.2
      · exact hp.2
    · split
      · exact .inr rfl
      · exact .inl rfl
  | dropListener =>
    obtain ⟨hp, h⟩ := Option.ite_none_right_eq_some.mp h
    cases h
    exact .onward false rfl rfl id id
  | removeSocket fails =>
    obtain ⟨hp, h⟩ := Option.ite_none_right_eq_some.mp h
    cases fails with
    | true =>
      cases h
      exact .onward p.listening (by rw [hp]; rfl) (by rw [hp]; rfl) nofun nofun
    | false =>
      cases h
      exact .clears (by rw [hp]; rfl) rfl (by rw [hp]; rfl) rfl nofun
  | leave =>
    obtain ⟨hp, h⟩ := Option.ite_none_right_eq_some.mp h
    cases h
    exact .ends _ (.inl rfl)
  | exit =>
    obtain ⟨hp, h⟩ := Option.ite_none_right_eq_some.mp h
    cases h
    exact .onward false (by rw [hp]; rfl) (by rw [hp]; rfl) nofun nofun
  | crash =>
    obtain ⟨hp, h⟩ := Option.ite_none_left_eq_some.mp h
    cases h
    exact .ends _ (.inr rfl)

/-! ### The lock and the socket -/

/-- The process is where the lock and the socket say it is. -/
structure Fits (k : ℕ) (s : Shared) (p : Process) : Prop where
  locks : p.place.locks = true ↔ s.lock = some k
  binds : p.place.binds = true → s.socket = some k
  early : p.place.early = true → p.watched = .fresh
  idle : p.place.live = false → p.queue = []

theorem lock_unlock (s : Shared) (k j : ℕ) : (s.unlock k).lock = some j ↔ s.lock = some j ∧ j ≠ k := by
  unfold Shared.unlock
  split
  · rename_i h
    simp [h, eq_comm]
  · rename_i h
    exact ⟨fun hj => ⟨hj, fun he => h (he ▸ hj)⟩, And.left⟩

theorem socket_unlock (s : Shared) (k : ℕ) : (s.unlock k).socket = s.socket := by
  unfold Shared.unlock
  split <;> rfl

theorem locks_of_binds {place : Place} (h : place.binds = true) : place.locks = true := by
  cases place <;> first | rfl | cases h

theorem locks_of_live {place : Place} (h : place.live = true) : place.locks = true := by
  cases place <;> first | rfl | cases h

theorem Fits.goes (hp : p.Fits k s) (h : Goes k s p s' p' seen) : p'.Fits k s' := by
  cases h with
  | locks hfree hplace =>
    exact ⟨⟨fun _ => rfl, fun _ => rfl⟩, nofun, fun _ => hp.early (by rw [hplace]; rfl),
      fun _ => hp.idle (by rw [hplace]; rfl)⟩
  | onward listening hlocks hlive hbinds hearly =>
    exact ⟨by rw [← hp.locks, ← hlocks], fun hb => hp.binds (hbinds hb), fun he => hp.early (hearly he),
      fun hl => hp.idle (hlive ▸ hl)⟩
  | clears hl hlocks hlive hbinds hearly =>
    exact ⟨⟨fun _ => hp.locks.mp hl, fun _ => hlocks⟩, fun hb => absurd hb (by rw [hbinds]; decide),
      fun he => hp.early (hearly he), fun hl => hp.idle (hlive ▸ hl)⟩
  | binds hplace =>
    exact ⟨⟨fun _ => hp.locks.mp (by rw [hplace]; rfl), fun _ => rfl⟩, fun _ => rfl,
      fun _ => hp.early (by rw [hplace]; rfl), fun _ => hp.idle (by rw [hplace]; rfl)⟩
  | starts hplace hstep =>
    exact ⟨⟨fun _ => hp.locks.mp (by rw [hplace]; rfl), fun _ => rfl⟩, fun _ => hp.binds (by rw [hplace]; rfl),
      nofun, nofun⟩
  | moves hplace hnext hstep =>
    have hlocks : p.place.locks = true := by rcases hplace with he | he <;> rw [he] <;> rfl
    have hbinds : p.place.binds = true := by rcases hplace with he | he <;> rw [he] <;> rfl
    have hlive : p.place.live = true := by rcases hplace with he | he <;> rw [he] <;> rfl
    rcases hnext with rfl | rfl
    · exact ⟨hp.locks, hp.binds, fun he => absurd he (by rcases hplace with hs | hs <;> rw [hs] <;> decide),
        fun hl => absurd (hlive.symm.trans hl) (by decide)⟩
    · exact ⟨⟨fun _ => hp.locks.mp hlocks, fun _ => rfl⟩, fun _ => hp.binds hbinds, nofun, nofun⟩
  | ends listening hplace =>
    have hno : ¬ (s.unlock k).lock = some k := fun h => ((lock_unlock s k k).mp h).2 rfl
    rcases hplace with rfl | rfl
    · exact ⟨⟨nofun, fun h => absurd h hno⟩, nofun, nofun, fun _ => rfl⟩
    · exact ⟨⟨nofun, fun h => absurd h hno⟩, nofun, nofun, fun _ => rfl⟩

/-- Another process is none the worse. -/
theorem Fits.frame {j : ℕ} {q : Process} (hj : j ≠ k) (hq : q.Fits j s) (hp : p.Fits k s)
    (h : Goes k s p s' p' seen) : q.Fits j s' := by
  -- who has its socket there has the lock, too, so no other process touches the socket
  have hsocket : p.place.locks = true → q.place.binds = false := by
    intro hl
    cases hb : q.place.binds with
    | false => rfl
    | true =>
      have hlock := hq.locks.mp (locks_of_binds hb)
      rw [hp.locks.mp hl] at hlock
      exact absurd (Option.some.inj hlock).symm hj
  cases h with
  | locks hfree hplace =>
    have hno : ¬ q.place.locks = true := fun hl => by
      have := hq.locks.mp hl
      rw [hfree] at this
      cases this
    exact ⟨⟨fun hl => absurd hl hno, fun he => absurd (Option.some.inj he).symm hj⟩, hq.binds, hq.early, hq.idle⟩
  | onward listening hlocks hlive hbinds hearly => exact hq
  | clears hl hlocks hlive hbinds hearly =>
    exact ⟨hq.locks, fun hb => absurd hb (by rw [hsocket hl]; decide), hq.early, hq.idle⟩
  | binds hplace =>
    exact ⟨hq.locks, fun hb => absurd hb (by rw [hsocket (by rw [hplace]; rfl)]; decide), hq.early, hq.idle⟩
  | starts hplace hstep => exact hq
  | moves hplace hnext hstep => exact hq
  | ends listening hplace =>
    exact ⟨by rw [lock_unlock, hq.locks]; exact ⟨fun h => ⟨h, hj⟩, And.left⟩,
      fun hb => (socket_unlock s k).trans (hq.binds hb), hq.early, hq.idle⟩

end Process

/-! ### A command -/

/-- `phase`: what the daemon says of itself. -/
def Instance.phase (i : Instance) : Phase :=
  match i.watched.daemon.running, i.watched.daemon.provisioning with
  | some running, _ => if running.stopped.isSome then .stopped else .running
  | none, some _ => .provisioning
  | none, none => if i.watched.daemon.stopped then .stopped else .noTunnel

/-- `version` and `profile` of the program. -/
structure Program where
  version : String
  profile : String

/-- `status`, where `tunnel` is what a tunnel says of itself, if there is one. -/
def Instance.status (G : Program) (tunnel : TunnelStatus) (i : Instance) : DaemonStatus where
  pid := i.pid
  version := G.version
  profile := G.profile
  phase := i.phase
  tunnel := i.watched.daemon.running.map fun _ => tunnel
  lastError := i.watched.daemon.lastError
  startedAt := i.startedAt

/-- What a command is to the daemon. -/
def Command.event (reads : Daemon.Reads) : Command → DaemonEvent
  | status => .status
  | reload => .reload reads
  | stop => .stop

/-- What is replied, when the command is done. -/
def Command.respond (G : Program) (tunnel : TunnelStatus) (i : Instance) : Command → Response
  | status | reload => ⟨true, some (i.status G tunnel), none⟩
  | stop => ⟨true, none, none⟩

/-- A command at the daemon: it moves, and responds. -/
def Instance.handle (G : Program) (command : Command) (reads : Daemon.Reads) (tunnel : TunnelStatus) (i : Instance) :
    Option (Instance × Response) :=
  (i.watched.step (command.event reads)).map fun watched =>
    let i := { i with watched }
    (i, command.respond G tunnel i)

/-- The loop takes a command from the channel. -/
def Process.handle (G : Program) (k : ℕ) (reads : Daemon.Reads) (tunnel : TunnelStatus) (p : Process) :
    Option (ℕ × Command × Process × Response) :=
  if p.place = .looping then
    match p.queue with
    | [] => none
    | (c, command) :: queue =>
      ((p.toInstance k).handle G command reads tunnel).map fun (i, response) =>
        (c, command,
          { p with place := if command = .stop then .stopping else p.place, queue, watched := i.watched }, response)
  else none

/-! ### The connections -/

/-- Where the connection is, on the side of the service: not accepted yet, or where
`handle` is. -/
inductive Stage
  | backlog
  | reading
  | sending (command : Command)
  | waiting
  | replying (left : List Char)
  | done
  deriving DecidableEq

/-- A connection to the process `server`, made by `request` with a command or by another
program. `input` is what was written to it and `output` what it was answered. `finished`
says that `request` has returned. -/
structure Connection where
  server : ℕ
  command : Option Command
  input : List Char
  ended : Bool
  stage : Stage
  output : List Char
  finished : Bool

/-- A connection to a process, before anything is written to it. -/
def Connection.fresh (server : ℕ) (command : Option Command) : Connection where
  server
  command
  input := []
  ended := false
  stage := .backlog
  output := []
  finished := false

/-- What happens at either end of a connection. -/
inductive ConnectionMove
  -- `request`
  | send
  | finish
  -- the timeout, and its errors
  | giveUp
  -- another program
  | write (text : List Char)
  | shutWrite
  -- `accept_loop` and `handle`
  | accept
  | read (error : String)
  | enqueue
  | flush (n : ℕ)
  | shutdown
  | fail

namespace Connection

/-- The kernel closes it, when the process has gone or the listener that held it. -/
def settle (k : ℕ) (p : Process) (x : Connection) : Connection :=
  if x.server = k ∧ (p.place = .gone ∨ (p.listening = false ∧ x.stage = .backlog)) then { x with stage := .done }
  else x

/-- The reply reaches the `handle` that waits for it. -/
def reply (r : Response) (x : Connection) : Connection :=
  if x.stage = .waiting then { x with stage := .replying (responseText r) } else x

/-- "invalid request: {error}" -/
def invalid (error : String) : Response := ⟨false, none, some ("invalid request: " ++ error)⟩

/-- A move of a connection: what is on it then, what it makes of the process that
serves it, and what is seen. -/
def step (c : ℕ) (p : Process) (x : Connection) : ConnectionMove → Option (Connection × Process × List Seen)
  | .send =>
    match x.command with
    | some command =>
      if x.input = [] ∧ x.finished = false then some ({ x with input := requestText command }, p, []) else none
    | none => none
  | .finish =>
    -- `read_to_string` has come to the end
    if x.command.isSome ∧ x.stage = .done ∧ x.finished = false then
      some ({ x with finished := true }, p, ((readResponse x.output).map (.returned c)).toList)
    else none
  | .giveUp =>
    if x.command.isSome ∧ x.finished = false then some ({ x with finished := true, ended := true }, p, []) else none
  | .write text =>
    if x.command = none ∧ x.ended = false then some ({ x with input := x.input ++ text }, p, []) else none
  | .shutWrite => if x.command = none ∧ x.ended = false then some ({ x with ended := true }, p, []) else none
  | .accept =>
    if x.stage = .backlog ∧ p.listening = true ∧ p.place ≠ .bound ∧ p.place ≠ .guarded then
      some ({ x with stage := .reading }, p, [])
    else none
  | .read error =>
    if x.stage = .reading then
      (readLine 4096 x.input x.ended).map fun line =>
        match readRequest line with
        | some command => ({ x with stage := .sending command }, p, [])
        | none => ({ x with stage := .replying (responseText (invalid error)) }, p, [])
    else none
  | .enqueue =>
    match x.stage with
    | .sending command =>
      if p.place.live = true ∧ p.queue.length < 16 then
        some ({ x with stage := .waiting }, { p with queue := p.queue ++ [(c, command)] }, [])
      else none
    | _ => none
  | .flush n =>
    match x.stage with
    | .replying left => some ({ x with stage := .replying (left.drop n), output := x.output ++ left.take n }, p, [])
    | _ => none
  | .shutdown => if x.stage = .replying [] then some ({ x with stage := .done }, p, []) else none
  | .fail =>
    match x.stage with
    -- the stream has failed
    | .reading | .replying _ => some ({ x with stage := .done }, p, [])
    -- the loop has dropped its end of the channel
    | .sending _ | .waiting => if p.place = .returned then some ({ x with stage := .done }, p, []) else none
    | _ => none

end Connection

/-! ### All of them -/

/-- The files, the processes, and the connections that were made to them. -/
structure State where
  shared : Shared
  processes : List Process
  connections : List Connection

/-- The steps of the service: processes are spawned and move, and connections are
made and move. -/
inductive Label
  | spawn (pid : UInt32)
  | process (k : ℕ) (m : ProcessMove)
  | handle (k : ℕ) (reads : Daemon.Reads) (tunnel : TunnelStatus)
  | connect (command : Option Command)
  | connection (c : ℕ) (m : ConnectionMove)

namespace State

/-- At first there is nothing but, perhaps, the socket of a process that has gone. -/
def initial (stale : Bool) : State :=
  ⟨⟨none, if stale then some 0 else none⟩, [{ Process.fresh 0 with place := .gone }], []⟩

variable (G : Program)

/-- What a step does, and what is seen of it from outside. -/
def step (s : State) : Label → Option (State × List Seen)
  | .spawn pid => some ({ s with processes := s.processes ++ [.fresh pid] }, [])
  | .process k m =>
    s.processes[k]?.bind fun p => (p.step k s.shared m).map fun (shared, p', seen) =>
      (⟨shared, s.processes.set k p', s.connections.map (Connection.settle k p')⟩, seen)
  | .handle k reads tunnel =>
    s.processes[k]?.bind fun p => (p.handle G k reads tunnel).map fun (c, command, p', response) =>
      ({ s with
          processes := s.processes.set k p'
          connections := s.connections.modify c (Connection.reply response) },
        [.handled c command reads tunnel])
  | .connect command =>
    s.shared.socket.bind fun k => s.processes[k]?.bind fun p =>
      if p.listening then
        some ({ s with connections := s.connections ++ [.fresh k command] }, [.called command])
      else none
  | .connection c m =>
    s.connections[c]?.bind fun x => s.processes[x.server]?.bind fun p => (x.step c p m).map fun (x', p', seen) =>
      ({ s with processes := s.processes.set x.server p', connections := s.connections.set c x' }, seen)

end State

/-- The service, as a machine that is seen from outside. -/
def machine (G : Program) : Lts.Machine State Label Seen := ⟨State.step G⟩

end Control
end ShuvTunnel
