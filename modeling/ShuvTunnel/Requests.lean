/-
# Requests are answered one at a time

Whatever the processes and the connections of `ControlSocket` do, what is seen of
them could be seen of one service that starts and ends, never two at a time, and
that handles each request at one moment, between the call and its return, by itself
and in full (`Serial`). The processes follow it step by step.

That is so because who has the lock alone puts the socket there and takes it away,
and because a response that did not come whole is no response.

Key definitions: `Control.Serial.step`, `Control.State.current`, `Control.State.Sound`.
Key theorems: `Control.Connection.Shows.step`, `Control.State.Sound.step`,
`Control.requests_serialized`.
-/
import ShuvTunnel.ControlSocket

namespace ShuvTunnel
namespace Control

/-! ### One service at a time -/

/-- A connection, its command where `request` made it, and what it was answered. -/
structure Call where
  command : Option Command
  answer : Option Response
  returned : Bool

/-- One service at most, and all calls that were made. -/
structure Serial where
  current : Option Instance
  calls : List Call

/-- A call is handled at once, and may return what it was answered from then on. -/
def Serial.step (G : Program) (t : Serial) : Seen → Option Serial
  | .starts k pid now reads =>
    if t.current = none then
      (Watched.fresh.step (.start reads)).map fun watched => { t with current := some ⟨k, pid, now, watched⟩ }
    else none
  | .moves e =>
    t.current.bind fun i => (i.watched.step e).map fun watched => { t with current := some { i with watched } }
  | .ends => t.current.map fun _ => { t with current := none }
  | .called command => some { t with calls := t.calls ++ [⟨command, none, false⟩] }
  | .handled c command reads tunnel =>
    t.current.bind fun i => t.calls[c]?.bind fun call =>
      if call.answer = none ∧ (call.command = none ∨ call.command = some command) then
        (i.handle G command reads tunnel).map fun (i, response) =>
          ⟨some i, t.calls.set c { call with answer := some response }⟩
      else none
  | .returned c response =>
    t.calls[c]?.bind fun call =>
      if call.answer = some response ∧ call.command ≠ none ∧ call.returned = false then
        some { t with calls := t.calls.set c { call with returned := true } }
      else none

/-- The service as a requester should know it. -/
def serial (G : Program) : Lts.System Serial Seen := ⟨Serial.step G⟩

/-! ### What a connection has of it -/

/-- The connection is not answered yet. -/
def Stage.waits : Stage → Bool
  | backlog | reading | sending _ | waiting => true
  | _ => false

namespace Connection

/-- What `request` does with its connection. -/
structure Asks (x : Connection) : Prop where
  input : ∀ command, x.command = some command → x.input = [] ∨ x.input = requestText command
  ended : ∀ command, x.command = some command → x.finished = false → x.ended = false
  sends : ∀ command command', x.command = some command → x.stage = .sending command' → command' = command

/-- The output is what has come of the response so far. -/
def Told (x : Connection) (y : Call) : Prop :=
  (y.answer = none ∧ x.output = [] ∧ ∀ left, x.stage ≠ .replying left) ∨
    ∃ r left, y.answer = some r ∧ responseText r = x.output ++ left ∧ (x.stage = .replying left ∨ x.stage = .done)

/-- A connection is where its call is. -/
structure Shows (x : Connection) (y : Call) : Prop where
  command : y.command = x.command
  finished : y.returned = true → x.finished = true
  waits : x.stage.waits = true → y.answer = none
  told : ∀ command, x.command = some command → x.finished = false → x.Told y

variable {c : ℕ} {p p' : Process} {x x' : Connection} {y : Call} {m : ConnectionMove} {seen : List Seen}

theorem Asks.settle (h : x.Asks) (k : ℕ) (p : Process) : (x.settle k p).Asks := by
  unfold Connection.settle
  split
  · exact ⟨h.input, h.ended, nofun⟩
  · exact h

theorem Shows.settle (h : x.Shows y) (k : ℕ) (p : Process) : (x.settle k p).Shows y := by
  unfold Connection.settle
  split
  · refine ⟨h.command, h.finished, nofun, fun command hcommand hfinished => ?_⟩
    rcases h.told command hcommand hfinished with ⟨hanswer, houtput, -⟩ | ⟨r, left, hanswer, houtput, -⟩
    · exact .inl ⟨hanswer, houtput, nofun⟩
    · exact .inr ⟨r, left, hanswer, houtput, .inr rfl⟩
  · exact h

theorem Asks.reply (h : x.Asks) (r : Response) : (x.reply r).Asks := by
  unfold Connection.reply
  split
  · exact ⟨h.input, h.ended, nofun⟩
  · exact h

/-- The moment at which it is handled. -/
theorem Shows.reply (h : x.Shows y) (hstage : x.stage = .waiting) (r : Response) :
    (x.reply r).Shows { y with answer := some r } := by
  unfold Connection.reply
  rw [if_pos hstage]
  refine ⟨h.command, h.finished, nofun, fun command hcommand hfinished => ?_⟩
  rcases h.told command hcommand hfinished with ⟨-, houtput, -⟩ | ⟨-, left, -, -, hleft⟩
  · exact .inr ⟨r, responseText r, rfl, by rw [houtput]; rfl, .inl rfl⟩
  · rw [hstage] at hleft
    rcases hleft with hleft | hleft <;> cases hleft

/-- The line of `request` is its command. -/
theorem Asks.read (h : x.Asks) {command : Command} (hcommand : x.command = some command) {line : List Char}
    (hline : readLine 4096 x.input x.ended = some line) :
    readRequest line = some command ∨ x.finished = true ∧ readRequest line = none := by
  rcases h.input command hcommand with hinput | hinput
  · rw [hinput] at hline
    cases hended : x.ended with
    | false =>
      rw [hended, readLine_nil] at hline
      cases hline
    | true =>
      rw [hended] at hline
      obtain rfl : [] = line := Option.some.inj hline
      refine .inr ⟨?_, rfl⟩
      cases hfinished : x.finished with
      | true => rfl
      | false => exact absurd (h.ended command hcommand hfinished) (by rw [hended]; decide)
  · rw [hinput, readLine_requestText] at hline
    rw [← Option.some.inj hline]
    exact .inl (readRequest_requestText command)

/-- What a move of a connection may do to its process. -/
inductive Frame (c : ℕ) (p : Process) (x x' : Connection) : Process → Prop
  | same (h : x.stage = .waiting → x'.stage = .waiting ∨ p.place = .returned) : Frame c p x x' p
  | enqueue {command : Command} (hstage : x.stage = .sending command) (hstage' : x'.stage = .waiting)
      (hlive : p.place.live = true) : Frame c p x x' { p with queue := p.queue ++ [(c, command)] }

/-- What a move of a connection does, and what is seen of it. -/
structure Follows (c : ℕ) (p : Process) (x : Connection) (y : Call) (x' : Connection) (p' : Process)
    (seen : List Seen) : Prop where
  server : x'.server = x.server
  command : x'.command = x.command
  frame : Frame c p x x' p'
  asks : x'.Asks
  shows : (seen = [] ∧ x'.Shows y) ∨
    ∃ r, seen = [.returned c r] ∧ y.answer = some r ∧ y.command ≠ none ∧ y.returned = false ∧
      x'.Shows { y with returned := true }

/-- `handle` goes on, up to its reply or to its end. -/
theorem follows_stage (ha : x.Asks) (hs : x.Shows y) {stage : Stage} (hframe : Frame c p x { x with stage } p')
    (hsends : ∀ command command', x.command = some command → stage = .sending command' → command' = command)
    (hwaits : stage.waits = true → x.stage.waits = true) (hreplying : ∀ left, stage ≠ .replying left)
    (hdone : x.stage.waits = true ∨ stage = .done) : Follows c p x y { x with stage } p' [] := by
  refine ⟨rfl, rfl, hframe, ⟨ha.input, ha.ended, hsends⟩, .inl ⟨rfl, hs.command, hs.finished,
    fun h => hs.waits (hwaits h), fun command hcommand hfinished => ?_⟩⟩
  rcases hs.told command hcommand hfinished with ⟨hanswer, houtput, -⟩ | ⟨r, left, hanswer, houtput, -⟩
  · exact .inl ⟨hanswer, houtput, hreplying⟩
  · refine .inr ⟨r, left, hanswer, houtput, .inr (hdone.resolve_left fun h => ?_)⟩
    rw [hs.waits h] at hanswer
    cases hanswer

/-- `request` or another program writes, or comes to its end. -/
theorem follows_peer (ha : x.Asks) (hs : x.Shows y) {input : List Char} {ended finished : Bool}
    (hinput : ∀ command, x.command = some command → input = [] ∨ input = requestText command)
    (hended : ∀ command, x.command = some command → finished = false → ended = false)
    (hfinished : x.finished = true → finished = true) :
    Follows c p x y { x with input, ended, finished } p [] := by
  refine ⟨rfl, rfl, .same .inl, ⟨hinput, hended, ha.sends⟩, .inl ⟨rfl, hs.command, fun h => hfinished (hs.finished h),
    hs.waits, fun command hcommand hf => hs.told command hcommand ?_⟩⟩
  cases h : x.finished with
  | false => rfl
  | true =>
    have hf : finished = false := hf
    exact absurd (hfinished h) (by rw [hf]; decide)

theorem follows_of_step (ha : x.Asks) (hs : x.Shows y) (h : x.step c p m = some (x', p', seen)) :
    Follows c p x y x' p' seen := by
  cases m with
  | send =>
    unfold step at h
    dsimp only at h
    split at h
    · rename_i command hcommand
      obtain ⟨-, h⟩ := Option.ite_none_right_eq_some.mp h
      cases h
      refine follows_peer ha hs (fun command' h => .inr ?_) ha.ended id
      rw [hcommand] at h
      rw [Option.some.inj h]
    · cases h
  | finish =>
    obtain ⟨⟨hcommand, hstage, hfinished⟩, h⟩ := Option.ite_none_right_eq_some.mp h
    cases h
    obtain ⟨command, hcommand⟩ := Option.isSome_iff_exists.mp hcommand
    have hasks : ({ x with finished := true } : Connection).Asks := ⟨ha.input, nofun, ha.sends⟩
    have hframe : Frame c p x { x with finished := true } p := .same .inl
    have hwaits : x.stage.waits = true → False := fun h => by
      rw [hstage] at h
      cases h
    refine ⟨rfl, rfl, hframe, hasks, ?_⟩
    cases hread : readResponse x.output with
    | none => exact .inl ⟨rfl, hs.command, fun _ => rfl, fun h => (hwaits h).elim, nofun⟩
    | some r =>
      have hasked : y.command ≠ none := by
        rw [hs.command, hcommand]
        exact Option.some_ne_none _
      refine .inr ⟨r, rfl, ?_, hasked, ?_, hs.command, fun _ => rfl, fun h => (hwaits h).elim, nofun⟩
      · -- a response was read, so one was written
        rcases hs.told command hcommand hfinished with ⟨-, houtput, -⟩ | ⟨r', left, hanswer, houtput, -⟩
        · rw [houtput] at hread
          cases hread
        · rw [hanswer, readResponse_cut houtput hread]
      · cases hreturned : y.returned with
        | false => rfl
        | true => exact absurd (hs.finished hreturned) (by rw [hfinished]; decide)
  | giveUp =>
    obtain ⟨-, h⟩ := Option.ite_none_right_eq_some.mp h
    cases h
    exact follows_peer ha hs ha.input nofun fun _ => rfl
  | write text =>
    obtain ⟨⟨hcommand, -⟩, h⟩ := Option.ite_none_right_eq_some.mp h
    cases h
    exact follows_peer ha hs (fun command h => by rw [hcommand] at h; cases h) ha.ended id
  | shutWrite =>
    obtain ⟨⟨hcommand, -⟩, h⟩ := Option.ite_none_right_eq_some.mp h
    cases h
    exact follows_peer ha hs ha.input (fun command h => by rw [hcommand] at h; cases h) id
  | accept =>
    obtain ⟨⟨hstage, -⟩, h⟩ := Option.ite_none_right_eq_some.mp h
    cases h
    exact follows_stage ha hs (.same fun h => by rw [hstage] at h; cases h) nofun (fun _ => by rw [hstage]; rfl) nofun
      (.inl (by rw [hstage]; rfl))
  | read error =>
    obtain ⟨hstage, h⟩ := Option.ite_none_right_eq_some.mp h
    obtain ⟨line, hline, h⟩ := Option.map_eq_some_iff.mp h
    cases hrequest : readRequest line with
    | some command =>
      rw [hrequest] at h
      cases h
      refine follows_stage ha hs (.same fun h => by rw [hstage] at h; cases h) ?_ (fun _ => by rw [hstage]; rfl) nofun
        (.inl (by rw [hstage]; rfl))
      intro command' command'' hcommand hsending
      cases hsending
      rcases ha.read hcommand hline with h | ⟨-, h⟩
      · exact Option.some.inj (hrequest.symm.trans h)
      · rw [hrequest] at h
        cases h
    | none =>
      rw [hrequest] at h
      cases h
      refine ⟨rfl, rfl, .same (fun h => by rw [hstage] at h; cases h), ⟨ha.input, ha.ended, nofun⟩,
        .inl ⟨rfl, hs.command, hs.finished, nofun, fun command hcommand hfinished => ?_⟩⟩
      -- `request` does not write such a line
      rcases ha.read hcommand hline with h | ⟨h, -⟩
      · rw [hrequest] at h
        cases h
      · exact absurd (h.symm.trans hfinished) (by decide)
  | enqueue =>
    cases hstage : x.stage with
    | sending command =>
      simp only [step, hstage] at h
      obtain ⟨⟨hlive, -⟩, h⟩ := Option.ite_none_right_eq_some.mp h
      cases h
      exact follows_stage ha hs (.enqueue hstage rfl hlive) nofun (fun _ => by rw [hstage]; rfl) nofun
        (.inl (by rw [hstage]; rfl))
    | _ =>
      simp only [step, hstage] at h
      cases h
  | flush n =>
    cases hstage : x.stage with
    | replying left =>
      simp only [step, hstage] at h
      cases h
      refine ⟨rfl, rfl, .same (fun h => by rw [hstage] at h; cases h), ⟨ha.input, ha.ended, nofun⟩,
        .inl ⟨rfl, hs.command, hs.finished, nofun, fun command hcommand hfinished => ?_⟩⟩
      rcases hs.told command hcommand hfinished with ⟨-, -, hno⟩ | ⟨r, left', hanswer, houtput, hleft⟩
      · exact absurd hstage (hno left)
      · obtain rfl : left = left' := by
          rw [hstage] at hleft
          rcases hleft with hleft | hleft
          · cases hleft
            rfl
          · cases hleft
        exact .inr ⟨r, left.drop n, hanswer, by rw [houtput, List.append_assoc, List.take_append_drop], .inl rfl⟩
    | _ =>
      simp only [step, hstage] at h
      cases h
  | shutdown =>
    obtain ⟨hstage, h⟩ := Option.ite_none_right_eq_some.mp h
    cases h
    exact follows_stage ha hs (.same fun h => by rw [hstage] at h; cases h) nofun nofun nofun (.inr rfl)
  | fail =>
    have hends : x' = { x with stage := .done } → p' = p → seen = [] →
        (x.stage = .waiting → p.place = .returned) → Follows c p x y x' p' seen := by
      rintro rfl rfl rfl hplace
      exact follows_stage ha hs (.same fun h => .inr (hplace h)) nofun nofun nofun (.inr rfl)
    cases hstage : x.stage with
    | reading | replying left =>
      simp only [step, hstage] at h
      cases h
      exact hends rfl rfl rfl fun h => by rw [hstage] at h; cases h
    | sending command | waiting =>
      simp only [step, hstage] at h
      obtain ⟨hplace, h⟩ := Option.ite_none_right_eq_some.mp h
      cases h
      exact hends rfl rfl rfl fun _ => hplace
    | backlog | done =>
      simp only [step, hstage] at h
      cases h

end Connection
/-! ### The state -/

/-- The daemon that others may meet. -/
def Process.shown (k : ℕ) (p : Process) : Option Instance := if p.place.live then some (p.toInstance k) else none

/-- The service that there is. -/
def State.current (s : State) : Option Instance :=
  s.shared.lock.bind fun k => s.processes[k]?.bind fun p => p.shown k

/-- What holds of the files, the processes and the connections at all times. -/
structure State.Sound (s : State) : Prop where
  lock : ∀ k, s.shared.lock = some k → k < s.processes.length
  fits : ∀ (k : ℕ) (p : Process), s.processes[k]? = some p → p.Fits k s.shared
  waits : ∀ (k : ℕ) (p : Process), s.processes[k]? = some p → ∀ e ∈ p.queue, ∃ x : Connection,
    s.connections[e.1]? = some x ∧ x.server = k ∧ x.stage = .waiting ∧ (x.command = none ∨ x.command = some e.2)
  once : ∀ (k : ℕ) (p : Process), s.processes[k]? = some p → (p.queue.map (·.1)).Nodup
  asks : ∀ (c : ℕ) (x : Connection), s.connections[c]? = some x → x.Asks

/-- No two processes are past the lock. The service that there is has its socket there,
and is the daemon of the process that has the lock. -/
structure State.Exclusive (s : State) : Prop where
  lock : ∀ (j k : ℕ) (p q : Process), s.processes[j]? = some p → s.processes[k]? = some q →
    p.place.locks = true → q.place.locks = true → j = k
  socket : ∀ (k : ℕ) (p : Process), s.processes[k]? = some p → p.place.binds = true → s.shared.socket = some k
  serves : ∀ (k : ℕ) (p : Process), s.processes[k]? = some p → p.place.live = true →
    s.current = some (p.toInstance k)

/-- What the service is, and what has become of each call. -/
structure State.Shows (s : State) (t : Serial) : Prop where
  current : t.current = s.current
  length : t.calls.length = s.connections.length
  calls : ∀ (c : ℕ) (x : Connection), s.connections[c]? = some x → ∀ y, t.calls[c]? = some y → x.Shows y

namespace Process

variable {k : ℕ} {s s' : Shared} {p p' : Process} {seen : List Seen}

theorem shown_of_not_live (h : p.place.live = false) : p.shown k = none := by
  unfold shown
  rw [h]
  rfl

theorem shown_of_live (h : p.place.live = true) : p.shown k = some (p.toInstance k) := by
  unfold shown
  rw [h]
  rfl

theorem Goes.queue (h : Goes k s p s' p' seen) : p'.queue = p.queue ∨ p'.queue = [] := by
  cases h with
  | ends listening hplace => exact .inr rfl
  | _ => exact .inl rfl

/-- Who waits in the channel has a process whose loop is not over. -/
theorem Fits.live_of_mem (hp : p.Fits k s) {e : ℕ × Command} (he : e ∈ p.queue) : p.place.live = true := by
  cases h : p.place.live with
  | true => rfl
  | false =>
    rw [hp.idle h] at he
    cases he

/-- What a process does is what the one service does, or nothing that is seen. -/
theorem Goes.serial (G : Program) (hp : p.Fits k s) (h : Goes k s p s' p' seen) (calls : List Call) :
    (Control.serial G).exec ⟨p.shown k, calls⟩ seen = some ⟨p'.shown k, calls⟩ ∧
      (p.place.locks = false → seen = []) := by
  cases h with
  | locks hfree hplace =>
    refine ⟨?_, fun _ => rfl⟩
    rw [shown_of_not_live (by rw [hplace]; rfl), shown_of_not_live rfl]
    rfl
  | onward listening hlocks hlive hbinds hearly =>
    refine ⟨congrArg (fun i => some (Serial.mk i calls)) ?_, fun _ => rfl⟩
    unfold shown
    rw [← hlive]
    rfl
  | clears hl hlocks hlive hbinds hearly =>
    refine ⟨congrArg (fun i => some (Serial.mk i calls)) ?_, fun _ => rfl⟩
    unfold shown
    rw [← hlive]
    rfl
  | binds hplace =>
    refine ⟨?_, fun _ => rfl⟩
    rw [shown_of_not_live (by rw [hplace]; rfl), shown_of_not_live rfl]
    rfl
  | starts hplace hstep =>
    refine ⟨?_, fun h => absurd h (by rw [hplace]; decide)⟩
    rw [hp.early (by rw [hplace]; rfl)] at hstep
    rw [shown_of_not_live (by rw [hplace]; rfl)]
    simp only [Lts.System.exec, Control.serial, Serial.step, hstep, if_pos, Option.map_some, Option.bind_some]
    rfl
  | moves hplace hnext hstep =>
    have hlive : p.place.live = true := by rcases hplace with he | he <;> rw [he] <;> rfl
    refine ⟨?_, fun h => absurd (locks_of_live hlive) (by rw [h]; decide)⟩
    rw [shown_of_live hlive, shown_of_live (by rcases hnext with he | he <;> rw [he]; exact hlive; rfl)]
    simp only [Lts.System.exec, Control.serial, Serial.step, Option.bind_some]
    show ((p.watched.step _).map _).bind _ = _
    rw [hstep]
    rfl
  | @ends place listening hplace =>
    have hnone : (p.drop place listening).shown k = none :=
      shown_of_not_live (by rcases hplace with rfl | rfl <;> rfl)
    rw [hnone]
    cases hlive : p.place.live with
    | true =>
      refine ⟨?_, fun h => absurd (locks_of_live hlive) (by rw [h]; decide)⟩
      rw [shown_of_live hlive, Process.ends, hlive]
      rfl
    | false =>
      rw [shown_of_not_live hlive, Process.ends, hlive]
      exact ⟨rfl, fun _ => rfl⟩

end Process

namespace State

variable {G : Program} {s s' : State} {t : Serial} {k : ℕ} {p p' : Process} {shared : Shared} {seen : List Seen}

theorem current_of_locks (hs : s.Sound) (hp : s.processes[k]? = some p) (hl : p.place.locks = true) :
    s.current = p.shown k := by
  unfold current
  rw [(hs.fits k p hp).locks.mp hl, Option.bind_some, hp, Option.bind_some]

theorem Sound.exclusive (hs : s.Sound) : s.Exclusive where
  lock j k p q hp hq hl hl' := by
    have hlock := (hs.fits j p hp).locks.mp hl
    rw [(hs.fits k q hq).locks.mp hl'] at hlock
    exact (Option.some.inj hlock).symm
  socket k p hp := (hs.fits k p hp).binds
  serves k p hp hlive := by
    rw [current_of_locks hs hp (Process.locks_of_live hlive), Process.shown_of_live hlive]

/-- A process in the place of another, and the lock of another or of no one. -/
theorem current_set (hp : s.processes[k]? = some p) (hlock : s.shared.lock ≠ some k)
    (hlock' : shared.lock = s.shared.lock ∨ s.shared.lock = none ∧ shared.lock = some k ∧ p'.place.live = false)
    (connections : List Connection) : current ⟨shared, s.processes.set k p', connections⟩ = s.current := by
  unfold current
  dsimp only
  rcases hlock' with hsame | ⟨hnone, hsome, hlive⟩
  · rw [hsame]
    cases hj : s.shared.lock with
    | none => rfl
    | some j =>
      have hne : k ≠ j := fun he => hlock (he ▸ hj)
      rw [Option.bind_some, Option.bind_some, List.getElem?_set_ne hne]
  · rw [hnone, hsome, Option.bind_some, Option.bind_none, List.getElem?_set_self (List.getElem?_eq_some_iff.mp hp).1,
      Option.bind_some, Process.shown_of_not_live hlive]

/-- The process that has the lock, in the place of itself. -/
theorem current_set_self (hp : s.processes[k]? = some p)
    (hlock : shared.lock = some k ∨ shared.lock = none ∧ p'.place.live = false) (connections : List Connection) :
    current ⟨shared, s.processes.set k p', connections⟩ = p'.shown k := by
  unfold current
  dsimp only
  rcases hlock with hsome | ⟨hnone, hlive⟩
  · rw [hsome, Option.bind_some, List.getElem?_set_self (List.getElem?_eq_some_iff.mp hp).1, Option.bind_some]
  · rw [hnone, Option.bind_none, Process.shown_of_not_live hlive]

end State

namespace Process

variable {k : ℕ} {s s' : Shared} {p p' : Process} {seen : List Seen}

/-- Who has the lock may give it up, and with it the daemon. -/
theorem Goes.lock (hp : p.Fits k s) (h : Goes k s p s' p' seen) (hl : p.place.locks = true) :
    s'.lock = some k ∨ s'.lock = none ∧ p'.place.live = false := by
  cases h with
  | locks hfree hplace =>
    rw [hplace] at hl
    cases hl
  | ends listening hplace =>
    refine .inr ⟨?_, by rcases hplace with rfl | rfl <;> rfl⟩
    unfold Shared.unlock
    rw [if_pos (hp.locks.mp hl)]
  | _ => exact .inl (hp.locks.mp hl)

/-- Who has it not may get it when it is free, and has no daemon then. -/
theorem Goes.lock_of_not_locks (hp : p.Fits k s) (h : Goes k s p s' p' seen) (hl : p.place.locks = false) :
    s'.lock = s.lock ∨ s.lock = none ∧ s'.lock = some k ∧ p'.place.live = false := by
  cases h with
  | locks hfree hplace => exact .inr ⟨hfree, rfl, rfl⟩
  | ends listening hplace =>
    refine .inl ?_
    unfold Shared.unlock
    rw [if_neg fun h => absurd (hp.locks.mpr h) (by rw [hl]; decide)]
  | _ => exact .inl rfl

end Process

namespace State

variable {G : Program} {s s' : State} {t : Serial} {k : ℕ} {p p' : Process} {shared : Shared} {seen : List Seen}
  {connections : List Connection}

theorem lt_of_getElem? {α : Type*} {l : List α} {n : ℕ} {a : α} (h : l[n]? = some a) : n < l.length :=
  (List.getElem?_eq_some_iff.mp h).1

/-- What every process has, those have of which one was changed. -/
theorem forall_set {α : Type*} {l : List α} {n : ℕ} {a : α} {P : ℕ → α → Prop} (ha : P n a)
    (h : ∀ m b, m ≠ n → l[m]? = some b → P m b) (m : ℕ) (b : α) (hb : (l.set n a)[m]? = some b) : P m b := by
  by_cases he : m = n
  · subst he
    rw [List.getElem?_set_self (by simpa using lt_of_getElem? hb)] at hb
    rw [← Option.some.inj hb]
    exact ha
  · rw [List.getElem?_set_ne (Ne.symm he)] at hb
    exact h m b he hb

/-- A move of a process. -/
theorem Sound.process (hs : s.Sound) (hp : s.processes[k]? = some p)
    (h : Process.Goes k s.shared p shared p' seen) :
    Sound ⟨shared, s.processes.set k p', s.connections.map (Connection.settle k p')⟩ := by
  have hfits := hs.fits k p hp
  have hfits' := hfits.goes h
  have hk := lt_of_getElem? hp
  have hself : ∀ e ∈ p'.queue, e ∈ p.queue := fun e he => by
    rcases h.queue with hq | hq
    · exact hq ▸ he
    · rw [hq] at he
      cases he
  constructor
  · intro j hj
    rw [List.length_set]
    cases hl : p.place.locks with
    | true =>
      rcases h.lock hfits hl with hlock | ⟨hlock, -⟩
      · rw [hlock] at hj
        exact Option.some.inj hj ▸ hk
      · rw [hlock] at hj
        cases hj
    | false =>
      rcases h.lock_of_not_locks hfits hl with hlock | ⟨-, hlock, -⟩
      · exact hs.lock j (hlock ▸ hj)
      · rw [hlock] at hj
        exact Option.some.inj hj ▸ hk
  · exact forall_set hfits' fun j q hj hq => (hs.fits j q hq).frame hj hfits h
  · refine forall_set (fun e he => ?_) fun j q hj hq e he => ?_
    · obtain ⟨x, hx, hserver, hstage, hcommand⟩ := hs.waits k p hp e (hself e he)
      have hsettle : x.settle k p' = x := by
        unfold Connection.settle
        refine if_neg fun ⟨_, hgone⟩ => ?_
        rcases hgone with hgone | ⟨-, hbacklog⟩
        · have hlive := hfits'.live_of_mem he
          rw [hgone] at hlive
          cases hlive
        · rw [hstage] at hbacklog
          cases hbacklog
      exact ⟨x, by rw [List.getElem?_map, hx, Option.map_some, hsettle], hserver, hstage, hcommand⟩
    · obtain ⟨x, hx, hserver, hstage, hcommand⟩ := hs.waits j q hq e he
      have hsettle : x.settle k p' = x := if_neg fun ⟨h, _⟩ => hj (hserver.symm.trans h)
      exact ⟨x, by rw [List.getElem?_map, hx, Option.map_some, hsettle], hserver, hstage, hcommand⟩
  · refine forall_set ?_ fun j q _ hq => hs.once j q hq
    rcases h.queue with hq | hq
    · rw [hq]
      exact hs.once k p hp
    · rw [hq]
      exact List.nodup_nil
  · intro c x hx
    dsimp only at hx
    rw [List.getElem?_map] at hx
    obtain ⟨z, hz, rfl⟩ := Option.map_eq_some_iff.mp hx
    exact (hs.asks c z hz).settle k p'

theorem Shows.process (hs : s.Sound) (ht : s.Shows t) (hp : s.processes[k]? = some p)
    (h : Process.Goes k s.shared p shared p' seen) :
    ∃ t', (serial G).exec t seen = some t' ∧
      Shows ⟨shared, s.processes.set k p', s.connections.map (Connection.settle k p')⟩ t' := by
  have hfits := hs.fits k p hp
  obtain ⟨hexec, hnone⟩ := h.serial G hfits t.calls
  have hcalls : ∀ (c : ℕ) (x : Connection), (s.connections.map (Connection.settle k p'))[c]? = some x →
      ∀ y, t.calls[c]? = some y → x.Shows y := by
    intro c x hx y hy
    rw [List.getElem?_map] at hx
    obtain ⟨z, hz, rfl⟩ := Option.map_eq_some_iff.mp hx
    exact (ht.calls c z hz y hy).settle k p'
  have hlength : t.calls.length = (s.connections.map (Connection.settle k p')).length := by
    rw [List.length_map, ht.length]
  cases hl : p.place.locks with
  | true =>
    refine ⟨⟨p'.shown k, t.calls⟩, ?_, (current_set_self hp (h.lock hfits hl) _).symm, hlength, hcalls⟩
    rw [← hexec, ← current_of_locks hs hp hl, ← ht.current]
  | false =>
    have hlock : s.shared.lock ≠ some k := fun he => absurd (hfits.locks.mpr he) (by rw [hl]; decide)
    rw [hnone hl]
    exact ⟨t, rfl, ht.current.trans (current_set hp hlock (h.lock_of_not_locks hfits hl) _).symm, hlength, hcalls⟩

/-- What is taken from the channel, and what is replied. -/
theorem handle_eq {reads : Daemon.Reads} {tunnel : TunnelStatus} {c : ℕ} {command : Command} {response : Response}
    (h : p.handle G k reads tunnel = some (c, command, p', response)) :
    p.place = .looping ∧ p.queue = (c, command) :: p'.queue ∧ (p'.place = .looping ∨ p'.place = .stopping) ∧
      (p.toInstance k).handle G command reads tunnel = some (p'.toInstance k, response) := by
  obtain ⟨hplace, h⟩ := Option.ite_none_right_eq_some.mp h
  split at h
  · cases h
  · rename_i c' command' queue hqueue
    obtain ⟨⟨i, r⟩, hhandle, h⟩ := Option.map_eq_some_iff.mp h
    obtain ⟨watched, -, hi⟩ := Option.map_eq_some_iff.mp hhandle
    cases hi
    cases h
    refine ⟨hplace, hqueue, ?_, hhandle⟩
    dsimp only
    split
    · exact .inr rfl
    · exact .inl hplace

/-- The loop handles a command. -/
theorem Sound.handle (hs : s.Sound) (hp : s.processes[k]? = some p) {reads : Daemon.Reads} {tunnel : TunnelStatus}
    {c : ℕ} {command : Command} {response : Response}
    (h : p.handle G k reads tunnel = some (c, command, p', response)) :
    Sound { s with
      processes := s.processes.set k p'
      connections := s.connections.modify c (Connection.reply response) } := by
  obtain ⟨hplace, hqueue, hplace', -⟩ := handle_eq h
  have hfits := hs.fits k p hp
  have hlocks : s.shared.lock = some k := hfits.locks.mp (by rw [hplace]; rfl)
  have hbinds : s.shared.socket = some k := hfits.binds (by rw [hplace]; rfl)
  obtain ⟨x, hx, hserver, -, -⟩ := hs.waits k p hp (c, command) (hqueue ▸ List.mem_cons_self)
  have honce := hs.once k p hp
  rw [hqueue, List.map_cons, List.nodup_cons] at honce
  -- those who still wait are not the one that was answered
  have hothers : ∀ (j : ℕ) (e : ℕ × Command), e.1 ≠ c → (∃ y : Connection, s.connections[e.1]? = some y ∧
      y.server = j ∧ y.stage = .waiting ∧ (y.command = none ∨ y.command = some e.2)) →
      ∃ y : Connection, (s.connections.modify c (Connection.reply response))[e.1]? = some y ∧
        y.server = j ∧ y.stage = .waiting ∧ (y.command = none ∨ y.command = some e.2) := by
    rintro j e hne ⟨y, hy, hrest⟩
    exact ⟨y, by rw [List.getElem?_modify, hy]; exact congrArg some (if_neg (Ne.symm hne)), hrest⟩
  constructor
  · intro j hj
    rw [List.length_set]
    exact hs.lock j hj
  · refine forall_set ?_ fun j q _ hq => hs.fits j q hq
    have hlive : p'.place.live = true ∧ p'.place.early = false := by
      rcases hplace' with he | he <;> rw [he] <;> exact ⟨rfl, rfl⟩
    exact ⟨⟨fun _ => hlocks, fun _ => Process.locks_of_live hlive.1⟩, fun _ => hbinds,
      fun h => absurd (hlive.2.symm.trans h) (by decide), fun h => absurd (hlive.1.symm.trans h) (by decide)⟩
  · refine forall_set (fun e he => ?_) fun j q hj hq e he => ?_
    · exact hothers k e (fun hc => honce.1 (List.mem_map.mpr ⟨e, he, hc⟩))
        (hs.waits k p hp e (hqueue ▸ List.mem_cons_of_mem _ he))
    · refine hothers j e (fun hc => ?_) (hs.waits j q hq e he)
      obtain ⟨y, hy, hj', -, -⟩ := hs.waits j q hq e he
      rw [hc, hx] at hy
      exact hj ((Option.some.inj hy ▸ hj').symm.trans hserver)
  · exact forall_set honce.2 fun j q _ hq => hs.once j q hq
  · intro d y hy
    dsimp only at hy
    rw [List.getElem?_modify] at hy
    obtain ⟨z, hz, rfl⟩ := Option.map_eq_some_iff.mp hy
    split
    · exact (hs.asks d z hz).reply response
    · exact hs.asks d z hz

/-- And so does the one service. -/
theorem Shows.handle (hs : s.Sound) (ht : s.Shows t) (hp : s.processes[k]? = some p) {reads : Daemon.Reads}
    {tunnel : TunnelStatus} {c : ℕ} {command : Command} {response : Response}
    (h : p.handle G k reads tunnel = some (c, command, p', response)) :
    ∃ t', (serial G).exec t [.handled c command reads tunnel] = some t' ∧
      Shows { s with
        processes := s.processes.set k p'
        connections := s.connections.modify c (Connection.reply response) } t' := by
  obtain ⟨hplace, hqueue, hplace', hhandle⟩ := handle_eq h
  have hlocks : p.place.locks = true := by rw [hplace]; rfl
  have hcurrent : t.current = some (p.toInstance k) := by
    rw [ht.current, current_of_locks hs hp hlocks, Process.shown_of_live (by rw [hplace]; rfl)]
  obtain ⟨x, hx, -, hstage, hcommand⟩ := hs.waits k p hp (c, command) (hqueue ▸ List.mem_cons_self)
  obtain ⟨y, hy⟩ : ∃ y, t.calls[c]? = some y :=
    ⟨_, List.getElem?_eq_getElem (ht.length ▸ lt_of_getElem? hx)⟩
  have hshows := ht.calls c x hx y hy
  have hanswer : y.answer = none := hshows.waits (by rw [hstage]; rfl)
  refine ⟨⟨some (p'.toInstance k), t.calls.set c { y with answer := some response }⟩, ?_, ?_, ?_, ?_⟩
  · have hstep : Serial.step G t (.handled c command reads tunnel) =
        some ⟨some (p'.toInstance k), t.calls.set c { y with answer := some response }⟩ := by
      show t.current.bind _ = _
      rw [hcurrent, Option.bind_some, hy, Option.bind_some, if_pos ⟨hanswer, hshows.command ▸ hcommand⟩, hhandle]
      rfl
    simp only [Lts.System.exec, serial, hstep, Option.bind_some]
  · have hlock : s.shared.lock = some k := (hs.fits k p hp).locks.mp hlocks
    rw [current_set_self hp (.inl hlock), Process.shown_of_live (by rcases hplace' with he | he <;> rw [he] <;> rfl)]
  · rw [List.length_set, List.length_modify, ht.length]
  · intro d z hz w hw
    dsimp only at hz hw
    rw [List.getElem?_modify] at hz
    obtain ⟨z', hz', rfl⟩ := Option.map_eq_some_iff.mp hz
    by_cases hd : c = d
    · subst hd
      rw [List.getElem?_set_self (lt_of_getElem? hy)] at hw
      obtain rfl : x = z' := Option.some.inj (hx.symm.trans hz')
      rw [if_pos rfl, ← Option.some.inj hw]
      exact hshows.reply hstage response
    · rw [List.getElem?_set_ne hd] at hw
      rw [if_neg hd]
      exact ht.calls d z' hz' w hw

/-- What a move of a connection keeps. -/
theorem Sound.connection (hs : s.Sound) {c : ℕ} {x x' : Connection} {y : Call} (hx : s.connections[c]? = some x)
    (hp : s.processes[x.server]? = some p) (h : Connection.Follows c p x y x' p' seen) :
    Sound { s with processes := s.processes.set x.server p', connections := s.connections.set c x' } := by
  have hfits := hs.fits x.server p hp
  have hc := lt_of_getElem? hx
  -- in a channel whose loop is not over, those who wait go on waiting
  have hself : ∀ (k : ℕ) (q : Process), s.processes[k]? = some q → ∀ e ∈ q.queue, ∃ z : Connection,
      (s.connections.set c x')[e.1]? = some z ∧ z.server = k ∧ z.stage = .waiting ∧
        (z.command = none ∨ z.command = some e.2) := by
    intro k q hq e he
    obtain ⟨z, hz, hserver, hstage, hcommand⟩ := hs.waits k q hq e he
    by_cases hd : c = e.1
    · obtain rfl : x = z := Option.some.inj (hx.symm.trans (hd ▸ hz))
      refine ⟨x', by rw [← hd, List.getElem?_set_self hc], h.server.trans hserver, ?_, h.command ▸ hcommand⟩
      cases h.frame with
      | same hframe =>
        refine (hframe hstage).resolve_right fun hreturned => ?_
        obtain rfl : p = q := Option.some.inj (hp.symm.trans (hserver ▸ hq))
        have hlive := hfits.live_of_mem he
        rw [hreturned] at hlive
        cases hlive
      | enqueue hsending hwaiting hlive => exact hwaiting
    · exact ⟨z, by rw [List.getElem?_set_ne hd, hz], hserver, hstage, hcommand⟩
  have hasks : ∀ (d : ℕ) (z : Connection), (s.connections.set c x')[d]? = some z → z.Asks :=
    forall_set h.asks fun d z _ hz => hs.asks d z hz
  cases h.frame with
  | same hframe =>
    have hset : s.processes.set x.server p = s.processes := by
      rw [← (List.getElem?_eq_some_iff.mp hp).2]
      exact List.set_getElem_self _
    rw [hset]
    exact ⟨hs.lock, hs.fits, hself, hs.once, hasks⟩
  | @enqueue command hsending hwaiting hlive =>
    refine ⟨fun j hj => by rw [List.length_set]; exact hs.lock j hj, ?_, ?_, ?_, hasks⟩
    · exact forall_set ⟨hfits.locks, hfits.binds, hfits.early, fun hl => absurd (hlive.symm.trans hl) (by decide)⟩
        fun j q _ hq => hs.fits j q hq
    · refine forall_set (fun e he => ?_) fun j q _ hq => hself j q hq
      rcases List.mem_append.mp he with he | he
      · exact hself x.server p hp e he
      · rw [List.mem_singleton.mp he]
        refine ⟨x', List.getElem?_set_self hc, h.server, hwaiting, ?_⟩
        rw [h.command]
        cases hcommand : x.command with
        | none => exact .inl rfl
        | some command' => exact .inr (congrArg some ((hs.asks c x hx).sends command' command hcommand hsending).symm)
    · refine forall_set ?_ fun j q _ hq => hs.once j q hq
      rw [List.map_append, List.nodup_append]
      refine ⟨hs.once x.server p hp, List.nodup_singleton _, fun d hd d' hd' he => ?_⟩
      -- the one that is added was not waiting before
      obtain ⟨e, he', rfl⟩ := List.mem_map.mp hd
      obtain ⟨z, hz, -, hstage, -⟩ := hs.waits x.server p hp e he'
      rw [List.map_singleton, List.mem_singleton] at hd'
      rw [he, hd', hx] at hz
      rw [← Option.some.inj hz, hsending] at hstage
      cases hstage

theorem current_connection {c : ℕ} {x x' : Connection} {y : Call} (hs : s.Sound)
    (hp : s.processes[x.server]? = some p) (h : Connection.Follows c p x y x' p' seen)
    (connections : List Connection) :
    current { s with processes := s.processes.set x.server p', connections } = s.current := by
  have hshown : p'.place = p.place ∧ p'.shown x.server = p.shown x.server := by
    cases h.frame with
    | same hframe => exact ⟨rfl, rfl⟩
    | enqueue hsending hwaiting hlive => exact ⟨rfl, rfl⟩
  cases hl : p.place.locks with
  | true =>
    rw [current_of_locks hs hp hl, ← hshown.2]
    exact current_set_self hp (.inl ((hs.fits _ p hp).locks.mp hl)) _
  | false =>
    have hlock : s.shared.lock ≠ some x.server := fun he =>
      absurd ((hs.fits _ p hp).locks.mpr he) (by rw [hl]; decide)
    exact current_set hp hlock (.inl rfl) _

theorem Shows.connection (hs : s.Sound) (ht : s.Shows t) {c : ℕ} {x x' : Connection} {m : ConnectionMove}
    (hx : s.connections[c]? = some x) (hp : s.processes[x.server]? = some p)
    (h : x.step c p m = some (x', p', seen)) :
    let s' : State :=
      { s with processes := s.processes.set x.server p', connections := s.connections.set c x' }
    s'.Sound ∧ ∃ t', (serial G).exec t seen = some t' ∧ s'.Shows t' := by
  intro s'
  obtain ⟨y, hy⟩ : ∃ y, t.calls[c]? = some y := ⟨_, List.getElem?_eq_getElem (ht.length ▸ lt_of_getElem? hx)⟩
  have hfollows := Connection.follows_of_step (hs.asks c x hx) (ht.calls c x hx y hy) h
  refine ⟨hs.connection hx hp hfollows, ?_⟩
  have hcurrent : t.current = s'.current := ht.current.trans (current_connection hs hp hfollows _).symm
  have hlength : t.calls.length = s'.connections.length := by
    rw [List.length_set, ht.length]
  rcases hfollows.shows with ⟨rfl, hshows⟩ | ⟨r, rfl, hanswer, hcommand, hreturned, hshows⟩
  · refine ⟨t, rfl, hcurrent, hlength, forall_set (fun w hw => ?_) fun d z _ hz w hw => ht.calls d z hz w hw⟩
    rw [← Option.some.inj (hy.symm.trans hw)]
    exact hshows
  · have hstep : Serial.step G t (.returned c r) =
        some { t with calls := t.calls.set c { y with returned := true } } := by
      show (t.calls[c]?).bind _ = _
      rw [hy, Option.bind_some, if_pos ⟨hanswer, hcommand, hreturned⟩]
    refine ⟨{ t with calls := t.calls.set c { y with returned := true } }, ?_, hcurrent, ?_, forall_set ?_ ?_⟩
    · simp only [Lts.System.exec, serial, hstep, Option.bind_some]
    · rw [List.length_set]
      exact hlength
    · intro w hw
      dsimp only at hw
      rw [List.getElem?_set_self (lt_of_getElem? hy)] at hw
      rw [← Option.some.inj hw]
      exact hshows
    · intro d z hd hz w hw
      dsimp only at hw
      rw [List.getElem?_set_ne (Ne.symm hd)] at hw
      exact ht.calls d z hz w hw

theorem concat_cases {α : Type*} {l : List α} {a b : α} {n : ℕ} (h : (l ++ [a])[n]? = some b) :
    l[n]? = some b ∨ n = l.length ∧ b = a := by
  rcases Nat.lt_trichotomy n l.length with hlt | rfl | hlt
  · exact .inl (List.getElem?_append_left hlt ▸ h)
  · rw [List.getElem?_concat_length] at h
    exact .inr ⟨rfl, (Option.some.inj h).symm⟩
  · rw [List.getElem?_eq_none (by rw [List.length_append]; exact hlt)] at h
    cases h

/-- A process more. -/
theorem Sound.spawn (hs : s.Sound) (pid : UInt32) : Sound { s with processes := s.processes ++ [.fresh pid] } := by
  constructor
  · intro k hk
    rw [List.length_append]
    exact Nat.lt_add_right 1 (hs.lock k hk)
  · intro k q hq
    rcases concat_cases hq with hq | ⟨rfl, rfl⟩
    · exact hs.fits k q hq
    · exact ⟨⟨nofun, fun h => absurd (hs.lock _ h) (Nat.lt_irrefl _)⟩, nofun, fun _ => rfl, fun _ => rfl⟩
  · intro k q hq e he
    rcases concat_cases hq with hq | ⟨rfl, rfl⟩
    · exact hs.waits k q hq e he
    · cases he
  · intro k q hq
    rcases concat_cases hq with hq | ⟨rfl, rfl⟩
    · exact hs.once k q hq
    · exact List.nodup_nil
  · exact hs.asks

theorem current_spawn (hs : s.Sound) (pid : UInt32) :
    current { s with processes := s.processes ++ [.fresh pid] } = s.current := by
  unfold current
  dsimp only
  cases hk : s.shared.lock with
  | none => rfl
  | some k => rw [Option.bind_some, Option.bind_some, List.getElem?_append_left (hs.lock k hk)]

/-- Each step keeps what holds, and is one of the service. -/
theorem follows_step (hs : s.Sound) (ht : s.Shows t) {a : Label} (h : s.step G a = some (s', seen)) :
    s'.Sound ∧ ∃ t', (serial G).exec t seen = some t' ∧ s'.Shows t' := by
  cases a with
  | spawn pid =>
    cases h
    exact ⟨hs.spawn pid, t, rfl, ht.current.trans (current_spawn hs pid).symm, ht.length, ht.calls⟩
  | process k m =>
    obtain ⟨p, hp, h⟩ := Option.bind_eq_some_iff.mp h
    obtain ⟨⟨shared, p', seen⟩, hstep, h⟩ := Option.map_eq_some_iff.mp h
    cases h
    have hgoes := Process.goes_of_step hstep
    exact ⟨hs.process hp hgoes, ht.process hs hp hgoes⟩
  | handle k reads tunnel =>
    obtain ⟨p, hp, h⟩ := Option.bind_eq_some_iff.mp h
    obtain ⟨⟨c, command, p', response⟩, hstep, h⟩ := Option.map_eq_some_iff.mp h
    cases h
    exact ⟨hs.handle hp hstep, ht.handle hs hp hstep⟩
  | connect command =>
    obtain ⟨k, -, h⟩ := Option.bind_eq_some_iff.mp h
    obtain ⟨p, -, h⟩ := Option.bind_eq_some_iff.mp h
    obtain ⟨-, h⟩ := Option.ite_none_right_eq_some.mp h
    cases h
    have hfresh : (Connection.fresh k command).Asks := ⟨fun _ _ => .inl rfl, fun _ _ _ => rfl, nofun⟩
    refine ⟨⟨hs.lock, hs.fits, fun j q hq e he => ?_, hs.once, fun c x hx => ?_⟩,
      { t with calls := t.calls ++ [⟨command, none, false⟩] }, rfl, ht.current, ?_, fun c x hx y hy => ?_⟩
    · obtain ⟨x, hx, hrest⟩ := hs.waits j q hq e he
      exact ⟨x, by rw [List.getElem?_append_left (lt_of_getElem? hx), hx], hrest⟩
    · rcases concat_cases hx with hx | ⟨-, rfl⟩
      · exact hs.asks c x hx
      · exact hfresh
    · rw [List.length_append, List.length_append, ht.length]
      rfl
    · rcases concat_cases hx with hx | ⟨hc, rfl⟩
      · rw [List.getElem?_append_left (ht.length ▸ lt_of_getElem? hx)] at hy
        exact ht.calls c x hx y hy
      · rcases concat_cases hy with hy | ⟨-, rfl⟩
        · exact absurd (lt_of_getElem? hy) (by rw [ht.length, hc]; exact Nat.lt_irrefl _)
        · exact ⟨rfl, nofun, fun _ => rfl, fun _ _ _ => .inl ⟨rfl, rfl, nofun⟩⟩
  | connection c m =>
    obtain ⟨x, hx, h⟩ := Option.bind_eq_some_iff.mp h
    obtain ⟨p, hp, h⟩ := Option.bind_eq_some_iff.mp h
    obtain ⟨⟨x', p', seen⟩, hstep, h⟩ := Option.map_eq_some_iff.mp h
    cases h
    exact Shows.connection hs ht hx hp hstep

theorem sound_initial (stale : Bool) : (initial stale).Sound := by
  have hgone : ∀ (k : ℕ) (p : Process), (initial stale).processes[k]? = some p →
      p = { Process.fresh 0 with place := .gone } := by
    intro k p hp
    cases k with
    | zero => exact (Option.some.inj hp).symm
    | succ k => cases hp
  refine ⟨nofun, fun k p hp => ?_, fun k p hp e he => ?_, fun k p hp => ?_, fun c x hx => ?_⟩
  · rw [hgone k p hp]
    exact ⟨⟨nofun, nofun⟩, nofun, nofun, fun _ => rfl⟩
  · rw [hgone k p hp] at he
    cases he
  · rw [hgone k p hp]
    exact List.nodup_nil
  · cases hx

end State

/-- The service of no one, which nobody has called. -/
def Serial.initial : Serial := ⟨none, []⟩

variable {G : Program} {stale : Bool} {es : List (Lts.Event State Label)} {s : State}

theorem sound_of_run (h : Lts.Run (machine G).system (.initial stale) es s) :
    s.Sound ∧ ∃ t, (serial G).exec .initial (es.flatMap (machine G).seen) = some t ∧ s.Shows t := by
  have h0 : (State.initial stale).Sound ∧ (State.initial stale).Shows .initial :=
    ⟨State.sound_initial stale, rfl, rfl, fun _ _ hx => by cases hx⟩
  obtain ⟨t, hexec, hs, ht⟩ := Lts.Machine.follows (R := fun (s : State) (t : Serial) => s.Sound ∧ s.Shows t)
    (fun s t a s' seen hst hstep => by
      obtain ⟨hs', t', hexec, ht'⟩ := State.follows_step hst.1 hst.2 hstep
      exact ⟨t', hexec, hs', ht'⟩) h h0
  exact ⟨hs, t, hexec, ht⟩

/-- Whatever is seen of the processes of a profile could be seen of one service that is
never there twice and handles each request at one moment between the call and the
return. What `request` returns is what was replied at that moment. No two processes
have the lock, and the socket of the one that serves is the one that is there. -/
theorem requests_serialized (h : Lts.Run (machine G).system (.initial stale) es s) :
    ∃ t, (serial G).exec .initial (es.flatMap (machine G).seen) = some t ∧ t.current = s.current ∧ s.Exclusive := by
  obtain ⟨hs, t, hexec, ht⟩ := sound_of_run h
  exact ⟨t, hexec, ht.current, hs.exclusive⟩

/-- What a tunnel without routes says. -/
def quietTunnel : TunnelStatus := ⟨"waiting-routes", "tun.example", .empty, none, 0, none, none⟩

/-- A program for the runs below. -/
def plainProgram : Program := ⟨"0.1.0", "default"⟩

/-- A process comes to its loop. -/
def servingRun : List Label :=
  .spawn 7 :: ([.openLock false, .tryLock false, .removeStale false, .bind false, .setPermissions false,
    .start 5 issuedReads, .signals false] : List ProcessMove).map (.process 1)

/-- A second one is refused, and the first one is told to stop. -/
def stoppedRun : List Label :=
  servingRun ++ [.spawn 8, .process 2 (.openLock false), .process 2 (.tryLock false), .connect (some .stop),
    .connection 0 .send, .connection 0 .accept, .connection 0 (.read ""), .connection 0 .enqueue,
    .handle 1 issuedReads quietTunnel, .connection 0 (.flush 12), .connection 0 .shutdown, .connection 0 .finish]

theorem requests_serialized_stop : ∃ es s, Lts.Run (machine plainProgram).system (.initial true) es s ∧
    es.map (·.label) = stoppedRun ∧ s.processes.map (·.place) = [.gone, .stopping, .returned] ∧
    ∃ t, (serial plainProgram).exec .initial (es.flatMap (machine plainProgram).seen) = some t ∧
      t.current = s.current ∧ s.Exclusive := by
  obtain ⟨s, hs, hplaces⟩ : ∃ s, (machine plainProgram).system.exec (.initial true) stoppedRun = some s ∧
      s.processes.map (·.place) = [.gone, .stopping, .returned] := ⟨_, rfl, by decide⟩
  obtain ⟨es, hrun, hl⟩ := Lts.Run.exists_of_exec hs
  exact ⟨es, s, hrun, hl, hplaces, requests_serialized hrun⟩

end Control
end ShuvTunnel
