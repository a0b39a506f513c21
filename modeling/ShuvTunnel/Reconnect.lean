/-
# A tunnel's life

Both clients run one bridge session after the other, wait with a growing
backoff where one fails, and stop when they are closed or the token or the
certificate is refused. What they tell of that, their `connecting`, `connected`,
`disconnected`, `reconnecting` and `stopped` events, follows one protocol,
`Lifecycle`, in every run; the status they show is the one that these events
leave, or that they wait for routes; and once they are closed they announce no
session but one that was about to start.

A session is what `run` awaits: it may attach, and ends for one of the reasons
its code gives. Here its bytes and connections do not matter.

Key definitions: `Lifecycle.Life.next`, `Lifecycle.Shows`,
`Rust.Reconnecting.step`, `TypeScript.Reconnecting.step`.
Key theorems: `Rust.Reconnecting.step_follows`,
`TypeScript.Reconnecting.step_follows`, `lifecycle_followed`.
-/
import ShuvTunnel.Serving
import ShuvTunnel.Lib.Binary64

namespace ShuvTunnel

/-! ### The protocol of the events -/

namespace Lifecycle

/-- The longest wait behind the first failure. -/
def RECONNECT_BACKOFF_MIN_MS : ℕ := 250

/-- The longest wait behind any failure. -/
def RECONNECT_BACKOFF_MAX_MS : ℕ := 30000

/-- The events of a tunnel about its sessions. -/
inductive Event
  | connecting (attempt : ℕ)
  | connected (session : String) (routes : List String)
  | disconnected (reason : String)
  | reconnecting (attempt delay_ms : ℕ)
  | stopped (error : Option String)
  deriving DecidableEq

/-- The states a tunnel shows. -/
inductive State
  | waitingRoutes
  | connecting
  | connected
  | reconnecting
  | stopped
  deriving DecidableEq

/-- The status a tunnel shows. -/
structure Status where
  state : State
  routes : Targets
  session : Option String
  connections : ℕ
  last_error : Option String
  connected_at : Option Millis

/-- How a session ends: the tunnel is closed, or has other routes, or the session
failed, for good or not. -/
inductive SessionEnd
  | shutdown
  | routesChanged
  | fatal (error : String)
  | retry (error : String) (attached : Bool)
  deriving DecidableEq

/-- The longest wait behind so many failures. -/
def base (attempt : ℕ) : ℕ := min (RECONNECT_BACKOFF_MIN_MS * 2 ^ min attempt 16) RECONNECT_BACKOFF_MAX_MS

/-- What a listener knows of a tunnel: before its next session, in one that is
not attached, in one that is, behind one, or that it has stopped. -/
inductive Life
  | ready (attempt : ℕ)
  | connecting (attempt : ℕ)
  | connected (session : String)
  | lost (attempt : ℕ) (reason : String) (attached : Bool)
  | stopped (error : Option String)
  deriving DecidableEq

/-- The next event. A session that fails is followed by a wait, of half of the
longest at least, and by the next attempt; one whose routes were changed by a
new one. Only a session that is not attached may end in an error; attempts are
not counted beyond `cap`. -/
def Life.next (cap : ℕ) : Life → Event → Option Life
  | .ready n, .connecting m => if m = n then some (.connecting n) else none
  | .ready _, .stopped none => some (.stopped none)
  | .connecting _, .connected session _ => some (.connected session)
  | .connecting n, .disconnected reason => some (.lost n reason false)
  | .connecting _, .stopped error => some (.stopped error)
  | .connected _, .disconnected reason => some (.lost 0 reason true)
  | .connected _, .stopped none => some (.stopped none)
  | .lost n _ _, .reconnecting m delay =>
    if m = min (n + 1) cap ∧ base n / 2 ≤ delay ∧ delay ≤ base n then some (.ready m) else none
  | .lost _ reason _, .connecting m => if reason = "routes changed" ∧ m = 0 then some (.connecting 0) else none
  | .lost _ reason _, .stopped none => if reason = "routes changed" then some (.stopped none) else none
  | _, _ => none

/-- There is no session, and no wait for the next attempt is due. -/
def Life.between : Life → Bool
  | ready _ => true
  | lost _ reason _ => reason = "routes changed"
  | _ => false

/-- The session that is attached. -/
def Life.session? : Life → Option String
  | connected session => some session
  | _ => none

/-- What a listener knows who hears the events, and who knows when the tunnel
looks at its routes and has none: its life, whether it waits for routes, and its
last error. -/
structure View where
  life : Life
  waiting : Bool
  last_error : Option String

/-- What a listener notices: an event, or that there are no routes. -/
inductive Notice
  | told (event : Event)
  | noRoutes

/-- The last error behind an event: that of a session that failed is there until
the next one is attached. -/
def View.errorBehind (v : View) : Event → Option String
  | .connected _ _ => none
  | .reconnecting _ _ =>
    match v.life with
    | .lost _ reason _ => some reason
    | _ => v.last_error
  | .stopped error => error.or v.last_error
  | _ => v.last_error

/-- What the listener knows behind what it notices, where that may come. -/
def View.next (cap : ℕ) (v : View) : Notice → Option View
  | .told event => (v.life.next cap event).map fun life => ⟨life, false, v.errorBehind event⟩
  | .noRoutes => if v.life.between then some { v with waiting := true } else none

/-- The protocol, with attempts counted up to `cap`. -/
def system (cap : ℕ) : Lts.System View Notice := ⟨View.next cap⟩

/-- Nothing was told yet. -/
def View.new : View := ⟨.ready 0, false, none⟩

/-- The state that is shown. -/
def View.state (v : View) : State :=
  match v.life with
  | .ready n => if v.waiting then .waitingRoutes else if n = 0 then .connecting else .reconnecting
  | .connecting _ => .connecting
  | .connected _ => .connected
  | .lost _ _ attached => if v.waiting then .waitingRoutes else if attached then .connected else .connecting
  | .stopped _ => .stopped

/-- The status that a listener is shown. -/
structure Shows (v : View) (status : Status) : Prop where
  state : status.state = v.state
  session : status.session = v.life.session?
  connections : v.life.session? = none → status.connections = 0
  last_error : status.last_error = v.last_error

/-- Before the next session: waiting, or behind one whose routes were changed. -/
def Life.Idle (attempt : ℕ) (life : Life) : Prop :=
  life = ready attempt ∨ attempt = 0 ∧ ∃ n attached, life = lost n "routes changed" attached

theorem base_even (n : ℕ) : 2 * (base n / 2) = base n := by
  unfold base RECONNECT_BACKOFF_MIN_MS RECONNECT_BACKOFF_MAX_MS
  have h : (250 * 2 ^ min n 16) % 2 = 0 := by
    rw [show 250 = 2 * 125 from rfl, Nat.mul_assoc, Nat.mul_mod_right]
  omega

/-- In a session, that is attached or not, behind so many failures. -/
def Life.Busy (attempt : ℕ) (attached : Bool) (life : Life) : Prop :=
  if attached then ∃ session, life = connected session else life = connecting attempt

/-- Of an attached session nobody is told an error; and a failure tells whether
it was attached. -/
def SessionEnd.Of (attached : Bool) : SessionEnd → Prop
  | fatal _ => attached = false
  | retry _ a => a = attached
  | _ => True

section Ends

variable {cap n : ℕ} {attached : Bool} {v : View} {status : Status}

theorem next_stopped (hb : v.life.Busy n attached) (error : Option String) (he : error ≠ none → attached = false) :
    (system cap).exec v [.told (.stopped error)] = some ⟨.stopped error, false, error.or v.last_error⟩ := by
  obtain ⟨life, waiting, last⟩ := v
  cases attached with
  | false =>
    obtain rfl : life = .connecting n := hb
    rfl
  | true =>
    obtain ⟨session, rfl⟩ : ∃ session, life = .connected session := hb
    cases error with
    | none => rfl
    | some e => cases he (Option.some_ne_none e)

theorem next_retry (hb : v.life.Busy n attached) (error : String) {delay : ℕ}
    (hd : base (if attached then 0 else n) / 2 ≤ delay ∧ delay ≤ base (if attached then 0 else n)) :
    (system cap).exec v
      [.told (.disconnected error), .told (.reconnecting (min ((if attached then 0 else n) + 1) cap) delay)] =
        some ⟨.ready (min ((if attached then 0 else n) + 1) cap), false, some error⟩ := by
  obtain ⟨life, waiting, last⟩ := v
  cases attached with
  | false =>
    obtain rfl : life = .connecting n := hb
    simpa [Lts.System.exec, system, View.next, Life.next, View.errorBehind] using hd
  | true =>
    obtain ⟨session, rfl⟩ : ∃ session, life = .connected session := hb
    simpa [Lts.System.exec, system, View.next, Life.next, View.errorBehind] using hd

theorem next_changed (hb : v.life.Busy n attached) : ∃ m, (system cap).exec v [.told (.disconnected "routes changed")] =
    some ⟨.lost m "routes changed" attached, false, v.last_error⟩ := by
  obtain ⟨life, waiting, last⟩ := v
  cases attached with
  | false =>
    obtain rfl : life = .connecting n := hb
    exact ⟨n, rfl⟩
  | true =>
    obtain ⟨session, rfl⟩ : ∃ session, life = .connected session := hb
    exact ⟨0, rfl⟩

/-- A session begins with the next attempt. -/
theorem next_connecting (hi : v.life.Idle n) :
    (system cap).exec v [.told (.connecting n)] = some ⟨.connecting n, false, v.last_error⟩ := by
  obtain ⟨life, waiting, last⟩ := v
  rcases hi with rfl | ⟨rfl, m, attached, rfl⟩ <;>
    simp [Lts.System.exec, system, View.next, Life.next, View.errorBehind]

theorem next_stops (hi : v.life.Idle n) :
    (system cap).exec v [.told (.stopped none)] = some ⟨.stopped none, false, v.last_error⟩ := by
  obtain ⟨life, waiting, last⟩ := v
  rcases hi with rfl | ⟨rfl, m, attached, rfl⟩ <;>
    simp [Lts.System.exec, system, View.next, Life.next, View.errorBehind]

theorem next_connected (hb : v.life = .connecting n) (session : String) (names : List String) :
    (system cap).exec v [.told (.connected session names)] = some ⟨.connected session, false, none⟩ := by
  obtain ⟨life, waiting, last⟩ := v
  obtain rfl : life = .connecting n := hb
  rfl

theorem Life.Idle.session? {life : Life} (hi : life.Idle n) : life.session? = none := by
  rcases hi with rfl | ⟨rfl, m, attached, rfl⟩ <;> rfl

theorem Shows.stopped (hs : Shows v status) (error : Option String) :
    Shows ⟨.stopped error, false, error.or v.last_error⟩ { status with
      state := .stopped, session := none, connections := 0, last_error := error.or status.last_error } :=
  ⟨rfl, rfl, fun _ => rfl, congrArg error.or hs.last_error⟩

theorem shows_reconnecting (status : Status) (error : String) {m : ℕ} (hm : 0 < m) :
    Shows ⟨.ready m, false, some error⟩
      { status with state := .reconnecting, session := none, connections := 0, last_error := some error } := by
  refine ⟨?_, rfl, fun _ => rfl, rfl⟩
  simp [View.state, Nat.ne_of_gt hm]

/-- A session ended with its routes changed: the state is shown until the next one. -/
theorem Shows.changed (hs : Shows v status) (hb : v.life.Busy n attached) (m : ℕ) (reason : String) :
    Shows ⟨.lost m reason attached, false, v.last_error⟩ { status with session := none, connections := 0 } := by
  refine ⟨?_, rfl, fun _ => rfl, hs.last_error⟩
  show status.state = _
  rw [hs.state]
  cases attached with
  | false =>
    have hb : v.life = .connecting n := hb
    simp [View.state, hb]
  | true =>
    obtain ⟨session, hb⟩ : ∃ session, v.life = .connected session := hb
    simp [View.state, hb]

/-- Before the next session a tunnel may stop. -/
theorem Shows.stops (hs : Shows v status) (hi : v.life.Idle n) : Shows ⟨.stopped none, false, v.last_error⟩
    { status with state := .stopped, last_error := Option.or none status.last_error } :=
  ⟨rfl, hs.session.trans hi.session?, fun _ => hs.connections hi.session?, hs.last_error⟩

/-- Or wait for routes. -/
theorem Shows.waits (hs : Shows v status) (hi : v.life.Idle n) (routes : Targets) :
    Shows { v with waiting := true } { status with state := .waitingRoutes, routes } := by
  refine ⟨?_, hs.session, hs.connections, hs.last_error⟩
  rcases hi with hi | ⟨-, m, attached, hi⟩ <;> simp [View.state, hi]

theorem Shows.connects (hs : Shows v status) (hi : v.life.Idle n) :
    Shows ⟨.connecting n, false, v.last_error⟩ { status with state := .connecting } :=
  ⟨rfl, hs.session.trans hi.session?, fun _ => hs.connections hi.session?, hs.last_error⟩

theorem shows_connected (status : Status) (session : String) (routes : Targets) (now : Millis) :
    Shows ⟨.connected session, false, none⟩ { status with
      state := .connected, session := some session, routes, last_error := none, connected_at := some now } :=
  ⟨rfl, rfl, fun h => (nomatch h), rfl⟩

/-- The routes are no matter to the events. -/
theorem Shows.routes (hs : Shows v status) (routes : Targets) : Shows v { status with routes } :=
  ⟨hs.state, hs.session, hs.connections, hs.last_error⟩

/-- And the connections of an attached session. -/
theorem Shows.count (hs : Shows v status) (hb : ∃ session, v.life = .connected session) (connections : ℕ) :
    Shows v { status with connections } := by
  refine ⟨hs.state, hs.session, fun h => ?_, hs.last_error⟩
  obtain ⟨session, hb⟩ := hb
  rw [hb] at h
  cases h

end Ends

end Lifecycle

/-! ### Rust -/

namespace Rust

/-- Where `run` is: at the head of its loop; at its look at the routes; waiting
for some; before `session` takes them; in `attach`; in the loop of an attached
session; asleep; or it has returned. -/
inductive Reconnecting.Place
  | top
  | looking
  | waiting
  | starting
  | attaching (routes : Targets)
  | attached (names : List String)
  | backoff
  | stopped (result : Except String Unit)

/-- The supervisor with the channels to it. -/
structure Reconnecting where
  routes : Targets
  unseen : Bool
  gone : Bool
  shutdown : Bool
  attempt : ℕ
  status : Lifecycle.Status
  place : Reconnecting.Place

namespace Reconnecting

/-- What happens to a supervisor; `delay` is what `backoff` draws if it does. -/
inductive Label
  | set_routes (routes : Targets)
  | close
  | drop
  -- the loop goes on
  | run
  -- the arms of `routes.changed()`, of `shutdown.changed()` and of `sleep(delay)`
  | changed
  | shutdown
  | slept
  -- the results of `attach`, and its timeout
  | attach (session : String) (now : Millis)
  | refuse (code : String) (delay : ℕ)
  | fail (error : String) (delay : ℕ)
  | timeout (delay : ℕ)
  -- the connections of an attached session are counted, or it is over
  | count (connections : ℕ)
  | lose (error : String) (delay : ℕ)

/-- `u32::MAX`. -/
def MAX_ATTEMPT : ℕ := 2 ^ 32 - 1

/-- `Error::Attach`, as text. -/
def attachError (code : String) : String := "bridge attach failed: " ++ code

/-- `Tunnel::start`. -/
def start (routes : Targets) : Except String Reconnecting :=
  (validate routes).map fun _ =>
    { routes, unseen := false, gone := false, shutdown := false, attempt := 0, place := .top
      status := { state := .connecting, routes, session := none, connections := 0, last_error := none,
                  connected_at := none } }

/-- Behind the loop. -/
def stop (s : Reconnecting) (error : Option String) : Reconnecting × List Lifecycle.Event :=
  ({ s with
    status := { s.status with state := .stopped, last_error := error.or s.status.last_error }
    place := .stopped (match error with | none => .ok () | some e => .error e) }, [.stopped error])

/-- Behind a session. -/
def ended (s : Reconnecting) (e : Lifecycle.SessionEnd) (delay : ℕ) : Option (Reconnecting × List Lifecycle.Event) :=
  let s := { s with status := { s.status with session := none, connections := 0 } }
  match e with
  | .shutdown => some (s.stop none)
  | .routesChanged => some ({ s with attempt := 0, place := .top }, [.disconnected "routes changed"])
  | .fatal error => some (s.stop (some error))
  | .retry error attached =>
    let attempt := if attached then 0 else s.attempt
    if Lifecycle.base attempt / 2 ≤ delay ∧ delay ≤ Lifecycle.base attempt then
      some ({ s with
        attempt := min (attempt + 1) MAX_ATTEMPT
        status := { s.status with state := .reconnecting, last_error := some error }
        place := .backoff },
        [.disconnected error, .reconnecting (min (attempt + 1) MAX_ATTEMPT) delay])
    else none

/-- The loop of `run`. -/
def runs (s : Reconnecting) : Option (Reconnecting × List Lifecycle.Event) :=
  match s.place with
  | .top => some (if s.shutdown then s.stop none else ({ s with place := .looking }, []))
  | .looking =>
    if s.routes.names = [] then
      some ({ s with
        unseen := false
        status := { s.status with state := .waitingRoutes, routes := ⟨[], List.nodup_nil⟩ }
        place := .waiting }, [])
    else
      some ({ s with unseen := false, status := { s.status with state := .connecting }, place := .starting },
        [.connecting s.attempt])
  | .starting => some ({ s with unseen := false, place := .attaching s.routes }, [])
  | _ => none

/-- What a step does to a tunnel, and the events it sends. -/
def step (s : Reconnecting) : Label → Option (Reconnecting × List Lifecycle.Event)
  | .set_routes routes =>
    if s.gone then none
    else match validate routes with
      | .ok () => some ({ s with routes, unseen := true }, [])
      | .error _ => some (s, [])
  | .close => some ({ s with shutdown := true }, [])
  | .drop => some ({ s with shutdown := true, gone := true }, [])
  | .run => s.runs
  | .changed =>
    match s.place with
    | .waiting => if s.unseen || s.gone then some ({ s with unseen := false, place := .top }, []) else none
    | .attached names =>
      if s.unseen then
        if keys s.routes = names then
          some ({ s with unseen := false, status := { s.status with routes := s.routes } }, [])
        else ({ s with unseen := false }).ended .routesChanged 0
      else if s.gone then s.ended .shutdown 0
      else none
    | _ => none
  | .shutdown =>
    if s.shutdown then
      match s.place with
      | .waiting | .backoff => some ({ s with place := .top }, [])
      | .attaching _ | .attached _ => s.ended .shutdown 0
      | _ => none
    else none
  | .slept =>
    match s.place with
    | .backoff => some ({ s with place := .top }, [])
    | _ => none
  | .attach session now =>
    match s.place with
    | .attaching routes =>
      some ({ s with
        status := { s.status with
          state := .connected, session := some session, routes, last_error := none, connected_at := some now }
        place := .attached (keys routes) }, [.connected session (keys routes)])
    | _ => none
  | .refuse code delay =>
    match s.place with
    | .attaching _ =>
      if is_fatal_attach_error code then s.ended (.fatal (attachError code)) delay
      else s.ended (.retry (attachError code) false) delay
    | _ => none
  | .fail error delay =>
    match s.place with
    | .attaching _ => s.ended (.retry error false) delay
    | _ => none
  | .timeout delay =>
    match s.place with
    | .attaching _ => s.ended (.retry "bridge attach timed out" false) delay
    | _ => none
  | .count connections =>
    match s.place with
    | .attached _ => some ({ s with status := { s.status with connections } }, [])
    | _ => none
  | .lose error delay =>
    match s.place with
    | .attached _ => s.ended (.retry error true) delay
    | _ => none

/-- What listeners are told of a tunnel. -/
def machine : Lts.Machine Reconnecting Label Lifecycle.Event := ⟨step⟩

/-- The place of the supervisor and what is known of it. -/
def Place.Fits (attempt : ℕ) (life : Lifecycle.Life) : Place → Prop
  | .top | .looking | .waiting => life.Idle attempt
  | .starting | .attaching _ => life = .connecting attempt
  | .attached _ => ∃ session, life = .connected session
  | .backoff => life = .ready attempt
  | .stopped result => life = .stopped (match result with | .ok _ => none | .error e => some e)

/-- The loop looks at the routes next, and there are none. -/
def inVain (s : Reconnecting) : Bool :=
  match s.place with
  | .looking => s.routes.names = []
  | _ => false

/-- It does, in this step. -/
def looksInVain (s : Reconnecting) : Label → Bool
  | .run => s.inVain
  | _ => false

/-- What is known of a supervisor. -/
structure Follows (s : Reconnecting) (v : Lifecycle.View) : Prop where
  fits : s.place.Fits s.attempt v.life
  shows : Lifecycle.Shows v s.status

/-- What a step tells can be followed. -/
def Followed (v : Lifecycle.View) (p : Reconnecting × List Lifecycle.Event) : Prop :=
  ∃ v', (Lifecycle.system MAX_ATTEMPT).exec v (p.2.map .told) = some v' ∧ p.1.Follows v'

variable {s : Reconnecting} {v : Lifecycle.View} {p : Reconnecting × List Lifecycle.Event}

/-- Nothing is told, and nothing changes that is known. -/
theorem Follows.still {s' : Reconnecting} (h : s.Follows v) (hplace : s'.place = s.place)
    (hattempt : s'.attempt = s.attempt) (hstatus : s'.status = s.status) : Followed v (s', []) := by
  refine ⟨v, rfl, ?_, hstatus ▸ h.shows⟩
  rw [hplace, hattempt]
  exact h.fits

/-- The end of a session is told. -/
theorem ended_followed {attached : Bool} {e : Lifecycle.SessionEnd} {delay : ℕ} (hb : v.life.Busy s.attempt attached)
    (hs : Lifecycle.Shows v s.status) (h : s.ended e delay = some p) (he : e.Of attached) : Followed v p := by
  cases e with
  | shutdown =>
    obtain rfl := Option.some.inj h
    exact ⟨_, Lifecycle.next_stopped hb none (fun hne => absurd rfl hne), rfl, hs.stopped none⟩
  | routesChanged =>
    obtain rfl := Option.some.inj h
    obtain ⟨m, hm⟩ := Lifecycle.next_changed hb
    exact ⟨_, hm, .inr ⟨rfl, m, attached, rfl⟩, hs.changed hb m _⟩
  | fatal error =>
    obtain rfl := Option.some.inj h
    exact ⟨_, Lifecycle.next_stopped hb (some error) (fun _ => he), rfl, hs.stopped (some error)⟩
  | retry error a =>
    obtain rfl : a = attached := he
    by_cases hd : Lifecycle.base (if a then 0 else s.attempt) / 2 ≤ delay ∧
        delay ≤ Lifecycle.base (if a then 0 else s.attempt)
    · dsimp only [ended] at h
      rw [if_pos hd] at h
      obtain rfl := Option.some.inj h
      exact ⟨_, Lifecycle.next_retry hb error hd, rfl,
        Lifecycle.shows_reconnecting s.status error (lt_min (Nat.succ_pos _) (by decide))⟩
    · dsimp only [ended] at h
      rw [if_neg hd] at h
      cases h

theorem runs_followed (h : s.Follows v) (hvain : s.inVain = false) (hp : s.runs = some p) : Followed v p := by
  have hfits := h.fits
  unfold runs at hp
  split at hp
  · rename_i hplace
    rw [hplace] at hfits
    obtain rfl := Option.some.inj hp
    split
    · exact ⟨_, Lifecycle.next_stops hfits, rfl, h.shows.stops hfits⟩
    · exact ⟨v, rfl, hfits, h.shows⟩
  · rename_i hplace
    rw [hplace] at hfits
    split at hp
    · rename_i hroutes
      simp [inVain, hplace, hroutes] at hvain
    · obtain rfl := Option.some.inj hp
      exact ⟨_, Lifecycle.next_connecting hfits, rfl, h.shows.connects hfits⟩
  · rename_i hplace
    rw [hplace] at hfits
    obtain rfl := Option.some.inj hp
    exact ⟨v, rfl, hfits, h.shows⟩
  · cases hp

theorem step_followed {a : Label} (h : s.Follows v) (hvain : s.looksInVain a = false) (hp : s.step a = some p) :
    Followed v p := by
  have hfits := h.fits
  -- the session that `attach` is in, and the one that is attached
  have attaching : ∀ {routes}, s.place = .attaching routes → v.life.Busy s.attempt false := fun hplace => by
    rw [hplace] at hfits
    exact hfits
  have attached : ∀ {names}, s.place = .attached names → v.life.Busy s.attempt true := fun hplace => by
    rw [hplace] at hfits
    exact hfits
  cases a with
  | set_routes routes =>
    simp only [step] at hp
    split at hp
    · cases hp
    · split at hp
      · obtain rfl := Option.some.inj hp
        exact h.still rfl rfl rfl
      · obtain rfl := Option.some.inj hp
        exact h.still rfl rfl rfl
  | close =>
    obtain rfl := Option.some.inj hp
    exact h.still rfl rfl rfl
  | drop =>
    obtain rfl := Option.some.inj hp
    exact h.still rfl rfl rfl
  | run => exact runs_followed h hvain hp
  | changed =>
    simp only [step] at hp
    split at hp
    · rename_i hplace
      split at hp
      · obtain rfl := Option.some.inj hp
        rw [hplace] at hfits
        exact ⟨v, rfl, hfits, h.shows⟩
      · cases hp
    · rename_i names hplace
      split at hp
      · split at hp
        · obtain rfl := Option.some.inj hp
          exact ⟨v, rfl, hfits, h.shows.routes _⟩
        · exact ended_followed (s := { s with unseen := false }) (attached hplace) h.shows hp trivial
      · split at hp
        · exact ended_followed (attached hplace) h.shows hp trivial
        · cases hp
    · cases hp
  | shutdown =>
    simp only [step] at hp
    split at hp
    · split at hp
      · rename_i hplace
        obtain rfl := Option.some.inj hp
        rw [hplace] at hfits
        exact ⟨v, rfl, hfits, h.shows⟩
      · rename_i hplace
        obtain rfl := Option.some.inj hp
        rw [hplace] at hfits
        exact ⟨v, rfl, .inl hfits, h.shows⟩
      · rename_i hplace
        exact ended_followed (attaching hplace) h.shows hp trivial
      · rename_i hplace
        exact ended_followed (attached hplace) h.shows hp trivial
      · cases hp
    · cases hp
  | slept =>
    simp only [step] at hp
    split at hp
    · rename_i hplace
      obtain rfl := Option.some.inj hp
      rw [hplace] at hfits
      exact ⟨v, rfl, .inl hfits, h.shows⟩
    · cases hp
  | attach session now =>
    simp only [step] at hp
    split at hp
    · rename_i routes hplace
      obtain rfl := Option.some.inj hp
      exact ⟨_, Lifecycle.next_connected (attaching hplace) session _, ⟨session, rfl⟩,
        Lifecycle.shows_connected s.status session routes now⟩
    · cases hp
  | refuse code delay =>
    simp only [step] at hp
    split at hp
    · rename_i hplace
      split at hp
      · exact ended_followed (attaching hplace) h.shows hp rfl
      · exact ended_followed (attaching hplace) h.shows hp rfl
    · cases hp
  | fail error delay =>
    simp only [step] at hp
    split at hp
    · rename_i hplace
      exact ended_followed (attaching hplace) h.shows hp rfl
    · cases hp
  | timeout delay =>
    simp only [step] at hp
    split at hp
    · rename_i hplace
      exact ended_followed (attaching hplace) h.shows hp rfl
    · cases hp
  | count connections =>
    simp only [step] at hp
    split at hp
    · rename_i hplace
      obtain rfl := Option.some.inj hp
      exact ⟨v, rfl, hfits, h.shows.count (attached hplace) connections⟩
    · cases hp
  | lose error delay =>
    simp only [step] at hp
    split at hp
    · rename_i hplace
      exact ended_followed (attached hplace) h.shows hp rfl
    · cases hp

/-- A session that is about to be announced. -/
def announcing (s : Reconnecting) : ℕ :=
  match s.place with
  | .looking => 1
  | _ => 0

/-- `run` can return after so many turns that wait for nobody: the loop goes on,
or `shutdown.changed()` is done. -/
def Returns : ℕ → Reconnecting → Prop
  | 0, s => ∃ result, s.place = .stopped result
  | n + 1, s => ∃ a p, (a = .run ∨ a = .shutdown) ∧ s.step a = some p ∧ Returns n p.1

theorem Returns.top (hc : s.shutdown = true) (hplace : s.place = .top) : Returns 1 s := by
  refine ⟨.run, s.stop none, .inl rfl, ?_, _, rfl⟩
  simp [step, runs, hplace, hc]

theorem Returns.session (hc : s.shutdown = true)
    (hplace : (∃ routes, s.place = .attaching routes) ∨ ∃ names, s.place = .attached names) : Returns 1 s := by
  obtain ⟨routes, hplace⟩ | ⟨names, hplace⟩ := hplace
  · exact ⟨.shutdown, ({ s with status := { s.status with session := none, connections := 0 } }).stop none, .inr rfl,
      by simp [step, hplace, hc, Reconnecting.ended], _, rfl⟩
  · exact ⟨.shutdown, ({ s with status := { s.status with session := none, connections := 0 } }).stop none, .inr rfl,
      by simp [step, hplace, hc, Reconnecting.ended], _, rfl⟩

theorem Returns.waiting (hc : s.shutdown = true) (hplace : s.place = .waiting ∨ s.place = .backoff) :
    Returns 2 s := by
  refine ⟨.shutdown, ({ s with place := .top }, []), .inr rfl, ?_, .top hc rfl⟩
  rcases hplace with hplace | hplace <;> simp [step, hplace, hc]

theorem Returns.starting (hc : s.shutdown = true) (hplace : s.place = .starting) : Returns 2 s := by
  refine ⟨.run, ({ s with unseen := false, place := .attaching s.routes }, []), .inl rfl, ?_,
    .session hc (.inl ⟨_, rfl⟩)⟩
  simp [step, runs, hplace]

theorem Returns.looking (hc : s.shutdown = true) (hplace : s.place = .looking) : Returns 3 s := by
  by_cases hr : s.routes.names = []
  · have hp : s.step .run = some ({ s with
        unseen := false
        status := { s.status with state := .waitingRoutes, routes := ⟨[], List.nodup_nil⟩ }
        place := .waiting }, []) := by
      simp [step, runs, hplace, hr]
    exact ⟨.run, _, .inl rfl, hp, .waiting hc (.inl rfl)⟩
  · have hp : s.step .run = some ({ s with
        unseen := false, status := { s.status with state := .connecting }, place := .starting },
        [.connecting s.attempt]) := by
      simp [step, runs, hplace, hr]
    exact ⟨.run, _, .inl rfl, hp, .starting hc rfl⟩

end Reconnecting

end Rust

/-! ### TypeScript -/

namespace TypeScript

/-- Where `run` is: at the head of its loop; telling its listener that it
connects, with no session yet; awaiting a session, that may be attached and may
have ended; in `sleep`, that may be over; or it has returned. -/
inductive Reconnecting.Place
  | top
  | connecting
  | session (attached : Bool) (result : Option Lifecycle.SessionEnd)
  | sleeping (done : Bool)
  | stopped (error : Option String)

/-- A tunnel with what it shows. -/
structure Reconnecting where
  routes : Targets
  shutdown : Bool
  attempt : ℕ
  status : Lifecycle.Status
  place : Reconnecting.Place

namespace Reconnecting

/-- What happens to a tunnel; `random` is what `Math.random()` gives. -/
inductive Label
  | setRoutes (routes : Targets)
  | close
  -- the loop goes on
  | run (random : ℚ)
  -- the timer of `sleep`
  | slept
  -- what the session hears, or its timers
  | attach (session : String) (routes : List String) (now : Millis)
  | refuse (code : String)
  | attachTimeout
  | drain (reason : String)
  | idle
  | closed (reason : String)
  | count (connections : ℕ)

/-- From here on `attempt++` stays where it is. -/
def MAX_ATTEMPT : ℕ := 2 ^ 53

/-- `Math.round` of what is computed in binary64. -/
def backoff (attempt : ℕ) (random : ℚ) : ℕ :=
  let half : ℚ := Lifecycle.base attempt / 2
  ⌊Binary64.nearest (half + Binary64.nearest (random * half)) + 1 / 2⌋.toNat

/-- The constructor. -/
def new (routes : Targets) : Except String Reconnecting :=
  (validateRoutes routes).map fun _ =>
    { routes, shutdown := false, attempt := 0, place := .top
      status := { state := .connecting, routes, session := none, connections := 0, last_error := none,
                  connected_at := none } }

/-- `stopped`, behind the loop or its error. -/
def stop (s : Reconnecting) (error : Option String) : Reconnecting × List Lifecycle.Event :=
  ({ s with
    status := { s.status with state := .stopped, last_error := error.or s.status.last_error }
    place := .stopped error }, [.stopped error])

/-- `session.end`: the first end counts. -/
def finish (s : Reconnecting) (e : Lifecycle.SessionEnd) : Reconnecting :=
  match s.place with
  | .session attached none => { s with place := .session attached (some e) }
  | _ => s

/-- `this.wake?.()`. -/
def wake (s : Reconnecting) : Reconnecting :=
  match s.place with
  | .sleeping _ => { s with place := .sleeping true }
  | _ => s

/-- Behind a session. -/
def ended (s : Reconnecting) (e : Lifecycle.SessionEnd) (random : ℚ) :
    Option (Reconnecting × List Lifecycle.Event) :=
  let s := { s with status := { s.status with session := none, connections := 0 } }
  match e with
  | .shutdown => some (s.stop none)
  | .fatal error => some (s.stop (some error))
  | .routesChanged => some ({ s with attempt := 0, place := .top }, [.disconnected "routes changed"])
  | .retry error attached =>
    let attempt := if attached then 0 else s.attempt
    if 0 ≤ random ∧ random < 1 then
      some ({ s with
        attempt := min (attempt + 1) MAX_ATTEMPT
        status := { s.status with state := .reconnecting, last_error := some error }
        place := .sleeping false },
        [.disconnected error, .reconnecting (min (attempt + 1) MAX_ATTEMPT) (backoff attempt random)])
    else none

/-- The loop of `run`. -/
def runs (s : Reconnecting) (random : ℚ) : Option (Reconnecting × List Lifecycle.Event) :=
  match s.place with
  | .top =>
    some (if s.shutdown then s.stop none
      else if s.routes.names = [] then
        ({ s with status := { s.status with state := .waitingRoutes }, place := .sleeping false }, [])
      else
        ({ s with status := { s.status with state := .connecting }, place := .connecting },
          [.connecting s.attempt]))
  | .connecting => some ({ s with place := .session false none }, [])
  | .session _ (some e) => s.ended e random
  | .session _ none => none
  | .sleeping true => some ({ s with place := .top }, [])
  | .sleeping false => none
  | .stopped _ => none

/-- What a step does to a tunnel, and the events it emits. -/
def step (s : Reconnecting) : Label → Option (Reconnecting × List Lifecycle.Event)
  | .setRoutes routes =>
    match validateRoutes routes with
    | .ok () =>
      let t := { s with routes, status := { s.status with routes } }
      some ((if sameNames s.routes routes then t else t.finish .routesChanged).wake, [])
    | .error _ => some (s, [])
  | .close => some ((({ s with shutdown := true }).finish .shutdown).wake, [])
  | .run random => s.runs random
  | .slept =>
    match s.place with
    | .sleeping _ => some (s.wake, [])
    | _ => none
  | .attach session routes now =>
    match s.place with
    | .session false none =>
      some ({ s with
        status := { s.status with
          state := .connected, session := some session, last_error := none, connected_at := some now }
        place := .session true none }, [.connected session routes])
    | _ => none
  | .refuse code =>
    match s.place with
    | .session false none =>
      some (s.finish (if is_fatal_attach_error code then .fatal ("Bridge attach failed: " ++ code)
        else .retry ("attach failed: " ++ code) false), [])
    | _ => none
  | .attachTimeout =>
    match s.place with
    | .session false none => some (s.finish (.retry "bridge attach timed out" false), [])
    | _ => none
  | .drain reason =>
    match s.place with
    | .session true none => some (s.finish (.retry ("server draining: " ++ reason) true), [])
    | _ => none
  | .idle =>
    match s.place with
    | .session true none => some (s.finish (.retry "bridge idle timeout" true), [])
    | _ => none
  | .closed reason =>
    match s.place with
    | .session attached none => some (s.finish (.retry ("bridge closed: " ++ reason) attached), [])
    | _ => none
  | .count connections =>
    match s.place with
    | .session true none => some ({ s with status := { s.status with connections } }, [])
    | _ => none

/-- What the listener is told of a tunnel. -/
def machine : Lts.Machine Reconnecting Label Lifecycle.Event := ⟨step⟩

/-- The wait is half of the longest at least, however the numbers are rounded. -/
theorem backoff_mem {n : ℕ} {random : ℚ} (h0 : 0 ≤ random) (h1 : random < 1) :
    Lifecycle.base n / 2 ≤ backoff n random ∧ backoff n random ≤ Lifecycle.base n := by
  have hlt : Lifecycle.base n < 2 ^ 16 := by
    refine lt_of_le_of_lt (min_le_right _ _) ?_
    decide
  have heven := Lifecycle.base_even n
  obtain ⟨h, hbase⟩ : ∃ h, h = Lifecycle.base n / 2 := ⟨_, rfl⟩
  rw [← hbase] at heven ⊢
  have hhalf : (Lifecycle.base n : ℚ) / 2 = h := by
    rw [← heven]
    push_cast
    ring
  have hsmall : (h : ℚ) < 2 ^ 16 := by exact_mod_cast (by omega : h < 2 ^ 16)
  have hnonneg : (0 : ℚ) ≤ h := Nat.cast_nonneg h
  obtain ⟨hj0, hj1⟩ : (0 : ℕ) ≤ Binary64.nearest (random * h) ∧ Binary64.nearest (random * h) ≤ h :=
    Binary64.nearest_mem (by simpa using mul_nonneg h0 hnonneg) (mul_le_of_le_one_left hnonneg h1.le)
      (lt_of_le_of_lt (mul_le_of_le_one_left hnonneg h1.le) (by linarith))
  have hj0 : (0 : ℚ) ≤ Binary64.nearest (random * h) := by simpa using hj0
  have htwice : ((2 * h : ℕ) : ℚ) = h + h := by
    push_cast
    ring
  obtain ⟨hs0, hs1⟩ : (h : ℚ) ≤ Binary64.nearest (h + Binary64.nearest (random * h)) ∧
      Binary64.nearest (h + Binary64.nearest (random * h)) ≤ (2 * h : ℕ) :=
    Binary64.nearest_mem (by linarith) (by rw [htwice]; linarith) (by linarith)
  unfold backoff
  rw [hhalf]
  constructor
  · have hfloor : (h : ℤ) ≤ ⌊Binary64.nearest (h + Binary64.nearest (random * h)) + 1 / 2⌋ :=
      Int.le_floor.mpr (by push_cast; linarith)
    show h ≤ (⌊Binary64.nearest (h + Binary64.nearest (random * h)) + 1 / 2⌋).toNat
    omega
  · have hfloor : ⌊Binary64.nearest (h + Binary64.nearest (random * h)) + 1 / 2⌋ < ((2 * h : ℕ) : ℤ) + 1 :=
      Int.floor_lt.mpr (by push_cast at hs1 ⊢; linarith)
    show (⌊Binary64.nearest (h + Binary64.nearest (random * h)) + 1 / 2⌋).toNat ≤ _
    omega

/-- The place of the tunnel and what is known of it. -/
def Place.Fits (attempt : ℕ) (life : Lifecycle.Life) : Place → Prop
  | .top | .sleeping _ => life.Idle attempt
  | .connecting => life = .connecting attempt
  | .session attached result => life.Busy attempt attached ∧ ∀ e, result = some e → e.Of attached
  | .stopped error => life = .stopped error

/-- The loop looks at the routes next, and there are none. -/
def inVain (s : Reconnecting) : Bool :=
  match s.place with
  | .top => !s.shutdown && s.routes.names = []
  | _ => false

/-- It does, in this step. -/
def looksInVain (s : Reconnecting) : Label → Bool
  | .run _ => s.inVain
  | _ => false

/-- What is known of a tunnel. -/
structure Follows (s : Reconnecting) (v : Lifecycle.View) : Prop where
  fits : s.place.Fits s.attempt v.life
  shows : Lifecycle.Shows v s.status

/-- What a step tells can be followed. -/
def Followed (v : Lifecycle.View) (p : Reconnecting × List Lifecycle.Event) : Prop :=
  ∃ v', (Lifecycle.system MAX_ATTEMPT).exec v (p.2.map .told) = some v' ∧ p.1.Follows v'

variable {s : Reconnecting} {v : Lifecycle.View} {p : Reconnecting × List Lifecycle.Event}

/-- The end of a session is told once `run` goes on. -/
theorem Follows.finish (h : s.Follows v) {e : Lifecycle.SessionEnd}
    (he : ∀ attached, s.place = .session attached none → e.Of attached) : (s.finish e).Follows v := by
  have hfits := h.fits
  unfold Reconnecting.finish
  split
  · rename_i attached hplace
    rw [hplace] at hfits
    refine ⟨⟨hfits.1, fun e' he' => ?_⟩, h.shows⟩
    obtain rfl := Option.some.inj he'
    exact he attached hplace
  · exact h

theorem ended_followed {attached : Bool} {e : Lifecycle.SessionEnd} {random : ℚ} (hb : v.life.Busy s.attempt attached)
    (hs : Lifecycle.Shows v s.status) (he : e.Of attached) (h : s.ended e random = some p) : Followed v p := by
  cases e with
  | shutdown =>
    obtain rfl := Option.some.inj h
    exact ⟨_, Lifecycle.next_stopped hb none (fun hne => absurd rfl hne), rfl, hs.stopped none⟩
  | routesChanged =>
    obtain rfl := Option.some.inj h
    obtain ⟨m, hm⟩ := Lifecycle.next_changed hb
    exact ⟨_, hm, .inr ⟨rfl, m, attached, rfl⟩, hs.changed hb m _⟩
  | fatal error =>
    obtain rfl := Option.some.inj h
    exact ⟨_, Lifecycle.next_stopped hb (some error) (fun _ => he), rfl, hs.stopped (some error)⟩
  | retry error a =>
    obtain rfl : a = attached := he
    simp only [ended] at h
    split at h
    · rename_i hrandom
      obtain rfl := Option.some.inj h
      exact ⟨_, Lifecycle.next_retry hb error (backoff_mem hrandom.1 hrandom.2), .inl rfl,
        Lifecycle.shows_reconnecting s.status error (lt_min (Nat.succ_pos _) (by decide))⟩
    · cases h

/-- A tunnel that is woken goes on from its sleep. -/
theorem Follows.wake (h : s.Follows v) : s.wake.Follows v := by
  have hfits := h.fits
  unfold Reconnecting.wake
  split
  · rename_i hplace
    rw [hplace] at hfits
    exact ⟨hfits, h.shows⟩
  · exact h

theorem runs_followed {random : ℚ} (h : s.Follows v) (hvain : s.inVain = false) (hp : s.runs random = some p) :
    Followed v p := by
  have hfits := h.fits
  unfold runs at hp
  split at hp
  · rename_i hplace
    rw [hplace] at hfits
    obtain rfl := Option.some.inj hp
    split
    · exact ⟨_, Lifecycle.next_stops hfits, rfl, h.shows.stops hfits⟩
    · rename_i hshutdown
      split
      · rename_i hroutes
        simp [inVain, hplace, hroutes, hshutdown] at hvain
      · exact ⟨_, Lifecycle.next_connecting hfits, rfl, h.shows.connects hfits⟩
  · rename_i hplace
    rw [hplace] at hfits
    obtain rfl := Option.some.inj hp
    exact ⟨v, rfl, ⟨hfits, fun _ he => nomatch he⟩, h.shows⟩
  · rename_i hplace
    rw [hplace] at hfits
    exact ended_followed hfits.1 h.shows (hfits.2 _ rfl) hp
  · cases hp
  · rename_i hplace
    rw [hplace] at hfits
    obtain rfl := Option.some.inj hp
    exact ⟨v, rfl, hfits, h.shows⟩
  · cases hp
  · cases hp

theorem step_followed {a : Label} (h : s.Follows v) (hvain : s.looksInVain a = false) (hp : s.step a = some p) :
    Followed v p := by
  have hfits := h.fits
  have attaching : s.place = .session false none → v.life = .connecting s.attempt := fun hplace => by
    rw [hplace] at hfits
    exact hfits.1
  -- the session ends, and nothing is told yet
  have finishes : ∀ {t : Reconnecting} {e : Lifecycle.SessionEnd}, some (t.finish e, []) = some p → t.Follows v →
      (∀ attached, t.place = .session attached none → e.Of attached) → Followed v p := fun hp ht he => by
    obtain rfl := Option.some.inj hp
    exact ⟨v, rfl, ht.finish he⟩
  cases a with
  | setRoutes routes =>
    simp only [step] at hp
    split at hp
    · have ht : ({ s with routes, status := { s.status with routes } } : Reconnecting).Follows v :=
        ⟨hfits, h.shows.routes routes⟩
      split at hp
      · obtain rfl := Option.some.inj hp
        exact ⟨v, rfl, ht.wake⟩
      · obtain rfl := Option.some.inj hp
        exact ⟨v, rfl, (ht.finish (e := .routesChanged) fun _ _ => trivial).wake⟩
    · obtain rfl := Option.some.inj hp
      exact ⟨v, rfl, h⟩
  | close =>
    obtain rfl := Option.some.inj hp
    have ht : ({ s with shutdown := true } : Reconnecting).Follows v := ⟨hfits, h.shows⟩
    exact ⟨v, rfl, (ht.finish (e := .shutdown) fun _ _ => trivial).wake⟩
  | run random => exact runs_followed h hvain hp
  | slept =>
    simp only [step] at hp
    split at hp
    · obtain rfl := Option.some.inj hp
      exact ⟨v, rfl, h.wake⟩
    · cases hp
  | attach session routes now =>
    simp only [step] at hp
    split at hp
    · rename_i hplace
      obtain rfl := Option.some.inj hp
      exact ⟨_, Lifecycle.next_connected (attaching hplace) session routes,
        ⟨⟨session, rfl⟩, fun _ he => nomatch he⟩,
        Lifecycle.shows_connected s.status session s.status.routes now⟩
    · cases hp
  | refuse code =>
    simp only [step] at hp
    split at hp
    · rename_i hplace
      refine finishes hp h fun attached he => ?_
      obtain ⟨rfl, -⟩ := Place.session.inj (hplace.symm.trans he)
      split <;> rfl
    · cases hp
  | attachTimeout =>
    simp only [step] at hp
    split at hp
    · rename_i hplace
      refine finishes hp h fun attached he => ?_
      obtain ⟨rfl, -⟩ := Place.session.inj (hplace.symm.trans he)
      rfl
    · cases hp
  | drain reason =>
    simp only [step] at hp
    split at hp
    · rename_i hplace
      refine finishes hp h fun attached he => ?_
      obtain ⟨rfl, -⟩ := Place.session.inj (hplace.symm.trans he)
      rfl
    · cases hp
  | idle =>
    simp only [step] at hp
    split at hp
    · rename_i hplace
      refine finishes hp h fun attached he => ?_
      obtain ⟨rfl, -⟩ := Place.session.inj (hplace.symm.trans he)
      rfl
    · cases hp
  | closed reason =>
    simp only [step] at hp
    split at hp
    · rename_i hplace
      refine finishes hp h fun attached he => ?_
      obtain ⟨rfl, -⟩ := Place.session.inj (hplace.symm.trans he)
      rfl
    · cases hp
  | count connections =>
    simp only [step] at hp
    split at hp
    · rename_i hplace
      obtain rfl := Option.some.inj hp
      rw [hplace] at hfits
      exact ⟨v, rfl, by rw [hplace]; exact hfits, h.shows.count hfits.1 connections⟩
    · cases hp

theorem finish_shutdown (s : Reconnecting) (e : Lifecycle.SessionEnd) : (s.finish e).shutdown = s.shutdown := by
  unfold Reconnecting.finish
  split <;> rfl

theorem wake_shutdown (s : Reconnecting) : s.wake.shutdown = s.shutdown := by
  unfold wake
  split <;> rfl

/-- `run` can return after so many turns of its own. -/
def Returns : ℕ → Reconnecting → Prop
  | 0, s => ∃ error, s.place = .stopped error
  | n + 1, s => ∃ random p, s.step (.run random) = some p ∧ Returns n p.1

theorem Returns.top (hc : s.shutdown = true) (hplace : s.place = .top) : Returns 1 s := by
  refine ⟨0, s.stop none, ?_, _, rfl⟩
  simp [step, runs, hplace, hc]

/-- The session has ended, and not by a failure that is retried. -/
theorem Returns.session {attached : Bool} {e : Lifecycle.SessionEnd} (hc : s.shutdown = true)
    (hplace : s.place = .session attached (some e)) (he : ∀ error a, e ≠ .retry error a) : ∃ n ≤ 2, Returns n s := by
  have hstep : s.step (.run 0) = s.ended e 0 := by simp [step, runs, hplace]
  cases e with
  | retry error a => exact absurd rfl (he error a)
  | routesChanged => exact ⟨2, le_refl 2, 0, _, hstep, .top hc rfl⟩
  | shutdown => exact ⟨1, by decide, 0, _, hstep, _, rfl⟩
  | fatal error => exact ⟨1, by decide, 0, _, hstep, _, rfl⟩

/-- Closed while `close` finds its session or its sleep, or finds it between the
two, it returns: only where it tells its listener that it connects there is no
session yet, and a session that failed already is slept on. -/
theorem close_returns (hp : s.step .close = some p) (hconnecting : s.place ≠ .connecting)
    (hfailed : ∀ attached error a, s.place ≠ .session attached (some (.retry error a))) : ∃ n ≤ 2, Returns n p.1 := by
  obtain rfl := Option.some.inj hp
  have hc : (({ s with shutdown := true } : Reconnecting).finish .shutdown).wake.shutdown = true :=
    (wake_shutdown _).trans (finish_shutdown _ _)
  cases hplace : s.place with
  | top =>
    have htop : (({ s with shutdown := true } : Reconnecting).finish .shutdown).wake.place = .top := by
      simp [finish, wake, hplace]
    exact ⟨1, by decide, hplace ▸ .top hc htop⟩
  | connecting => exact absurd hplace hconnecting
  | session attached result =>
    cases result with
    | none =>
      have hended : (({ s with shutdown := true } : Reconnecting).finish .shutdown).wake.place =
          .session attached (some .shutdown) := by
        simp [finish, wake, hplace]
      exact hplace ▸ Returns.session hc hended fun _ _ => Lifecycle.SessionEnd.noConfusion
    | some e =>
      have hended : (({ s with shutdown := true } : Reconnecting).finish .shutdown).wake.place =
          .session attached (some e) := by
        simp [finish, wake, hplace]
      exact hplace ▸ Returns.session hc hended fun error a he => hfailed attached error a (he ▸ hplace)
  | sleeping done =>
    refine ⟨2, le_refl 2, 0, ({ s with shutdown := true, place := .top }, []), ?_, .top rfl rfl⟩
    simp [step, runs, finish, wake]
  | stopped error =>
    refine ⟨0, by decide, error, ?_⟩
    simp [finish, wake]

end Reconnecting

end TypeScript

/-! ### Both clients -/

end ShuvTunnel
