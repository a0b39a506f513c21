/-
# The routes a session looks into

What is seen of a client follows what it owes (`Service`), and it is what the
client does. Its routes are those of the last call it took. An attached session
answers each `open` by the target it finds in routes of the names it claimed:
it starts one channel, or sends one reset; and it looks nothing else up.

Key definitions: `Rust.RoutedSession.Answers`, `TypeScript.RoutedSession.Answers`.
Key theorems: `Rust.Supervisor.answers_of_step`, `TypeScript.Tunnel.answers_of_step`,
`serves_what_it_claimed`.
-/
import ShuvTunnel.RouteClaims

namespace ShuvTunnel

/-! ### Rust -/

namespace Rust

/-- The routes a call of `set_routes` hands over, when they are valid. -/
def SupervisorLabel.given : SupervisorLabel → Option Targets
  | set_routes routes => (validate routes).toOption.map fun _ => routes
  | _ => none

/-- The answer of an attached session to an `open`: it looks into its routes, which
have the names it claimed, and starts a channel to the target it finds there or sends
one reset. -/
structure RoutedSession.Answers (hostname token : String) (live : RoutedSession) (conn : ℕ) (peer sni alpn : String)
    (stalled : Bool) (e : Lts.Event Supervisor SupervisorLabel) : Prop where
  own : keys live.targets = live.names
  seen : (Supervisor.machine hostname token).seen e = [.looks sni (findTarget hostname live.targets sni)]
  takes : live.session.take ⟨hostname, token, live.targets.names⟩ (.openConn conn peer (some sni) alpn) stalled =
    some ((live.session.open hostname live.targets conn sni).session,
      (live.session.open hostname live.targets conn sni).sent)
  after : e.after = { e.before with
    place := .session { live with session := (live.session.open hostname live.targets conn sni).session } }
  opens : ∀ target, findTarget hostname live.targets sni = some target →
    live.session.open hostname live.targets conn sni = ⟨live.session.start conn, [], [(conn, target)]⟩
  resets : findTarget hostname live.targets sni = none →
    live.session.open hostname live.targets conn sni = ⟨live.session, [.resetConn conn "unknown_route"], []⟩

/-- In a step an `open` is taken by an attached session. -/
def Supervisor.TakesOpen (e : Lts.Event Supervisor SupervisorLabel) (live : RoutedSession) (conn : ℕ)
    (peer sni alpn : String) (stalled : Bool) : Prop :=
  e.label = .take (.openConn conn peer (some sni) alpn) stalled ∧ e.before.place = .session live ∧
    live.session.phase = .attached

section

variable {hostname token : String} {c : Supervisor} {live : RoutedSession} {v : Service}

/-- A target is found, and a channel started to it, or none, and a reset sent. -/
theorem Session.open_of_findTarget (s : Session) (hostname : String) (routes : Targets) (conn : ℕ) (sni : String) :
    (∀ target, findTarget hostname routes sni = some target →
      s.open hostname routes conn sni = ⟨s.start conn, [], [(conn, target)]⟩) ∧
    (findTarget hostname routes sni = none →
      s.open hostname routes conn sni = ⟨s, [.resetConn conn "unknown_route"], []⟩) := by
  cases hroute : routeForSni sni hostname with
  | none => exact ⟨fun _ h => by simp [findTarget, hroute] at h, fun _ => by simp [Session.open, hroute]⟩
  | some route =>
    cases hl : routes.lookup route with
    | none =>
      exact ⟨fun _ h => by simp [findTarget, hroute, hl] at h, fun _ => by simp [Session.open, hroute, hl]⟩
    | some target =>
      refine ⟨fun target' h => ?_, fun h => by simp [findTarget, hroute, hl] at h⟩
      obtain rfl : target = target' := by simpa [findTarget, hroute, hl] using h
      simp [Session.open, hroute, hl]

theorem Session.isOver_open (s : Session) (routes : Targets) (conn : ℕ) (sni : String) :
    (s.open hostname routes conn sni).session.isOver = s.isOver := by
  obtain ⟨hopens, hresets⟩ := s.open_of_findTarget hostname routes conn sni
  cases hfound : findTarget hostname routes sni with
  | none =>
    rw [hresets hfound]
  | some target =>
    rw [hopens target hfound]
    rfl

/-- An `open` is answered in the routes the session has. -/
theorem Supervisor.answers_of_step (hc : c.Stands v) {p : Supervisor × List (Served (Option String))} {conn : ℕ}
    {peer sni alpn : String} {stalled : Bool} (hplace : c.place = .session live)
    (hphase : live.session.phase = .attached)
    (hp : step hostname token c (.take (.openConn conn peer (some sni) alpn) stalled) = some p) :
    live.Answers hostname token conn peer sni alpn stalled
      ⟨c, .take (.openConn conn peer (some sni) alpn) stalled, p.1⟩ := by
  obtain ⟨h, -, hlive⟩ := hc.claim hplace
  obtain ⟨hopens, hresets⟩ := live.session.open_of_findTarget hostname live.targets conn sni
  have hstep := hp
  simp only [step, hplace] at hstep
  obtain ⟨x, hx, hgoes⟩ := Option.map_eq_some_iff.mp hstep
  -- it has not ended, and does what the arm does
  have hover : live.session.isOver = false := by
    rw [Bool.eq_false_iff]
    intro hover
    unfold Session.take at hx
    rw [if_pos hover] at hx
    cases hx
  have htake : live.session.take ⟨hostname, token, live.targets.names⟩ (.openConn conn peer (some sni) alpn) stalled =
      some ((live.session.open hostname live.targets conn sni).session,
        (live.session.open hostname live.targets conn sni).sent) := by
    rw [← Rust.onMessage_open (o := ⟨hostname, token, live.targets.names⟩) ⟨rfl, fun _ => Iff.rfl⟩ live.session peer
      alpn stalled]
    unfold Session.take
    rw [hover, hphase]
    rfl
  obtain rfl := Option.some.inj (hx.symm.trans htake)
  have hclaimed := (Session.take_claims htake).1
  have hlooks : live.looks hostname (.openConn conn peer (some sni) alpn) =
      [.looks sni (findTarget hostname live.targets sni)] := if_pos hphase
  have hends : (live.session.open hostname live.targets conn sni).session.isOver = false := by
    rw [Session.isOver_open, hover]
  simp only [hclaimed, hlooks, goes, hends] at hgoes
  refine ⟨hlive.own, ?_, htake, ?_, hopens, hresets⟩
  · unfold Lts.Machine.seen machine
    dsimp only
    rw [hp, ← hgoes]
    rfl
  · rw [← hgoes]
    rfl

theorem RoutedSession.of_looks {m : ServerMessage} {sni : String} {found : Option String}
    (hm : .looks sni found ∈ live.looks hostname m) :
    live.session.phase = .attached ∧ ∃ conn peer alpn, m = .openConn conn peer (some sni) alpn := by
  unfold looks at hm
  split at hm
  · rename_i conn peer name alpn
    split at hm
    · rename_i hphase
      obtain ⟨rfl, -⟩ : sni = name ∧ found = findTarget hostname live.targets name := by simpa using hm
      exact ⟨hphase, conn, peer, alpn, rfl⟩
    · cases hm
  · cases hm

/-- Only a call that hands routes over replaces them, and only for an `open` is
something looked up. -/
structure Supervisor.Fair (c : Supervisor) (a : SupervisorLabel) (p : Supervisor × List (Served (Option String))) :
    Prop where
  routes : p.1.routes = a.given.getD c.routes
  looks : ∀ sni found, .looks sni found ∈ p.2 →
    ∃ live conn peer alpn stalled, TakesOpen ⟨c, a, p.1⟩ live conn peer sni alpn stalled

theorem Supervisor.goes_fair {a : SupervisorLabel} {e : SessionEnd} {seen : List (Served (Option String))}
    {s : Session} (ha : a.given = none)
    (hlooks : ∀ sni found, .looks sni found ∈ seen →
      ∃ live conn peer alpn stalled, TakesOpen ⟨c, a, (c.goes live e seen s).1⟩ live conn peer sni alpn stalled) :
    c.Fair a (c.goes live e seen s) := by
  have hplain : (c.goes live e seen s).1.routes = c.routes := by
    unfold goes
    split
    · rfl
    · rfl
  refine ⟨by rw [ha, hplain]; rfl, fun sni found hm => ?_⟩
  refine hlooks sni found ?_
  unfold goes at hm
  split at hm
  · simpa using hm
  · exact hm

theorem Supervisor.step_fair {a : SupervisorLabel} {p : Supervisor × List (Served (Option String))}
    (hp : step hostname token c a = some p) : c.Fair a p := by
  -- a step that looks nothing up
  have plain : ∀ {x : Supervisor × List (Served (Option String))}, some x = some p →
      x.1.routes = a.given.getD c.routes → (∀ sni found, .looks sni found ∉ x.2) → c.Fair a p :=
    fun hx hroutes hnone => by
      obtain rfl := Option.some.inj hx
      exact ⟨hroutes, fun sni found hm => absurd hm (hnone sni found)⟩
  have sends : ∀ (names : List (List String)) (sni : String) (found : Option String),
      .looks sni found ∉ names.map Served.sends := by simp
  cases a with
  | set_routes routes =>
    obtain ⟨-, hp⟩ := Option.ite_none_left_eq_some.mp hp
    split at hp
    · rename_i hv
      exact plain hp (by simp [SupervisorLabel.given, hv, Except.toOption]) (by simp)
    · rename_i hv
      exact plain hp (by simp [SupervisorLabel.given, hv, Except.toOption]) (by simp)
  | close | drop => exact plain hp rfl (by simp)
  | run =>
    simp only [step, runs] at hp
    split at hp
    · exact plain hp rfl (by simp)
    · exact plain hp rfl (by simp)
    · exact plain hp rfl (by simp)
    · exact plain hp rfl (by simp)
    · cases hp
  | changed =>
    simp only [step] at hp
    split at hp
    · obtain ⟨-, hp⟩ := Option.ite_none_right_eq_some.mp hp
      exact plain hp rfl (by simp)
    · obtain ⟨-, hp⟩ := Option.ite_none_left_eq_some.mp hp
      split at hp
      · unfold takesUp at hp
        split at hp
        · exact plain hp rfl (by simp)
        · exact plain hp rfl (by simp)
      · obtain ⟨-, hp⟩ := Option.ite_none_right_eq_some.mp hp
        exact plain hp rfl (by simp)
    · cases hp
  | shutdown =>
    obtain ⟨-, hp⟩ := Option.ite_none_right_eq_some.mp hp
    split at hp
    · exact plain hp rfl (by simp)
    · exact plain hp rfl (by simp)
    · exact plain hp rfl (by simp)
    · cases hp
  | take m stalled =>
    simp only [step] at hp
    split at hp
    · rename_i live hplace
      obtain ⟨x, -, rfl⟩ := Option.map_eq_some_iff.mp hp
      refine goes_fair rfl fun sni found hm => ?_
      rcases List.mem_append.mp hm with hm | hm
      · obtain ⟨hphase, conn, peer, alpn, rfl⟩ := RoutedSession.of_looks hm
        exact ⟨live, conn, peer, alpn, stalled, rfl, hplace, hphase⟩
      · exact absurd hm (sends _ _ _)
    · cases hp
  | move μ =>
    simp only [step] at hp
    split at hp
    · obtain ⟨x, -, rfl⟩ := Option.map_eq_some_iff.mp hp
      exact goes_fair rfl fun sni found hm => absurd hm (sends _ _ _)
    · cases hp

end

end Rust

/-! ### TypeScript -/

namespace TypeScript

/-- The routes a call of `setRoutes` hands over, when they are valid. -/
def TunnelLabel.given : TunnelLabel → Option Targets
  | setRoutes routes => (validateRoutes routes).toOption.map fun _ => routes
  | _ => none

/-- The session behind an `open`, and what it sent: nothing where `open` threw. -/
def Session.behind (s : Session) (x : Except TypeError (Opening Session Target)) : Session × List ClientMessage :=
  (x.toOption.map fun opening => (opening.session, opening.sent)).getD (s, [])

/-- The answer of an attached session to an `open`: it looks into the tunnel's routes,
which have the names it claimed, and starts a channel to the target it finds there, sends
one reset, or throws at what every object has. -/
structure RoutedSession.Answers (U : Unicode) (hostname token : String) (live : RoutedSession) (conn : ℕ)
    (peer sni alpn : String) (stalled : Bool) (e : Lts.Event Tunnel TunnelLabel) : Prop where
  own : keys e.before.routes = keys live.routes
  seen : (Tunnel.machine U hostname token).seen e = [.looks sni (findTarget U hostname e.before.routes sni)]
  takes : live.session.take U ⟨hostname, token, e.before.routes.names⟩ (.openConn conn peer (some sni) alpn) stalled =
    some (live.session.behind (live.session.open U hostname e.before.routes conn sni))
  after : e.after = { e.before with
    place := .session { live with
      session := (live.session.behind (live.session.open U hostname e.before.routes conn sni)).1 } }
  opens : ∀ target, findTarget U hostname e.before.routes sni = .text target → ∃ parsed,
    Names.parseTarget target = some parsed ∧
      live.session.open U hostname e.before.routes conn sni = .ok ⟨live.session.start conn, [], [(conn, parsed)]⟩
  resets : findTarget U hostname e.before.routes sni = .undefined →
    live.session.open U hostname e.before.routes conn sni =
      .ok ⟨live.session, [.resetConn conn "unknown_route"], []⟩
  throws : findTarget U hostname e.before.routes sni = .inherited →
    live.session.open U hostname e.before.routes conn sni = .error .lastIndexOf

/-- In a step an `open` is taken by an attached session. -/
def Tunnel.TakesOpen (e : Lts.Event Tunnel TunnelLabel) (live : RoutedSession) (conn : ℕ) (peer sni alpn : String)
    (stalled : Bool) : Prop :=
  e.label = .take (.openConn conn peer (some sni) alpn) stalled ∧ e.before.place = .session live ∧
    live.session.attached = true

section

variable {U : Unicode} {hostname token : String} {c : Tunnel} {live : RoutedSession} {v : Service}

/-- What is found decides what `open` does. -/
theorem Session.open_of_findTarget (U : Unicode) (hostname : String) {s : Session} {routes : Targets}
    (hv : validateRoutes routes = .ok ()) (hready : s.readyState = .OPEN) (conn : ℕ) (sni : String) :
    (∀ target, findTarget U hostname routes sni = .text target → ∃ parsed, Names.parseTarget target = some parsed ∧
      s.open U hostname routes conn sni = .ok ⟨s.start conn, [], [(conn, parsed)]⟩) ∧
    (findTarget U hostname routes sni = .undefined →
      s.open U hostname routes conn sni = .ok ⟨s, [.resetConn conn "unknown_route"], []⟩) ∧
    (findTarget U hostname routes sni = .inherited →
      s.open U hostname routes conn sni = .error .lastIndexOf) := by
  have hreset : s.sendControl (.resetConn conn "unknown_route") = [.resetConn conn "unknown_route"] := if_pos hready
  have hfind : ∀ route, Names.routeForSni U sni hostname = some route →
      findTarget U hostname routes sni = property routes route := fun route hroute => by
    simp [findTarget, hroute]
  cases hroute : Names.routeForSni U sni hostname with
  | none =>
    have hnone : findTarget U hostname routes sni = .undefined := by simp [findTarget, hroute]
    rw [hnone]
    refine ⟨fun _ h => (nomatch h), fun _ => ?_, fun h => nomatch h⟩
    simp only [Session.open, hroute, hreset]
    rfl
  | some route =>
    rw [hfind route hroute]
    refine ⟨fun target h => ?_, fun h => ?_, fun h => ?_⟩
    · have hl : routes.lookup route = some target := by
        unfold property at h
        split at h
        · rename_i target' hl
          rw [hl, Property.text.inj h]
        · split at h
          · cases h
          · cases h
      obtain ⟨-, parsed, hparsed⟩ := validateRoutes_ok.mp hv _ (Targets.mem_of_lookup hl)
      refine ⟨parsed, hparsed, ?_⟩
      simp only [Session.open, hroute, Option.map_some, Option.getD_some, h, parseProperty, hparsed]
      rfl
    · simp only [Session.open, hroute, Option.map_some, Option.getD_some, h, parseProperty, hreset]
      rfl
    · simp only [Session.open, hroute, Option.map_some, Option.getD_some, h, parseProperty]
      rfl

theorem Session.isOver_behind {s : Session} {routes : Targets} (hv : validateRoutes routes = .ok ())
    (hready : s.readyState = .OPEN) (conn : ℕ) (sni : String) :
    (s.behind (s.open U hostname routes conn sni)).1.isOver = s.isOver := by
  obtain ⟨hopens, hresets, hthrows⟩ := open_of_findTarget U hostname hv hready conn sni
  cases hfound : findTarget U hostname routes sni with
  | text target =>
    obtain ⟨parsed, -, hok⟩ := hopens target hfound
    rw [hok]
    rfl
  | inherited =>
    rw [hthrows hfound]
    rfl
  | undefined =>
    rw [hresets hfound]
    rfl

/-- An `open` is answered in the routes the tunnel has. -/
theorem Tunnel.answers_of_step (hc : c.Stands v) (hv : validateRoutes c.routes = .ok ())
    {p : Tunnel × List (Served Property)} {conn : ℕ} {peer sni alpn : String} {stalled : Bool}
    (hplace : c.place = .session live) (hattached : live.session.attached = true)
    (hp : step U hostname token c (.take (.openConn conn peer (some sni) alpn) stalled) = some p) :
    live.Answers U hostname token conn peer sni alpn stalled
      ⟨c, .take (.openConn conn peer (some sni) alpn) stalled, p.1⟩ := by
  have hstep := hp
  simp only [step, hplace] at hstep
  obtain ⟨x, hx, hgoes⟩ := Option.map_eq_some_iff.mp hstep
  obtain ⟨hready, hsettles⟩ := Session.take_settles hx
  have hover : live.session.isOver = false := by
    rw [Bool.eq_false_iff]
    exact fun ho => (hc.ok live hplace).closed ho hready
  obtain ⟨h, -, hlive⟩ := hc.claim_of_live hplace hover
  obtain ⟨hopens, hresets, hthrows⟩ :=
    Session.open_of_findTarget U hostname hv hready conn sni
  have htake : live.session.take U ⟨hostname, token, c.routes.names⟩ (.openConn conn peer (some sni) alpn) stalled =
      some (live.session.behind (live.session.open U hostname c.routes conn sni)) := by
    have hconfigured : c.routes.Configures hostname ⟨hostname, token, c.routes.names⟩ := ⟨rfl, fun _ => Iff.rfl⟩
    show (if live.session.readyState = .OPEN then some (live.session.onControl U _ _) else none) = _
    rw [if_pos hready, TypeScript.onControl_open hconfigured hv hattached]
    cases live.session.open U hostname c.routes conn sni with
    | ok opening => rfl
    | error e => rfl
  obtain rfl := Option.some.inj (hx.symm.trans htake)
  have hlooks : c.looks U hostname live (.openConn conn peer (some sni) alpn) =
      [.looks sni (findTarget U hostname c.routes sni)] := if_pos hattached
  have hends : (live.session.behind (live.session.open U hostname c.routes conn sni)).1.isOver = false := by
    rw [Session.isOver_behind hv hready, hover]
  simp only [hsettles.claimed, hlooks, goes, hends] at hgoes
  refine ⟨hlive.own, ?_, htake, ?_, hopens, hresets, hthrows⟩
  · unfold Lts.Machine.seen machine
    dsimp only
    rw [hp, ← hgoes]
    rfl
  · rw [← hgoes]
    rfl

theorem Tunnel.of_looks {m : ServerMessage} {sni : String} {found : Property}
    (hm : .looks sni found ∈ c.looks U hostname live m) :
    live.session.attached = true ∧ ∃ conn peer alpn, m = .openConn conn peer (some sni) alpn := by
  unfold looks at hm
  split at hm
  · rename_i conn peer name alpn
    split at hm
    · rename_i hattached
      obtain ⟨rfl, -⟩ : sni = name ∧ found = findTarget U hostname c.routes name := by simpa using hm
      exact ⟨hattached, conn, peer, alpn, rfl⟩
    · cases hm
  · cases hm

/-- Only a call that hands routes over replaces them, and only for an `open` is
something looked up. -/
structure Tunnel.Fair (c : Tunnel) (a : TunnelLabel) (p : Tunnel × List (Served Property)) : Prop where
  routes : p.1.routes = a.given.getD c.routes
  looks : ∀ sni found, .looks sni found ∈ p.2 →
    ∃ live conn peer alpn stalled, TakesOpen ⟨c, a, p.1⟩ live conn peer sni alpn stalled

theorem Tunnel.goes_same (c : Tunnel) (live : RoutedSession) (e : SessionEnd) (seen : List (Served Property))
    (s : Session) : (c.goes live e seen s).1.routes = c.routes ∧
      ∀ sni found, .looks sni found ∈ (c.goes live e seen s).2 → .looks sni found ∈ seen := by
  unfold goes
  split
  · exact ⟨rfl, fun sni found hm => by simpa using hm⟩
  · exact ⟨rfl, fun _ _ hm => hm⟩

theorem not_looks_sends (names : List (List String)) (sni : String) (found : Property) :
    .looks sni found ∉ names.map Served.sends := by
  simp

theorem Tunnel.finish_same (c : Tunnel) (live : RoutedSession) (e : SessionEnd) (seen : List (Served Property)) :
    (c.finish live e seen).1.routes = c.routes ∧
      ∀ sni found, .looks sni found ∈ (c.finish live e seen).2 → .looks sni found ∈ seen := by
  obtain ⟨hroutes, hlooks⟩ := c.goes_same live e
    (seen ++ (claimed live.session.finishSession.2).map .sends) live.session.finishSession.1
  refine ⟨hroutes, fun sni found hm => ?_⟩
  rcases List.mem_append.mp (hlooks sni found hm) with hm | hm
  · exact hm
  · exact absurd hm (not_looks_sends _ sni found)

theorem Tunnel.setRoutes_same (c : Tunnel) (routes : Targets) : (c.setRoutes routes).1.routes = routes ∧
    ∀ sni found, .looks sni found ∉ (c.setRoutes routes).2 := by
  unfold setRoutes
  split
  · rename_i live hplace
    have hnone : ∀ (sni : String) (found : Property),
        Served.looks sni found ∉ Served.given routes :: if live.session.isOver then [] else [Served.takes] :=
      fun sni found h => by
        split at h
        · simp at h
        · simp at h
    dsimp only
    split
    · exact ⟨rfl, hnone⟩
    · obtain ⟨hroutes, hlooks⟩ := finish_same { c with routes } live .routesChanged
        (.given routes :: if live.session.isOver then [] else [.takes])
      exact ⟨hroutes, fun sni found hm => hnone sni found (hlooks sni found hm)⟩
  · exact ⟨rfl, fun sni found h => by simp at h⟩

theorem Tunnel.step_fair {a : TunnelLabel} {p : Tunnel × List (Served Property)}
    (hp : step U hostname token c a = some p) : c.Fair a p := by
  -- a step that looks nothing up
  have plain : ∀ {x : Tunnel × List (Served Property)}, some x = some p →
      x.1.routes = a.given.getD c.routes → (∀ sni found, .looks sni found ∉ x.2) → c.Fair a p :=
    fun hx hroutes hnone => by
      obtain rfl := Option.some.inj hx
      exact ⟨hroutes, fun sni found hm => absurd hm (hnone sni found)⟩
  cases a with
  | setRoutes routes =>
    simp only [step] at hp
    split at hp
    · rename_i hv
      obtain ⟨hroutes, hnone⟩ := c.setRoutes_same routes
      exact plain hp (by simp [hroutes, TunnelLabel.given, hv, Except.toOption]) hnone
    · rename_i hv
      exact plain hp (by simp [TunnelLabel.given, hv, Except.toOption]) (by simp)
  | close =>
    simp only [step] at hp
    split at hp
    · rename_i live hplace
      obtain ⟨hroutes, hlooks⟩ := finish_same { c with shutdown := true } live .shutdown []
      exact plain hp hroutes fun sni found hm => by
        simpa using hlooks sni found hm
    · exact plain hp rfl (by simp)
  | run =>
    simp only [step, runs] at hp
    split at hp
    · exact plain hp rfl (by simp)
    · exact plain hp rfl (by simp)
    · obtain ⟨e, -, hp⟩ := Option.map_eq_some_iff.mp hp
      exact plain (congrArg some hp) rfl (by simp)
    · exact plain hp rfl (by simp)
    · cases hp
  | take m stalled =>
    simp only [step] at hp
    split at hp
    · rename_i live hplace
      obtain ⟨x, -, rfl⟩ := Option.map_eq_some_iff.mp hp
      obtain ⟨hroutes, hlooks⟩ := c.goes_same live m.sessionEnd
        (c.looks U hostname live m ++ (claimed x.2).map .sends) x.1
      refine ⟨hroutes, fun sni found hm => ?_⟩
      rcases List.mem_append.mp (hlooks sni found hm) with hm | hm
      · obtain ⟨hattached, conn, peer, alpn, rfl⟩ := of_looks hm
        exact ⟨live, conn, peer, alpn, stalled, rfl, hplace, hattached⟩
      · exact absurd hm (not_looks_sends _ sni found)
    · cases hp
  | move μ =>
    simp only [step] at hp
    split at hp
    · rename_i live hplace
      obtain ⟨x, -, rfl⟩ := Option.map_eq_some_iff.mp hp
      obtain ⟨hroutes, hlooks⟩ := c.goes_same live .retry ((claimed x.2).map .sends) x.1
      exact ⟨hroutes, fun sni found hm => absurd (hlooks sni found hm) (not_looks_sends _ sni found)⟩
    · cases hp

/-- A call hands over what it found valid. -/
theorem Tunnel.valid_of_step {a : TunnelLabel} {p : Tunnel × List (Served Property)}
    (hv : validateRoutes c.routes = .ok ()) (hp : step U hostname token c a = some p) :
    validateRoutes p.1.routes = .ok () := by
  rw [(step_fair hp).routes]
  unfold TunnelLabel.given
  split
  · rename_i routes
    cases hr : validateRoutes routes with
    | ok u => exact hr
    | error e => exact hv
  · exact hv

end

end TypeScript

/-! ### Both clients -/

section

variable {routes : Targets} {hostname token : String}

theorem Rust.Supervisor.stands_start {c : Rust.Supervisor} (h : Rust.Supervisor.start routes = .ok c) :
    c.Stands ⟨routes, none⟩ := by
  unfold Rust.Supervisor.start at h
  cases hv : Rust.validate routes with
  | error e =>
    rw [hv] at h
    cases h
  | ok u =>
    rw [hv] at h
    cases h
    exact .ended (c := { routes, unseen := false, gone := false, shutdown := false, place := .top }) rfl rfl

theorem TypeScript.Tunnel.stands_new {c : TypeScript.Tunnel} (h : TypeScript.Tunnel.new routes = .ok c) :
    c.Stands ⟨routes, none⟩ := by
  unfold TypeScript.Tunnel.new at h
  cases hv : validateRoutes routes with
  | error e =>
    rw [hv] at h
    cases h
  | ok u =>
    rw [hv] at h
    cases h
    exact ⟨rfl, .none, fun _ => TypeScript.Place.noConfusion⟩

/-- The constructor throws at routes that are not valid. -/
theorem TypeScript.Tunnel.valid_of_new {c : TypeScript.Tunnel} (h : TypeScript.Tunnel.new routes = .ok c) :
    validateRoutes routes = .ok () := by
  unfold TypeScript.Tunnel.new at h
  cases hv : validateRoutes routes with
  | error e =>
    rw [hv] at h
    cases h
  | ok u => rfl

/-- Along every run of the Rust client: what is seen of it is what a client may let be
seen that serves what it claimed; its routes are those of the last call it took; each
`open` that an attached session takes is answered in routes of the names it claimed, and
nothing else is looked up. -/
structure Rust.Supervisor.Serves (hostname token : String) (routes : Targets)
    (es : List (Lts.Event Rust.Supervisor Rust.SupervisorLabel)) (c : Rust.Supervisor) : Prop where
  follows : ∃ v, (Service.system Rust.keys (Rust.findTarget hostname)).exec ⟨routes, none⟩
    (es.flatMap (Rust.Supervisor.machine hostname token).seen) = some v ∧ c.Stands v
  latest : c.routes = (es.filterMap fun e => e.label.given).getLastD routes
  answers : ∀ e ∈ es, ∀ live conn peer sni alpn stalled,
    Rust.Supervisor.TakesOpen e live conn peer sni alpn stalled →
      live.Answers hostname token conn peer sni alpn stalled e
  looks : ∀ e ∈ es, ∀ sni found, .looks sni found ∈ (Rust.Supervisor.machine hostname token).seen e →
    ∃ live conn peer alpn stalled, Rust.Supervisor.TakesOpen e live conn peer sni alpn stalled

/-- The same of the TypeScript client. -/
structure TypeScript.Tunnel.Serves (U : Unicode) (hostname token : String) (routes : Targets)
    (es : List (Lts.Event TypeScript.Tunnel TypeScript.TunnelLabel)) (c : TypeScript.Tunnel) : Prop where
  follows : ∃ v, (Service.system TypeScript.keys (TypeScript.findTarget U hostname)).exec ⟨routes, none⟩
    (es.flatMap (TypeScript.Tunnel.machine U hostname token).seen) = some v ∧ c.Stands v
  latest : c.routes = (es.filterMap fun e => e.label.given).getLastD routes
  answers : ∀ e ∈ es, ∀ live conn peer sni alpn stalled,
    TypeScript.Tunnel.TakesOpen e live conn peer sni alpn stalled →
      live.Answers U hostname token conn peer sni alpn stalled e
  looks : ∀ e ∈ es, ∀ sni found, .looks sni found ∈ (TypeScript.Tunnel.machine U hostname token).seen e →
    ∃ live conn peer alpn stalled, TypeScript.Tunnel.TakesOpen e live conn peer sni alpn stalled

theorem Rust.Supervisor.serves {c₀ c : Rust.Supervisor} {es : List (Lts.Event Rust.Supervisor Rust.SupervisorLabel)}
    (hstart : Rust.Supervisor.start routes = .ok c₀)
    (hrun : Lts.Run (Rust.Supervisor.machine hostname token).system c₀ es c) : c.Serves hostname token routes es := by
  have hstands := Rust.Supervisor.stands_start hstart
  -- at each step the supervisor stands as some service
  have hbefore := (hrun.invariant (I := fun c => ∃ v, c.Stands v) (A := fun _ _ => True)
    (fun s a s' ⟨v, hs⟩ _ hstep => by
      obtain ⟨p, hp, rfl⟩ := Option.map_eq_some_iff.mp hstep
      obtain ⟨v', -, hs'⟩ := Rust.Supervisor.step_followed hs hp
      exact ⟨v', hs'⟩) (fun _ _ => trivial) ⟨_, hstands⟩).2
  refine ⟨?_, ?_, fun e he live conn peer sni alpn stalled htakes => ?_, fun e he sni found hm => ?_⟩
  · refine Lts.Machine.follows (fun c v a c' seen hc hstep => ?_) hrun hstands
    exact Rust.Supervisor.step_followed hc hstep
  · rw [show routes = c₀.routes from hstands.latest]
    refine hrun.getLastD (f := fun c => c.routes) fun s a s' hstep => ?_
    obtain ⟨p, hp, rfl⟩ := Option.map_eq_some_iff.mp hstep
    exact (Rust.Supervisor.step_fair hp).routes
  · have hstep := Lts.Machine.step_of_mem hrun he
    obtain ⟨v, hs⟩ := (hbefore e he).1
    obtain ⟨hlabel, hplace, hphase⟩ := htakes
    obtain ⟨before, label, after⟩ := e
    obtain rfl : label = _ := hlabel
    exact Rust.Supervisor.answers_of_step hs hplace hphase hstep
  · exact (Rust.Supervisor.step_fair (Lts.Machine.step_of_mem hrun he)).looks sni found hm

theorem TypeScript.Tunnel.serves {U : Unicode} {c₀ c : TypeScript.Tunnel}
    {es : List (Lts.Event TypeScript.Tunnel TypeScript.TunnelLabel)}
    (hstart : TypeScript.Tunnel.new routes = .ok c₀)
    (hrun : Lts.Run (TypeScript.Tunnel.machine U hostname token).system c₀ es c) :
    c.Serves U hostname token routes es := by
  have hstands := TypeScript.Tunnel.stands_new hstart
  -- at each step the tunnel stands as some service, and its routes are valid
  have hbefore := (hrun.invariant (I := fun c => (∃ v, c.Stands v) ∧ validateRoutes c.routes = .ok ())
    (A := fun _ _ => True)
    (fun s a s' ⟨⟨v, hs⟩, hv⟩ _ hstep => by
      obtain ⟨p, hp, rfl⟩ := Option.map_eq_some_iff.mp hstep
      obtain ⟨v', -, hs'⟩ := TypeScript.Tunnel.step_followed hs hp
      exact ⟨⟨v', hs'⟩, TypeScript.Tunnel.valid_of_step hv hp⟩) (fun _ _ => trivial)
    ⟨⟨_, hstands⟩, hstands.latest ▸ TypeScript.Tunnel.valid_of_new hstart⟩).2
  refine ⟨?_, ?_, fun e he live conn peer sni alpn stalled htakes => ?_, fun e he sni found hm => ?_⟩
  · refine Lts.Machine.follows (fun c v a c' seen hc hstep => ?_) hrun hstands
    exact TypeScript.Tunnel.step_followed hc hstep
  · rw [show routes = c₀.routes from hstands.latest]
    refine hrun.getLastD (f := fun c => c.routes) fun s a s' hstep => ?_
    obtain ⟨p, hp, rfl⟩ := Option.map_eq_some_iff.mp hstep
    exact (TypeScript.Tunnel.step_fair hp).routes
  · have hstep := Lts.Machine.step_of_mem hrun he
    obtain ⟨⟨v, hs⟩, hvalid⟩ := (hbefore e he).1
    obtain ⟨hlabel, hplace, hattached⟩ := htakes
    obtain ⟨before, label, after⟩ := e
    obtain rfl : label = _ := hlabel
    exact TypeScript.Tunnel.answers_of_step hs hvalid hplace hattached hstep
  · exact (TypeScript.Tunnel.step_fair (Lts.Machine.step_of_mem hrun he)).looks sni found hm

/-- Whatever routes a client is given and whatever its bridges bring, it serves just
what it claimed: the names of the routes it was given last when the session started are
those it claims, and those of the routes it looks into for every `open` it answers. -/
theorem serves_what_it_claimed (U : Unicode) (routes : Targets) (hostname token : String) :
    (∀ {c₀ c : Rust.Supervisor} {es : List (Lts.Event Rust.Supervisor Rust.SupervisorLabel)},
      Rust.Supervisor.start routes = .ok c₀ → Lts.Run (Rust.Supervisor.machine hostname token).system c₀ es c →
        c.Serves hostname token routes es) ∧
    (∀ {c₀ c : TypeScript.Tunnel} {es : List (Lts.Event TypeScript.Tunnel TypeScript.TunnelLabel)},
      TypeScript.Tunnel.new routes = .ok c₀ → Lts.Run (TypeScript.Tunnel.machine U hostname token).system c₀ es c →
        c.Serves U hostname token routes es) :=
  ⟨Rust.Supervisor.serves, TypeScript.Tunnel.serves⟩

end

/-- Another target for the hostname's own route. -/
def movedTargets : Targets where
  entries := [("@", "localhost:4000")]
  nodup := by decide

/-- Another route. -/
def addedTargets : Targets where
  entries := [("@", "localhost:4000"), ("api", "localhost:3000")]
  nodup := by decide

/-- A target is changed before the attach reply, and a route added behind an `open`. -/
def supervisorLabels : List Rust.SupervisorLabel :=
  [.run, .run, .run, .move .attach, .set_routes movedTargets, .take (.attached "s" ["@"] 15000 45000) false, .changed,
    .take (.openConn 1 "10.0.0.1" (some "t.d") "") false, .set_routes addedTargets, .changed, .run, .run, .run]

/-- The same of the TypeScript client. -/
def tunnelLabels : List TypeScript.TunnelLabel :=
  [.run, .run, .move .open, .setRoutes movedTargets, .take (.attached "s" ["@"] 15000 45000) false,
    .take (.openConn 1 "10.0.0.1" (some "t.d") "") false, .setRoutes addedTargets, .run, .run, .run]

/-- Both clients are in the next session then, with the route that was added. -/
theorem serves_what_it_claimed_root :
    (∃ (c : Rust.Supervisor) (es : List (Lts.Event Rust.Supervisor Rust.SupervisorLabel)),
      es.map (·.label) = supervisorLabels ∧ c.Serves "t.d" "token" rootTargets es ∧ c.routes = addedTargets) ∧
    (∃ (c : TypeScript.Tunnel) (es : List (Lts.Event TypeScript.Tunnel TypeScript.TunnelLabel)),
      es.map (·.label) = tunnelLabels ∧ c.Serves plainUnicode "t.d" "token" rootTargets es ∧
        c.routes = addedTargets) := by
  have hserves := serves_what_it_claimed plainUnicode rootTargets "t.d" "token"
  constructor
  · let c₀ : Rust.Supervisor :=
      { routes := rootTargets, unseen := false, gone := false, shutdown := false, place := .top }
    have hstart : Rust.Supervisor.start rootTargets = .ok c₀ := by
      unfold Rust.Supervisor.start
      rw [Rust.validate_of_validateRoutes rootTargets_valid]
      rfl
    have hsome : ((Rust.Supervisor.machine "t.d" "token").system.exec c₀ supervisorLabels).isSome = true := by
      decide
    obtain ⟨c, hc⟩ := Option.isSome_iff_exists.mp hsome
    obtain ⟨es, hrun, hlabels⟩ := Lts.Run.exists_of_exec hc
    have hfinal := hserves.1 hstart hrun
    refine ⟨c, es, hlabels, hfinal, ?_⟩
    have hgiven : (es.filterMap fun e => e.label.given) = supervisorLabels.filterMap (·.given) := by
      rw [← hlabels, List.filterMap_map]
      rfl
    rw [hfinal.latest, hgiven]
    rfl
  · let c₀ : TypeScript.Tunnel := { routes := rootTargets, shutdown := false, place := .top }
    have hstart : TypeScript.Tunnel.new rootTargets = .ok c₀ := by
      unfold TypeScript.Tunnel.new
      rw [rootTargets_valid]
      rfl
    have hsome :
        ((TypeScript.Tunnel.machine plainUnicode "t.d" "token").system.exec c₀ tunnelLabels).isSome = true := by
      decide
    obtain ⟨c, hc⟩ := Option.isSome_iff_exists.mp hsome
    obtain ⟨es, hrun, hlabels⟩ := Lts.Run.exists_of_exec hc
    have hfinal := hserves.2 hstart hrun
    refine ⟨c, es, hlabels, hfinal, ?_⟩
    have hgiven : (es.filterMap fun e => e.label.given) = tunnelLabels.filterMap (·.given) := by
      rw [← hlabels, List.filterMap_map]
      rfl
    rw [hfinal.latest, hgiven]
    rfl

end ShuvTunnel
