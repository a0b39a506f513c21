/-
# What a client answers to an `open`

A client resolves the server name to a route, looks the route up among its own
and starts a channel to the target it finds, or sends a reset. The Rust client
looks into a map. The TypeScript client reads a property of a plain object, and
every object has a `constructor`: where no route has this name, `parseTarget`
gets a function and throws. The clients also lower the server name differently
beyond ASCII.

Key definitions: `TypeScript.Session.open`, `Rust.Session.open`,
`OpenAnswered`, `Readable`.
Key theorems: `TypeScript.onControl_open`, `Rust.onMessage_open`,
`openAnswered_iff`.
-/
import ShuvTunnel.RustSession
import ShuvTunnel.TypeScriptSession
import ShuvTunnel.Targets
import ShuvTunnel.Resolution

namespace ShuvTunnel

/-- What came of an `open`: the session, what it sent, and the channels it
started, each with its target. -/
structure Opening (S T : Type) where
  session : S
  sent : List ClientMessage
  started : List (ℕ × T)

namespace TypeScript

/-- What `this.routes[name]` gives. -/
inductive Property
  | text (target : String)
  | inherited
  | undefined

/-- An entry of its own, or what every object has. -/
def property (routes : Targets) (name : String) : Property :=
  match routes.lookup name with
  | some target => .text target
  | none => if OBJECT_PROTOTYPE.contains name then .inherited else .undefined

/-- `value.lastIndexOf is not a function`. -/
inductive TypeError
  | lastIndexOf

/-- `target === undefined ? undefined : Names.parseTarget(target)`. -/
def parseProperty : Property → Except TypeError (Option Target)
  | .undefined => .ok none
  | .text target => .ok (Names.parseTarget target)
  | .inherited => .error .lastIndexOf

namespace Session

/-- `new Channel`, and `channels.set`. -/
def start (s : Session) (conn : ℕ) : Session :=
  { s with channels := Function.update s.channels conn (some s.made.length), made := s.made ++ [.new conn] }

/-- What an `open` for this name does: a channel is started for the target, or the
connection is reset. -/
def «open» (U : Unicode) (hostname : String) (routes : Targets) (s : Session) (conn : ℕ) (sni : String) :
    Except TypeError (Opening Session Target) :=
  let route := Names.routeForSni U sni hostname
  (parseProperty ((route.map (property routes)).getD .undefined)).map fun parsed =>
    match route, parsed with
    | some _, some target => ⟨s.start conn, [], [(conn, target)]⟩
    | _, _ => ⟨s, s.sendControl (.resetConn conn "unknown_route"), []⟩

end Session

end TypeScript

namespace Rust

namespace Session

/-- `tasks.spawn(run_channel(..))`, and `channels.insert`. -/
def start (s : Session) (conn : ℕ) : Session :=
  { s with channels := Function.update s.channels conn (some s.tasks.length), tasks := s.tasks ++ [.spawn conn] }

/-- The arm of `ServerMessage::Open`. -/
def «open» (hostname : String) (routes : Targets) (s : Session) (conn : ℕ) (sni : String) : Opening Session String :=
  let route := Rust.routeForSni sni hostname
  match route, route.bind routes.lookup with
  | some _, some target => ⟨s.start conn, [], [(conn, target)]⟩
  | _, _ => ⟨s, [.resetConn conn "unknown_route"], []⟩

end Session

end Rust

/-! ### Every open is answered -/

/-- The route a client finds, among those it has. -/
def Library.chosen (U : Unicode) (library : Library) (hostname : String) (routes : Targets) (sni : String) :
    Option String :=
  (library.routeForSni U sni hostname).filter fun route => (routes.lookup route).isSome

/-- The client starts one channel, to the target of the route it resolves the
server name to, or sends one reset and changes nothing. -/
def TypeScript.Answered (U : Unicode) (hostname : String) (routes : Targets) (sni : String) : Prop :=
  ∀ (s : Session) (conn : ℕ), s.readyState = .OPEN →
    (∃ route target parsed, Names.routeForSni U sni hostname = some route ∧ routes.lookup route = some target ∧
      Names.parseTarget target = some parsed ∧
        s.open U hostname routes conn sni = .ok ⟨s.start conn, [], [(conn, parsed)]⟩) ∨
      ((∀ route, Names.routeForSni U sni hostname = some route → route ∉ routes.names) ∧
        s.open U hostname routes conn sni = .ok ⟨s, [.resetConn conn "unknown_route"], []⟩)

/-- Every `open` for the name is answered: it is started for the target of its
route, or reset where no route is its. -/
def Rust.Answered (hostname : String) (routes : Targets) (sni : String) : Prop :=
  ∀ (s : Session) (conn : ℕ),
    (∃ route target, routeForSni sni hostname = some route ∧ routes.lookup route = some target ∧
      s.open hostname routes conn sni = ⟨s.start conn, [], [(conn, target)]⟩) ∨
      ((∀ route, routeForSni sni hostname = some route → route ∉ routes.names) ∧
        s.open hostname routes conn sni = ⟨s, [.resetConn conn "unknown_route"], []⟩)

/-- Both clients answer, and choose the same route. -/
structure OpenAnswered (U : Unicode) (hostname : String) (routes : Targets) (sni : String) : Prop where
  typescript : TypeScript.Answered U hostname routes sni
  rust : Rust.Answered hostname routes sni
  alike : Library.chosen U .rust hostname routes sni = Library.chosen U .typescript hostname routes sni

/-- The server name is no inherited one, and it is a public name of a route in
the one lower case exactly when it is in the other. -/
structure Readable (U : Unicode) (hostname : String) (routes : Targets) (sni : String) : Prop where
  own : toLowerCase U sni = publicHostname "constructor" (toLowerCase U hostname) → "constructor" ∈ routes.names
  alike : ∀ route ∈ routes.names, toAsciiLowercase sni = publicHostname route (toAsciiLowercase hostname) ↔
    toLowerCase U sni = publicHostname route (toLowerCase U hostname)

/-! ### The sessions -/

/-- The options of a client with these routes. -/
def Targets.Configures (routes : Targets) (hostname : String) (o : Options) : Prop :=
  o.hostname = hostname ∧ ∀ route, route ∈ o.routes ↔ route ∈ routes.names

section

variable {U : Unicode} {hostname : String} {routes : Targets} {o : Options} {conn : ℕ} {sni : String}

theorem Targets.Configures.contains_eq (ho : routes.Configures hostname o) (route : String) :
    o.routes.contains route = (routes.lookup route).isSome := by
  rw [Bool.eq_iff_iff, List.contains_iff_mem, ho.2, Targets.lookup_isSome]

/-- The session of the Rust client does what the arm does. -/
theorem Rust.onMessage_open (ho : routes.Configures hostname o) (s : Rust.Session) (peer alpn : String)
    (stalled : Bool) : s.onMessage o stalled (.openConn conn peer (some sni) alpn) =
      some ((s.open hostname routes conn sni).session, (s.open hostname routes conn sni).sent) := by
  simp only [Session.onMessage, Session.open, ho.1]
  cases routeForSni sni hostname with
  | none => rfl
  | some route =>
    rw [Option.filter_some, ho.contains_eq, Option.bind_some]
    cases routes.lookup route with
    | none => rfl
    | some target => rfl

/-- The session of the TypeScript client does what `open` does, and nothing
when it throws. -/
theorem TypeScript.onControl_open (ho : routes.Configures hostname o) (hv : validateRoutes routes = .ok ())
    {s : TypeScript.Session} (hs : s.attached = true) (peer alpn : String) :
    s.onControl U o (.openConn conn peer (some sni) alpn) =
      match s.open U hostname routes conn sni with
      | .ok x => (x.session, x.sent)
      | .error _ => (s, []) := by
  simp only [Session.onControl, Session.open, ho.1]
  rw [if_neg (by simp [hs])]
  cases Names.routeForSni U sni hostname with
  | none => rfl
  | some route =>
    dsimp only
    rw [Option.map_some, Option.getD_some, ho.contains_eq]
    unfold property
    cases hl : routes.lookup route with
    | some target =>
      obtain ⟨-, parsed, hparsed⟩ := validateRoutes_ok.mp hv _ (Targets.mem_of_lookup hl)
      simp only [parseProperty, hparsed]
      rfl
    | none =>
      dsimp only
      by_cases hi : OBJECT_PROTOTYPE.contains route = true
      · rw [if_pos hi, if_pos hi]
        rfl
      · rw [if_neg hi, if_neg hi]
        rfl

end

/-! ### When each is answered -/

section

variable {U : Unicode} {hostname sni : String} {routes : Targets}

theorem Rust.answered (hostname : String) (routes : Targets) (sni : String) : Answered hostname routes sni := by
  intro s conn
  cases hroute : routeForSni sni hostname with
  | none =>
    refine .inr ⟨fun _ h => (nomatch h), ?_⟩
    simp only [Session.open, hroute, Option.bind_none]
  | some route =>
    cases hl : routes.lookup route with
    | some target =>
      refine .inl ⟨route, target, rfl, hl, ?_⟩
      simp only [Session.open, hroute, Option.bind_some, hl]
    | none =>
      refine .inr ⟨fun other h => ?_, ?_⟩
      · rw [← Option.some.inj h]
        exact Targets.lookup_eq_none.mp hl
      · simp only [Session.open, hroute, Option.bind_some, hl]

/-- The one inherited name that is the name of a route. -/
theorem TypeScript.inherited_route {route : String} (h : Names.routeForSni U sni hostname = some route)
    (hi : OBJECT_PROTOTYPE.contains route = true) : route = "constructor" := by
  have table : ∀ name ∈ OBJECT_PROTOTYPE, Names.isValidRoute name = true → name = "constructor" := by decide
  refine table route (List.contains_iff_mem.mp hi) ?_
  have h : Library.routeForSni U .typescript sni hostname = some route := h
  unfold Names.isValidRoute
  rcases (Library.routeForSni_iff .typescript).mp h with ⟨-, hroot⟩ | ⟨-, hlabel⟩
  · simp [hroot]
  · simp [hlabel]

/-- The TypeScript client answers, unless it finds no more than the constructor. -/
theorem TypeScript.answered_iff (hv : validateRoutes routes = .ok ()) : Answered U hostname routes sni ↔
    (Names.routeForSni U sni hostname = some "constructor" → "constructor" ∈ routes.names) := by
  constructor
  · intro hall hroute
    by_contra hno
    have hlookup := Targets.lookup_eq_none.mpr hno
    -- in some open session
    let s : Session := { readyState := .OPEN, attached := true, isOver := false, channels := fun _ => none, made := [] }
    have hthrows : s.open U hostname routes 0 sni = .error .lastIndexOf := by
      simp only [Session.open, hroute, Option.map_some, Option.getD_some, property, hlookup]
      rfl
    rcases hall s 0 rfl with ⟨_, _, _, _, _, _, hok⟩ | ⟨-, hok⟩
    · rw [hthrows] at hok
      cases hok
    · rw [hthrows] at hok
      cases hok
  · intro hown s conn hready
    have hreset : s.sendControl (.resetConn conn "unknown_route") = [.resetConn conn "unknown_route"] := if_pos hready
    cases hroute : Names.routeForSni U sni hostname with
    | none =>
      refine .inr ⟨fun _ h => (nomatch h), ?_⟩
      simp only [Session.open, hroute, hreset]
      rfl
    | some route =>
      cases hl : routes.lookup route with
      | some target =>
        obtain ⟨-, parsed, hparsed⟩ := validateRoutes_ok.mp hv _ (Targets.mem_of_lookup hl)
        refine .inl ⟨route, target, parsed, rfl, hl, hparsed, ?_⟩
        simp only [Session.open, hroute, Option.map_some, Option.getD_some, property, hl, parseProperty, hparsed]
        rfl
      | none =>
        have hno := Targets.lookup_eq_none.mp hl
        have hinherited : ¬ OBJECT_PROTOTYPE.contains route = true := fun hi => by
          obtain rfl := inherited_route hroute hi
          exact hno (hown hroute)
        refine .inr ⟨fun other h => by rw [← Option.some.inj h]; exact hno, ?_⟩
        simp only [Session.open, hroute, Option.map_some, Option.getD_some, property, hl, hinherited, hreset]
        rfl

/-- They choose alike when they find the same ones of the routes. -/
theorem chosen_alike_iff : Library.chosen U .rust hostname routes sni = Library.chosen U .typescript hostname routes sni ↔
    ∀ route ∈ routes.names, Library.routeForSni U .rust sni hostname = some route ↔
      Library.routeForSni U .typescript sni hostname = some route := by
  have hmem : ∀ (library : Library) (route : String), library.chosen U hostname routes sni = some route ↔
      route ∈ routes.names ∧ library.routeForSni U sni hostname = some route := fun library route => by
    unfold Library.chosen
    rw [Option.filter_eq_some_iff, Targets.lookup_isSome, and_comm]
  constructor
  · intro heq route hr
    have hboth := (hmem .rust route).symm.trans (heq ▸ hmem .typescript route)
    simpa [hr] using hboth
  · intro hall
    refine Option.ext fun route => ?_
    rw [hmem, hmem]
    exact and_congr_right fun hr => hall route hr

/-- Of accepted routes, both clients answer a server name, and alike, exactly
when it is readable. -/
theorem openAnswered_iff (hv : validateRoutes routes = .ok ()) :
    OpenAnswered U hostname routes sni ↔ Readable U hostname routes sni := by
  have hvalid : ∀ route ∈ routes.names, validRoute route = true := fun route hr => by
    obtain ⟨e, he, rfl⟩ := List.mem_map.mp hr
    exact (validateRoutes_ok.mp hv e he).1
  have hown : Names.routeForSni U sni hostname = some "constructor" ↔
      toLowerCase U sni = publicHostname "constructor" (toLowerCase U hostname) :=
    Library.routeForSni_public .typescript (by decide)
  have halike : ∀ route ∈ routes.names, (Library.routeForSni U .rust sni hostname = some route ↔
      Library.routeForSni U .typescript sni hostname = some route) ↔
        (toAsciiLowercase sni = publicHostname route (toAsciiLowercase hostname) ↔
          toLowerCase U sni = publicHostname route (toLowerCase U hostname)) := fun route hr =>
    iff_congr (Library.routeForSni_public .rust (hvalid route hr)) (Library.routeForSni_public .typescript (hvalid route hr))
  constructor
  · rintro ⟨hts, -, hsame⟩
    refine ⟨fun h => (TypeScript.answered_iff hv).mp hts (hown.mpr h), fun route hr => ?_⟩
    exact (halike route hr).mp (chosen_alike_iff.mp hsame route hr)
  · rintro ⟨h, hsame⟩
    refine ⟨(TypeScript.answered_iff hv).mpr fun hr => h (hown.mp hr), Rust.answered hostname routes sni, ?_⟩
    exact chosen_alike_iff.mpr fun route hr => (halike route hr).mpr (hsame route hr)

end

/-- The hostname's own route. -/
def rootTargets : Targets where
  entries := [("@", "localhost:3000")]
  nodup := by decide

theorem rootTargets_valid : validateRoutes rootTargets = .ok () := by decide

theorem openAnswered_api : OpenAnswered plainUnicode "t.d" rootTargets "API.t.d" := by
  refine (openAnswered_iff rootTargets_valid).mpr ⟨fun h => ?_, ?_⟩
  · exact absurd h (by decide)
  · decide

/-- The name of no route, but every object has a constructor. -/
theorem not_openAnswered : ¬ ∀ (U : Unicode) (hostname : String) (routes : Targets) (sni : String),
    validateRoutes routes = .ok () → OpenAnswered U hostname routes sni := by
  intro hall
  have hroute : Names.routeForSni plainUnicode "constructor.t.d" "t.d" = some "constructor" := by decide
  have hanswered := (hall plainUnicode "t.d" rootTargets "constructor.t.d" rootTargets_valid).typescript
  have hmem := (TypeScript.answered_iff rootTargets_valid).mp hanswered hroute
  revert hmem
  decide

end ShuvTunnel
