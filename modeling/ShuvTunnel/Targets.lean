/-
# The routes of a client and their targets

A client is started with a map from route names to targets, `host:port`, which
both clients check first (`validateRoutes`, `validate_route`). `parseTarget`
takes a target apart in TypeScript, `parse_target` in Rust, which also takes a
sign before the port and more leading zeros: what the first accepts, the second
reads alike.

Key definitions: `Targets`, `Names.parseTarget`, `Rust.parse_target`,
`validateRoutes`.
Key theorems: `Rust.parse_target_of_parseTarget`, `Rust.validate_of_validateRoutes`.
-/
import ShuvTunnel.Names
import ShuvTunnel.Lib.OrderedMap

namespace ShuvTunnel

/-- The routes of a client: an object, or a map, from names to targets. -/
structure Targets where
  entries : List (String × String)
  nodup : (OrderedMap.keys entries).Nodup

namespace Targets

/-- The names of the routes, in the order of their insertion. -/
def names (routes : Targets) : List String := OrderedMap.keys routes.entries

/-- The target configured for a route. -/
def lookup (routes : Targets) (name : String) : Option String := routes.entries.lookup name

theorem lookup_isSome {routes : Targets} {name : String} : (routes.lookup name).isSome = true ↔ name ∈ routes.names :=
  OrderedMap.lookup_isSome

theorem lookup_eq_none {routes : Targets} {name : String} : routes.lookup name = none ↔ name ∉ routes.names :=
  OrderedMap.lookup_eq_none

theorem mem_of_lookup {routes : Targets} {name target : String} (h : routes.lookup name = some target) :
    (name, target) ∈ routes.entries := by
  obtain ⟨before, behind, he, -⟩ := List.lookup_eq_some_iff.mp h
  rw [he]
  exact List.mem_append_right _ List.mem_cons_self

end Targets

/-! ### Targets -/

/-- What is before the last of a character and what is behind it. -/
def splitLast (c : Char) (value : List Char) : Option (List Char × List Char) :=
  if value.contains c then
    some ((value.reverse.dropWhile (· ≠ c)).tail.reverse, (value.reverse.takeWhile (· ≠ c)).reverse)
  else none

/-- The number in decimal digits. -/
def decimal (digits : List Char) : ℕ := digits.foldl (fun n c => 10 * n + (c.toNat - '0'.toNat)) 0

/-- `[A-Za-z0-9.\-:_]`. -/
def hostChar (c : Char) : Bool := c.isAlphanum || c = '.' || c = '-' || c = ':' || c = '_'

/-- Where a route leads. -/
structure Target where
  host : String
  port : ℕ
  deriving DecidableEq

namespace Names

/-- `host` without the brackets of an IPv6 address. -/
def unbracket (host : List Char) : Option (List Char) :=
  if ['['].isPrefixOf host then if [']'].isSuffixOf host then some (host.drop 1).dropLast else none
  else some host

/-- Validates a `host:port` route target and returns its parts. -/
def parseTarget (value : String) : Option Target :=
  (splitLast ':' value.toList).bind fun (host, portText) =>
    if !(1 ≤ portText.length && portText.length ≤ 5 && portText.all Char.isDigit) then none
    else if decimal portText < 1 || 65535 < decimal portText then none
    else (unbracket host).bind fun host =>
      if !host.isEmpty && host.all hostChar then some ⟨String.ofList host, decimal portText⟩ else none

end Names

namespace Rust

/-- A number may begin with a sign. -/
def stripSign : List Char → List Char
  | '+' :: rest => rest
  | text => text

/-- `port.parse::<u16>()`. -/
def parseU16 (text : List Char) : Option ℕ :=
  let digits := stripSign text
  if digits.isEmpty || !digits.all Char.isDigit then none
  else if decimal digits ≤ 65535 then some (decimal digits) else none

/-- `host` without the brackets of an IPv6 address. -/
def unbracket : List Char → Option (List Char)
  | '[' :: inner => stripSuffix inner [']']
  | host => some host

/-- Validates a `host:port` route target and returns its parts. -/
def parse_target (value : String) : Option (String × ℕ) :=
  (splitLast ':' value.toList).bind fun (host, port) =>
    ((parseU16 port).filter fun port => port ≠ 0).bind fun port =>
      (unbracket host).bind fun host =>
        if !host.isEmpty && host.all hostChar then some (String.ofList host, port) else none

theorem parseU16_of_digits {text : List Char} (hne : text ≠ []) (hall : text.all Char.isDigit = true)
    (hle : decimal text ≤ 65535) : parseU16 text = some (decimal text) := by
  -- a digit is no sign
  have hsign : stripSign text = text := by
    unfold stripSign
    split
    · rename_i rest
      have hplus : Char.isDigit '+' = true := List.all_eq_true.mp hall _ List.mem_cons_self
      cases hplus
    · rfl
  unfold parseU16
  rw [hsign, if_neg (by simpa [hall] using hne), if_pos hle]

/-- Both take the brackets off alike. -/
theorem unbracket_eq (host : List Char) : unbracket host = Names.unbracket host := by
  unfold unbracket Names.unbracket
  split
  · rename_i inner
    have hopens : ['['].isPrefixOf ('[' :: inner) = true := rfl
    rw [if_pos hopens]
    -- the bracket at the end is another one than that at the beginning
    cases inner.eq_nil_or_concat' with
    | inl hnil =>
      rw [hnil]
      rfl
    | inr hconcat =>
      obtain ⟨init, last, rfl⟩ := hconcat
      unfold stripSuffix
      by_cases hlast : ']' = last
      · simp [List.isSuffixOf, ← hlast]
      · simp [List.isSuffixOf, hlast]
  · rename_i hhost
    rw [if_neg]
    intro hopens
    obtain ⟨rest, rfl⟩ := List.isPrefixOf_iff_prefix.mp hopens
    exact hhost rest rfl

/-- What the TypeScript client takes for a target, the Rust client reads alike. -/
theorem parse_target_of_parseTarget {value : String} {target : Target} (h : Names.parseTarget value = some target) :
    parse_target value = some (target.host, target.port) := by
  obtain ⟨⟨host, portText⟩, hsplit, h⟩ := Option.bind_eq_some_iff.mp h
  dsimp only at h
  split at h
  · cases h
  · rename_i hdigits
    split at h
    · cases h
    · rename_i hrange
      obtain ⟨inner, hinner, h⟩ := Option.bind_eq_some_iff.mp h
      split at h
      · rename_i hhost
        obtain rfl := Option.some.inj h
        simp only [Bool.not_eq_true, Bool.not_eq_false', Bool.and_eq_true, decide_eq_true_eq] at hdigits
        simp only [Bool.or_eq_true, decide_eq_true_eq, not_or, not_lt] at hrange
        obtain ⟨⟨hlen, -⟩, hall⟩ := hdigits
        have hne : portText ≠ [] := List.length_pos_iff.mp hlen
        have hport := parseU16_of_digits hne hall hrange.2
        have hpos : decide (decimal portText ≠ 0) = true := decide_eq_true (by omega)
        unfold parse_target
        rw [hsplit, Option.bind_some]
        dsimp only
        rw [hport, Option.filter_some, if_pos hpos, Option.bind_some, unbracket_eq, hinner, Option.bind_some,
          if_pos hhost]
      · cases h

end Rust

/-! ### The check of the routes -/

/-- One turn of the loop in `validateRoutes`. -/
def validateEntry (entry : String × String) : Except String Unit :=
  if !Names.isValidRoute entry.1 then .error ("Invalid route name '" ++ entry.1 ++ "'")
  else if (Names.parseTarget entry.2).isNone then
    .error ("Invalid target '" ++ entry.2 ++ "' for route '" ++ entry.1 ++ "': use host:port")
  else .ok ()

/-- `validateRoutes`: the first entry that is not valid is the error. -/
def validateRoutes (routes : Targets) : Except String Unit := routes.entries.forM validateEntry

namespace Rust

/-- One entry of `validate`: its name, and then its target. -/
def validate_route (entry : String × String) : Except String Unit :=
  if !isValidRoute entry.1 then .error ("invalid route name '" ++ entry.1 ++ "'")
  else if (parse_target entry.2).isNone then
    .error ("invalid target '" ++ entry.2 ++ "' for route '" ++ entry.1 ++ "': use host:port")
  else .ok ()

/-- `validate`: the first entry that is not valid is the error. -/
def validate (routes : Targets) : Except String Unit := routes.entries.forM validate_route

end Rust

/-- A loop that throws at nothing. -/
theorem forM_ok {α : Type} {check : α → Except String Unit} {xs : List α} :
    xs.forM check = .ok () ↔ ∀ x ∈ xs, check x = .ok () := by
  induction xs with
  | nil => simp [pure, Except.pure]
  | cons x xs ih =>
    show (check x >>= fun _ => xs.forM check) = .ok () ↔ _
    rw [List.forall_mem_cons, ← ih]
    cases check x with
    | error e => simp [bind, Except.bind]
    | ok u => simp [bind, Except.bind]

theorem validateRoutes_ok {routes : Targets} : validateRoutes routes = .ok () ↔
    ∀ e ∈ routes.entries, Names.isValidRoute e.1 = true ∧ ∃ target, Names.parseTarget e.2 = some target := by
  refine forM_ok.trans (forall_congr' fun e => imp_congr_right fun _ => ?_)
  unfold validateEntry
  cases hname : Names.isValidRoute e.1 with
  | false => simp
  | true =>
    cases htarget : Names.parseTarget e.2 with
    | none => simp
    | some target => simp

/-- What the TypeScript client accepts, the Rust client accepts. -/
theorem Rust.validate_of_validateRoutes {routes : Targets} (h : validateRoutes routes = .ok ()) :
    Rust.validate routes = .ok () := by
  refine forM_ok.mpr fun e he => ?_
  obtain ⟨hname, target, htarget⟩ := validateRoutes_ok.mp h e he
  have hname : Rust.isValidRoute e.1 = true := by
    rw [← hname]
    unfold Rust.isValidRoute Names.isValidRoute
    rw [isLabel_eq]
  unfold Rust.validate_route
  rw [hname, parse_target_of_parseTarget htarget]
  rfl

end ShuvTunnel
