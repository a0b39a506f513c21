/-
# The grammars that are written twice

Route names, profile names, server names and targets are each read by a Rust
function and a TypeScript one, and route names by the object's own `validRoute`
too. On names they agree everywhere. On targets they agree but for the port:
`str::parse` takes a plus sign before it and any number of leading zeros, the
regular expression of `parseTarget` one to five digits.

Key definitions: `Rust.isValidProfile`, `EqIgnoreCase`, `PortInRange`,
`ValidHost`, `PlainPort`.
Key theorems: `names_agree`, `targets_agree_iff`.
-/
import ShuvTunnel.Storage
import ShuvTunnel.Targets

namespace ShuvTunnel

/-! ### Names -/

/-- A profile's name in Rust is a label. -/
def Rust.isValidProfile (value : String) : Bool := isLabel value

/-- `a.eq_ignore_ascii_case(b)`. -/
def EqIgnoreCase (a b : String) : Prop := toAsciiLowercase a = toAsciiLowercase b

theorem Rust.isValidRoute_eq (value : String) : Rust.isValidRoute value = Names.isValidRoute value := by
  unfold Rust.isValidRoute Names.isValidRoute
  rw [isLabel_eq]

/-- A label stays in lower case, so it may be lowered with the rest of the name. -/
theorem toAsciiLowercase_publicHostname {route : String} (h : Names.isValidRoute route = true) (hostname : String) :
    toAsciiLowercase (publicHostname route hostname) = publicHostname route (toAsciiLowercase hostname) := by
  unfold publicHostname
  by_cases hroot : route = ROOT_ROUTE
  · rw [if_pos hroot, if_pos hroot]
  · rw [if_neg hroot, if_neg hroot]
    have hvalid : validRoute route = true := h
    have hlower : ∀ c ∈ route.toList, plainUnicode.Lower c := validRoute_lower hvalid
    have hself := toAsciiLowercase_eq_self hlower
    have hchars := congrArg String.toList hself
    rw [toAsciiLowercase, String.toList_ofList] at hchars
    rw [← String.toList_inj, toList_subdomain, toAsciiLowercase, String.toList_ofList, toList_subdomain,
      List.map_append, hchars, List.map_cons, toAsciiLowercase, String.toList_ofList]
    rfl

theorem Rust.routeForSni_iff {sni hostname route : String} : Rust.routeForSni sni hostname = some route ↔
    Names.isValidRoute route = true ∧ EqIgnoreCase sni (publicHostname route hostname) := by
  have hresolves : Rust.routeForSni sni hostname = some route ↔
      (toAsciiLowercase sni = toAsciiLowercase hostname ∧ route = ROOT_ROUTE) ∨
      (toAsciiLowercase sni = subdomain route (toAsciiLowercase hostname) ∧ labelRegex route.toList = true) :=
    Library.routeForSni_iff (U := plainUnicode) .rust
  rw [hresolves]
  constructor
  · rintro (⟨hname, rfl⟩ | ⟨hname, hlabel⟩)
    · exact ⟨rfl, hname⟩
    · have hvalid : Names.isValidRoute route = true := by simp [Names.isValidRoute, hlabel]
      have hroot : route ≠ ROOT_ROUTE := fun hr => by
        rw [hr] at hlabel
        revert hlabel
        decide
      refine ⟨hvalid, ?_⟩
      unfold EqIgnoreCase
      rw [toAsciiLowercase_publicHostname hvalid, publicHostname, if_neg hroot, hname]
  · rintro ⟨hvalid, hname⟩
    unfold EqIgnoreCase at hname
    rw [toAsciiLowercase_publicHostname hvalid] at hname
    by_cases hroot : route = ROOT_ROUTE
    · rw [hroot, publicHostname, if_pos rfl] at hname
      exact .inl ⟨hname, hroot⟩
    · rw [publicHostname, if_neg hroot] at hname
      exact .inr ⟨hname, by simpa [Names.isValidRoute, hroot] using hvalid⟩

/-- The three checks of a route name agree, the two of a profile name do, and on
ASCII names both clients resolve a server name to the route whose public name it
is. -/
theorem names_agree (U : Unicode) :
    (∀ value, Rust.isValidRoute value = Names.isValidRoute value ∧ validRoute value = Names.isValidRoute value) ∧
    (∀ value, Rust.isValidProfile value = Names.isValidProfile value) ∧
    ∀ sni hostname : String, (∀ c ∈ sni.toList, asciiChar c = true) → (∀ c ∈ hostname.toList, asciiChar c = true) →
      Names.routeForSni U sni hostname = Rust.routeForSni sni hostname ∧
      ∀ route, Rust.routeForSni sni hostname = some route ↔
        Names.isValidRoute route = true ∧ EqIgnoreCase sni (publicHostname route hostname) := by
  refine ⟨fun value => ⟨Rust.isValidRoute_eq value, rfl⟩, isLabel_eq, fun sni hostname hsni hhost =>
    ⟨?_, fun route => Rust.routeForSni_iff⟩⟩
  -- both find the route the same way in their lower case, which is one on ASCII
  apply Option.ext
  intro route
  have hts : Names.routeForSni U sni hostname = some route ↔ _ := Library.routeForSni_iff (U := U) .typescript
  have hrust : Rust.routeForSni sni hostname = some route ↔ _ := Library.routeForSni_iff (U := U) .rust
  simp only [Library.lower, toLowerCase_ascii hsni, toLowerCase_ascii hhost] at hts hrust
  exact hts.trans hrust.symm

theorem names_agree_mixed : Names.routeForSni plainUnicode "Api.T.d" "t.D" = Rust.routeForSni "Api.T.d" "t.D" :=
  ((names_agree plainUnicode).2.2 "Api.T.d" "t.D" (List.all_eq_true.mp (by decide)) (List.all_eq_true.mp (by decide))).1

/-! ### Targets -/

/-- The port is a number of 16 bits that is not zero, when it is read as
`str::parse` reads it. -/
def PortInRange (port : List Char) : Prop :=
  (Rust.stripSign port ≠ [] ∧ (Rust.stripSign port).all Char.isDigit = true) ∧
    1 ≤ decimal (Rust.stripSign port) ∧ decimal (Rust.stripSign port) ≤ 65535

/-- The host, with its brackets off, is of the characters of a host. -/
def ValidHost (host : List Char) : Prop :=
  ∃ inner, Names.unbracket host = some inner ∧ inner ≠ [] ∧ inner.all hostChar = true

/-- A target that is well formed otherwise has no sign before its port and no
more than five digits in it. -/
def PlainPort (target : String) : Prop :=
  ∀ host port, splitLast ':' target.toList = some (host, port) → ValidHost host → PortInRange port →
    port.head? ≠ some '+' ∧ port.length ≤ 5

theorem Rust.parseU16_pos {port : List Char} :
    ((Rust.parseU16 port).filter fun n => n ≠ 0).isSome = true ↔ PortInRange port := by
  unfold Rust.parseU16 PortInRange
  dsimp only
  by_cases hdigits : Rust.stripSign port ≠ [] ∧ (Rust.stripSign port).all Char.isDigit = true
  · rw [if_neg (by simpa using hdigits)]
    by_cases hle : decimal (Rust.stripSign port) ≤ 65535
    · rw [if_pos hle, Option.filter_some]
      by_cases hzero : decimal (Rust.stripSign port) = 0
      · simp [hzero]
      · have hpos : 1 ≤ decimal (Rust.stripSign port) := by omega
        simp [hzero, hdigits, hpos, hle]
    · rw [if_neg hle]
      simp [hle]
  · rw [if_pos (by simpa [← or_iff_not_imp_left] using hdigits)]
    simp only [Option.filter_none, Option.isSome_none, Bool.false_eq_true, false_iff, not_and]
    exact fun h => absurd h hdigits

theorem validHost_iff {host : List Char} : ValidHost host ↔
    ∃ inner, Names.unbracket host = some inner ∧ (!inner.isEmpty && inner.all hostChar) = true := by
  unfold ValidHost
  simp

/-- What `parse_target` accepts. -/
theorem Rust.parse_target_isSome {value : String} : (Rust.parse_target value).isSome = true ↔
    ∃ host port, splitLast ':' value.toList = some (host, port) ∧ ValidHost host ∧ PortInRange port := by
  simp only [validHost_iff, ← Rust.parseU16_pos, ← Rust.unbracket_eq]
  constructor
  · intro h
    obtain ⟨target, h⟩ := Option.isSome_iff_exists.mp h
    obtain ⟨⟨host, port⟩, hsplit, h⟩ := Option.bind_eq_some_iff.mp h
    obtain ⟨n, hn, h⟩ := Option.bind_eq_some_iff.mp h
    obtain ⟨inner, hinner, h⟩ := Option.bind_eq_some_iff.mp h
    split at h
    · rename_i hvalid
      exact ⟨host, port, hsplit, ⟨inner, hinner, hvalid⟩, Option.isSome_iff_exists.mpr ⟨n, hn⟩⟩
    · cases h
  · rintro ⟨host, port, hsplit, ⟨inner, hinner, hvalid⟩, hport⟩
    obtain ⟨n, hn⟩ := Option.isSome_iff_exists.mp hport
    unfold Rust.parse_target
    rw [hsplit, Option.bind_some]
    dsimp only
    rw [hn, Option.bind_some, hinner, Option.bind_some, if_pos hvalid]
    rfl

/-- Without a sign what is behind it is the whole. -/
theorem Rust.stripSign_eq_self {port : List Char} (h : port.head? ≠ some '+') : Rust.stripSign port = port := by
  unfold Rust.stripSign
  split
  · exact absurd rfl h
  · rfl

/-- What `parseTarget` accepts. -/
theorem Names.parseTarget_isSome {value : String} : (Names.parseTarget value).isSome = true ↔
    ∃ host port, splitLast ':' value.toList = some (host, port) ∧ ValidHost host ∧ PortInRange port ∧
      port.head? ≠ some '+' ∧ port.length ≤ 5 := by
  simp only [validHost_iff]
  constructor
  · intro h
    obtain ⟨target, h⟩ := Option.isSome_iff_exists.mp h
    obtain ⟨⟨host, port⟩, hsplit, h⟩ := Option.bind_eq_some_iff.mp h
    dsimp only at h
    split at h
    · cases h
    · rename_i hdigits
      split at h
      · cases h
      · rename_i hrange
        obtain ⟨inner, hinner, h⟩ := Option.bind_eq_some_iff.mp h
        split at h
        · rename_i hvalid
          simp only [Bool.not_eq_true, Bool.not_eq_false', Bool.and_eq_true, decide_eq_true_eq] at hdigits
          simp only [Bool.or_eq_true, decide_eq_true_eq, not_or, not_lt] at hrange
          obtain ⟨⟨hpos, hlen⟩, hall⟩ := hdigits
          have hne : port ≠ [] := List.length_pos_iff.mp hpos
          have hsign : port.head? ≠ some '+' := fun hp => by
            have hplus : Char.isDigit '+' = true := List.all_eq_true.mp hall _ (List.mem_of_mem_head? hp)
            cases hplus
          refine ⟨host, port, hsplit, ⟨inner, hinner, hvalid⟩, ?_, hsign, hlen⟩
          unfold PortInRange
          rw [Rust.stripSign_eq_self hsign]
          exact ⟨⟨hne, hall⟩, hrange⟩
        · cases h
  · rintro ⟨host, port, hsplit, ⟨inner, hinner, hvalid⟩, hport, hsign, hlen⟩
    unfold PortInRange at hport
    rw [Rust.stripSign_eq_self hsign] at hport
    obtain ⟨⟨hne, hall⟩, hpos, hle⟩ := hport
    have hlength : 1 ≤ port.length := List.length_pos_iff.mpr hne
    unfold Names.parseTarget
    rw [hsplit, Option.bind_some]
    dsimp only
    rw [if_neg (by simp [hlength, hlen, hall]), if_neg (by simp; omega), hinner, Option.bind_some, if_pos hvalid]
    rfl

/-- Both clients take a target apart alike, or both reject it, exactly when its
port is written plainly. -/
theorem targets_agree_iff (value : String) :
    Rust.parse_target value = (Names.parseTarget value).map (fun target => (target.host, target.port)) ↔
      PlainPort value := by
  constructor
  · intro hagree host port hsplit hhost hport
    have hrust : (Rust.parse_target value).isSome = true :=
      Rust.parse_target_isSome.mpr ⟨host, port, hsplit, hhost, hport⟩
    rw [hagree, Option.isSome_map] at hrust
    obtain ⟨host', port', hsplit', -, -, hplain⟩ := Names.parseTarget_isSome.mp hrust
    obtain ⟨rfl, rfl⟩ := Prod.mk.inj (Option.some.inj (hsplit.symm.trans hsplit'))
    exact hplain
  · intro hplain
    cases hts : Names.parseTarget value with
    | some target => exact Rust.parse_target_of_parseTarget hts
    | none =>
      rw [Option.map_none, ← Option.not_isSome_iff_eq_none, Rust.parse_target_isSome]
      rintro ⟨host, port, hsplit, hhost, hport⟩
      have haccepts := Names.parseTarget_isSome.mpr
        ⟨host, port, hsplit, hhost, hport, hplain host port hsplit hhost hport⟩
      rw [hts] at haccepts
      cases haccepts

/-- Rust takes `localhost:+80`, and TypeScript does not. -/
theorem not_targets_agree : ¬ ∀ value : String,
    Rust.parse_target value = (Names.parseTarget value).map (fun target => (target.host, target.port)) := by
  intro h
  have hsigned := h "localhost:+80"
  revert hsigned
  decide

end ShuvTunnel
