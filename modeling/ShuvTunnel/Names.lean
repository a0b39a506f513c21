/-
# Route names and public names

How a public host name is taken apart: `names.ts` and `names.rs` (the client
side, which resolve a server name on the tunnel's hostname), `index.ts` (the
Worker, which finds the tunnel in it), `random.ts` (the ids of tunnels) and
`config.rs` (the names the CLI prints). Both name modules check a label; the
Rust one goes over the bytes.

Key definitions: `Names.routeForSni`, `Rust.isLabel`, `Rust.routeForSni`,
`Library`, `tunnelIDFromHostname`, `publicHostname`, `TunnelID`.
Key theorems: `isLabel_eq`, `Library.routeForSni_iff`, `tunnelIDFromHostname_public`.
-/
import ShuvTunnel.Text

namespace ShuvTunnel

/-- The route name for the tunnel hostname itself. -/
def ROOT_ROUTE : String := "@"

/-- `value.endsWith(suffix) ? value.slice(0, -suffix.length) : undefined`, and
`value.strip_suffix(suffix)`. -/
def stripSuffix (value suffix : List Char) : Option (List Char) :=
  if suffix.isSuffixOf value then some (value.take (value.length - suffix.length)) else none

theorem stripSuffix_eq_some {value suffix rest : List Char} :
    stripSuffix value suffix = some rest ↔ value = rest ++ suffix := by
  unfold stripSuffix
  constructor
  · intro h
    split at h
    · rename_i hs
      obtain ⟨pre, rfl⟩ := List.isSuffixOf_iff_suffix.mp hs
      obtain rfl := Option.some.inj h
      simp
    · cases h
  · rintro rfl
    rw [if_pos (List.isSuffixOf_iff_suffix.mpr (List.suffix_append _ _))]
    simp

/-! ### `names.ts` -/

namespace Names

/-- `isValidRoute` of the protocol package. -/
def isValidRoute (value : String) : Bool := value = ROOT_ROUTE || labelRegex value.toList

/-- Resolves the route name for a TLS SNI on the given tunnel hostname. -/
def routeForSni (U : Unicode) (sni hostname : String) : Option String :=
  let name := toLowerCase U sni
  let host := toLowerCase U hostname
  if name = host then some ROOT_ROUTE
  else (stripSuffix name.toList ('.' :: host.toList)).bind fun route =>
    if labelRegex route then some (String.ofList route) else none

end Names

/-! ### `names.rs` -/

/-- The bytes of a text. -/
def utf8 (value : String) : Bytes := value.toList.flatMap String.utf8EncodeChar

namespace Rust

/-- A lower-case letter or a digit. -/
def validChar (byte : UInt8) : Bool :=
  (0x61 ≤ byte && byte ≤ 0x7A) || (0x30 ≤ byte && byte ≤ 0x39)

/-- `is_label`, over the bytes of the string. -/
def isLabel (value : String) : Bool :=
  match utf8 value with
  | [] => false
  | [only] => validChar only
  | first :: second :: rest =>
    (first :: second :: rest).length ≤ 63 && validChar first &&
      validChar ((second :: rest).getLast (List.cons_ne_nil _ _)) &&
      (second :: rest).dropLast.all fun byte => validChar byte || byte = 0x2D

/-- `is_valid_route`. -/
def isValidRoute (value : String) : Bool := value = ROOT_ROUTE || isLabel value

/-- Resolves the route name for a TLS SNI on the given tunnel hostname. -/
def routeForSni (sni hostname : String) : Option String :=
  let sni := toAsciiLowercase sni
  let hostname := toAsciiLowercase hostname
  if sni = hostname then some ROOT_ROUTE
  else ((stripSuffix sni.toList hostname.toList).bind fun label => stripSuffix label ['.']).bind fun label =>
    if isLabel (String.ofList label) then some (String.ofList label) else none

end Rust

/-! ### Labels -/

/-- A label, character by character. -/
def IsLabel {α : Type*} (edge inner : α → Bool) (xs : List α) : Prop :=
  xs.length ≤ 63 ∧ xs.head?.any edge = true ∧ xs.getLast?.any edge = true ∧ ∀ x ∈ xs, (edge x || inner x) = true

theorem labelRegex_iff {cs : List Char} : labelRegex cs = true ↔ IsLabel lowerAlnum (· = '-') cs := by
  unfold IsLabel
  cases cs with
  | nil => simp [labelRegex]
  | cons c cs =>
    rcases List.eq_nil_or_concat' cs with rfl | ⟨ds, z, rfl⟩
    · simp [labelRegex]
      exact fun h => .inl h
    · simp only [labelRegex, List.getLast?_concat, List.dropLast_concat, Bool.and_eq_true, decide_eq_true_eq,
        List.all_eq_true, List.length_cons, List.length_append, List.length_nil, List.head?_cons, Option.any_some]
      rw [show (c :: (ds ++ [z])).getLast? = some z by simp [List.getLast?_cons]]
      simp only [Option.any_some, List.mem_cons, List.mem_append, List.not_mem_nil, or_false, Bool.or_eq_true]
      constructor
      · rintro ⟨hc, ⟨hz, hlen⟩, hall⟩
        refine ⟨by omega, hc, hz, ?_⟩
        rintro x (rfl | hx | rfl)
        · exact .inl hc
        · simpa using hall x hx
        · exact .inl hz
      · rintro ⟨hlen, hc, hz, hall⟩
        exact ⟨hc, ⟨hz, by omega⟩, fun x hx => by simpa using hall x (.inr (.inl hx))⟩

theorem isLabel_iff {value : String} :
    Rust.isLabel value = true ↔ IsLabel Rust.validChar (· = 0x2D) (utf8 value) := by
  unfold Rust.isLabel IsLabel
  generalize utf8 value = bs
  match bs with
  | [] => simp
  | [only] =>
    simp
    exact fun h => .inl h
  | first :: second :: rest =>
    have hlast : (first :: second :: rest).getLast? = some ((second :: rest).getLast (List.cons_ne_nil _ _)) := by
      rw [List.getLast?_eq_some_getLast (List.cons_ne_nil _ _), List.getLast_cons (List.cons_ne_nil _ _)]
    have hsplit := List.dropLast_append_getLast (List.cons_ne_nil second rest)
    simp only [hlast, Bool.and_eq_true, decide_eq_true_eq, List.all_eq_true, List.head?_cons, Option.any_some,
      Bool.or_eq_true]
    constructor
    · rintro ⟨⟨⟨hlen, hf⟩, hl⟩, hall⟩
      refine ⟨hlen, hf, hl, fun x hx => ?_⟩
      rcases List.mem_cons.mp hx with rfl | hx
      · exact .inl hf
      · rw [← hsplit, List.mem_append, List.mem_singleton] at hx
        rcases hx with hx | rfl
        · exact hall x hx
        · exact .inl hl
    · rintro ⟨hlen, hf, hl, hall⟩
      exact ⟨⟨⟨hlen, hf⟩, hl⟩, fun x hx =>
        hall x (List.mem_cons_of_mem _ (List.dropLast_subset _ hx))⟩

theorem utf8EncodeChar_ascii {c : Char} (h : asciiChar c = true) :
    String.utf8EncodeChar c = [UInt8.ofNat c.toNat] := by
  have hc : c.val.toNat ≤ 0x7F := by
    simp only [asciiChar, decide_eq_true_eq] at h
    exact Nat.le_of_lt_succ h
  unfold String.utf8EncodeChar
  simp only [hc, if_true]
  rfl

/-- A character beyond ASCII has a byte that no label has. -/
theorem utf8EncodeChar_beyond {c : Char} (h : asciiChar c = false) :
    ∃ b ∈ String.utf8EncodeChar c, (Rust.validChar b || b = 0x2D) = false := by
  have hc : ¬ c.val.toNat ≤ 0x7F := by
    simp only [asciiChar, decide_eq_false_iff_not] at h
    exact fun hle => h (Nat.lt_succ_of_le hle)
  have last : ∀ n < 0x40, (Rust.validChar (UInt8.ofNat (n + 0x80)) || UInt8.ofNat (n + 0x80) = 0x2D) = false := by
    decide
  refine ⟨UInt8.ofNat (c.val.toNat % 0x40 + 0x80), ?_, last _ (Nat.mod_lt _ (by decide))⟩
  unfold String.utf8EncodeChar
  simp only [hc, if_false]
  split
  · simp
  · split <;> simp

/-- On ASCII the bytes are the characters. -/
theorem utf8_ascii {value : String} (h : ∀ c ∈ value.toList, asciiChar c = true) :
    utf8 value = value.toList.map fun c => UInt8.ofNat c.toNat := by
  unfold utf8
  rw [List.flatMap_def, List.map_congr_left fun c hc => utf8EncodeChar_ascii (h c hc)]
  generalize value.toList = cs
  induction cs with
  | nil => rfl
  | cons c cs ih => simpa using ih

/-- The characters of a label are ASCII. -/
theorem asciiChar_of_label {c : Char} (h : (lowerAlnum c || c = '-') = true) : asciiChar c = true := by
  simp only [lowerAlnum, Bool.or_eq_true, Bool.and_eq_true, decide_eq_true_eq] at h
  rcases h with (⟨-, hz⟩ | ⟨-, hz⟩) | rfl
  · have : c.toNat ≤ 122 := hz
    simp only [asciiChar, decide_eq_true_eq]
    omega
  · have : c.toNat ≤ 57 := hz
    simp only [asciiChar, decide_eq_true_eq]
    omega
  · rfl

/-- The two modules accept the same labels. -/
theorem isLabel_eq (value : String) : Rust.isLabel value = labelRegex value.toList := by
  have table : ∀ n < 128, Rust.validChar (UInt8.ofNat (Char.ofNat n).toNat) = lowerAlnum (Char.ofNat n) ∧
      (decide (UInt8.ofNat (Char.ofNat n).toNat = 0x2D) = decide (Char.ofNat n = '-')) := by
    decide
  have hchar : ∀ c : Char, asciiChar c = true → Rust.validChar (UInt8.ofNat c.toNat) = lowerAlnum c ∧
      (decide (UInt8.ofNat c.toNat = 0x2D) = decide (c = '-')) := by
    intro c hc
    have := table c.toNat (by simpa [asciiChar] using hc)
    rwa [Char.ofNat_toNat] at this
  rw [Bool.eq_iff_iff, isLabel_iff, labelRegex_iff]
  by_cases h : ∀ c ∈ value.toList, asciiChar c = true
  · rw [utf8_ascii h]
    generalize value.toList = cs at h
    unfold IsLabel
    have hhead : (cs.map fun c => UInt8.ofNat c.toNat).head?.any Rust.validChar = cs.head?.any lowerAlnum := by
      cases hcs : cs.head? with
      | none => simp [hcs]
      | some c => simp [hcs, (hchar c (h c (List.mem_of_head? hcs))).1]
    have hlast : (cs.map fun c => UInt8.ofNat c.toNat).getLast?.any Rust.validChar =
        cs.getLast?.any lowerAlnum := by
      cases hcs : cs.getLast? with
      | none => simp [hcs]
      | some c => simp [hcs, (hchar c (h c (List.mem_of_getLast? hcs))).1]
    have hall : (∀ b ∈ cs.map fun c => UInt8.ofNat c.toNat, (Rust.validChar b || b = 0x2D) = true) ↔
        ∀ c ∈ cs, (lowerAlnum c || c = '-') = true := by
      rw [List.forall_mem_map]
      refine forall_congr' fun c => imp_congr_right fun hc => ?_
      rw [(hchar c (h c hc)).1, (hchar c (h c hc)).2]
    rw [hhead, hlast, hall, List.length_map]
  · obtain ⟨c, h⟩ := not_forall.mp h
    obtain ⟨hc, hascii⟩ := Classical.not_imp.mp h
    have hascii : asciiChar c = false := by simpa using hascii
    constructor
    · rintro ⟨-, -, -, hall⟩
      obtain ⟨b, hb, hbad⟩ := utf8EncodeChar_beyond hascii
      have := hall b (List.mem_flatMap.mpr ⟨c, hc, hb⟩)
      rw [hbad] at this
      cases this
    · rintro ⟨-, -, -, hall⟩
      have := asciiChar_of_label (hall c hc)
      rw [hascii] at this
      cases this

/-! ### The two clients -/

/-- The two implementations of the protocol. -/
inductive Library
  | rust
  | typescript
  deriving DecidableEq

namespace Library

variable (U : Unicode)

/-- The lower-casing it resolves names in. -/
def lower : Library → String → String
  | rust, value => toAsciiLowercase value
  | typescript, value => toLowerCase U value

/-- `routeForSni` of either. -/
def routeForSni : Library → String → String → Option String
  | rust, sni, hostname => Rust.routeForSni sni hostname
  | typescript, sni, hostname => Names.routeForSni U sni hostname

variable {U}

/-- What is in lower case stays so in both clients. -/
theorem lower_eq_self (library : Library) {value : String} (h : ∀ c ∈ value.toList, U.Lower c) :
    library.lower U value = value := by
  cases library with
  | rust => exact toAsciiLowercase_eq_self h
  | typescript => exact toLowerCase_eq_self h

end Library

/-- A name is its own label and the rest of the hostname. -/
def subdomain (label hostname : String) : String := String.ofList (label.toList ++ '.' :: hostname.toList)

theorem toList_subdomain (label hostname : String) :
    (subdomain label hostname).toList = label.toList ++ '.' :: hostname.toList := by
  rw [subdomain, String.toList_ofList]

theorem subdomain_ne (label hostname : String) : subdomain label hostname ≠ hostname := by
  intro h
  have := congrArg (fun s => s.toList.length) h
  simp only [toList_subdomain, List.length_append, List.length_cons] at this
  omega

/-- `public_hostname(route, hostname)`. -/
def publicHostname (route hostname : String) : String :=
  if route = ROOT_ROUTE then hostname else subdomain route hostname

/-- Both clients resolve a name in their lower case: to the root route, or to
the label before the hostname. -/
theorem Library.routeForSni_iff {U : Unicode} (library : Library) {sni hostname route : String} :
    library.routeForSni U sni hostname = some route ↔
      (library.lower U sni = library.lower U hostname ∧ route = ROOT_ROUTE) ∨
      (library.lower U sni = subdomain route (library.lower U hostname) ∧ labelRegex route.toList = true) := by
  have key : ∀ (name host : String) (strip : Option (List Char)),
      (∀ label, strip = some label ↔ name.toList = label ++ '.' :: host.toList) →
      ((if name = host then some ROOT_ROUTE
        else strip.bind fun label => if labelRegex label then some (String.ofList label) else none) = some route ↔
        (name = host ∧ route = ROOT_ROUTE) ∨
        (name = subdomain route host ∧ labelRegex route.toList = true)) := by
    intro name host strip hstrip
    by_cases he : name = host
    · rw [if_pos he, he]
      constructor
      · exact fun h => .inl ⟨rfl, (Option.some.inj h).symm⟩
      · rintro (⟨-, rfl⟩ | ⟨h, -⟩)
        · rfl
        · exact absurd h.symm (subdomain_ne _ _)
    · rw [if_neg he, Option.bind_eq_some_iff]
      constructor
      · rintro ⟨label, hl, h⟩
        split at h
        · rename_i hlabel
          obtain rfl := Option.some.inj h
          refine .inr ⟨?_, by rwa [String.toList_ofList]⟩
          rw [← String.toList_inj, toList_subdomain, String.toList_ofList]
          exact (hstrip label).mp hl
        · cases h
      · rintro (⟨h, -⟩ | ⟨h, hlabel⟩)
        · exact absurd h he
        · refine ⟨route.toList, (hstrip _).mpr (by rw [h, toList_subdomain]), ?_⟩
          rw [if_pos hlabel, String.ofList_toList]
  cases library with
  | typescript => exact key _ _ _ fun label => stripSuffix_eq_some
  | rust =>
    have hcongr : (fun label : List Char =>
        if Rust.isLabel (String.ofList label) then some (String.ofList label) else none) =
        fun label => if labelRegex label then some (String.ofList label) else none := by
      funext label
      rw [isLabel_eq, String.toList_ofList]
    show Rust.routeForSni sni hostname = some route ↔ _
    unfold Rust.routeForSni
    rw [hcongr]
    refine key _ _ _ fun label => ?_
    rw [Option.bind_eq_some_iff]
    constructor
    · rintro ⟨rest, h, h'⟩
      rw [stripSuffix_eq_some.mp h, stripSuffix_eq_some.mp h']
      simp
    · intro h
      exact ⟨label ++ ['.'], stripSuffix_eq_some.mpr (by rw [h]; simp), stripSuffix_eq_some.mpr rfl⟩

/-! ### The Worker -/

/-- `labels.at(-1) || undefined`, of one or two labels before the domain. -/
def tunnelIDFromHostname (U : Unicode) (hostname domain : String) : Option String :=
  (stripSuffix hostname.toList ('.' :: (toLowerCase U domain).toList)).bind fun rest =>
    let labels := rest.splitOn '.'
    if labels.length = 0 || labels.length > 2 then none
    else truthy (labels.getLast?.map String.ofList)

/-! ### The ids of tunnels -/

/-- The characters of a tunnel's id. -/
def alphabet : String := "abcdefghijklmnopqrstuvwxyz234567"

/-- `slug(length)`, of the random bytes it draws. -/
def slug (bytes : Bytes) : String :=
  String.ofList (bytes.map fun byte => alphabet.toList.getD (byte.toNat &&& 31) 'a')

/-- A tunnel's id: a text over the alphabet. -/
structure TunnelID where
  value : String
  nonempty : value ≠ ""
  overAlphabet : ∀ c ∈ value.toList, c ∈ alphabet.toList

/-- What `slug` draws is one. -/
def TunnelID.ofSlug (bytes : Bytes) (h : bytes ≠ []) : TunnelID where
  value := slug bytes
  nonempty he := by
    have := congrArg String.toList he
    rw [slug, String.toList_ofList] at this
    exact h (List.map_eq_nil_iff.mp this)
  overAlphabet c hc := by
    rw [slug, String.toList_ofList] at hc
    obtain ⟨b, -, rfl⟩ := List.mem_map.mp hc
    have hlt : b.toNat &&& 31 < alphabet.toList.length := Nat.lt_of_le_of_lt Nat.and_le_right (by decide)
    rw [List.getD_eq_getElem?_getD, List.getElem?_eq_getElem hlt]
    exact List.getElem_mem hlt

namespace TunnelID

variable (id : TunnelID)

theorem not_mem_dot : '.' ∉ id.value.toList := fun h => by
  have := id.overAlphabet _ h
  revert this
  decide

theorem lower {U : Unicode} : ∀ c ∈ id.value.toList, U.Lower c := by
  have table : alphabet.toList.all (fun c => asciiChar c && !c.isUpper) = true := by decide
  intro c hc
  have hok := List.all_eq_true.mp table c (id.overAlphabet c hc)
  simp only [Bool.and_eq_true, Bool.not_eq_true'] at hok
  obtain ⟨ha, hu⟩ := hok
  unfold Unicode.Lower
  rwa [if_pos ha]

end TunnelID

/-- A valid route holds no upper-case character. -/
theorem validRoute_lower {U : Unicode} {route : String} (h : validRoute route = true) :
    ∀ c ∈ route.toList, U.Lower c := by
  have hroot : ∀ c ∈ "@".toList, asciiChar c = true ∧ c.isUpper = false := by
    intro c hc
    obtain rfl := List.mem_singleton.mp hc
    exact ⟨rfl, rfl⟩
  have table : ∀ n < 128, lowerAlnum (Char.ofNat n) = true ∨ Char.ofNat n = '-' →
      (Char.ofNat n).isUpper = false := by decide
  intro c hc
  have hok : asciiChar c = true ∧ c.isUpper = false := by
    simp only [validRoute, Bool.or_eq_true, decide_eq_true_eq] at h
    rcases h with rfl | h
    · exact hroot c hc
    · have := (labelRegex_iff.mp h).2.2.2 c hc
      have hascii := asciiChar_of_label this
      refine ⟨hascii, ?_⟩
      have hu := table c.toNat (by simpa [asciiChar] using hascii)
      rw [Char.ofNat_toNat] at hu
      exact hu (by simpa using this)
  unfold Unicode.Lower
  rw [if_pos hok.1]
  exact hok.2

/-- The hostname of a tunnel. -/
def TunnelID.hostname (id : TunnelID) (domain : String) : String := subdomain id.value domain

theorem lower_subdomain {U : Unicode} {label hostname : String} (hl : ∀ c ∈ label.toList, U.Lower c)
    (hh : ∀ c ∈ hostname.toList, U.Lower c) : ∀ c ∈ (subdomain label hostname).toList, U.Lower c := by
  rw [toList_subdomain]
  intro c hc
  rcases List.mem_append.mp hc with hc | hc
  · exact hl c hc
  · rcases List.mem_cons.mp hc with rfl | hc
    · have : asciiChar '.' = true := rfl
      unfold Unicode.Lower
      rw [if_pos this]
      rfl
    · exact hh c hc

theorem lower_publicHostname {U : Unicode} {route hostname : String} (hr : validRoute route = true)
    (hh : ∀ c ∈ hostname.toList, U.Lower c) : ∀ c ∈ (publicHostname route hostname).toList, U.Lower c := by
  unfold publicHostname
  split
  · exact hh
  · exact lower_subdomain (validRoute_lower hr) hh

/-- The Worker finds the tunnel in each of its public names. -/
theorem tunnelIDFromHostname_public {U : Unicode} {domain route : String} (hd : toLowerCase U domain = domain)
    (id : TunnelID) (hr : validRoute route = true) :
    tunnelIDFromHostname U (publicHostname route (id.hostname domain)) domain = some id.value := by
  have hsome : truthy (some (String.ofList id.value.toList)) = some id.value := by
    rw [String.ofList_toList]
    exact truthy_eq_some.mpr ⟨rfl, id.nonempty⟩
  unfold tunnelIDFromHostname publicHostname TunnelID.hostname
  rw [hd]
  by_cases hroot : route = ROOT_ROUTE
  · have hstrip : stripSuffix (subdomain id.value domain).toList ('.' :: domain.toList) = some id.value.toList :=
      stripSuffix_eq_some.mpr (toList_subdomain _ _)
    rw [if_pos hroot, hstrip, Option.bind_some, List.splitOn_eq_singleton id.not_mem_dot]
    exact hsome
  · have hlabels : (route.toList ++ '.' :: id.value.toList).splitOn '.' = [route.toList, id.value.toList] := by
      rw [List.splitOn_append_cons_self_of_not_mem (validRoute_spec hr).2,
        List.splitOn_eq_singleton id.not_mem_dot]
    have hstrip : stripSuffix (subdomain route (subdomain id.value domain)).toList ('.' :: domain.toList) =
        some (route.toList ++ '.' :: id.value.toList) := by
      rw [stripSuffix_eq_some, toList_subdomain, toList_subdomain]
      simp
    rw [if_neg hroot, hstrip, Option.bind_some, hlabels]
    exact hsome

end ShuvTunnel
