/-
# Texts

What the code asks of its languages' strings: the UTF-8 decoder of the
Encoding Standard (`TextDecoder`, which replaces what is not UTF-8 and drops a
byte order mark) and the two lower-casings, JavaScript's `toLowerCase` and
Rust's `to_ascii_lowercase`. They agree on ASCII; what `toLowerCase` makes of
the other characters is Unicode's table, which the model takes as given.

Key definitions: `TextDecoder.decode`, `Unicode`, `toLowerCase`,
`toAsciiLowercase`.
Key theorems: `decode_ascii`, `toLowerCase_ascii`, `lower_toLowerCase`,
`toLowerCase_eq_self`.
-/
import ShuvTunnel.Bridge

namespace ShuvTunnel

/-! ### `TextDecoder` -/

namespace TextDecoder

/-- Within a character: the bytes still needed, the code point so far, and the
bounds of the next byte. -/
structure Pending where
  needed : ℕ
  codePoint : ℕ
  lower : ℕ
  upper : ℕ

/-- Between characters. -/
def idle : Pending := ⟨0, 0, 0x80, 0xBF⟩

/-- What a decoder puts where the bytes are not well-formed. -/
def replacement : Char := Char.ofNat 0xFFFD

/-- The first byte of a character. -/
def first (b : ℕ) : List Char × Pending :=
  if b ≤ 0x7F then ([Char.ofNat b], idle)
  else if 0xC2 ≤ b ∧ b ≤ 0xDF then ([], ⟨1, b % 0x20, 0x80, 0xBF⟩)
  else if 0xE0 ≤ b ∧ b ≤ 0xEF then
    ([], ⟨2, b % 0x10, if b = 0xE0 then 0xA0 else 0x80, if b = 0xED then 0x9F else 0xBF⟩)
  else if 0xF0 ≤ b ∧ b ≤ 0xF4 then
    ([], ⟨3, b % 0x08, if b = 0xF0 then 0x90 else 0x80, if b = 0xF4 then 0x8F else 0xBF⟩)
  else ([replacement], idle)

/-- One byte; one that cannot go on with the character begins another. -/
def step (p : Pending) (b : ℕ) : List Char × Pending :=
  if p.needed = 0 then first b
  else if b < p.lower ∨ p.upper < b then (replacement :: (first b).1, (first b).2)
  else
    let codePoint := 0x40 * p.codePoint + b % 0x40
    if p.needed = 1 then ([Char.ofNat codePoint], idle)
    else ([], ⟨p.needed - 1, codePoint, 0x80, 0xBF⟩)

/-- The characters of the bytes behind a pending sequence; at the end a sequence
that is not complete is replaced once. -/
def run : Pending → Bytes → List Char
  | p, [] => if p.needed = 0 then [] else [replacement]
  | p, b :: bs => (step p b.toNat).1 ++ run (step p b.toNat).2 bs

/-- The byte order mark, which `TextDecoder` drops at the start. -/
def BOM : Bytes := [0xEF, 0xBB, 0xBF]

/-- `text.decode(data)`. -/
def decode (data : Bytes) : String :=
  String.ofList (run idle (if BOM.isPrefixOf data then data.drop BOM.length else data))

end TextDecoder

/-- A byte of ASCII. -/
def asciiByte (b : UInt8) : Bool := b.toNat < 128

/-- The characters of ASCII bytes. -/
def asciiText (data : Bytes) : List Char := data.map fun b => Char.ofNat b.toNat

theorem run_ascii {data : Bytes} (h : ∀ b ∈ data, asciiByte b = true) :
    TextDecoder.run TextDecoder.idle data = asciiText data := by
  induction data with
  | nil => rfl
  | cons b bs ih =>
    have hb : b.toNat ≤ 0x7F := by
      have := h b List.mem_cons_self
      simp only [asciiByte, decide_eq_true_eq] at this
      omega
    have hstep : TextDecoder.step TextDecoder.idle b.toNat = ([Char.ofNat b.toNat], TextDecoder.idle) := by
      show TextDecoder.first b.toNat = _
      unfold TextDecoder.first
      rw [if_pos hb]
    rw [TextDecoder.run, hstep, ih fun b hb => h b (List.mem_cons_of_mem _ hb)]
    rfl

/-- ASCII is decoded byte by byte. -/
theorem decode_ascii {data : Bytes} (h : ∀ b ∈ data, asciiByte b = true) :
    TextDecoder.decode data = String.ofList (asciiText data) := by
  have hbom : TextDecoder.BOM.isPrefixOf data = false := by
    cases data with
    | nil => rfl
    | cons b bs =>
      have hb : b ≠ 0xEF := fun he => by
        have := h b List.mem_cons_self
        rw [he] at this
        revert this
        decide
      simp [TextDecoder.BOM, List.isPrefixOf, Ne.symm hb]
  unfold TextDecoder.decode
  rw [hbom, if_neg (by decide), run_ascii h]

/-! ### Lower case -/

/-- The characters whose lower case the standard fixes by themselves. -/
def asciiChar (c : Char) : Bool := c.toNat < 128

/-- The lower-case mapping of the characters beyond ASCII, each between the
characters before it and after it (a final sigma is not an inner one). It is
never empty, and what is in lower case stays. -/
structure Unicode where
  lower : List Char → Char → List Char → List Char
  lower_ne_nil : ∀ pre c post, lower pre c post ≠ []
  lower_lower : ∀ pre c post, asciiChar c = false → ∀ d ∈ lower pre c post,
    if asciiChar d then d.isUpper = false else ∀ pre' post', lower pre' d post' = [d]

/-- Characters beyond ASCII left as they are. -/
def plainUnicode : Unicode where
  lower _ c _ := [c]
  lower_ne_nil _ _ _ := by simp
  lower_lower _ c _ hc d hd := by
    obtain rfl := List.mem_singleton.mp hd
    simp [hc]

/-- `value.to_ascii_lowercase()`. -/
def toAsciiLowercase (value : String) : String := String.ofList (value.toList.map Char.toLower)

namespace Unicode

variable (U : Unicode)

/-- `toLowerCase` of the characters behind `pre`, which the platform sees for
those beyond ASCII. -/
def lowerFrom (pre : List Char) : List Char → List Char
  | [] => []
  | c :: cs =>
    (if asciiChar c then [c.toLower] else U.lower pre c cs) ++ lowerFrom (pre ++ [c]) cs

/-- A character that no lower-casing changes. -/
def Lower (c : Char) : Prop :=
  if asciiChar c then c.isUpper = false else ∀ pre post, U.lower pre c post = [c]

end Unicode

/-- `value.toLowerCase()`. -/
def toLowerCase (U : Unicode) (value : String) : String := String.ofList (U.lowerFrom [] value.toList)

theorem ascii_toLower {c : Char} (h : asciiChar c = true) :
    asciiChar c.toLower = true ∧ c.toLower.isUpper = false := by
  have table : ∀ n < 128, asciiChar (Char.ofNat n).toLower = true ∧ (Char.ofNat n).toLower.isUpper = false := by
    decide
  have := table c.toNat (by simpa [asciiChar] using h)
  rwa [Char.ofNat_toNat] at this

theorem toLower_of_not_isUpper {c : Char} (h : c.isUpper = false) : c.toLower = c := by
  unfold Char.toLower
  have h : decide (c.val ≥ 'A'.val ∧ c.val ≤ 'Z'.val) = false := h
  split
  · rename_i hc
    simp at h
    exact absurd hc.2 (by simpa using h hc.1)
  · rfl

theorem asciiChar_of_isUpper {c : Char} (h : c.isUpper = true) : asciiChar c = true := by
  have h : decide (c.val ≥ 'A'.val ∧ c.val ≤ 'Z'.val) = true := h
  simp only [decide_eq_true_eq, ge_iff_le, UInt32.le_iff_toNat_le] at h
  have hz : c.toNat ≤ 90 := h.2
  simp only [asciiChar, decide_eq_true_eq]
  omega

namespace Unicode

variable {U : Unicode}

theorem Lower.not_isUpper {c : Char} (h : U.Lower c) : c.isUpper = false := by
  unfold Lower at h
  by_cases hc : asciiChar c = true
  · rwa [if_pos hc] at h
  · by_contra hu
    exact hc (asciiChar_of_isUpper (by simpa using hu))

theorem lower_lowerFrom {pre cs : List Char} : ∀ d ∈ U.lowerFrom pre cs, U.Lower d := by
  induction cs generalizing pre with
  | nil => simp [lowerFrom]
  | cons c cs ih =>
    intro d hd
    rcases List.mem_append.mp hd with hd | hd
    · by_cases hc : asciiChar c = true
      · rw [if_pos hc] at hd
        obtain rfl := List.mem_singleton.mp hd
        obtain ⟨h1, h2⟩ := ascii_toLower hc
        unfold Lower
        rw [if_pos h1]
        exact h2
      · rw [if_neg hc] at hd
        exact U.lower_lower pre c cs (by simpa using hc) d hd
    · exact ih d hd

theorem lowerFrom_eq_self {pre cs : List Char} (h : ∀ c ∈ cs, U.Lower c) : U.lowerFrom pre cs = cs := by
  induction cs generalizing pre with
  | nil => rfl
  | cons c cs ih =>
    have hc := h c List.mem_cons_self
    unfold Lower at hc
    rw [lowerFrom, ih fun c hc => h c (List.mem_cons_of_mem _ hc)]
    by_cases ha : asciiChar c = true
    · rw [if_pos ha] at hc ⊢
      rw [toLower_of_not_isUpper hc]
      rfl
    · rw [if_neg ha] at hc ⊢
      rw [hc]
      rfl

theorem lowerFrom_ascii {pre cs : List Char} (h : ∀ c ∈ cs, asciiChar c = true) :
    U.lowerFrom pre cs = cs.map Char.toLower := by
  induction cs generalizing pre with
  | nil => rfl
  | cons c cs ih =>
    rw [lowerFrom, if_pos (h c List.mem_cons_self), ih fun c hc => h c (List.mem_cons_of_mem _ hc)]
    rfl

end Unicode

variable {U : Unicode}

/-- Nothing is left to lower. -/
theorem lower_toLowerCase (value : String) : ∀ c ∈ (toLowerCase U value).toList, U.Lower c := by
  rw [toLowerCase, String.toList_ofList]
  exact Unicode.lower_lowerFrom

theorem toLowerCase_eq_self {value : String} (h : ∀ c ∈ value.toList, U.Lower c) :
    toLowerCase U value = value := by
  rw [toLowerCase, Unicode.lowerFrom_eq_self h, String.ofList_toList]

/-- A text is its own lower case exactly when all its characters are lower. -/
theorem toLowerCase_eq_self_iff {value : String} :
    toLowerCase U value = value ↔ ∀ c ∈ value.toList, U.Lower c := by
  constructor
  · intro h
    rw [← h]
    exact lower_toLowerCase value
  · exact toLowerCase_eq_self

/-- Then `to_ascii_lowercase` leaves it alone too. -/
theorem toAsciiLowercase_eq_self {value : String} (h : ∀ c ∈ value.toList, U.Lower c) :
    toAsciiLowercase value = value := by
  have : value.toList.map Char.toLower = value.toList.map fun c => c :=
    List.map_congr_left fun c hc => toLower_of_not_isUpper (h c hc).not_isUpper
  rw [toAsciiLowercase, this, List.map_id', String.ofList_toList]

/-- On ASCII the two agree. -/
theorem toLowerCase_ascii {value : String} (h : ∀ c ∈ value.toList, asciiChar c = true) :
    toLowerCase U value = toAsciiLowercase value := by
  rw [toLowerCase, Unicode.lowerFrom_ascii h, toAsciiLowercase]

end ShuvTunnel
