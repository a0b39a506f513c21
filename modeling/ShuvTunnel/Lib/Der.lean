/-
# DER

Values in the distinguished encoding: a tag and a length, each in as few bytes as
there can be, and the content, which is bytes or more values. The decoder is
strict. It takes no other form of a tag or a length and leaves no bytes over, so
what it takes is what the encoder makes.

A natural number is the content of an `INTEGER` in as few bytes as there can be,
and an object identifier is read from base-128 numbers.

Key definitions: `Tag`, `Value`, `encode`, `decode`, `readNatural`, `readOid`.
Key theorems: `decode_encode`, `encode_of_decode`, `readNatural_padded`.
-/
import ShuvTunnel.Lib.Wire
import Mathlib.Data.Nat.Digits.Lemmas

namespace Der

open Wire (ofBe)

/-! ### Numbers -/

/-- A number in as few bytes as there can be, the most significant first. -/
def octets (n : ℕ) : List UInt8 := ((Nat.digits 256 n).map UInt8.ofNat).reverse

@[simp] theorem octets_zero : octets 0 = [] := by
  simp [octets]

theorem octets_of_pos {n : ℕ} (h : 0 < n) : octets n = octets (n / 256) ++ [UInt8.ofNat n] := by
  unfold octets
  rw [Nat.digits_def' (by omega) h, List.map_cons, List.reverse_cons]
  congr 2
  exact UInt8.toNat_inj.mp (by simp)

theorem ofBe_octets (n : ℕ) : ofBe (octets n) = n := by
  induction n using Nat.strongRecOn with
  | ind n ih =>
    by_cases h : n = 0
    · rw [h, octets_zero]
      rfl
    · have hb : (UInt8.ofNat n).toNat = n % 256 := by simp
      rw [octets_of_pos (by omega), Wire.ofBe_concat, ih (n / 256) (by omega), hb]
      omega

/-- The first byte is not zero. -/
theorem head_octets (n : ℕ) : (octets n).head? ≠ some 0 := by
  induction n using Nat.strongRecOn with
  | ind n ih =>
    by_cases h : n = 0
    · simp [h]
    · rw [octets_of_pos (by omega), List.head?_append]
      by_cases hsmall : n / 256 = 0
      · have hne : UInt8.ofNat n ≠ 0 := fun he => by
          have := congrArg UInt8.toNat he
          simp at this
          omega
        simpa [hsmall] using hne
      · have hrest := ih (n / 256) (by omega)
        have hsome : octets (n / 256) ≠ [] := fun he => by
          have := ofBe_octets (n / 256)
          rw [he] at this
          exact hsmall this.symm
        obtain ⟨b, bs, hbs⟩ := List.exists_cons_of_ne_nil hsome
        rw [hbs] at hrest ⊢
        simpa using hrest

theorem length_octets_le {n k : ℕ} (h : n < 256 ^ k) : (octets n).length ≤ k := by
  induction k generalizing n with
  | zero =>
    obtain rfl : n = 0 := by simpa using h
    simp
  | succ k ih =>
    by_cases h0 : n = 0
    · simp [h0]
    · have hdiv : n / 256 < 256 ^ k := Nat.div_lt_of_lt_mul (by rwa [Nat.pow_succ, Nat.mul_comm] at h)
      have := ih hdiv
      rw [octets_of_pos (by omega), List.length_append, List.length_singleton]
      omega

/-- Bytes that do not begin with a zero are those of their number. -/
theorem octets_ofBe {bs : List UInt8} (h : bs.head? ≠ some 0) : octets (ofBe bs) = bs := by
  induction bs using List.reverseRecOn with
  | nil => exact octets_zero
  | append_singleton bs b ih =>
    have hb : b.toNat < 256 := b.toNat_lt
    by_cases hbs : bs = []
    · have hne : b ≠ 0 := by simpa [hbs] using h
      have hpos : b.toNat ≠ 0 := fun he => hne (UInt8.toNat_inj.mp he)
      have hzero : b.toNat / 256 = 0 := by omega
      simp [hbs, ofBe, octets_of_pos (Nat.pos_of_ne_zero hpos), hzero]
    · have hhead : (bs ++ [b]).head? = bs.head? := by
        rw [List.head?_append]
        obtain ⟨c, cs, rfl⟩ := List.exists_cons_of_ne_nil hbs
        rfl
      have ih := ih (hhead ▸ h)
      have hpos : ofBe bs ≠ 0 := fun he => by
        rw [he, octets_zero] at ih
        exact hbs ih.symm
      have hdiv : (256 * ofBe bs + b.toNat) / 256 = ofBe bs := by omega
      have hlast : UInt8.ofNat (256 * ofBe bs + b.toNat) = b := UInt8.toNat_inj.mp (by simp)
      rw [Wire.ofBe_concat, octets_of_pos (by omega), hdiv, ih, hlast]

/-- The digits of a number in base 128, each with the first bit. -/
def digits128 (n : ℕ) : List UInt8 := ((Nat.digits 128 n).map fun d => UInt8.ofNat (128 + d)).reverse

/-- A number in base 128, where all bytes but the last have the first bit. -/
def base128 (n : ℕ) : List UInt8 := digits128 (n / 128) ++ [UInt8.ofNat (n % 128)]

/-- The number at the beginning, behind the digits of `n`, and what is behind it. -/
def readDigits : ℕ → List UInt8 → Option (ℕ × List UInt8)
  | _, [] => none
  | n, b :: bs =>
    if b.toNat < 128 then some (128 * n + b.toNat, bs) else readDigits (128 * n + (b.toNat - 128)) bs

/-- No digit before it is a zero. -/
def readBase128 (bs : List UInt8) : Option (ℕ × List UInt8) :=
  if bs.head? = some 0x80 then none else readDigits 0 bs

@[simp] theorem digits128_zero : digits128 0 = [] := by
  simp [digits128]

theorem digits128_of_pos {n : ℕ} (h : 0 < n) :
    digits128 n = digits128 (n / 128) ++ [UInt8.ofNat (128 + n % 128)] := by
  unfold digits128
  rw [Nat.digits_def' (by omega) h, List.map_cons, List.reverse_cons]

theorem toNat_digit (n : ℕ) : (UInt8.ofNat (128 + n % 128)).toNat = 128 + n % 128 := by
  rw [UInt8.toNat_ofNat']
  omega

theorem readDigits_digits128 (n : ℕ) (rest : List UInt8) : readDigits 0 (digits128 n ++ rest) = readDigits n rest := by
  induction n using Nat.strongRecOn generalizing rest with
  | ind n ih =>
    by_cases h : n = 0
    · rw [h, digits128_zero, List.nil_append]
    · have hn : 128 * (n / 128) + (128 + n % 128 - 128) = n := by omega
      rw [digits128_of_pos (by omega), List.append_assoc, List.singleton_append, ih (n / 128) (by omega), readDigits,
        toNat_digit, if_neg (by omega), hn]

/-- The first digit is not zero. -/
theorem head_digits128 (n : ℕ) : (digits128 n).head? ≠ some 0x80 := by
  induction n using Nat.strongRecOn with
  | ind n ih =>
    by_cases h : n = 0
    · simp [h]
    · rw [digits128_of_pos (by omega), List.head?_append]
      by_cases hsmall : n / 128 = 0
      · have hne : UInt8.ofNat (128 + n % 128) ≠ 0x80 := fun he => by
          have := congrArg UInt8.toNat he
          rw [toNat_digit] at this
          have : 128 + n % 128 = 128 := this
          omega
        simpa [hsmall] using hne
      · have hrest := ih (n / 128) (by omega)
        obtain ⟨b, bs, hbs⟩ := List.exists_cons_of_ne_nil (l := digits128 (n / 128)) fun he => by
          rw [digits128_of_pos (by omega)] at he
          simp at he
        rw [hbs] at hrest ⊢
        simpa using hrest

theorem readBase128_base128 (n : ℕ) (rest : List UInt8) : readBase128 (base128 n ++ rest) = some (n, rest) := by
  have hlast : (UInt8.ofNat (n % 128)).toNat = n % 128 := by
    rw [UInt8.toNat_ofNat']
    omega
  have hhead : (base128 n ++ rest).head? ≠ some 0x80 := by
    have hdigits := head_digits128 (n / 128)
    unfold base128
    rw [List.append_assoc, List.head?_append]
    cases hd : (digits128 (n / 128)).head? with
    | some b =>
      rw [hd] at hdigits
      simpa using hdigits
    | none =>
      intro he
      have he : UInt8.ofNat (n % 128) = 0x80 := by simpa using he
      have := congrArg UInt8.toNat he
      rw [hlast] at this
      have : n % 128 = 128 := this
      omega
  have hn : 128 * (n / 128) + n % 128 = n := by omega
  unfold readBase128
  rw [if_neg hhead]
  unfold base128
  rw [List.append_assoc, readDigits_digits128, List.singleton_append, readDigits, hlast, if_pos (by omega), hn]

theorem base128_readDigits {n m : ℕ} {bs rest : List UInt8} (hzero : n = 0 → bs.head? ≠ some 0x80)
    (h : readDigits n bs = some (m, rest)) : digits128 n ++ bs = base128 m ++ rest := by
  induction bs generalizing n with
  | nil => cases h
  | cons b bs ih =>
    have hb := b.toNat_lt
    rw [readDigits] at h
    split at h
    · rename_i hlast
      obtain ⟨rfl, rfl⟩ := Prod.mk.inj (Option.some.inj h)
      have hdiv : (128 * n + b.toNat) / 128 = n := by omega
      have hmod : UInt8.ofNat ((128 * n + b.toNat) % 128) = b := UInt8.toNat_inj.mp (by
        rw [UInt8.toNat_ofNat']
        omega)
      unfold base128
      rw [hdiv, hmod, List.append_assoc]
      rfl
    · rename_i hmore
      have hne : b.toNat ≠ 128 ∨ n ≠ 0 := by
        by_contra hno
        rw [not_or, not_not, not_not] at hno
        exact hzero hno.2 (congrArg some (UInt8.toNat_inj.mp hno.1))
      have hdiv : (128 * n + (b.toNat - 128)) / 128 = n := by omega
      have hdigit : UInt8.ofNat (128 + (128 * n + (b.toNat - 128)) % 128) = b := UInt8.toNat_inj.mp (by
        rw [UInt8.toNat_ofNat']
        omega)
      have hih := ih (fun hnone => by omega) h
      rw [digits128_of_pos (by omega), hdiv, hdigit, List.append_assoc] at hih
      exact hih

theorem base128_readBase128 {n : ℕ} {bs rest : List UInt8} (h : readBase128 bs = some (n, rest)) :
    bs = base128 n ++ rest := by
  obtain ⟨hhead, h⟩ := Option.ite_none_left_eq_some.mp h
  have := base128_readDigits (fun _ => hhead) h
  rwa [digits128_zero, List.nil_append] at this

/-! ### Tags and lengths -/

/-- The class and the number of a tag. -/
structure Tag where
  cls : Fin 4
  number : ℕ
  deriving DecidableEq

/-- The first byte, for a value that is constructed of others or not. -/
def Tag.octet (t : Tag) (constructed : Bool) : UInt8 :=
  .ofNat (64 * t.cls + 32 * constructed.toNat + min t.number 31)

/-- One byte, or the number behind it. -/
def Tag.octets (t : Tag) (constructed : Bool) : List UInt8 :=
  t.octet constructed :: if t.number < 31 then [] else base128 t.number

/-- Reads a tag: its class and number, and whether its contents are values. -/
def readTag : List UInt8 → Option (Tag × Bool × List UInt8)
  | [] => none
  | b :: bs =>
    let cls : Fin 4 := ⟨b.toNat / 64, by have := b.toNat_lt; omega⟩
    let constructed := decide (b.toNat / 32 % 2 = 1)
    if b.toNat % 32 < 31 then some (⟨cls, b.toNat % 32⟩, constructed, bs)
    else (readBase128 bs).bind fun (n, rest) => if n < 31 then none else some (⟨cls, n⟩, constructed, rest)

/-- A length, in the short form or in the long one. -/
def lengthOctets (n : ℕ) : List UInt8 :=
  if n < 128 then [.ofNat n] else .ofNat (128 + (octets n).length) :: octets n

/-- The length at the beginning, and what is behind it. A long form is in as few
bytes as there can be; the indefinite form and the reserved one are none. -/
def readLength : List UInt8 → Option (ℕ × List UInt8)
  | [] => none
  | b :: bs =>
    let k := b.toNat - 128
    if b.toNat < 128 then some (b.toNat, bs)
    else if k = 0 ∨ k = 127 ∨ bs.length < k then none
    else if (bs.take k).head? = some 0 ∨ ofBe (bs.take k) < 128 then none
    else some (ofBe (bs.take k), bs.drop k)

theorem toNat_octet (t : Tag) (constructed : Bool) :
    (t.octet constructed).toNat = 64 * t.cls + 32 * constructed.toNat + min t.number 31 := by
  have hclass := t.cls.isLt
  have hbit : constructed.toNat ≤ 1 := constructed.toNat_le
  unfold Tag.octet
  rw [UInt8.toNat_ofNat']
  omega

theorem readTag_octets (t : Tag) (constructed : Bool) (rest : List UInt8) :
    readTag (t.octets constructed ++ rest) = some (t, constructed, rest) := by
  have hclass := t.cls.isLt
  have hbit : constructed.toNat ≤ 1 := constructed.toNat_le
  have hb := toNat_octet t constructed
  have hlow : (t.octet constructed).toNat % 32 = min t.number 31 := by omega
  have hhigh : (t.octet constructed).toNat / 64 = t.cls := by omega
  have hmid : decide ((t.octet constructed).toNat / 32 % 2 = 1) = constructed := by
    have : (t.octet constructed).toNat / 32 % 2 = constructed.toNat := by omega
    rw [this]
    cases constructed <;> rfl
  unfold Tag.octets
  rw [List.cons_append, readTag]
  simp only [hhigh, hmid, hlow]
  by_cases hnumber : t.number < 31
  · have hmin : min t.number 31 = t.number := by omega
    rw [if_pos hnumber, hmin, if_pos hnumber]
    rfl
  · rw [if_neg hnumber, if_neg (by omega), readBase128_base128, Option.bind_some]
    dsimp only
    rw [if_neg hnumber]

theorem octets_readTag {bs rest : List UInt8} {t : Tag} {constructed : Bool}
    (h : readTag bs = some (t, constructed, rest)) : bs = t.octets constructed ++ rest := by
  cases bs with
  | nil => cases h
  | cons b bs =>
    have hb := b.toNat_lt
    have hbit : (decide (b.toNat / 32 % 2 = 1)).toNat = b.toNat / 32 % 2 := by
      by_cases hone : b.toNat / 32 % 2 = 1
      · rw [decide_eq_true hone, hone]
        rfl
      · rw [decide_eq_false hone]
        have : b.toNat / 32 % 2 = 0 := by omega
        rw [this]
        rfl
    unfold readTag at h
    dsimp only at h
    split at h
    · rename_i hlow
      simp only [Option.some.injEq, Prod.mk.injEq] at h
      obtain ⟨rfl, rfl, rfl⟩ := h
      have hoctet : Tag.octet ⟨⟨b.toNat / 64, by omega⟩, b.toNat % 32⟩ (decide (b.toNat / 32 % 2 = 1)) = b := by
        refine UInt8.toNat_inj.mp ?_
        rw [toNat_octet, hbit]
        dsimp only
        omega
      unfold Tag.octets
      rw [hoctet, if_pos hlow]
      rfl
    · obtain ⟨⟨n, tail⟩, hnumber, h⟩ := Option.bind_eq_some_iff.mp h
      obtain ⟨hn, h⟩ := Option.ite_none_left_eq_some.mp h
      simp only [Option.some.injEq, Prod.mk.injEq] at h
      obtain ⟨rfl, rfl, rfl⟩ := h
      have hoctet : Tag.octet ⟨⟨b.toNat / 64, by omega⟩, n⟩ (decide (b.toNat / 32 % 2 = 1)) = b := by
        refine UInt8.toNat_inj.mp ?_
        rw [toNat_octet, hbit]
        dsimp only
        omega
      unfold Tag.octets
      rw [hoctet, if_neg hn, base128_readBase128 hnumber]
      rfl

/-- Of the lengths there are. -/
theorem readLength_lengthOctets {n : ℕ} (h : n < 256 ^ 126) (rest : List UInt8) :
    readLength (lengthOctets n ++ rest) = some (n, rest) := by
  unfold lengthOctets
  by_cases hshort : n < 128
  · have hb : (UInt8.ofNat n).toNat = n := by
      rw [UInt8.toNat_ofNat']
      omega
    rw [if_pos hshort, List.singleton_append, readLength, hb, if_pos hshort]
  · have hk : (octets n).length ≤ 126 := length_octets_le h
    have hne : (octets n).length ≠ 0 := fun he => by
      have := ofBe_octets n
      rw [List.length_eq_zero_iff.mp he] at this
      have : n = 0 := this.symm
      omega
    have hb : (UInt8.ofNat (128 + (octets n).length)).toNat = 128 + (octets n).length := by
      rw [UInt8.toNat_ofNat']
      omega
    have hlen : 128 + (octets n).length - 128 = (octets n).length := by omega
    rw [if_neg hshort, List.cons_append, readLength, hb, hlen, List.take_left, List.drop_left, ofBe_octets,
      if_neg (by omega), if_neg, if_neg]
    · intro hno
      rcases hno with hzero | hsmall
      · exact head_octets n hzero
      · exact hshort hsmall
    · rw [List.length_append]
      omega

theorem lengthOctets_readLength {bs rest : List UInt8} {n : ℕ} (h : readLength bs = some (n, rest)) :
    bs = lengthOctets n ++ rest := by
  cases bs with
  | nil => cases h
  | cons b bs =>
    have hb := b.toNat_lt
    unfold readLength at h
    dsimp only at h
    split at h
    · rename_i hshort
      obtain ⟨rfl, rfl⟩ := Prod.mk.inj (Option.some.inj h)
      unfold lengthOctets
      rw [if_pos hshort, UInt8.ofNat_toNat]
      rfl
    · rename_i hlong
      obtain ⟨hform, h⟩ := Option.ite_none_left_eq_some.mp h
      obtain ⟨hleast, h⟩ := Option.ite_none_left_eq_some.mp h
      obtain ⟨rfl, rfl⟩ := Prod.mk.inj (Option.some.inj h)
      have hoctets := octets_ofBe fun hzero => hleast (.inl hzero)
      have hlen : (bs.take (b.toNat - 128)).length = b.toNat - 128 := by
        rw [List.length_take]
        omega
      have hfirst : UInt8.ofNat (128 + (bs.take (b.toNat - 128)).length) = b := by
        refine UInt8.toNat_inj.mp ?_
        rw [hlen, UInt8.toNat_ofNat']
        omega
      unfold lengthOctets
      rw [if_neg fun hsmall => hleast (.inr hsmall), hoctets, hfirst, List.cons_append, List.take_append_drop]

/-! ### Values -/

/-- A tag, the length of the content, and the content. -/
def element (tag content : List UInt8) : List UInt8 := tag ++ (lengthOctets content.length ++ content)

/-- The tag and the content of the element at the beginning, and what is behind it. -/
def readElement (bs : List UInt8) : Option (Tag × Bool × List UInt8 × List UInt8) :=
  (readTag bs).bind fun (tag, constructed, bs) => (readLength bs).bind fun (n, rest) =>
    if rest.length < n then none else some (tag, constructed, rest.take n, rest.drop n)

theorem readElement_element (t : Tag) (constructed : Bool) {content : List UInt8} (h : content.length < 256 ^ 126)
    (rest : List UInt8) :
    readElement (element (t.octets constructed) content ++ rest) = some (t, constructed, content, rest) := by
  unfold element readElement
  rw [List.append_assoc, readTag_octets, Option.bind_some]
  dsimp only
  rw [List.append_assoc, readLength_lengthOctets h, Option.bind_some]
  dsimp only
  rw [List.take_left, List.drop_left, if_neg]
  rw [List.length_append]
  omega

theorem element_readElement {bs content rest : List UInt8} {t : Tag} {constructed : Bool}
    (h : readElement bs = some (t, constructed, content, rest)) :
    bs = element (t.octets constructed) content ++ rest := by
  obtain ⟨⟨tag, c, after⟩, htag, h⟩ := Option.bind_eq_some_iff.mp h
  obtain ⟨⟨n, tail⟩, hlength, h⟩ := Option.bind_eq_some_iff.mp h
  obtain ⟨hfits, h⟩ := Option.ite_none_left_eq_some.mp h
  simp only [Option.some.injEq, Prod.mk.injEq] at h
  obtain ⟨rfl, rfl, rfl, rfl⟩ := h
  have hn : (tail.take n).length = n := by
    rw [List.length_take]
    omega
  unfold element
  rw [octets_readTag htag, hn, lengthOctets_readLength hlength, List.append_assoc, List.append_assoc,
    List.take_append_drop]

/-- A value is bytes, or is constructed of others. -/
inductive Value
  | primitive (tag : Tag) (content : List UInt8)
  | constructed (tag : Tag) (elements : List Value)

mutual

/-- The octets of a value. -/
def encode : Value → List UInt8
  | .primitive t content => element (t.octets false) content
  | .constructed t vs => element (t.octets true) (encodeAll vs)

/-- One value behind the other. -/
def encodeAll : List Value → List UInt8
  | [] => []
  | v :: vs => encode v ++ encodeAll vs

end

/-- The values that the bytes are. Each takes some bytes, so `turns` may be as many
as there are. -/
def decodeAll : ℕ → List UInt8 → Option (List Value)
  | _, [] => some []
  | 0, _ => none
  | turns + 1, bs =>
    (readElement bs).bind fun (tag, constructed, content, rest) =>
      (if constructed then (decodeAll turns content).map (.constructed tag) else some (.primitive tag content)).bind
        fun v => (decodeAll turns rest).map (v :: ·)

/-- The one value that the bytes are. -/
def decode (bs : List UInt8) : Option Value :=
  match decodeAll bs.length bs with
  | some [v] => some v
  | _ => none

theorem encode_ne_nil (v : Value) : encode v ≠ [] := by
  cases v <;> simp [encode, element, Tag.octets]

/-- What the decoder takes is what the encoder makes. -/
theorem encodeAll_decodeAll {turns : ℕ} {bs : List UInt8} {vs : List Value} (h : decodeAll turns bs = some vs) :
    encodeAll vs = bs := by
  induction turns generalizing bs vs with
  | zero =>
    cases bs with
    | nil =>
      obtain rfl := Option.some.inj h
      simp [encodeAll]
    | cons b bs => cases h
  | succ turns ih =>
    cases bs with
    | nil =>
      obtain rfl := Option.some.inj h
      simp [encodeAll]
    | cons b bs =>
      obtain ⟨⟨tag, constructed, content, rest⟩, helement, h⟩ := Option.bind_eq_some_iff.mp h
      obtain ⟨v, hv, h⟩ := Option.bind_eq_some_iff.mp h
      obtain ⟨us, hrest, rfl⟩ := Option.map_eq_some_iff.mp h
      have hhead : encode v = element (tag.octets constructed) content := by
        cases constructed with
        | true =>
          obtain ⟨ws, hws, rfl⟩ := Option.map_eq_some_iff.mp hv
          rw [encode, ih hws]
        | false =>
          obtain rfl := Option.some.inj hv
          rw [encode]
      rw [encodeAll, hhead, ih hrest, element_readElement helement]

theorem encode_of_decode {bs : List UInt8} {v : Value} (h : decode bs = some v) : encode v = bs := by
  unfold decode at h
  split at h
  · rename_i w hw
    obtain rfl := Option.some.inj h
    have := encodeAll_decodeAll hw
    rwa [encodeAll, encodeAll, List.append_nil] at this
  · cases h

theorem length_lt_element (t : Tag) (constructed : Bool) (content : List UInt8) :
    content.length < (element (t.octets constructed) content).length := by
  rw [element, Tag.octets, List.length_append, List.length_append, List.length_cons]
  omega

theorem length_element_le (tag : List UInt8) {content : List UInt8} (h : content.length < 256 ^ 126) :
    (element tag content).length ≤ tag.length + 127 + content.length := by
  have hoctets := length_octets_le h
  have hlength : (lengthOctets content.length).length ≤ 127 := by
    unfold lengthOctets
    split
    · simp
    · rw [List.length_cons]
      omega
  rw [element, List.length_append, List.length_append]
  omega

/-- The decoder at an element. -/
theorem decodeAll_element {turns : ℕ} {t : Tag} {constructed : Bool} {content rest : List UInt8} {v : Value}
    {vs : List Value} (h : content.length < 256 ^ 126)
    (hv : (if constructed then (decodeAll turns content).map (.constructed t)
      else some (.primitive t content)) = some v)
    (hvs : decodeAll turns rest = some vs) :
    decodeAll (turns + 1) (element (t.octets constructed) content ++ rest) = some (v :: vs) := by
  have hread := readElement_element t constructed h rest
  obtain ⟨b, bs, hbs⟩ := List.exists_cons_of_ne_nil (l := element (t.octets constructed) content ++ rest)
    (by simp [element, Tag.octets])
  rw [hbs] at hread ⊢
  show (readElement (b :: bs)).bind _ = _
  rw [hread, Option.bind_some]
  dsimp only
  rw [hv, Option.bind_some, hvs, Option.map_some]

/-- The decoder takes what the encoder makes. -/
theorem decodeAll_encodeAll {turns : ℕ} {vs : List Value} (hturns : (encodeAll vs).length ≤ turns)
    (h : (encodeAll vs).length < 256 ^ 126) : decodeAll turns (encodeAll vs) = some vs := by
  induction turns generalizing vs with
  | zero =>
    cases vs with
    | nil =>
      rw [encodeAll]
      rfl
    | cons v vs =>
      have hne := List.length_pos_iff.mpr (encode_ne_nil v)
      rw [encodeAll, List.length_append] at hturns
      omega
  | succ turns ih =>
    cases vs with
    | nil =>
      rw [encodeAll]
      rfl
    | cons v vs =>
      have hne := List.length_pos_iff.mpr (encode_ne_nil v)
      rw [encodeAll, List.length_append] at hturns h
      have hvs : decodeAll turns (encodeAll vs) = some vs := ih (by omega) (by omega)
      rw [encodeAll]
      cases v with
      | primitive t content =>
        have hlt := length_lt_element t false content
        rw [encode] at hturns h ⊢
        exact decodeAll_element (by omega) rfl hvs
      | constructed t us =>
        have hlt := length_lt_element t true (encodeAll us)
        rw [encode] at hturns h ⊢
        refine decodeAll_element (by omega) ?_ hvs
        rw [if_pos rfl, ih (by omega) (by omega), Option.map_some]

theorem decode_encode {v : Value} (h : (encode v).length < 256 ^ 126) : decode (encode v) = some v := by
  have hone : encodeAll [v] = encode v := by rw [encodeAll, encodeAll, List.append_nil]
  unfold decode
  rw [← hone, decodeAll_encodeAll le_rfl (hone ▸ h)]

/-! ### Contents -/

/-- The natural number of an `INTEGER`: its first bit is the sign, and its first nine
are not alike. -/
def readNatural : List UInt8 → Option ℕ
  | [] => none
  | b :: bs =>
    if 128 ≤ b.toNat then none
    else if b = 0 ∧ bs.head?.any (fun c => decide (c.toNat < 128)) = true then none
    else some (ofBe (b :: bs))

/-- Behind a zero the first bit is free. -/
theorem readNatural_padded {b : UInt8} {bs : List UInt8} (h : 128 ≤ b.toNat) :
    readNatural (0 :: b :: bs) = some (ofBe (b :: bs)) := by
  have hzero : ofBe (0 :: b :: bs) = ofBe (b :: bs) := rfl
  have hno : ¬ b.toNat < 128 := by omega
  rw [readNatural, if_neg (by decide), if_neg (by simp [hno]), hzero]

theorem readNatural_least {b : UInt8} {bs : List UInt8} (h : b.toNat < 128) (hb : b = 0 → bs = []) :
    readNatural (b :: bs) = some (ofBe (b :: bs)) := by
  rw [readNatural, if_neg (by omega), if_neg]
  rintro ⟨hzero, hnext⟩
  rw [hb hzero] at hnext
  cases hnext

/-- The numbers in base 128 that the bytes are. -/
def readArcs : ℕ → List UInt8 → Option (List ℕ)
  | _, [] => some []
  | 0, _ => none
  | turns + 1, bs => (readBase128 bs).bind fun (n, rest) => (readArcs turns rest).map (n :: ·)

/-- The arcs of an `OBJECT IDENTIFIER`, of which the first two are one number. -/
def readOid (content : List UInt8) : Option (List ℕ) :=
  match readArcs content.length content with
  | some (n :: arcs) => some (min (n / 40) 2 :: (n - 40 * min (n / 40) 2) :: arcs)
  | _ => none

end Der
