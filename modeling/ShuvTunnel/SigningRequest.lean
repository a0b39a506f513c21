/-
# The certificate request

`csr.ts` writes a PKCS#10 request without an ASN.1 library: `der` with its lengths,
`oid` with base-128 arcs, `integer` with the zeros it drops and the one it
prepends. The numbers are JavaScript's, whose shifts are of 32 bits. What exports
the public key and what signs are given.

`Pkcs10.readPem` and `Pkcs10.read` are a reader of such requests over the strict
decoder. It reads what the encoder wrote, as long as no length leaves the 31 bits.

Key definitions: `Csr.der`, `Csr.oid`, `Csr.integer`, `Csr.certificateRequest`, `Pkcs10.read`.
Key theorems: `Csr.build_eq`, `Csr.readNatural_integerContent`, `Pkcs10.readPem_certificateRequest`,
`request_reads`.
-/
import ShuvTunnel.Lib.Der
import ShuvTunnel.Targets
import ShuvTunnel.Files
import Mathlib.Data.Nat.Bitwise

namespace ShuvTunnel

/-! ### The encoder -/

/-- `ToInt32`. -/
def toInt32 (n : ℤ) : ℤ := n.bmod (2 ^ 32)

namespace Csr

/-- `for (; n > 0; n >>= bits) bytes.unshift((n & (2 ** bits - 1)) | mark)`. The
number gets smaller, so there are no more turns than it says. -/
def unshiftLoop (bits mark : ℕ) : ℕ → ℤ → Bytes → Bytes
  | 0, _, bytes => bytes
  | turns + 1, n, bytes =>
    if 0 < n then
      unshiftLoop bits mark turns (toInt32 n / 2 ^ bits) (.ofNat ((toInt32 n % 2 ^ bits).toNat ||| mark) :: bytes)
    else bytes

/-- `der`: the tag, the length in its short or its long form, and the contents. -/
def der (tag : UInt8) (contents : List Bytes) : Bytes :=
  let body := contents.flatten
  let length :=
    if body.length < 0x80 then [.ofNat body.length]
    else
      let bytes := unshiftLoop 8 0 body.length body.length []
      .ofNat (0x80 ||| bytes.length) :: bytes
  tag :: (length ++ body)

/-- `sequence`. -/
def sequence (contents : List Bytes) : Bytes := der 0x30 contents

/-- `set`. -/
def set (contents : List Bytes) : Bytes := der 0x31 contents

/-- `utf8String`. -/
def utf8String (value : String) : Bytes := der 0x0c [utf8 value]

/-- `dnsName`, a name of the alternative ones. -/
def dnsName (value : String) : Bytes := der 0x82 [utf8 value]

/-- The bytes of `oid(dotted)`. -/
def oidContent (dotted : String) : Bytes :=
  match (dotted.toList.splitOn '.').map decimal with
  | first :: second :: rest =>
    .ofNat (first * 40 + second) ::
      rest.flatMap fun arc => unshiftLoop 7 0x80 arc (toInt32 arc / 2 ^ 7) [.ofNat (toInt32 arc % 2 ^ 7).toNat]
  | _ => []

/-- `oid`, of its dotted text. -/
def oid (dotted : String) : Bytes := der 0x06 [oidContent dotted]

/-- `bytes.subarray(start)`, behind the zeros that are not the last byte. -/
def trimmed : Bytes → Bytes
  | b :: c :: bytes => if b = 0 then trimmed (c :: bytes) else b :: c :: bytes
  | bytes => bytes

/-- The bytes of `integer(bytes)`. -/
def integerContent (bytes : Bytes) : Bytes :=
  if (trimmed bytes).head?.any (fun b => b &&& 0x80 ≠ 0) then 0 :: trimmed bytes else trimmed bytes

/-- `integer`, of its bytes, the first of them the most significant. -/
def integer (bytes : Bytes) : Bytes := der 0x02 [integerContent bytes]

/-- The attribute of the subject that holds the host name. -/
def COMMON_NAME : String := "2.5.4.3"

/-- The attribute of the request that holds its extensions. -/
def EXTENSION_REQUEST : String := "1.2.840.113549.1.9.14"

/-- The extension that holds the DNS names. -/
def SUBJECT_ALT_NAME : String := "2.5.29.17"

/-- The signature algorithm. -/
def ECDSA_WITH_SHA256 : String := "1.2.840.10045.4.3.2"

/-- The key pair: what `exportKey("spki", keys.publicKey)` gives, and what
`crypto.subtle.sign` makes of some bytes. -/
structure KeyPair where
  publicKey : Bytes
  sign : Bytes → Bytes

variable (hostname : String) (keys : KeyPair)

/-- What is signed. -/
def info : Bytes :=
  sequence [
    der 0x02 [[0]],
    sequence [set [sequence [oid COMMON_NAME, utf8String hostname]]],
    keys.publicKey,
    der 0xa0 [sequence [
      oid EXTENSION_REQUEST,
      set [sequence [sequence [
        oid SUBJECT_ALT_NAME,
        der 0x04 [sequence [dnsName hostname, dnsName ("*." ++ hostname)]]]]]]]]

/-- `r || s`. -/
def raw : Bytes := keys.sign (info hostname keys)

/-- The parts of the request. -/
def parts : List Bytes :=
  [info hostname keys, sequence [oid ECDSA_WITH_SHA256],
    der 0x03 [[0], sequence [integer ((raw hostname keys).take 32), integer ((raw hostname keys).drop 32)]]]

/-- The bytes of `certificateRequest`. -/
def request : Bytes := sequence (parts hostname keys)

/-! ### The text around it -/

/-- `toString("base64")`. -/
def base64 : Bytes → List Char
  | a :: b :: c :: bytes =>
    digit (a.toNat / 4) :: digit (a.toNat % 4 * 16 + b.toNat / 16) :: digit (b.toNat % 16 * 4 + c.toNat / 64) ::
      digit (c.toNat % 64) :: base64 bytes
  | [a, b] => [digit (a.toNat / 4), digit (a.toNat % 4 * 16 + b.toNat / 16), digit (b.toNat % 16 * 4), '=']
  | [a] => [digit (a.toNat / 4), digit (a.toNat % 4 * 16), '=', '=']
  | [] => []
where
  digit (n : ℕ) : Char := "ABCDEFGHIJKLMNOPQRSTUVWXYZabcdefghijklmnopqrstuvwxyz0123456789+/".toList.getD n '='

/-- `replace(/.{1,64}/g, "$&\n")`. -/
def inLines : ℕ → List Char → List Char
  | 0, _ | _, [] => []
  | turns + 1, text => text.take 64 ++ '\n' :: inLines turns (text.drop 64)

/-- `certificateRequest`: the request in PEM. -/
def certificateRequest : String :=
  let text := base64 (request hostname keys)
  "-----BEGIN CERTIFICATE REQUEST-----\n" ++ String.ofList (inLines text.length text) ++
    "-----END CERTIFICATE REQUEST-----"

end Csr

/-! ### The reader -/

namespace Pkcs10

open Der (Tag Value)

/-- An object identifier, by its arcs. -/
abbrev Oid := List ℕ

/-- The universal tag of an INTEGER. -/
def INTEGER : Tag := ⟨0, 2⟩

/-- That of a BIT STRING. -/
def BIT_STRING : Tag := ⟨0, 3⟩

/-- That of an OCTET STRING. -/
def OCTET_STRING : Tag := ⟨0, 4⟩

/-- That of an OBJECT IDENTIFIER. -/
def OBJECT_IDENTIFIER : Tag := ⟨0, 6⟩

/-- That of a UTF8String. -/
def UTF8_STRING : Tag := ⟨0, 12⟩

/-- That of a SEQUENCE. -/
def SEQUENCE : Tag := ⟨0, 16⟩

/-- That of a SET. -/
def SET : Tag := ⟨0, 17⟩

/-- A tag of the context. -/
def context (n : ℕ) : Tag := ⟨2, n⟩

/-- The bytes of a value with this tag. -/
def content (tag : Tag) : Value → Option Bytes
  | .primitive t bytes => if t = tag then some bytes else none
  | .constructed _ _ => none

/-- The values in a value with this tag. -/
def elements (tag : Tag) : Value → Option (List Value)
  | .primitive _ _ => none
  | .constructed t vs => if t = tag then some vs else none

@[simp] theorem content_primitive (tag : Tag) (bytes : Bytes) : content tag (.primitive tag bytes) = some bytes :=
  if_pos rfl

@[simp] theorem elements_constructed (tag : Tag) (vs : List Value) : elements tag (.constructed tag vs) = some vs :=
  if_pos rfl

/-- The value is an object identifier. -/
def readOid (v : Value) : Option Oid := (content OBJECT_IDENTIFIER v).bind Der.readOid

/-- The value is an integer that is not negative. -/
def readInteger (v : Value) : Option ℕ := (content INTEGER v).bind Der.readNatural

/-- The value is a string with this tag, in UTF-8. -/
def readText (tag : Tag) (v : Value) : Option String := (content tag v).bind readToString

/-- A type and a value of a name. -/
def readAttribute (v : Value) : Option (Oid × String) :=
  match elements SEQUENCE v with
  | some [type, value] => (readOid type).bind fun type => (readText UTF8_STRING value).map fun value => (type, value)
  | _ => none

/-- The sets that a name is a sequence of. -/
def readName (v : Value) : Option (List (List (Oid × String))) :=
  (elements SEQUENCE v).bind fun sets => sets.mapM fun set =>
    (elements SET set).bind fun attributes => attributes.mapM readAttribute

/-- An algorithm with its parameters, if any, and a key. -/
def isPublicKeyInfo (v : Value) : Bool :=
  match elements SEQUENCE v with
  | some [algorithm, key] =>
    match elements SEQUENCE algorithm with
    | some (type :: parameters) =>
      (readOid type).isSome && decide (parameters.length ≤ 1) && (content BIT_STRING key).isSome
    | _ => false
  | _ => false

/-- The bytes of an `IA5String` are ASCII. -/
def readIa5 (bytes : Bytes) : Option String :=
  if bytes.all (fun b => decide (b.toNat < 128)) then readToString bytes else none

/-- Names that all are a `dNSName`, as bytes. -/
def readDnsNames (bytes : Bytes) : Option (List Bytes) :=
  (Der.decode bytes).bind fun v => (elements SEQUENCE v).bind fun names => names.mapM (content (context 2))

/-- An extension that is not critical: its type and its value. -/
def readExtension (v : Value) : Option (Oid × Bytes) :=
  match elements SEQUENCE v with
  | some [type, value] => (readOid type).bind fun type => (content OCTET_STRING value).map fun value => (type, value)
  | _ => none

/-- The extensions that are requested, where nothing else is. -/
def readExtensions (v : Value) : Option (List (Oid × Bytes)) :=
  match elements (context 0) v with
  | some [request] =>
    match elements SEQUENCE request with
    | some [type, values] =>
      match readOid type, elements SET values with
      | some [1, 2, 840, 113549, 1, 9, 14], some [extensions] =>
        (elements SEQUENCE extensions).bind fun extensions => extensions.mapM readExtension
      | _, _ => none
    | _ => none
  | _ => none

/-- The pair of numbers that an ECDSA signature is. -/
def readSignature (v : Value) : Option (ℕ × ℕ) :=
  match content BIT_STRING v with
  | some (0 :: bytes) =>
    match (Der.decode bytes).bind (elements SEQUENCE) with
    | some [r, s] => (readInteger r).bind fun r => (readInteger s).map fun s => (r, s)
    | _ => none
  | _ => none

/-- A request: what is signed, in bytes and read; the type of the algorithm, which
has no parameters; and the signature. -/
structure Request where
  info : Bytes
  version : ℕ
  subject : List (List (Oid × String))
  publicKey : Bytes
  extensions : List (Oid × Bytes)
  algorithm : Oid
  signature : ℕ × ℕ

/-- Reads a request: its info, the algorithm, and the signature over the bytes of
the info. -/
def read (bytes : Bytes) : Option Request :=
  match (Der.decode bytes).bind (elements SEQUENCE) with
  | some [info, algorithm, signature] =>
    match elements SEQUENCE info, elements SEQUENCE algorithm with
    | some [version, subject, publicKey, attributes], some [type] =>
      if isPublicKeyInfo publicKey then
        (readInteger version).bind fun version => (readName subject).bind fun subject =>
          (readExtensions attributes).bind fun extensions => (readOid type).bind fun algorithm =>
            (readSignature signature).map fun signature =>
              ⟨Der.encode info, version, subject, Der.encode publicKey, extensions, algorithm, signature⟩
      else none
    | _, _ => none
  | _ => none

/-- The six bits of a character. -/
def sextet (c : Char) : Option ℕ :=
  if 'A' ≤ c ∧ c ≤ 'Z' then some (c.toNat - 'A'.toNat)
  else if 'a' ≤ c ∧ c ≤ 'z' then some (c.toNat - 'a'.toNat + 26)
  else if '0' ≤ c ∧ c ≤ '9' then some (c.toNat - '0'.toNat + 52)
  else if c = '+' then some 62
  else if c = '/' then some 63
  else none

/-- Four characters. At the end there may be signs for what is not there, and the
bits over are zero. -/
def quantum (last : Bool) (a b c d : Char) : Option Bytes :=
  (sextet a).bind fun a => (sextet b).bind fun b =>
    if c = '=' then if last ∧ d = '=' ∧ b % 16 = 0 then some [.ofNat (a * 4 + b / 16)] else none
    else (sextet c).bind fun c =>
      if d = '=' then
        if last ∧ c % 4 = 0 then some [.ofNat (a * 4 + b / 16), .ofNat (b % 16 * 16 + c / 4)] else none
      else (sextet d).map fun d =>
        [.ofNat (a * 4 + b / 16), .ofNat (b % 16 * 16 + c / 4), .ofNat (c % 4 * 64 + d)]

/-- Reads base64 in quanta of four characters; only the last may be padded. -/
def readBase64 : List Char → Option Bytes
  | [] => some []
  | a :: b :: c :: d :: text =>
    (quantum text.isEmpty a b c d).bind fun bytes => (readBase64 text).map (bytes ++ ·)
  | _ => none

/-- The bytes between the two lines, whatever the lines between are. -/
def readPem (pem : String) : Option Bytes :=
  let first := "-----BEGIN CERTIFICATE REQUEST-----\n".toList
  let last := "-----END CERTIFICATE REQUEST-----".toList
  let text := (pem.toList.drop first.length).takeWhile (· ≠ '-')
  if pem.toList = first ++ text ++ last then readBase64 (text.filter (· ≠ '\n')) else none

end Pkcs10

/-! ### Lengths and numbers -/

namespace Csr

/-- On numbers of 31 bits the loop gives the bytes of the number. -/
theorem unshiftLoop_octets {turns n : ℕ} (hturns : n ≤ turns) (h : n < 2 ^ 31) (bytes : Bytes) :
    unshiftLoop 8 0 turns n bytes = Der.octets n ++ bytes := by
  induction turns generalizing n bytes with
  | zero =>
    obtain rfl : n = 0 := by omega
    rw [Der.octets_zero]
    rfl
  | succ turns ih =>
    have hint : toInt32 n = n := by
      unfold toInt32
      rw [Int.bmod_eq_of_le] <;> omega
    unfold unshiftLoop
    by_cases hn : n = 0
    · rw [hn, Der.octets_zero]
      rfl
    · have hlow : ((n : ℤ) % 2 ^ 8).toNat ||| 0 = n % 256 := by
        rw [Nat.or_zero]
        omega
      have hrest : (n : ℤ) / 2 ^ 8 = (n / 256 : ℕ) := by omega
      have hbyte : UInt8.ofNat (n % 256) = UInt8.ofNat n := UInt8.toNat_inj.mp (by simp)
      have hpos : 0 < n := by omega
      have hturns' : n / 256 ≤ turns := by omega
      have h' : n / 256 < 2 ^ 31 := by omega
      rw [if_pos (by omega), hint, hlow, hrest, hbyte, ih hturns' h', Der.octets_of_pos hpos, List.append_assoc]
      rfl

/-- An element, as long as its length is a number of 31 bits. -/
theorem der_eq_element {tag : UInt8} {contents : List Bytes} (h : contents.flatten.length < 2 ^ 31) :
    der tag contents = Der.element [tag] contents.flatten := by
  unfold der Der.element Der.lengthOctets
  dsimp only
  by_cases hshort : contents.flatten.length < 128
  · rw [if_pos hshort, if_pos hshort]
    rfl
  · have hlen : (Der.octets contents.flatten.length).length < 2 ^ 7 := by
      have : contents.flatten.length < 256 ^ 4 := by omega
      have := Der.length_octets_le this
      omega
    have hor : 0x80 ||| (Der.octets contents.flatten.length).length =
        128 + (Der.octets contents.flatten.length).length := by
      simpa using (Nat.two_pow_add_eq_or_of_lt hlen 1).symm
    rw [if_neg hshort, if_neg hshort, unshiftLoop_octets le_rfl h, List.append_nil, hor]
    rfl

theorem length_flatten_le_der (tag : UInt8) (contents : List Bytes) :
    contents.flatten.length ≤ (der tag contents).length := by
  unfold der
  dsimp only
  rw [List.length_cons, List.length_append]
  omega

/-- A part is no longer than the whole. -/
theorem length_le_der {tag : UInt8} {contents : List Bytes} {part : Bytes} (h : part ∈ contents) :
    part.length ≤ (der tag contents).length :=
  (List.Sublist.length_le (List.sublist_flatten_of_mem h)).trans (length_flatten_le_der tag contents)

theorem ofBe_zero_cons (bytes : Bytes) : Wire.ofBe (0 :: bytes) = Wire.ofBe bytes := rfl

theorem ofBe_trimmed (bytes : Bytes) : Wire.ofBe (trimmed bytes) = Wire.ofBe bytes := by
  fun_induction trimmed bytes with
  | case1 c bytes ih => rw [ih, ofBe_zero_cons]
  | case2 b c bytes hb => rfl
  | case3 bytes h => rfl

/-- Only a zero that is the last byte is left. -/
theorem trimmed_spec {bytes : Bytes} (h : bytes ≠ []) :
    ∃ b rest, trimmed bytes = b :: rest ∧ (b = 0 → rest = []) := by
  fun_induction trimmed bytes with
  | case1 c bytes ih => exact ih (List.cons_ne_nil _ _)
  | case2 b c bytes hb => exact ⟨b, c :: bytes, rfl, fun hzero => absurd hzero hb⟩
  | case3 bytes hshort =>
    obtain ⟨b, rest, rfl⟩ := List.exists_cons_of_ne_nil h
    refine ⟨b, rest, rfl, fun _ => ?_⟩
    by_contra hrest
    obtain ⟨c, rest, rfl⟩ := List.exists_cons_of_ne_nil hrest
    exact hshort b c rest rfl

theorem top_bit (b : UInt8) : (b &&& 0x80 ≠ 0) ↔ 128 ≤ b.toNat := by
  have hb := b.toNat_lt
  have hand : (b &&& 0x80).toNat = (b.toNat.testBit 7).toNat * 2 ^ 7 := by
    have hmask : (0x80 : UInt8).toNat = 2 ^ 7 := rfl
    rw [UInt8.toNat_and, hmask, Nat.and_two_pow]
  have hbit : b.toNat.testBit 7 = decide (128 ≤ b.toNat) := by
    rw [Nat.testBit_eq_decide_div_mod_eq, decide_eq_decide]
    omega
  rw [ne_eq, ← UInt8.toNat_inj, hand, hbit]
  by_cases htop : 128 ≤ b.toNat
  · simp [htop]
  · simp [htop]

/-- The bytes are an unsigned number, and are read as that. -/
theorem readNatural_integerContent {bytes : Bytes} (h : bytes ≠ []) :
    Der.readNatural (integerContent bytes) = some (Wire.ofBe bytes) := by
  obtain ⟨b, rest, htrimmed, hzero⟩ := trimmed_spec h
  unfold integerContent
  rw [← ofBe_trimmed bytes, htrimmed, List.head?_cons, Option.any_some]
  by_cases htop : 128 ≤ b.toNat
  · rw [if_pos (decide_eq_true ((top_bit b).mpr htop))]
    exact Der.readNatural_padded htop
  · rw [if_neg (by simpa using mt (top_bit b).mp htop)]
    exact Der.readNatural_least (by omega) hzero

/-! ### The request is a value -/

open Der (Tag Value)
open Pkcs10

/-- What `der` makes of some contents, as long as the tag takes one byte. -/
def derTag (t : Tag) (constructed : Bool) (contents : List Bytes) : Bytes :=
  if t.number < 31 then der (t.octet constructed) contents else Der.element (t.octets constructed) contents.flatten

theorem length_flatten_le_derTag (t : Tag) (constructed : Bool) (contents : List Bytes) :
    contents.flatten.length ≤ (derTag t constructed contents).length := by
  unfold derTag
  split
  · exact length_flatten_le_der _ _
  · exact (Der.length_lt_element t constructed _).le

theorem derTag_eq_element (t : Tag) (constructed : Bool) {contents : List Bytes}
    (h : contents.flatten.length < 2 ^ 31) :
    derTag t constructed contents = Der.element (t.octets constructed) contents.flatten := by
  unfold derTag
  split
  · rename_i hnumber
    rw [der_eq_element h, Tag.octets, if_pos hnumber]
  · rfl

mutual

/-- What `derTag` makes of a value. -/
def build : Value → Bytes
  | .primitive t content => derTag t false [content]
  | .constructed t vs => derTag t true (buildAll vs)

/-- `build` of each value. -/
def buildAll : List Value → List Bytes
  | [] => []
  | v :: vs => build v :: buildAll vs

end

mutual

/-- It makes the encoding, as long as that is less than `2 ^ 31` bytes. -/
theorem build_eq : ∀ v : Value, (build v).length < 2 ^ 31 ∨ (Der.encode v).length < 2 ^ 31 → build v = Der.encode v
  | .primitive t content, h => by
    have hflatten : [content].flatten = content := by simp
    have hder := length_flatten_le_derTag t false [content]
    have helement := Der.length_lt_element t false content
    rw [build, Der.encode] at h ⊢
    rw [hflatten] at hder
    rw [derTag_eq_element t false (by rw [hflatten]; omega), hflatten]
  | .constructed t vs, h => by
    have hder := length_flatten_le_derTag t true (buildAll vs)
    have helement := Der.length_lt_element t true (Der.encodeAll vs)
    rw [build, Der.encode] at h ⊢
    have hall : (buildAll vs).flatten = Der.encodeAll vs := buildAll_eq vs (by omega)
    rw [hall] at hder
    rw [derTag_eq_element t true (by rw [hall]; omega), hall]

theorem buildAll_eq : ∀ vs : List Value,
    (buildAll vs).flatten.length < 2 ^ 31 ∨ (Der.encodeAll vs).length < 2 ^ 31 →
      (buildAll vs).flatten = Der.encodeAll vs
  | [], _ => by simp [buildAll, Der.encodeAll]
  | v :: vs, h => by
    rw [buildAll, List.flatten_cons, Der.encodeAll] at h ⊢
    rw [List.length_append, List.length_append] at h
    have hv : build v = Der.encode v := build_eq v (by omega)
    have hvs : (buildAll vs).flatten = Der.encodeAll vs := buildAll_eq vs (by omega)
    rw [hv, hvs]

end

/-- What `der` makes is read as the value. -/
theorem decode_build {v : Value} (h : (build v).length < 2 ^ 31) : Der.decode (build v) = some v := by
  have heq := build_eq v (.inl h)
  have hsize : (2 : ℕ) ^ 31 ≤ 256 ^ 126 := by norm_num
  rw [heq] at h ⊢
  exact Der.decode_encode (h.trans_le hsize)

variable (hostname : String) (keys : KeyPair)

/-- The value of `oid(dotted)`. -/
def oidValue (dotted : String) : Value := .primitive OBJECT_IDENTIFIER (oidContent dotted)

/-- The value of the names. -/
def namesValue : Value :=
  .constructed SEQUENCE
    [.primitive (context 2) (utf8 hostname), .primitive (context 2) (utf8 ("*." ++ hostname))]

/-- The subject: the host name as its common name. -/
def subjectValue : Value :=
  .constructed SEQUENCE
    [.constructed SET [.constructed SEQUENCE [oidValue COMMON_NAME, .primitive UTF8_STRING (utf8 hostname)]]]

/-- The attributes: the one extension that is asked for, with the DNS names. -/
def extensionsValue : Value :=
  .constructed (context 0) [.constructed SEQUENCE [
    oidValue EXTENSION_REQUEST,
    .constructed SET [.constructed SEQUENCE [.constructed SEQUENCE [
      oidValue SUBJECT_ALT_NAME,
      .primitive OCTET_STRING (build (namesValue hostname))]]]]]

/-- What is signed. -/
def infoValue (spki : Value) : Value :=
  .constructed SEQUENCE [.primitive INTEGER [0], subjectValue hostname, spki, extensionsValue hostname]

/-- The value of the signature. -/
def numbersValue (raw : Bytes) : Value :=
  .constructed SEQUENCE
    [.primitive INTEGER (integerContent (raw.take 32)), .primitive INTEGER (integerContent (raw.drop 32))]

/-- The values of the parts. -/
def partValues (spki : Value) : List Value :=
  [infoValue hostname spki, .constructed SEQUENCE [oidValue ECDSA_WITH_SHA256],
    .primitive BIT_STRING (0 :: build (numbersValue (raw hostname keys)))]

theorem info_eq {spki : Value} (h : build spki = keys.publicKey) :
    info hostname keys = build (infoValue hostname spki) := by
  simp only [infoValue, subjectValue, extensionsValue, namesValue, oidValue, build, buildAll, h]
  rfl

theorem parts_eq {spki : Value} (h : build spki = keys.publicKey) :
    parts hostname keys = buildAll (partValues hostname keys spki) := by
  simp only [partValues, buildAll, ← info_eq hostname keys h]
  simp only [numbersValue, oidValue, build, buildAll]
  rfl

/-- What is signed is less than all of it, and so is what the extension holds. -/
theorem length_info_le : (info hostname keys).length ≤ (parts hostname keys).flatten.length :=
  List.Sublist.length_le (List.sublist_flatten_of_mem (by simp [parts]))

theorem length_publicKey_le : keys.publicKey.length ≤ (info hostname keys).length :=
  length_le_der (by simp)

/-- The names stand in what is signed. -/
theorem length_namesValue_le : (build (namesValue hostname)).length ≤ (info hostname keys).length := by
  have hnames : sequence [dnsName hostname, dnsName ("*." ++ hostname)] = build (namesValue hostname) := by
    simp only [namesValue, build, buildAll]
    rfl
  have hone : ∀ part : Bytes, part ∈ [part] := List.mem_singleton_self
  have htwo : ∀ other part : Bytes, part ∈ [other, part] := fun other part => .tail other (hone part)
  rw [← hnames]
  calc (sequence [dnsName hostname, dnsName ("*." ++ hostname)]).length
    _ ≤ (der 0x04 [sequence [dnsName hostname, dnsName ("*." ++ hostname)]]).length := length_le_der (hone _)
    _ ≤ (sequence [oid SUBJECT_ALT_NAME, _]).length := length_le_der (htwo _ _)
    _ ≤ (sequence [_]).length := length_le_der (hone _)
    _ ≤ (set [_]).length := length_le_der (hone _)
    _ ≤ (sequence [oid EXTENSION_REQUEST, _]).length := length_le_der (htwo _ _)
    _ ≤ (der 0xa0 [_]).length := length_le_der (hone _)
    _ ≤ (info hostname keys).length := length_le_der (.tail _ (.tail _ (htwo _ _)))

theorem length_numbersValue_le :
    (build (numbersValue (raw hostname keys))).length ≤ (parts hostname keys).flatten.length := by
  have hnumbers : build (numbersValue (raw hostname keys)) =
      sequence [integer ((raw hostname keys).take 32), integer ((raw hostname keys).drop 32)] := by
    simp only [numbersValue, build, buildAll]
    rfl
  rw [hnumbers]
  exact (length_le_der (.tail _ (.head _))).trans
    (List.Sublist.length_le (List.sublist_flatten_of_mem (.tail _ (.tail _ (.head _)))))

/-- The request is read as its parts. -/
theorem decode_request {spki : Value} (h : build spki = keys.publicKey)
    (hsize : (parts hostname keys).flatten.length < 2 ^ 31) :
    Der.decode (request hostname keys) = some (.constructed SEQUENCE (partValues hostname keys spki)) := by
  have hparts := parts_eq hostname keys h
  have hflatten : (parts hostname keys).flatten = Der.encodeAll (partValues hostname keys spki) := by
    rw [hparts] at hsize ⊢
    exact buildAll_eq _ (.inl hsize)
  have hrequest : request hostname keys = Der.encode (.constructed SEQUENCE (partValues hostname keys spki)) := by
    rw [Der.encode, ← hflatten]
    exact der_eq_element hsize
  have hbig : (2 : ℕ) ^ 31 + 128 ≤ 256 ^ 126 := by norm_num
  rw [hrequest]
  refine Der.decode_encode ?_
  rw [Der.encode, ← hflatten]
  have hlength : (parts hostname keys).flatten.length < 256 ^ 126 := by omega
  have := Der.length_element_le (SEQUENCE.octets true) hlength
  have htag : (SEQUENCE.octets true).length = 1 := rfl
  omega

end Csr

/-! ### The request is read -/

namespace Pkcs10

open Csr

variable (hostname : String) (keys : KeyPair)

theorem readText_utf8 (tag : Der.Tag) (value : String) : readText tag (.primitive tag (utf8 value)) = some value := by
  unfold readText
  rw [content_primitive, Option.bind_some, readToString_utf8]

theorem readInteger_content {bytes : Bytes} (h : bytes ≠ []) :
    readInteger (.primitive INTEGER (integerContent bytes)) = some (Wire.ofBe bytes) := by
  unfold readInteger
  rw [content_primitive, Option.bind_some, readNatural_integerContent h]

/-- The four identifiers. -/
theorem readOid_commonName : readOid (oidValue COMMON_NAME) = some [2, 5, 4, 3] := by decide

theorem readOid_extensionRequest : readOid (oidValue EXTENSION_REQUEST) = some [1, 2, 840, 113549, 1, 9, 14] := by
  decide

theorem readOid_subjectAltName : readOid (oidValue SUBJECT_ALT_NAME) = some [2, 5, 29, 17] := by decide

theorem readOid_ecdsaWithSha256 : readOid (oidValue ECDSA_WITH_SHA256) = some [1, 2, 840, 10045, 4, 3, 2] := by
  decide

theorem readName_subject : readName (subjectValue hostname) = some [[([2, 5, 4, 3], hostname)]] := by
  have hattribute : readAttribute (.constructed SEQUENCE
      [oidValue COMMON_NAME, .primitive UTF8_STRING (utf8 hostname)]) = some ([2, 5, 4, 3], hostname) := by
    unfold readAttribute
    rw [elements_constructed]
    dsimp only
    rw [readOid_commonName, readText_utf8, Option.bind_some, Option.map_some]
  simp [readName, subjectValue, hattribute]

theorem readExtensions_extensions :
    readExtensions (extensionsValue hostname) = some [([2, 5, 29, 17], build (namesValue hostname))] := by
  have hextension : readExtension (.constructed SEQUENCE
      [oidValue SUBJECT_ALT_NAME, .primitive OCTET_STRING (build (namesValue hostname))]) =
        some ([2, 5, 29, 17], build (namesValue hostname)) := by
    unfold readExtension
    rw [elements_constructed]
    dsimp only
    rw [readOid_subjectAltName, content_primitive, Option.bind_some, Option.map_some]
  simp [readExtensions, extensionsValue, readOid_extensionRequest, hextension]

theorem readDnsNames_names (h : (build (namesValue hostname)).length < 2 ^ 31) :
    readDnsNames (build (namesValue hostname)) = some [utf8 hostname, utf8 ("*." ++ hostname)] := by
  unfold readDnsNames
  rw [decode_build h]
  simp [namesValue]

theorem readSignature_numbers {raw : Bytes} (hraw : raw.length = 64)
    (h : (build (numbersValue raw)).length < 2 ^ 31) :
    readSignature (.primitive BIT_STRING (0 :: build (numbersValue raw))) =
      some (Wire.ofBe (raw.take 32), Wire.ofBe (raw.drop 32)) := by
  have htake : raw.take 32 ≠ [] := by
    rw [← List.length_pos_iff, List.length_take]
    omega
  have hdrop : raw.drop 32 ≠ [] := by
    rw [← List.length_pos_iff, List.length_drop]
    omega
  unfold readSignature
  rw [content_primitive]
  simp only [decode_build h, Option.bind_some]
  simp [numbersValue, readInteger_content htake, readInteger_content hdrop]

/-- A name of ASCII is an `IA5String`. -/
theorem readIa5_utf8 {value : String} (h : ∀ c ∈ value.toList, asciiChar c = true) :
    readIa5 (utf8 value) = some value := by
  have hall : (utf8 value).all (fun b => decide (b.toNat < 128)) = true := by
    rw [utf8_ascii h, List.all_map, List.all_eq_true]
    intro c hc
    have := h c hc
    simp only [asciiChar, decide_eq_true_eq] at this
    simp
    omega
  unfold readIa5
  rw [if_pos hall, readToString_utf8]

/-- The digits one by one. -/
theorem digit_eq (n : ℕ) :
    base64.digit n = [
      'A', 'B', 'C', 'D', 'E', 'F', 'G', 'H', 'I', 'J', 'K', 'L', 'M', 'N', 'O', 'P', 'Q', 'R', 'S', 'T', 'U', 'V',
      'W', 'X', 'Y', 'Z', 'a', 'b', 'c', 'd', 'e', 'f', 'g', 'h', 'i', 'j', 'k', 'l', 'm', 'n', 'o', 'p', 'q', 'r',
      's', 't', 'u', 'v', 'w', 'x', 'y', 'z', '0', '1', '2', '3', '4', '5', '6', '7', '8', '9', '+', '/'
    ].getD n '=' := by
  unfold base64.digit
  simp

theorem sextet_digit {n : ℕ} (h : n < 64) :
    sextet (base64.digit n) = some n ∧ base64.digit n ≠ '=' ∧ base64.digit n ≠ '-' ∧ base64.digit n ≠ '\n' := by
  have table : ∀ i : Fin 64, sextet (base64.digit i) = some (i : ℕ) ∧ base64.digit i ≠ '=' ∧
      base64.digit i ≠ '-' ∧ base64.digit i ≠ '\n' := by
    simp only [digit_eq]
    decide
  exact table ⟨n, h⟩

/-- The bits of a byte come together again. -/
theorem first_bits (a b : UInt8) : a.toNat / 4 * 4 + (a.toNat % 4 * 16 + b.toNat / 16) / 16 = a.toNat := by
  have hb := b.toNat_lt
  omega

theorem second_bits (a b c : UInt8) :
    (a.toNat % 4 * 16 + b.toNat / 16) % 16 * 16 + (b.toNat % 16 * 4 + c.toNat / 64) / 4 = b.toNat := by
  have hb := b.toNat_lt
  have hc := c.toNat_lt
  omega

theorem third_bits (b c : UInt8) : (b.toNat % 16 * 4 + c.toNat / 64) % 4 * 64 + c.toNat % 64 = c.toNat := by
  have hc := c.toNat_lt
  omega

theorem last_second_bits (a b : UInt8) :
    (a.toNat % 4 * 16 + b.toNat / 16) % 16 * 16 + b.toNat % 16 * 4 / 4 = b.toNat := by
  have hb := b.toNat_lt
  omega

theorem last_first_bits (a : UInt8) : a.toNat / 4 * 4 + a.toNat % 4 * 16 / 16 = a.toNat := by omega

theorem quantum_three {last : Bool} (a b c : UInt8) :
    quantum last (base64.digit (a.toNat / 4)) (base64.digit (a.toNat % 4 * 16 + b.toNat / 16))
      (base64.digit (b.toNat % 16 * 4 + c.toNat / 64)) (base64.digit (c.toNat % 64)) = some [a, b, c] := by
  have ha := a.toNat_lt
  have hb := b.toNat_lt
  have hc := c.toNat_lt
  obtain ⟨h1, -⟩ := sextet_digit (n := a.toNat / 4) (by omega)
  obtain ⟨h2, -⟩ := sextet_digit (n := a.toNat % 4 * 16 + b.toNat / 16) (by omega)
  obtain ⟨h3, hne3, -⟩ := sextet_digit (n := b.toNat % 16 * 4 + c.toNat / 64) (by omega)
  obtain ⟨h4, hne4, -⟩ := sextet_digit (n := c.toNat % 64) (by omega)
  unfold quantum
  simp only [h1, h2, h3, h4, hne3, hne4, if_false, Option.bind_some, Option.map_some, first_bits, second_bits,
    third_bits, UInt8.ofNat_toNat]

theorem quantum_two (a b : UInt8) :
    quantum true (base64.digit (a.toNat / 4)) (base64.digit (a.toNat % 4 * 16 + b.toNat / 16))
      (base64.digit (b.toNat % 16 * 4)) '=' = some [a, b] := by
  have ha := a.toNat_lt
  have hb := b.toNat_lt
  obtain ⟨h1, -⟩ := sextet_digit (n := a.toNat / 4) (by omega)
  obtain ⟨h2, -⟩ := sextet_digit (n := a.toNat % 4 * 16 + b.toNat / 16) (by omega)
  obtain ⟨h3, hne3, -⟩ := sextet_digit (n := b.toNat % 16 * 4) (by omega)
  have hover : b.toNat % 16 * 4 % 4 = 0 := by omega
  unfold quantum
  simp only [h1, h2, h3, hne3, hover, if_false, if_true, and_self, Option.bind_some, first_bits, last_second_bits,
    UInt8.ofNat_toNat]

theorem quantum_one (a : UInt8) :
    quantum true (base64.digit (a.toNat / 4)) (base64.digit (a.toNat % 4 * 16)) '=' '=' = some [a] := by
  have ha := a.toNat_lt
  obtain ⟨h1, -⟩ := sextet_digit (n := a.toNat / 4) (by omega)
  obtain ⟨h2, -⟩ := sextet_digit (n := a.toNat % 4 * 16) (by omega)
  have hover : a.toNat % 4 * 16 % 16 = 0 := by omega
  unfold quantum
  simp only [h1, h2, hover, if_true, and_self, Option.bind_some, last_first_bits, UInt8.ofNat_toNat]

theorem readBase64_base64 (bytes : Bytes) : readBase64 (base64 bytes) = some bytes := by
  fun_induction base64 bytes with
  | case1 a b c bytes ih =>
    rw [readBase64, quantum_three, ih]
    rfl
  | case2 a b =>
    rw [readBase64, List.isEmpty_nil, quantum_two]
    rfl
  | case3 a =>
    rw [readBase64, List.isEmpty_nil, quantum_one]
    rfl
  | case4 => rfl

/-- The numbers that the digits stand for. -/
def sextets : Bytes → List ℕ
  | a :: b :: c :: bytes =>
    a.toNat / 4 :: (a.toNat % 4 * 16 + b.toNat / 16) :: (b.toNat % 16 * 4 + c.toNat / 64) :: c.toNat % 64 ::
      sextets bytes
  | [a, b] => [a.toNat / 4, a.toNat % 4 * 16 + b.toNat / 16, b.toNat % 16 * 4]
  | [a] => [a.toNat / 4, a.toNat % 4 * 16]
  | [] => []

theorem lt_of_mem_sextets {bytes : Bytes} {n : ℕ} (h : n ∈ sextets bytes) : n < 64 := by
  fun_induction sextets bytes with
  | case1 a b c bytes ih =>
    have ha := a.toNat_lt
    have hb := b.toNat_lt
    have hc := c.toNat_lt
    simp only [List.mem_cons] at h
    rcases h with rfl | rfl | rfl | rfl | h
    · omega
    · omega
    · omega
    · omega
    · exact ih h
  | case2 a b =>
    have ha := a.toNat_lt
    have hb := b.toNat_lt
    simp only [List.mem_cons, List.not_mem_nil, or_false] at h
    omega
  | case3 a =>
    have ha := a.toNat_lt
    simp only [List.mem_cons, List.not_mem_nil, or_false] at h
    omega
  | case4 => cases h

/-- Digits, and signs up to a multiple of four. -/
theorem base64_eq (bytes : Bytes) :
    base64 bytes = (sextets bytes).map base64.digit ++ List.replicate ((4 - (sextets bytes).length % 4) % 4) '=' := by
  fun_induction sextets bytes with
  | case1 a b c bytes ih =>
    have hmod : (sextets bytes).length + 1 + 1 + 1 + 1 = (sextets bytes).length + 4 := rfl
    simp only [base64, ih, List.map_cons, List.length_cons, List.cons_append, hmod, Nat.add_mod_right]
  | case2 a b => rfl
  | case3 a => rfl
  | case4 => rfl

/-- Neither a hyphen nor a line's end is a digit. -/
theorem mem_base64 {bytes : Bytes} {c : Char} (h : c ∈ base64 bytes) : c ≠ '-' ∧ c ≠ '\n' := by
  rw [base64_eq, List.mem_append, List.mem_map] at h
  rcases h with ⟨n, hn, rfl⟩ | hpad
  · exact (sextet_digit (lt_of_mem_sextets hn)).2.2
  · rw [List.eq_of_mem_replicate hpad]
    decide

/-- Without the ends of the lines it is the text. -/
theorem filter_inLines {turns : ℕ} {text : List Char} {keep : Char → Bool} (hend : keep '\n' = false)
    (hturns : text.length ≤ turns) (h : ∀ c ∈ text, keep c = true) : (inLines turns text).filter keep = text := by
  induction turns generalizing text with
  | zero =>
    obtain rfl := List.length_eq_zero_iff.mp (Nat.le_zero.mp hturns)
    rfl
  | succ turns ih =>
    by_cases hnil : text = []
    · rw [hnil]
      rfl
    · have hpos := List.length_pos_iff.mpr hnil
      have hline : (text.take 64).filter keep = text.take 64 :=
        List.filter_eq_self.mpr fun c hc => h c (List.mem_of_mem_take hc)
      have hrest : (inLines turns (text.drop 64)).filter keep = text.drop 64 := by
        refine ih ?_ fun c hc => h c (List.mem_of_mem_drop hc)
        rw [List.length_drop]
        omega
      have hskip : ¬keep '\n' = true := by rw [hend]; decide
      rw [inLines, List.filter_append, List.filter_cons_of_neg hskip, hline, hrest, List.take_append_drop]
      exact hnil

theorem mem_inLines {turns : ℕ} {text : List Char} {c : Char} (h : c ∈ inLines turns text) :
    c ∈ text ∨ c = '\n' := by
  induction turns generalizing text with
  | zero => cases h
  | succ turns ih =>
    by_cases hnil : text = []
    · rw [hnil] at h
      cases h
    · rw [inLines, List.mem_append, List.mem_cons] at h
      · rcases h with hline | hend | hrest
        · exact .inl (List.mem_of_mem_take hline)
        · exact .inr hend
        · exact (ih hrest).imp_left List.mem_of_mem_drop
      · exact hnil

/-- The text is that of the request. -/
theorem readPem_certificateRequest :
    readPem (certificateRequest hostname keys) = some (request hostname keys) := by
  have hplain : ∀ c ∈ base64 (request hostname keys), decide (c ≠ '\n') = true := fun c hc =>
    decide_eq_true (mem_base64 hc).2
  have hfilter := filter_inLines (decide_eq_false (not_not.mpr rfl)) le_rfl hplain
  have hlines : ∀ c ∈ inLines (base64 (request hostname keys)).length (base64 (request hostname keys)),
      decide (c ≠ '-') = true := by
    intro c hc
    rcases mem_inLines hc with htext | rfl
    · exact decide_eq_true (mem_base64 htext).1
    · decide
  have htake : ∀ last : List Char, last.head? = some '-' →
      (inLines (base64 (request hostname keys)).length (base64 (request hostname keys)) ++ last).takeWhile (· ≠ '-') =
        inLines (base64 (request hostname keys)).length (base64 (request hostname keys)) := by
    intro last hlast
    obtain ⟨rest, rfl⟩ := List.head?_eq_some_iff.mp hlast
    rw [List.takeWhile_append_of_pos hlines, List.takeWhile_cons_of_neg (by decide), List.append_nil]
  unfold readPem certificateRequest
  simp only [String.toList_append, String.toList_ofList, List.append_assoc, List.drop_left]
  rw [htake _ (by decide), if_pos rfl, hfilter, readBase64_base64]

end Pkcs10

open Csr in
/-- The text has the bytes of a request in DER, for the host name, its wildcard, the
public key and the signature's two numbers. The outermost content is the longest, so
every element is of less than `2 ^ 31` bytes. -/
theorem request_reads (hostname : String) (keys : KeyPair) {spki : Der.Value}
    (hspki : Der.decode keys.publicKey = some spki) (hkey : Pkcs10.isPublicKeyInfo spki = true)
    (hraw : (raw hostname keys).length = 64) (hsize : (parts hostname keys).flatten.length < 2 ^ 31) :
    ∃ bytes san names, Pkcs10.readPem (certificateRequest hostname keys) = some bytes ∧
      Pkcs10.read bytes = some {
        info := info hostname keys
        version := 0
        subject := [[([2, 5, 4, 3], hostname)]]
        publicKey := keys.publicKey
        extensions := [([2, 5, 29, 17], san)]
        algorithm := [1, 2, 840, 10045, 4, 3, 2]
        signature := (Wire.ofBe ((raw hostname keys).take 32), Wire.ofBe ((raw hostname keys).drop 32)) } ∧
      Pkcs10.readDnsNames san = some names ∧
      names.mapM readToString = some [hostname, "*." ++ hostname] ∧
      ((∀ c ∈ hostname.toList, asciiChar c = true) →
        names.mapM Pkcs10.readIa5 = some [hostname, "*." ++ hostname]) := by
  have hinfo := length_info_le hostname keys
  have hkeySize := length_publicKey_le hostname keys
  have hnamesSize := length_namesValue_le hostname keys
  have hnumbersSize := length_numbersValue_le hostname keys
  have hencode : Der.encode spki = keys.publicKey := Der.encode_of_decode hspki
  have hbuild : build spki = keys.publicKey := by
    rw [← hencode]
    exact build_eq spki (.inr (by rw [hencode]; omega))
  have hsigned : Der.encode (infoValue hostname spki) = info hostname keys := by
    have heq := info_eq hostname keys hbuild
    rw [heq]
    exact (build_eq _ (.inl (by rw [← heq]; omega))).symm
  refine ⟨request hostname keys, build (namesValue hostname), [utf8 hostname, utf8 ("*." ++ hostname)],
    Pkcs10.readPem_certificateRequest hostname keys, ?_, Pkcs10.readDnsNames_names hostname (by omega), ?_,
    fun hascii => ?_⟩
  · have hdecode := decode_request hostname keys hbuild hsize
    have helements : Pkcs10.elements Pkcs10.SEQUENCE (infoValue hostname spki) =
        some [.primitive Pkcs10.INTEGER [0], subjectValue hostname, spki, extensionsValue hostname] :=
      Pkcs10.elements_constructed _ _
    have hversion : Pkcs10.readInteger (.primitive Pkcs10.INTEGER [0]) = some 0 := by decide
    have hsubject := Pkcs10.readName_subject hostname
    have hextensions := Pkcs10.readExtensions_extensions hostname
    have hsignature := Pkcs10.readSignature_numbers hraw (by omega)
    unfold Pkcs10.read
    rw [hdecode, Option.bind_some, Pkcs10.elements_constructed]
    simp only [partValues, helements, Pkcs10.elements_constructed, hkey, if_true, hversion, hsubject, hextensions,
      Pkcs10.readOid_ecdsaWithSha256, hsignature, hsigned, hencode, Option.bind_some, Option.map_some]
  · simp [readToString_utf8]
  · have hwildcard : ∀ c ∈ ("*." ++ hostname).toList, asciiChar c = true := by
      have hlist : ("*." ++ hostname).toList = '*' :: '.' :: hostname.toList := by
        rw [String.toList_append]
        rfl
      intro c hc
      rw [hlist, List.mem_cons, List.mem_cons] at hc
      rcases hc with rfl | rfl | hname
      · rfl
      · rfl
      · exact hascii c hname
    simp [Pkcs10.readIa5_utf8 hascii, Pkcs10.readIa5_utf8 hwildcard]

open Csr in
/-- At numbers that are padded and trimmed. -/
theorem request_reads_padded :
    let keys : KeyPair := {
      publicKey := [0x30, 8, 0x30, 3, 6, 1, 0x2a, 3, 1, 0]
      sign := fun _ => List.replicate 32 0x80 ++ 0 :: List.replicate 31 1 }
    ∃ bytes san names, Pkcs10.readPem (certificateRequest "a.b" keys) = some bytes ∧
      Pkcs10.read bytes = some {
        info := info "a.b" keys
        version := 0
        subject := [[([2, 5, 4, 3], "a.b")]]
        publicKey := keys.publicKey
        extensions := [([2, 5, 29, 17], san)]
        algorithm := [1, 2, 840, 10045, 4, 3, 2]
        signature := (Wire.ofBe (List.replicate 32 0x80), Wire.ofBe (List.replicate 31 1)) } ∧
      Pkcs10.readDnsNames san = some names ∧
      names.mapM readToString = some ["a.b", "*.a.b"] ∧
      ((∀ c ∈ "a.b".toList, asciiChar c = true) → names.mapM Pkcs10.readIa5 = some ["a.b", "*.a.b"]) :=
  @request_reads "a.b" _
    (.constructed Pkcs10.SEQUENCE [
      .constructed Pkcs10.SEQUENCE [.primitive Pkcs10.OBJECT_IDENTIFIER [0x2a]], .primitive Pkcs10.BIT_STRING [0]])
    rfl (by decide) (by decide) (by decide +kernel)

end ShuvTunnel
