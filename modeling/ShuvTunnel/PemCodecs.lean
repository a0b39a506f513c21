/-
# What is written in base64, and read again

The server's codecs: `base64Url` and its decoder, `toPem` for the certificates it
gets and `pemBody` for the request it is sent. Bytes go through texts of one byte a
character, as `btoa` and `atob` want them: `btoa` gives padded base64 and `atob`
decodes forgivingly. White space is dropped, padding may be absent, bits over do
not matter. Between the two are the digits' numbers, `Pkcs10.sextets`: the padding
that is cut off is computed again from how many there are.

Key definitions: `btoa`, `atob`, `base64Url`, `decodeBase64Url`, `toPem`, `pemBody`.
Key theorems: `atob_base64`, `base64Url_eq`, `pemBody_base64`, `codecs_round_trip`.
-/
import ShuvTunnel.SigningRequest

namespace ShuvTunnel

/-! ### Texts of bytes -/

/-- `String.fromCharCode` of every byte. -/
def binary (data : Bytes) : String := String.ofList (data.map fun b => Char.ofNat b.toNat)

/-- `Uint8Array.from(text, (c) => c.charCodeAt(0))`, of a text that `atob` gave. -/
def charCodes (text : String) : Bytes := text.toList.map fun c => .ofNat c.toNat

/-- It throws at a character of more than one byte. -/
def btoa (text : String) : Option String :=
  if text.toList.all (fun c => decide (c.toNat ≤ 0xFF)) then some (String.ofList (Csr.base64 (charCodes text)))
  else none

/-- ASCII white space. -/
def asciiSpace (c : Char) : Bool := c = '\t' || c = '\n' || c.toNat = 0xC || c = '\r' || c = ' '

/-- Without one or two signs at the end. -/
def unpad (text : List Char) : List Char :=
  if ['=', '='] <:+ text then text.dropLast.dropLast
  else if ['='] <:+ text then text.dropLast
  else text

/-- The bytes of the digits' numbers, without the bits over. -/
def octets : List ℕ → Bytes
  | a :: b :: c :: d :: ns =>
    .ofNat (a * 4 + b / 16) :: .ofNat (b % 16 * 16 + c / 4) :: .ofNat (c % 4 * 64 + d) :: octets ns
  | [a, b, c] => [.ofNat (a * 4 + b / 16), .ofNat (b % 16 * 16 + c / 4)]
  | [a, b] => [.ofNat (a * 4 + b / 16)]
  | _ => []

/-- Forgiving base64. It throws at what is no digit, and at one digit over. -/
def atob (data : String) : Option String :=
  let text := data.toList.filter fun c => !asciiSpace c
  let digits := if text.length % 4 = 0 then unpad text else text
  if digits.length % 4 = 1 then none
  else (digits.mapM Pkcs10.sextet).map fun ns => binary (octets ns)

/-! ### The codecs -/

/-- `replace` of every `a` by `b`. -/
def replaceAll (a b : Char) (text : List Char) : List Char := text.map fun c => if c = a then b else c

/-- `length` counts UTF-16 units. -/
def units (text : List Char) : ℕ := (text.map fun c => if c.toNat < 0x10000 then 1 else 2).sum

/-- The text in the digits of base64, and behind it as many signs as are missing. -/
def repadded (value : List Char) : List Char :=
  let base64 := replaceAll '_' '/' (replaceAll '-' '+' value)
  base64 ++ List.replicate ((4 - units base64 % 4) % 4) '='

/-- `base64Url`: without padding, and with `-` and `_`. -/
def base64Url (data : Bytes) : Option String :=
  (btoa (binary data)).map fun text =>
    String.ofList ((replaceAll '/' '_' (replaceAll '+' '-' text.toList)).rdropWhile (· = '='))

/-- `decodeBase64Url`: what padding is missing is put back. -/
def decodeBase64Url (value : String) : Option Bytes :=
  (atob (String.ofList (repadded value.toList))).map charCodes

/-- What a dot of a regular expression does not match. -/
def lineEnd (c : Char) : Bool := c = '\n' || c = '\r' || c.toNat = 0x2028 || c.toNat = 0x2029

/-- `match(/.{1,64}/g)`. -/
def matchLines : ℕ → List Char → List (List Char)
  | 0, _ | _, [] => []
  | turns + 1, c :: text =>
    if lineEnd c then matchLines turns text
    else
      let line := ((c :: text).take 64).takeWhile fun c => !lineEnd c
      line :: matchLines turns ((c :: text).drop line.length)

/-- `toPem`: lines of 64 characters in the frame of a certificate. -/
def toPem (buffer : Bytes) : Option String :=
  (base64Url buffer).map fun body =>
    let padded := repadded body.toList
    let lines := (matchLines padded.length padded).map String.ofList
    "-----BEGIN CERTIFICATE-----\n" ++ (if lines = [] then String.ofList padded else "\n".intercalate lines) ++
      "\n-----END CERTIFICATE-----"

/-- The dashes of a PEM frame. -/
def dashes : List Char := "-----".toList

/-- Up to the label of a boundary. -/
def opening (word : String) : List Char := dashes ++ (word ++ " ").toList

/-- What is behind a boundary at the front, such as `-----BEGIN [^-]+-----`. The label
goes on up to a hyphen, however it is matched. -/
def behindBoundary (word : String) (text : List Char) : Option (List Char) :=
  let label := (text.drop (opening word).length).takeWhile (· ≠ '-')
  let rest := (text.drop (opening word).length).dropWhile (· ≠ '-')
  if opening word <+: text ∧ label ≠ [] ∧ dashes <+: rest then some (rest.drop dashes.length) else none

/-- The first boundary is replaced by nothing. -/
def removeBoundary (word : String) : List Char → List Char
  | [] => []
  | c :: text =>
    match behindBoundary word (c :: text) with
    | some rest => rest
    | none => c :: removeBoundary word text

/-- `\s` in a regular expression. -/
def whiteSpace (c : Char) : Bool := commonSpace c || c.toNat = 0xFEFF

/-- `pemBody`: the frames and all white space are taken away. -/
def pemBody (pem : String) : String :=
  String.ofList ((removeBoundary "END" (removeBoundary "BEGIN" pem.toList)).filter fun c => !whiteSpace c)

/-- The `csr` of the finalization. -/
def finalizedCsr (csr : String) : Option String :=
  (atob (pemBody csr)).bind fun text => base64Url (charCodes text)

/-- The characters of base64url, of which the sign is none. -/
def urlSafe (c : Char) : Bool :=
  ('A' ≤ c && c ≤ 'Z') || ('a' ≤ c && c ≤ 'z') || ('0' ≤ c && c ≤ '9') || c = '-' || c = '_'

/-! ### Digits -/

open Csr Pkcs10

theorem toNat_byte (b : UInt8) : (Char.ofNat b.toNat).toNat = b.toNat := by
  have hvalid : b.toNat.isValidChar := .inl (b.toNat_lt.trans (by decide))
  unfold Char.ofNat
  rw [dif_pos hvalid]
  rfl

theorem charCodes_binary (data : Bytes) : charCodes (binary data) = data := by
  have hbyte : ∀ b : UInt8, UInt8.ofNat (Char.ofNat b.toNat).toNat = b := by
    intro b
    rw [toNat_byte, UInt8.ofNat_toNat]
  unfold charCodes binary
  rw [String.toList_ofList, List.map_map]
  exact (List.map_congr_left fun b _ => hbyte b).trans (List.map_id _)

/-- No byte is too much for it. -/
theorem btoa_binary (data : Bytes) : btoa (binary data) = some (String.ofList (base64 data)) := by
  have hall : (binary data).toList.all (fun c => decide (c.toNat ≤ 0xFF)) = true := by
    unfold binary
    rw [String.toList_ofList, List.all_map, List.all_eq_true]
    intro b _
    have hb := b.toNat_lt
    rw [Function.comp_apply, toNat_byte, decide_eq_true_eq]
    omega
  unfold btoa
  rw [if_pos hall, charCodes_binary]

theorem octets_sextets (bytes : Bytes) : octets (sextets bytes) = bytes := by
  fun_induction sextets bytes with
  | case1 a b c bytes ih => simp only [octets, first_bits, second_bits, third_bits, UInt8.ofNat_toNat, ih]
  | case2 a b => simp only [octets, first_bits, last_second_bits, UInt8.ofNat_toNat]
  | case3 a => simp only [octets, last_first_bits, UInt8.ofNat_toNat]
  | case4 => rfl

/-- One digit is never over. -/
theorem length_sextets (bytes : Bytes) : (sextets bytes).length % 4 ≠ 1 := by
  fun_induction sextets bytes with
  | case1 a b c bytes ih =>
    simp only [List.length_cons]
    omega
  | case2 a b => simp
  | case3 a => simp
  | case4 => simp

/-- No digit is white space or anything that is replaced. -/
theorem digit_plain {n : ℕ} (h : n < 64) :
    asciiSpace (base64.digit n) = false ∧ whiteSpace (base64.digit n) = false ∧ lineEnd (base64.digit n) = false ∧
      base64.digit n ≠ '_' ∧ (base64.digit n).toNat < 0x10000 := by
  have table : ∀ i : Fin 64, asciiSpace (base64.digit i) = false ∧ whiteSpace (base64.digit i) = false ∧
      lineEnd (base64.digit i) = false ∧ base64.digit i ≠ '_' ∧ (base64.digit i).toNat < 0x10000 := by
    simp only [digit_eq]
    decide
  exact table ⟨n, h⟩

/-- The digit of base64url. -/
def urlDigit (n : ℕ) : Char := if n = 62 then '-' else if n = 63 then '_' else base64.digit n

theorem urlDigit_spec {n : ℕ} (h : n < 64) :
    urlSafe (urlDigit n) = true ∧ urlDigit n ≠ '=' ∧
      (fun c => if c = '/' then '_' else c) (if base64.digit n = '+' then '-' else base64.digit n) = urlDigit n ∧
      (fun c => if c = '_' then '/' else c) (if urlDigit n = '-' then '+' else urlDigit n) = base64.digit n := by
  have table : ∀ i : Fin 64, urlSafe (urlDigit i) = true ∧ urlDigit i ≠ '=' ∧
      (fun c => if c = '/' then '_' else c) (if base64.digit i = '+' then '-' else base64.digit i) = urlDigit i ∧
      (fun c => if c = '_' then '/' else c) (if urlDigit i = '-' then '+' else urlDigit i) = base64.digit i := by
    simp only [urlDigit, digit_eq]
    decide
  exact table ⟨n, h⟩

theorem mapM_sextet_digits {ns : List ℕ} (h : ∀ n ∈ ns, n < 64) :
    (ns.map base64.digit).mapM sextet = some ns := by
  induction ns with
  | nil => rfl
  | cons n ns ih =>
    obtain ⟨hn, hns⟩ := List.forall_mem_cons.mp h
    simp [(sextet_digit hn).1, ih hns]

theorem digits_plain {ns : List ℕ} (h : ∀ n ∈ ns, n < 64) : '=' ∉ ns.map base64.digit := by
  intro hmem
  obtain ⟨n, hn, heq⟩ := List.mem_map.mp hmem
  exact (sextet_digit (h n hn)).2.1 heq

theorem unpad_append {text : List Char} (h : '=' ∉ text) {count : ℕ} (hcount : count ≤ 2) :
    unpad (text ++ List.replicate count '=') = text := by
  have hlast : ¬['='] <:+ text := fun hsuffix => h (hsuffix.subset (List.mem_singleton_self '='))
  have hpair : ¬['=', '='] <:+ text := fun hsuffix => h (hsuffix.subset List.mem_cons_self)
  unfold unpad
  obtain rfl | rfl | rfl : count = 0 ∨ count = 1 ∨ count = 2 := by omega
  · rw [List.replicate_zero, List.append_nil, if_neg hpair, if_neg hlast]
  · have hone : ¬['='] ++ ['='] <:+ text ++ ['='] := fun hsuffix => hlast (List.suffix_append_self_iff.mp hsuffix)
    rw [List.replicate_one]
    refine (if_neg hone).trans ?_
    rw [if_pos (List.suffix_append _ _), List.dropLast_concat]
  · have hsigns : ['=', '='] <:+ text ++ List.replicate 2 '=' := List.suffix_append _ _
    have htwo : text ++ List.replicate 2 '=' = (text ++ ['=']) ++ ['='] := by
      rw [List.append_assoc]
      rfl
    rw [if_pos hsigns, htwo, List.dropLast_concat, List.dropLast_concat]

/-- What it was given comes back. -/
theorem atob_base64 (bytes : Bytes) : atob (String.ofList (base64 bytes)) = some (binary bytes) := by
  have hdigits : ∀ n ∈ sextets bytes, n < 64 := fun n => lt_of_mem_sextets
  have hover := length_sextets bytes
  have hlength : (base64 bytes).length % 4 = 0 := by
    rw [base64_eq, List.length_append, List.length_map, List.length_replicate]
    omega
  have hspace : ((base64 bytes).filter fun c => !asciiSpace c) = base64 bytes := by
    rw [List.filter_eq_self, base64_eq]
    intro c hc
    rcases List.mem_append.mp hc with hdigit | hsign
    · obtain ⟨n, hn, rfl⟩ := List.mem_map.mp hdigit
      rw [(digit_plain (hdigits n hn)).1]
      rfl
    · rw [List.eq_of_mem_replicate hsign]
      rfl
  have hunpad : unpad (base64 bytes) = (sextets bytes).map base64.digit := by
    rw [base64_eq]
    exact unpad_append (digits_plain hdigits) (by omega)
  unfold atob
  rw [String.toList_ofList, hspace]
  simp only [hlength, if_true, hunpad, List.length_map, hover, if_false, mapM_sextet_digits hdigits,
    Option.map_some, octets_sextets]

/-! ### Base64url -/

/-- The digits, with no sign behind them. -/
theorem base64Url_eq (data : Bytes) : base64Url data = some (String.ofList ((sextets data).map urlDigit)) := by
  have hdigits : ∀ n ∈ sextets data, n < 64 := fun n => lt_of_mem_sextets
  have hreplaced : replaceAll '/' '_' (replaceAll '+' '-' (base64 data)) =
      (sextets data).map urlDigit ++ List.replicate ((4 - (sextets data).length % 4) % 4) '=' := by
    unfold replaceAll
    rw [base64_eq, List.map_append, List.map_append, List.map_map, List.map_map, List.map_replicate,
      List.map_replicate]
    exact congrArg₂ _ (List.map_congr_left fun n hn => (urlDigit_spec (hdigits n hn)).2.2.1) rfl
  have hstrip : ∀ count : ℕ, ((sextets data).map urlDigit ++ List.replicate count '=').rdropWhile (· = '=') =
      (sextets data).map urlDigit := by
    intro count
    induction count with
    | zero =>
      rw [List.replicate_zero, List.append_nil, List.rdropWhile_eq_self_iff]
      intro hne heq
      obtain ⟨n, hn, hdigit⟩ := List.mem_map.mp (List.getLast_mem hne)
      exact (urlDigit_spec (hdigits n hn)).2.1 (hdigit.trans (of_decide_eq_true heq))
    | succ count ih =>
      rw [List.replicate_succ', ← List.append_assoc, List.rdropWhile_concat_pos _ _ _ (by decide), ih]
  unfold base64Url
  rw [btoa_binary, Option.map_some, String.toList_ofList, hreplaced, hstrip]

theorem repadded_base64Url (data : Bytes) : repadded ((sextets data).map urlDigit) = base64 data := by
  have hdigits : ∀ n ∈ sextets data, n < 64 := fun n => lt_of_mem_sextets
  have hreplaced : replaceAll '_' '/' (replaceAll '-' '+' ((sextets data).map urlDigit)) =
      (sextets data).map base64.digit := by
    unfold replaceAll
    rw [List.map_map, List.map_map]
    exact List.map_congr_left fun n hn => (urlDigit_spec (hdigits n hn)).2.2.2
  have hunits : units ((sextets data).map base64.digit) = (sextets data).length := by
    have hone : ∀ n ∈ sextets data, ((fun c : Char => if c.toNat < 0x10000 then 1 else 2) ∘ base64.digit) n = 1 :=
      fun n hn => if_pos (digit_plain (hdigits n hn)).2.2.2.2
    unfold units
    rw [List.map_map, List.map_congr_left hone, List.map_const', List.sum_replicate_nat, mul_one]
  unfold repadded
  dsimp only
  rw [hreplaced, hunits, base64_eq]

/-! ### PEM -/

theorem dashes_eq : dashes = ['-', '-', '-', '-', '-'] := by
  unfold dashes
  simp

theorem behindBoundary_boundary (word : String) (rest : List Char) {label : List Char} (hlabel : label ≠ [])
    (hplain : '-' ∉ label) : behindBoundary word (opening word ++ (label ++ (dashes ++ rest))) = some rest := by
  have hall : ∀ c ∈ label, decide (c ≠ '-') = true := fun c hc => decide_eq_true fun heq => hplain (heq ▸ hc)
  have hdashes : decide ('-' ≠ '-') = false := by decide
  have htake : (label ++ (dashes ++ rest)).takeWhile (· ≠ '-') = label := by
    rw [List.takeWhile_append_of_pos hall, dashes_eq, List.cons_append, List.takeWhile_cons, hdashes]
    exact List.append_nil _
  have hdrop : (label ++ (dashes ++ rest)).dropWhile (· ≠ '-') = dashes ++ rest := by
    rw [List.dropWhile_append_of_pos hall, dashes_eq, List.cons_append, List.dropWhile_cons, hdashes]
    rfl
  unfold behindBoundary
  simp only [List.drop_left, htake, hdrop]
  exact if_pos ⟨List.prefix_append _ _, hlabel, List.prefix_append _ _⟩

/-- A boundary begins with a hyphen. -/
theorem behindBoundary_cons {word : String} {c : Char} {text : List Char} (hc : c ≠ '-') :
    behindBoundary word (c :: text) = none := by
  have hopening : ¬opening word <+: c :: text := by
    intro hprefix
    rw [opening, dashes_eq, List.cons_append, List.cons_prefix_cons] at hprefix
    exact hc hprefix.1.symm
  unfold behindBoundary
  exact if_neg fun h => hopening h.1

theorem removeBoundary_append {word : String} {body text : List Char} (h : '-' ∉ body) :
    removeBoundary word (body ++ text) = body ++ removeBoundary word text := by
  induction body with
  | nil => rfl
  | cons c body ih =>
    obtain ⟨hc, hbody⟩ := List.ne_and_not_mem_of_not_mem_cons h
    rw [List.cons_append, removeBoundary, behindBoundary_cons (Ne.symm hc), ih hbody]
    rfl

theorem removeBoundary_boundary (word : String) (rest : List Char) {label : List Char} (hlabel : label ≠ [])
    (hplain : '-' ∉ label) : removeBoundary word (opening word ++ (label ++ (dashes ++ rest))) = rest := by
  have hbehind := behindBoundary_boundary word rest hlabel hplain
  obtain ⟨text, htext⟩ : ∃ text, opening word = '-' :: text := by
    rw [opening, dashes_eq]
    exact ⟨_, List.cons_append⟩
  rw [htext, List.cons_append] at hbehind ⊢
  rw [removeBoundary, hbehind]

/-- Between two boundaries of one label. -/
def armor (label body : List Char) : List Char :=
  opening "BEGIN" ++ (label ++ (dashes ++ (body ++ (opening "END" ++ (label ++ (dashes ++ []))))))

/-- The boundaries go, and the white space between them. -/
theorem pemBody_armor {pem : String} {label body : List Char} (hpem : pem.toList = armor label body)
    (hlabel : label ≠ []) (hplain : '-' ∉ label) (hbody : '-' ∉ body) :
    pemBody pem = String.ofList (body.filter fun c => !whiteSpace c) := by
  have hbegin := removeBoundary_boundary "BEGIN" (body ++ (opening "END" ++ (label ++ (dashes ++ [])))) hlabel hplain
  have hend := removeBoundary_boundary "END" [] hlabel hplain
  have hremoved : removeBoundary "END" (removeBoundary "BEGIN" (armor label body)) = body := by
    rw [armor, hbegin, removeBoundary_append hbody, hend, List.append_nil]
  unfold pemBody
  rw [hpem, hremoved]

/-- Neither white space nor the end of a line is in it. -/
theorem base64_plain {bytes : Bytes} {c : Char} (hc : c ∈ base64 bytes) : whiteSpace c = false ∧ lineEnd c = false := by
  rw [base64_eq, List.mem_append, List.mem_map] at hc
  rcases hc with ⟨n, hn, rfl⟩ | hsign
  · obtain ⟨-, hspace, hend, -⟩ := digit_plain (lt_of_mem_sextets hn)
    exact ⟨hspace, hend⟩
  · rw [List.eq_of_mem_replicate hsign]
    decide

/-- White space between the digits does not matter. -/
theorem pemBody_base64 {pem : String} (label body : List Char) {bytes : Bytes} (hpem : pem.toList = armor label body)
    (hlabel : label ≠ []) (hplain : '-' ∉ label) (hbody : (body.filter fun c => !whiteSpace c) = base64 bytes) :
    pemBody pem = String.ofList (base64 bytes) := by
  have hhyphen : '-' ∉ body := by
    intro hmem
    have hdigit : '-' ∈ base64 bytes := hbody ▸ List.mem_filter.mpr ⟨hmem, by decide⟩
    exact (mem_base64 hdigit).1 rfl
  rw [pemBody_armor hpem hlabel hplain hhyphen, hbody]

/-- Nothing is lost between the lines. -/
theorem flatten_matchLines {turns : ℕ} {text : List Char} (hturns : text.length ≤ turns)
    (h : ∀ c ∈ text, lineEnd c = false) : (matchLines turns text).flatten = text := by
  induction turns generalizing text with
  | zero =>
    obtain rfl := List.length_eq_zero_iff.mp (Nat.le_zero.mp hturns)
    rfl
  | succ turns ih =>
    cases text with
    | nil => rfl
    | cons c text =>
      have hline : ((c :: text).take 64).takeWhile (fun c => !lineEnd c) = (c :: text).take 64 := by
        rw [List.takeWhile_eq_self_iff]
        intro d hd
        rw [h d (List.mem_of_mem_take hd)]
        rfl
      have hdrop : (c :: text).drop ((c :: text).take 64).length = (c :: text).drop 64 := by
        rw [List.length_take]
        by_cases hlong : 64 ≤ (c :: text).length
        · rw [Nat.min_eq_left hlong]
        · rw [Nat.min_eq_right (by omega), List.drop_length, List.drop_eq_nil_of_le (by omega)]
      have hrest : (matchLines turns ((c :: text).drop 64)).flatten = (c :: text).drop 64 := by
        refine ih ?_ fun d hd => h d (List.mem_of_mem_drop hd)
        rw [List.length_drop, List.length_cons] at *
        omega
      have hfirst : ¬lineEnd c = true := by
        rw [h c List.mem_cons_self]
        decide
      rw [matchLines, if_neg hfirst]
      dsimp only
      rw [hline, hdrop, List.flatten_cons, hrest, List.take_append_drop]

theorem filter_intercalate (keep : Char → Bool) (hend : keep '\n' = false) (lines : List (List Char)) :
    (['\n'].intercalate lines).filter keep = lines.flatten.filter keep := by
  have hskip : ['\n'].filter keep = [] := by rw [List.filter_cons, hend]; rfl
  induction lines with
  | nil => rfl
  | cons line lines ih =>
    cases lines with
    | nil => rw [List.intercalate_singleton, List.flatten_singleton]
    | cons next lines =>
      have hflatten : (line :: next :: lines).flatten = line ++ (next :: lines).flatten := List.flatten_cons
      rw [hflatten, List.intercalate_cons_cons, List.filter_append, List.filter_append, List.filter_append, ih, hskip,
        List.append_nil]

theorem filter_whiteSpace_base64 (bytes : Bytes) :
    ((base64 bytes).filter fun c => !whiteSpace c) = base64 bytes := by
  rw [List.filter_eq_self]
  intro c hc
  rw [(base64_plain hc).1]
  rfl

/-- The text of the certificate, whether it fills its last line or has no line. -/
theorem pemBody_toPem (buffer : Bytes) :
    ∃ pem, toPem buffer = some pem ∧ pemBody pem = String.ofList (base64 buffer) := by
  have hflatten := flatten_matchLines le_rfl fun c (hc : c ∈ base64 buffer) => (base64_plain hc).2
  unfold toPem
  rw [base64Url_eq, Option.map_some, String.toList_ofList, repadded_base64Url]
  refine ⟨_, rfl, ?_⟩
  dsimp only
  generalize matchLines (base64 buffer).length (base64 buffer) = lines at hflatten
  have hfilter : (if lines.map String.ofList = [] then String.ofList (base64 buffer)
      else "\n".intercalate (lines.map String.ofList)).toList.filter (fun c => !whiteSpace c) = base64 buffer := by
    split
    · rw [String.toList_ofList, filter_whiteSpace_base64]
    · have hlines : (lines.map String.ofList).map String.toList = lines := by
        rw [List.map_map]
        exact (List.map_congr_left fun line _ => String.toList_ofList).trans (List.map_id _)
      have hintercalate := filter_intercalate (fun c => !whiteSpace c) (by decide) lines
      rw [String.toList_intercalate, hlines]
      exact hintercalate.trans (hflatten ▸ filter_whiteSpace_base64 buffer)
  generalize (if lines.map String.ofList = [] then String.ofList (base64 buffer)
      else "\n".intercalate (lines.map String.ofList)) = between at hfilter
  refine pemBody_base64 "CERTIFICATE".toList ('\n' :: (between.toList ++ ['\n'])) ?_ (by simp) (by simp) ?_
  · simp [armor, opening, dashes_eq]
  · rw [List.filter_cons_of_neg (by decide), List.filter_append, hfilter]
    exact List.append_nil _

/-- The text of the request, whose lines all end. -/
theorem pemBody_certificateRequest (hostname : String) (keys : KeyPair) :
    pemBody (certificateRequest hostname keys) = String.ofList (base64 (request hostname keys)) := by
  unfold certificateRequest
  dsimp only
  generalize request hostname keys = bytes
  have hfilter : (inLines (base64 bytes).length (base64 bytes)).filter (fun c => !whiteSpace c) = base64 bytes := by
    refine filter_inLines (by decide) le_rfl fun c hc => ?_
    rw [(base64_plain hc).1]
    rfl
  generalize inLines (base64 bytes).length (base64 bytes) = lines at hfilter
  refine pemBody_base64 "CERTIFICATE REQUEST".toList ('\n' :: lines) ?_ (by simp) (by simp) ?_
  · simp [armor, opening, dashes_eq]
  · rw [List.filter_cons_of_neg (by decide), hfilter]

/-! ### Round trips -/

/-- Decoded with its own decoder, and nothing in it has a meaning in a URL. -/
theorem decodeBase64Url_base64Url (data : Bytes) :
    ∃ text, base64Url data = some text ∧ decodeBase64Url text = some data ∧
      (∀ c ∈ text.toList, urlSafe c = true) ∧ '=' ∉ text.toList := by
  have hdigit : ∀ c ∈ (sextets data).map urlDigit, urlSafe c = true ∧ c ≠ '=' := by
    intro c hc
    obtain ⟨n, hn, rfl⟩ := List.mem_map.mp hc
    obtain ⟨hsafe, hsign, -⟩ := urlDigit_spec (lt_of_mem_sextets hn)
    exact ⟨hsafe, hsign⟩
  refine ⟨_, base64Url_eq data, ?_, ?_, ?_⟩
  · unfold decodeBase64Url
    rw [String.toList_ofList, repadded_base64Url, atob_base64, Option.map_some, charCodes_binary]
  · rw [String.toList_ofList]
    exact fun c hc => (hdigit c hc).1
  · rw [String.toList_ofList]
    exact fun hmem => (hdigit '=' hmem).2 rfl

/-- What `Uint8Array.from(atob(text), …)` gives. -/
theorem charCodes_atob_base64 (bytes : Bytes) :
    (atob (String.ofList (base64 bytes))).map charCodes = some bytes := by
  rw [atob_base64, Option.map_some, charCodes_binary]

/-- The codecs read what they wrote: base64url, the certificate's PEM by `atob` and by
the strict reader, and the request of the client, which is finalized as it was
signed. -/
theorem codecs_round_trip (bytes : Bytes) (hostname : String) (keys : KeyPair) :
    (∃ text, base64Url bytes = some text ∧ decodeBase64Url text = some bytes ∧
      (∀ c ∈ text.toList, urlSafe c = true) ∧ '=' ∉ text.toList) ∧
    (∃ pem, toPem bytes = some pem ∧ (atob (pemBody pem)).map charCodes = some bytes ∧
      readBase64 (pemBody pem).toList = some bytes) ∧
    (atob (pemBody (certificateRequest hostname keys))).map charCodes = some (request hostname keys) ∧
    ∃ csr, finalizedCsr (certificateRequest hostname keys) = some csr ∧
      decodeBase64Url csr = some (request hostname keys) := by
  refine ⟨decodeBase64Url_base64Url bytes, ?_, ?_, ?_⟩
  · obtain ⟨pem, hpem, hbody⟩ := pemBody_toPem bytes
    refine ⟨pem, hpem, ?_, ?_⟩
    · rw [hbody, charCodes_atob_base64]
    · rw [hbody, String.toList_ofList, readBase64_base64]
  · rw [pemBody_certificateRequest, charCodes_atob_base64]
  · obtain ⟨csr, hcsr, hdecode, -⟩ := decodeBase64Url_base64Url (request hostname keys)
    refine ⟨csr, ?_, hdecode⟩
    unfold finalizedCsr
    rw [pemBody_certificateRequest, atob_base64, Option.bind_some, charCodes_binary, hcsr]

end ShuvTunnel
