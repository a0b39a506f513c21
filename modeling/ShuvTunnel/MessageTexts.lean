/-
# The texts of the bridge's messages

The object writes its control messages with `JSON.stringify`, and the clients theirs
with `JSON.stringify` and `serde_json::to_string`; on their way these are texts. Here
the texts are read again by those they are sent to: the object's `JSON.parse`, the
`ServerMessage::decode` of the Rust client and the `decodeServerMessage` of the
TypeScript one.

Key definitions: `JsonText.ofValue`, `ControlText`, `ServerMessage.controlText?`,
`ClientMessage.controlText?`.
Key theorems: `utf16Units_injective`, `ControlText.decoded`, `message_texts_carried`.
-/
import ShuvTunnel.Lib.JsonPrint
import ShuvTunnel.Understanding
import ShuvTunnel.Frames
import ShuvTunnel.BridgeHandlers
import Mathlib.Data.List.TakeWhile

namespace ShuvTunnel

open Binary64 (Double)
open BridgeProtocol (SchemaType ServerControlMessage)

/-! ### Strings -/

/-- The UTF-16 units of a character. -/
def charUnits (c : Char) : List UInt16 :=
  if c.toNat < 0x10000 then [.ofNat c.toNat]
  else [.ofNat (0xD800 + (c.toNat - 0x10000) / 0x400), .ofNat (0xDC00 + (c.toNat - 0x10000) % 0x400)]

/-- The UTF-16 units of a string. -/
def utf16Units (s : String) : List UInt16 := s.toList.flatMap charUnits

/-! ### The syntax of a text -/

/-- The number of some digits. -/
def Numeral.read (text : List Char) : ℕ := Nat.ofDigitChars 10 text 0

/-- The parts of a numeral. -/
def Numeral.ofText (text : List Char) : Numeral :=
  let negative := text.head? = some '-'
  let rest := if negative then text.tail else text
  let integer := rest.takeWhile Char.isDigit
  let rest := rest.dropWhile Char.isDigit
  let fraction := if rest.head? = some '.' then some (rest.tail.takeWhile Char.isDigit) else none
  let rest := if fraction.isSome then rest.tail.dropWhile Char.isDigit else rest
  -- behind an `e`, with its sign
  let exponent : Option ℤ :=
    if rest.isEmpty then none
    else if rest.tail.head? = some '-' then some (-Numeral.read rest.tail.tail)
    else if rest.tail.head? = some '+' then some (Numeral.read rest.tail.tail)
    else some (Numeral.read rest.tail)
  { negative, digits := Numeral.read integer
    fraction := fraction.map fun ds => ds.map fun d => ⟨(d.toNat - 48) % 10, Nat.mod_lt _ (Nat.succ_pos 9)⟩
    exponent }

mutual

/-- The value as the clients' readers see it. -/
def JsonText.ofValue : Json.Value → JsonText
  | .null => .null
  | .bool b => .bool b
  | .number text => .number (Numeral.ofText text)
  | .string s => .string (utf16Units s)
  | .array xs => .array (JsonText.ofValues xs)
  | .object fields => .object (JsonText.ofFields fields)

/-- The values of an array. -/
def JsonText.ofValues : List Json.Value → List JsonText
  | [] => []
  | x :: xs => ofValue x :: ofValues xs

/-- The members of an object. -/
def JsonText.ofFields : List (String × Json.Value) → List (List UInt16 × JsonText)
  | [] => []
  | (name, x) :: fields => (utf16Units name, ofValue x) :: ofFields fields

end

mutual

/-- The value as `JSON.parse` gives it to the object; a numeral beyond the doubles
is left out. -/
def Json.ofValue : Json.Value → Option Json
  | .null => some .null
  | .bool b => some (.bool b)
  | .number text =>
    match Double.ofRat (Numeral.ofText text).value with
    | .finite x => some (.num x)
    | .infinite _ => none
  | .string s => some (.str s)
  | .array xs => (Json.ofValues xs).map .arr
  | .object fields => (Json.ofMembers fields).map .obj

/-- The values of an array, where each is one of the object's. -/
def Json.ofValues : List Json.Value → Option (List Json)
  | [] => some []
  | x :: xs => (Json.ofValue x).bind fun y => (Json.ofValues xs).map (y :: ·)

/-- The members of an object, where each value is one of the object's. -/
def Json.ofMembers : List (String × Json.Value) → Option (List (String × Json))
  | [] => some []
  | (name, x) :: fields => (Json.ofValue x).bind fun y => (Json.ofMembers fields).map ((name, y) :: ·)

end

/-! ### Control messages, as they are written -/

/-- What a field of a control message is written with. -/
inductive FieldText
  | number (n : ℕ)
  | string (s : String)
  | strings (xs : List String)

namespace FieldText

/-- The JSON value of a field. -/
def value : FieldText → Json.Value
  | number n => .nat n
  | string s => .string s
  | strings xs => .array (xs.map .string)

/-- What the clients take the field for. -/
def read : FieldText → FieldValue ℕ
  | number n => .number n
  | string s => .string (utf16Units s)
  | strings xs => .strings (xs.map utf16Units)

/-- The field has the declared type; a number is a double. -/
def Has : FieldText → SchemaType → Prop
  | number n, .ConnID => n < 2 ^ 32
  | number n, .Number => n < 2 ^ 53
  | string _, .String => True
  | strings _, .ArrayString => True
  | _, _ => False

end FieldText

/-- A control message: its type, which is written first, and its other fields in
their order. -/
structure ControlText where
  type : String
  fields : List (String × FieldText)

namespace ControlText

/-- The JSON value of a message. -/
def value (t : ControlText) : Json.Value :=
  .object (("type", .string t.type) :: t.fields.map fun f => (f.1, f.2.value))

/-- The text of a message. -/
def text (t : ControlText) : List Char := Json.print t.value

/-- What the clients take the message for. -/
def message (t : ControlText) : ControlMessage ℕ := ⟨t.type, t.fields.map fun f => (f.1, f.2.read)⟩

/-- The fields are those of a class of `ServerControlMessage`. -/
def Declared (t : ControlText) : Prop :=
  ∃ c ∈ ServerControlMessage, t.type = c.1 ∧
    List.Forall₂ (fun f d => f.1 = d.1 ∧ f.2.Has d.2) t.fields c.2

end ControlText

/-- The message as `JSON.stringify` writes it in `tunnel-object.ts`; a field that is
`undefined` is left out, and data goes in binary frames. -/
def ServerMessage.controlText? : ServerMessage → Option ControlText
  | pong time_sent =>
    if time_sent.den = 1 ∧ 0 ≤ time_sent then some ⟨"pong", [("time_sent", .number time_sent.num.toNat)]⟩ else none
  | attachError code => some ⟨"attach_error", [("code", .string code)]⟩
  | attached session routes heartbeat_ms idle_timeout_ms =>
    some ⟨"attached", [("session", .string session), ("routes", .strings routes),
      ("heartbeat_ms", .number heartbeat_ms), ("idle_timeout_ms", .number idle_timeout_ms)]⟩
  | openConn conn peer (some sni) alpn =>
    some ⟨"open", [("conn", .number conn), ("peer", .string peer), ("sni", .string sni), ("alpn", .string alpn)]⟩
  | openConn conn peer none alpn =>
    some ⟨"open", [("conn", .number conn), ("peer", .string peer), ("alpn", .string alpn)]⟩
  | endConn conn => some ⟨"end", [("conn", .number conn)]⟩
  | resetConn conn code => some ⟨"reset", [("conn", .number conn), ("code", .string code)]⟩
  | dataFrame _ _ => none

/-! ### Units -/

theorem char_range (c : Char) : c.toNat < 0xD800 ∨ 0xDFFF < c.toNat ∧ c.toNat < 0x110000 := c.valid

theorem charUnits_of_lt {c : Char} (h : c.toNat < 0x10000) : charUnits c = [.ofNat c.toNat] := if_pos h

theorem charUnits_of_ge {c : Char} (h : ¬ c.toNat < 0x10000) :
    charUnits c = [.ofNat (0xD800 + (c.toNat - 0x10000) / 0x400), .ofNat (0xDC00 + (c.toNat - 0x10000) % 0x400)] :=
  if_neg h

theorem ofNat_inj {m n : ℕ} (hm : m < 2 ^ 16) (hn : n < 2 ^ 16) (h : UInt16.ofNat m = UInt16.ofNat n) : m = n := by
  have h := congrArg UInt16.toNat h
  rwa [UInt16.toNat_ofNat_of_lt' hm, UInt16.toNat_ofNat_of_lt' hn] at h

/-- A character is told from what follows it. -/
theorem charUnits_append_inj {c d : Char} {us vs : List UInt16} (h : charUnits c ++ us = charUnits d ++ vs) :
    c = d ∧ us = vs := by
  have hc := char_range c
  have hd := char_range d
  by_cases hc' : c.toNat < 0x10000 <;> by_cases hd' : d.toNat < 0x10000
  · rw [charUnits_of_lt hc', charUnits_of_lt hd'] at h
    obtain ⟨hu, hus⟩ := List.cons.inj h
    exact ⟨Char.toNat_inj.mp (ofNat_inj hc' hd' hu), hus⟩
  · rw [charUnits_of_lt hc', charUnits_of_ge hd'] at h
    have hu := ofNat_inj hc' (by omega) (List.cons.inj h).1
    omega
  · rw [charUnits_of_ge hc', charUnits_of_lt hd'] at h
    have hu := ofNat_inj (by omega) hd' (List.cons.inj h).1
    omega
  · rw [charUnits_of_ge hc', charUnits_of_ge hd'] at h
    obtain ⟨hhigh, hrest⟩ := List.cons.inj h
    obtain ⟨hlow, hus⟩ := List.cons.inj hrest
    have hhigh := ofNat_inj (by omega) (by omega) hhigh
    have hlow := ofNat_inj (by omega) (by omega) hlow
    exact ⟨Char.toNat_inj.mp (by omega), hus⟩

theorem flatMap_charUnits_inj {cs ds : List Char} (h : cs.flatMap charUnits = ds.flatMap charUnits) : cs = ds := by
  have hne : ∀ c : Char, charUnits c ≠ [] := fun c => by
    unfold charUnits
    split <;> exact List.cons_ne_nil _ _
  induction cs generalizing ds with
  | nil =>
    cases ds with
    | nil => rfl
    | cons d ds => exact absurd (List.append_eq_nil_iff.mp h.symm).1 (hne d)
  | cons c cs ih =>
    cases ds with
    | nil => exact absurd (List.append_eq_nil_iff.mp h).1 (hne c)
    | cons d ds =>
      obtain ⟨rfl, hrest⟩ := charUnits_append_inj h
      rw [ih hrest]

/-- Two strings with the same units are the same. -/
theorem utf16Units_injective {s t : String} (h : utf16Units s = utf16Units t) : s = t :=
  String.toList_inj.mp (flatMap_charUnits_inj h)

/-- Of a name without characters beyond the first plane, the units are those of its
characters. -/
theorem utf16Units_eq_utf16 {s : String} (h : ∀ c ∈ s.toList, c.toNat < 0x10000) : utf16Units s = utf16 s := by
  unfold utf16Units utf16
  rw [List.map_eq_flatMap]
  exact List.flatMap_congr fun c hc => charUnits_of_lt (h c hc)

theorem isHighSurrogate_ofNat {n : ℕ} (h : n < 2 ^ 16) :
    Rust.isHighSurrogate (.ofNat n) = decide (0xD800 ≤ n ∧ n ≤ 0xDBFF) := by
  simp [Rust.isHighSurrogate, UInt16.le_iff_toNat_le, UInt16.toNat_ofNat_of_lt' h]

theorem isLowSurrogate_ofNat {n : ℕ} (h : n < 2 ^ 16) :
    Rust.isLowSurrogate (.ofNat n) = decide (0xDC00 ≤ n ∧ n ≤ 0xDFFF) := by
  simp [Rust.isLowSurrogate, UInt16.le_iff_toNat_le, UInt16.toNat_ofNat_of_lt' h]

theorem wellFormed_charUnits (c : Char) (us : List UInt16) (h : Rust.wellFormed us = true) :
    Rust.wellFormed (charUnits c ++ us) = true := by
  have hc := char_range c
  by_cases hlt : c.toNat < 0x10000
  · have hhigh : Rust.isHighSurrogate (.ofNat c.toNat) = false := by
      rw [isHighSurrogate_ofNat hlt, decide_eq_false_iff_not]
      omega
    have hlow : Rust.isLowSurrogate (.ofNat c.toNat) = false := by
      rw [isLowSurrogate_ofNat hlt, decide_eq_false_iff_not]
      omega
    rw [charUnits_of_lt hlt]
    cases us with
    | nil => simp [Rust.wellFormed, hhigh, hlow]
    | cons u us => simpa [Rust.wellFormed, hhigh, hlow] using h
  · have hhigh : Rust.isHighSurrogate (.ofNat (0xD800 + (c.toNat - 0x10000) / 0x400)) = true := by
      rw [isHighSurrogate_ofNat (by omega), decide_eq_true_iff]
      omega
    have hlow : Rust.isLowSurrogate (.ofNat (0xDC00 + (c.toNat - 0x10000) % 0x400)) = true := by
      rw [isLowSurrogate_ofNat (by omega), decide_eq_true_iff]
      omega
    rw [charUnits_of_ge hlt, List.cons_append, List.cons_append, List.nil_append, Rust.wellFormed,
      if_pos hhigh, hlow, h]
    rfl

/-- A string has no lone surrogates. -/
theorem wellFormed_utf16Units (s : String) : Rust.wellFormed (utf16Units s) = true := by
  unfold utf16Units
  induction s.toList with
  | nil => rfl
  | cons c cs ih => exact wellFormed_charUnits c _ ih

/-! ### The fields of a printed message -/

/-- A natural number in decimal digits. -/
theorem Numeral.ofText_nat (n : ℕ) : Numeral.ofText (Nat.toDigits 10 n) = ⟨false, n, none, none⟩ := by
  have hdigits : ∀ c ∈ Nat.toDigits 10 n, c.isDigit = true := fun c hc =>
    Nat.isDigit_of_mem_toDigits (by decide) (by decide) hc
  have hsign : (Nat.toDigits 10 n).head? ≠ some '-' := fun h => by
    have := hdigits '-' (List.mem_of_mem_head? h)
    revert this
    decide
  have htake : (Nat.toDigits 10 n).takeWhile Char.isDigit = Nat.toDigits 10 n :=
    List.takeWhile_eq_self_iff.mpr hdigits
  have hdrop : (Nat.toDigits 10 n).dropWhile Char.isDigit = [] := List.dropWhile_eq_nil_iff.mpr hdigits
  simp [ofText, hsign, htake, hdrop, Numeral.read]

theorem JsonText.ofValues_eq (xs : List Json.Value) : ofValues xs = xs.map ofValue := by
  induction xs with
  | nil => rfl
  | cons x xs ih => rw [ofValues, ih, List.map_cons]

theorem JsonText.ofFields_eq (fields : List (String × Json.Value)) :
    ofFields fields = fields.map fun f => (utf16Units f.1, ofValue f.2) := by
  induction fields with
  | nil => rfl
  | cons f fields ih => rw [ofFields, ih, List.map_cons]

/-- A name of the protocol. -/
def Plain (name : String) : Prop := ∀ c ∈ name.toList, c.toNat < 0x10000

theorem utf16Units_eq_iff {name s : String} (h : Plain name) : utf16Units s = utf16 name ↔ s = name := by
  rw [← utf16Units_eq_utf16 h]
  exact ⟨utf16Units_injective, fun he => he ▸ rfl⟩

theorem lookup_map_units {fields : List (String × Json.Value)} {name : String} (h : Plain name) :
    (fields.map fun f => (utf16Units f.1, JsonText.ofValue f.2)).lookup (utf16 name) =
      (fields.lookup name).map JsonText.ofValue := by
  induction fields with
  | nil => rfl
  | cons f fields ih =>
    rw [List.map_cons, List.lookup_cons, List.lookup_cons, ih]
    by_cases he : f.1 = name
    · rw [(utf16Units_eq_iff h).mpr he, he]
      simp
    · have hu : (utf16 name == utf16Units f.1) = false :=
        beq_eq_false_iff_ne.mpr fun hu => he ((utf16Units_eq_iff h).mp hu.symm)
      rw [hu, beq_eq_false_iff_ne.mpr (Ne.symm he)]

/-- Fields are found by their names. -/
theorem JsonText.get_ofValue {fields : List (String × Json.Value)} {name : String} (h : Plain name) :
    (JsonText.ofValue (.object fields)).get name = (fields.reverse.lookup name).map ofValue := by
  rw [ofValue, ofFields_eq, get, ← List.map_reverse, lookup_map_units h]

/-- No name is written twice: the last field of a name is the only one. -/
theorem lookup_reverse_of_mem {α β : Type*} [DecidableEq α] {fields : List (α × β)} (hn : (fields.map (·.1)).Nodup)
    {f : α × β} (hf : f ∈ fields) : fields.reverse.lookup f.1 = some f.2 := by
  induction fields with
  | nil => cases hf
  | cons g fields ih =>
    obtain ⟨hg, hn⟩ := List.nodup_cons.mp hn
    rw [List.reverse_cons, List.lookup_append]
    rcases List.mem_cons.mp hf with rfl | hf
    · have hnone : fields.reverse.lookup f.1 = none := by
        rw [List.lookup_eq_none_iff]
        intro p hp
        have hne : f.1 ≠ p.1 := fun he => hg (List.mem_map.mpr ⟨p, List.mem_reverse.mp hp, he.symm⟩)
        simpa using hne
      rw [hnone, List.lookup_cons, beq_self_eq_true]
      rfl
    · rw [ih hn hf]
      rfl

instance : DecidablePred Plain := fun name =>
  List.decidableBAll (fun c : Char => c.toNat < 0x10000) name.toList

/-! ### The server's messages, as the clients decode them -/

namespace FieldText

theorem mapM_string (xs : List String) :
    ((xs.map Json.Value.string).map JsonText.ofValue).mapM JsonText.string? = some (xs.map utf16Units) := by
  induction xs with
  | nil => rfl
  | cons x xs ih =>
    rw [List.map_cons, List.map_cons, List.mapM_cons, ih]
    rfl

theorem ofValue_nat (n : ℕ) : JsonText.ofValue (.nat n) = .number ⟨false, n, none, none⟩ :=
  congrArg JsonText.number (Numeral.ofText_nat n)

/-- A field of the declared type is read as what was written. -/
theorem read_value {x : FieldText} {d : SchemaType} (h : x.Has d) :
    (toRust d).read (JsonText.ofValue x.value) = some x.read := by
  have hinteger : ∀ {n bound : ℕ}, n < bound →
      Rust.readInteger bound ⟨false, n, none, none⟩ = some (.number n) := fun hn => by
    simp [Rust.readInteger, Numeral.isInteger, hn]
  cases x with
  | number n =>
    rw [value, ofValue_nat]
    cases d with
    | ConnID => exact hinteger h
    | Number => exact hinteger (h.trans (by norm_num))
    | String => cases h
    | ArrayString => cases h
  | string s =>
    cases d with
    | String => rfl
    | _ => cases h
  | strings xs =>
    cases d with
    | ArrayString =>
      show ((JsonText.ofValues (xs.map .string)).mapM JsonText.string?).map _ = _
      rw [JsonText.ofValues_eq, mapM_string]
      rfl
    | _ => cases h

theorem lt_of_has {n : ℕ} {d : SchemaType} (h : (number n).Has d) : n < 2 ^ 53 := by
  cases d with
  | ConnID => exact lt_trans h (by norm_num)
  | Number => exact h
  | String => cases h
  | ArrayString => cases h

/-- Whatever is written Rust reads. -/
theorem reads_value (inRange : Numeral → Bool) {x : FieldText} {d : SchemaType} (h : x.Has d) {depth : ℕ}
    (hdepth : 1 < depth) : Rust.reads inRange depth (JsonText.ofValue x.value) = true := by
  cases x with
  | number n =>
    have hlt : n < 2 ^ 64 := (lt_of_has h).trans (by norm_num)
    have hfits : Rust.fitsInteger ⟨false, n, none, none⟩ = true := by
      simpa [Rust.fitsInteger, Numeral.isInteger] using hlt
    rw [value, ofValue_nat, Rust.reads, hfits, Bool.true_or]
  | string s => exact wellFormed_utf16Units s
  | strings xs =>
    have hall : ∀ (k : ℕ) (xs : List String),
        Rust.readsAll inRange k (JsonText.ofValues (xs.map .string)) = true := by
      intro k xs
      induction xs with
      | nil => rfl
      | cons x xs ih =>
        simp only [List.map_cons, JsonText.ofValues, Rust.readsAll, Bool.and_eq_true]
        exact ⟨wellFormed_utf16Units x, ih⟩
    simp only [value, JsonText.ofValue, Rust.reads, Bool.and_eq_true, decide_eq_true_eq]
    exact ⟨hdepth, hall _ xs⟩

end FieldText

namespace ControlText

variable {t : ControlText}

/-- No class has two fields of one name, nor one that is called `type`. -/
theorem names_nodup : ∀ c ∈ ServerControlMessage, ("type" :: c.2.map (·.1)).Nodup := by decide

theorem names_plain : ∀ c ∈ ServerControlMessage, Plain c.1 ∧ ∀ d ∈ c.2, Plain d.1 := by decide

theorem fields_names {fields : List (String × FieldText)} {ds : List (String × SchemaType)}
    (h : List.Forall₂ (fun f d => f.1 = d.1 ∧ f.2.Has d.2) fields ds) : fields.map (·.1) = ds.map (·.1) := by
  induction h with
  | nil => rfl
  | cons hd _ ih => rw [List.map_cons, List.map_cons, hd.1, ih]

theorem lookup_value (hn : ("type" :: t.fields.map (·.1)).Nodup) {f : String × Json.Value}
    (hf : f ∈ ("type", Json.Value.string t.type) :: t.fields.map fun f => (f.1, f.2.value)) (hplain : Plain f.1) :
    (JsonText.ofValue t.value).get f.1 = some (JsonText.ofValue f.2) := by
  rw [value, JsonText.get_ofValue hplain, lookup_reverse_of_mem (by simpa [Function.comp_def] using hn) hf]
  rfl

theorem kind_value (hn : ("type" :: t.fields.map (·.1)).Nodup) (hplain : Plain t.type) :
    (JsonText.ofValue t.value).kind? = some (utf16 t.type) := by
  have hget : (JsonText.ofValue t.value).get "type" = some (JsonText.ofValue (.string t.type)) :=
    lookup_value hn List.mem_cons_self (show Plain "type" by decide)
  rw [JsonText.kind?, hget, ← utf16Units_eq_utf16 hplain]
  rfl

theorem get_field (hn : ("type" :: t.fields.map (·.1)).Nodup) {f : String × FieldText} (hf : f ∈ t.fields)
    (hplain : Plain f.1) : (JsonText.ofValue t.value).get f.1 = some (JsonText.ofValue f.2.value) :=
  lookup_value (f := (f.1, f.2.value)) hn
    (List.mem_cons_of_mem _ (List.mem_map_of_mem (f := fun f : String × FieldText => (f.1, f.2.value)) hf)) hplain

theorem decodeFields_value {get : String → Option JsonText} {fields : List (String × FieldText)}
    {ds : List (String × SchemaType)} (h : List.Forall₂ (fun f d => f.1 = d.1 ∧ f.2.Has d.2) fields ds)
    (hget : ∀ f ∈ fields, get f.1 = some (JsonText.ofValue f.2.value)) :
    decodeFields Rust.FieldType.read get (rustFields ds) = some (fields.map fun f => (f.1, f.2.read)) := by
  induction h with
  | nil => rfl
  | @cons f d fields ds hd _ ih =>
    have hv : get d.1 = some (JsonText.ofValue f.2.value) := hd.1 ▸ hget f List.mem_cons_self
    show decodeFields Rust.FieldType.read get ((d.1, toRust d.2) :: rustFields ds) = _
    rw [decodeFields, hv, Option.bind_some, FieldText.read_value hd.2, Option.bind_some,
      ih fun f hf => hget f (List.mem_cons_of_mem _ hf), List.map_cons, ← hd.1]
    rfl

theorem reads_fields (inRange : Numeral → Bool) {depth : ℕ} (hdepth : 1 < depth)
    {fields : List (String × FieldText)} {ds : List (String × SchemaType)}
    (h : List.Forall₂ (fun f d => f.1 = d.1 ∧ f.2.Has d.2) fields ds) :
    Rust.readsFields inRange depth (JsonText.ofFields (fields.map fun f => (f.1, f.2.value))) = true := by
  induction h with
  | nil => rfl
  | cons hd _ ih =>
    simp only [List.map_cons, JsonText.ofFields, Rust.readsFields, Bool.and_eq_true]
    exact ⟨⟨wellFormed_utf16Units _, FieldText.reads_value inRange hd.2 hdepth⟩, ih⟩

/-- A message of a class of the union is decoded as it was written, by both clients. -/
theorem decoded (h : t.Declared) (inRange : Numeral → Bool) :
    Rust.decode inRange (JsonText.ofValue t.value) = .ok (some t.message) ∧
      BridgeProtocol.decodeServerMessage (JsonText.ofValue t.value) = some (inDoubles t.message) := by
  obtain ⟨c, hc, htype, hfields⟩ := h
  have hn : ("type" :: t.fields.map (·.1)).Nodup := by rw [fields_names hfields]; exact names_nodup c hc
  obtain ⟨hplain, hplains⟩ := names_plain c hc
  have hkind : (JsonText.ofValue t.value).kind? = some (utf16 c.1) := htype ▸ kind_value hn (htype ▸ hplain)
  have hget : ∀ f ∈ t.fields, (JsonText.ofValue t.value).get f.1 = some (JsonText.ofValue f.2.value) := by
    intro f hf
    have hname : f.1 ∈ c.2.map (·.1) := fields_names hfields ▸ List.mem_map_of_mem (f := (·.1)) hf
    obtain ⟨d, hd, hde⟩ := List.mem_map.mp hname
    exact get_field hn hf (hde ▸ hplains d hd)
  have hdecode := decodeFields_value hfields hget
  have hreads : Rust.reads inRange Rust.REMAINING_DEPTH (JsonText.ofValue t.value) = true := by
    simp only [value, JsonText.ofValue, Rust.reads, JsonText.ofFields, Rust.readsFields, Bool.and_eq_true,
      decide_eq_true_eq]
    exact ⟨by decide, ⟨wellFormed_utf16Units _, wellFormed_utf16Units _⟩, reads_fields inRange (by decide) hfields⟩
  constructor
  · exact rust_decode_iff.mpr ⟨hreads, fromValue_object.mpr ⟨c, hc, hkind, hdecode, htype⟩⟩
  · obtain ⟨ys, hys, hexact⟩ := fields_of_rust hdecode
    have hnumbers : ExactFields (JsonText.ofValue t.value).get c.2 := by
      intro d hd n hget'
      obtain ⟨f, hf, hfd⟩ : ∃ f ∈ t.fields, f.1 = d.1 ∧ f.2.Has d.2 := by
        obtain ⟨i, hi, rfl⟩ := List.getElem_of_mem hd
        have hi' : i < t.fields.length := by rwa [hfields.length_eq]
        exact ⟨_, List.getElem_mem hi', hfields.get hi' hi⟩
      rw [← hfd.1, hget f hf, Option.some.injEq] at hget'
      obtain ⟨name, x⟩ := f
      cases x with
      | number k =>
        rw [FieldText.value, FieldText.ofValue_nat, JsonText.number.injEq] at hget'
        subst hget'
        have hlt := FieldText.lt_of_has hfd.2
        exact ⟨rfl, rfl, hlt.trans (by norm_num), Binary64.ofRat_natCast hlt⟩
      | string s => cases hget'
      | strings xs => cases hget'
    rw [hexact.mpr hnumbers] at hys
    exact decodeServerMessage_iff.mpr ⟨c, hc, decodeClass_eq_some.mpr ⟨hkind, hys, htype⟩⟩

end ControlText

/-! ### What is written is told apart -/

theorem FieldText.read_injective {x y : FieldText} (h : x.read = y.read) : x = y := by
  cases x with
  | number n =>
    cases y with
    | number k => exact congrArg FieldText.number (FieldValue.number.inj h)
    | _ => cases h
  | string s =>
    cases y with
    | string t => exact congrArg FieldText.string (utf16Units_injective (FieldValue.string.inj h))
    | _ => cases h
  | strings xs =>
    cases y with
    | strings ys =>
      have hinj : Function.Injective utf16Units := fun _ _ => utf16Units_injective
      exact congrArg FieldText.strings (hinj.list_map (FieldValue.strings.inj h))
    | _ => cases h

theorem FieldText.value_injective {x y : FieldText} (h : x.value = y.value) : x = y := by
  cases x with
  | number n =>
    cases y with
    | number k => exact congrArg FieldText.number (Json.Value.nat_injective h)
    | _ => cases h
  | string s =>
    cases y with
    | string t => exact congrArg FieldText.string (Json.Value.string.inj h)
    | _ => cases h
  | strings xs =>
    cases y with
    | strings ys =>
      have hinj : Function.Injective Json.Value.string := fun _ _ => Json.Value.string.inj
      exact congrArg FieldText.strings (hinj.list_map (Json.Value.array.inj h))
    | _ => cases h

/-- Fields are told apart by what tells their contents apart. -/
theorem FieldText.fields_injective {α : Type} {f : FieldText → α} (hf : ∀ {x y}, f x = f y → x = y) :
    Function.Injective fun xs : List (String × FieldText) => xs.map fun x => (x.1, f x.2) := by
  have hinj : Function.Injective fun x : String × FieldText => (x.1, f x.2) := fun x y hxy => by
    obtain ⟨hname, hread⟩ := Prod.ext_iff.mp hxy
    exact Prod.ext hname (hf hread)
  exact hinj.list_map

theorem ControlText.message_injective {t t' : ControlText} (h : t.message = t'.message) : t = t' := by
  cases t
  cases t'
  obtain ⟨htype, hfields⟩ := (ControlMessage.mk.injEq ..).mp h
  exact (ControlText.mk.injEq ..).mpr ⟨htype, FieldText.fields_injective FieldText.read_injective hfields⟩

theorem ControlText.value_injective {t t' : ControlText} (h : t.value = t'.value) : t = t' := by
  cases t
  cases t'
  obtain ⟨htype, hfields⟩ := List.cons.inj (Json.Value.object.inj h)
  have htype := Json.Value.string.inj (Prod.ext_iff.mp htype).2
  exact (ControlText.mk.injEq ..).mpr ⟨htype, FieldText.fields_injective FieldText.value_injective hfields⟩

/-- The message a text was written for. -/
def ServerMessage.ofText (t : ControlText) : Option ServerMessage :=
  match t.type, t.fields with
  | "pong", [(_, .number n)] => some (.pong n)
  | "attach_error", [(_, .string code)] => some (.attachError code)
  | "attached", [(_, .string session), (_, .strings routes), (_, .number heartbeat_ms),
      (_, .number idle_timeout_ms)] =>
    some (.attached session routes heartbeat_ms idle_timeout_ms)
  | "open", [(_, .number conn), (_, .string peer), (_, .string sni), (_, .string alpn)] =>
    some (.openConn conn peer (some sni) alpn)
  | "open", [(_, .number conn), (_, .string peer), (_, .string alpn)] => some (.openConn conn peer none alpn)
  | "end", [(_, .number conn)] => some (.endConn conn)
  | "reset", [(_, .number conn), (_, .string code)] => some (.resetConn conn code)
  | _, _ => none

theorem ServerMessage.ofText_controlText {m : ServerMessage} {t : ControlText} (h : m.controlText? = some t) :
    ofText t = some m := by
  cases m with
  | pong time_sent =>
    simp only [controlText?] at h
    split at h
    · rename_i hnat
      obtain rfl := Option.some.inj h
      have hnum := Rat.num_nonneg.mpr hnat.2
      have hback : ((time_sent.num.toNat : ℕ) : ℚ) = time_sent := by
        rw [← Int.cast_natCast, Int.toNat_of_nonneg hnum, Rat.coe_int_num_of_den_eq_one hnat.1]
      exact congrArg (fun x => some (pong x)) hback
    · cases h
  | openConn conn peer sni alpn =>
    cases sni <;>
    · obtain rfl := Option.some.inj h
      rfl
  | dataFrame conn payload => cases h
  | _ =>
    obtain rfl := Option.some.inj h
    rfl

/-! ### The clients' messages, as the object reads them -/

/-- The message as both clients write it: TypeScript with `JSON.stringify`, Rust with
`serde_json`. -/
def ClientMessage.value? (version : String) (max_conns : ℕ) : ClientMessage → Option Json.Value
  | attach token routes =>
    some (.object [("type", .string "attach"), ("token", .string token), ("transport", .string "ws"),
      ("routes", .array (routes.map .string)),
      ("client", .object [("version", .string version), ("max_conns", .nat max_conns)])])
  | ping time_sent => some (.object [("type", .string "ping"), ("time_sent", .nat time_sent)])
  | endConn conn => some (.object [("type", .string "end"), ("conn", .nat conn)])
  | resetConn conn code => some (.object [("type", .string "reset"), ("conn", .nat conn), ("code", .string code)])
  | dataFrame _ _ => none

/-- Its numbers are exact as doubles. -/
def ClientMessage.InRange : ClientMessage → Prop
  | ping time_sent => time_sent < 2 ^ 53
  | endConn conn | resetConn conn _ => conn < 2 ^ 32
  | _ => True

theorem Json.ofValue_nat {n : ℕ} (h : n < 2 ^ 53) : Json.ofValue (.nat n) = some (.num n) := by
  have hvalue : (Numeral.ofText (Nat.toDigits 10 n)).value = n := by
    rw [Numeral.ofText_nat]
    simp [Numeral.value]
  show (match Double.ofRat (Numeral.ofText (Nat.toDigits 10 n)).value with
    | .finite x => some (Json.num x)
    | .infinite _ => none) = _
  rw [hvalue, Binary64.ofRat_natCast h]

theorem Json.ofValues_strings (xs : List String) : Json.ofValues (xs.map .string) = some (xs.map .str) := by
  induction xs with
  | nil => rfl
  | cons x xs ih =>
    show (Json.ofValue (.string x)).bind _ = _
    rw [ih]
    rfl

/-- What the object reads of a control message. -/
def controlNames : List String := ["type", "token", "routes", "time_sent", "conn"]

/-- The object looks at these fields only. -/
theorem Store.webSocketMessage_congr (P : Platform) (s : Store) (w : ℕ) {a b : List (String × Json)}
    (h : ∀ name ∈ controlNames, (Json.obj a).field name = (Json.obj b).field name) :
    s.webSocketMessage P w (.text (some (.obj a))) = s.webSocketMessage P w (.text (some (.obj b))) := by
  have htype := h "type" (by decide)
  have htoken := h "token" (by decide)
  have hroutes := h "routes" (by decide)
  have htime := h "time_sent" (by decide)
  have hconn := h "conn" (by decide)
  have hparse : ∀ fields : List (String × Json), parseControl (some (.obj fields)) = some (.obj fields) :=
    fun _ => rfl
  have hunattached : ∀ type, s.unattachedControl w type (.obj a) = s.unattachedControl w type (.obj b) := by
    intro type
    unfold Store.unattachedControl
    rw [htoken, hroutes]
  have hattached : ∀ type, s.attachedControl P w type (.obj a) = s.attachedControl P w type (.obj b) := by
    intro type
    unfold Store.attachedControl
    rw [htime, hconn]
  unfold Store.webSocketMessage
  simp only [hparse, Option.bind_some, htype]
  cases (Json.obj b).field "type" with
  | none => rfl
  | some x =>
    cases x with
    | str type => simp only [Option.bind_some, Json.string?, Option.map_some, hunattached, hattached]
    | _ => rfl

/-! ### Both directions -/

/-- The numbers of the message are a connection's, or exact as doubles. -/
def ServerMessage.InRange : ServerMessage → Prop
  | pong time_sent => time_sent < 2 ^ 53
  | attached _ _ heartbeat_ms idle_timeout_ms => heartbeat_ms < 2 ^ 53 ∧ idle_timeout_ms < 2 ^ 53
  | openConn conn .. | endConn conn | resetConn conn _ => conn < 2 ^ 32
  | _ => True

/-- An `open` names the host it is for: its `sni` is there. -/
def ServerMessage.NamesHost : ServerMessage → Prop
  | openConn _ _ none _ => False
  | _ => True

theorem FieldText.printable (x : FieldText) : Json.Printable x.value := by
  cases x with
  | number n => exact .nat n
  | string s => exact .string s
  | strings xs =>
    refine .array fun v hv => ?_
    obtain ⟨s, -, rfl⟩ := List.mem_map.mp hv
    exact .string s

theorem ControlText.printable (t : ControlText) : Json.Printable t.value := by
  refine .object fun f hf => ?_
  rcases List.mem_cons.mp hf with rfl | hf
  · exact .string t.type
  · obtain ⟨g, -, rfl⟩ := List.mem_map.mp hf
    exact g.2.printable

/-- What is printed is parsed, so texts are told apart as well. -/
theorem ControlText.text_injective {t t' : ControlText} (h : t.text = t'.text) : t = t' := by
  have hparsed : Json.parse t'.text = some t.value := h ▸ Json.parse_print t.printable
  exact ControlText.value_injective (Option.some.inj (hparsed.symm.trans (Json.parse_print t'.printable)))

theorem ClientMessage.printable {version : String} {max_conns : ℕ} {m : ClientMessage} {v : Json.Value}
    (h : m.value? version max_conns = some v) : Json.Printable v := by
  cases m with
  | attach token routes =>
    obtain rfl := Option.some.inj h
    have hroutes : Json.Printable (.array (routes.map .string)) := (FieldText.strings routes).printable
    have hclient : Json.Printable (.object [("version", .string version), ("max_conns", .nat max_conns)]) :=
      .object fun f hf => by
        rcases List.mem_cons.mp hf with rfl | hf
        · exact .string version
        · obtain rfl := List.mem_singleton.mp hf
          exact .nat max_conns
    refine .object fun f hf => ?_
    simp only [List.mem_cons, List.not_mem_nil, or_false] at hf
    rcases hf with rfl | rfl | rfl | rfl | rfl
    · exact .string _
    · exact .string _
    · exact .string _
    · exact hroutes
    · exact hclient
  | ping time_sent =>
    obtain rfl := Option.some.inj h
    exact (ControlText.mk "ping" [("time_sent", .number time_sent)]).printable
  | endConn conn =>
    obtain rfl := Option.some.inj h
    exact (ControlText.mk "end" [("conn", .number conn)]).printable
  | resetConn conn code =>
    obtain rfl := Option.some.inj h
    exact (ControlText.mk "reset" [("conn", .number conn), ("code", .string code)]).printable
  | dataFrame conn payload => cases h

/-- The object writes what the protocol declares. -/
theorem ServerMessage.declared {m : ServerMessage} {t : ControlText} (h : m.controlText? = some t) (hr : m.InRange)
    (hhost : m.NamesHost) : t.Declared := by
  have hfound : ∀ {c}, c ∈ ServerControlMessage → t.type = c.1 →
      List.Forall₂ (fun f d => f.1 = d.1 ∧ f.2.Has d.2) t.fields c.2 → t.Declared := fun hc ht hf => ⟨_, hc, ht, hf⟩
  cases m with
  | pong time_sent =>
    simp only [controlText?] at h
    split at h
    · rename_i hnat
      obtain rfl := Option.some.inj h
      have hlt : time_sent.num.toNat < 2 ^ 53 := by
        have hnum := Rat.num_nonneg.mpr hnat.2
        have hr : time_sent < 2 ^ 53 := hr
        rw [← Rat.coe_int_num_of_den_eq_one hnat.1] at hr
        have : time_sent.num < 2 ^ 53 := by exact_mod_cast hr
        omega
      exact hfound (c := BridgeProtocol.PongMessage) (by decide) rfl (.cons ⟨rfl, hlt⟩ .nil)
    · cases h
  | attachError code =>
    obtain rfl := Option.some.inj h
    exact hfound (c := BridgeProtocol.AttachErrorMessage) (by decide) rfl (.cons ⟨rfl, trivial⟩ .nil)
  | attached session routes heartbeat_ms idle_timeout_ms =>
    obtain rfl := Option.some.inj h
    exact hfound (c := BridgeProtocol.AttachedMessage) (by decide) rfl
      (.cons ⟨rfl, trivial⟩ (.cons ⟨rfl, trivial⟩ (.cons ⟨rfl, hr.1⟩ (.cons ⟨rfl, hr.2⟩ .nil))))
  | openConn conn peer sni alpn =>
    cases sni with
    | none => exact hhost.elim
    | some sni =>
      obtain rfl := Option.some.inj h
      exact hfound (c := BridgeProtocol.OpenMessage) (by decide) rfl
        (.cons ⟨rfl, hr⟩ (.cons ⟨rfl, trivial⟩ (.cons ⟨rfl, trivial⟩ (.cons ⟨rfl, trivial⟩ .nil))))
  | endConn conn =>
    obtain rfl := Option.some.inj h
    exact hfound (c := BridgeProtocol.EndMessage) (by decide) rfl (.cons ⟨rfl, hr⟩ .nil)
  | resetConn conn code =>
    obtain rfl := Option.some.inj h
    exact hfound (c := BridgeProtocol.ResetMessage) (by decide) rfl (.cons ⟨rfl, hr⟩ (.cons ⟨rfl, trivial⟩ .nil))
  | dataFrame conn payload => cases h

/-- An `open` without a host is no message to the clients: a declared field is missing. -/
theorem hostless_ignored {m : ServerMessage} {t : ControlText} (h : m.controlText? = some t) (hhost : ¬ m.NamesHost)
    (inRange : Numeral → Bool) :
    (∀ n, Rust.decode inRange (JsonText.ofValue t.value) ≠ .ok (some n)) ∧
      BridgeProtocol.decodeServerMessage (JsonText.ofValue t.value) = none := by
  obtain ⟨conn, peer, alpn, rfl⟩ : ∃ conn peer alpn, m = .openConn conn peer none alpn := by
    unfold ServerMessage.NamesHost at hhost
    split at hhost
    · exact ⟨_, _, _, rfl⟩
    · exact absurd trivial hhost
  obtain rfl := Option.some.inj h
  generalize ht : (⟨"open", [("conn", .number conn), ("peer", .string peer), ("alpn", .string alpn)]⟩ : ControlText)
    = t
  have hkind : (JsonText.ofValue t.value).kind? = some (utf16 "open") := by
    subst ht
    exact ControlText.kind_value (show ["type", "conn", "peer", "alpn"].Nodup by decide) (show Plain "open" by decide)
  have hnone : (JsonText.ofValue t.value).get "sni" = none := by
    subst ht
    rw [ControlText.value, JsonText.get_ofValue (show Plain "sni" by decide)]
    rfl
  have hclass : ∀ c ∈ ServerControlMessage, utf16 "open" = utf16 c.1 → ("sni", SchemaType.String) ∈ c.2 := by decide
  have hno : BridgeProtocol.decodeServerMessage (JsonText.ofValue t.value) = none := by
    rw [Option.eq_none_iff_forall_ne_some]
    intro n hn
    obtain ⟨c, hc, hcn⟩ := decodeServerMessage_iff.mp hn
    have hadmitted : Admitted c (JsonText.ofValue t.value) :=
      admitted_iff.mpr ⟨n.fields, by rw [hcn, ← (decodeClass_eq_some.mp hcn).2.2]⟩
    have hopen := hkind.symm.trans hadmitted.1
    obtain ⟨v, hv, -⟩ := hadmitted.2 _ (hclass c hc (Option.some.inj hopen))
    rw [hnone] at hv
    cases hv
  refine ⟨fun n hn => ?_, hno⟩
  obtain ⟨c, hc, k, hk, -⟩ := class_of_rust (rust_decode_iff.mp hn).2
  have hsome : BridgeProtocol.decodeServerMessage (JsonText.ofValue t.value) = some k :=
    decodeServerMessage_iff.mpr ⟨c, hc, hk⟩
  rw [hno] at hsome
  cases hsome

/-- What the object reads of a text of a client's is what the model's message says. -/
theorem ClientMessage.handled {version : String} {max_conns : ℕ} (hmax : max_conns < 2 ^ 53) {m : ClientMessage}
    {v : Json.Value} (h : m.value? version max_conns = some v) (hr : m.InRange) :
    ∃ j, Json.ofValue v = some j ∧ ∀ (P : Platform) (s : Store) (w : ℕ),
      s.webSocketMessage P w (.text (some j)) = s.webSocketMessage P w m.message := by
  cases m with
  | attach token routes =>
    obtain rfl := Option.some.inj h
    have hroutes : Json.ofValue (.array (routes.map .string)) = some (.arr (routes.map .str)) := by
      rw [Json.ofValue, Json.ofValues_strings]
      rfl
    refine ⟨.obj [("type", .str "attach"), ("token", .str token), ("transport", .str "ws"),
      ("routes", .arr (routes.map .str)), ("client", .obj [("version", .str version), ("max_conns", .num max_conns)])],
      ?_, fun P s w => ?_⟩
    · simp only [Json.ofValue, Json.ofMembers, Json.ofValue_nat hmax, Json.ofValues_strings, Option.bind_some,
        Option.map_some]
    · refine s.webSocketMessage_congr P w fun name hname => ?_
      simp only [controlNames, List.mem_cons, List.not_mem_nil, or_false] at hname
      rcases hname with rfl | rfl | rfl | rfl | rfl <;> rfl
  | ping time_sent =>
    obtain rfl := Option.some.inj h
    refine ⟨_, ?_, fun _ _ _ => rfl⟩
    simp only [Json.ofValue, Json.ofMembers, Json.ofValue_nat hr, Option.bind_some, Option.map_some]
  | endConn conn =>
    obtain rfl := Option.some.inj h
    have hconn : conn < 2 ^ 53 := lt_trans hr (by norm_num)
    refine ⟨_, ?_, fun _ _ _ => rfl⟩
    simp only [Json.ofValue, Json.ofMembers, Json.ofValue_nat hconn, Option.bind_some, Option.map_some]
  | resetConn conn code =>
    obtain rfl := Option.some.inj h
    have hconn : conn < 2 ^ 53 := lt_trans hr (by norm_num)
    refine ⟨_, ?_, fun _ _ _ => rfl⟩
    simp only [Json.ofValue, Json.ofMembers, Json.ofValue_nat hconn, Option.bind_some, Option.map_some]
  | dataFrame conn payload => cases h

/-- Control messages survive being written as texts. What the object writes is a JSON
text of which both clients make the same message, and different messages have
different texts and are different to the clients; only an `open` without a host is
ignored, by both. And the object treats the text a client writes as it treats the
message. -/
theorem message_texts_carried (inRange : Numeral → Bool) :
    (∀ (m : ServerMessage) (t : ControlText), m.controlText? = some t → m.InRange →
      ∃ v, Json.parse t.text = some v ∧
        (m.NamesHost → Rust.decode inRange (JsonText.ofValue v) = .ok (some t.message) ∧
          BridgeProtocol.decodeServerMessage (JsonText.ofValue v) = some (inDoubles t.message)) ∧
        (¬ m.NamesHost → (∀ n, Rust.decode inRange (JsonText.ofValue v) ≠ .ok (some n)) ∧
          BridgeProtocol.decodeServerMessage (JsonText.ofValue v) = none)) ∧
    (∀ (m m' : ServerMessage) (t t' : ControlText), m.controlText? = some t → m'.controlText? = some t' →
      t.text = t'.text ∨ t.message = t'.message → m = m') ∧
    (∀ (version : String) (max_conns : ℕ) (m : ClientMessage) (v : Json.Value), max_conns < 2 ^ 53 →
      m.value? version max_conns = some v → m.InRange →
      ∃ v' j, Json.parse (Json.print v) = some v' ∧ Json.ofValue v' = some j ∧
        ∀ (P : Platform) (s : Store) (w : ℕ),
          s.webSocketMessage P w (.text (some j)) = s.webSocketMessage P w m.message) := by
  refine ⟨fun m t h hr => ?_, fun m m' t t' h h' he => ?_, fun version max_conns m v hmax h hr => ?_⟩
  · exact ⟨t.value, Json.parse_print t.printable,
      fun hhost => ControlText.decoded (ServerMessage.declared h hr hhost) inRange,
      fun hhost => hostless_ignored h hhost inRange⟩
  · obtain rfl : t = t' := he.elim ControlText.text_injective ControlText.message_injective
    have hm := ServerMessage.ofText_controlText h
    rw [ServerMessage.ofText_controlText h'] at hm
    exact (Option.some.inj hm).symm
  · obtain ⟨j, hj, hhandled⟩ := ClientMessage.handled hmax h hr
    exact ⟨v, j, Json.parse_print (ClientMessage.printable h), hj, hhandled⟩

/-- An `open` for a host beyond ASCII, and an `end`. -/
theorem message_texts_carried_open :
    (∃ t v, (ServerMessage.openConn 7 "10.0.0.1" (some "ü.example") "").controlText? = some t ∧
      Json.parse t.text = some v ∧ Rust.decode (fun _ => false) (JsonText.ofValue v) = .ok (some t.message)) ∧
    ∃ v j, Json.parse (Json.print (.object [("type", .string "end"), ("conn", .nat 7)])) = some v ∧
      Json.ofValue v = some j ∧ ∀ (P : Platform) (s : Store) (w : ℕ),
        s.webSocketMessage P w (.text (some j)) = s.webSocketMessage P w (ClientMessage.endConn 7).message := by
  obtain ⟨hserver, -, hclient⟩ := message_texts_carried fun _ => false
  refine ⟨?_, hclient "1" 256 (.endConn 7) _ (by decide) rfl (show 7 < 2 ^ 32 by decide)⟩
  obtain ⟨v, hv, hdecoded, -⟩ :=
    hserver (.openConn 7 "10.0.0.1" (some "ü.example") "") _ rfl (show 7 < 2 ^ 32 by decide)
  exact ⟨_, v, rfl, hv, (hdecoded trivial).1⟩

end ShuvTunnel
