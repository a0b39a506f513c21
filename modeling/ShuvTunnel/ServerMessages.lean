/-
# How the clients decode the server's messages

A JSON text is given by its syntax, which both clients read by the same
grammar: a numeral keeps its sign, its digits and whether it has a fraction or
an exponent, a string its UTF-16 units, an object its fields in order.

Rust reads it with `serde_json` into the enum `ServerMessage`
(`bridge.rs`), TypeScript with `JSON.parse` and the schema
`ServerControlMessage` (`bridge-protocol.ts`). A Rust `String` is given by its
UTF-16 units too; these are well formed.

Key definitions: `JsonText`, `Rust.reads`, `Rust.decode`, `decodeServerMessage`.
-/
import ShuvTunnel.Lib.Binary64

namespace ShuvTunnel

open Binary64 (Double)

/-! ### JSON texts -/

/-- A numeral: `-12.50e3` is `⟨true, 12, some [5, 0], some 3⟩`. -/
structure Numeral where
  negative : Bool
  digits : ℕ
  fraction : Option (List (Fin 10))
  exponent : Option ℤ
  deriving DecidableEq

namespace Numeral

/-- The number that is written. -/
def value (n : Numeral) : ℚ :=
  let fraction := n.fraction.getD []
  let magnitude : ℚ := n.digits + (fraction.foldl (fun x d => 10 * x + d.val) 0 : ℕ) / 10 ^ fraction.length
  (if n.negative then -magnitude else magnitude) * 10 ^ n.exponent.getD 0

/-- Neither a fraction nor an exponent is written. -/
def isInteger (n : Numeral) : Bool := n.fraction.isNone && n.exponent.isNone

end Numeral

/-- The syntax of a JSON text, with numbers as they are written and strings in
units. -/
inductive JsonText
  | null
  | bool (b : Bool)
  | number (n : Numeral)
  | string (units : List UInt16)
  | array (xs : List JsonText)
  | object (fields : List (List UInt16 × JsonText))

/-- The units of a name in ASCII. -/
def utf16 (name : String) : List UInt16 := name.toList.map fun c => .ofNat c.toNat

namespace JsonText

/-- The last field of that name counts, in `JSON.parse` and in
`serde_json::Value`; an array has none. -/
def get : JsonText → String → Option JsonText
  | object fields, name => fields.reverse.lookup (utf16 name)
  | _, _ => none

/-- The value is a string. -/
def string? : JsonText → Option (List UInt16)
  | string units => some units
  | _ => none

end JsonText

/-! ### Messages -/

/-- The value of a field; `ν` is what the client takes for a number. -/
inductive FieldValue (ν : Type)
  | number (x : ν)
  | string (units : List UInt16)
  | strings (xs : List (List UInt16))
  deriving DecidableEq

/-- Changes what a client takes for a number. -/
def FieldValue.map {ν μ : Type} (f : ν → μ) : FieldValue ν → FieldValue μ
  | number x => number (f x)
  | string units => string units
  | strings xs => strings xs

/-- A message: its type and its declared fields. -/
structure ControlMessage (ν : Type) where
  type : String
  fields : List (String × FieldValue ν)
  deriving DecidableEq

/-- Changes what a client takes for a number, in all fields. -/
def ControlMessage.map {ν μ : Type} (f : ν → μ) (m : ControlMessage ν) : ControlMessage μ where
  type := m.type
  fields := m.fields.map fun x => (x.1, x.2.map f)

/-- Each declared field is there and has its type. -/
def decodeFields {τ ν : Type} (read : τ → JsonText → Option (FieldValue ν)) (get : String → Option JsonText) :
    List (String × τ) → Option (List (String × FieldValue ν))
  | [] => some []
  | (name, t) :: fields =>
    (get name).bind fun v => (read t v).bind fun x =>
      (decodeFields read get fields).map fun xs => (name, x) :: xs

/-! ### Rust -/

namespace Rust

/-- The types of the fields of `ServerMessage`. -/
inductive FieldType
  | u32
  | u64
  | string
  | vecString
  deriving DecidableEq

/-- `enum ServerMessage`, its variants in snake case. -/
def variants : List (String × List (String × FieldType)) :=
  [("attached", [("session", .string), ("routes", .vecString), ("heartbeat_ms", .u64), ("idle_timeout_ms", .u64)]),
   ("attach_error", [("code", .string)]),
   ("open", [("conn", .u32), ("peer", .string), ("sni", .string), ("alpn", .string)]),
   ("ping", [("time_sent", .u64)]),
   ("pong", [("time_sent", .u64)]),
   ("drain", [("reason", .string)]),
   ("end", [("conn", .u32)]),
   ("reset", [("conn", .u32), ("code", .string)])]

/-- `SERVER_TYPES`: what has another type is ignored. -/
def SERVER_TYPES : List String :=
  ["attached", "attach_error", "open", "ping", "pong", "drain", "end", "reset"]

/-- `serde_json` takes no float for an integer, and writes every numeral with a
sign of minus zero, a fraction or an exponent as a float. -/
def readInteger (bound : ℕ) (n : Numeral) : Option (FieldValue ℕ) :=
  if n.isInteger && !n.negative && n.digits < bound then some (.number n.digits) else none

/-- Reads a field of a type. -/
def FieldType.read : FieldType → JsonText → Option (FieldValue ℕ)
  | .u32, .number n => readInteger (2 ^ 32) n
  | .u64, .number n => readInteger (2 ^ 64) n
  | .string, .string units => some (.string units)
  | .vecString, .array xs => (xs.mapM JsonText.string?).map .strings
  | _, _ => none

/-- The variant of a tag. -/
def variant (kind : List UInt16) : Option (String × List (String × FieldType)) :=
  variants.find? fun v => utf16 v.1 = kind

/-- The fields in the order of their declaration, and no other value. -/
def decodeSeq : List (String × FieldType) → List JsonText → Option (List (String × FieldValue ℕ))
  | [], [] => some []
  | (name, t) :: fields, v :: vs =>
    (t.read v).bind fun x => (decodeSeq fields vs).map fun xs => (name, x) :: xs
  | _, _ => none

/-- `serde_json::from_value`: an internally tagged enum is read from an object
with the tag `type`, or from an array whose first element is the tag. -/
def fromValue : JsonText → Option (ControlMessage ℕ)
  | .object fields =>
    ((JsonText.object fields).get "type").bind fun tag => tag.string?.bind fun kind => (variant kind).bind fun v =>
      (decodeFields FieldType.read (JsonText.object fields).get v.2).map fun xs => ⟨v.1, xs⟩
  | .array (tag :: rest) =>
    tag.string?.bind fun kind => (variant kind).bind fun v => (decodeSeq v.2 rest).map fun xs => ⟨v.1, xs⟩
  | _ => none

/-- A unit that begins a pair. -/
def isHighSurrogate (u : UInt16) : Bool := 0xD800 ≤ u && u ≤ 0xDBFF

/-- A unit that ends a pair. -/
def isLowSurrogate (u : UInt16) : Bool := 0xDC00 ≤ u && u ≤ 0xDFFF

/-- Every surrogate is one of a pair: an escape of a lone one is an error. -/
def wellFormed : List UInt16 → Bool
  | [] => true
  | [u] => !isHighSurrogate u && !isLowSurrogate u
  | u :: v :: us =>
    if isHighSurrogate u then isLowSurrogate v && wellFormed us else !isLowSurrogate u && wellFormed (v :: us)

/-- The numeral fits `u64` or `i64`; minus zero is a float. -/
def fitsInteger (n : Numeral) : Bool :=
  n.isInteger && if n.negative then 0 < n.digits && n.digits ≤ 2 ^ 63 else n.digits < 2 ^ 64

mutual

/-- `serde_json::from_str` reads the text: strings are well formed, a float is
`inRange`, and arrays and objects are nested less deep than `depth`. -/
def reads (inRange : Numeral → Bool) : ℕ → JsonText → Bool
  | _, .null => true
  | _, .bool _ => true
  | _, .number n => fitsInteger n || inRange n
  | _, .string units => wellFormed units
  | depth, .array xs => 1 < depth && readsAll inRange (depth - 1) xs
  | depth, .object fields => 1 < depth && readsFields inRange (depth - 1) fields

/-- Each of the values can be read. -/
def readsAll (inRange : Numeral → Bool) : ℕ → List JsonText → Bool
  | _, [] => true
  | depth, x :: xs => reads inRange depth x && readsAll inRange depth xs

/-- Each of the fields can be read, with its name. -/
def readsFields (inRange : Numeral → Bool) : ℕ → List (List UInt16 × JsonText) → Bool
  | _, [] => true
  | depth, (name, x) :: fields => wellFormed name && reads inRange depth x && readsFields inRange depth fields

end

/-- `remaining_depth` of `serde_json`. -/
def REMAINING_DEPTH : ℕ := 128

/-- `serde_json::Error`, of which the session reads nothing. -/
inductive DecodeError
  | invalid
  deriving DecidableEq

/-- `ServerMessage::decode`. -/
def decode (inRange : Numeral → Bool) (text : JsonText) : Except DecodeError (Option (ControlMessage ℕ)) :=
  if !reads inRange REMAINING_DEPTH text then .error .invalid
  else
    let kind := (text.get "type").bind JsonText.string?
    let known := kind.any fun kind => SERVER_TYPES.any fun name => utf16 name = kind
    if !known && kind.isSome then .ok none
    else match fromValue text with
      | some message => .ok (some message)
      | none => .error .invalid

end Rust

/-! ### TypeScript -/

namespace BridgeProtocol

/-- The schemas of the fields in `bridge.ts`. -/
inductive SchemaType
  | ConnID
  | Number
  | String
  | ArrayString
  deriving DecidableEq

/-- The class `AttachedMessage`: its type, and its fields with their schemas. -/
def AttachedMessage : String × List (String × SchemaType) :=
  ("attached", [("session", .String), ("routes", .ArrayString), ("heartbeat_ms", .Number), ("idle_timeout_ms", .Number)])

/-- The class `AttachErrorMessage`. -/
def AttachErrorMessage : String × List (String × SchemaType) := ("attach_error", [("code", .String)])

/-- The class `PingMessage`. -/
def PingMessage : String × List (String × SchemaType) := ("ping", [("time_sent", .Number)])

/-- The class `PongMessage`. -/
def PongMessage : String × List (String × SchemaType) := ("pong", [("time_sent", .Number)])

/-- The class `DrainMessage`. -/
def DrainMessage : String × List (String × SchemaType) := ("drain", [("reason", .String)])

/-- The class `OpenMessage`. -/
def OpenMessage : String × List (String × SchemaType) :=
  ("open", [("conn", .ConnID), ("peer", .String), ("sni", .String), ("alpn", .String)])

/-- The class `EndMessage`. -/
def EndMessage : String × List (String × SchemaType) := ("end", [("conn", .ConnID)])

/-- The class `ResetMessage`. -/
def ResetMessage : String × List (String × SchemaType) := ("reset", [("conn", .ConnID), ("code", .String)])

/-- `Schema.Union`. -/
def ServerControlMessage : List (String × List (String × SchemaType)) :=
  [AttachedMessage, AttachErrorMessage, PingMessage, PongMessage, DrainMessage, OpenMessage, EndMessage, ResetMessage]

/-- `Schema.Int.check(Schema.isBetween({ minimum: 0, maximum: 0xffffffff }))`. -/
def connID : Double → Option Double
  | .finite x => if x.den = 1 ∧ 0 ≤ x ∧ x ≤ 0xffffffff then some (.finite x) else none
  | .infinite _ => none

/-- Reads a field of a schema. -/
def SchemaType.read : SchemaType → JsonText → Option (FieldValue Double)
  | .ConnID, .number n => (connID (.ofRat n.value)).map .number
  | .Number, .number n => some (.number (.ofRat n.value))
  | .String, .string units => some (.string units)
  | .ArrayString, .array xs => (xs.mapM JsonText.string?).map .strings
  | _, _ => none

/-- A class of the union: `type` is its literal. -/
def decodeClass (c : String × List (String × SchemaType)) (value : JsonText) : Option (ControlMessage Double) :=
  if (value.get "type").bind JsonText.string? = some (utf16 c.1) then
    (decodeFields SchemaType.read value.get c.2).map fun xs => ⟨c.1, xs⟩
  else none

/-- The first class of the union that takes the value. -/
def decodeServerMessage (text : JsonText) : Option (ControlMessage Double) :=
  ServerControlMessage.findSome? fun c => decodeClass c text

end BridgeProtocol

end ShuvTunnel
