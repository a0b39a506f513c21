/-
# JSON, one character after the other

A reader of JSON texts as a machine that is fed characters: where it is in the
text (`Mode`) and the arrays and objects it is in (`Frame`). What a text means
is then what the machine has at its end, and what it makes of a beginning of a
text is what it makes of the text up to there: a value that is closed can only
be followed by white space, so no strict beginning of an object is a JSON text.

`object` prints an object whose values are strings, one member a line and
indented by two, as the printers of most languages do.

A numeral is kept as it is written. A string is a text, so an escaped surrogate
must be one of a pair.

Key definitions: `Json.parse`, `Json.object`.
Key theorems: `Json.parse_object`, `Json.parse_prefix_object`, `Json.run_append`.
-/
import Mathlib.Data.List.Basic

namespace Json

/-- A JSON value; a number is kept as it is written. -/
inductive Value
  | null
  | bool (b : Bool)
  | number (text : List Char)
  | string (s : String)
  | array (xs : List Value)
  | object (fields : List (String × Value))

namespace Value

/-- The value is a string. -/
def string? : Value → Option String
  | string s => some s
  | _ => none

end Value

/-! ### Strings -/

/-- Within a string: between characters, behind a backslash, or behind `\u`
and some of its four digits. -/
inductive Within
  | body
  | escape
  | hex (digits value : ℕ)

/-- A string so far; `high` is an escaped high surrogate that waits for its
low one. -/
structure Reading where
  chars : List Char
  high : Option ℕ
  within : Within

/-- A string at its beginning. -/
def Reading.start : Reading := ⟨[], none, .body⟩

/-- The value of a hexadecimal digit. -/
def hexDigit (c : Char) : Option ℕ :=
  if '0' ≤ c ∧ c ≤ '9' then some (c.toNat - 48)
  else if 'a' ≤ c ∧ c ≤ 'f' then some (c.toNat - 87)
  else if 'A' ≤ c ∧ c ≤ 'F' then some (c.toNat - 55)
  else none

/-- What is escaped by one letter, and the letters. -/
def escapes : List (Char × Char) :=
  [('"', '"'), ('\\', '\\'), (Char.ofNat 8, 'b'), (Char.ofNat 12, 'f'), (Char.ofNat 10, 'n'), (Char.ofNat 13, 'r'),
   (Char.ofNat 9, 't')]

/-- The character that is written so behind a backslash. -/
def unescape (c : Char) : Option Char :=
  if c = '/' then some c else (escapes.find? fun e => e.2 = c).map (·.1)

/-- One character of a string: it goes on, or is closed. -/
def Reading.feed (t : Reading) (c : Char) : Option (Reading ⊕ List Char) :=
  match t.within with
  | .body =>
    if c = '\\' then some (.inl { t with within := .escape })
    else if t.high.isSome then none
    else if c = '"' then some (.inr t.chars)
    else if c.toNat < 0x20 then none
    else some (.inl { t with chars := t.chars ++ [c] })
  | .escape =>
    if c = 'u' then some (.inl { t with within := .hex 0 0 })
    else if t.high.isSome then none
    else (unescape c).map fun d => .inl ⟨t.chars ++ [d], none, .body⟩
  | .hex digits value =>
    (hexDigit c).bind fun d =>
      let unit := 16 * value + d
      if digits < 3 then some (.inl { t with within := .hex (digits + 1) unit })
      else match t.high with
        | none =>
          if 0xD800 ≤ unit ∧ unit < 0xDC00 then some (.inl ⟨t.chars, some unit, .body⟩)
          else if 0xDC00 ≤ unit ∧ unit < 0xE000 then none
          else some (.inl ⟨t.chars ++ [Char.ofNat unit], none, .body⟩)
        | some high =>
          if 0xDC00 ≤ unit ∧ unit < 0xE000 then
            some (.inl ⟨t.chars ++ [Char.ofNat (0x10000 + 0x400 * (high - 0xD800) + (unit - 0xDC00))], none, .body⟩)
          else none

/-! ### Numerals -/

/-- Within a numeral: behind the sign, the leading zero, the digits, the point,
its digits, the `e`, its sign, its digits. -/
inductive Numeral
  | minus
  | zero
  | integer
  | point
  | fraction
  | e
  | sign
  | exponent

namespace Numeral

/-- A decimal digit, and no other digit of Unicode. -/
def isDigit (c : Char) : Bool := '0' ≤ c && c ≤ '9'

/-- One more character of a numeral. -/
def feed (n : Numeral) (c : Char) : Option Numeral :=
  match n with
  | minus => if c = '0' then some zero else if isDigit c then some integer else none
  | zero => if c = '.' then some point else if c = 'e' ∨ c = 'E' then some e else none
  | integer =>
    if isDigit c then some integer else if c = '.' then some point
    else if c = 'e' ∨ c = 'E' then some e else none
  | point => if isDigit c then some fraction else none
  | fraction => if isDigit c then some fraction else if c = 'e' ∨ c = 'E' then some e else none
  | e => if isDigit c then some exponent else if c = '+' ∨ c = '-' then some sign else none
  | sign | exponent => if isDigit c then some exponent else none

/-- A numeral may end there. -/
def isFinal : Numeral → Bool
  | zero | integer | fraction | exponent => true
  | _ => false

end Numeral

/-! ### The words -/

/-- The three words of JSON. -/
inductive Word
  | null
  | bool (b : Bool)

/-- What the word is written with. -/
def Word.letters : Word → List Char
  | null => ['n', 'u', 'l', 'l']
  | bool true => ['t', 'r', 'u', 'e']
  | bool false => ['f', 'a', 'l', 's', 'e']

/-- What the word stands for. -/
def Word.value : Word → Value
  | null => .null
  | bool b => .bool b

/-! ### The machine -/

/-- An array or an object the reader is in, up to the value it reads. -/
inductive Frame
  | element (before : List Value)
  | member (before : List (String × Value)) (name : String)

/-- What a string is read for. -/
inductive Goal
  | value
  | name (before : List (String × Value))

/-- Where the reader is: what it expects next, or what it is in. -/
inductive Mode
  | value
  | firstElement
  | firstName
  | name (before : List (String × Value))
  | text (reading : Reading) (goal : Goal)
  | colon (before : List (String × Value)) (name : String)
  | word (w : Word) (letters : ℕ)
  | number (n : Numeral) (written : List Char)
  | afterElement (before : List Value)
  | afterMember (before : List (String × Value))
  | done (v : Value)

/-- The reader, with the arrays and objects it is in. -/
structure State where
  mode : Mode
  stack : List Frame

/-- The reader before the first character. -/
def start : State := ⟨.value, []⟩

/-- White space of JSON. -/
def isSpace (c : Char) : Bool := c = ' ' || c = '\t' || c = '\n' || c = '\r'

/-- A value is complete. -/
def complete (v : Value) : List Frame → State
  | [] => ⟨.done v, []⟩
  | .element before :: stack => ⟨.afterElement (before ++ [v]), stack⟩
  | .member before name :: stack => ⟨.afterMember (before ++ [(name, v)]), stack⟩

/-- The first character of a value. -/
def begin (c : Char) (stack : List Frame) : Option State :=
  if c = '"' then some ⟨.text .start .value, stack⟩
  else if c = '[' then some ⟨.firstElement, stack⟩
  else if c = '{' then some ⟨.firstName, stack⟩
  else if c = 'n' then some ⟨.word .null 1, stack⟩
  else if c = 't' then some ⟨.word (.bool true) 1, stack⟩
  else if c = 'f' then some ⟨.word (.bool false) 1, stack⟩
  else if c = '-' then some ⟨.number .minus [c], stack⟩
  else if c = '0' then some ⟨.number .zero [c], stack⟩
  else if Numeral.isDigit c then some ⟨.number .integer [c], stack⟩
  else none

/-- A character behind a value. -/
def feedAfter (s : State) (c : Char) : Option State :=
  match s.mode with
  | .afterElement before =>
    if isSpace c then some s
    else if c = ',' then some ⟨.value, .element before :: s.stack⟩
    else if c = ']' then some (complete (.array before) s.stack)
    else none
  | .afterMember before =>
    if isSpace c then some s
    else if c = ',' then some ⟨.name before, s.stack⟩
    else if c = '}' then some (complete (.object before) s.stack)
    else none
  | .done _ => if isSpace c then some s else none
  | _ => none

/-- One character. -/
def feed (s : State) (c : Char) : Option State :=
  match s.mode with
  | .value => if isSpace c then some s else begin c s.stack
  | .firstElement =>
    if isSpace c then some s
    else if c = ']' then some (complete (.array []) s.stack)
    else begin c (.element [] :: s.stack)
  | .firstName =>
    if isSpace c then some s
    else if c = '}' then some (complete (.object []) s.stack)
    else if c = '"' then some ⟨.text .start (.name []), s.stack⟩
    else none
  | .name before =>
    if isSpace c then some s
    else if c = '"' then some ⟨.text .start (.name before), s.stack⟩
    else none
  | .text reading goal =>
    (reading.feed c).map fun
      | .inl reading => ⟨.text reading goal, s.stack⟩
      | .inr chars =>
        match goal with
        | .value => complete (.string (String.ofList chars)) s.stack
        | .name before => ⟨.colon before (String.ofList chars), s.stack⟩
  | .colon before name =>
    if isSpace c then some s
    else if c = ':' then some ⟨.value, .member before name :: s.stack⟩
    else none
  | .word w letters =>
    if w.letters[letters]? = some c then
      some (if letters + 1 = w.letters.length then complete w.value s.stack else ⟨.word w (letters + 1), s.stack⟩)
    else none
  | .number n written =>
    match n.feed c with
    | some n => some ⟨.number n (written ++ [c]), s.stack⟩
    | none => if n.isFinal then feedAfter (complete (.number written) s.stack) c else none
  | _ => feedAfter s c

/-- Characters, one after the other. -/
def run : State → List Char → Option State
  | s, [] => some s
  | s, c :: cs => (feed s c).bind fun s => run s cs

/-- The value, when the text is over. -/
def finish (s : State) : Option Value :=
  match s.mode with
  | .done v => some v
  | .number n written => if s.stack.isEmpty && n.isFinal then some (.number written) else none
  | _ => none

/-- Reads a text, which is one value and white space. -/
def parse (text : List Char) : Option Value := (run start text).bind finish

/-! ### The printer -/

/-- A character of a string as it is written; only what must be escaped is. -/
def escapeChar (c : Char) : List Char :=
  match escapes.find? fun e => e.1 = c with
  | some e => ['\\', e.2]
  | none =>
    if c.toNat < 0x20 then
      ['\\', 'u', '0', '0', Nat.digitChar (c.toNat / 16), Nat.digitChar (c.toNat % 16)]
    else [c]

/-- A string with its quotation marks. -/
def quote (s : String) : List Char := '"' :: (s.toList.flatMap escapeChar ++ ['"'])

/-- A member, on a line of its own. -/
def member (x : String × String) : List Char := [' ', ' '] ++ quote x.1 ++ [':', ' '] ++ quote x.2

/-- The members of an object, one a line. -/
def members : List (String × String) → List Char
  | [] => []
  | [x] => member x
  | x :: y :: xs => member x ++ [',', '\n'] ++ members (y :: xs)

/-- An object with its members, one a line. -/
def object (fields : List (String × String)) : List Char :=
  if fields.isEmpty then ['{', '}'] else ['{', '\n'] ++ members fields ++ ['\n', '}']

/-! ### Runs -/

theorem run_append (s : State) (us ws : List Char) : run s (us ++ ws) = (run s us).bind fun s => run s ws := by
  induction us generalizing s with
  | nil => rfl
  | cons c cs ih =>
    simp only [List.cons_append, run, Option.bind_assoc]
    exact congrArg _ (funext ih)

theorem run_append_of {s s' : State} {us ws : List Char} (h : run s us = some s') : run s (us ++ ws) = run s' ws := by
  rw [run_append, h]
  rfl

/-- What an escaped character is read as. -/
theorem run_escapeChar (chars : List Char) (goal : Goal) (stack : List Frame) (c : Char) :
    run ⟨.text ⟨chars, none, .body⟩ goal, stack⟩ (escapeChar c) =
      some ⟨.text ⟨chars ++ [c], none, .body⟩ goal, stack⟩ := by
  have hletter : ∀ e ∈ escapes, e.2 ≠ 'u' ∧ unescape e.2 = some e.1 := by decide
  have hhex : ∀ n < 0x20, hexDigit (Nat.digitChar (n / 16)) = some (n / 16) ∧
      hexDigit (Nat.digitChar (n % 16)) = some (n % 16) := by decide
  unfold escapeChar
  split
  · rename_i e he
    obtain ⟨hu, hun⟩ := hletter e (List.mem_of_find?_eq_some he)
    have hc : e.1 = c := by simpa using List.find?_some he
    simp [run, feed, Reading.feed, hu, hun, hc]
  · rename_i hnone
    have hplain : ∀ e ∈ escapes, e.1 ≠ c := by simpa using hnone
    have hquote : c ≠ '"' := (hplain ('"', '"') (by decide)).symm
    have hback : c ≠ '\\' := (hplain ('\\', '\\') (by decide)).symm
    split
    · rename_i hlt
      obtain ⟨h1, h2⟩ := hhex _ hlt
      have hzero : hexDigit '0' = some 0 := rfl
      have hhigh : ¬ (0xD800 ≤ c.toNat ∧ c.toNat < 0xDC00) := by omega
      have hlow : ¬ (0xDC00 ≤ c.toNat ∧ c.toNat < 0xE000) := by omega
      have hval : 16 * (c.toNat / 16) + c.toNat % 16 = c.toNat := by omega
      simp [run, feed, Reading.feed, hzero, h1, h2, hval, hhigh, hlow, Char.ofNat_toNat]
    · rename_i hctl
      simp [run, feed, Reading.feed, hquote, hback, hctl]

theorem run_escaped (chars : List Char) (goal : Goal) (stack : List Frame) (cs : List Char) :
    run ⟨.text ⟨chars, none, .body⟩ goal, stack⟩ (cs.flatMap escapeChar) =
      some ⟨.text ⟨chars ++ cs, none, .body⟩ goal, stack⟩ := by
  induction cs generalizing chars with
  | nil => simp [run]
  | cons c cs ih =>
    rw [List.flatMap_cons, run_append_of (run_escapeChar chars goal stack c), ih, List.append_assoc]
    rfl

/-- A string that is a value. -/
theorem run_quote (stack : List Frame) (s : String) :
    run ⟨.value, stack⟩ (quote s) = some (complete (.string s) stack) := by
  have hopen : feed ⟨.value, stack⟩ '"' = some ⟨.text .start .value, stack⟩ := rfl
  have hclose : run ⟨.text ⟨s.toList, none, .body⟩ .value, stack⟩ ['"'] =
      some (complete (.string (String.ofList s.toList)) stack) := rfl
  show (feed ⟨.value, stack⟩ '"').bind _ = _
  rw [hopen, Option.bind_some]
  show run _ (s.toList.flatMap escapeChar ++ ['"']) = _
  rw [Reading.start, run_append_of (run_escaped [] .value stack s.toList), List.nil_append, hclose,
    String.ofList_toList]

/-- A string that is a name. -/
theorem run_quote_name {mode : Mode} {before : List (String × Value)} (stack : List Frame) (s : String)
    (hopen : feed ⟨mode, stack⟩ '"' = some ⟨.text .start (.name before), stack⟩) :
    run ⟨mode, stack⟩ (quote s) = some ⟨.colon before s, stack⟩ := by
  have hclose : run ⟨.text ⟨s.toList, none, .body⟩ (.name before), stack⟩ ['"'] =
      some ⟨.colon before (String.ofList s.toList), stack⟩ := rfl
  show (feed ⟨mode, stack⟩ '"').bind _ = _
  rw [hopen, Option.bind_some]
  show run _ (s.toList.flatMap escapeChar ++ ['"']) = _
  rw [Reading.start, run_append_of (run_escaped [] (.name before) stack s.toList), List.nil_append, hclose,
    String.ofList_toList]

/-- A member, where one may begin. -/
theorem run_member {mode : Mode} {before : List (String × Value)} (stack : List Frame) (x : String × String)
    (hspace : feed ⟨mode, stack⟩ ' ' = some ⟨mode, stack⟩)
    (hopen : feed ⟨mode, stack⟩ '"' = some ⟨.text .start (.name before), stack⟩) :
    run ⟨mode, stack⟩ (member x) = some ⟨.afterMember (before ++ [(x.1, .string x.2)]), stack⟩ := by
  have hspaces : run ⟨mode, stack⟩ [' ', ' '] = some ⟨mode, stack⟩ := by simp [run, hspace]
  have hcolon : run ⟨.colon before x.1, stack⟩ [':', ' '] = some ⟨.value, .member before x.1 :: stack⟩ := rfl
  unfold member
  rw [List.append_assoc, List.append_assoc, run_append_of hspaces, run_append_of (run_quote_name stack x.1 hopen),
    run_append_of hcolon, run_quote]
  rfl

theorem run_members {mode : Mode} {before : List (String × Value)} (stack : List Frame) (x : String × String)
    (xs : List (String × String)) (hspace : feed ⟨mode, stack⟩ ' ' = some ⟨mode, stack⟩)
    (hopen : feed ⟨mode, stack⟩ '"' = some ⟨.text .start (.name before), stack⟩) :
    run ⟨mode, stack⟩ (members (x :: xs)) =
      some ⟨.afterMember (before ++ (x :: xs).map fun x => (x.1, .string x.2)), stack⟩ := by
  induction xs generalizing mode before x with
  | nil => exact run_member stack x hspace hopen
  | cons y ys ih =>
    have hcomma : run ⟨.afterMember (before ++ [(x.1, .string x.2)]), stack⟩ [',', '\n'] =
        some ⟨.name (before ++ [(x.1, .string x.2)]), stack⟩ := rfl
    show run _ (member x ++ [',', '\n'] ++ members (y :: ys)) = _
    rw [List.append_assoc, run_append_of (run_member stack x hspace hopen), run_append_of hcomma, ih y rfl rfl]
    simp

/-- The printed object is closed at its end. -/
theorem run_object (fields : List (String × String)) :
    run start (object fields) = some ⟨.done (.object (fields.map fun x => (x.1, .string x.2))), []⟩ := by
  unfold object
  cases fields with
  | nil => rfl
  | cons x xs =>
    have hopen : run start ['{', '\n'] = some ⟨.firstName, []⟩ := rfl
    show run start (['{', '\n'] ++ members (x :: xs) ++ ['\n', '}']) = _
    rw [List.append_assoc, run_append_of hopen, run_append_of (run_members [] x xs rfl rfl), List.nil_append]
    rfl

/-- Space behind an object is left out. -/
theorem parse_object_spaces (fields : List (String × String)) {spaces : List Char}
    (h : ∀ c ∈ spaces, isSpace c = true) :
    parse (object fields ++ spaces) = some (.object (fields.map fun x => (x.1, .string x.2))) := by
  have hdone : ∀ (v : Value) (cs : List Char), (∀ c ∈ cs, isSpace c = true) →
      run ⟨.done v, []⟩ cs = some ⟨.done v, []⟩ := by
    intro v cs hcs
    induction cs with
    | nil => rfl
    | cons c cs ih =>
      have hc : feed ⟨.done v, []⟩ c = some ⟨.done v, []⟩ := by
        show (if isSpace c then _ else _) = _
        rw [if_pos (hcs c List.mem_cons_self)]
      show (feed ⟨.done v, []⟩ c).bind _ = _
      rw [hc]
      exact ih fun c hc => hcs c (List.mem_cons_of_mem _ hc)
  unfold parse
  rw [run_append_of (run_object fields), hdone _ _ h]
  rfl

theorem parse_object (fields : List (String × String)) :
    parse (object fields) = some (.object (fields.map fun x => (x.1, .string x.2))) := by
  have := parse_object_spaces fields (List.forall_mem_nil fun c => isSpace c = true)
  rwa [List.append_nil] at this

/-! ### Beginnings of a text -/

/-- The text may end there. -/
def Ended (s : State) : Prop := (∃ v, s.mode = .done v) ∨ ∃ n written, s.mode = .number n written ∧ s.stack = []

theorem ended_of_finish {s : State} {v : Value} (h : finish s = some v) : Ended s := by
  unfold finish at h
  split at h
  · exact .inl ⟨_, ‹_›⟩
  · rename_i n written hmode
    split at h
    · rename_i hfinal
      rw [Bool.and_eq_true, List.isEmpty_iff] at hfinal
      exact .inr ⟨n, written, hmode, hfinal.1⟩
    · cases h
  · cases h

/-- Where the text may end, what goes on with it closes no object. -/
theorem Ended.feed {s s' : State} {c : Char} (hs : Ended s) (h : feed s c = some s') : Ended s' ∧ c ≠ '}' := by
  have hdone : ∀ {s : State} {v : Value}, s.mode = .done v → feedAfter s c = some s' → Ended s' ∧ c ≠ '}' := by
    intro s v hmode h
    unfold feedAfter at h
    rw [hmode] at h
    dsimp only at h
    split at h
    · rename_i hspace
      obtain rfl := Option.some.inj h
      refine ⟨.inl ⟨v, hmode⟩, ?_⟩
      rintro rfl
      cases hspace
    · cases h
  rcases hs with ⟨v, hmode⟩ | ⟨n, written, hmode, hstack⟩
  · have h' : feedAfter s c = some s' := by
      unfold Json.feed at h
      rw [hmode] at h
      exact h
    exact hdone hmode h'
  · unfold Json.feed at h
    rw [hmode] at h
    dsimp only at h
    split at h
    · rename_i n' hn
      obtain rfl := Option.some.inj h
      refine ⟨.inr ⟨n', _, rfl, hstack⟩, ?_⟩
      rintro rfl
      cases n <;> cases hn
    · split at h
      · rw [hstack] at h
        exact hdone rfl h
      · cases h

theorem Ended.run {s s' : State} {cs : List Char} (hs : Ended s) (h : run s cs = some s') : '}' ∉ cs := by
  induction cs generalizing s with
  | nil => exact List.not_mem_nil
  | cons c cs ih =>
    obtain ⟨t, hfeed, hrun⟩ := Option.bind_eq_some_iff.mp h
    obtain ⟨ht, hc⟩ := hs.feed hfeed
    rw [List.mem_cons, not_or]
    exact ⟨Ne.symm hc, ih ht hrun⟩

theorem object_last (fields : List (String × String)) : ∃ cs, object fields = cs ++ ['}'] := by
  unfold object
  split
  · exact ⟨['{'], rfl⟩
  · exact ⟨['{', '\n'] ++ members fields ++ ['\n'], by simp⟩

/-- No strict beginning of an object is a JSON text. -/
theorem parse_prefix_object {fields : List (String × String)} {us ws : List Char} (h : object fields = us ++ ws)
    (hws : ws ≠ []) : parse us = none := by
  unfold parse
  cases hus : run start us with
  | none => rfl
  | some s =>
    cases hf : finish s with
    | none => exact hf
    | some v =>
      have hrun := run_object fields
      rw [h, run_append_of hus] at hrun
      obtain ⟨cs, hlast⟩ := object_last fields
      have hmem : '}' ∈ ws := by
        have hl : (us ++ ws).getLast? = some '}' := by rw [← h, hlast, List.getLast?_concat]
        rw [List.getLast?_append_of_ne_nil us hws] at hl
        exact List.mem_of_getLast? hl
      exact absurd hmem ((ended_of_finish hf).run hrun)

/-- A character beyond ASCII ends no value. -/
theorem finish_feed_beyond (s : State) {c : Char} (hc : 128 ≤ c.toNat) : (feed s c).bind finish = none := by
  have hne : ∀ d : Char, d.toNat < 128 → c ≠ d := by
    rintro d hd rfl
    exact absurd hc (Nat.not_le.mpr hd)
  have hle : ∀ d : Char, d.toNat < 128 → ¬ c ≤ d := fun d hd h => absurd hc (Nat.not_le.mpr (Nat.lt_of_le_of_lt h hd))
  have hspace : isSpace c = false := by simp [isSpace, hne]
  have hdigit : Numeral.isDigit c = false := by simp [Numeral.isDigit, hle]
  have hbegin : ∀ stack, begin c stack = none := by simp [begin, hne, hdigit]
  have hafter : ∀ t : State, feedAfter t c = none := by
    intro t
    unfold feedAfter
    split <;> simp [hspace, hne]
  unfold feed
  split
  · simp [hspace, hbegin]
  · simp [hspace, hbegin, hne]
  · simp [hspace, hne]
  · simp [hspace, hne]
  · rename_i reading goal _
    have hbody : ∀ t, reading.feed c = some t → ∃ t', t = .inl t' := by
      intro t h
      unfold Reading.feed at h
      split at h
      · simp only [hne '\\' (by decide), hne '"' (by decide), if_false] at h
        split at h
        · cases h
        · split at h
          · cases h
          · exact ⟨_, (Option.some.inj h).symm⟩
      · have hun : unescape c = none := by
          have hno : escapes.find? (fun e => e.2 = c) = none := by
            rw [List.find?_eq_none]
            intro e he
            have hascii : ∀ e ∈ escapes, e.2.toNat < 128 := by decide
            simpa using (hne e.2 (hascii e he)).symm
          simp [unescape, hne, hno]
        simp [hne, hun] at h
      · simp [hexDigit, hle] at h
    cases hr : reading.feed c with
    | none => rfl
    | some t =>
      obtain ⟨t', rfl⟩ := hbody t hr
      rfl
  · simp [hspace, hne]
  · rename_i w letters _
    have hw : w.letters[letters]? ≠ some c := fun h => by
      have hmem := List.mem_of_getElem? h
      have hascii : w.letters.all (fun d => decide (d.toNat < 128)) = true := by
        cases w with
        | null => decide
        | bool b => cases b <;> decide
      exact hne c (of_decide_eq_true (List.all_eq_true.mp hascii c hmem)) rfl
    rw [if_neg hw]
    rfl
  · rename_i n written _
    have hn : n.feed c = none := by cases n <;> simp [Numeral.feed, hne, hdigit]
    rw [hn]
    simp [hafter]
  · rw [hafter]
    rfl

/-- Nor does a beginning with such a character behind it become one. -/
theorem parse_concat_beyond (us : List Char) {c : Char} (hc : 128 ≤ c.toNat) : parse (us ++ [c]) = none := by
  unfold parse
  rw [run_append]
  cases run start us with
  | none => rfl
  | some s =>
    show ((feed s c).bind some).bind finish = none
    rw [Option.bind_fun_some, finish_feed_beyond s hc]

end Json
