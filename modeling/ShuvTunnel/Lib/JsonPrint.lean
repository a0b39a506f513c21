/-
# Printing a JSON value

The printer that most languages have: no white space, the members of an object in
their order, a natural number in decimal digits. The reader of `Json.parse` gets the
printed value back.

A printed numeral is closed only by what follows it, so a run over a printed value is
said to end in a state that the next character, or the end of the text, cannot tell
from the one behind the complete value (`Json.Completes`).

Key definitions: `Json.print`, `Json.Printable`.
Key theorems: `Json.run_print`, `Json.parse_print`.
-/
import ShuvTunnel.Lib.JsonText

namespace Json

/-! ### The printer -/

/-- A natural number. -/
def Value.nat (n : ℕ) : Value := .number (Nat.toDigits 10 n)

theorem Value.nat_injective : Function.Injective Value.nat := fun m n h => by
  rw [← Nat.ofDigitChars_ten_toDigits (n := m), Value.number.inj h, Nat.ofDigitChars_ten_toDigits]

/-- The pieces with a comma between each two. -/
def commas : List (List Char) → List Char
  | [] => []
  | [cs] => cs
  | cs :: ds :: pieces => cs ++ ',' :: commas (ds :: pieces)

mutual

/-- Prints a value, without white space. -/
def print : Value → List Char
  | .null => Word.null.letters
  | .bool b => (Word.bool b).letters
  | .number text => text
  | .string s => quote s
  | .array xs => '[' :: (commas (printElements xs) ++ [']'])
  | .object fields => '{' :: (commas (printMembers fields) ++ ['}'])

/-- Prints the values of an array. -/
def printElements : List Value → List (List Char)
  | [] => []
  | x :: xs => print x :: printElements xs

/-- Prints the members of an object. -/
def printMembers : List (String × Value) → List (List Char)
  | [] => []
  | (name, x) :: fields => (quote name ++ ':' :: print x) :: printMembers fields

end

/-- Every number in it is a natural number. -/
inductive Printable : Value → Prop
  | null : Printable .null
  | bool (b : Bool) : Printable (.bool b)
  | nat (n : ℕ) : Printable (.nat n)
  | string (s : String) : Printable (.string s)
  | array {xs : List Value} (h : ∀ x ∈ xs, Printable x) : Printable (.array xs)
  | object {fields : List (String × Value)} (h : ∀ f ∈ fields, Printable f.2) : Printable (.object fields)

/-! ### Numerals -/

theorem isDigit_of_char {c : Char} (h : c.isDigit = true) : Numeral.isDigit c = true := by
  simpa [Numeral.isDigit, Char.isDigit, Char.le_def] using h

/-- A number that is not zero begins with another digit. -/
theorem toDigits_pos {n : ℕ} (h : 0 < n) : ∃ c cs, Nat.toDigits 10 n = c :: cs ∧ c ≠ '0' := by
  induction n using Nat.strongRecOn with
  | _ n ih =>
    by_cases hlt : n < 10
    · refine ⟨_, [], Nat.toDigits_of_lt_base hlt, ?_⟩
      have : ∀ m < 10, 0 < m → Nat.digitChar m ≠ '0' := by decide
      exact this n hlt h
    · obtain ⟨c, cs, hn, hc⟩ := ih (n / 10) (by omega) (by omega)
      exact ⟨c, cs ++ [(n % 10).digitChar], by rw [Nat.toDigits_of_base_le (by decide) (by omega), hn]; rfl, hc⟩

theorem run_digits (written : List Char) (stack : List Frame) {cs : List Char} (h : ∀ c ∈ cs, c.isDigit = true) :
    run ⟨.number .integer written, stack⟩ cs = some ⟨.number .integer (written ++ cs), stack⟩ := by
  induction cs generalizing written with
  | nil => simp [run]
  | cons c cs ih =>
    have hc : feed ⟨.number .integer written, stack⟩ c = some ⟨.number .integer (written ++ [c]), stack⟩ := by
      simp [feed, Numeral.feed, isDigit_of_char (h c List.mem_cons_self)]
    show (feed _ c).bind _ = _
    rw [hc, Option.bind_some, ih _ fun d hd => h d (List.mem_cons_of_mem _ hd), List.append_assoc]
    rfl

/-! ### Runs -/

/-- What may be behind a value within an array or an object. -/
def isDelimiter (c : Char) : Bool := c = ',' || c = ']' || c = '}'

/-- The value is read, up to what shows that a numeral is over. -/
structure Completes (v : Value) (stack : List Frame) (s : State) : Prop where
  feed : ∀ c, isDelimiter c = true → feed s c = feed (complete v stack) c
  finish : stack = [] → finish s = some v

/-- A value may begin. -/
def Begins (s : State) (stack : List Frame) : Prop :=
  ∀ c, isSpace c = false → c ≠ ']' → feed s c = begin c stack

theorem begins_value (stack : List Frame) : Begins ⟨.value, stack⟩ stack := fun c hspace _ => by
  simp [feed, hspace]

theorem begins_firstElement (stack : List Frame) : Begins ⟨.firstElement, stack⟩ (.element [] :: stack) :=
  fun c hspace hc => by simp [feed, hspace, hc]

theorem completes_self (v : Value) (stack : List Frame) : Completes v stack (complete v stack) :=
  ⟨fun _ _ => rfl, fun h => by subst h; rfl⟩

variable {s : State} {stack : List Frame} {v : Value}

/-- The state of a value alone and of the first element of an array differ in their
first character only. -/
theorem Begins.run (h : Begins s stack) {c : Char} {cs : List Char} (hspace : isSpace c = false) (hc : c ≠ ']') :
    run s (c :: cs) = run ⟨.value, stack⟩ (c :: cs) := by
  show (Json.feed s c).bind _ = (Json.feed _ c).bind _
  rw [h c hspace hc, begins_value stack c hspace hc]

theorem completes_number {n : Numeral} (hn : n = .zero ∨ n = .integer) (written : List Char) (stack : List Frame) :
    Completes (.number written) stack ⟨.number n written, stack⟩ where
  feed c hc := by
    have hfeed : n.feed c = none := by
      simp only [isDelimiter, Bool.or_eq_true, decide_eq_true_eq] at hc
      rcases hn with rfl | rfl <;> rcases hc with (rfl | rfl) | rfl <;> decide
    have hfinal : n.isFinal = true := by rcases hn with rfl | rfl <;> rfl
    have hafter : Json.feed ⟨.number n written, stack⟩ c = feedAfter (complete (.number written) stack) c := by
      simp [Json.feed, hfeed, hfinal]
    rw [hafter]
    unfold complete
    split <;> rfl
  finish h := by
    subst h
    rcases hn with rfl | rfl <;> rfl

theorem run_nat (n : ℕ) (stack : List Frame) :
    ∃ k, (k = .zero ∨ k = .integer) ∧
      run ⟨.value, stack⟩ (Nat.toDigits 10 n) = some ⟨.number k (Nat.toDigits 10 n), stack⟩ := by
  rcases Nat.eq_zero_or_pos n with rfl | hpos
  · exact ⟨.zero, .inl rfl, rfl⟩
  · obtain ⟨c, cs, hn, hc⟩ := toDigits_pos hpos
    have hdigits : ∀ d ∈ Nat.toDigits 10 n, d.isDigit = true := fun d hd =>
      Nat.isDigit_of_mem_toDigits (by decide) (by decide) hd
    rw [hn] at hdigits ⊢
    have hdigit := isDigit_of_char (hdigits c List.mem_cons_self)
    have hfirst : feed ⟨.value, stack⟩ c = some ⟨.number .integer [c], stack⟩ := by
      have hne : ∀ d, Numeral.isDigit d = false → c ≠ d := fun d hd he => by
        rw [he, hd] at hdigit
        cases hdigit
      have hspace : isSpace c = false := by
        simp [isSpace, hne ' ' rfl, hne '\t' rfl, hne '\n' rfl, hne '\r' rfl]
      rw [begins_value stack c hspace (hne ']' rfl)]
      simp [begin, hdigit, hc, hne '"' rfl, hne '[' rfl, hne '{' rfl, hne 'n' rfl, hne 't' rfl, hne 'f' rfl,
        hne '-' rfl]
    refine ⟨.integer, .inr rfl, ?_⟩
    show (feed _ c).bind _ = _
    rw [hfirst]
    exact run_digits [c] stack fun d hd => hdigits d (List.mem_cons_of_mem _ hd)

/-- What the printed value begins with begins no space and closes no array. -/
theorem print_head (h : Printable v) : ∃ c cs, print v = c :: cs ∧ isSpace c = false ∧ c ≠ ']' := by
  cases h with
  | null => exact ⟨_, _, rfl, rfl, by decide⟩
  | bool b => cases b <;> exact ⟨_, _, rfl, rfl, by decide⟩
  | nat n =>
    obtain ⟨c, cs, hn⟩ := List.exists_cons_of_ne_nil (Nat.toDigits_ne_nil (n := n) (b := 10))
    have hc : c.isDigit = true :=
      Nat.isDigit_of_mem_toDigits (by decide) (by decide) (hn ▸ List.mem_cons_self : c ∈ Nat.toDigits 10 n)
    have hne : ∀ d, d.isDigit = false → c ≠ d := fun d hd he => by
      rw [he, hd] at hc
      cases hc
    exact ⟨c, cs, by rw [← hn]; rfl,
      by simp [isSpace, hne ' ' rfl, hne '\t' rfl, hne '\n' rfl, hne '\r' rfl], hne ']' rfl⟩
  | string s => exact ⟨_, _, rfl, rfl, by decide⟩
  | array _ => exact ⟨_, _, rfl, rfl, by decide⟩
  | object _ => exact ⟨_, _, rfl, rfl, by decide⟩

/-- Reading what `print` printed. -/
def Returns (v : Value) : Prop :=
  ∀ stack, ∃ t, run ⟨.value, stack⟩ (print v) = some t ∧ Completes v stack t

/-- The elements of an array, behind the bracket or a comma. -/
theorem run_elements {xs : List Value} (hp : ∀ x ∈ xs, Printable x) (hr : ∀ x ∈ xs, Returns x) (hne : xs ≠ [])
    {before : List Value} (hs : Begins s (.element before :: stack)) :
    ∃ t, run s (commas (printElements xs)) = some t ∧
      feed t ']' = some (complete (.array (before ++ xs)) stack) := by
  induction xs generalizing s before with
  | nil => exact absurd rfl hne
  | cons x xs ih =>
    obtain ⟨t, hrun, hcomp⟩ := hr x List.mem_cons_self (.element before :: stack)
    obtain ⟨c, cs, hprint, hspace, hc⟩ := print_head (hp x List.mem_cons_self)
    have hx : run s (print x) = some t := by
      rw [hprint] at hrun ⊢
      rw [hs.run hspace hc, hrun]
    cases xs with
    | nil => exact ⟨t, hx, hcomp.feed ']' rfl⟩
    | cons y ys =>
      have hcomma : feed t ',' = some ⟨.value, .element (before ++ [x]) :: stack⟩ := hcomp.feed ',' rfl
      obtain ⟨t', hrun', hclose⟩ := ih (fun z hz => hp z (List.mem_cons_of_mem _ hz))
        (fun z hz => hr z (List.mem_cons_of_mem _ hz)) (List.cons_ne_nil _ _)
        (begins_value (.element (before ++ [x]) :: stack))
      refine ⟨t', ?_, by rw [hclose, List.append_assoc]; rfl⟩
      show run s (print x ++ ',' :: commas (printElements (y :: ys))) = _
      rw [run_append_of hx]
      show (feed t ',').bind _ = _
      rw [hcomma]
      exact hrun'

/-- The members of an object, behind the brace or a comma. -/
theorem run_members_print {fields : List (String × Value)} (hr : ∀ f ∈ fields, Returns f.2) (hne : fields ≠ [])
    {mode : Mode} {before : List (String × Value)}
    (hopen : feed ⟨mode, stack⟩ '"' = some ⟨.text .start (.name before), stack⟩) :
    ∃ t, run ⟨mode, stack⟩ (commas (printMembers fields)) = some t ∧
      feed t '}' = some (complete (.object (before ++ fields)) stack) := by
  induction fields generalizing mode before with
  | nil => exact absurd rfl hne
  | cons f fields ih =>
    obtain ⟨name, x⟩ := f
    obtain ⟨t, hrun, hcomp⟩ := hr (name, x) List.mem_cons_self (.member before name :: stack)
    have hcolon : run ⟨.colon before name, stack⟩ (':' :: print x) = some t := hrun
    have hx : run ⟨mode, stack⟩ (quote name ++ ':' :: print x) = some t := by
      rw [run_append_of (run_quote_name stack name hopen), hcolon]
    cases fields with
    | nil => exact ⟨t, hx, hcomp.feed '}' rfl⟩
    | cons g gs =>
      have hcomma : feed t ',' = some ⟨.name (before ++ [(name, x)]), stack⟩ := hcomp.feed ',' rfl
      obtain ⟨t', hrun', hclose⟩ := ih (fun z hz => hr z (List.mem_cons_of_mem _ hz)) (List.cons_ne_nil _ _)
        (rfl : feed ⟨.name (before ++ [(name, x)]), stack⟩ '"' =
          some ⟨.text .start (.name (before ++ [(name, x)])), stack⟩)
      refine ⟨t', ?_, by rw [hclose, List.append_assoc]; rfl⟩
      show run _ ((quote name ++ ':' :: print x) ++ ',' :: commas (printMembers (g :: gs))) = _
      rw [run_append_of hx]
      show (feed t ',').bind _ = _
      rw [hcomma]
      exact hrun'

theorem run_print (h : Printable v) : Returns v := by
  induction h with
  | null => exact fun stack => ⟨_, rfl, completes_self .null stack⟩
  | bool b => exact fun stack => ⟨_, by cases b <;> rfl, completes_self (.bool b) stack⟩
  | nat n =>
    intro stack
    obtain ⟨k, hk, hrun⟩ := run_nat n stack
    exact ⟨_, hrun, completes_number hk _ stack⟩
  | string s => exact fun stack => ⟨_, run_quote stack s, completes_self (.string s) stack⟩
  | @array xs h ih =>
    intro stack
    cases xs with
    | nil => exact ⟨_, rfl, completes_self (.array []) stack⟩
    | cons x xs =>
      obtain ⟨t, hrun, hclose⟩ := run_elements h ih (List.cons_ne_nil _ _) (begins_firstElement stack)
      refine ⟨_, ?_, completes_self _ stack⟩
      show run ⟨.firstElement, stack⟩ (commas (printElements (x :: xs)) ++ [']']) = _
      rw [run_append_of hrun]
      show (feed t ']').bind _ = _
      rw [hclose]
      rfl
  | @object fields h ih =>
    intro stack
    cases fields with
    | nil => exact ⟨_, rfl, completes_self (.object []) stack⟩
    | cons f fields =>
      obtain ⟨t, hrun, hclose⟩ := run_members_print ih (List.cons_ne_nil _ _)
        (rfl : feed ⟨.firstName, stack⟩ '"' = some ⟨.text .start (.name []), stack⟩)
      refine ⟨_, ?_, completes_self _ stack⟩
      show run ⟨.firstName, stack⟩ (commas (printMembers (f :: fields)) ++ ['}']) = _
      rw [run_append_of hrun]
      show (feed t '}').bind _ = _
      rw [hclose]
      rfl

/-- What is printed is read as what it was printed from. -/
theorem parse_print (h : Printable v) : parse (print v) = some v := by
  obtain ⟨t, hrun, hcomp⟩ := run_print h []
  show (run ⟨.value, []⟩ (print v)).bind finish = _
  rw [hrun, Option.bind_some, hcomp.finish rfl]

end Json
