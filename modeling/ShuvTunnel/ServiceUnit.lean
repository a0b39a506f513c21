/-
# The command line in the systemd unit

`install` writes the command of the service into a unit, each argument in quotes
unless it has only plain characters. systemd reads it in three layers: it splits
the line into words, where a backslash in quotes begins an escape; it expands the
specifiers of each word, which begin with `%`; and in the words behind the first it
puts in the variables, which begin with `$`. `quote` knows of the first layer only.

Key definitions: `quote`, `execStart`, `Systemd.read`, `Legible`.
Key theorems: `Words.scan_quote`, `Words.split_execStart`, `Systemd.read_execStart_iff`.
-/
import ShuvTunnel.Bridge
import ShuvTunnel.Lib.Expansion

namespace ShuvTunnel

/-! ### `install` -/

/-- `text.replace(c, other)`. -/
def replaceChar (c : Char) (other text : List Char) : List Char :=
  text.flatMap fun d => if d = c then other else [d]

/-- `char.is_ascii_alphanumeric()`, or one of these. -/
def bareChar (c : Char) : Bool := c.isAlphanum || ['/', '-', '_', '.', ':'].contains c

/-- `quote`: an argument that is not bare gets quotes and backslashes. -/
def quote (argument : String) : String :=
  if argument.toList.all bareChar then argument
  else
    "\"" ++ String.ofList (replaceChar '"' ['\\', '"'] (replaceChar '\\' ['\\', '\\'] argument.toList)) ++ "\""

/-- The arguments of `install`. -/
def serviceArguments (executable profile : String) (api : Option String) : List String :=
  [executable, "--profile", profile] ++ (match api with
    | some api => ["--api", api]
    | none => []) ++ ["serve"]

/-- The value of `ExecStart`. -/
def execStart (arguments : List String) : String := " ".intercalate (arguments.map quote)

/-! ### systemd -/

/-- Where the reader is in an escape: not in one, behind the backslash, or behind
some digits of a number, to the base and with so many more to come. -/
inductive Escape
  | none
  | begun
  | number (base left value : ℕ)
  deriving DecidableEq

/-- The words so far, the word that is being read, if any, and whether it is within quotes. -/
structure Words where
  words : List (List Char)
  word : Option (List Char)
  quoted : Bool
  escape : Escape

/-- The characters that a backslash and one character stand for. -/
def Escape.simple (c : Char) : Option Char :=
  [('a', '\x07'), ('b', '\x08'), ('f', '\x0c'), ('n', '\n'), ('r', '\r'), ('t', '\t'), ('v', '\x0b'),
    ('\\', '\\'), ('"', '"'), ('s', ' ')].lookup c

/-- A digit to a base. -/
def Escape.digit (base : ℕ) (c : Char) : Option ℕ :=
  ("0123456789abcdef".toList.take base).idxOf? c.toLower

namespace Words

/-- One more character of the word. -/
def push (s : Words) (c : Char) : Words := { s with word := some (s.word.getD [] ++ [c]), escape := .none }

/-- The word ends, if there is one. -/
def finish (s : Words) : Words := { s with words := s.words ++ s.word.toList, word := none }

/-- Spaces separate words, and double quotes keep them together. -/
def step (s : Words) (c : Char) : Option Words :=
  match s.escape with
  | .begun =>
    match c with
    | 'x' => some { s with escape := .number 16 2 0 }
    | 'u' => some { s with escape := .number 16 4 0 }
    | 'U' => some { s with escape := .number 16 8 0 }
    | c =>
      match Escape.simple c, Escape.digit 8 c with
      | some d, _ => some (s.push d)
      | none, some n => some { s with escape := .number 8 2 n }
      | none, none => none
  | .number base left value =>
    (Escape.digit base c).map fun n =>
      if left ≤ 1 then s.push (Char.ofNat (value * base + n))
      else { s with escape := .number base (left - 1) (value * base + n) }
  | .none =>
    if c = '\\' then some { s with word := some (s.word.getD []), escape := .begun }
    else if c = '"' then some { s with word := some (s.word.getD []), quoted := !s.quoted }
    else if c = ' ' && !s.quoted then some s.finish
    else some (s.push c)

/-- The characters of a text, one after the other. -/
def scan (text : List Char) (s : Words) : Option Words := text.foldlM step s

/-- Before the first character. -/
def fresh : Words := ⟨[], none, false, .none⟩

/-- The words of a line, which ends neither within quotes nor in an escape. -/
def split (text : List Char) : Option (List (List Char)) :=
  ((scan text fresh).filter fun s => !s.quoted && decide (s.escape = .none)).map fun s => s.finish.words

end Words

/-- What systemd puts in for a specifier, where it knows one, and for a variable. -/
structure Systemd where
  specifier : Char → Option (List Char)
  environment : List Char → List Char

namespace Systemd

/-- `[A-Za-z_][A-Za-z0-9_]*`. -/
def nameChar (c : Char) : Bool := c.isAlphanum || c = '_'

/-- A name begins with no digit. -/
def isName (name : List Char) : Bool := name.all nameChar && name.head?.any fun c => !c.isDigit

/-- `%%`, and `%` before a specifier. -/
def percentReferences (m : Systemd) : Expansion.References Char
  | '%' :: _ => some (['%'], 1)
  | c :: _ => (m.specifier c).map fun value => (value, 1)
  | [] => none

/-- `$$`, `${NAME}` and `$NAME`. -/
def dollarReferences (m : Systemd) : Expansion.References Char
  | '$' :: _ => some (['$'], 1)
  | '{' :: text =>
    let name := text.takeWhile nameChar
    if isName name && (text.drop name.length).head? = some '}' then some (m.environment name, name.length + 2) else none
  | text =>
    let name := text.takeWhile nameChar
    if isName name then some (m.environment name, name.length) else none

/-- The specifiers of a word are replaced. -/
def expandSpecifiers (m : Systemd) (word : List Char) : List Char := Expansion.expand '%' m.percentReferences 0 word

/-- The variables of a word are replaced. -/
def expandVariables (m : Systemd) (word : List Char) : List Char := Expansion.expand '$' m.dollarReferences 0 word

/-- The arguments that a value of `ExecStart` stands for. -/
def read (m : Systemd) (value : String) : Option (List String) :=
  (Words.split value.toList).map fun words =>
    match words with
    | [] => []
    | path :: words =>
      String.ofList (m.expandSpecifiers path) ::
        words.map fun word => String.ofList (m.expandVariables (m.expandSpecifiers word))

end Systemd

/-! ### Words -/

namespace Words

theorem scan_append (text text' : List Char) (s : Words) :
    scan (text ++ text') s = (scan text s).bind fun s => scan text' s :=
  List.foldlM_append

theorem scan_cons (c : Char) (text : List Char) (s : Words) : scan (c :: text) s = (step s c).bind fun s => scan text s :=
  List.foldlM_cons

theorem step_bare {c : Char} (h : bareChar c = true) (words : List (List Char)) (word : Option (List Char)) :
    step ⟨words, word, false, .none⟩ c = some ⟨words, some (word.getD [] ++ [c]), false, .none⟩ := by
  have hne : ∀ d, bareChar d = false → c ≠ d := fun d hd hcd => by
    rw [hcd, hd] at h
    cases h
  simp [step, push, hne '\\' rfl, hne '"' rfl, hne ' ' rfl]

/-- Plain characters are a word. -/
theorem scan_bare {text : List Char} (h : text.all bareChar = true) (words : List (List Char)) (word : List Char) :
    scan text ⟨words, some word, false, .none⟩ = some ⟨words, some (word ++ text), false, .none⟩ := by
  induction text generalizing word with
  | nil => simp [scan]
  | cons c text ih =>
    obtain ⟨hc, htext⟩ := Bool.and_eq_true_iff.mp h
    rw [scan_cons, step_bare hc, Option.bind_some, ih htext]
    simp

/-- What `quote` makes of the text between the quotes. -/
def escaped (text : List Char) : List Char := replaceChar '"' ['\\', '"'] (replaceChar '\\' ['\\', '\\'] text)

theorem escaped_cons (c : Char) (text : List Char) : escaped (c :: text) =
    (if c = '\\' then ['\\', '\\'] else if c = '"' then ['\\', '"'] else [c]) ++ escaped text := by
  unfold escaped replaceChar
  rw [List.flatMap_cons, List.flatMap_append]
  congr 1
  by_cases hbackslash : c = '\\'
  · subst hbackslash
    decide
  · rw [if_neg hbackslash, if_neg hbackslash, List.flatMap_singleton]

/-- Within quotes an escaped text is read as it was. -/
theorem scan_escaped (text : List Char) (words : List (List Char)) (word : List Char) :
    scan (escaped text) ⟨words, some word, true, .none⟩ = some ⟨words, some (word ++ text), true, .none⟩ := by
  induction text generalizing word with
  | nil => simp [scan, escaped, replaceChar]
  | cons c text ih =>
    have hchar : scan (if c = '\\' then ['\\', '\\'] else if c = '"' then ['\\', '"'] else [c])
        ⟨words, some word, true, .none⟩ = some ⟨words, some (word ++ [c]), true, .none⟩ := by
      split
      · rename_i hc
        subst hc
        rfl
      · split
        · rename_i hc
          subst hc
          rfl
        · rename_i hbackslash hquote
          simp [scan, step, push, hbackslash, hquote]
    rw [escaped_cons, scan_append, hchar, Option.bind_some, ih]
    simp

/-- An argument is read as a word, unless it is empty. -/
theorem scan_quote (argument : String) (words : List (List Char)) :
    scan (quote argument).toList ⟨words, none, false, .none⟩ =
      some ⟨words, if argument.toList = [] then none else some argument.toList, false, .none⟩ := by
  unfold quote
  split
  · rename_i hbare
    cases htext : argument.toList with
    | nil => rfl
    | cons c text =>
      rw [htext] at hbare
      obtain ⟨hc, htext⟩ := Bool.and_eq_true_iff.mp hbare
      rw [scan_cons, step_bare hc, Option.bind_some, scan_bare htext]
      rfl
  · rename_i hbare
    have hne : argument.toList ≠ [] := fun h => hbare (by rw [h]; rfl)
    have htext : ("\"" ++ String.ofList (escaped argument.toList) ++ "\"").toList =
        '"' :: (escaped argument.toList ++ ['"']) := by
      simp
    show scan ("\"" ++ String.ofList (escaped argument.toList) ++ "\"").toList _ = _
    rw [htext, if_neg hne]
    show scan (escaped argument.toList ++ ['"']) ⟨words, some [], true, .none⟩ = _
    rw [scan_append, scan_escaped, Option.bind_some]
    rfl

/-- The words of a line of arguments are those that are not empty. -/
theorem scan_arguments (arguments : List String) (words : List (List Char)) :
    ∃ s, scan (execStart arguments).toList ⟨words, none, false, .none⟩ = some s ∧ s.quoted = false ∧
      s.escape = .none ∧ s.finish.words = words ++ (arguments.map String.toList).filter (· ≠ []) := by
  induction arguments generalizing words with
  | nil => exact ⟨⟨words, none, false, .none⟩, rfl, rfl, rfl, rfl⟩
  | cons argument arguments ih =>
    have hword : words ++ (if argument.toList = [] then none else some argument.toList).toList =
        words ++ [argument.toList].filter (· ≠ []) := by
      by_cases hempty : argument.toList = []
      · simp [hempty]
      · simp [hempty]
    cases arguments with
    | nil =>
      refine ⟨_, scan_quote argument words, rfl, rfl, ?_⟩
      exact hword
    | cons argument' arguments =>
      obtain ⟨s, hscan, hquoted, hescape, hwords⟩ :=
        ih (words ++ (if argument.toList = [] then none else some argument.toList).toList)
      have htext : (execStart (argument :: argument' :: arguments)).toList =
          (quote argument).toList ++ ' ' :: (execStart (argument' :: arguments)).toList := by
        simp [execStart]
      refine ⟨s, ?_, hquoted, hescape, ?_⟩
      · rw [htext, scan_append, scan_quote, Option.bind_some]
        exact hscan
      · rw [hwords, hword, List.append_assoc, ← List.filter_append]
        rfl

theorem split_execStart (arguments : List String) :
    split (execStart arguments).toList = some ((arguments.map String.toList).filter (· ≠ [])) := by
  obtain ⟨s, hscan, hquoted, hescape, hwords⟩ := scan_arguments arguments []
  unfold split fresh
  rw [hscan, Option.filter_some, if_pos (by simp [hquoted, hescape]), Option.map_some, hwords, List.nil_append]

end Words

/-! ### Specifiers and variables -/

/-- A text that begins as a reference to a variable does behind the `$`. -/
def BeginsVariable (text : List Char) : Prop :=
  (∃ rest, text = '$' :: rest) ∨
  ∃ name rest, Systemd.isName name = true ∧ (text = name ++ rest ∨ text = '{' :: (name ++ '}' :: rest))

/-- The arguments are all there, none has a specifier that systemd knows or two
percent signs, and none behind the first has a variable or two dollar signs. -/
structure Legible (known : Char → Bool) (arguments : List String) : Prop where
  nonempty : ∀ argument ∈ arguments, argument ≠ ""
  percent : ∀ argument ∈ arguments, ∀ before c behind, argument.toList = before ++ '%' :: c :: behind →
    c ≠ '%' ∧ known c = false
  dollar : ∀ argument ∈ arguments.tail, ∀ before behind, argument.toList = before ++ '$' :: behind →
    ¬ BeginsVariable behind

namespace Systemd

variable {m : Systemd} {known : Char → Bool} {word : List Char}

theorem plain_percent (hknown : ∀ c, (m.specifier c).isSome = known c) :
    Expansion.Plain '%' m.percentReferences word ↔
      ∀ before c behind, word = before ++ '%' :: c :: behind → c ≠ '%' ∧ known c = false := by
  constructor
  · intro h before c behind hword
    have hnone := h before (c :: behind) hword
    unfold percentReferences at hnone
    split at hnone
    · cases hnone
    · rename_i c' behind' hc heq
      obtain ⟨rfl, -⟩ := List.cons.inj heq
      rw [Option.map_eq_none_iff] at hnone
      exact ⟨hc, by rw [← hknown, hnone]; rfl⟩
    · rename_i heq
      cases heq
  · intro h before behind hword
    cases behind with
    | nil => rfl
    | cons c behind =>
      obtain ⟨hc, hunknown⟩ := h before c behind hword
      have hnone : m.specifier c = none := by
        rw [← hknown] at hunknown
        exact Option.isNone_iff_eq_none.mp (by simpa using hunknown)
      unfold percentReferences
      split
      · rename_i heq
        exact absurd (List.cons.inj heq).1 hc
      · rename_i heq
        obtain ⟨rfl, -⟩ := List.cons.inj heq
        rw [hnone]
        rfl
      · rfl

theorem nameChar_of_isName (h : isName word = true) : ∀ c ∈ word, nameChar c = true :=
  List.all_eq_true.mp (Bool.and_eq_true_iff.mp h).1

/-- What begins with a name has a name in front. -/
theorem isName_takeWhile (h : isName word = true) (rest : List Char) :
    isName ((word ++ rest).takeWhile nameChar) = true := by
  have hall : ((word ++ rest).takeWhile nameChar).all nameChar = true := List.all_takeWhile
  rw [List.takeWhile_append_of_pos (nameChar_of_isName h)] at hall ⊢
  cases word with
  | nil => cases h
  | cons c word => exact Bool.and_eq_true_iff.mpr ⟨hall, (Bool.and_eq_true_iff.mp h).2⟩

/-- A closing brace is in no name. -/
theorem takeWhile_brace (h : isName word = true) (rest : List Char) :
    (word ++ '}' :: rest).takeWhile nameChar = word := by
  rw [List.takeWhile_append_of_pos (nameChar_of_isName h)]
  simp [nameChar]

theorem take_takeWhile (text : List Char) : text.take (text.takeWhile nameChar).length = text.takeWhile nameChar :=
  (List.prefix_iff_eq_take.mp (List.takeWhile_prefix nameChar)).symm

theorem dollarReferences_eq_none {text : List Char} : m.dollarReferences text = none ↔ ¬ BeginsVariable text := by
  constructor
  · rintro h (⟨rest, rfl⟩ | ⟨name, rest, hname, rfl | rfl⟩)
    · cases h
    · -- a name begins with neither a `$` nor a brace
      have hhead : ∀ c behind, name ++ rest = c :: behind → nameChar c = true := fun c behind heq => by
        cases name with
        | nil => cases hname
        | cons d name =>
          obtain rfl := (List.cons.inj heq).1
          exact nameChar_of_isName hname _ List.mem_cons_self
      unfold dollarReferences at h
      split at h
      · cases h
      · rename_i behind heq
        cases hhead _ _ heq
      · rw [if_pos (isName_takeWhile hname rest)] at h
        cases h
    · unfold dollarReferences at h
      simp [takeWhile_brace hname, hname] at h
  · intro h
    unfold dollarReferences
    split
    · rename_i behind
      exact absurd (.inl ⟨behind, rfl⟩) h
    · rename_i behind
      refine if_neg fun hbrace => h (.inr ?_)
      obtain ⟨hname, hclose⟩ := Bool.and_eq_true_iff.mp hbrace
      obtain ⟨rest, hrest⟩ := List.head?_eq_some_iff.mp (of_decide_eq_true hclose)
      have hsplit := List.take_append_drop (behind.takeWhile nameChar).length behind
      rw [take_takeWhile, hrest] at hsplit
      exact ⟨behind.takeWhile nameChar, rest, hname, .inr (congrArg _ hsplit.symm)⟩
    · exact if_neg fun hname => h (.inr ⟨_, _, hname, .inl List.takeWhile_append_dropWhile.symm⟩)

theorem plain_dollar : Expansion.Plain '$' m.dollarReferences word ↔
    ∀ before behind, word = before ++ '$' :: behind → ¬ BeginsVariable behind := by
  simp only [Expansion.Plain, dollarReferences_eq_none]

/-- What systemd reads of the arguments, where none is empty. -/
theorem read_execStart (m : Systemd) {argument : String} {arguments : List String}
    (h : ∀ a ∈ argument :: arguments, a ≠ "") :
    m.read (execStart (argument :: arguments)) =
      some (String.ofList (m.expandSpecifiers argument.toList) ::
        arguments.map fun a => String.ofList (m.expandVariables (m.expandSpecifiers a.toList))) := by
  have hwords : ((argument :: arguments).map String.toList).filter (· ≠ []) =
      argument.toList :: arguments.map String.toList := by
    rw [List.filter_eq_self.mpr]
    · rfl
    · intro text htext
      obtain ⟨a, ha, rfl⟩ := List.mem_map.mp htext
      simpa using h a ha
  unfold read
  rw [Words.split_execStart, hwords, Option.map_some]
  dsimp only
  rw [List.map_map]
  rfl

/-- A systemd that knows these specifiers, where they all and the variables are empty. -/
def blank (known : Char → Bool) : Systemd where
  specifier c := if known c then some [] else none
  environment _ := []

theorem blank_specifier (known : Char → Bool) (c : Char) : ((blank known).specifier c).isSome = known c := by
  unfold blank
  cases hc : known c with
  | false => simp [hc]
  | true => simp [hc]

theorem short_percent (known : Char → Bool) : Expansion.Short (blank known).percentReferences := by
  intro behind value length h
  unfold percentReferences at h
  split at h
  · obtain ⟨rfl, rfl⟩ := Prod.mk.inj (Option.some.inj h)
    simp
  · rename_i c behind _
    obtain ⟨value', hvalue, h⟩ := Option.map_eq_some_iff.mp h
    obtain ⟨rfl, rfl⟩ := Prod.mk.inj h
    obtain ⟨-, h⟩ := Option.ite_none_right_eq_some.mp hvalue
    obtain rfl := Option.some.inj h
    simp
  · cases h

theorem short_dollar (known : Char → Bool) : Expansion.Short (blank known).dollarReferences := by
  intro behind value length h
  unfold dollarReferences at h
  split at h
  · obtain ⟨rfl, rfl⟩ := Prod.mk.inj (Option.some.inj h)
    simp
  · rename_i text
    obtain ⟨hbrace, h⟩ := Option.ite_none_right_eq_some.mp h
    obtain ⟨rfl, rfl⟩ := Prod.mk.inj (Option.some.inj h)
    obtain ⟨-, hclose⟩ := Bool.and_eq_true_iff.mp hbrace
    obtain ⟨rest, hrest⟩ := List.head?_eq_some_iff.mp (of_decide_eq_true hclose)
    have hlength := congrArg List.length hrest
    rw [List.length_drop, List.length_cons] at hlength
    refine ⟨Nat.zero_le _, ?_⟩
    rw [List.length_cons]
    omega
  · obtain ⟨-, h⟩ := Option.ite_none_right_eq_some.mp h
    obtain ⟨rfl, rfl⟩ := Prod.mk.inj (Option.some.inj h)
    exact ⟨Nat.zero_le _, (List.takeWhile_prefix nameChar).length_le⟩

/-- No fewer words are read only if no argument is empty. -/
theorem nonempty_of_read {arguments : List String} (h : m.read (execStart arguments) = some arguments) :
    ∀ a ∈ arguments, a ≠ "" := by
  unfold read at h
  rw [Words.split_execStart, Option.map_some] at h
  have hlength : ((arguments.map String.toList).filter (· ≠ [])).length = (arguments.map String.toList).length := by
    have h := congrArg List.length (Option.some.inj h)
    rw [List.length_map, ← h]
    split
    · rename_i heq
      rw [heq]
      rfl
    · rename_i heq
      rw [heq, List.length_cons, List.length_cons, List.length_map]
  intro a ha
  have := List.length_filter_eq_length_iff.mp hlength a.toList (List.mem_map_of_mem ha)
  simpa using this

/-- Where everything expands to nothing, a word that is left as it is had nothing to expand. -/
theorem plain_of_blank {word : List Char}
    (h : (blank known).expandVariables ((blank known).expandSpecifiers word) = word) :
    Expansion.Plain '%' (blank known).percentReferences word ∧
      Expansion.Plain '$' (blank known).dollarReferences word := by
  have hvariables : ((blank known).expandVariables ((blank known).expandSpecifiers word)).length ≤
      ((blank known).expandSpecifiers word).length := Expansion.length_expand_le (short_dollar known) _ 0
  have hpercent : Expansion.Plain '%' (blank known).percentReferences word :=
    Expansion.plain_of_length (short_percent known) (by rwa [h] at hvariables)
  have hspecifiers : (blank known).expandSpecifiers word = word := Expansion.expand_of_plain hpercent
  rw [hspecifiers] at h
  exact ⟨hpercent, Expansion.plain_of_length (short_dollar known) (congrArg List.length h).ge⟩

theorem legible_of_read {arguments : List String}
    (h : (blank known).read (execStart arguments) = some arguments) : Legible known arguments := by
  have hnonempty := nonempty_of_read h
  cases arguments with
  | nil => exact ⟨by simp, by simp, by simp⟩
  | cons argument arguments =>
    rw [read_execStart _ hnonempty] at h
    obtain ⟨hfirst, hrest⟩ := List.cons.inj (Option.some.inj h)
    have hpath : Expansion.Plain '%' (blank known).percentReferences argument.toList := by
      have hsame := congrArg String.toList hfirst
      rw [String.toList_ofList] at hsame
      exact Expansion.plain_of_length (short_percent known) (congrArg List.length hsame).ge
    have hwords : ∀ a ∈ arguments, Expansion.Plain '%' (blank known).percentReferences a.toList ∧
        Expansion.Plain '$' (blank known).dollarReferences a.toList := fun a ha => by
      have hsame := congrArg String.toList (List.map_inj_left.mp (hrest.trans (List.map_id arguments).symm) a ha)
      rw [String.toList_ofList] at hsame
      exact plain_of_blank hsame
    refine ⟨hnonempty, fun a ha => ?_, fun a ha => plain_dollar.mp (hwords a ha).2⟩
    rw [← plain_percent (blank_specifier known)]
    rcases List.mem_cons.mp ha with rfl | ha
    · exact hpath
    · exact (hwords a ha).1

theorem read_of_legible {arguments : List String} (h : Legible known arguments)
    (hknown : ∀ c, (m.specifier c).isSome = known c) : m.read (execStart arguments) = some arguments := by
  cases arguments with
  | nil => rfl
  | cons argument arguments =>
    have hpercent : ∀ a ∈ argument :: arguments, m.expandSpecifiers a.toList = a.toList := fun a ha =>
      Expansion.expand_of_plain ((plain_percent hknown).mpr (h.percent a ha))
    have hdollar : ∀ a ∈ arguments, m.expandVariables a.toList = a.toList := fun a ha =>
      Expansion.expand_of_plain (plain_dollar.mpr (h.dollar a ha))
    rw [read_execStart m h.nonempty, hpercent _ List.mem_cons_self, String.ofList_toList]
    congr 2
    rw [List.map_congr_left (g := id)]
    · exact List.map_id _
    · intro a ha
      rw [hpercent a (List.mem_cons_of_mem _ ha), hdollar a ha, String.ofList_toList]
      rfl

/-- **The unit runs the intended command** exactly where its arguments are legible:
where none is empty and none has what systemd expands. This is what it reads back
whatever it has for the specifiers that it knows and for variables. -/
theorem read_execStart_iff (known : Char → Bool) (arguments : List String) :
    (∀ m : Systemd, (∀ c, (m.specifier c).isSome = known c) → m.read (execStart arguments) = some arguments) ↔
      Legible known arguments :=
  ⟨fun h => legible_of_read (h (blank known) (blank_specifier known)), fun h _ hknown => read_of_legible h hknown⟩

/-- Where the service runs as the user `demo`. -/
def demo : Systemd where
  specifier c := ([('h', "/home/demo"), ('u', "demo")].lookup c).map String.toList
  environment name := if name = "HOME".toList then "/home/demo".toList else []

/-- The specifiers stand for themselves in no argument: systemd runs `/opt/50%/shuvtunnel`. -/
theorem read_percent : demo.read (execStart (serviceArguments "/opt/50%%/shuvtunnel" "default" none)) =
    some (serviceArguments "/opt/50%/shuvtunnel" "default" none) := by
  decide

/-- Arguments without a line feed and without NUL that are not read back. -/
theorem not_read_execStart : ¬ ∀ (m : Systemd) (executable profile : String) (api : Option String),
    (∀ a ∈ serviceArguments executable profile api, ∀ c ∈ a.toList, c ≠ '\n' ∧ c ≠ '\x00') →
    m.read (execStart (serviceArguments executable profile api)) = some (serviceArguments executable profile api) := by
  intro h
  have htable : (serviceArguments "/opt/50%%/shuvtunnel" "default" none).all
      (fun a => a.toList.all fun c => decide (c ≠ '\n') && decide (c ≠ '\x00')) = true := by decide
  have hplain : ∀ a ∈ serviceArguments "/opt/50%%/shuvtunnel" "default" none, ∀ c ∈ a.toList,
      c ≠ '\n' ∧ c ≠ '\x00' := by
    intro a ha c hc
    have hboth := List.all_eq_true.mp (List.all_eq_true.mp htable a ha) c hc
    obtain ⟨hfeed, hnul⟩ := Bool.and_eq_true_iff.mp hboth
    exact ⟨of_decide_eq_true hfeed, of_decide_eq_true hnul⟩
  have hsame := h demo "/opt/50%%/shuvtunnel" "default" none hplain
  rw [read_percent] at hsame
  revert hsame
  decide

end Systemd

end ShuvTunnel
