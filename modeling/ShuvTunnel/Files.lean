/-
# What a file holds

The texts of the files of a profile, as the two clients write and read them:
UTF-8, which `fs::read_to_string` insists on and `Fs.readFile(path, "utf8")`
reads as it can, and the metadata in JSON, which `serde_json` and
`JSON.stringify` print alike.

A beginning of a text's bytes is read as a beginning of the text, with a
replacement character for a character that is cut.

Key definitions: `readFile`, `readToString`, `Spells`.
Key theorems: `readFile_utf8`, `readToString_utf8`, `run_prefix`,
`parse_readFile_cut`.
-/
import ShuvTunnel.Names
import ShuvTunnel.Lib.JsonText
import ShuvTunnel.Lib.IsoDate
import Mathlib.Data.List.DropRight

namespace ShuvTunnel

open TextDecoder (Pending idle step run first replacement)

/-! ### UTF-8 -/

/-- `Fs.readFile(path, "utf8")`: what is not UTF-8 is replaced, and a byte order
mark stays. -/
def readFile (data : Bytes) : String := String.ofList (run idle data)

/-- `fs::read_to_string`: what is not UTF-8, so that it does not encode back, is
refused. -/
def readToString (data : Bytes) : Option String :=
  if utf8 (readFile data) = data then some (readFile data) else none

/-- The bytes bring the decoder to that character, and none before the last. -/
inductive Spells : Pending → Bytes → Char → Prop
  | last {p : Pending} {b : UInt8} {c : Char} (h : step p b.toNat = ([c], idle)) : Spells p [b] c
  | more {p p' : Pending} {b : UInt8} {bs : Bytes} {c : Char} (h : step p b.toNat = ([], p')) (hp : p'.needed ≠ 0)
      (hs : Spells p' bs c) : Spells p (b :: bs) c

theorem Spells.run {p : Pending} {bs : Bytes} {c : Char} (h : Spells p bs c) (rest : Bytes) :
    run p (bs ++ rest) = c :: TextDecoder.run idle rest := by
  induction h with
  | last h =>
    rw [List.singleton_append, TextDecoder.run, h]
    rfl
  | more h _ _ ih =>
    rw [List.cons_append, TextDecoder.run, h]
    exact ih

/-- A character that is cut. -/
theorem Spells.cut {p : Pending} {bs us ws : Bytes} {c : Char} (h : Spells p bs c) (hbs : bs = us ++ ws)
    (hus : us ≠ []) (hws : ws ≠ []) : TextDecoder.run p us = [replacement] := by
  induction h generalizing us with
  | last h =>
    have hlen := congrArg List.length hbs
    rw [List.length_append, List.length_singleton] at hlen
    have := List.length_pos_iff.mpr hus
    have := List.length_pos_iff.mpr hws
    omega
  | more h hp _ ih =>
    cases us with
    | nil => exact absurd rfl hus
    | cons b us =>
      obtain ⟨rfl, hrest⟩ := List.cons.inj hbs
      rw [TextDecoder.run, h, List.nil_append]
      by_cases hus : us = []
      · rw [hus, TextDecoder.run, if_neg hp]
      · exact ih hrest hus

/-- A byte that goes on with the character. -/
theorem step_continue {needed codePoint lower upper b : ℕ} (hlo : lower ≤ b) (hhi : b ≤ upper) :
    step ⟨needed + 1, codePoint, lower, upper⟩ b =
      if needed = 0 then ([Char.ofNat (0x40 * codePoint + b % 0x40)], idle)
      else ([], ⟨needed, 0x40 * codePoint + b % 0x40, 0x80, 0xBF⟩) := by
  unfold step
  rw [if_neg (Nat.succ_ne_zero needed), if_neg (by simp only; omega)]
  simp only [Nat.add_eq_right, Nat.add_sub_cancel]

theorem spells_utf8EncodeChar (c : Char) : Spells idle (String.utf8EncodeChar c) c := by
  have hvalid : c.val.toNat < 0xD800 ∨ (0xDFFF < c.val.toNat ∧ c.val.toNat < 0x110000) := c.valid
  have hc : Char.ofNat c.val.toNat = c := Char.ofNat_toNat c
  unfold String.utf8EncodeChar
  dsimp only
  generalize c.val.toNat = n at hvalid hc
  have byte : ∀ m < 256, (UInt8.ofNat m).toNat = m := fun m hm => by
    rw [UInt8.toNat_ofNat']
    exact Nat.mod_eq_of_lt hm
  -- the last byte, of whatever character
  have last : ∀ codePoint lower upper, lower ≤ n % 0x40 + 0x80 → n % 0x40 + 0x80 ≤ upper → codePoint = n / 64 →
      Spells ⟨1, codePoint, lower, upper⟩ [UInt8.ofNat (n % 0x40 + 0x80)] c := by
    rintro _ lower upper hlo hhi rfl
    refine .last ?_
    rw [byte _ (by omega), step_continue hlo hhi, if_pos rfl, show 0x40 * (n / 64) + (n % 0x40 + 0x80) % 0x40 = n by omega,
      hc]
  -- one of the others but the first
  have inner : ∀ (needed m codePoint lower upper : ℕ) (bs : Bytes), needed ≠ 0 → lower ≤ m % 0x40 + 0x80 →
      m % 0x40 + 0x80 ≤ upper → codePoint = m / 64 → Spells ⟨needed, m, 0x80, 0xBF⟩ bs c →
      Spells ⟨needed + 1, codePoint, lower, upper⟩ (UInt8.ofNat (m % 0x40 + 0x80) :: bs) c := by
    rintro needed m _ lower upper bs h0 hlo hhi rfl hs
    refine .more ?_ h0 hs
    rw [byte _ (by omega), step_continue hlo hhi, if_neg h0, show 0x40 * (m / 64) + (m % 0x40 + 0x80) % 0x40 = m by omega]
  split
  · refine .last ?_
    rw [byte n (by omega)]
    show first n = _
    unfold first
    rw [if_pos (by omega), hc]
  split
  · have hfirst : first (n / 64 % 0x20 + 0xC0) = ([], ⟨1, n / 64, 0x80, 0xBF⟩) := by
      unfold first
      rw [if_neg (by omega), if_pos (by omega), show (n / 64 % 0x20 + 0xC0) % 0x20 = n / 64 by omega]
    refine .more (by rw [byte _ (by omega)]; exact hfirst) ?_ (last _ _ _ (by omega) (by omega) rfl)
    exact Nat.succ_ne_zero 0
  split
  · have hfirst : first (n / 4096 % 0x10 + 0xE0) = ([], ⟨2, n / 4096,
        if n / 4096 = 0 then 0xA0 else 0x80, if n / 4096 = 13 then 0x9F else 0xBF⟩) := by
      unfold first
      rw [if_neg (by omega), if_neg (by omega), if_pos (by omega), show (n / 4096 % 0x10 + 0xE0) % 0x10 = n / 4096 by omega]
      have h0 : (n / 4096 % 0x10 + 0xE0 = 0xE0) = (n / 4096 = 0) := propext (by omega)
      have hD : (n / 4096 % 0x10 + 0xE0 = 0xED) = (n / 4096 = 13) := propext (by omega)
      simp only [h0, hD]
    refine .more (by rw [byte _ (by omega)]; exact hfirst) (Nat.succ_ne_zero 1) ?_
    refine inner 1 (n / 64) _ _ _ _ (Nat.succ_ne_zero 0) ?_ ?_ (by omega) (last _ _ _ (by omega) (by omega) rfl)
    · split <;> omega
    · split <;> omega
  · have hfirst : first (n / 262144 % 0x08 + 0xF0) = ([], ⟨3, n / 262144,
        if n / 262144 = 0 then 0x90 else 0x80, if n / 262144 = 4 then 0x8F else 0xBF⟩) := by
      unfold first
      rw [if_neg (by omega), if_neg (by omega), if_neg (by omega), if_pos (by omega),
        show (n / 262144 % 0x08 + 0xF0) % 0x08 = n / 262144 by omega]
      have h0 : (n / 262144 % 0x08 + 0xF0 = 0xF0) = (n / 262144 = 0) := propext (by omega)
      have h4 : (n / 262144 % 0x08 + 0xF0 = 0xF4) = (n / 262144 = 4) := propext (by omega)
      simp only [h0, h4]
    refine .more (by rw [byte _ (by omega)]; exact hfirst) (Nat.succ_ne_zero 2) ?_
    refine inner 2 (n / 4096) _ _ _ _ (Nat.succ_ne_zero 1) ?_ ?_ (by omega)
      (inner 1 (n / 64) _ _ _ _ (Nat.succ_ne_zero 0) (by omega) (by omega) (by omega) (last _ _ _ (by omega) (by omega) rfl))
    · split <;> omega
    · split <;> omega

theorem run_utf8 (cs : List Char) (rest : Bytes) :
    run idle (cs.flatMap String.utf8EncodeChar ++ rest) = cs ++ run idle rest := by
  induction cs with
  | nil => rfl
  | cons c cs ih =>
    rw [List.flatMap_cons, List.append_assoc, (spells_utf8EncodeChar c).run, ih]
    rfl

/-- A text is read back. -/
theorem readFile_utf8 (s : String) : readFile (utf8 s) = s := by
  have := run_utf8 s.toList []
  rw [List.append_nil] at this
  unfold readFile utf8
  rw [this, show run idle [] = [] from rfl, List.append_nil, String.ofList_toList]

theorem readToString_utf8 (s : String) : readToString (utf8 s) = some s := by
  unfold readToString
  rw [readFile_utf8, if_pos rfl]

/-- A strict beginning of a text's bytes is read as a strict beginning of the
text, behind which a character may be cut. -/
theorem run_prefix {cs : List Char} {us ws : Bytes} (h : cs.flatMap String.utf8EncodeChar = us ++ ws) (hws : ws ≠ []) :
    ∃ as bs, cs = as ++ bs ∧ bs ≠ [] ∧ (run idle us = as ∨ run idle us = as ++ [replacement]) := by
  induction cs generalizing us with
  | nil =>
    rw [List.flatMap_nil, eq_comm, List.append_eq_nil_iff] at h
    exact absurd h.2 hws
  | cons c cs ih =>
    rw [List.flatMap_cons, List.append_eq_append_iff] at h
    rcases h with ⟨us', rfl, hrest⟩ | ⟨ws', henc, hrest⟩
    · obtain ⟨as, bs, rfl, hbs, hrun⟩ := ih hrest
      refine ⟨c :: as, bs, rfl, hbs, ?_⟩
      rw [(spells_utf8EncodeChar c).run]
      rcases hrun with hrun | hrun
      · exact .inl (by rw [hrun])
      · exact .inr (by rw [hrun]; rfl)
    · have hspells := spells_utf8EncodeChar c
      by_cases hws' : ws' = []
      · -- the whole character
        rw [hws', List.append_nil] at henc
        rw [hws', List.nil_append] at hrest
        refine ⟨[c], cs, rfl, ?_, .inl ?_⟩
        · rintro rfl
          exact hws hrest
        · have := hspells.run []
          rwa [List.append_nil, henc] at this
      · by_cases hus : us = []
        · exact ⟨[], c :: cs, rfl, List.cons_ne_nil _ _, .inl (by rw [hus]; rfl)⟩
        · exact ⟨[], c :: cs, rfl, List.cons_ne_nil _ _, .inr (hspells.cut henc hus hws')⟩

/-! ### White space around a text -/

/-- `trim`, of what `space` takes for white space. -/
def trimBy (space : Char → Bool) (s : String) : String :=
  String.ofList ((s.toList.dropWhile space).rdropWhile space)

/-- White space in both languages. -/
def commonSpace (c : Char) : Bool :=
  (9 ≤ c.toNat && c.toNat ≤ 13) || c.toNat = 0x20 || c.toNat = 0xA0 || c.toNat = 0x1680 ||
    (0x2000 ≤ c.toNat && c.toNat ≤ 0x200A) || c.toNat = 0x2028 || c.toNat = 0x2029 || c.toNat = 0x202F ||
    c.toNat = 0x205F || c.toNat = 0x3000

/-- `s.trim()` in TypeScript: a byte order mark is white space. -/
def trim (s : String) : String := trimBy (fun c => commonSpace c || c.toNat = 0xFEFF) s

/-- `s.trim()` in Rust: the next-line character is white space. -/
def Rust.trim (s : String) : String := trimBy (fun c => commonSpace c || c.toNat = 0x85) s

/-- `format!("{}\n", s)`. -/
def line (s : String) : String := s ++ "\n"

theorem trimBy_line {space : Char → Bool} (hspace : space '\n' = true) (s : String) :
    trimBy space (line s) = trimBy space s := by
  have hlist : (line s).toList = s.toList ++ ['\n'] := by
    rw [line, String.toList_append]
    rfl
  unfold trimBy
  rw [hlist, List.dropWhile_append]
  split
  · rename_i hall
    rw [List.isEmpty_iff.mp hall, List.dropWhile_cons_of_pos hspace]
    rfl
  · rw [List.rdropWhile_concat_pos _ _ _ hspace]

theorem trim_line (s : String) : trim (line s) = trim s := trimBy_line (by decide) s

theorem Rust.trim_line (s : String) : Rust.trim (line s) = Rust.trim s := trimBy_line (by decide) s

/-- What is trimmed has nothing left to trim. -/
theorem trimBy_trimBy (space : Char → Bool) (s : String) : trimBy space (trimBy space s) = trimBy space s := by
  unfold trimBy
  rw [String.toList_ofList]
  have hfront : ((s.toList.dropWhile space).rdropWhile space).dropWhile space =
      (s.toList.dropWhile space).rdropWhile space := by
    obtain ⟨rest, hrest⟩ := List.rdropWhile_prefix space (l := s.toList.dropWhile space)
    cases hkept : (s.toList.dropWhile space).rdropWhile space with
    | nil => rfl
    | cons c cs =>
      -- the first character kept is the first that is no white space
      rw [hkept] at hrest
      have hagain := List.dropWhile_idempotent space s.toList
      rw [← hrest, List.cons_append] at hagain
      have hc : ¬ space c = true := fun hspace => by
        rw [List.dropWhile_cons_of_pos hspace] at hagain
        have hlen := (List.dropWhile_sublist (l := cs ++ rest) space).length_le
        rw [hagain, List.length_cons] at hlen
        omega
      exact List.dropWhile_cons_of_neg hc
  rw [hfront, List.rdropWhile_idempotent]

theorem Rust.trim_trim (s : String) : Rust.trim (Rust.trim s) = Rust.trim s := trimBy_trimBy _ s

/-! ### Metadata -/

/-- `serde_json::from_str` for a structure of three strings: each has one field,
and other fields are left out; or an array of the three. -/
def Rust.readStruct (a b c : String) : Json.Value → Option (String × String × String)
  | .object fields =>
    let field name := match fields.filter fun x => x.1 = name with
      | [x] => x.2.string?
      | _ => none
    (field a).bind fun x => (field b).bind fun y => (field c).map fun z => (x, y, z)
  | .array [x, y, z] => x.string?.bind fun x => y.string?.bind fun y => z.string?.map fun z => (x, y, z)
  | _ => none

/-- `JSON.parse(metadata)` taken for an object of three strings: of each the
last field of the name counts. -/
def readFields (a b c : String) : Json.Value → Option (String × String × String)
  | .object fields =>
    let field name := (fields.reverse.lookup name).bind Json.Value.string?
    (field a).bind fun x => (field b).bind fun y => (field c).map fun z => (x, y, z)
  | _ => none

/-- `JSON.stringify(value, null, 2)`, of an object of strings. -/
def stringify (fields : List (String × String)) : String := String.ofList (Json.object fields)

/-- `to_json`: `serde_json` prints an object as `JSON.stringify` does. -/
def Rust.toJson (fields : List (String × String)) : String := String.ofList (Json.object fields ++ ['\n'])

theorem parse_stringify (fields : List (String × String)) :
    Json.parse (stringify fields).toList = some (.object (fields.map fun x => (x.1, .string x.2))) := by
  rw [stringify, String.toList_ofList, Json.parse_object]

theorem Rust.parse_toJson (fields : List (String × String)) :
    Json.parse (Rust.toJson fields).toList = some (.object (fields.map fun x => (x.1, .string x.2))) := by
  rw [Rust.toJson, String.toList_ofList]
  exact Json.parse_object_spaces fields (List.all_eq_true.mp (by decide))

/-- Three fields of different names are read back. -/
theorem Rust.readStruct_fields {a b c : String} (hab : a ≠ b) (hac : a ≠ c) (hbc : b ≠ c) (x y z : String) :
    Rust.readStruct a b c (.object [(a, .string x), (b, .string y), (c, .string z)]) = some (x, y, z) := by
  simp [Rust.readStruct, List.filter, hab, hac, hbc, hab.symm, hac.symm, hbc.symm, Json.Value.string?]

theorem readFields_fields {a b c : String} (hab : a ≠ b) (hac : a ≠ c) (hbc : b ≠ c) (x y z : String) :
    readFields a b c (.object [(a, .string x), (b, .string y), (c, .string z)]) = some (x, y, z) := by
  have hab' : (a == b) = false := beq_false_of_ne hab
  have hac' : (a == c) = false := beq_false_of_ne hac
  have hbc' : (b == c) = false := beq_false_of_ne hbc
  simp [readFields, List.lookup_cons, hab', hac', hbc', Json.Value.string?]

/-- Metadata of which only a beginning was written is no JSON text. -/
theorem parse_readFile_cut {fields : List (String × String)} {us ws : Bytes}
    (h : utf8 (stringify fields) = us ++ ws) (hws : ws ≠ []) : Json.parse (readFile us).toList = none := by
  have h : (Json.object fields).flatMap String.utf8EncodeChar = us ++ ws := by
    rwa [utf8, stringify, String.toList_ofList] at h
  obtain ⟨as, bs, hsplit, hbs, hrun⟩ := run_prefix h hws
  rw [readFile, String.toList_ofList]
  rcases hrun with hrun | hrun
  · rw [hrun]
    exact Json.parse_prefix_object hsplit hbs
  · rw [hrun]
    exact Json.parse_concat_beyond as (by decide)

end ShuvTunnel
