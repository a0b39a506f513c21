/-
# The ClientHello parser stays in bounds

`parseClientHello` reads with offsets that the client's bytes determine, and a
read out of range would give `undefined`. `Checked` is the same parser, in which
such a read has no value and neither has a loop that does not end; it always has
the value that `parseClientHello` gives. And the names that are reported are
slices of the message, each within one extension.

Key definitions: `Checked.parseClientHello`, `FirstMessage`, `ExtensionAt`,
`Within`.
Key theorems: `Checked.parseClientHello_eq`, `Reported.extensions`,
`parseClientHello_in_bounds`.
-/
import ShuvTunnel.Inspection

namespace ShuvTunnel

/-! ### The parser, with its reads -/

namespace Checked

/-- A byte of the array; a read behind its end is none. -/
def byteAt (data : Bytes) (offset : ℕ) : Option ℕ := data[offset]?.map UInt8.toNat

/-- Two bytes, both of them of the array. -/
def uint16 (data : Bytes) (offset : ℕ) : Option ℕ := do
  let high ← byteAt data offset
  let low ← byteAt data (offset + 1)
  return high <<< 8 ||| low

/-- The bytes that a loop over an index reads. -/
def bytes (data : Bytes) (start length : ℕ) : Option Bytes := (List.range length).mapM fun index => data[start + index]?

/-- The three bytes of the message's length. -/
def messageLength (handshake : Bytes) : Option ℕ := do
  let a ← byteAt handshake 1
  let b ← byteAt handshake 2
  let c ← byteAt handshake 3
  return a <<< 16 ||| b <<< 8 ||| c

/-- `recordTurn`, whose reads may fail. -/
def recordTurn (data : Bytes) (recordOffset : ℕ) (handshake : Bytes) (handshakeLength : Option ℕ) : Option Turn :=
  if recordOffset < data.length then
    if data.length - recordOffset < 5 then some (.stop (.returned .incomplete))
    else do
      let type ← byteAt data recordOffset
      if type ≠ 0x16 then some (.stop (.returned (.invalid "expected TLS handshake record")))
      else do
        let recordLength ← uint16 data (recordOffset + 3)
        if data.length - recordOffset - 5 < recordLength then some (.stop (.returned .incomplete))
        else do
          let start := recordOffset + 5
          let payload ← bytes data start recordLength
          let handshake := handshake ++ payload
          let recordOffset := start + recordLength
          if 4 ≤ handshake.length then do
            let first ← byteAt handshake 0
            if first ≠ 0x01 then some (.stop (.returned (.invalid "expected TLS ClientHello")))
            else do
              let length ← handshakeLength.elim (messageLength handshake) some
              if length + 4 ≤ handshake.length then some (.stop (.ended handshake (some length)))
              else some (.go recordOffset handshake (some length))
          else some (.go recordOffset handshake handshakeLength)
  else some (.stop (.ended handshake handshakeLength))

/-- The loop over the records has to stop within the turns. -/
def readRecords (data : Bytes) : ℕ → ℕ → Bytes → Option ℕ → Option Records
  | 0, _, _, _ => none
  | turns + 1, recordOffset, handshake, handshakeLength => do
    match ← recordTurn data recordOffset handshake handshakeLength with
    | .stop records => some records
    | .go recordOffset handshake handshakeLength => readRecords data turns recordOffset handshake handshakeLength

/-- `readNames`, whose reads may fail. -/
def readNames (hello : Bytes) (listEnd : ℕ) : ℕ → ℕ → Option (Option Bytes)
  | 0, _ => none
  | turns + 1, nameOffset =>
    if nameOffset + 3 ≤ listEnd then do
      let nameType ← byteAt hello nameOffset
      let nameLength ← uint16 hello (nameOffset + 1)
      let nameOffset := nameOffset + 3
      if nameOffset + nameLength > listEnd then some none
      else if nameType = 0 then some (some (subarray hello nameOffset (nameOffset + nameLength)))
      else readNames hello listEnd turns (nameOffset + nameLength)
    else some none

/-- `readAlpn`, whose reads may fail. -/
def readAlpn (hello : Bytes) (offset stop : ℕ) : Option (Option Bytes) := do
  let listEnd := min stop (offset + 2 + (← uint16 hello offset))
  let protocolLength ← byteAt hello (offset + 2)
  if offset + 3 + protocolLength ≤ listEnd then
    some (some (subarray hello (offset + 3) (offset + 3 + protocolLength)))
  else some none

/-- `readExtension`, whose reads may fail. -/
def readExtension (hello : Bytes) (type offset stop : ℕ) (value : ClientHello) : Option ClientHello :=
  if type = 0 ∧ 5 ≤ stop - offset then do
    let listEnd := min stop (offset + 2 + (← uint16 hello offset))
    match ← readNames hello listEnd (hello.length + 1) (offset + 2) with
    | some name => some { value with serverName := TextDecoder.decode name }
    | none => some value
  else if type = 16 ∧ 3 ≤ stop - offset then do
    match ← readAlpn hello offset stop with
    | some protocol => some { value with alpn := TextDecoder.decode protocol }
    | none => some value
  else some value

/-- `readExtensions`, whose reads may fail. -/
def readExtensions (hello : Bytes) (extensionsEnd : ℕ) : ℕ → ℕ → ClientHello → Option (Option ClientHello)
  | 0, _, _ => none
  | turns + 1, offset, value =>
    if offset + 4 ≤ extensionsEnd then do
      let type ← uint16 hello offset
      let length ← uint16 hello (offset + 2)
      let offset := offset + 4
      let stop := offset + length
      if stop > extensionsEnd then some none
      else do
        let value ← readExtension hello type offset stop value
        readExtensions hello extensionsEnd turns stop value
    else some (some value)

/-- `parseHello`, whose reads may fail. -/
def parseHello (U : Unicode) (hello : Bytes) : Option ClientHelloResult :=
  if hello.length < 35 then some (.invalid "truncated ClientHello")
  else do
    let offset := 2 + 32
    let offset := offset + 1 + (← byteAt hello offset)
    if offset + 2 > hello.length then some (.invalid "invalid session")
    else do
      let offset := offset + 2 + (← uint16 hello offset)
      if offset ≥ hello.length then some (.invalid "invalid cipher suites")
      else do
        let offset := offset + 1 + (← byteAt hello offset)
        if offset = hello.length then some (.invalid "ClientHello has no SNI")
        else if offset + 2 > hello.length then some (.invalid "invalid extensions")
        else do
          let extensionsEnd := offset + 2 + (← uint16 hello offset)
          if extensionsEnd > hello.length then some (.invalid "truncated extensions")
          else do
            match ← readExtensions hello extensionsEnd (hello.length + 1) (offset + 2) ⟨"", ""⟩ with
            | none => some (.invalid "truncated extension")
            | some value =>
              if value.serverName = "" then some (.invalid "ClientHello has no SNI")
              else some (.complete { value with serverName := toLowerCase U value.serverName })

/-- `parseClientHello`, whose reads may fail. -/
def parseClientHello (U : Unicode) (data : Bytes) : Option ClientHelloResult := do
  match ← readRecords data (data.length + 1) 0 [] none with
  | .returned result => some result
  | .ended _ none => some .incomplete
  | .ended handshake (some length) =>
    if handshake.length < length + 4 then some .incomplete
    else parseHello U ((handshake.drop 4).take length)

/-! ### Every read has a value -/

variable {data hello : Bytes} {offset : ℕ}

theorem byteAt_eq (h : offset < data.length) : byteAt data offset = some (ShuvTunnel.byteAt data offset) := by
  unfold byteAt ShuvTunnel.byteAt
  rw [List.getD_eq_getElem?_getD, List.getElem?_eq_getElem h]
  rfl

theorem uint16_eq (h : offset + 1 < data.length) : uint16 data offset = some (ShuvTunnel.uint16 data offset) := by
  unfold uint16
  rw [byteAt_eq (by omega), byteAt_eq h]
  rfl

theorem bytes_eq {start length : ℕ} (h : start + length ≤ data.length) :
    bytes data start length = some (subarray data start (start + length)) := by
  unfold bytes subarray
  rw [Nat.add_sub_cancel_left]
  induction length with
  | zero => rfl
  | succ length ih =>
    rw [List.range_succ, List.mapM_append, ih (by omega), List.take_add_one, List.getElem?_drop,
      List.getElem?_eq_getElem (by omega)]
    rw [List.mapM_cons, List.mapM_nil, List.getElem?_eq_getElem (by omega)]
    rfl

theorem messageLength_eq (h : 4 ≤ data.length) : messageLength data = some (ShuvTunnel.messageLength data) := by
  unfold messageLength
  rw [byteAt_eq (by omega), byteAt_eq (by omega), byteAt_eq (by omega)]
  rfl

theorem recordTurn_eq (handshake : Bytes) (handshakeLength : Option ℕ) :
    recordTurn data offset handshake handshakeLength =
      some (ShuvTunnel.recordTurn data offset handshake handshakeLength) := by
  unfold recordTurn ShuvTunnel.recordTurn
  simp only [Option.bind_eq_bind]
  by_cases hmore : offset < data.length
  swap
  · rw [if_neg hmore, if_neg hmore]
  rw [if_pos hmore, if_pos hmore]
  by_cases hheader : data.length - offset < 5
  · rw [if_pos hheader, if_pos hheader]
  rw [if_neg hheader, if_neg hheader, byteAt_eq (by omega), Option.bind_some]
  by_cases htype : ShuvTunnel.byteAt data offset ≠ 0x16
  · rw [if_pos htype, if_pos htype]
  rw [if_neg htype, if_neg htype, uint16_eq (by omega), Option.bind_some]
  by_cases hrecord : data.length - offset - 5 < ShuvTunnel.uint16 data (offset + 3)
  · rw [if_pos hrecord, if_pos hrecord]
  rw [if_neg hrecord, if_neg hrecord, bytes_eq (by omega), Option.bind_some]
  generalize handshake ++ subarray data (offset + 5) (offset + 5 + ShuvTunnel.uint16 data (offset + 3)) = joined
  by_cases hjoined : 4 ≤ joined.length
  swap
  · rw [if_neg hjoined, if_neg hjoined]
  rw [if_pos hjoined, if_pos hjoined, byteAt_eq (by omega), Option.bind_some]
  by_cases hfirst : ShuvTunnel.byteAt joined 0 ≠ 0x01
  · rw [if_pos hfirst, if_pos hfirst]
  rw [if_neg hfirst, if_neg hfirst]
  have hlength : handshakeLength.elim (messageLength joined) some =
      some (handshakeLength.getD (ShuvTunnel.messageLength joined)) := by
    cases handshakeLength with
    | none => exact messageLength_eq hjoined
    | some length => rfl
  rw [hlength, Option.bind_some]
  split
  · rfl
  · rfl

/-- A turn that goes on has read a record. -/
theorem lt_of_recordTurn {handshake : Bytes} {handshakeLength : Option ℕ} {offset' : ℕ} {handshake' : Bytes}
    {handshakeLength' : Option ℕ}
    (h : ShuvTunnel.recordTurn data offset handshake handshakeLength = .go offset' handshake' handshakeLength') :
    offset < offset' := by
  unfold ShuvTunnel.recordTurn at h
  dsimp only at h
  split at h
  · split at h
    · cases h
    · split at h
      · cases h
      · split at h
        · cases h
        · split at h
          · split at h
            · cases h
            · split at h
              · cases h
              · cases h
                omega
          · cases h
            omega
  · cases h

/-- The loop stops: each turn takes bytes. -/
theorem readRecords_eq {turns : ℕ} (h : data.length ≤ offset + turns) (handshake : Bytes) (handshakeLength : Option ℕ) :
    readRecords data (turns + 1) offset handshake handshakeLength =
      some (ShuvTunnel.readRecords data turns offset handshake handshakeLength) := by
  induction turns generalizing offset handshake handshakeLength with
  | zero =>
    rw [readRecords, recordTurn_eq]
    have hstop : ShuvTunnel.recordTurn data offset handshake handshakeLength = .stop (.ended handshake handshakeLength) :=
      if_neg (by omega)
    rw [hstop]
    rfl
  | succ turns ih =>
    rw [readRecords, recordTurn_eq, ShuvTunnel.readRecords, Option.bind_eq_bind, Option.bind_some]
    cases hturn : ShuvTunnel.recordTurn data offset handshake handshakeLength with
    | stop records => rfl
    | go offset' handshake' handshakeLength' =>
      have := lt_of_recordTurn hturn
      exact ih (by omega) handshake' handshakeLength'

theorem readNames_eq {listEnd turns : ℕ} (hend : listEnd ≤ hello.length) (h : listEnd ≤ offset + turns) :
    readNames hello listEnd (turns + 1) offset = some (ShuvTunnel.readNames hello listEnd turns offset) := by
  induction turns generalizing offset with
  | zero =>
    rw [readNames, if_neg (by omega)]
    rfl
  | succ turns ih =>
    rw [readNames, ShuvTunnel.readNames]
    simp only [Option.bind_eq_bind]
    by_cases hmore : offset + 3 ≤ listEnd
    swap
    · rw [if_neg hmore, if_neg hmore]
    rw [if_pos hmore, if_pos hmore, byteAt_eq (by omega), uint16_eq (by omega), Option.bind_some,
      Option.bind_some]
    split
    · rfl
    · split
      · rfl
      · exact ih (by omega)

theorem readAlpn_eq {stop : ℕ} (hstop : stop ≤ hello.length) (h : offset + 3 ≤ stop) :
    readAlpn hello offset stop = some (ShuvTunnel.readAlpn hello offset stop) := by
  unfold readAlpn ShuvTunnel.readAlpn
  simp only [Option.bind_eq_bind]
  rw [uint16_eq (by omega), Option.bind_some, byteAt_eq (by omega), Option.bind_some]
  split
  · rfl
  · rfl

theorem readExtension_eq {type stop : ℕ} (hstop : stop ≤ hello.length) (value : ClientHello) :
    readExtension hello type offset stop value = some (ShuvTunnel.readExtension hello type offset stop value) := by
  unfold readExtension ShuvTunnel.readExtension
  simp only [Option.bind_eq_bind]
  split
  · rename_i hname
    rw [uint16_eq (by omega), Option.bind_some]
    generalize hlist : min stop (offset + 2 + ShuvTunnel.uint16 hello offset) = listEnd
    rw [readNames_eq (by omega) (by omega), Option.bind_some]
    cases ShuvTunnel.readNames hello listEnd hello.length (offset + 2) with
    | some name => rfl
    | none => rfl
  · split
    · rename_i halpn
      rw [readAlpn_eq hstop (by omega), Option.bind_some]
      cases ShuvTunnel.readAlpn hello offset stop with
      | some protocol => rfl
      | none => rfl
    · rfl

theorem readExtensions_eq {extensionsEnd turns : ℕ} (hend : extensionsEnd ≤ hello.length)
    (h : extensionsEnd ≤ offset + turns) (value : ClientHello) :
    readExtensions hello extensionsEnd (turns + 1) offset value =
      some (ShuvTunnel.readExtensions hello extensionsEnd turns offset value) := by
  induction turns generalizing offset value with
  | zero =>
    rw [readExtensions, if_neg (by omega)]
    rfl
  | succ turns ih =>
    rw [readExtensions, ShuvTunnel.readExtensions]
    simp only [Option.bind_eq_bind]
    by_cases hmore : offset + 4 ≤ extensionsEnd
    swap
    · rw [if_neg hmore, if_neg hmore]
    rw [if_pos hmore, if_pos hmore, uint16_eq (by omega), Option.bind_some, uint16_eq (by omega),
      Option.bind_some]
    by_cases hstop : offset + 4 + ShuvTunnel.uint16 hello (offset + 2) > extensionsEnd
    · rw [if_pos hstop, if_pos hstop]
    rw [if_neg hstop, if_neg hstop, readExtension_eq (by omega), Option.bind_some]
    exact ih (by omega) _

theorem parseHello_eq (U : Unicode) (hello : Bytes) : parseHello U hello = some (ShuvTunnel.parseHello U hello) := by
  unfold parseHello ShuvTunnel.parseHello
  simp only [Option.bind_eq_bind]
  by_cases hshort : hello.length < 35
  · rw [if_pos hshort, if_pos hshort]
  rw [if_neg hshort, if_neg hshort, byteAt_eq (by omega), Option.bind_some]
  generalize 2 + 32 + 1 + ShuvTunnel.byteAt hello (2 + 32) = o
  by_cases hsession : o + 2 > hello.length
  · rw [if_pos hsession, if_pos hsession]
  rw [if_neg hsession, if_neg hsession, uint16_eq (by omega), Option.bind_some]
  generalize o + 2 + ShuvTunnel.uint16 hello o = o
  by_cases hcipher : o ≥ hello.length
  · rw [if_pos hcipher, if_pos hcipher]
  rw [if_neg hcipher, if_neg hcipher, byteAt_eq (by omega), Option.bind_some]
  generalize o + 1 + ShuvTunnel.byteAt hello o = o
  by_cases hnone : o = hello.length
  · rw [if_pos hnone, if_pos hnone]
  rw [if_neg hnone, if_neg hnone]
  by_cases hlength : o + 2 > hello.length
  · rw [if_pos hlength, if_pos hlength]
  rw [if_neg hlength, if_neg hlength, uint16_eq (by omega), Option.bind_some]
  by_cases hend : o + 2 + ShuvTunnel.uint16 hello o > hello.length
  · rw [if_pos hend, if_pos hend]
  rw [if_neg hend, if_neg hend, readExtensions_eq (by omega) (by omega), Option.bind_some]
  cases ShuvTunnel.readExtensions hello (o + 2 + ShuvTunnel.uint16 hello o) hello.length (o + 2) ⟨"", ""⟩ with
  | none => rfl
  | some value =>
    dsimp only
    split
    · rfl
    · rfl

theorem parseClientHello_eq (U : Unicode) (data : Bytes) :
    parseClientHello U data = some (ShuvTunnel.parseClientHello U data) := by
  unfold parseClientHello ShuvTunnel.parseClientHello
  rw [readRecords_eq (by omega), Option.bind_eq_bind, Option.bind_some]
  cases ShuvTunnel.readRecords data data.length 0 [] none with
  | returned result => rfl
  | ended handshake handshakeLength =>
    cases handshakeLength with
    | none => rfl
    | some length =>
      dsimp only
      split
      · rfl
      · exact parseHello_eq U _

end Checked

/-! ### The first handshake message -/

/-- The payloads of the first handshake records, up to an offset. -/
inductive Joined (data : Bytes) : ℕ → Bytes → Prop
  | start : Joined data 0 []
  | record {offset : ℕ} {handshake : Bytes} : Joined data offset handshake → offset + 5 ≤ data.length →
      byteAt data offset = 0x16 → offset + 5 + uint16 data (offset + 3) ≤ data.length →
      Joined data (offset + 5 + uint16 data (offset + 3))
        (handshake ++ subarray data (offset + 5) (offset + 5 + uint16 data (offset + 3)))

/-- The body of the message they begin with, a ClientHello. -/
def FirstMessage (data hello : Bytes) : Prop :=
  ∃ offset handshake, Joined data offset handshake ∧ byteAt handshake 0 = 0x01 ∧
    messageLength handshake + 4 ≤ handshake.length ∧
    hello = (handshake.drop 4).take (messageLength handshake)

/-- Where the extensions begin, behind the session, the cipher suites and the
compression methods. -/
def extensionsStart (hello : Bytes) : ℕ :=
  let session := 2 + 32 + 1 + byteAt hello (2 + 32)
  let cipher := session + 2 + uint16 hello session
  cipher + 1 + byteAt hello cipher + 2

/-- An extension begins at the offset: its type, its length and its content. -/
inductive ExtensionAt (hello : Bytes) : ℕ → Prop
  | first : ExtensionAt hello (extensionsStart hello)
  | next {offset : ℕ} : ExtensionAt hello offset → ExtensionAt hello (offset + 4 + uint16 hello (offset + 2))

/-- The bytes are a slice of the content of an extension of that type. -/
def Within (hello : Bytes) (type : ℕ) (bytes : Bytes) : Prop :=
  ∃ offset start stop, ExtensionAt hello offset ∧ uint16 hello offset = type ∧
    offset + 4 ≤ start ∧ start ≤ stop ∧ stop ≤ offset + 4 + uint16 hello (offset + 2) ∧
    offset + 4 + uint16 hello (offset + 2) ≤ hello.length ∧ bytes = subarray hello start stop

/-- What the loop over the records keeps: the payloads are joined, and the length
is that of the message they begin with. -/
structure JoinedTo (data : Bytes) (offset : ℕ) (handshake : Bytes) (handshakeLength : Option ℕ) : Prop where
  joined : Joined data offset handshake
  length : ∀ length ∈ handshakeLength, 4 ≤ handshake.length ∧ byteAt handshake 0 = 0x01 ∧ length = messageLength handshake

/-- What the loop leaves behind; what it returns itself is no name. -/
def Records.JoinedTo (data : Bytes) : Records → Prop
  | .returned result => ∀ value, result ≠ .complete value
  | .ended handshake handshakeLength => ∃ offset, ShuvTunnel.JoinedTo data offset handshake handshakeLength

/-- What a turn leaves behind, or goes on with. -/
def Turn.JoinedTo (data : Bytes) : Turn → Prop
  | .stop records => records.JoinedTo data
  | .go offset handshake handshakeLength => ShuvTunnel.JoinedTo data offset handshake handshakeLength

theorem JoinedTo.append {data : Bytes} {offset : ℕ} {handshake : Bytes} {handshakeLength : Option ℕ}
    (h : JoinedTo data offset handshake handshakeLength) (payload : Bytes) :
    ∀ length ∈ handshakeLength, 4 ≤ (handshake ++ payload).length ∧ length = messageLength (handshake ++ payload) := by
  intro length hl
  obtain ⟨h4, -, rfl⟩ := h.length length hl
  refine ⟨by rw [List.length_append]; omega, ?_⟩
  unfold messageLength
  rw [byteAt_append (by omega), byteAt_append (by omega), byteAt_append (by omega)]

theorem JoinedTo.turn {data : Bytes} {offset : ℕ} {handshake : Bytes} {handshakeLength : Option ℕ}
    (h : JoinedTo data offset handshake handshakeLength) :
    (recordTurn data offset handshake handshakeLength).JoinedTo data := by
  unfold recordTurn
  dsimp only
  by_cases hmore : offset < data.length
  swap
  · rw [if_neg hmore]
    exact ⟨offset, h⟩
  rw [if_pos hmore]
  by_cases hheader : data.length - offset < 5
  · rw [if_pos hheader]
    exact fun value hv => nomatch hv
  rw [if_neg hheader]
  by_cases htype : byteAt data offset ≠ 0x16
  · rw [if_pos htype]
    exact fun value hv => nomatch hv
  rw [if_neg htype]
  by_cases hrecord : data.length - offset - 5 < uint16 data (offset + 3)
  · rw [if_pos hrecord]
    exact fun value hv => nomatch hv
  rw [if_neg hrecord]
  have hjoined : Joined data (offset + 5 + uint16 data (offset + 3))
      (handshake ++ subarray data (offset + 5) (offset + 5 + uint16 data (offset + 3))) :=
    .record h.joined (by omega) (not_not.mp htype) (by omega)
  have hlength := h.append (subarray data (offset + 5) (offset + 5 + uint16 data (offset + 3)))
  generalize handshake ++ subarray data (offset + 5) (offset + 5 + uint16 data (offset + 3)) = joined at hjoined hlength
  by_cases hlong : 4 ≤ joined.length
  swap
  · rw [if_neg hlong]
    exact ⟨hjoined, fun length hl => absurd (hlength length hl).1 hlong⟩
  rw [if_pos hlong]
  by_cases hfirst : byteAt joined 0 ≠ 0x01
  · rw [if_pos hfirst]
    exact fun value hv => nomatch hv
  rw [if_neg hfirst]
  have hget : handshakeLength.getD (messageLength joined) = messageLength joined := by
    cases handshakeLength with
    | none => rfl
    | some length => exact (hlength length rfl).2
  have hall : JoinedTo data (offset + 5 + uint16 data (offset + 3)) joined (some (messageLength joined)) :=
    ⟨hjoined, fun length hl => ⟨hlong, not_not.mp hfirst, (Option.some.inj hl).symm⟩⟩
  rw [hget]
  split
  · exact ⟨_, hall⟩
  · exact hall

theorem JoinedTo.records {data : Bytes} {turns offset : ℕ} {handshake : Bytes} {handshakeLength : Option ℕ}
    (h : JoinedTo data offset handshake handshakeLength) :
    (readRecords data turns offset handshake handshakeLength).JoinedTo data := by
  induction turns generalizing offset handshake handshakeLength with
  | zero => exact ⟨offset, h⟩
  | succ turns ih =>
    have hturn := h.turn
    rw [readRecords]
    cases ht : recordTurn data offset handshake handshakeLength with
    | stop records =>
      rw [ht] at hturn
      exact hturn
    | go offset' handshake' handshakeLength' =>
      rw [ht] at hturn
      exact ih hturn

/-! ### The names that are reported -/

variable {hello : Bytes}

theorem slice_of_readNames {listEnd turns offset : ℕ} {name : Bytes}
    (h : readNames hello listEnd turns offset = some name) :
    ∃ start stop, offset ≤ start ∧ start ≤ stop ∧ stop ≤ listEnd ∧ name = subarray hello start stop := by
  induction turns generalizing offset with
  | zero => cases h
  | succ turns ih =>
    rw [readNames] at h
    dsimp only at h
    split at h
    · split at h
      · cases h
      · split at h
        · exact ⟨_, _, by omega, by omega, by omega, (Option.some.inj h).symm⟩
        · obtain ⟨start, stop, hstart, hstop, hend, rfl⟩ := ih h
          exact ⟨start, stop, by omega, hstop, hend, rfl⟩
    · cases h

theorem slice_of_readAlpn {offset stop : ℕ} {protocol : Bytes} (h : readAlpn hello offset stop = some protocol) :
    ∃ start stop', offset ≤ start ∧ start ≤ stop' ∧ stop' ≤ stop ∧ protocol = subarray hello start stop' := by
  unfold readAlpn at h
  dsimp only at h
  split at h
  · exact ⟨_, _, by omega, by omega, by omega, (Option.some.inj h).symm⟩
  · cases h

/-- The names read so far are empty, or from within extensions. -/
structure Reported (hello : Bytes) (value : ClientHello) : Prop where
  serverName : value.serverName = "" ∨ ∃ name, Within hello 0 name ∧ value.serverName = TextDecoder.decode name
  alpn : value.alpn = "" ∨ ∃ protocol, Within hello 16 protocol ∧ value.alpn = TextDecoder.decode protocol

theorem Reported.extension {offset : ℕ} {value : ClientHello} (h : Reported hello value) (hat : ExtensionAt hello offset)
    (hend : offset + 4 + uint16 hello (offset + 2) ≤ hello.length) :
    Reported hello (readExtension hello (uint16 hello offset) (offset + 4) (offset + 4 + uint16 hello (offset + 2)) value) := by
  unfold readExtension
  split
  · rename_i htype
    dsimp only
    split
    · rename_i name hname
      obtain ⟨start, stop, hstart, hstop, hlist, rfl⟩ := slice_of_readNames hname
      exact ⟨.inr ⟨_, ⟨offset, start, stop, hat, htype.1, by omega, hstop, by omega, hend, rfl⟩, rfl⟩, h.alpn⟩
    · exact h
  · split
    · rename_i htype
      split
      · rename_i protocol hprotocol
        obtain ⟨start, stop, hstart, hstop, hlist, rfl⟩ := slice_of_readAlpn hprotocol
        exact ⟨h.serverName, .inr ⟨_, ⟨offset, start, stop, hat, htype.1, hstart, hstop, hlist, hend, rfl⟩, rfl⟩⟩
      · exact h
    · exact h

theorem Reported.extensions {extensionsEnd turns offset : ℕ} {value value' : ClientHello} (h : Reported hello value)
    (hat : ExtensionAt hello offset) (hend : extensionsEnd ≤ hello.length)
    (hr : readExtensions hello extensionsEnd turns offset value = some value') : Reported hello value' := by
  induction turns generalizing offset value with
  | zero =>
    obtain rfl := Option.some.inj hr
    exact h
  | succ turns ih =>
    rw [readExtensions] at hr
    dsimp only at hr
    split at hr
    · split at hr
      · cases hr
      · exact ih (h.extension hat (by omega)) hat.next hr
    · obtain rfl := Option.some.inj hr
      exact h

theorem reported_of_parseHello {U : Unicode} {value : ClientHello} (h : parseHello U hello = .complete value) :
    (∃ name, Within hello 0 name ∧ value.serverName = toLowerCase U (TextDecoder.decode name)) ∧
      (value.alpn = "" ∨ ∃ protocol, Within hello 16 protocol ∧ value.alpn = TextDecoder.decode protocol) := by
  unfold parseHello at h
  dsimp only at h
  split at h
  · cases h
  · split at h
    · cases h
    · split at h
      · cases h
      · split at h
        · cases h
        · split at h
          · cases h
          · split at h
            · cases h
            · split at h
              · cases h
              · rename_i read hread
                split at h
                · cases h
                · rename_i hname
                  obtain rfl := ClientHelloResult.complete.inj h
                  have hreported : Reported hello read := Reported.extensions ⟨.inl rfl, .inl rfl⟩ .first (by omega) hread
                  obtain ⟨name, hwithin, heq⟩ := hreported.serverName.resolve_left hname
                  exact ⟨⟨name, hwithin, congrArg (toLowerCase U) heq⟩, hreported.alpn⟩

/-- The parser ends, all its reads are in bounds, and what it reports are slices
of extensions of the first message. -/
theorem parseClientHello_in_bounds (U : Unicode) (data : Bytes) :
    Checked.parseClientHello U data = some (parseClientHello U data) ∧
    ∀ value, parseClientHello U data = .complete value → ∃ hello, FirstMessage data hello ∧
      (∃ name, Within hello 0 name ∧ value.serverName = toLowerCase U (TextDecoder.decode name)) ∧
      (value.alpn = "" ∨ ∃ protocol, Within hello 16 protocol ∧ value.alpn = TextDecoder.decode protocol) := by
  refine ⟨Checked.parseClientHello_eq U data, fun value h => ?_⟩
  have hrecords : (readRecords data data.length 0 [] none).JoinedTo data :=
    JoinedTo.records ⟨.start, fun _ hl => nomatch hl⟩
  unfold parseClientHello at h
  split at h
  · rename_i result hr
    rw [hr] at hrecords
    exact absurd h (hrecords value)
  · cases h
  · rename_i handshake length hr
    rw [hr] at hrecords
    obtain ⟨offset, hjoined⟩ := hrecords
    split at h
    · cases h
    · rename_i hlong
      obtain ⟨h4, hfirst, rfl⟩ := hjoined.length length rfl
      exact ⟨_, ⟨offset, handshake, hjoined.joined, hfirst, by omega, rfl⟩, reported_of_parseHello h⟩

end ShuvTunnel
