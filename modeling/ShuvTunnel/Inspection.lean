/-
# Chunking does not change routing

More bytes never change a verdict of `parseClientHello`: every record it reads
lies in what it was given, and it stops at the first one that decides. So the
loops of the Worker and of the object, which parse all they have read after
each chunk, both stop at the chunk that completes the shortest decisive
prefix, with its verdict.

Key definitions: `Shortest`, `Stop.thrownOn`, `Stop.leftOn`.
Key theorems: `parseClientHello_append`, `routeTcpLoop_eq`, `connectLoop_eq`,
`chunking`.
-/
import ShuvTunnel.ClientHello

namespace ShuvTunnel

/-! ### Reading in a longer input -/

theorem byteAt_append {data : Bytes} {i : ℕ} (h : i < data.length) (s : Bytes) :
    byteAt (data ++ s) i = byteAt data i := by
  unfold byteAt
  rw [List.getD_eq_getElem?_getD, List.getElem?_append_left h, List.getD_eq_getElem?_getD]

theorem uint16_append {data : Bytes} {i : ℕ} (h : i + 1 < data.length) (s : Bytes) :
    uint16 (data ++ s) i = uint16 data i := by
  unfold uint16
  rw [byteAt_append (Nat.lt_of_succ_lt h), byteAt_append h]

theorem subarray_append {data : Bytes} {start stop : ℕ} (h : stop ≤ data.length) (s : Bytes) :
    subarray (data ++ s) start stop = subarray data start stop := by
  unfold subarray
  by_cases hs : start ≤ data.length
  · rw [List.drop_append_of_le_length hs, List.take_append_of_le_length (by simp; omega)]
  · have : stop - start = 0 := by omega
    rw [this, List.take_zero, List.take_zero]

/-- What the loop over the records ends with decides the verdict. -/
def Records.Decisive : Records → Prop
  | .returned result => result ≠ .incomplete
  | .ended handshake (some length) => length + 4 ≤ handshake.length
  | .ended _ none => False

/-- The message is not whole yet. -/
def Unfinished (handshake : Bytes) (handshakeLength : Option ℕ) : Prop :=
  ∀ n, handshakeLength = some n → handshake.length < n + 4

theorem Unfinished.not_decisive {handshake : Bytes} {handshakeLength : Option ℕ}
    (h : Unfinished handshake handshakeLength) : ¬ (Records.ended handshake handshakeLength).Decisive := by
  cases handshakeLength with
  | none => exact fun h => h
  | some n => exact Nat.not_le_of_lt (h n rfl)

/-- A turn that finds its record whole takes the same course in a longer
input. -/
theorem recordTurn_append {data : Bytes} {recordOffset : ℕ} {handshake : Bytes} {handshakeLength : Option ℕ}
    (hlt : recordOffset < data.length) (s : Bytes)
    (h : recordTurn data recordOffset handshake handshakeLength ≠ .stop (.returned .incomplete)) :
    recordTurn (data ++ s) recordOffset handshake handshakeLength =
      recordTurn data recordOffset handshake handshakeLength := by
  unfold recordTurn at h ⊢
  rw [if_pos hlt] at h ⊢
  rw [if_pos (by rw [List.length_append]; omega), byteAt_append hlt]
  by_cases hshort : data.length - recordOffset < 5
  · rw [if_pos hshort] at h
    exact absurd rfl h
  rw [if_neg hshort] at h ⊢
  rw [if_neg (by rw [List.length_append]; omega)]
  by_cases htype : byteAt data recordOffset ≠ 0x16
  · rw [if_pos htype, if_pos htype]
  rw [if_neg htype] at h ⊢
  rw [if_neg htype]
  simp only at h ⊢
  rw [uint16_append (by omega)]
  by_cases htrunc : data.length - recordOffset - 5 < uint16 data (recordOffset + 3)
  · rw [if_pos htrunc] at h
    exact absurd rfl h
  rw [if_neg htrunc, if_neg (by rw [List.length_append]; omega), subarray_append (by omega)]

/-- A turn that goes on leaves the message unfinished. -/
theorem recordTurn_go {data : Bytes} {recordOffset offset : ℕ} {handshake joined : Bytes}
    {handshakeLength length : Option ℕ}
    (h : recordTurn data recordOffset handshake handshakeLength = .go offset joined length) :
    Unfinished joined length := by
  unfold recordTurn at h
  split at h
  swap
  · cases h
  split at h
  · cases h
  split at h
  · cases h
  simp only at h
  split at h
  · cases h
  split at h
  · split at h
    · cases h
    · split at h
      · cases h
      · rename_i hlong
        obtain ⟨-, rfl, rfl⟩ := Turn.go.inj h
        intro n hn
        obtain rfl := Option.some.inj hn
        exact Nat.lt_of_not_le hlong
  · rename_i hfour
    obtain ⟨-, rfl, rfl⟩ := Turn.go.inj h
    intro n _
    omega

/-- The records that decide are read alike in a longer input. -/
theorem readRecords_append {data : Bytes} {turns turns' recordOffset : ℕ} {handshake : Bytes}
    {handshakeLength : Option ℕ} (hturns : turns ≤ turns') (hu : Unfinished handshake handshakeLength)
    (s : Bytes) (h : (readRecords data turns recordOffset handshake handshakeLength).Decisive) :
    readRecords (data ++ s) turns' recordOffset handshake handshakeLength =
      readRecords data turns recordOffset handshake handshakeLength := by
  induction turns generalizing turns' recordOffset handshake handshakeLength with
  | zero => exact absurd h hu.not_decisive
  | succ turns ih =>
    obtain ⟨turns', rfl⟩ : ∃ t, turns' = t + 1 := ⟨turns' - 1, by omega⟩
    by_cases hlt : recordOffset < data.length
    · have hturn : recordTurn data recordOffset handshake handshakeLength ≠ .stop (.returned .incomplete) := by
        intro he
        rw [readRecords, he] at h
        exact h rfl
      simp only [readRecords] at h ⊢
      rw [recordTurn_append hlt s hturn]
      cases hcase : recordTurn data recordOffset handshake handshakeLength with
      | stop records => rfl
      | go offset joined length =>
        rw [hcase] at h
        exact ih (Nat.le_of_succ_le_succ hturns) (recordTurn_go hcase) h
    · have hstop : recordTurn data recordOffset handshake handshakeLength =
          .stop (.ended handshake handshakeLength) := by
        unfold recordTurn
        rw [if_neg hlt]
      rw [readRecords, hstop] at h
      exact absurd h hu.not_decisive

/-- More bytes do not change a verdict. -/
theorem parseClientHello_append {U : Unicode} {data : Bytes} (h : parseClientHello U data ≠ .incomplete)
    (s : Bytes) : parseClientHello U (data ++ s) = parseClientHello U data := by
  have hd : (readRecords data data.length 0 [] none).Decisive := by
    unfold parseClientHello at h
    cases hr : readRecords data data.length 0 [] none with
    | returned result =>
      rw [hr] at h
      exact h
    | ended handshake handshakeLength =>
      rw [hr] at h
      cases handshakeLength with
      | none => exact absurd rfl h
      | some n =>
        simp only at h
        split at h
        · exact absurd rfl h
        · rename_i hlen
          exact Nat.le_of_not_lt hlen
  have hturns : data.length ≤ (data ++ s).length := by simp
  have hr := readRecords_append hturns (fun _ hn => by cases hn) s hd
  unfold parseClientHello
  rw [hr]

/-! ### The shortest decisive prefix -/

/-- `p` is the shortest prefix of the stream that has a verdict. -/
structure Shortest (U : Unicode) (stream p : Bytes) : Prop where
  isPrefix : p <+: stream
  decisive : parseClientHello U p ≠ .incomplete
  least : ∀ q, q <+: stream → q.length < p.length → parseClientHello U q = .incomplete

/-- A longer prefix of the stream has the same verdict. -/
theorem Shortest.verdict {U : Unicode} {stream p q : Bytes} (h : Shortest U stream p) (hq : q <+: stream)
    (hlen : p.length ≤ q.length) : parseClientHello U q = parseClientHello U p := by
  obtain ⟨s, rfl⟩ := List.prefix_of_prefix_length_le h.isPrefix hq hlen
  exact parseClientHello_append h.decisive s

/-- How `routeTcp` stops with a verdict. -/
def Stop.thrownOn (verdict : ClientHelloResult) (chunks : List Bytes) : Stop :=
  match verdict with
  | .invalid reason => .thrown reason
  | .complete hello => .left (some hello.serverName) hello.alpn chunks
  | .incomplete => .left none "" chunks

/-- How `connect` stops with a verdict. -/
def Stop.leftOn (verdict : ClientHelloResult) (chunks : List Bytes) : Stop :=
  match verdict with
  | .complete hello => .left (some hello.serverName) hello.alpn chunks
  | _ => .left none "" chunks

/-- `read` are the chunks up to the one that completes `p`. -/
structure Completes (p : Bytes) (chunks read : List Bytes) : Prop where
  isPrefix : read <+: chunks
  reaches : p.length ≤ read.flatten.length
  last : ∀ ds d, read = ds ++ [d] → ds.flatten.length < p.length

/-- The next chunk of the stream: the prefix is still not read, or it is and
its verdict has come. -/
theorem Shortest.chunk {U : Unicode} {stream p : Bytes} (h : Shortest U stream p) {chunks items : List Bytes}
    {value : Bytes} (hs : (chunks ++ value :: items).flatten = stream) :
    ((chunks ++ [value]).flatten.length < p.length ∧
      parseClientHello U (concatBytes (chunks ++ [value])) = .incomplete) ∨
    (p.length ≤ (chunks ++ [value]).flatten.length ∧
      parseClientHello U (concatBytes (chunks ++ [value])) = parseClientHello U p) := by
  have hq : (chunks ++ [value]).flatten <+: stream := ⟨items.flatten, by rw [← hs]; simp⟩
  rcases Nat.lt_or_ge (chunks ++ [value]).flatten.length p.length with hlt | hge
  · exact .inl ⟨hlt, h.least _ hq hlt⟩
  · exact .inr ⟨hge, h.verdict hq hge⟩

/-- Chunks that do not reach the prefix leave some to come. -/
theorem Shortest.more {U : Unicode} {stream p : Bytes} (h : Shortest U stream p) {chunks items : List Bytes}
    (hs : (chunks ++ items).flatten = stream) (hc : chunks.flatten.length < p.length) : items ≠ [] := by
  rintro rfl
  have := h.isPrefix.length_le
  rw [← hs, List.append_nil] at this
  omega

theorem Completes.of_last {p value : Bytes} {chunks items : List Bytes}
    (hc : chunks.flatten.length < p.length) (hge : p.length ≤ (chunks ++ [value]).flatten.length) :
    Completes p (chunks ++ value :: items) (chunks ++ [value]) where
  isPrefix := ⟨items, by simp⟩
  reaches := hge
  last ds d hd := by
    obtain ⟨rfl, -⟩ := List.append_inj' hd rfl
    exact hc

theorem routeTcpLoop_eq {U : Unicode} {stream p : Bytes} (h : Shortest U stream p)
    (hl : p.length ≤ CLIENT_HELLO_LIMIT) {chunks items : List Bytes}
    (hs : (chunks ++ items).flatten = stream) (hc : chunks.flatten.length < p.length) :
    ∃ read, Completes p (chunks ++ items) read ∧
      routeTcpLoop U chunks items = .thrownOn (parseClientHello U p) read := by
  induction items generalizing chunks with
  | nil => exact absurd rfl (h.more hs hc)
  | cons value items ih =>
    have hlimit : (concatBytes chunks).length < CLIENT_HELLO_LIMIT := Nat.lt_of_lt_of_le hc hl
    rw [routeTcpLoop, if_pos hlimit]
    rcases h.chunk hs with ⟨hlt, hparse⟩ | ⟨hge, hparse⟩
    · rw [hparse]
      simpa using ih (by simpa using hs) hlt
    · refine ⟨chunks ++ [value], .of_last hc hge, ?_⟩
      rw [hparse]
      cases hv : parseClientHello U p with
      | incomplete => exact absurd hv h.decisive
      | invalid reason => rfl
      | complete hello => rfl

theorem connectLoop_eq {U : Unicode} {stream p : Bytes} (h : Shortest U stream p)
    (hl : p.length ≤ CLIENT_HELLO_LIMIT) {initial items : List Bytes}
    (hs : (initial ++ items).flatten = stream) (hc : initial.flatten.length < p.length) :
    ∃ read, Completes p (initial ++ items) read ∧
      connectLoop U initial items = .leftOn (parseClientHello U p) read := by
  induction items generalizing initial with
  | nil => exact absurd rfl (h.more hs hc)
  | cons value items ih =>
    have hlimit : (concatBytes initial).length < 64 * 1024 := Nat.lt_of_lt_of_le hc hl
    rw [connectLoop, if_pos hlimit]
    rcases h.chunk hs with ⟨hlt, hparse⟩ | ⟨hge, hparse⟩
    · rw [hparse]
      simpa using ih (by simpa using hs) hlt
    · refine ⟨initial ++ [value], .of_last hc hge, ?_⟩
      rw [hparse]
      cases hv : parseClientHello U p with
      | incomplete => exact absurd hv h.decisive
      | invalid reason => rfl
      | complete hello => rfl

theorem Shortest.ne_nil {U : Unicode} {stream p : Bytes} (h : Shortest U stream p) :
    ([] : Bytes).length < p.length := by
  cases p with
  | nil => exact absurd rfl h.decisive
  | cons b bs => exact Nat.succ_pos _

/-- Routing depends on the stream alone: whatever its chunks, both loops stop
with the verdict of the shortest decisive prefix. -/
theorem chunking (U : Unicode) :
    (∀ p s, parseClientHello U p ≠ .incomplete → parseClientHello U (p ++ s) = parseClientHello U p) ∧
    ∀ stream p, Shortest U stream p → p.length ≤ CLIENT_HELLO_LIMIT →
      ∀ chunks chunks' : List Bytes, chunks.flatten = stream → chunks'.flatten = stream →
        ∃ read read', Completes p chunks read ∧ Completes p chunks' read' ∧
          routeTcpLoop U [] chunks = .thrownOn (parseClientHello U p) read ∧
          connectLoop U [] chunks' = .leftOn (parseClientHello U p) read' := by
  refine ⟨fun p s h => parseClientHello_append h s, fun stream p h hl chunks chunks' hs hs' => ?_⟩
  have hs : ([] ++ chunks).flatten = stream := hs
  have hs' : ([] ++ chunks').flatten = stream := hs'
  obtain ⟨read, hread, hw⟩ := routeTcpLoop_eq h hl hs h.ne_nil
  obtain ⟨read', hread', ho⟩ := connectLoop_eq h hl hs' h.ne_nil
  exact ⟨read, read', hread, hread', hw, ho⟩

/-- A ClientHello for `A.b` in two records, the first one of two bytes. -/
def splitHello : Bytes :=
  [22, 3, 1, 0, 2, 1, 0, 22, 3, 1, 0, 57, 0, 55, 3, 3] ++ List.replicate 32 0 ++
    [0, 0, 2, 19, 1, 1, 0, 0, 12, 0, 0, 0, 8, 0, 6, 0, 0, 3, 65, 46, 98]

theorem shortest_splitHello : Shortest plainUnicode (splitHello ++ [23]) splitHello where
  isPrefix := ⟨[23], rfl⟩
  decisive := by decide
  least q hq hlen := by
    have all : ∀ k < splitHello.length,
        parseClientHello plainUnicode ((splitHello ++ [23]).take k) = .incomplete := by decide
    rw [List.prefix_iff_eq_take.mp hq]
    exact all q.length hlen

theorem chunking_splitHello :
    ∃ read read', Completes splitHello [splitHello.take 3, splitHello.drop 3 ++ [23]] read ∧
      Completes splitHello [splitHello, [23]] read' ∧
      routeTcpLoop plainUnicode [] [splitHello.take 3, splitHello.drop 3 ++ [23]] =
        .left (some "a.b") "" read ∧
      connectLoop plainUnicode [] [splitHello, [23]] = .left (some "a.b") "" read' := by
  have hv : parseClientHello plainUnicode splitHello = .complete ⟨"a.b", ""⟩ := by decide
  obtain ⟨read, read', h⟩ := (chunking plainUnicode).2 _ _ shortest_splitHello (by decide)
    [splitHello.take 3, splitHello.drop 3 ++ [23]] [splitHello, [23]] (by decide) (by decide)
  rw [hv] at h
  exact ⟨read, read', h⟩

end ShuvTunnel
