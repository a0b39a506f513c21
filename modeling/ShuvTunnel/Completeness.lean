/-
# Every ClientHello is read

An abstract ClientHello, written as TLS writes it and cut into handshake
records in any way, is read back by `parseClientHello`: its host name in lower
case, and the first of its protocols. The encoder is ours (the repository only
reads); each length that must fit its field is a field of the structure that
holds the data.

Key definitions: `Extension`, `HelloMessage`, `HandshakeRecord`.
Key theorems: `readRecords_records`, `readExtension_eq`, `parseHello_body`,
`parseClientHello_records`.
-/
import ShuvTunnel.ClientHello
import ShuvTunnel.Lib.Wire

namespace ShuvTunnel

open Wire

/-! ### The encoding -/

/-- An entry of a `server_name` list. -/
structure NameEntry where
  nameType : UInt8
  name : Bytes
  fits : name.length < 2 ^ 16

/-- An entry of the list of names. -/
def NameEntry.encode (e : NameEntry) : Bytes := e.nameType :: (be 2 e.name.length ++ e.name)

/-- The entries, one after the other. -/
def encodeNames (entries : List NameEntry) : Bytes := (entries.map NameEntry.encode).flatten

/-- The entries of a `server_name` extension: the host name, after entries of
other types. -/
structure ServerNames where
  before : List NameEntry
  host : Bytes
  after : List NameEntry
  others : ∀ e ∈ before, e.nameType ≠ 0
  nonempty : host ≠ []
  ascii : ∀ b ∈ host, asciiByte b = true
  fits : host.length < 2 ^ 16

/-- The entry of the host name. -/
def ServerNames.hostEntry (names : ServerNames) : NameEntry := ⟨0, names.host, names.fits⟩

/-- The list with its host name. -/
def ServerNames.list (names : ServerNames) : Bytes :=
  encodeNames names.before ++ (names.hostEntry.encode ++ encodeNames names.after)

/-- A protocol of an ALPN list. -/
structure ProtocolName where
  name : Bytes
  nonempty : 0 < name.length
  fits : name.length < 2 ^ 8

/-- A protocol name with its length. -/
def ProtocolName.encode (p : ProtocolName) : Bytes := UInt8.ofNat p.name.length :: p.name

/-- An extension of another type than the two that are read. -/
structure OtherExtension where
  type : ℕ
  data : Bytes
  fits : type < 2 ^ 16
  not_server_name : type ≠ 0
  not_alpn : type ≠ 16

/-- An extension: the two that are read, or any other. -/
inductive Extension
  | serverName (names : ServerNames)
  | alpn (first : ProtocolName) (rest : List ProtocolName)
  | other (extension : OtherExtension)

namespace Extension

/-- The number of the extension's type. -/
def type : Extension → ℕ
  | serverName _ => 0
  | alpn _ _ => 16
  | other extension => extension.type

/-- A list behind its length. -/
def listed (list : Bytes) : Bytes := be 2 list.length ++ list

/-- The contents of the extension. -/
def data : Extension → Bytes
  | serverName names => listed names.list
  | alpn first rest => listed (first.encode ++ (rest.map ProtocolName.encode).flatten)
  | other extension => extension.data

/-- The extension with its type and its length. -/
def encode (e : Extension) : Bytes := be 2 e.type ++ (be 2 e.data.length ++ e.data)

/-- The host name it carries. -/
def hosts : Extension → List Bytes
  | serverName names => [names.host]
  | _ => []

/-- The protocol it asks for first. -/
def protocols : Extension → List Bytes
  | alpn first _ => [first.name]
  | _ => []

end Extension

/-- The extensions, one after the other. -/
def encodeExtensions (extensions : List Extension) : Bytes := (extensions.map Extension.encode).flatten

/-- A ClientHello with one `server_name` extension and at most one ALPN
extension. -/
structure HelloMessage where
  version : Bytes
  random : Bytes
  sessionID : Bytes
  cipherSuites : Bytes
  compressionMethods : Bytes
  extensions : List Extension
  host : Bytes
  alpn : Option Bytes
  version_length : version.length = 2
  random_length : random.length = 32
  sessionID_fits : sessionID.length < 2 ^ 8
  cipherSuites_fits : cipherSuites.length < 2 ^ 16
  compressionMethods_fits : compressionMethods.length < 2 ^ 8
  extensions_fits : (encodeExtensions extensions).length < 2 ^ 16
  one_host : extensions.flatMap Extension.hosts = [host]
  one_alpn : extensions.flatMap Extension.protocols = alpn.toList

namespace HelloMessage

/-- The body of the hello, with the lengths of its parts. -/
def body (h : HelloMessage) : Bytes :=
  h.version ++ (h.random ++ (UInt8.ofNat h.sessionID.length :: (h.sessionID ++
    (be 2 h.cipherSuites.length ++ (h.cipherSuites ++
      (UInt8.ofNat h.compressionMethods.length :: (h.compressionMethods ++
        (be 2 (encodeExtensions h.extensions).length ++ encodeExtensions h.extensions))))))))

/-- The handshake message. -/
def handshake (h : HelloMessage) : Bytes := 1 :: (be 3 h.body.length ++ h.body)

end HelloMessage

/-- A TLS handshake record. -/
structure HandshakeRecord where
  version : Bytes
  fragment : Bytes
  version_length : version.length = 2
  fits : fragment.length < 2 ^ 16

/-- A handshake record with its header. -/
def HandshakeRecord.encode (r : HandshakeRecord) : Bytes :=
  0x16 :: (r.version ++ (be 2 r.fragment.length ++ r.fragment))

/-- The records, one after the other. -/
def encodeRecords (records : List HandshakeRecord) : Bytes := (records.map HandshakeRecord.encode).flatten

/-- What the records carry. -/
def fragments (records : List HandshakeRecord) : Bytes := (records.map HandshakeRecord.fragment).flatten

/-! ### Reading what is written -/

theorem byteAt_cursor {data rest : Bytes} {i : ℕ} {b : UInt8} (h : Cursor data i (b :: rest)) :
    byteAt data i = b.toNat := by
  unfold byteAt
  rw [h.get]

theorem toNat_ofNat_of_lt {n : ℕ} (h : n < 2 ^ 8) : (UInt8.ofNat n).toNat = n := by
  simp only [UInt8.toNat_ofNat']
  omega

/-- Two shifted bytes are a number. -/
theorem uint16_cursor {data rest : Bytes} {i x : ℕ} (h : Cursor data i (be 2 x ++ rest)) (hx : x < 2 ^ 16) :
    uint16 data i = x := by
  have h0 : byteAt data i = x / 256 := by
    rw [byteAt_cursor h]
    simp only [UInt8.toNat_ofNat']
    omega
  have h1 : byteAt data (i + 1) = x % 256 := by
    rw [byteAt_cursor h.next]
    simp
  unfold uint16
  rw [h0, h1, ← Nat.shiftLeft_add_eq_or_of_lt (by omega), Nat.shiftLeft_eq]
  omega

theorem subarray_cursor {data a rest : Bytes} {i n : ℕ} (h : Cursor data i (a ++ rest)) (hn : a.length = n) :
    subarray data i (i + n) = a := by
  unfold subarray
  rw [Nat.add_sub_cancel_left, h.slice hn]

/-- The length of the message, from its first four bytes. -/
theorem messageLength_eq {n : ℕ} {first : UInt8} {rest : Bytes} (hn : n < 2 ^ 24) :
    messageLength (first :: (be 3 n ++ rest)) = n := by
  have h := (Cursor.start (first :: (be 3 n ++ rest))).next
  have h1 : byteAt (first :: (be 3 n ++ rest)) 1 = n / 65536 := by
    rw [byteAt_cursor h]
    simp only [UInt8.toNat_ofNat']
    omega
  have h2 : byteAt (first :: (be 3 n ++ rest)) 2 = n / 256 % 256 := by
    rw [byteAt_cursor h.next]
    simp
  have h3 : byteAt (first :: (be 3 n ++ rest)) 3 = n % 256 := by
    rw [byteAt_cursor h.next.next]
    simp
  have hlow : n % 256 < 2 ^ 8 := Nat.mod_lt _ (by decide)
  have hmid : (n / 256 % 256) <<< 8 + n % 256 < 2 ^ 16 := by
    rw [Nat.shiftLeft_eq]
    omega
  unfold messageLength
  rw [h1, h2, h3, Nat.or_assoc, ← Nat.shiftLeft_add_eq_or_of_lt hlow,
    ← Nat.shiftLeft_add_eq_or_of_lt hmid, Nat.shiftLeft_eq, Nat.shiftLeft_eq]
  omega

/-! ### The records -/

/-- A turn at a record joins its fragment. -/
theorem recordTurn_record {data rest : Bytes} {offset : ℕ} {handshake : Bytes} {handshakeLength : Option ℕ}
    {r : HandshakeRecord} (h : Cursor data offset (r.encode ++ rest)) :
    recordTurn data offset handshake handshakeLength =
      if 4 ≤ (handshake ++ r.fragment).length then
        if byteAt (handshake ++ r.fragment) 0 ≠ 0x01 then
          .stop (.returned (.invalid "expected TLS ClientHello"))
        else if handshakeLength.getD (messageLength (handshake ++ r.fragment)) + 4 ≤
            (handshake ++ r.fragment).length then
          .stop (.ended (handshake ++ r.fragment)
            (some (handshakeLength.getD (messageLength (handshake ++ r.fragment)))))
        else
          .go (offset + 5 + r.fragment.length) (handshake ++ r.fragment)
            (some (handshakeLength.getD (messageLength (handshake ++ r.fragment))))
      else .go (offset + 5 + r.fragment.length) (handshake ++ r.fragment) handshakeLength := by
  have hcur : Cursor data offset (0x16 :: (r.version ++ (be 2 r.fragment.length ++ (r.fragment ++ rest)))) := by
    simpa [HandshakeRecord.encode] using h
  have hlen : data.length = offset + (5 + r.fragment.length + rest.length) := by
    have := hcur.length
    simp only [List.length_cons, List.length_append, length_be, r.version_length] at this
    omega
  have htype : byteAt data offset = 0x16 := byteAt_cursor hcur
  have hafter : Cursor data (offset + 3) (be 2 r.fragment.length ++ (r.fragment ++ rest)) :=
    hcur.next.advance r.version_length
  have hsize : uint16 data (offset + 3) = r.fragment.length := uint16_cursor hafter r.fits
  have hfragment : subarray data (offset + 5) (offset + 5 + r.fragment.length) = r.fragment :=
    subarray_cursor (hafter.advance (length_be _ _)) rfl
  unfold recordTurn
  rw [if_pos (by omega), if_neg (by omega), if_neg (by rw [htype]; decide)]
  simp only [hsize, hfragment]
  rw [if_neg (by omega)]

/-- The first bytes of a message tell its type and its length. -/
theorem HelloMessage.header {h : HelloMessage} (hn : h.body.length < 2 ^ 24) {joined : Bytes}
    (hp : joined <+: h.handshake) (h4 : 4 ≤ joined.length) :
    byteAt joined 0 = 1 ∧ messageLength joined = h.body.length := by
  obtain ⟨t, ht⟩ : ∃ t, joined = 1 :: (be 3 h.body.length ++ t) := by
    have hpre : 1 :: be 3 h.body.length <+: joined :=
      List.prefix_of_prefix_length_le ⟨h.body, rfl⟩ hp (by simpa using h4)
    obtain ⟨t, ht⟩ := hpre
    exact ⟨t, by rw [← ht]; simp⟩
  rw [ht]
  exact ⟨byteAt_cursor (Cursor.start _), messageLength_eq hn⟩

/-- The loop over the records joins the whole message, however it is cut. -/
theorem readRecords_records {h : HelloMessage} (hn : h.body.length < 2 ^ 24) {data trailing : Bytes}
    {records : List HandshakeRecord} {turns offset : ℕ} {handshake : Bytes} {handshakeLength : Option ℕ}
    (hcur : Cursor data offset (encodeRecords records ++ trailing))
    (hjoin : handshake ++ fragments records = h.handshake)
    (hu : handshake.length < h.handshake.length)
    (hl : ∀ n, handshakeLength = some n → n = h.body.length) (ht : records.length ≤ turns) :
    readRecords data turns offset handshake handshakeLength = .ended h.handshake (some h.body.length) := by
  induction records generalizing turns offset handshake handshakeLength with
  | nil =>
    simp only [fragments, List.map_nil, List.flatten_nil, List.append_nil] at hjoin
    rw [hjoin] at hu
    omega
  | cons r rs ih =>
    obtain ⟨turns, rfl⟩ : ∃ t, turns = t + 1 := ⟨turns - 1, by simp at ht; omega⟩
    have hcur' : Cursor data offset (r.encode ++ (encodeRecords rs ++ trailing)) := by
      simpa [encodeRecords] using hcur
    have hnext : Cursor data (offset + 5 + r.fragment.length) (encodeRecords rs ++ trailing) := by
      have := hcur'.advance (n := 5 + r.fragment.length)
        (by simp [HandshakeRecord.encode, r.version_length]; omega)
      rwa [← Nat.add_assoc] at this
    have hjoin' : (handshake ++ r.fragment) ++ fragments rs = h.handshake := by
      rw [← hjoin]
      simp [fragments]
    have hp : handshake ++ r.fragment <+: h.handshake := ⟨_, hjoin'⟩
    have htotal : h.handshake.length = h.body.length + 4 := by
      simp [HelloMessage.handshake]
      omega
    have hlength : 4 ≤ (handshake ++ r.fragment).length →
        handshakeLength.getD (messageLength (handshake ++ r.fragment)) = h.body.length := by
      intro h4
      cases handshakeLength with
      | none => exact (HelloMessage.header hn hp h4).2
      | some n => exact hl n rfl
    rw [readRecords, recordTurn_record hcur']
    by_cases h4 : 4 ≤ (handshake ++ r.fragment).length
    · rw [if_pos h4, if_neg (by rw [(HelloMessage.header hn hp h4).1]; decide), hlength h4]
      by_cases hwhole : h.body.length + 4 ≤ (handshake ++ r.fragment).length
      · -- the message is whole, and no record of it is left
        rw [if_pos hwhole, hp.eq_of_length_le (by omega)]
      · rw [if_neg hwhole]
        exact ih hnext hjoin' (by omega) (fun n hn => (Option.some.inj hn).symm) (by simpa using ht)
    · rw [if_neg h4]
      exact ih hnext hjoin' (by omega) hl (by simpa using ht)

/-! ### The message -/

/-- The loop over the names passes the entries of other types. -/
theorem readNames_entries {hello rest : Bytes} {names : ServerNames} {before : List NameEntry}
    {listEnd turns offset : ℕ} (hothers : ∀ e ∈ before, e.nameType ≠ 0)
    (hcur : Cursor hello offset (encodeNames before ++ (names.hostEntry.encode ++ rest)))
    (hend : offset + (encodeNames before).length + names.hostEntry.encode.length ≤ listEnd)
    (ht : before.length < turns) :
    readNames hello listEnd turns offset = some names.host := by
  induction before generalizing turns offset with
  | nil =>
    obtain ⟨turns, rfl⟩ : ∃ t, turns = t + 1 := ⟨turns - 1, by omega⟩
    have hcur' : Cursor hello offset (0 :: (be 2 names.host.length ++ (names.host ++ rest))) := by
      simpa [encodeNames, NameEntry.encode, ServerNames.hostEntry] using hcur
    have hlen : uint16 hello (offset + 1) = names.host.length := uint16_cursor hcur'.next names.fits
    have hname : subarray hello (offset + 3) (offset + 3 + names.host.length) = names.host :=
      subarray_cursor (hcur'.next.advance (length_be _ _)) rfl
    simp only [encodeNames, List.map_nil, List.flatten_nil, List.length_nil, NameEntry.encode,
      ServerNames.hostEntry, List.length_cons, List.length_append, length_be] at hend
    simp only [readNames, hlen]
    rw [if_pos (by omega), if_neg (by omega), if_pos (by rw [byteAt_cursor hcur']; rfl), hname]
  | cons e es ih =>
    obtain ⟨turns, rfl⟩ : ∃ t, turns = t + 1 := ⟨turns - 1, by simp at ht; omega⟩
    have hcur' : Cursor hello offset (e.nameType :: (be 2 e.name.length ++
        (e.name ++ (encodeNames es ++ (names.hostEntry.encode ++ rest))))) := by
      simpa [encodeNames, NameEntry.encode] using hcur
    have hlen : uint16 hello (offset + 1) = e.name.length := uint16_cursor hcur'.next e.fits
    have hnext : Cursor hello (offset + 3 + e.name.length)
        (encodeNames es ++ (names.hostEntry.encode ++ rest)) :=
      (hcur'.next.advance (length_be _ _)).advance rfl
    have htype : byteAt hello offset ≠ 0 := by
      rw [byteAt_cursor hcur']
      exact fun h0 => hothers e List.mem_cons_self (UInt8.toNat_inj.mp h0)
    have hsplit : (encodeNames (e :: es)).length = 3 + e.name.length + (encodeNames es).length := by
      simp only [encodeNames, List.map_cons, List.flatten_cons, List.length_append, NameEntry.encode,
        List.length_cons, length_be]
      omega
    rw [hsplit] at hend
    simp only [readNames, hlen]
    rw [if_pos (by omega), if_neg (by omega), if_neg htype]
    exact ih (fun e he => hothers e (List.mem_cons_of_mem _ he)) hnext (by omega) (by simpa using ht)

/-- What an extension adds to what is known of the ClientHello. -/
def Extension.read : Extension → ClientHello → ClientHello
  | .serverName names, value => { value with serverName := TextDecoder.decode names.host }
  | .alpn first _, value => { value with alpn := TextDecoder.decode first.name }
  | .other _, value => value

/-- An extension is read as what it says. -/
theorem readExtension_eq {hello rest : Bytes} {e : Extension} {offset : ℕ} {value : ClientHello}
    (hcur : Cursor hello offset (e.data ++ rest)) (hfits : e.data.length < 2 ^ 16) :
    readExtension hello e.type offset (offset + e.data.length) value = e.read value := by
  cases e with
  | serverName names =>
    simp only [Extension.data, Extension.listed, Extension.type, List.length_append, length_be] at hcur hfits ⊢
    rw [List.append_assoc] at hcur
    have hlen : uint16 hello offset = names.list.length := uint16_cursor hcur (by omega)
    have hlist : names.list.length =
        (encodeNames names.before).length + (names.hostEntry.encode.length +
          (encodeNames names.after).length) := by
      simp [ServerNames.list]
    have hhost : 4 ≤ names.hostEntry.encode.length := by
      have := List.length_pos_iff.mpr names.nonempty
      simp only [NameEntry.encode, ServerNames.hostEntry, List.length_cons, List.length_append, length_be]
      omega
    have hbefore : names.before.length ≤ (encodeNames names.before).length :=
      length_le_flatten (fun e => by simp [NameEntry.encode]) _
    have htotal := hcur.length
    simp only [List.length_append, length_be] at htotal
    have hnames := (hcur.advance (length_be _ _))
    rw [ServerNames.list, List.append_assoc, List.append_assoc] at hnames
    unfold readExtension
    rw [if_pos ⟨rfl, by omega⟩]
    simp only [hlen]
    rw [readNames_entries names.others hnames (by omega) (by omega)]
    rfl
  | alpn first protocols =>
    simp only [Extension.data, Extension.listed, Extension.type, ProtocolName.encode, List.length_append,
      length_be, List.length_cons] at hcur hfits ⊢
    rw [List.append_assoc] at hcur
    have hlen := uint16_cursor hcur (by omega)
    have hfirst := hcur.advance (length_be _ _)
    rw [List.append_assoc, List.cons_append] at hfirst
    have hsize : byteAt hello (offset + 2) = first.name.length := by
      rw [byteAt_cursor hfirst, toNat_ofNat_of_lt first.fits]
    have hname : subarray hello (offset + 3) (offset + 3 + first.name.length) = first.name :=
      subarray_cursor hfirst.next rfl
    have hread : ∀ stop, offset + 3 + first.name.length ≤ min stop (offset + 2 + uint16 hello offset) →
        readAlpn hello offset stop = some first.name := by
      intro stop hstop
      unfold readAlpn
      simp only [hsize, hname]
      rw [if_pos hstop]
    unfold readExtension
    rw [if_neg (by simp), if_pos ⟨rfl, by omega⟩, hread _ (by rw [hlen]; omega)]
    rfl
  | other extension =>
    unfold readExtension
    rw [if_neg fun h => extension.not_server_name h.1, if_neg fun h => extension.not_alpn h.1]
    rfl

/-- The loop over the extensions reads them in turn. -/
theorem readExtensions_eq {hello rest : Bytes} {extensions : List Extension} {extensionsEnd turns offset : ℕ}
    (value : ClientHello) (hcur : Cursor hello offset (encodeExtensions extensions ++ rest))
    (hend : offset + (encodeExtensions extensions).length = extensionsEnd)
    (hfits : (encodeExtensions extensions).length < 2 ^ 16) (ht : extensions.length ≤ turns) :
    readExtensions hello extensionsEnd turns offset value =
      some (extensions.foldl (fun value e => e.read value) value) := by
  induction extensions generalizing turns offset value with
  | nil =>
    cases turns with
    | zero => rfl
    | succ turns =>
      simp only [encodeExtensions, List.map_nil, List.flatten_nil, List.length_nil] at hend
      rw [readExtensions, if_neg (by omega)]
      rfl
  | cons e es ih =>
    obtain ⟨turns, rfl⟩ : ∃ t, turns = t + 1 := ⟨turns - 1, by simp at ht; omega⟩
    have hsplit : (encodeExtensions (e :: es)).length = 4 + e.data.length + (encodeExtensions es).length := by
      simp only [encodeExtensions, List.map_cons, List.flatten_cons, List.length_append, Extension.encode,
        length_be]
      omega
    rw [hsplit] at hend hfits
    have hcur' : Cursor hello offset (be 2 e.type ++ (be 2 e.data.length ++
        (e.data ++ (encodeExtensions es ++ rest)))) := by
      simpa [encodeExtensions, Extension.encode] using hcur
    have htypeFits : e.type < 2 ^ 16 := by
      cases e with
      | serverName names => exact Nat.two_pow_pos 16
      | alpn first protocols => simp [Extension.type]
      | other extension => exact extension.fits
    have htype : uint16 hello offset = e.type := uint16_cursor hcur' htypeFits
    have hafter := hcur'.advance (length_be _ _)
    have hlen : uint16 hello (offset + 2) = e.data.length := uint16_cursor hafter (by omega)
    have hdata : Cursor hello (offset + 4) (e.data ++ (encodeExtensions es ++ rest)) :=
      hafter.advance (length_be _ _)
    simp only [readExtensions, htype, hlen]
    rw [if_pos (by omega), if_neg (by omega), readExtension_eq hdata (by omega)]
    exact ih _ (hdata.advance rfl) (by omega) (by omega) (by simpa using ht)

/-- Reading extensions that carry no host name leaves the one known. -/
theorem foldl_serverName (extensions : List Extension) (value : ClientHello) :
    (extensions.foldl (fun value e => e.read value) value).serverName =
      ((extensions.flatMap Extension.hosts).map TextDecoder.decode).getLastD value.serverName := by
  induction extensions generalizing value with
  | nil => rfl
  | cons e es ih =>
    rw [List.foldl_cons, ih]
    cases e with
    | serverName names => exact List.getLastD_cons.symm
    | alpn first protocols => rfl
    | other extension => rfl

theorem foldl_alpn (extensions : List Extension) (value : ClientHello) :
    (extensions.foldl (fun value e => e.read value) value).alpn =
      ((extensions.flatMap Extension.protocols).map TextDecoder.decode).getLastD value.alpn := by
  induction extensions generalizing value with
  | nil => rfl
  | cons e es ih =>
    rw [List.foldl_cons, ih]
    cases e with
    | serverName names => rfl
    | alpn first protocols => exact List.getLastD_cons.symm
    | other extension => rfl

namespace HelloMessage

variable (h : HelloMessage)

theorem length_body : h.body.length =
    40 + h.sessionID.length + h.cipherSuites.length + h.compressionMethods.length +
      (encodeExtensions h.extensions).length := by
  simp only [body, List.length_append, List.length_cons, length_be, h.version_length, h.random_length]
  omega

theorem host_mem : ∃ names : ServerNames, names.host = h.host := by
  have hmem : h.host ∈ h.extensions.flatMap Extension.hosts := by
    rw [h.one_host]
    exact List.mem_cons_self
  obtain ⟨e, -, he⟩ := List.mem_flatMap.mp hmem
  cases e with
  | serverName names => exact ⟨names, (List.mem_singleton.mp he).symm⟩
  | alpn first protocols => cases he
  | other extension => cases he

/-- The host name, as it was sent. -/
def hostName : String := String.ofList (asciiText h.host)

theorem decode_host : TextDecoder.decode h.host = h.hostName := by
  obtain ⟨names, hn⟩ := h.host_mem
  exact decode_ascii (hn ▸ names.ascii)

theorem hostName_ne_empty : h.hostName ≠ "" := by
  obtain ⟨names, hn⟩ := h.host_mem
  have hne : h.host ≠ [] := hn ▸ names.nonempty
  intro he
  have := congrArg String.toList he
  rw [hostName, String.toList_ofList] at this
  exact hne (List.map_eq_nil_iff.mp this)

theorem hostName_ascii : ∀ c ∈ h.hostName.toList, asciiChar c = true := by
  obtain ⟨names, hn⟩ := h.host_mem
  rw [hostName, String.toList_ofList]
  intro c hc
  obtain ⟨b, hb, rfl⟩ := List.mem_map.mp hc
  have hb' := names.ascii b (hn ▸ hb)
  have table : ∀ n < 128, asciiChar (Char.ofNat n) = true := by decide
  exact table b.toNat (by simpa [asciiByte] using hb')

/-- The first protocol, or the empty text. -/
def firstProtocol : String := h.alpn.elim "" TextDecoder.decode

/-- The body of the message is read back. -/
theorem parseHello_body (U : Unicode) :
    parseHello U h.body = .complete ⟨toAsciiLowercase h.hostName, h.firstProtocol⟩ := by
  have hlen := h.length_body
  have hsession : Cursor h.body 34 (UInt8.ofNat h.sessionID.length :: (h.sessionID ++
      (be 2 h.cipherSuites.length ++ (h.cipherSuites ++
        (UInt8.ofNat h.compressionMethods.length :: (h.compressionMethods ++
          (be 2 (encodeExtensions h.extensions).length ++ encodeExtensions h.extensions))))))) :=
    ((Cursor.start h.body).advance h.version_length).advance h.random_length
  have h1 : byteAt h.body (2 + 32) = h.sessionID.length := by
    rw [byteAt_cursor hsession, toNat_ofNat_of_lt h.sessionID_fits]
  have hcipher := hsession.next.advance rfl
  have h2 := uint16_cursor hcipher h.cipherSuites_fits
  have hcompression := (hcipher.advance (length_be _ _)).advance rfl
  have h3 := byteAt_cursor hcompression
  rw [toNat_ofNat_of_lt h.compressionMethods_fits] at h3
  have hsize := hcompression.next.advance rfl
  have h4 := uint16_cursor hsize h.extensions_fits
  have hextensions := hsize.advance (length_be _ _)
  rw [← List.append_nil (encodeExtensions h.extensions)] at hextensions
  have hcount : h.extensions.length ≤ (encodeExtensions h.extensions).length :=
    length_le_flatten (fun e => by simp [Extension.encode, be]) _
  have hturns : h.extensions.length ≤ h.body.length := by omega
  have hread := readExtensions_eq ⟨"", ""⟩ hextensions rfl h.extensions_fits hturns
  have hname := foldl_serverName h.extensions ⟨"", ""⟩
  have halpn := foldl_alpn h.extensions ⟨"", ""⟩
  rw [h.one_host, List.map_singleton, List.getLastD_cons, List.getLastD_nil, h.decode_host] at hname
  have hfirst : ((h.extensions.flatMap Extension.protocols).map TextDecoder.decode).getLastD "" =
      h.firstProtocol := by
    rw [h.one_alpn, firstProtocol]
    cases h.alpn <;> rfl
  unfold parseHello
  simp only [h1, h2, h3, h4]
  rw [if_neg (by omega), if_neg (by omega), if_neg (by omega), if_neg (by omega), if_neg (by omega),
    if_neg (by omega), hread]
  simp only [hname, halpn, hfirst]
  rw [if_neg h.hostName_ne_empty, toLowerCase_ascii h.hostName_ascii]

end HelloMessage

/-- A ClientHello is read, however its handshake message is cut into records
and whatever follows them. -/
theorem parseClientHello_records (U : Unicode) (h : HelloMessage) (records : List HandshakeRecord)
    (hcut : fragments records = h.handshake) (trailing : Bytes) :
    parseClientHello U (encodeRecords records ++ trailing) =
      .complete ⟨toAsciiLowercase h.hostName, h.firstProtocol⟩ := by
  have hn : h.body.length < 2 ^ 24 := by
    have := h.length_body
    have := h.sessionID_fits
    have := h.cipherSuites_fits
    have := h.compressionMethods_fits
    have := h.extensions_fits
    omega
  have hturns : records.length ≤ (encodeRecords records ++ trailing).length := by
    rw [List.length_append]
    exact Nat.le_add_right_of_le (length_le_flatten (fun r => by simp [HandshakeRecord.encode]) records)
  have hlength : h.handshake.length = h.body.length + 4 := by
    simp only [HelloMessage.handshake, List.length_cons, List.length_append, length_be]
    omega
  have hjoin : [] ++ fragments records = h.handshake := hcut
  have hunfinished : ([] : Bytes).length < h.handshake.length := by
    rw [hlength]
    exact Nat.succ_pos _
  have hrecords : readRecords (encodeRecords records ++ trailing) _ 0 [] none = _ :=
    readRecords_records hn (Cursor.start _) hjoin hunfinished (fun n hn => by cases hn) hturns
  have hbody : (h.handshake.drop 4).take h.body.length = h.body := by
    simp [HelloMessage.handshake]
  unfold parseClientHello
  rw [hrecords]
  simp only [hbody]
  rw [if_neg (by omega), h.parseHello_body]

/-- A message with a name of another type before the host name `A.b`, after an
extension that is not read. -/
def sampleMessage : HelloMessage where
  version := [3, 3]
  random := List.replicate 32 7
  sessionID := [1]
  cipherSuites := [19, 1]
  compressionMethods := [0]
  extensions := [.other ⟨10, [0], by decide, by decide, by decide⟩,
    .serverName ⟨[⟨5, [9], by decide⟩], [65, 46, 98], [], by decide, by decide, List.all_eq_true.mp (by decide), by decide⟩,
    .alpn ⟨[104, 50], by decide, by decide⟩ []]
  host := [65, 46, 98]
  alpn := some [104, 50]
  version_length := rfl
  random_length := rfl
  sessionID_fits := by decide
  cipherSuites_fits := by decide
  compressionMethods_fits := by decide
  extensions_fits := by decide
  one_host := rfl
  one_alpn := rfl

/-- Its header is cut over two records, with an empty one between them. -/
theorem parseClientHello_sample :
    parseClientHello plainUnicode
        (encodeRecords [⟨[3, 1], sampleMessage.handshake.take 3, rfl, by decide⟩, ⟨[3, 1], [], rfl, by decide⟩,
          ⟨[3, 3], sampleMessage.handshake.drop 3, rfl, by decide⟩] ++ [23, 3]) =
      .complete ⟨toAsciiLowercase sampleMessage.hostName, sampleMessage.firstProtocol⟩ :=
  parseClientHello_records plainUnicode sampleMessage _ (by decide) [23, 3]

end ShuvTunnel
