/-
# Reading the ClientHello

`tls-client-hello.ts`: `parseClientHello` joins the fragments of the TLS
handshake records it is given until the handshake message is whole, and reads
the server name and the ALPN protocol from it. The Worker (`routeTcp`) and the
object (`connect`) both call it on all they have read so far, again after
every chunk.

An offset past the end of the data reads as 0, as `undefined` does under a
shift; the guards keep every offset inside.

Key definitions: `parseClientHello`, `routeTcpLoop`, `connectLoop`.
-/
import ShuvTunnel.Text

namespace ShuvTunnel

/-- What the object reads of a ClientHello. -/
structure ClientHello where
  serverName : String
  alpn : String
  deriving DecidableEq

/-- What `parseClientHello` returns. -/
inductive ClientHelloResult
  | incomplete
  | invalid (reason : String)
  | complete (value : ClientHello)
  deriving DecidableEq

/-- `data[offset]`, which is only asked for within the array. -/
def byteAt (data : Bytes) (offset : ℕ) : ℕ := (data.getD offset 0).toNat

/-- `(data[offset] << 8) | data[offset + 1]`. -/
def uint16 (data : Bytes) (offset : ℕ) : ℕ := byteAt data offset <<< 8 ||| byteAt data (offset + 1)

/-- `data.subarray(start, end)`. -/
def subarray (data : Bytes) (start stop : ℕ) : Bytes := (data.drop start).take (stop - start)

/-- `concatBytes(chunks, length)`, where `length` is that of all chunks. -/
def concatBytes (chunks : List Bytes) : Bytes := chunks.flatten

/-! ### The records -/

/-- How the loop over the records ends: it returns, or it leaves what it has
joined and the length of the handshake message, once that is known. -/
inductive Records
  | returned (result : ClientHelloResult)
  | ended (handshake : Bytes) (handshakeLength : Option ℕ)

/-- `(handshake[1] << 16) | (handshake[2] << 8) | handshake[3]`. -/
def messageLength (handshake : Bytes) : ℕ :=
  byteAt handshake 1 <<< 16 ||| byteAt handshake 2 <<< 8 ||| byteAt handshake 3

/-- One turn of the loop over the records: it stops, or goes on behind the
record. -/
inductive Turn
  | stop (records : Records)
  | go (recordOffset : ℕ) (handshake : Bytes) (handshakeLength : Option ℕ)

/-- One turn of the loop over the records: it stops with a result, or goes on
behind a record with the handshake bytes so far. -/
def recordTurn (data : Bytes) (recordOffset : ℕ) (handshake : Bytes) (handshakeLength : Option ℕ) : Turn :=
  if recordOffset < data.length then
    if data.length - recordOffset < 5 then .stop (.returned .incomplete)
    else if byteAt data recordOffset ≠ 0x16 then
      .stop (.returned (.invalid "expected TLS handshake record"))
    else
      let recordLength := uint16 data (recordOffset + 3)
      if data.length - recordOffset - 5 < recordLength then .stop (.returned .incomplete)
      else
        let start := recordOffset + 5
        let handshake := handshake ++ subarray data start (start + recordLength)
        let recordOffset := start + recordLength
        if 4 ≤ handshake.length then
          if byteAt handshake 0 ≠ 0x01 then .stop (.returned (.invalid "expected TLS ClientHello"))
          else
            -- `??=`
            let length := handshakeLength.getD (messageLength handshake)
            if length + 4 ≤ handshake.length then .stop (.ended handshake (some length))
            else .go recordOffset handshake (some length)
        else .go recordOffset handshake handshakeLength
  else .stop (.ended handshake handshakeLength)

/-- The loop over the records. A record takes at least five bytes, so as many
turns as there are bytes are enough. -/
def readRecords (data : Bytes) : ℕ → ℕ → Bytes → Option ℕ → Records
  | 0, _, handshake, handshakeLength => .ended handshake handshakeLength
  | turns + 1, recordOffset, handshake, handshakeLength =>
    match recordTurn data recordOffset handshake handshakeLength with
    | .stop records => records
    | .go recordOffset handshake handshakeLength =>
      readRecords data turns recordOffset handshake handshakeLength

/-! ### The message -/

/-- The loop over the entries of a `server_name` extension: the first one of
type 0. An entry takes at least three bytes. -/
def readNames (hello : Bytes) (listEnd : ℕ) : ℕ → ℕ → Option Bytes
  | 0, _ => none
  | turns + 1, nameOffset =>
    if nameOffset + 3 ≤ listEnd then
      let nameType := byteAt hello nameOffset
      let nameLength := uint16 hello (nameOffset + 1)
      let nameOffset := nameOffset + 3
      if nameOffset + nameLength > listEnd then none
      else if nameType = 0 then some (subarray hello nameOffset (nameOffset + nameLength))
      else readNames hello listEnd turns (nameOffset + nameLength)
    else none

/-- The first protocol of an ALPN extension. -/
def readAlpn (hello : Bytes) (offset stop : ℕ) : Option Bytes :=
  let listEnd := min stop (offset + 2 + uint16 hello offset)
  let protocolLength := byteAt hello (offset + 2)
  if offset + 3 + protocolLength ≤ listEnd then
    some (subarray hello (offset + 3) (offset + 3 + protocolLength))
  else none

/-- What an extension that ends at `stop` says. -/
def readExtension (hello : Bytes) (type offset stop : ℕ) (value : ClientHello) : ClientHello :=
  if type = 0 ∧ 5 ≤ stop - offset then
    let listEnd := min stop (offset + 2 + uint16 hello offset)
    match readNames hello listEnd hello.length (offset + 2) with
    | some name => { value with serverName := TextDecoder.decode name }
    | none => value
  else if type = 16 ∧ 3 ≤ stop - offset then
    match readAlpn hello offset stop with
    | some protocol => { value with alpn := TextDecoder.decode protocol }
    | none => value
  else value

/-- The loop over the extensions; `none` when one is truncated. An extension
takes at least four bytes. -/
def readExtensions (hello : Bytes) (extensionsEnd : ℕ) : ℕ → ℕ → ClientHello → Option ClientHello
  | 0, _, value => some value
  | turns + 1, offset, value =>
    if offset + 4 ≤ extensionsEnd then
      let type := uint16 hello offset
      let length := uint16 hello (offset + 2)
      let offset := offset + 4
      let stop := offset + length
      if stop > extensionsEnd then none
      else readExtensions hello extensionsEnd turns stop (readExtension hello type offset stop value)
    else some value

/-- The handshake message, without its header. -/
def parseHello (U : Unicode) (hello : Bytes) : ClientHelloResult :=
  if hello.length < 35 then .invalid "truncated ClientHello"
  else
    let offset := 2 + 32
    let offset := offset + 1 + byteAt hello offset
    if offset + 2 > hello.length then .invalid "invalid session"
    else
      let offset := offset + 2 + uint16 hello offset
      if offset ≥ hello.length then .invalid "invalid cipher suites"
      else
        let offset := offset + 1 + byteAt hello offset
        if offset = hello.length then .invalid "ClientHello has no SNI"
        else if offset + 2 > hello.length then .invalid "invalid extensions"
        else
          let extensionsEnd := offset + 2 + uint16 hello offset
          if extensionsEnd > hello.length then .invalid "truncated extensions"
          else match readExtensions hello extensionsEnd hello.length (offset + 2) ⟨"", ""⟩ with
            | none => .invalid "truncated extension"
            | some value =>
              if value.serverName = "" then .invalid "ClientHello has no SNI"
              else .complete { value with serverName := toLowerCase U value.serverName }

/-- `parseClientHello`: the records are joined up to the length of the handshake,
and the hello is read from them. -/
def parseClientHello (U : Unicode) (data : Bytes) : ClientHelloResult :=
  match readRecords data data.length 0 [] none with
  | .returned result => result
  | .ended _ none => .incomplete
  | .ended handshake (some length) =>
    if handshake.length < length + 4 then .incomplete
    else parseHello U ((handshake.drop 4).take length)

/-! ### The two loops -/

/-- More than this is not read before the hello is complete. -/
def CLIENT_HELLO_LIMIT : ℕ := 64 * 1024

/-- How a loop that reads a ClientHello stops: an error is thrown, or it is
left with the server name and the ALPN, when they were found, and the chunks
read. -/
inductive Stop
  | thrown (message : String)
  | left (sni : Option String) (alpn : String) (chunks : List Bytes)
  deriving DecidableEq

/-- The loop of `routeTcp`, on the chunks read and those to come. -/
def routeTcpLoop (U : Unicode) : List Bytes → List Bytes → Stop
  | chunks, [] =>
    if (concatBytes chunks).length < CLIENT_HELLO_LIMIT then .thrown "Connection closed before ClientHello"
    else .left none "" chunks
  | chunks, value :: items =>
    if (concatBytes chunks).length < CLIENT_HELLO_LIMIT then
      match parseClientHello U (concatBytes (chunks ++ [value])) with
      | .invalid reason => .thrown reason
      | .complete hello => .left (some hello.serverName) hello.alpn (chunks ++ [value])
      | .incomplete => routeTcpLoop U (chunks ++ [value]) items
    else .left none "" chunks

/-- The loop of `connect`, on the chunks read and those to come. -/
def connectLoop (U : Unicode) : List Bytes → List Bytes → Stop
  | initial, [] => .left none "" initial
  | initial, value :: items =>
    if (concatBytes initial).length < 64 * 1024 then
      match parseClientHello U (concatBytes (initial ++ [value])) with
      | .invalid _ => .left none "" (initial ++ [value])
      | .complete hello => .left (some hello.serverName) hello.alpn (initial ++ [value])
      | .incomplete => connectLoop U (initial ++ [value]) items
    else .left none "" initial

end ShuvTunnel
