/-
# The bridge handlers of `TunnelObject`

`fetch`, `webSocketMessage`, `webSocketClose`, `webSocketError` and
`connect`. The attach message is the only one whose handler writes the
record; `connect` is the only handler that enters a channel into the map.

`connect` reads the public stream until it has parsed a ClientHello; that
loop touches nothing of the object, so it is one suspension here, answered by
what it found (`Hello`).
-/
import Mathlib.Algebra.Group.Nat.Defs
import ShuvTunnel.CertificateHandlers

namespace ShuvTunnel

open Coop

namespace Store

/-- The store with other sockets. -/
def withBridges (s : Store) (b : Bridges) : Store := { s with bridges := b }

/-! ### `fetch` -/

/-- `text.split(",").map((x) => x.trim())`, on the characters. -/
def splitTrim (text : List Char) : List (List Char) :=
  let trimLeft := fun cs : List Char => cs.dropWhile Char.isWhitespace
  (text.splitOn ',').map fun cs => (trimLeft (trimLeft cs).reverse).reverse

/-- A new socket, at the place `position` of the list. -/
def acceptWebSocket (b : Bridges) (position : ℕ) : Bridges :=
  let server : Socket :=
    { id := b.nextSocket, readyState := .OPEN, sent := [], closeHandled := false,
      attachment := some { attached := false, session := none, routes := none } }
  { b with sockets := b.sockets.take position ++ server :: b.sockets.drop position,
           nextSocket := b.nextSocket + 1 }

/-- `fetch` with the headers `upgrade` and `sec-websocket-protocol`. -/
def fetch (s : Store) (upgrade protocols : Option String) (position : ℕ) : Segment :=
  match s.durable.live with
  | none => (s, .done (.response 404))
  | some _ =>
    if upgrade.map (fun x => x.toList.map Char.toLower) ≠ some "websocket".toList then
      (s, .done (.response 426))
    else if !protocols.any fun x => (splitTrim x.toList).contains "shuvtunnel".toList then
      (s, .done (.response 426))
    else (s.withBridges (acceptWebSocket s.bridges position), .done (.response 101))

/-! ### The attach message -/

/-- `socket.close(code, reason)` is the handler's last step. -/
def closing (s : Store) (socket : ℕ) : Segment :=
  (s.withBridges (s.bridges.close socket), .done .void)

/-- The socket is told why it cannot attach, and closed. -/
def attachError (P : Platform) (s : Store) (socket : ℕ) (code : String) : Segment :=
  match s.bridges.send P socket (.attachError code) with
  | none => (s, .done (.thrown "send"))
  | some b => (s.withBridges b).closing socket

/-- The `routes` of an attach message; what is no string is dropped, and without a
list it is the root route. -/
def requestedRoutes : Option Json → List String
  | some (.arr xs) => setOf (xs.filterMap Json.string?)
  | _ => ["@"]

/-- Another open, attached socket holds one of the routes. -/
def routeConflict (b : Bridges) (socket : ℕ) (routes : List String) : Bool :=
  b.sockets.any fun w => w.id ≠ socket && w.isOpen && w.attached && w.routes.any routes.contains

/-- The record read before the token was hashed decides; the sockets are
those of now. -/
def attachHashed (P : Platform) (s : Store) (socket : ℕ) (token : String) (routes : Option Json)
    (record : StoredTunnel) (uuid session : String) : Option Segment :=
  if P.hashToken token ≠ record.tokenHash then some (s.attachError P socket "bad_token")
  else if !record.ready then some (s.attachError P socket "cert_not_ready")
  else
    let requested := requestedRoutes routes
    if requested.isEmpty || requested.any fun r => !validRoute r then
      some (s.attachError P socket "invalid_route")
    else if routeConflict s.bridges socket requested then
      some (s.attachError P socket "route_conflict")
    else
      let session := "sess_" ++ session
      let b := s.bridges.serializeAttachment socket
        { attached := true, session := some session, routes := some requested }
      let connected := { record with state := .online, lastConnectedAt := some s.durable.now }
      let s := (s.withBridges b).save connected
      match s.bridges.send P socket (.attached session requested HEARTBEAT_MS IDLE_TIMEOUT_MS) with
      | none => some (s, .done (.thrown "send"))
      | some b => (s.withBridges b).onAttached connected uuid

/-- The attach handler reads the record. -/
def attachRead (P : Platform) (s : Store) (socket : ℕ) (token : String) (routes : Option Json) : Segment :=
  match s.durable.live with
  | none => s.attachError P socket "bad_token"
  | some record => (s, .await (.attachHash socket token routes record))

/-! ### The other messages -/

/-- A control message on a socket that is not attached. -/
def unattachedControl (s : Store) (socket : ℕ) (type : String) (control : Json) : Segment :=
  match (control.field "token").bind Json.string? with
  | some token =>
    if type ≠ "attach" then s.closing socket
    else (s, .await (.attachRecord socket token (control.field "routes")))
  | none => s.closing socket

/-- The key of the channel a JSON number names, when this socket is its bridge. -/
def ownChannel (b : Bridges) (socket : ℕ) (conn : ℚ) : Option ℕ :=
  ((b.channels.find? fun p => (p.1 : ℚ) = conn).bind fun p => b.connection p.2).bind fun c =>
    if c.bridge = socket then some c.key else none

/-- A control message on an attached socket. -/
def attachedControl (P : Platform) (s : Store) (socket : ℕ) (type : String) (control : Json) : Segment :=
  match type, (control.field "time_sent").bind Json.number?, (control.field "conn").bind Json.number? with
  | "ping", some time_sent, _ =>
    match s.bridges.send P socket (.pong time_sent) with
    | none => (s, .done (.thrown "send"))
    | some b => (s.withBridges b, .done .void)
  | "end", _, some conn =>
    match ownChannel s.bridges socket conn with
    | some key => (s.withBridges (s.bridges.finish key false), .done .void)
    | none => (s, .done .void)
  | "reset", _, some conn =>
    match ownChannel s.bridges socket conn with
    | some key => (s.withBridges (s.bridges.finish key true), .done .void)
    | none => (s, .done .void)
  | _, _, _ => (s, .done .void)

/-- A data frame on an attached socket. -/
def dataFrame (s : Store) (socket : ℕ) (data : Bytes) : Segment :=
  match parseDataFrame data with
  | none => (s, .done .void)
  | some (conn, payload) =>
    match s.bridges.channel conn with
    | some c =>
      if c.bridge = socket then (s.withBridges (s.bridges.write c.key payload), .done .void)
      else (s, .done .void)
    | none => (s, .done .void)

/-- `webSocketMessage`: before the attach only control messages are heard. -/
def webSocketMessage (P : Platform) (s : Store) (socket : ℕ) (message : Message) : Option Segment :=
  (s.bridges.socket socket).map fun w =>
    match w.attachment with
    | none => s.closing socket
    | some attachment =>
      match message with
      | .binary data => if !attachment.attached then s.closing socket else s.dataFrame socket data
      | .text value =>
        match (parseControl value).bind fun control =>
          ((control.field "type").bind Json.string?).map fun type => (type, control) with
        | none => s.closing socket
        | some (type, control) =>
          if !attachment.attached then s.unattachedControl socket type control
          else s.attachedControl P socket type control

/-! ### Closing -/

/-- Another open, attached socket is there. -/
def hasAttachedBridge (b : Bridges) (socket : ℕ) : Bool :=
  b.sockets.any fun w => w.id ≠ socket && w.isOpen && w.attached

/-- The close event of a socket, once, after it has stopped being open. -/
def webSocketClose (s : Store) (socket : ℕ) : Option Segment :=
  (s.bridges.socket socket).bind fun w =>
    if w.isOpen || w.closeHandled then none
    else
      let b := s.bridges.updateSocket socket fun w => { w with closeHandled := true }
      if (w.attachment.bind (·.session)).isNone then some (s.withBridges b, .done .void)
      else
        let b := b.finishAll (fun c => c.bridge = socket) true
        match s.durable.live with
        | some record =>
          if hasAttachedBridge b socket then some (s.withBridges b, .done .void)
          else some ((s.withBridges b).save { record with state := .offline }, .done .void)
        | none => some (s.withBridges b, .done .void)

/-- `webSocketError`, which ends like a close. -/
def webSocketError (s : Store) (socket : ℕ) : Option Segment :=
  (s.bridges.socket socket).map fun _ => s.closing socket

/-! ### `connect` -/

/-- The route a server name has on the tunnel of the record: `===` and
`endsWith` against `record?.hostname`, which is `undefined` without one. -/
def routeOf (record : Option StoredTunnel) (sni : Option String) : Option String :=
  if sni = record.map (·.hostname) then some "@"
  else sni.bind fun sni =>
    let suffix := '.' :: ((record.map (·.hostname)).getD "undefined").toList
    if suffix.isSuffixOf sni.toList then
      some (String.ofList (sni.toList.take (sni.toList.length - suffix.length)))
    else none

/-- The first socket that is attached with the route. -/
def findBridge (b : Bridges) (route : Option String) : Option Socket :=
  route.bind fun r => b.sockets.find? fun w => w.claims r

/-- `while (conn === 0 || channels.has(conn)) conn = sequence++ >>> 0`, from
the number `sequence`. One more round than there are channels and the zero
always ends it while a number is free. -/
def allocate (taken : List ℕ) : ℕ → ℕ → Option (ℕ × ℕ)
  | 0, _ => none
  | fuel + 1, sequence =>
    let conn := sequence % 2 ^ 32
    if conn = 0 || taken.contains conn then allocate taken fuel (sequence + 1)
    else some (conn, sequence + 1)

/-- `bridge.send` of each message in turn; `none` when one throws. -/
def sendAll (P : Platform) (b : Bridges) (id : ℕ) : List ServerMessage → Option Bridges
  | [] => some b
  | m :: ms => (b.send P id m).bind fun b => sendAll P b id ms

/-- The channel is entered into the map, the bridge is told, and the upload
begins. -/
def openChannel (P : Platform) (s : Store) (bridge : Socket) (hello : Hello) : Option Segment :=
  let b := s.bridges
  (allocate (b.channels.map (·.1)) (b.channels.length + 2) b.sequence).map fun (conn, sequence) =>
    let key := b.nextConnection
    let b := { b with
      sequence, nextConnection := key + 1
      channels := b.channels ++ [(conn, key)]
      connections := b.connections ++ [{ key, conn, bridge := bridge.id, written := [],
                                         writer := .active, finished := false }] }
    let messages := .openConn conn (hello.remoteAddress.getD "unknown") hello.sni hello.alpn ::
      hello.initial.map (.dataFrame conn)
    match sendAll P b bridge.id messages with
    | none => (s.withBridges b, .done (.thrown "send"))
    | some b => (s.withBridges b, .await (.upload key))

/-- `connect` once the ClientHello is read, on the record it read first. -/
def connectHello (P : Platform) (s : Store) (record : Option StoredTunnel) (hello : Hello) :
    Option Segment :=
  let route := routeOf record hello.sni
  match record, truthy route, findBridge s.bridges route with
  | some record, some route, some bridge =>
    if record.deletedAt.isSome || !record.ready || route.toList.contains '.' then some (s, .done .void)
    else s.openChannel P bridge hello
  | _, _, _ => some (s, .done .void)

/-- `connect` returns once the upload has ended and the channel is finished. -/
def uploadEnded (s : Store) (key : ℕ) : Segment := (s, .await (.settling key))

/-- An error of the upload: the bridge is sent a reset and the channel is
finished, unless that send throws too. -/
def uploadFailed (P : Platform) (s : Store) (c : Channel) : Segment :=
  match s.bridges.send P c.bridge (.resetConn c.conn "client_io_error") with
  | none => s.uploadEnded c.key
  | some b => (s.withBridges (b.finish c.key true)).uploadEnded c.key

/-- One turn of the upload loop. -/
def upload (P : Platform) (s : Store) (key : ℕ) (a : Answer) : Option Segment :=
  (s.bridges.connection key).bind fun c =>
    match a with
    | .eof =>
      match s.bridges.send P c.bridge (.endConn c.conn) with
      | none => some (s.uploadFailed P c)
      | some b => some ((s.withBridges b).uploadEnded key)
    | .chunk value bufferedAmount =>
      if bufferedAmount > 16 * 1024 * 1024 then some (s.uploadFailed P c)
      else match s.bridges.send P c.bridge (.dataFrame c.conn value) with
        | none => some (s.uploadFailed P c)
        | some b => some (s.withBridges b, .await (.upload key))
    | .error _ => some (s.uploadFailed P c)
    | _ => none

/-- `await Promise.allSettled([upload(), done]); channel.finish()`. -/
def settle (s : Store) (key : ℕ) : Option Segment :=
  (s.bridges.connection key).bind fun c =>
    if c.finished then some (s.withBridges (s.bridges.finish key false), .done .void) else none

end Store

end ShuvTunnel
