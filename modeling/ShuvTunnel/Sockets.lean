/-
# Bridge sockets and channels

The volatile side of one tunnel: the accepted bridge sockets, in the order
`getWebSockets("bridge")` lists them, and the channels of the public
connections. A channel object outlives its entry in the `channels` map (the
`connect` call that made it still holds it), so the map sends a connection
number to the key of a channel, and the channels stay in a list of their own.
-/
import ShuvTunnel.Durable

namespace ShuvTunnel

/-! ### Sockets -/

/-- The states of a WebSocket; the object meets none that is still connecting. -/
inductive ReadyState
  | OPEN
  | CLOSING
  | CLOSED
  deriving DecidableEq

/-- What the object attaches to a socket; `kind` is always `bridge`. -/
structure BridgeAttachment where
  attached : Bool
  session : Option String
  routes : Option (List String)
  deriving DecidableEq

/-- An accepted socket: its attachment (`none` reads as `null`), the messages
sent on it, and whether its close event was handled. -/
structure Socket where
  id : ℕ
  readyState : ReadyState
  attachment : Option BridgeAttachment
  sent : List ServerMessage
  closeHandled : Bool
  deriving DecidableEq

namespace Socket

/-- `attachment?.attached === true`. -/
def attached (w : Socket) : Bool := w.attachment.any (·.attached)

/-- `attachment?.routes ?? []`. -/
def routes (w : Socket) : List String := (w.attachment.bind (·.routes)).getD []

/-- `readyState === WebSocket.OPEN`. -/
def isOpen (w : Socket) : Bool := w.readyState = .OPEN

/-- An attached socket with this route among its own. -/
def claims (w : Socket) (route : String) : Bool := w.attached && w.routes.contains route

/-- `socket.close(code, reason)`. -/
def close (w : Socket) : Socket :=
  { w with readyState := if w.readyState = .OPEN then .CLOSING else w.readyState }

@[simp] theorem close_isOpen (w : Socket) : w.close.isOpen = false := by
  unfold close isOpen
  by_cases h : w.readyState = .OPEN <;> simp [h]

end Socket

/-! ### Channels -/

/-- The states of the writer of a channel: writing, closed behind the last byte,
or aborted. -/
inductive WriterState
  | active
  | closed
  | aborted
  deriving DecidableEq

/-- One public connection: the bridge that serves it, the payloads handed to
its public socket's writer, and whether `finish` was called. -/
structure Channel where
  key : ℕ
  conn : ℕ
  bridge : ℕ
  written : List Bytes
  writer : WriterState
  finished : Bool
  deriving DecidableEq

/-- The hibernated sockets of the object and what it holds in memory of their
connections. -/
structure Bridges where
  sockets : List Socket
  nextSocket : ℕ
  channels : List (ℕ × ℕ)
  connections : List Channel
  nextConnection : ℕ
  sequence : ℕ

namespace Bridges

/-- The socket of an id, open or not. -/
def socket (b : Bridges) (id : ℕ) : Option Socket := b.sockets.find? fun w => w.id = id

/-- Changes a socket and leaves the others as they are. -/
def updateSocket (b : Bridges) (id : ℕ) (f : Socket → Socket) : Bridges :=
  { b with sockets := b.sockets.map fun w => if w.id = id then f w else w }

/-- `socket.close()`. -/
def close (b : Bridges) (id : ℕ) : Bridges := b.updateSocket id Socket.close

/-- `socket.serializeAttachment(a)`. -/
def serializeAttachment (b : Bridges) (id : ℕ) (a : BridgeAttachment) : Bridges :=
  b.updateSocket id fun w => { w with attachment := some a }

/-- The socket is accepted and open. -/
def isOpen (b : Bridges) (id : ℕ) : Bool := (b.socket id).any (·.isOpen)

/-- `socket.send(message)`; `none` when it throws. A message to a socket that
is not open is lost. -/
def send (P : Platform) (b : Bridges) (id : ℕ) (message : ServerMessage) : Option Bridges :=
  if b.isOpen id then some (b.updateSocket id fun w => { w with sent := w.sent ++ [message] })
  else if P.sendThrows then none else some b

/-- `attachedBridges()`. -/
def attachedBridges (b : Bridges) : List Socket := b.sockets.filter (·.attached)

/-- The channel object with this key. -/
def connection (b : Bridges) (key : ℕ) : Option Channel := b.connections.find? fun c => c.key = key

/-- Changes a channel and leaves the others as they are. -/
def updateConnection (b : Bridges) (key : ℕ) (f : Channel → Channel) : Bridges :=
  { b with connections := b.connections.map fun c => if c.key = key then f c else c }

/-- `this.channels.get(conn)`. -/
def channel (b : Bridges) (conn : ℕ) : Option Channel := (b.channels.lookup conn).bind b.connection

/-- `channel.finish(error)`: once, the entry is deleted and the writer closed,
or aborted when there is an error. -/
def finish (b : Bridges) (key : ℕ) (error : Bool) : Bridges :=
  match b.connection key with
  | none => b
  | some c =>
    if c.finished then b
    else { b.updateConnection key fun c => { c with
             finished := true, writer := if error then .aborted else .closed } with
           channels := b.channels.filter fun p => p.1 ≠ c.conn }

/-- `channel.writer.write(payload)`; a closed or aborted writer rejects it. -/
def write (b : Bridges) (key : ℕ) (payload : Bytes) : Bridges :=
  b.updateConnection key fun c =>
    if c.writer = .active then { c with written := c.written ++ [payload] } else c

/-- `finish` of every channel of the map whose channel meets `p`. -/
def finishAll (b : Bridges) (p : Channel → Bool) (error : Bool) : Bridges :=
  (b.channels.map (·.2)).foldl
    (fun b key => if (b.connection key).any p then b.finish key error else b) b

/-! ### What these leave alone -/

@[simp] theorem finish_sockets (b : Bridges) (key : ℕ) (error : Bool) :
    (b.finish key error).sockets = b.sockets := by
  unfold finish
  split
  · rfl
  · split <;> rfl

@[simp] theorem finish_nextSocket (b : Bridges) (key : ℕ) (error : Bool) :
    (b.finish key error).nextSocket = b.nextSocket := by
  unfold finish
  split
  · rfl
  · split <;> rfl

theorem finish_channels_subset (b : Bridges) (key : ℕ) (error : Bool) :
    (b.finish key error).channels ⊆ b.channels := by
  unfold finish
  split
  · exact fun _ h => h
  · split
    · exact fun _ h => h
    · exact List.filter_subset_self _

end Bridges

end ShuvTunnel
