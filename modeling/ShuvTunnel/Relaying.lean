/-
# The relay hop

`relay/index.mjs` carries each TCP connection to the Worker over a WebSocket of
its own, and `relayWebSocket` makes a stream of what arrives. The relay reads no
data before the WebSocket is open, and passes the client's end on, which may come
before. The Worker queues its writes on a chain of promises, and closes the
stream behind them, for whichever of four reasons comes first.

What the Worker sends back is no part of it, apart from what the relay does about
its messages.

Key definitions: `RelayLink.step`, `Incoming.handle`, `Incoming.goOn`, `relayed`.
Key theorems: `RelayLink.Ok.step`, `Relayed.Ok.step`, `relay_preserves`.
-/
import ShuvTunnel.Bridge
import ShuvTunnel.Lib.Lts
import Mathlib.Data.List.Infix
import Mathlib.Data.List.TakeWhile

namespace ShuvTunnel

/-! ### The relay -/

/-- `JSON.stringify({ type: "end" })`. -/
def endMessage : Message := .text (some (.obj [("type", .str "end")]))

/-- `JSON.parse(data).type === "end"`, unless that throws. -/
def saysEnd : Option Json → Option Bool
  | none | some .null => none
  | some value => some (decide ((value.field "type").bind (·.string?) = some "end"))

/-- The `readyState` of the WebSocket `bridge`. -/
inductive BridgeState
  | CONNECTING
  | OPEN
  | CLOSING
  | CLOSED
  deriving DecidableEq

/-- A connection of the relay. Of its socket: what the client wrote and whether it
has finished, and of that what no `data` event has brought yet; whether it flows,
and whether it is destroyed; what was written to it, and whether it was ended. Of
its WebSocket: its state, and what was sent on it. -/
structure RelayLink where
  written : Bytes
  finished : Bool
  pending : Bytes
  flowing : Bool
  destroyed : Bool
  answered : Bytes
  halfClosed : Bool
  ended : Bool
  readyState : BridgeState
  sent : List Message

/-- What happens to the socket and to the WebSocket. -/
inductive RelayEvent
  -- at the client
  | writes (data : Bytes)
  | finishes
  -- of the socket
  | data (n : ℕ)
  | end
  | error
  | close
  -- of the WebSocket; `closing` comes before its `close`
  | open
  | message (m : Message)
  | closing
  | bridgeClose
  | bridgeError

namespace RelayLink

/-- The socket is paused, and the WebSocket connects. -/
def start : RelayLink where
  written := []
  finished := false
  pending := []
  flowing := false
  destroyed := false
  answered := []
  halfClosed := false
  ended := false
  readyState := .CONNECTING
  sent := []

/-- `bridge.send(m)`, which drops a message before or behind the open state. -/
def send (l : RelayLink) (m : Message) : RelayLink :=
  if l.readyState = .OPEN then { l with sent := l.sent ++ [m] } else l

/-- `close`: the bridge is closed and the socket destroyed. -/
def close (l : RelayLink) : RelayLink :=
  { l with
    readyState := if l.readyState = .CONNECTING ∨ l.readyState = .OPEN then .CLOSING else l.readyState
    destroyed := true }

/-- `onopen`: an end that came before is sent only now. -/
def onOpen (l : RelayLink) : RelayLink := if l.ended then l.send endMessage else { l with flowing := true }

/-- `onmessage`: text is a control message, and one that cannot be parsed closes. -/
def onMessage (l : RelayLink) : Message → RelayLink
  | .text value =>
    match saysEnd value with
    | some true => { l with halfClosed := true }
    | some false => l
    | none => l.close
  | .binary data => if l.destroyed then l else { l with answered := l.answered ++ data }

/-- The socket has ended: the end is sent. -/
def onEnd (l : RelayLink) : RelayLink := { l with ended := true }.send endMessage

/-- A socket brings data while it flows, and its end behind all data, flowing or
not; neither once it is destroyed. -/
def step (l : RelayLink) : RelayEvent → Option RelayLink
  | .writes data =>
    if l.finished then none else some { l with written := l.written ++ data, pending := l.pending ++ data }
  | .finishes => some { l with finished := true }
  | .data n =>
    if l.flowing && !l.destroyed && decide (0 < n ∧ n ≤ l.pending.length) then
      some ({ l with pending := l.pending.drop n }.send (.binary (l.pending.take n)))
    else none
  | .end => if !l.destroyed && l.finished && l.pending.isEmpty && !l.ended then some l.onEnd else none
  | .error | .close => some l.close
  | .open => if l.readyState = .CONNECTING then some { l with readyState := .OPEN }.onOpen else none
  | .message m => if l.readyState = .OPEN then some (l.onMessage m) else none
  | .closing =>
    if l.readyState = .CONNECTING ∨ l.readyState = .OPEN then some { l with readyState := .CLOSING } else none
  | .bridgeClose => some { l with readyState := .CLOSED, destroyed := true }
  | .bridgeError => some { l with destroyed := true }

end RelayLink

/-! ### The Worker -/

/-- A call of `incomingWriter`. -/
inductive WriterCall
  | write (data : Bytes)
  | close

/-- What `relayWebSocket` hears of: an event of its WebSocket, or a call of
`connection.close`. -/
inductive Arrival
  | message (m : Message)
  | close
  | error
  | connectionClose

/-- The stream `incoming` and its writer: the calls on the chain `writes`, and those
made; whether the stream can be written, and whether its reader cancelled it; what it
holds and what it yielded. -/
structure Incoming where
  writes : List WriterCall
  closed : Bool
  called : List WriterCall
  writable : Bool
  cancelled : Bool
  queue : List Bytes
  yielded : Bytes

namespace Incoming

/-- The stream before anything is heard. -/
def start : Incoming where
  writes := []
  closed := false
  called := []
  writable := true
  cancelled := false
  queue := []
  yielded := []

/-- `closeIncoming`: behind all writes the stream is closed, once. -/
def closeIncoming (w : Incoming) : Incoming :=
  if w.closed then w else { w with closed := true, writes := w.writes ++ [.close] }

/-- A message that does not parse closes the WebSocket only. -/
def handle (w : Incoming) : Arrival → Incoming
  | .message (.binary data) => { w with writes := w.writes ++ [.write data] }
  | .message (.text value) => if saysEnd value = some true then w.closeIncoming else w
  | .close | .error | .connectionClose => w.closeIncoming

/-- The chain goes on to its next call, once the one before is done; what the
stream refuses is passed over. -/
def goOn (w : Incoming) : Option Incoming :=
  match w.writes with
  | [] => none
  | .write data :: writes =>
    some { w with
      writes
      called := w.called ++ [.write data]
      queue := if w.writable then w.queue ++ [data] else w.queue }
  | .close :: writes => some { w with writes, called := w.called ++ [.close], writable := false }

/-- The reader takes a chunk. -/
def read (w : Incoming) : Option Incoming :=
  match w.queue with
  | [] => none
  | data :: queue => some { w with queue, yielded := w.yielded ++ data }

/-- The reader cancels the stream, or it fails. -/
def cancel (w : Incoming) : Incoming := { w with writable := false, cancelled := true, queue := [] }

end Incoming

/-! ### Both -/

/-- A relayed connection, with the messages between and whether the WebSocket broke,
and all that the Worker heard of. -/
structure Relayed where
  link : RelayLink
  wire : List Message
  broken : Bool
  worker : Incoming
  arrived : List Arrival

/-- The steps of the relay and of the object's end of its bridge, and of the wire
between them. -/
inductive RelayLabel
  | link (e : RelayEvent)
  | breaks (n : ℕ)
  | deliver
  | hears (a : Arrival)
  | goOn
  | read
  | cancel

namespace Relayed

/-- Both ends before the bridge is open. -/
def start : Relayed where
  link := .start
  wire := []
  broken := false
  worker := .start
  arrived := []

/-- The Worker hears of something. -/
def hear (s : Relayed) (a : Arrival) : Relayed := { s with worker := s.worker.handle a, arrived := s.arrived ++ [a] }

/-- What a step does. -/
def step (s : Relayed) : RelayLabel → Option Relayed
  | .link e => (s.link.step e).map fun link =>
    { s with link, wire := if s.broken then s.wire else s.wire ++ link.sent.drop s.link.sent.length }
  -- what was sent last is lost, and all that is sent from now on
  | .breaks n => some { s with wire := s.wire.take n, broken := true }
  | .deliver =>
    match s.wire with
    | [] => none
    | m :: wire => some ({ s with wire }.hear (.message m))
  | .hears (.message _) => none
  | .hears a => some (s.hear a)
  | .goOn => s.worker.goOn.map fun worker => { s with worker }
  | .read => s.worker.read.map fun worker => { s with worker }
  | .cancel => some { s with worker := s.worker.cancel }

end Relayed

/-- Relayed connections. -/
def relayed : Lts.System Relayed RelayLabel := ⟨Relayed.step⟩

/-! ### What the relay sends -/

namespace RelayLink

variable {l l' : RelayLink}

/-- Data was sent, and `rest` is to follow. -/
def SentBut (l : RelayLink) (rest : Bytes) : Prop :=
  ∃ chunks : List Bytes, l.sent = chunks.map .binary ∧ chunks.flatten ++ rest = l.written

/-- All that the client wrote was sent, and then one end. -/
def SentAll (l : RelayLink) : Prop :=
  ∃ chunks : List Bytes, l.sent = chunks.map .binary ++ [endMessage] ∧ chunks.flatten = l.written

/-- Before the WebSocket is open nothing is read, and while it is open all is sent
that was read. -/
structure Ok (l : RelayLink) : Prop where
  ended : l.ended = true → l.finished = true ∧ l.pending = []
  connecting : l.readyState = .CONNECTING → l.sent = [] ∧ l.flowing = false ∧ l.pending = l.written
  opened : l.readyState = .OPEN → l.ended = false → l.flowing = true ∧ l.SentBut l.pending
  sent : l.SentAll ∧ l.ended = true ∨ ¬ (l.readyState = .OPEN ∧ l.ended = true) ∧ ∃ rest, l.SentBut rest

theorem ok_start : start.Ok where
  ended h := nomatch h
  connecting _ := ⟨rfl, rfl, rfl⟩
  opened h := nomatch h
  sent := .inr ⟨fun h => (nomatch h.1), [], [], rfl, rfl⟩

/-- What was sent may be all, or not yet. -/
theorem Ok.open_ended (h : l.Ok) (hopen : l.readyState = .OPEN) (hended : l.ended = true) : l.SentAll := by
  rcases h.sent with ⟨hall, -⟩ | ⟨hno, -⟩
  · exact hall
  · exact absurd ⟨hopen, hended⟩ hno

/-- What the socket brings in otherwise matters to none of it. -/
theorem Ok.same (h : l.Ok) (he : l'.ended = l.ended) (hf : l'.finished = l.finished) (hp : l'.pending = l.pending)
    (hr : l'.readyState = l.readyState) (hs : l'.sent = l.sent) (hflow : l'.flowing = l.flowing)
    (hw : l'.written = l.written) : l'.Ok := by
  refine ⟨?_, ?_, ?_, ?_⟩
  · rw [he, hf, hp]
    exact h.ended
  · rw [hr, hs, hflow, hp, hw]
    exact h.connecting
  · unfold SentBut
    rw [hr, he, hflow, hs, hp, hw]
    exact h.opened
  · unfold SentAll SentBut
    rw [hr, he, hs, hw]
    exact h.sent

/-- The WebSocket closes. -/
theorem Ok.gone (h : l.Ok) (he : l'.ended = l.ended) (hf : l'.finished = l.finished) (hp : l'.pending = l.pending)
    (hs : l'.sent = l.sent) (hw : l'.written = l.written) (hc : l'.readyState ≠ .CONNECTING)
    (ho : l'.readyState ≠ .OPEN) : l'.Ok := by
  refine ⟨?_, fun hr => absurd hr hc, fun hr => absurd hr ho, ?_⟩
  · rw [he, hf, hp]
    exact h.ended
  · rcases h.sent with hall | ⟨-, hrest⟩
    · unfold SentAll
      rw [he, hs, hw]
      exact .inl hall
    · unfold SentBut
      rw [hs, hw]
      exact .inr ⟨fun hno => ho hno.1, hrest⟩

theorem Ok.close (h : l.Ok) : l.close.Ok := by
  unfold RelayLink.close
  by_cases hr : l.readyState = .CONNECTING ∨ l.readyState = .OPEN
  · rw [if_pos hr]
    exact h.gone rfl rfl rfl rfl rfl BridgeState.noConfusion BridgeState.noConfusion
  · rw [if_neg hr]
    exact h.same rfl rfl rfl rfl rfl rfl rfl

theorem Ok.writes (h : l.Ok) (hf : l.finished = false) (data : Bytes) :
    Ok { l with written := l.written ++ data, pending := l.pending ++ data } := by
  have hno : l.ended = false := by
    rw [Bool.eq_false_iff]
    intro he
    have := (h.ended he).1
    simp [hf] at this
  refine ⟨fun he => ?_, fun hr => ?_, fun hr _ => ?_, ?_⟩
  · rw [hno] at he
    cases he
  · obtain ⟨hs, hflow, hp⟩ := h.connecting hr
    exact ⟨hs, hflow, by rw [hp]⟩
  · obtain ⟨hflow, chunks, hs, hw⟩ := h.opened hr hno
    exact ⟨hflow, chunks, hs, by rw [← hw, List.append_assoc]⟩
  · rcases h.sent with ⟨-, he⟩ | ⟨hnot, rest, chunks, hs, hw⟩
    · rw [hno] at he
      cases he
    · exact .inr ⟨hnot, rest ++ data, chunks, hs, by rw [← hw, List.append_assoc]⟩

theorem Ok.data (h : l.Ok) (hflow : l.flowing = true) {n : ℕ} (hn : 0 < n) (hle : n ≤ l.pending.length) :
    Ok ({ l with pending := l.pending.drop n }.send (.binary (l.pending.take n))) := by
  have hconnecting : l.readyState ≠ .CONNECTING := fun hr => by
    have := (h.connecting hr).2.1
    simp [hflow] at this
  have hno : l.ended = false := by
    rw [Bool.eq_false_iff]
    intro he
    have := (h.ended he).2
    simp only [this, List.length_nil] at hle
    omega
  unfold RelayLink.send
  by_cases hopen : l.readyState = .OPEN
  · obtain ⟨-, chunks, hs, hw⟩ := h.opened hopen hno
    have hsent : SentBut { l with pending := l.pending.drop n, sent := l.sent ++ [.binary (l.pending.take n)] }
        (l.pending.drop n) := by
      refine ⟨chunks ++ [l.pending.take n], ?_, ?_⟩
      · simp [hs]
      · rw [← hw]
        simp
    rw [if_pos hopen]
    refine ⟨fun he => ?_, fun hr => absurd hr hconnecting, fun _ _ => ⟨hflow, hsent⟩, .inr ⟨fun hr => ?_, _, hsent⟩⟩
    · cases hno.symm.trans he
    · cases hno.symm.trans hr.2
  · rw [if_neg hopen]
    refine ⟨fun he => ?_, fun hr => absurd hr hconnecting, fun hr => absurd hr hopen, ?_⟩
    · cases hno.symm.trans he
    · exact h.sent

theorem Ok.onEnd (h : l.Ok) (hf : l.finished = true) (hp : l.pending = []) (hno : l.ended = false) : l.onEnd.Ok := by
  have hrest : ∃ rest, l.SentBut rest := by
    rcases h.sent with ⟨-, he⟩ | ⟨-, hrest⟩
    · cases hno.symm.trans he
    · exact hrest
  unfold RelayLink.onEnd RelayLink.send
  by_cases hopen : l.readyState = .OPEN
  · obtain ⟨-, chunks, hs, hw⟩ := h.opened hopen hno
    have hall : SentAll { l with ended := true, sent := l.sent ++ [endMessage] } := by
      refine ⟨chunks, by rw [hs], ?_⟩
      rw [← hw, hp, List.append_nil]
    rw [if_pos hopen]
    refine ⟨fun _ => ⟨hf, hp⟩, fun hr => ?_, fun _ he => (nomatch he), .inl ⟨hall, rfl⟩⟩
    cases hopen.symm.trans hr
  · rw [if_neg hopen]
    exact ⟨fun _ => ⟨hf, hp⟩, h.connecting, fun hr => absurd hr hopen, .inr ⟨fun hr => hopen hr.1, hrest⟩⟩

theorem Ok.onOpen (h : l.Ok) (hr : l.readyState = .CONNECTING) : Ok ({ l with readyState := .OPEN }.onOpen) := by
  obtain ⟨hs, -, hp⟩ := h.connecting hr
  unfold RelayLink.onOpen
  cases he : l.ended with
  | true =>
    have hall : SentAll { l with readyState := .OPEN, ended := true, sent := l.sent ++ [endMessage] } := by
      refine ⟨[], by rw [hs]; rfl, ?_⟩
      rw [← hp, (h.ended he).2]
      rfl
    rw [if_pos rfl]
    exact ⟨fun _ => h.ended he, fun hc => (nomatch hc), fun _ hno => (nomatch hno), .inl ⟨hall, rfl⟩⟩
  | false =>
    have hsent : SentBut { l with readyState := .OPEN, ended := false, flowing := true } l.pending :=
      ⟨[], hs, hp⟩
    rw [if_neg Bool.false_ne_true]
    refine ⟨fun hno => (nomatch hno), fun hc => (nomatch hc), fun _ _ => ⟨rfl, hsent⟩, .inr ⟨fun hno => ?_, _, hsent⟩⟩
    exact nomatch hno.2

theorem Ok.onMessage (h : l.Ok) (m : Message) : (l.onMessage m).Ok := by
  cases m with
  | text value =>
    unfold RelayLink.onMessage
    dsimp only
    split
    · exact h.same rfl rfl rfl rfl rfl rfl rfl
    · exact h
    · exact h.close
  | binary data =>
    unfold RelayLink.onMessage
    dsimp only
    by_cases hd : l.destroyed = true
    · rw [if_pos hd]
      exact h
    · rw [if_neg hd]
      exact h.same rfl rfl rfl rfl rfl rfl rfl

theorem Ok.step {e : RelayEvent} (h : l.Ok) (hs : l.step e = some l') : l'.Ok := by
  cases e with
  | writes data =>
    obtain ⟨hf, hs⟩ := Option.ite_none_left_eq_some.mp hs
    obtain rfl := Option.some.inj hs
    exact h.writes (Bool.eq_false_iff.mpr hf) data
  | finishes =>
    obtain rfl := Option.some.inj hs
    exact ⟨fun he => ⟨rfl, (h.ended he).2⟩, h.connecting, h.opened, h.sent⟩
  | data n =>
    obtain ⟨hif, hs⟩ := Option.ite_none_right_eq_some.mp hs
    obtain rfl := Option.some.inj hs
    simp only [Bool.and_eq_true, decide_eq_true_eq] at hif
    obtain ⟨⟨hflow, -⟩, hn, hle⟩ := hif
    exact h.data hflow hn hle
  | «end» =>
    obtain ⟨hif, hs⟩ := Option.ite_none_right_eq_some.mp hs
    obtain rfl := Option.some.inj hs
    simp only [Bool.and_eq_true, List.isEmpty_iff, Bool.not_eq_true'] at hif
    obtain ⟨⟨⟨-, hf⟩, hp⟩, hno⟩ := hif
    exact h.onEnd hf hp hno
  | error | close =>
    obtain rfl := Option.some.inj hs
    exact h.close
  | «open» =>
    obtain ⟨hr, hs⟩ := Option.ite_none_right_eq_some.mp hs
    obtain rfl := Option.some.inj hs
    exact h.onOpen hr
  | message m =>
    obtain ⟨-, hs⟩ := Option.ite_none_right_eq_some.mp hs
    obtain rfl := Option.some.inj hs
    exact h.onMessage m
  | closing =>
    obtain ⟨-, hs⟩ := Option.ite_none_right_eq_some.mp hs
    obtain rfl := Option.some.inj hs
    exact h.gone rfl rfl rfl rfl rfl BridgeState.noConfusion BridgeState.noConfusion
  | bridgeClose =>
    obtain rfl := Option.some.inj hs
    exact h.gone rfl rfl rfl rfl rfl BridgeState.noConfusion BridgeState.noConfusion
  | bridgeError =>
    obtain rfl := Option.some.inj hs
    exact h.same rfl rfl rfl rfl rfl rfl rfl

theorem sent_send (l : RelayLink) (m : Message) : l.sent <+: (l.send m).sent := by
  unfold send
  by_cases hopen : l.readyState = .OPEN
  · rw [if_pos hopen]
    exact List.prefix_append _ _
  · rw [if_neg hopen]

/-- What was sent stays sent. -/
theorem sent_step {e : RelayEvent} (hs : l.step e = some l') : l.sent <+: l'.sent := by
  cases e with
  | data n =>
    obtain ⟨-, hs⟩ := Option.ite_none_right_eq_some.mp hs
    obtain rfl := Option.some.inj hs
    exact sent_send { l with pending := l.pending.drop n } _
  | «end» =>
    obtain ⟨-, hs⟩ := Option.ite_none_right_eq_some.mp hs
    obtain rfl := Option.some.inj hs
    exact sent_send { l with ended := true } _
  | «open» =>
    obtain ⟨-, hs⟩ := Option.ite_none_right_eq_some.mp hs
    obtain rfl := Option.some.inj hs
    unfold onOpen
    by_cases he : l.ended = true
    · rw [if_pos he]
      exact sent_send { l with readyState := .OPEN } _
    · rw [if_neg he]
  | message m =>
    obtain ⟨-, hs⟩ := Option.ite_none_right_eq_some.mp hs
    obtain rfl := Option.some.inj hs
    have hsame : (l.onMessage m).sent = l.sent := by
      unfold onMessage close
      repeat' split
      all_goals rfl
    rw [hsame]
  | writes data =>
    obtain ⟨-, hs⟩ := Option.ite_none_left_eq_some.mp hs
    obtain rfl := Option.some.inj hs
    exact List.prefix_refl _
  | closing =>
    obtain ⟨-, hs⟩ := Option.ite_none_right_eq_some.mp hs
    obtain rfl := Option.some.inj hs
    exact List.prefix_refl _
  | finishes | error | close | bridgeClose | bridgeError =>
    obtain rfl := Option.some.inj hs
    exact List.prefix_refl _

end RelayLink

/-! ### What the Worker hears -/

/-- The bytes a message brings. -/
def Message.payload : Message → Bytes
  | .binary data => data
  | .text _ => []

/-- What the messages bring. -/
def payload (ms : List Message) : Bytes := (ms.map (·.payload)).flatten

namespace Arrival

/-- The message, when one arrives. -/
def message? : Arrival → Option Message
  | message m => some m
  | _ => none

/-- Upon this the stream is closed. -/
def closes : Arrival → Bool
  | message (.text value) => decide (saysEnd value = some true)
  | message (.binary _) => false
  | close | error | connectionClose => true

/-- The write it is. -/
def write? : Arrival → Option WriterCall
  | message (.binary data) => some (.write data)
  | _ => none

end Arrival

/-- The messages among what was heard. -/
def heard (as : List Arrival) : List Message := as.filterMap (·.message?)

/-- Whether a call is a write. -/
def WriterCall.isWrite : WriterCall → Bool
  | write _ => true
  | close => false

/-- The writes of what was heard. -/
def writesOf (as : List Arrival) : List WriterCall := as.filterMap (·.write?)

/-- What the calls write. -/
def writtenBy (cs : List WriterCall) : Bytes :=
  (cs.filterMap fun c => match c with
    | .write data => some data
    | .close => none).flatten

namespace Incoming

variable {w w' : Incoming}

/-- The calls made and those to be made, of all that was heard: its writes, and one
close behind the writes that were heard before. -/
structure Asks (w : Incoming) (as : List Arrival) : Prop where
  goesOn : w.closed = false → (∀ a ∈ as, a.closes = false) ∧ w.called ++ w.writes = writesOf as
  closed : w.closed = true → ∃ before e after, as = before ++ e :: after ∧ (∀ a ∈ before, a.closes = false) ∧
    e.closes = true ∧ w.called ++ w.writes = writesOf before ++ .close :: writesOf after

theorem asks_start : start.Asks [] where
  goesOn _ := ⟨fun _ h => (nomatch h), rfl⟩
  closed h := nomatch h

theorem handle_cases (w : Incoming) (a : Arrival) :
    a.closes = true ∧ a.write? = none ∧ w.handle a = w.closeIncoming ∨
      a.closes = false ∧ w.handle a = { w with writes := w.writes ++ a.write?.toList } := by
  cases a with
  | message m =>
    cases m with
    | text value =>
      by_cases hend : saysEnd value = some true
      · exact .inl ⟨decide_eq_true hend, rfl, if_pos hend⟩
      · refine .inr ⟨decide_eq_false hend, ?_⟩
        have hsame : w.handle (.message (.text value)) = w := if_neg hend
        have hnone : (Arrival.message (.text value)).write? = none := rfl
        rw [hsame, hnone, Option.toList_none, List.append_nil]
    | binary data => exact .inr ⟨rfl, rfl⟩
  | close => exact .inl ⟨rfl, rfl, rfl⟩
  | error => exact .inl ⟨rfl, rfl, rfl⟩
  | connectionClose => exact .inl ⟨rfl, rfl, rfl⟩

theorem writesOf_concat (as : List Arrival) (a : Arrival) : writesOf (as ++ [a]) = writesOf as ++ a.write?.toList := by
  unfold writesOf
  rw [List.filterMap_append]
  cases h : a.write? with
  | none => simp [h]
  | some c => simp [h]

/-- Whatever closes the stream, only the first of them does. -/
theorem Asks.handle {as : List Arrival} (h : w.Asks as) (a : Arrival) : (w.handle a).Asks (as ++ [a]) := by
  rcases handle_cases w a with ⟨hcloses, hwrite, hw⟩ | ⟨hcloses, hw⟩
  · rw [hw]
    unfold closeIncoming
    by_cases hc : w.closed = true
    · rw [if_pos hc]
      refine ⟨fun hno => ?_, fun _ => ?_⟩
      · rw [hc] at hno
        cases hno
      · obtain ⟨before, e, after, rfl, hbefore, he, hcalls⟩ := h.closed hc
        refine ⟨before, e, after ++ [a], by simp, hbefore, he, ?_⟩
        rw [hcalls, writesOf_concat, hwrite, Option.toList_none, List.append_nil]
    · rw [if_neg hc]
      obtain ⟨hbefore, hcalls⟩ := h.goesOn (Bool.eq_false_iff.mpr hc)
      refine ⟨fun hno => (nomatch hno), fun _ => ⟨as, a, [], rfl, hbefore, hcloses, ?_⟩⟩
      show w.called ++ (w.writes ++ [.close]) = _
      rw [← List.append_assoc, hcalls]
      rfl
  · rw [hw]
    refine ⟨fun hno => ?_, fun hc => ?_⟩
    · obtain ⟨hbefore, hcalls⟩ := h.goesOn hno
      refine ⟨fun x hx => ?_, ?_⟩
      · rcases List.mem_append.mp hx with hx | hx
        · exact hbefore x hx
        · rw [List.mem_singleton.mp hx]
          exact hcloses
      · show w.called ++ (w.writes ++ a.write?.toList) = _
        rw [writesOf_concat, ← List.append_assoc, hcalls]
    · obtain ⟨before, e, after, rfl, hbefore, he, hcalls⟩ := h.closed hc
      refine ⟨before, e, after ++ [a], by simp, hbefore, he, ?_⟩
      show w.called ++ (w.writes ++ a.write?.toList) = _
      rw [writesOf_concat, ← List.append_assoc, hcalls, List.append_assoc, List.cons_append]

/-- Calls that are made were asked for. -/
theorem Asks.same {as : List Arrival} (h : w.Asks as) (hc : w'.closed = w.closed)
    (hcalls : w'.called ++ w'.writes = w.called ++ w.writes) : w'.Asks as := by
  refine ⟨?_, ?_⟩
  · rw [hc, hcalls]
    exact h.goesOn
  · rw [hc, hcalls]
    exact h.closed

/-- Going on takes the next call out of those to be made. -/
theorem goOn_calls (hs : w.goOn = some w') :
    w'.closed = w.closed ∧ w'.called ++ w'.writes = w.called ++ w.writes := by
  unfold goOn at hs
  split at hs
  · cases hs
  · rename_i hwrites
    obtain rfl := Option.some.inj hs
    exact ⟨rfl, by simp [hwrites]⟩
  · rename_i hwrites
    obtain rfl := Option.some.inj hs
    exact ⟨rfl, by simp [hwrites]⟩

theorem read_calls (hs : w.read = some w') :
    w'.closed = w.closed ∧ w'.called ++ w'.writes = w.called ++ w.writes := by
  unfold read at hs
  split at hs
  · cases hs
  · obtain rfl := Option.some.inj hs
    exact ⟨rfl, rfl⟩

/-- What the stream yielded and holds was written; and unless its reader cancelled
it, that is all that was written before the close, up to which it can be written. -/
structure Yields (w : Incoming) : Prop where
  written : w.yielded ++ w.queue.flatten <+: writtenBy w.called
  all : w.cancelled = false → w.yielded ++ w.queue.flatten = writtenBy (w.called.takeWhile (·.isWrite))
  writable : w.cancelled = false → (w.writable = true ↔ ∀ c ∈ w.called, c.isWrite = true)
  refuses : w.cancelled = true → w.writable = false

theorem writtenBy_concat (cs : List WriterCall) (data : Bytes) :
    writtenBy (cs ++ [.write data]) = writtenBy cs ++ data := by
  simp [writtenBy, List.filterMap_append]

theorem writtenBy_close (cs : List WriterCall) : writtenBy (cs ++ [.close]) = writtenBy cs := by
  simp [writtenBy, List.filterMap_append]

theorem yields_start : start.Yields where
  written := List.prefix_refl _
  all _ := rfl
  writable _ := ⟨fun _ _ h => (nomatch h), fun _ => rfl⟩
  refuses h := nomatch h

/-- Behind the close, what is written is nothing of it. -/
theorem takeWhile_append_of_closed {cs : List WriterCall} (h : ¬ ∀ c ∈ cs, c.isWrite = true) (ds : List WriterCall) :
    (cs ++ ds).takeWhile (·.isWrite) = cs.takeWhile (·.isWrite) := by
  induction cs with
  | nil => exact absurd (fun _ hc => nomatch hc) h
  | cons c cs ih =>
    cases hc : c.isWrite with
    | false => simp [hc]
    | true =>
      have hrest : ¬ ∀ d ∈ cs, d.isWrite = true := fun hall => h fun d hd => by
        rcases List.mem_cons.mp hd with rfl | hd
        · exact hc
        · exact hall d hd
      simp [hc, ih hrest]

theorem takeWhile_concat_close (cs : List WriterCall) :
    (cs ++ [WriterCall.close]).takeWhile (·.isWrite) = cs.takeWhile (·.isWrite) := by
  by_cases h : ∀ c ∈ cs, c.isWrite = true
  · rw [List.takeWhile_append_of_pos h, List.takeWhile_eq_self_iff.mpr h]
    exact List.append_nil _
  · exact takeWhile_append_of_closed h _

/-- As long as the stream can be written it has all that was written. -/
theorem Yields.of_writable (h : w.Yields) (hw : w.writable = true) :
    w.cancelled = false ∧ (∀ c ∈ w.called, c.isWrite = true) ∧ w.yielded ++ w.queue.flatten = writtenBy w.called := by
  have hc : w.cancelled = false := by
    rw [Bool.eq_false_iff]
    intro hc
    cases hw.symm.trans (h.refuses hc)
  have hopen := (h.writable hc).mp hw
  refine ⟨hc, hopen, ?_⟩
  rw [h.all hc, List.takeWhile_eq_self_iff.mpr hopen]

theorem Yields.goOn (h : w.Yields) (hs : w.goOn = some w') : w'.Yields := by
  unfold Incoming.goOn at hs
  split at hs
  · cases hs
  · obtain rfl := Option.some.inj hs
    rename_i data writes _
    by_cases hw : w.writable = true
    · obtain ⟨-, hopen, hsame⟩ := h.of_writable hw
      have hopen' : ∀ c ∈ w.called ++ [.write data], c.isWrite = true := fun c hc => by
        rcases List.mem_append.mp hc with hc | hc
        · exact hopen c hc
        · rw [List.mem_singleton.mp hc]
          rfl
      have hall : w.yielded ++ (w.queue ++ [data]).flatten = writtenBy (w.called ++ [.write data]) := by
        rw [writtenBy_concat, ← hsame]
        simp
      refine ⟨?_, fun _ => ?_, fun _ => ⟨fun _ => hopen', fun _ => hw⟩, h.refuses⟩
      · rw [if_pos hw]
        exact hall ▸ List.prefix_refl _
      · rw [if_pos hw, List.takeWhile_eq_self_iff.mpr hopen']
        exact hall
    · refine ⟨?_, fun hc => ?_, fun hc => ⟨fun ho => absurd ho hw, fun hopen => ?_⟩, h.refuses⟩
      · rw [if_neg hw, writtenBy_concat]
        exact h.written.trans (List.prefix_append _ _)
      · rw [if_neg hw, takeWhile_append_of_closed fun hopen => hw ((h.writable hc).mpr hopen)]
        exact h.all hc
      · exact (h.writable hc).mpr fun c hm => hopen c (List.mem_append_left _ hm)
  · obtain rfl := Option.some.inj hs
    refine ⟨?_, fun hc => ?_, fun _ => ⟨fun ho => (nomatch ho), fun hopen => ?_⟩, fun _ => rfl⟩
    · rw [writtenBy_close]
      exact h.written
    · rw [takeWhile_concat_close]
      exact h.all hc
    · cases hopen .close (List.mem_append_right _ (List.mem_singleton.mpr rfl))

theorem Yields.read (h : w.Yields) (hs : w.read = some w') : w'.Yields := by
  unfold Incoming.read at hs
  split at hs
  · cases hs
  · rename_i data queue hqueue
    obtain rfl := Option.some.inj hs
    have hsame : w.yielded ++ data ++ queue.flatten = w.yielded ++ w.queue.flatten := by
      rw [hqueue, List.flatten_cons, List.append_assoc]
    refine ⟨?_, fun hc => hsame.trans (h.all hc), h.writable, h.refuses⟩
    rw [hsame]
    exact h.written

theorem Yields.cancel (h : w.Yields) : w.cancel.Yields := by
  refine ⟨?_, fun hc => (nomatch hc), fun hc => (nomatch hc), fun _ => rfl⟩
  show w.yielded ++ [] <+: _
  rw [List.append_nil]
  exact (List.prefix_append _ _).trans h.written

end Incoming

/-! ### All of it -/

theorem payload_append (ms ns : List Message) : payload (ms ++ ns) = payload ms ++ payload ns := by
  simp [payload]

theorem payload_binary (chunks : List Bytes) : payload (chunks.map .binary) = chunks.flatten := by
  unfold payload
  rw [List.map_map]
  exact congrArg List.flatten (List.map_id _)

theorem payload_mono {ms ns : List Message} (h : ms <+: ns) : payload ms <+: payload ns := by
  obtain ⟨rest, rfl⟩ := h
  rw [payload_append]
  exact List.prefix_append _ _

theorem writtenBy_append (cs ds : List WriterCall) : writtenBy (cs ++ ds) = writtenBy cs ++ writtenBy ds := by
  simp [writtenBy]

theorem heard_append (as bs : List Arrival) : heard (as ++ bs) = heard as ++ heard bs := List.filterMap_append

/-- The writes bring what was heard. -/
theorem writtenBy_writesOf (as : List Arrival) : writtenBy (writesOf as) = payload (heard as) := by
  induction as with
  | nil => rfl
  | cons a as ih =>
    have hhead : writtenBy a.write?.toList = payload a.message?.toList := by
      cases a with
      | message m =>
        cases m with
        | text value => rfl
        | binary data => rfl
      | close | error | connectionClose => rfl
    have hwrites : writesOf (a :: as) = a.write?.toList ++ writesOf as := by
      unfold writesOf
      cases h : a.write? <;> simp [h]
    have hheard : heard (a :: as) = a.message?.toList ++ heard as := by
      unfold heard
      cases h : a.message? <;> simp [h]
    rw [hwrites, hheard, writtenBy_append, payload_append, hhead, ih]

/-- What closes the stream writes nothing. -/
theorem Arrival.write?_of_closes {a : Arrival} (h : a.closes = true) : a.write? = none := by
  cases a with
  | message m =>
    cases m with
    | text value => rfl
    | binary data => cases h
  | close | error | connectionClose => rfl

theorem Incoming.Asks.written {w : Incoming} {as : List Arrival} (h : w.Asks as) :
    writtenBy (w.called ++ w.writes) = payload (heard as) := by
  cases hc : w.closed with
  | false => rw [(h.goesOn hc).2, writtenBy_writesOf]
  | true =>
    obtain ⟨before, e, after, rfl, -, he, hcalls⟩ := h.closed hc
    have hwrites : writesOf (before ++ e :: after) = writesOf before ++ writesOf after := by
      unfold writesOf
      rw [List.filterMap_append, List.filterMap_cons, Arrival.write?_of_closes he]
    have hclose : writtenBy (.close :: writesOf after) = writtenBy (writesOf after) := rfl
    rw [hcalls, ← writtenBy_writesOf, hwrites, writtenBy_append, writtenBy_append, hclose]

namespace Relayed

variable {s s' : Relayed}

/-- What was sent has arrived or is under way, or was lost behind that. -/
structure Ok (s : Relayed) : Prop where
  link : s.link.Ok
  wire : heard s.arrived ++ s.wire <+: s.link.sent
  whole : s.broken = false → heard s.arrived ++ s.wire = s.link.sent
  asks : s.worker.Asks s.arrived
  yields : s.worker.Yields

theorem ok_start : start.Ok where
  link := RelayLink.ok_start
  wire := List.prefix_refl _
  whole _ := rfl
  asks := Incoming.asks_start
  yields := Incoming.yields_start

theorem yields_handle {w : Incoming} (h : w.Yields) (a : Arrival) : (w.handle a).Yields := by
  rcases Incoming.handle_cases w a with ⟨-, -, hw⟩ | ⟨-, hw⟩
  · rw [hw]
    unfold Incoming.closeIncoming
    by_cases hc : w.closed = true
    · rw [if_pos hc]
      exact h
    · rw [if_neg hc]
      exact ⟨h.written, h.all, h.writable, h.refuses⟩
  · rw [hw]
    exact ⟨h.written, h.all, h.writable, h.refuses⟩

/-- What the relay sends goes onto the wire, unless that is broken. -/
theorem Ok.link_step (h : s.Ok) {e : RelayEvent} {link : RelayLink} (hl : s.link.step e = some link) :
    Ok { s with
      link := link
      wire := if s.broken then s.wire else s.wire ++ link.sent.drop s.link.sent.length } := by
  obtain ⟨more, hmore⟩ := RelayLink.sent_step hl
  have hdrop : link.sent.drop s.link.sent.length = more := by rw [← hmore, List.drop_left]
  have hwire : heard s.arrived ++ (if s.broken then s.wire else s.wire ++ link.sent.drop s.link.sent.length) <+:
      link.sent ∧ (s.broken = false → heard s.arrived ++
        (if s.broken then s.wire else s.wire ++ link.sent.drop s.link.sent.length) = link.sent) := by
    rw [hdrop]
    cases hb : s.broken with
    | true => exact ⟨h.wire.trans ⟨more, hmore⟩, fun hno => nomatch hno⟩
    | false =>
      have hall : heard s.arrived ++ (s.wire ++ more) = link.sent := by
        rw [← List.append_assoc, h.whole hb, hmore]
      exact ⟨hall ▸ List.prefix_refl _, fun _ => hall⟩
  exact ⟨h.link.step hl, hwire.1, hwire.2, h.asks, h.yields⟩

theorem heard_concat (as : List Arrival) (a : Arrival) : heard (as ++ [a]) = heard as ++ a.message?.toList := by
  rw [heard_append]
  unfold heard
  cases h : a.message? <;> simp [h]

/-- A message is heard off the wire, and whatever else is heard is none. -/
theorem Ok.hear (h : s.Ok) {a : Arrival} {wire : List Message} (hwire : s.wire = a.message?.toList ++ wire) :
    Ok ({ s with wire := wire }.hear a) := by
  have hheard : heard (s.arrived ++ [a]) ++ wire = heard s.arrived ++ s.wire := by
    rw [heard_concat, hwire, List.append_assoc]
  refine ⟨h.link, ?_, fun hb => hheard.trans (h.whole hb), h.asks.handle a, yields_handle h.yields a⟩
  show heard (s.arrived ++ [a]) ++ wire <+: s.link.sent
  rw [hheard]
  exact h.wire

theorem Ok.step {a : RelayLabel} (h : s.Ok) (hs : s.step a = some s') : s'.Ok := by
  cases a with
  | link e =>
    obtain ⟨link, hl, rfl⟩ := Option.map_eq_some_iff.mp hs
    exact h.link_step hl
  | breaks n =>
    obtain rfl := Option.some.inj hs
    have hprefix := (List.prefix_append_right_inj (heard s.arrived)).mpr (List.take_prefix n s.wire)
    exact ⟨h.link, hprefix.trans h.wire, fun hno => (nomatch hno), h.asks, h.yields⟩
  | deliver =>
    dsimp only [Relayed.step] at hs
    split at hs
    · cases hs
    · rename_i m wire hwire
      obtain rfl := Option.some.inj hs
      exact h.hear hwire
  | hears a =>
    cases a with
    | message m => cases hs
    | close | error | connectionClose =>
      obtain rfl := Option.some.inj hs
      exact h.hear rfl
  | goOn =>
    obtain ⟨worker, hw, rfl⟩ := Option.map_eq_some_iff.mp hs
    obtain ⟨hclosed, hcalls⟩ := Incoming.goOn_calls hw
    exact ⟨h.link, h.wire, h.whole, h.asks.same hclosed hcalls, h.yields.goOn hw⟩
  | read =>
    obtain ⟨worker, hw, rfl⟩ := Option.map_eq_some_iff.mp hs
    obtain ⟨hclosed, hcalls⟩ := Incoming.read_calls hw
    exact ⟨h.link, h.wire, h.whole, h.asks.same hclosed hcalls, h.yields.read hw⟩
  | cancel =>
    obtain rfl := Option.some.inj hs
    exact ⟨h.link, h.wire, h.whole, h.asks.same rfl rfl, h.yields.cancel⟩

/-- The end message is not among the data, so what is before it is all data. -/
theorem heard_all (h : s.Ok) {before after : List Arrival} {m : Message}
    (has : s.arrived = before ++ .message m :: after) (hcloses : (Arrival.message m).closes = true) :
    payload (heard before) = s.link.written := by
  have hbegin : heard before ++ [m] <+: s.link.sent := by
    refine List.IsPrefix.trans ⟨heard after ++ s.wire, ?_⟩ h.wire
    rw [has, heard_append]
    simp [heard, Arrival.message?]
  have hdata : ∀ chunks : List Bytes, m ∉ chunks.map Message.binary := fun chunks hm => by
    obtain ⟨data, -, rfl⟩ := List.mem_map.mp hm
    cases hcloses
  have hm : m ∈ heard before ++ [m] := by simp
  rcases h.link.sent with ⟨⟨chunks, hsent, hwritten⟩, -⟩ | ⟨-, rest, chunks, hsent, -⟩
  · rw [hsent] at hbegin
    rcases List.prefix_concat_iff.mp hbegin with heq | hle
    · have hbefore := (List.append_inj' heq rfl).1
      rw [hbefore, payload_binary, hwritten]
    · exact absurd (hle.subset hm) (hdata chunks)
  · rw [hsent] at hbegin
    exact absurd (hbegin.subset hm) (hdata chunks)

/-- What the relay sent is of what the client wrote. -/
theorem payload_sent {l : RelayLink} (h : l.Ok) : payload l.sent <+: l.written := by
  rcases h.sent with ⟨⟨chunks, hsent, hwritten⟩, -⟩ | ⟨-, rest, chunks, hsent, hwritten⟩
  · have hend : payload [endMessage] = [] := rfl
    rw [hsent, payload_append, payload_binary, hwritten, hend, List.append_nil]
  · rw [hsent, payload_binary]
    exact ⟨rest, hwritten⟩

/-- The socket brings what is left, and the end. -/
def dueLabels (s : Relayed) : List RelayLabel :=
  if s.link.pending = [] then [.link .end] else [.link (.data s.link.pending.length), .link .end]

/-- A call is made, and the reader takes what it wrote. -/
def turn (writable : Bool) (c : WriterCall) : List RelayLabel := if writable && c.isWrite then [.goOn, .read] else [.goOn]

/-- The calls on the chain are made in their turn. -/
def turns : Bool → List WriterCall → List RelayLabel
  | _, [] => []
  | writable, c :: calls => turn writable c ++ turns (writable && c.isWrite) calls

/-- The reader takes what the stream holds, and the chain comes to its end. -/
def closeLabels (s : Relayed) : List RelayLabel :=
  s.worker.queue.map (fun _ => .read) ++ turns s.worker.writable s.worker.writes

/-- What the relay and the Worker owe. The Worker's stream yields a beginning of what
the client wrote. On an open WebSocket an end that the client made is sent, once,
behind all data, and before that no end is; one that is still to be heard of can
come. And the stream is closed once, behind the writes of all that was heard
before the first reason to; if that was the end message, of all that the client
wrote. Where the call is still to be made, the chain comes to it; the stream has
yielded then all that was heard before, unless its reader cancelled it. -/
structure Preserved (s : Relayed) : Prop where
  yields : s.worker.yielded <+: s.link.written
  ended : s.link.readyState = .OPEN → s.link.ended = true → s.link.SentAll
  early : s.link.ended = false → ∃ rest, s.link.SentBut rest
  due : s.link.readyState = .OPEN → s.link.finished = true → s.link.destroyed = false → s.link.ended = false →
    ∃ t, relayed.exec s s.dueLabels = some t ∧ t.link.readyState = .OPEN ∧ t.link.ended = true
  unclosed : s.worker.closed = false →
    (∀ a ∈ s.arrived, a.closes = false) ∧ s.worker.called ++ s.worker.writes = writesOf s.arrived
  closed : s.worker.closed = true → ∃ before e after, s.arrived = before ++ e :: after ∧
    (∀ a ∈ before, a.closes = false) ∧ e.closes = true ∧
      s.worker.called ++ s.worker.writes = writesOf before ++ .close :: writesOf after ∧
        (∀ m, e = .message m → payload (heard before) = s.link.written) ∧
          ∃ t, relayed.exec s s.closeLabels = some t ∧ t.arrived = s.arrived ∧ t.worker.writes = [] ∧
            t.worker.called = writesOf before ++ .close :: writesOf after ∧ t.worker.writable = false ∧
              (s.worker.cancelled = false → t.worker.yielded = payload (heard before))

theorem due_of_ok (h : s.Ok) (hopen : s.link.readyState = .OPEN) (hf : s.link.finished = true)
    (hd : s.link.destroyed = false) (hno : s.link.ended = false) :
    ∃ t, relayed.exec s s.dueLabels = some t ∧ t.link.readyState = .OPEN ∧ t.link.ended = true := by
  obtain ⟨hflow, -⟩ := h.link.opened hopen hno
  have hend : ∀ l : RelayLink, l.readyState = .OPEN → l.finished = true → l.destroyed = false → l.ended = false →
      l.pending = [] → ∃ l', l.step .end = some l' ∧ l'.readyState = .OPEN ∧ l'.ended = true :=
    fun l hopen hf hd hno hp => by
      refine ⟨l.onEnd, ?_, ?_, ?_⟩
      · simp [RelayLink.step, hf, hd, hno, hp]
      · simp [RelayLink.onEnd, RelayLink.send, hopen]
      · simp [RelayLink.onEnd, RelayLink.send, hopen]
  have hstep : ∀ (x : Relayed) (e : RelayEvent) (l' : RelayLink), x.link.step e = some l' →
      ∃ y, relayed.step x (.link e) = some y ∧ y.link = l' := fun x e l' hl =>
    ⟨_, Option.map_eq_some_iff.mpr ⟨l', hl, rfl⟩, rfl⟩
  unfold dueLabels
  by_cases hp : s.link.pending = []
  · obtain ⟨l', hl, hopen', hended⟩ := hend s.link hopen hf hd hno hp
    obtain ⟨t, ht, rfl⟩ := hstep s .end l' hl
    refine ⟨t, ?_, hopen', hended⟩
    rw [if_pos hp, Lts.System.exec, ht]
    rfl
  · have hpos : 0 < s.link.pending.length := List.length_pos_iff.mpr hp
    have hdata : s.link.step (.data s.link.pending.length) =
        some { s.link with pending := [], sent := s.link.sent ++ [.binary s.link.pending] } := by
      simp [RelayLink.step, RelayLink.send, hflow, hd, hopen, hpos]
    obtain ⟨y, hy, hlink⟩ := hstep s _ _ hdata
    obtain ⟨l', hl, hopen', hended⟩ := hend y.link (by rw [hlink]; exact hopen) (by rw [hlink]; exact hf)
      (by rw [hlink]; exact hd) (by rw [hlink]; exact hno) (by rw [hlink])
    obtain ⟨t, ht, rfl⟩ := hstep y .end l' hl
    refine ⟨t, ?_, hopen', hended⟩
    rw [if_neg hp, Lts.System.exec, hy, Option.bind_some, Lts.System.exec, ht]
    rfl

/-- The reader took what the stream held. -/
theorem exec_reads (queue : List Bytes) (s : Relayed) (hq : s.worker.queue = queue) :
    relayed.exec s (queue.map fun _ => .read) =
      some { s with worker := { s.worker with queue := [], yielded := s.worker.yielded ++ queue.flatten } } := by
  induction queue generalizing s with
  | nil =>
    show some s = _
    rw [List.flatten_nil, List.append_nil, ← hq]
  | cons data queue ih =>
    have hread : s.worker.read = some { s.worker with queue, yielded := s.worker.yielded ++ data } := by
      unfold Incoming.read
      rw [hq]
    show ((s.worker.read).map _).bind _ = _
    rw [hread, Option.map_some, Option.bind_some, ih _ rfl, List.flatten_cons, ← List.append_assoc]

/-- The calls `calls` were made, and the stream is as empty as it was. -/
structure Made (s t : Relayed) (calls : List WriterCall) : Prop where
  arrived : t.arrived = s.arrived
  queue : t.worker.queue = []
  called : t.worker.called = s.worker.called ++ calls
  cancelled : t.worker.cancelled = s.worker.cancelled

theorem Made.trans {t u : Relayed} {calls calls' : List WriterCall} (h : s.Made t calls) (h' : t.Made u calls') :
    s.Made u (calls ++ calls') :=
  ⟨h'.arrived.trans h.arrived, h'.queue, by rw [h'.called, h.called, List.append_assoc],
    h'.cancelled.trans h.cancelled⟩

theorem exec_goOn {w : Incoming} (h : s.worker.goOn = some w) :
    relayed.exec s [.goOn] = some { s with worker := w } := by
  show ((s.worker.goOn).map _).bind _ = _
  rw [h]
  rfl

/-- One call is made in its turn. -/
theorem exec_turn {c : WriterCall} {calls : List WriterCall} (hw : s.worker.writes = c :: calls)
    (hq : s.worker.queue = []) : ∃ t, relayed.exec s (turn s.worker.writable c) = some t ∧ s.Made t [c] ∧
      t.worker.writes = calls ∧ t.worker.writable = (s.worker.writable && c.isWrite) := by
  cases c with
  | write data =>
    let w : Incoming := { s.worker with
      writes := calls
      called := s.worker.called ++ [.write data]
      queue := if s.worker.writable then [data] else [] }
    have hgo : s.worker.goOn = some w := by
      unfold Incoming.goOn
      rw [hw]
      simp [w, hq]
    cases hwr : s.worker.writable with
    | true =>
      have hqueue : w.queue = [data] := if_pos hwr
      have hturn : relayed.exec s ([.goOn] ++ [.read]) =
          some { s with worker := { w with queue := [], yielded := w.yielded ++ [data].flatten } } := by
        rw [Lts.System.exec_append, exec_goOn hgo, Option.bind_some]
        exact exec_reads [data] { s with worker := w } hqueue
      exact ⟨_, hturn, ⟨rfl, rfl, rfl, rfl⟩, rfl, hwr⟩
    | false =>
      have hqueue : w.queue = [] := if_neg (by simp [hwr])
      exact ⟨_, exec_goOn hgo, ⟨rfl, hqueue, rfl, rfl⟩, rfl, hwr⟩
  | close =>
    have hgo : s.worker.goOn = some { s.worker with
        writes := calls
        called := s.worker.called ++ [.close]
        writable := false } := by
      unfold Incoming.goOn
      rw [hw]
    have hturn : turn s.worker.writable .close = [.goOn] := if_neg (by simp [WriterCall.isWrite])
    have hno : (s.worker.writable && WriterCall.close.isWrite) = false := Bool.and_false _
    rw [hturn, hno]
    exact ⟨_, exec_goOn hgo, ⟨rfl, hq, rfl, rfl⟩, rfl, rfl⟩

/-- The chain comes to its end. -/
theorem exec_turns (calls : List WriterCall) (s : Relayed) (hw : s.worker.writes = calls) (hq : s.worker.queue = []) :
    ∃ t, relayed.exec s (turns s.worker.writable calls) = some t ∧ s.Made t calls ∧ t.worker.writes = [] := by
  induction calls generalizing s with
  | nil => exact ⟨s, rfl, ⟨rfl, hq, (List.append_nil _).symm, rfl⟩, hw⟩
  | cons c calls ih =>
    obtain ⟨u, hu, hmade, hwrites, hwritable⟩ := exec_turn hw hq
    obtain ⟨t, ht, hmade', hdone⟩ := ih u hwrites hmade.queue
    refine ⟨t, ?_, hmade.trans hmade', hdone⟩
    show relayed.exec s (turn s.worker.writable c ++ turns (s.worker.writable && c.isWrite) calls) = _
    rw [Lts.System.exec_append, hu, Option.bind_some, ← hwritable, ht]

theorem Ok.exec {t : Relayed} {as : List RelayLabel} (h : s.Ok) (ht : relayed.exec s as = some t) : t.Ok :=
  ((Lts.Run.of_exec ht).invariant (A := fun _ _ => True) (fun _ _ _ hs _ hstep => hs.step hstep)
    (fun _ _ => trivial) h).1

/-- Up to the close, the calls are the writes of what was heard before. -/
theorem takeWhile_writesOf (before after : List Arrival) :
    (writesOf before ++ .close :: writesOf after).takeWhile (·.isWrite) = writesOf before := by
  have hall : ∀ c ∈ writesOf before, c.isWrite = true := fun c hc => by
    obtain ⟨a, -, ha⟩ := List.mem_filterMap.mp hc
    cases c with
    | write data => rfl
    | close =>
      cases a with
      | message m => cases m <;> cases ha
      | close | error | connectionClose => cases ha
  rw [List.takeWhile_append_of_pos hall]
  exact List.append_nil _

/-- The close that is on the chain, or was made, is made in the end. -/
theorem close_of_ok (h : s.Ok) {before after : List Arrival}
    (hcalls : s.worker.called ++ s.worker.writes = writesOf before ++ .close :: writesOf after) :
    ∃ t, relayed.exec s s.closeLabels = some t ∧ t.arrived = s.arrived ∧ t.worker.writes = [] ∧
      t.worker.called = writesOf before ++ .close :: writesOf after ∧ t.worker.writable = false ∧
        (s.worker.cancelled = false → t.worker.yielded = payload (heard before)) := by
  have hreads := exec_reads s.worker.queue s rfl
  obtain ⟨t, ht, hmade, hwrites⟩ := exec_turns s.worker.writes { s with worker :=
    { s.worker with queue := [], yielded := s.worker.yielded ++ s.worker.queue.flatten } } rfl rfl
  have hexec : relayed.exec s s.closeLabels = some t := by
    unfold closeLabels
    rw [Lts.System.exec_append, hreads, Option.bind_some]
    exact ht
  have hcalled : t.worker.called = writesOf before ++ .close :: writesOf after := hmade.called.trans hcalls
  have hyields := (h.exec hexec).yields
  refine ⟨t, hexec, hmade.arrived, hwrites, hcalled, ?_, fun hc => ?_⟩
  · rw [Bool.eq_false_iff]
    intro hwritable
    obtain ⟨-, hopen, -⟩ := hyields.of_writable hwritable
    cases hopen .close (by rw [hcalled]; simp)
  · have hall := hyields.all (hmade.cancelled.trans hc)
    rw [hmade.queue, List.flatten_nil, List.append_nil, hcalled, takeWhile_writesOf, writtenBy_writesOf] at hall
    exact hall

theorem preserved_of_ok (h : s.Ok) : s.Preserved where
  yields := by
    have hcalled : writtenBy s.worker.called <+: payload (heard s.arrived) := by
      rw [← h.asks.written, writtenBy_append]
      exact List.prefix_append _ _
    have hheard : heard s.arrived <+: s.link.sent := (List.prefix_append _ _).trans h.wire
    have hyields : s.worker.yielded <+: writtenBy s.worker.called := (List.prefix_append _ _).trans h.yields.written
    exact hyields.trans (hcalled.trans ((payload_mono hheard).trans (payload_sent h.link)))
  ended := h.link.open_ended
  early hno := by
    rcases h.link.sent with ⟨-, he⟩ | ⟨-, hrest⟩
    · cases hno.symm.trans he
    · exact hrest
  due := due_of_ok h
  unclosed := h.asks.goesOn
  closed hc := by
    obtain ⟨before, e, after, has, hbefore, he, hcalls⟩ := h.asks.closed hc
    refine ⟨before, e, after, has, hbefore, he, hcalls, fun m hm => ?_, close_of_ok h hcalls⟩
    rw [hm] at has he
    exact heard_all h has he

end Relayed

/-- In whatever order the events of the socket and of both ends of the WebSocket
come, the hop keeps the stream and its end. -/
theorem relay_preserves {s : Relayed} (h : Lts.Reachable relayed (· = .start) s) : s.Preserved := by
  refine Relayed.preserved_of_ok (h.invariant (fun s hs => ?_) fun s a s' hok hstep => hok.step hstep)
  rw [hs]
  exact Relayed.ok_start

/-- The client ends before the WebSocket is open, and writes nothing. -/
def earlyEnd : List RelayLabel := [.link .finishes, .link .end, .link .open, .deliver, .hears .close, .goOn]

/-- It writes early too, and its data waits for the WebSocket. -/
def earlyData : List RelayLabel :=
  [.link (.writes [1, 2, 3]), .link .finishes, .link .open, .link (.data 2), .deliver, .link (.data 1), .link .end,
    .goOn, .read, .deliver, .deliver, .goOn, .goOn, .read]

theorem relay_preserves_early :
    (∃ s, relayed.exec .start earlyEnd = some s ∧ s.Preserved ∧ s.worker.yielded = [] ∧ s.worker.closed = true) ∧
      ∃ s, relayed.exec .start earlyData = some s ∧ s.Preserved ∧ s.worker.yielded = [1, 2, 3] := by
  constructor
  · have hrun : (relayed.exec .start earlyEnd).map (fun s => (s.worker.yielded, s.worker.closed)) =
        some ([], true) := by
      decide
    obtain ⟨s, hs, hyields⟩ := Option.map_eq_some_iff.mp hrun
    obtain ⟨hyielded, hclosed⟩ := Prod.mk.inj hyields
    exact ⟨s, hs, relay_preserves (.of_exec rfl hs), hyielded, hclosed⟩
  · have hrun : (relayed.exec .start earlyData).map (·.worker.yielded) = some [1, 2, 3] := by decide
    obtain ⟨s, hs, hyielded⟩ := Option.map_eq_some_iff.mp hrun
    exact ⟨s, hs, relay_preserves (.of_exec rfl hs), hyielded⟩

end ShuvTunnel
