/-
# The TypeScript client's session

`Session` and `Channel` of `tunnel.ts`. A channel is a duplex stream `raw`
under a TLS socket: what the server sends is pushed into it and read by the TLS
side, and what the TLS side writes goes out through `sendData`. All runs on one
thread, so each event is one step.

Key definitions: `Channel`, `Session.take`, `Session.move`.
Key theorems: `Session.destroy_keeps`, `Session.take_takes`, `faithful`.
-/
import ShuvTunnel.Sessions

namespace ShuvTunnel

open Hop (Carries Piece Sender)

namespace TypeScript

/-- A channel that holds more than this is destroyed. -/
def STALLED_CHANNEL_BYTES : ℕ := 8 * 1024 * 1024

/-- The `readyState` of a WebSocket; `CLOSED` is `CLOSING` too. -/
inductive ReadyState
  | CONNECTING
  | OPEN
  | CLOSED
  deriving DecidableEq

/-- The writable half of `raw`: it takes writes, is final, or has failed. -/
inductive Outbound
  | writable
  | final
  | failed
  deriving DecidableEq

/-- A `Channel`: what was pushed into `raw` and not read yet, what was read, and
whether `null` was pushed; what was written, and whether more can be. -/
structure Channel where
  conn : ℕ
  readable : Bytes
  handed : Bytes
  inboundEnded : Bool
  wrote : Bytes
  outbound : Outbound
  done : Bool

/-- A channel that is just made. -/
def Channel.new (conn : ℕ) : Channel where
  conn := conn
  readable := []
  handed := []
  inboundEnded := false
  wrote := []
  outbound := .writable
  done := false

/-- `raw.destroy()`. -/
def Channel.destroyed (c : Channel) : Channel :=
  { c with done := true, outbound := if c.outbound = .final then .final else .failed }

/-- The session: `over` once `end` took `finish`; the map `channels`, from a
connection to its channel, and the channels in the order they were made. -/
structure Session where
  readyState : ReadyState
  attached : Bool
  isOver : Bool
  channels : ℕ → Option ℕ
  made : List Channel

/-- The names under which every object has something that is no text:
`this.routes[route]` finds it when no route has the name. -/
def OBJECT_PROTOTYPE : List String :=
  ["constructor", "__defineGetter__", "__defineSetter__", "hasOwnProperty", "__lookupGetter__", "__lookupSetter__",
    "isPrototypeOf", "propertyIsEnumerable", "toString", "valueOf", "__proto__", "toLocaleString"]

namespace Session

/-- `sendControl`, which drops a message unless the WebSocket is open. -/
def sendControl (s : Session) (m : ClientMessage) : List ClientMessage := if s.readyState = .OPEN then [m] else []

/-- `Channel.finish`, and `closed` of the session. -/
def finish (s : Session) (i : ℕ) (c : Channel) : Session :=
  { s with
    channels := if s.channels c.conn = some i then Function.update s.channels c.conn none else s.channels
    made := s.made.set i c.destroyed }

/-- `destroy`: the channel is closed, once, and the other end may be told. -/
def destroy (s : Session) (i : ℕ) (code : String) (notify : Bool) : Session × List ClientMessage :=
  match s.made[i]? with
  | none => (s, [])
  | some c =>
    if c.done then (s, [])
    else (s.finish i c, if notify then s.sendControl (.resetConn c.conn code) else [])

/-- A push behind the end is an error of `raw`, and brings nothing. -/
def push (s : Session) (i : ℕ) (payload : Bytes) : Session × List ClientMessage :=
  match s.made[i]? with
  | none => (s, [])
  | some c =>
    if c.done then (s, [])
    else if STALLED_CHANNEL_BYTES < c.readable.length then s.destroy i "upstream_io_error" true
    else if c.inboundEnded then (s, [])
    else ({ s with made := s.made.set i { c with readable := c.readable ++ payload } }, [])

/-- `endInbound`: behind what the channel holds comes an end. -/
def endInbound (s : Session) (i : ℕ) : Session :=
  match s.made[i]? with
  | none => s
  | some c => if c.done then s else { s with made := s.made.set i { c with inboundEnded := true } }

/-- `channels.values()`. -/
def values (s : Session) : List ℕ :=
  (List.range s.made.length).filter fun i => (s.made[i]?).any fun c => s.channels c.conn = some i

/-- One `destroy` after the other. -/
def destroyAll (code : String) : List ℕ → Session → Session × List ClientMessage
  | [], s => (s, [])
  | i :: is, s =>
    let p := s.destroy i code true
    let q := destroyAll code is p.1
    (q.1, p.2 ++ q.2)

/-- `end`. -/
def finishSession (s : Session) : Session × List ClientMessage :=
  if s.isOver then (s, [])
  else
    let p := destroyAll "bridge disconnected" s.values { s with isOver := true }
    ({ p.1 with readyState := .CLOSED }, p.2)

/-- `onControl`, once the text is decoded. -/
def onControl (U : Unicode) (o : Options) (s : Session) : ServerMessage → Session × List ClientMessage
  | .attached .. => ({ s with attached := true }, [])
  | .attachError _ => if s.attached then (s, []) else s.finishSession
  | .openConn conn _ (some sni) _ =>
    if !s.attached then (s, [])
    else match Names.routeForSni U sni o.hostname with
      | none => (s, s.sendControl (.resetConn conn "unknown_route"))
      | some route =>
        if o.routes.contains route then
          ({ s with
            channels := Function.update s.channels conn (some s.made.length)
            made := s.made ++ [.new conn] }, [])
        -- `parseTarget` throws at what every object has
        else if OBJECT_PROTOTYPE.contains route then (s, [])
        else (s, s.sendControl (.resetConn conn "unknown_route"))
  | .endConn conn =>
    if !s.attached then (s, [])
    else match s.channels conn with
      | none => (s, [])
      | some i => (s.endInbound i, [])
  | .resetConn conn code =>
    if !s.attached then (s, [])
    else match s.channels conn with
      | none => (s, [])
      | some i => s.destroy i code false
  | _ => (s, [])

/-- `onData`: a frame that is no frame of a channel is dropped. -/
def onData (s : Session) (frame : Bytes) : Session × List ClientMessage :=
  match parseDataFrame frame with
  | none => (s, [])
  | some (conn, payload) =>
    match s.channels conn with
    | none => (s, [])
    | some i => s.push i payload

/-- The next message of the server, as long as the socket is open. Whether a
channel is stalled is seen from what it holds. -/
def take (U : Unicode) (o : Options) (s : Session) (m : ServerMessage) (_stalled : Bool) :
    Option (Session × List ClientMessage) :=
  if s.readyState = .OPEN then
    match m with
    | .dataFrame conn payload => some (s.onData (buildDataFrame conn payload))
    | m => some (s.onControl U o m)
  else none

end Session

/-- The session's own moves, and those of the sockets it serves. -/
inductive Move
  | open
  | ping (time_sent : ℕ)
  | read (i n : ℕ)
  | write (i : ℕ) (data : Bytes)
  | final (i : ℕ)
  | error (i : ℕ) (connecting : Bool)
  | close (i : ℕ)
  | closing
  | finish

namespace Session

/-- A channel that is not done goes on. -/
def goOn (s : Session) (i : ℕ) (f : Channel → Option (Channel × List ClientMessage)) :
    Option (Session × List ClientMessage) :=
  (s.made[i]?).bind fun c =>
    if c.done then none else (f c).map fun p => ({ s with made := s.made.set i p.1 }, p.2)

/-- What else happens in the session. -/
def move (o : Options) (s : Session) : Move → Option (Session × List ClientMessage)
  | .open =>
    if s.readyState = .CONNECTING ∧ s.isOver = false then
      some ({ s with readyState := .OPEN }, [.attach o.token o.routes])
    else none
  | .ping time_sent => if s.attached && !s.isOver then some (s, s.sendControl (.ping time_sent)) else none
  | .read i n =>
    s.goOn i fun c => some ({ c with readable := c.readable.drop n, handed := c.handed ++ c.readable.take n }, [])
  -- `sendData`
  | .write i data =>
    s.goOn i fun c =>
      if c.outbound ≠ .writable then none
      else if s.isOver = false ∧ s.readyState = .OPEN then
        some ({ c with wrote := c.wrote ++ data }, (sendDataChunks data).map (.dataFrame c.conn))
      else some ({ c with wrote := c.wrote ++ data, outbound := .failed }, [])
  | .final i =>
    s.goOn i fun c =>
      if c.outbound ≠ .writable then none
      else if s.readyState = .OPEN then some ({ c with outbound := .final }, [.endConn c.conn])
      else some ({ c with outbound := .failed }, [])
  | .error i connecting =>
    some (s.destroy i (if connecting then "upstream_connect_failed" else "upstream_io_error") true)
  | .close i => some (s.destroy i "" false)
  | .closing => some ({ s with readyState := .CLOSED }, [])
  | .finish => some s.finishSession

end Session

/-! ### What others see of it -/

/-- What is left of the half that sends. -/
def Outbound.sender : Outbound → Sender
  | .writable => .live
  | .final => .ended
  | .failed => .dead

/-- A write is sent at once or fails, so nothing waits in the channel. -/
def Channel.view (c : Channel) : ChannelView where
  handed := c.handed
  wrote := c.wrote
  unsent := []
  sender := c.outbound.sender

/-- The session's channel of a connection. -/
def Session.channel (s : Session) : ℕ → ChannelView := channelOf Channel.conn Channel.view s.made

/-- The TypeScript client. -/
def peer (U : Unicode) (o : Options) : Peer where
  Session := Session
  Move := Move
  start := { readyState := .CONNECTING, attached := false, isOver := false, channels := fun _ => none, made := [] }
  take := Session.take U o
  move := Session.move o
  channel := Session.channel

/-! ### One channel -/

namespace Channel

variable {c c' : Channel} {ms : List ClientMessage}

/-- Nothing is written, and only news of a break is sent. -/
theorem goes_quiet (hw : c'.wrote = c.wrote) (ho : c'.outbound = c.outbound ∨ c.outbound ≠ .final ∧ c'.outbound = .failed)
    (hms : ∀ m ∈ ms, m.conn? = some c.conn ∧ m.piece = .abort) : c.view.Goes c'.view c.conn ms := by
  have hw : c'.view.wrote = c.view.wrote := hw
  have habort : ∀ q ∈ pieces c.conn ms, q = .abort := fun q hq => by
    obtain ⟨m, hm, rfl⟩ := List.mem_map.mp hq
    exact (hms m (List.mem_filter.mp hm).1).2
  have hsmall : ∀ conn payload, .dataFrame conn payload ∈ ms → payload.length ≤ MAX_PAYLOAD_SIZE :=
    fun conn payload hm => by cases (hms _ hm).2
  rcases ho with ho | ⟨hne, ho⟩
  · have hs : c'.view.sender = c.view.sender := congrArg Outbound.sender ho
    refine ⟨fun m hm => (hms m hm).1, hsmall, fun got ps hc => ?_, by rw [hw], fun he => ⟨hs.trans he, hw⟩⟩
    rw [hw, hs]
    exact hc.abort habort
  · have hs : c'.view.sender = .dead := congrArg Outbound.sender ho
    have hended : c.view.sender ≠ .ended := fun he => by
      have he : c.outbound.sender = .ended := he
      cases hc : c.outbound with
      | final => exact hne hc
      | _ =>
        rw [hc] at he
        cases he
    refine ⟨fun m hm => (hms m hm).1, hsmall, fun got ps hc => ?_, by rw [hw], fun he => absurd he hended⟩
    rw [hw, hs]
    exact (hc.breaks hended _).abort habort

/-- A write that the bridge takes. -/
theorem goes_write (ho : c.outbound = .writable) (data : Bytes) :
    c.view.Goes ({ c with wrote := c.wrote ++ data } : Channel).view c.conn
      ((sendDataChunks data).map (.dataFrame c.conn)) := by
  have hs : c.view.sender = .live := congrArg Outbound.sender ho
  have hs' : ({ c with wrote := c.wrote ++ data } : Channel).view.sender = .live := congrArg Outbound.sender ho
  refine ⟨fun m hm => ?_, fun conn payload hm => ?_, fun got ps hc => ?_, List.prefix_append _ _, fun he => ?_⟩
  · obtain ⟨payload, -, rfl⟩ := List.mem_map.mp hm
    rfl
  · obtain ⟨payload', hp, he⟩ := List.mem_map.mp hm
    obtain ⟨-, rfl⟩ := ClientMessage.dataFrame.inj he
    exact sendDataChunks_length hp
  · rw [hs] at hc
    rw [hs', pieces_dataFrames]
    refine Carries.sendAll ?_
    rw [sendDataChunks_flatten]
    show Carries (c.wrote ++ data) (data ++ []) .live got ps
    rw [List.append_nil]
    exact hc.grow (by simp) data
  · rw [hs] at he
    cases he

/-- A write that the bridge does not take. -/
theorem goes_fail (ho : c.outbound = .writable) (data : Bytes) :
    c.view.Goes ({ c with wrote := c.wrote ++ data, outbound := .failed } : Channel).view c.conn [] := by
  have hs : c.view.sender = .live := congrArg Outbound.sender ho
  refine ⟨fun _ hm => (nomatch hm), fun _ _ hm => (nomatch hm), fun got ps hc => ?_, List.prefix_append _ _,
    fun he => ?_⟩
  · rw [hs] at hc
    rw [pieces_nil, List.append_nil]
    exact (hc.grow (by simp) data).breaks (by simp) _
  · rw [hs] at he
    cases he

theorem goes_final (ho : c.outbound = .writable) :
    c.view.Goes ({ c with outbound := .final } : Channel).view c.conn [.endConn c.conn] := by
  have hs : c.view.sender = .live := congrArg Outbound.sender ho
  refine ⟨fun m hm => ?_, fun _ _ hm => ?_, fun got ps hc => ?_, List.prefix_refl _, fun he => ?_⟩
  · rw [List.mem_singleton.mp hm]
    rfl
  · cases List.mem_singleton.mp hm
  · rw [hs] at hc
    rw [pieces_cons_of_eq rfl, pieces_nil]
    exact Carries.finish hc
  · rw [hs] at he
    cases he

/-- The channel was sent `whole`. -/
structure Receives (c : Channel) (whole : Bytes) : Prop where
  isPrefix : c.handed ++ c.readable <+: whole
  all : c.done = false → c.inboundEnded = false → c.handed ++ c.readable = whole

variable {whole : Bytes}

theorem receives_new (conn : ℕ) : (new conn).Receives [] := ⟨List.prefix_refl _, fun _ _ => rfl⟩

theorem Receives.same (h : c.Receives whole) (hb : c'.handed ++ c'.readable = c.handed ++ c.readable)
    (hd : c'.done = false → c.done = false) (he : c'.inboundEnded = false → c.inboundEnded = false) :
    c'.Receives whole :=
  ⟨by rw [hb]; exact h.isPrefix, fun hd' he' => hb.trans (h.all (hd hd') (he he'))⟩

/-- What is sent to it brings it nothing. -/
theorem Receives.lost (h : c.Receives whole) (hc : c.done = true ∨ c.inboundEnded = true) (payload : Bytes) :
    c.Receives (whole ++ payload) := by
  refine ⟨h.isPrefix.trans (List.prefix_append _ _), fun hd he => ?_⟩
  rcases hc with hc | hc
  · rw [hd] at hc
    cases hc
  · rw [he] at hc
    cases hc

theorem Receives.push (h : c.Receives whole) (hd : c.done = false) (he : c.inboundEnded = false) (payload : Bytes) :
    ({ c with readable := c.readable ++ payload } : Channel).Receives (whole ++ payload) := by
  have hall : c.handed ++ (c.readable ++ payload) = whole ++ payload := by rw [← List.append_assoc, h.all hd he]
  exact ⟨⟨[], by simpa using hall⟩, fun _ _ => hall⟩

end Channel

/-! ### The session keeps its channels -/

namespace Session

/-- Each connection it was told of has at most one channel, and the map holds
those that are not done. -/
structure Ok (s : Session) (known : List ℕ) : Prop where
  conns : OneEach Channel.conn s.made
  known : ∀ (i : ℕ) (c : Channel), s.made[i]? = some c → c.conn ∈ known
  channels : ∀ n i, s.channels n = some i → ∃ c : Channel, s.made[i]? = some c ∧ c.conn = n
  held : ∀ (i : ℕ) (c : Channel), s.made[i]? = some c → c.done = false → s.channels c.conn = some i

/-- The channel of the connection was sent `whole`. -/
def Receives (s : Session) (n : ℕ) (whole : Bytes) : Prop := ∀ c ∈ s.made, c.conn = n → c.Receives whole

/-- What a session owes whatever happens in it. -/
structure Keeps (s s' : Session) (known : List ℕ) (ms : List ClientMessage) : Prop where
  ok : s'.Ok known
  emits : Emits s.channel s'.channel known ms
  receives : ∀ n whole, s.Receives n whole → s'.Receives n whole

/-- And for a message it takes. -/
structure Takes (s s' : Session) (known : List ℕ) (m : ServerMessage) (ms : List ClientMessage) : Prop where
  ok : s'.Ok (known ++ opened [m])
  emits : Emits s.channel s'.channel (known ++ opened [m]) ms
  receives : ∀ n whole, (m.opens? = some n → whole = []) → s.Receives n whole →
    s'.Receives n (whole ++ payloads n [m])

variable {s s' s'' : Session} {known : List ℕ} {i : ℕ} {c c' : Channel} {ms ms' : List ClientMessage}

theorem Ok.mono {known' : List ℕ} (h : s.Ok known) (hk : known ⊆ known') : s.Ok known' :=
  ⟨h.conns, fun i c hc => hk (h.known i c hc), h.channels, h.held⟩

/-- The channels and the map stay as they are. -/
theorem Keeps.same (h : s.Ok known) (hmade : s'.made = s.made) (hch : s'.channels = s.channels)
    (hms : ∀ m ∈ ms, ∀ n, m.conn? = some n → n ∈ known ∧ m.piece = .abort) : Keeps s s' known ms := by
  have hview : s'.channel = s.channel := by
    unfold channel
    rw [hmade]
  refine ⟨⟨?_, ?_, ?_, ?_⟩, ?_, fun n whole hr => ?_⟩
  · rw [hmade]
    exact h.conns
  · rw [hmade]
    exact h.known
  · rw [hmade, hch]
    exact h.channels
  · rw [hmade, hch]
    exact h.held
  · rw [hview]
    exact .quiet (fun _ => ⟨rfl, .inl ⟨rfl, rfl⟩⟩) hms
  · unfold Receives
    rw [hmade]
    exact hr

theorem Keeps.refl (h : s.Ok known) : Keeps s s known [] := .same h rfl rfl fun _ hm => (nomatch hm)

theorem Keeps.trans (h : Keeps s s' known ms) (h' : Keeps s' s'' known ms') : Keeps s s'' known (ms ++ ms') :=
  ⟨h'.ok, h.emits.trans h'.emits, fun n whole hr => h'.receives n whole (h.receives n whole hr)⟩

/-- One channel goes on, and the map stays as it is. -/
theorem ok_change (h : s.Ok known) (hb : Becomes s.made s'.made i c c') (hch : s'.channels = s.channels)
    (hconn : c'.conn = c.conn) (hdone : c'.done = c.done) : s'.Ok known := by
  refine ⟨h.conns.becomes hb hconn, fun j x hj => ?_, fun n j hn => ?_, fun j x hj hd => ?_⟩
  · rcases hb.was hj with ⟨-, rfl⟩ | ⟨-, hj⟩
    · rw [hconn]
      exact h.known i c hb.before
    · exact h.known j x hj
  · rw [hch] at hn
    obtain ⟨x, hx, hxn⟩ := h.channels n j hn
    by_cases hj : j = i
    · obtain rfl := Option.some.inj ((hj ▸ hx).symm.trans hb.before)
      exact ⟨c', by rw [hb.after, if_pos hj], hconn.trans hxn⟩
    · exact ⟨x, by rw [hb.after, if_neg hj]; exact hx, hxn⟩
  · rw [hch]
    rcases hb.was hj with ⟨rfl, rfl⟩ | ⟨-, hj⟩
    · rw [hconn]
      exact h.held _ c hb.before (hdone.symm.trans hd)
    · exact h.held j x hj hd

theorem receives_change {n : ℕ} {whole whole' : Bytes} (h : s.Ok known) (hb : Becomes s.made s'.made i c c')
    (hconn : c'.conn = c.conn) (hr : s.Receives n whole) (hother : n ≠ c.conn → whole' = whole)
    (hthis : n = c.conn → c.Receives whole → c'.Receives whole') : s'.Receives n whole' := by
  intro x hx hxn
  obtain ⟨j, hj⟩ := List.mem_iff_getElem?.mp hx
  rcases hb.was hj with ⟨rfl, rfl⟩ | ⟨hne, hj⟩
  · have hn : n = c.conn := hxn.symm.trans hconn
    exact hthis hn (hr c (List.mem_of_getElem? hb.before) hn.symm)
  · have hn : n ≠ c.conn := fun he => hne (h.conns j i x c hj hb.before (hxn.trans he))
    rw [hother hn]
    exact hr x (List.mem_of_getElem? hj) hxn

theorem Keeps.change (h : s.Ok known) (hb : Becomes s.made s'.made i c c') (hch : s'.channels = s.channels)
    (hconn : c'.conn = c.conn) (hdone : c'.done = c.done) (hg : c.view.Goes c'.view c.conn ms)
    (hr : ∀ whole, c.Receives whole → c'.Receives whole) : Keeps s s' known ms :=
  ⟨ok_change h hb hch hconn hdone, hb.emits h.conns hconn (h.known i c hb.before) hg,
    fun _ whole hrec => receives_change h hb hconn hrec (fun _ => rfl) fun _ => hr whole⟩

/-- `sendControl` sends the message or nothing. -/
theorem mem_sendControl {m m' : ClientMessage} (h : m' ∈ s.sendControl m) : m' = m := by
  unfold sendControl at h
  split at h
  · exact List.mem_singleton.mp h
  · cases h

/-- A channel is destroyed and leaves the map. -/
theorem destroy_keeps (h : s.Ok known) (i : ℕ) (code : String) (notify : Bool) :
    Keeps s (s.destroy i code notify).1 known (s.destroy i code notify).2 := by
  unfold destroy
  split
  · exact .refl h
  · rename_i c hc
    split
    · exact .refl h
    · rename_i hd
      have hd : c.done = false := by simpa using hd
      have hheld : s.channels c.conn = some i := h.held i c hc hd
      have hb : Becomes s.made (s.finish i c).made i c c.destroyed := becomes_set hc _
      have hch : (s.finish i c).channels = Function.update s.channels c.conn none := if_pos hheld
      refine ⟨⟨h.conns.becomes hb rfl, fun j x hj => ?_, fun n j hn => ?_, fun j x hj hxd => ?_⟩,
        hb.emits h.conns rfl (h.known i c hc) ?_, fun n whole hr => ?_⟩
      · rcases hb.was hj with ⟨-, rfl⟩ | ⟨-, hj⟩
        · exact h.known i c hc
        · exact h.known j x hj
      · rw [hch] at hn
        by_cases hnc : n = c.conn
        · rw [hnc, Function.update_self] at hn
          cases hn
        · rw [Function.update_of_ne hnc] at hn
          obtain ⟨x, hx, hxn⟩ := h.channels n j hn
          have hj : j ≠ i := by
            rintro rfl
            obtain rfl := Option.some.inj (hx.symm.trans hc)
            exact hnc hxn.symm
          exact ⟨x, by rw [hb.after, if_neg hj]; exact hx, hxn⟩
      · rcases hb.was hj with ⟨-, rfl⟩ | ⟨hne, hj⟩
        · cases hxd
        · have hxc : x.conn ≠ c.conn := fun he => hne (h.conns j i x c hj hc he)
          rw [hch, Function.update_of_ne hxc]
          exact h.held j x hj hxd
      · refine Channel.goes_quiet rfl ?_ fun m hm => ?_
        · by_cases hf : c.outbound = .final
          · exact .inl (by simp [Channel.destroyed, hf])
          · exact .inr ⟨hf, by simp [Channel.destroyed, hf]⟩
        · split at hm
          · obtain rfl := mem_sendControl hm
            exact ⟨rfl, rfl⟩
          · cases hm
      · exact receives_change h hb rfl hr (fun _ => rfl) fun _ hrc => hrc.same rfl (fun he => (nomatch he)) fun he => he

theorem destroyAll_keeps (code : String) (is : List ℕ) (h : s.Ok known) :
    Keeps s (destroyAll code is s).1 known (destroyAll code is s).2 := by
  induction is generalizing s with
  | nil => exact .refl h
  | cons i is ih =>
    have hone := destroy_keeps h i code true
    exact hone.trans (ih hone.ok)

theorem finishSession_keeps (h : s.Ok known) : Keeps s s.finishSession.1 known s.finishSession.2 := by
  unfold finishSession
  split
  · exact .refl h
  · have hover : Keeps s { s with isOver := true } known [] := .same h rfl rfl fun _ hm => (nomatch hm)
    have hall := hover.trans (destroyAll_keeps "bridge disconnected" s.values hover.ok)
    rw [List.nil_append] at hall
    have hclosed : Keeps _ { (destroyAll "bridge disconnected" s.values { s with isOver := true }).1 with
        readyState := .CLOSED } known [] := .same hall.ok rfl rfl fun _ hm => (nomatch hm)
    have hboth := hall.trans hclosed
    rw [List.append_nil] at hboth
    exact hboth

/-! ### The server's messages -/

/-- A message that opens nothing and brings nothing. -/
theorem Keeps.takes {m : ServerMessage} (h : Keeps s s' known ms) (hm : opened [m] = [])
    (hp : ∀ n, payloads n [m] = []) : Takes s s' known m ms := by
  refine ⟨?_, ?_, fun n whole _ hr => ?_⟩
  · rw [hm, List.append_nil]
    exact h.ok
  · rw [hm, List.append_nil]
    exact h.emits
  · rw [hp n, List.append_nil]
    exact h.receives n whole hr

/-- A payload that comes to no channel is lost. -/
theorem receives_lost {n : ℕ} {whole : Bytes} (hr : s.Receives n whole)
    (hl : ∀ c ∈ s.made, c.conn = n → c.done = true ∨ c.inboundEnded = true) (payload : Bytes) :
    s.Receives n (whole ++ payload) :=
  fun c hc hn => (hr c hc hn).lost (hl c hc hn) payload

theorem onData_takes {conn : ℕ} {payload : Bytes} (h : s.Ok known) (hlt : conn < 2 ^ 32) :
    Takes s (s.onData (buildDataFrame conn payload)).1 known (.dataFrame conn payload)
      (s.onData (buildDataFrame conn payload)).2 := by
  have hother : ∀ {k : ℕ}, k ≠ conn → payloads k [.dataFrame conn payload] = [] := fun hk => by
    rw [payloads_dataFrame, if_neg (Ne.symm hk)]
  have hthis : payloads conn [.dataFrame conn payload] = payload := by rw [payloads_dataFrame, if_pos rfl]
  -- what keeps the channels, and has none for the payload
  have lost : ∀ {x : Session} {ns : List ClientMessage}, Keeps s x known ns →
      (∀ c ∈ x.made, c.conn = conn → c.done = true ∨ c.inboundEnded = true) →
      Takes s x known (.dataFrame conn payload) ns := fun {x ns} hk hl => by
    refine ⟨by simpa [opened, ServerMessage.opens?] using hk.ok,
      by simpa [opened, ServerMessage.opens?] using hk.emits, fun n whole _ hr => ?_⟩
    have hx := hk.receives n whole hr
    by_cases hn : n = conn
    · subst hn
      exact receives_lost hx hl _
    · rw [hother hn, List.append_nil]
      exact hx
  unfold onData
  rw [parseDataFrame_build hlt]
  simp only
  split
  · rename_i hnone
    refine lost (.refl h) fun c hc hn => .inl ?_
    obtain ⟨j, hj⟩ := List.mem_iff_getElem?.mp hc
    by_contra hd
    have hheld := h.held j c hj (by simpa using hd)
    rw [hn, hnone] at hheld
    cases hheld
  · rename_i i hi
    obtain ⟨c, hc, rfl⟩ := h.channels conn i hi
    have honly : ∀ x ∈ s.made, x.conn = c.conn → x = c := fun x hx hn => by
      obtain ⟨j, hj⟩ := List.mem_iff_getElem?.mp hx
      obtain rfl := h.conns j i x c hj hc hn
      exact Option.some.inj (hj.symm.trans hc)
    unfold push
    rw [hc]
    simp only
    split
    · rename_i hd
      exact lost (.refl h) fun x hx hn => .inl (by rw [honly x hx hn]; exact hd)
    · rename_i hd
      have hd : c.done = false := by simpa using hd
      split
      · -- the channel is stalled, and destroyed
        refine lost (destroy_keeps h i "upstream_io_error" true) fun x hx hn => .inl ?_
        unfold destroy at hx
        rw [hc] at hx
        simp only [hd, Bool.false_eq_true, if_false] at hx
        obtain ⟨j, hj⟩ := List.mem_iff_getElem?.mp hx
        rcases (becomes_set hc c.destroyed).was hj with ⟨-, rfl⟩ | ⟨hne, hj⟩
        · rfl
        · exact absurd (h.conns j i x c hj hc hn) hne
      · split
        · rename_i he
          exact lost (.refl h) fun x hx hn => .inr (by rw [honly x hx hn]; exact he)
        · rename_i he
          have he : c.inboundEnded = false := by simpa using he
          have hb : Becomes s.made { s with made := s.made.set i { c with readable := c.readable ++ payload } }.made i c
            { c with readable := c.readable ++ payload } := becomes_set hc _
          have hg : c.view.Goes ({ c with readable := c.readable ++ payload } : Channel).view c.conn [] :=
            Channel.goes_quiet rfl (.inl rfl) fun _ hm => absurd hm List.not_mem_nil
          refine ⟨?_, ?_, fun n whole _ hr => ?_⟩
          · exact (ok_change h hb rfl rfl rfl).mono (List.subset_append_left _ _)
          · exact hb.emits h.conns rfl (List.mem_append_left _ (h.known i c hc)) hg
          · refine receives_change h hb rfl hr (fun hn => ?_) fun hn hrc => ?_
            · rw [hother hn, List.append_nil]
            · rw [hn, hthis]
              exact hrc.push hd he payload

theorem open_takes {conn : ℕ} {m : ServerMessage} (h : s.Ok known) (hm : m.opens? = some conn)
    (hp : ∀ n, payloads n [m] = []) (hnew : conn ∉ known) :
    Takes s { s with channels := Function.update s.channels conn (some s.made.length), made := s.made ++ [.new conn] }
      known m [] := by
  have hopened : opened [m] = [conn] := by simp [opened, hm]
  have hfresh : ∀ c ∈ s.made, c.conn ≠ conn := fun c hc he => by
    obtain ⟨j, hj⟩ := List.mem_iff_getElem?.mp hc
    exact hnew (he ▸ h.known j c hj)
  refine ⟨⟨h.conns.concat hfresh, fun j x hj => ?_, fun n j hn => ?_, fun j x hj hd => ?_⟩, ?_,
    fun n whole hempty hr x hx hxn => ?_⟩
  · rw [hopened]
    rcases concat_was hj with hj | ⟨-, rfl⟩
    · exact List.mem_append_left _ (h.known j x hj)
    · exact List.mem_append_right _ (List.mem_singleton.mpr rfl)
  · by_cases hc : n = conn
    · subst hc
      simp only [Function.update_self] at hn
      obtain rfl := Option.some.inj hn
      exact ⟨.new n, List.getElem?_concat_length, rfl⟩
    · simp only [Function.update_of_ne hc] at hn
      obtain ⟨x, hx, hxn⟩ := h.channels n j hn
      refine ⟨x, ?_, hxn⟩
      rw [List.getElem?_append_left (List.getElem?_eq_some_iff.mp hx).1]
      exact hx
  · rcases concat_was hj with hj | ⟨rfl, rfl⟩
    · simp only [Function.update_of_ne (hfresh x (List.mem_of_getElem? hj))]
      exact h.held j x hj hd
    · exact Function.update_self ..
  · -- the new channel has written nothing
    have hview : Session.channel { s with
        channels := Function.update s.channels conn (some s.made.length), made := s.made ++ [.new conn] } =
        s.channel := funext (channelOf_concat rfl)
    rw [hview]
    exact .refl _ _
  · rw [hp n, List.append_nil]
    rcases List.mem_append.mp hx with hx | hx
    · exact hr x hx hxn
    · obtain rfl := List.mem_singleton.mp hx
      have hc : conn = n := hxn
      rw [hempty (hc ▸ hm)]
      exact Channel.receives_new conn

theorem endInbound_keeps (h : s.Ok known) (i : ℕ) : Keeps s (s.endInbound i) known [] := by
  unfold endInbound
  split
  · exact .refl h
  · rename_i c hc
    split
    · exact .refl h
    · have hb : Becomes s.made { s with made := s.made.set i { c with inboundEnded := true } }.made i c
        { c with inboundEnded := true } := becomes_set hc _
      exact .change h hb rfl rfl rfl (Channel.goes_quiet rfl (.inl rfl) fun _ hm => (nomatch hm)) fun _ hrc =>
        hrc.same rfl (fun hd => hd) fun he => (nomatch he)

theorem onControl_takes {U : Unicode} {o : Options} {m : ServerMessage} (h : s.Ok known)
    (hnew : ∀ n, m.opens? = some n → n ∉ known) (hp : ∀ n, payloads n [m] = []) :
    Takes s (s.onControl U o m).1 known m (s.onControl U o m).2 := by
  cases m with
  | attached session routes heartbeat_ms idle_timeout_ms =>
    have hk : Keeps s { s with attached := true } known [] := .same h rfl rfl fun _ hm => (nomatch hm)
    exact hk.takes rfl hp
  | attachError _ =>
    simp only [onControl]
    split
    · exact (Keeps.refl h).takes rfl hp
    · exact (finishSession_keeps h).takes rfl hp
  | openConn conn peer sni alpn =>
    have hopened : opened [.openConn conn peer sni alpn] = [conn] := rfl
    -- nothing is opened here, and at most a reset is sent
    have refused : ∀ {ns : List ClientMessage}, (∀ m ∈ ns, m = .resetConn conn "unknown_route") →
        Takes s s known (.openConn conn peer sni alpn) ns := fun hns => by
      refine ⟨h.mono (List.subset_append_left _ _), .quiet (fun _ => ⟨rfl, .inl ⟨rfl, rfl⟩⟩) fun m hm n hn => ?_,
        fun n whole _ hr => ?_⟩
      · obtain rfl := hns m hm
        obtain rfl := Option.some.inj hn
        rw [hopened]
        exact ⟨List.mem_append_right _ (List.mem_singleton.mpr rfl), rfl⟩
      · rw [hp n, List.append_nil]
        exact hr
    cases sni with
    | none => exact refused fun _ hm => (nomatch hm)
    | some sni =>
      simp only [onControl]
      split
      · exact refused fun _ hm => (nomatch hm)
      · split
        · exact refused fun m hm => mem_sendControl hm
        · split
          · exact open_takes h rfl hp (hnew conn rfl)
          · split
            · exact refused fun _ hm => (nomatch hm)
            · exact refused fun m hm => mem_sendControl hm
  | endConn conn =>
    simp only [onControl]
    split
    · exact (Keeps.refl h).takes rfl hp
    · split
      · exact (Keeps.refl h).takes rfl hp
      · exact (endInbound_keeps h _).takes rfl hp
  | resetConn conn code =>
    simp only [onControl]
    split
    · exact (Keeps.refl h).takes rfl hp
    · split
      · exact (Keeps.refl h).takes rfl hp
      · exact (destroy_keeps h _ code false).takes rfl hp
  | pong _ => exact (Keeps.refl h).takes rfl hp
  | dataFrame _ _ => exact (Keeps.refl h).takes rfl hp

theorem take_takes {U : Unicode} {o : Options} {m : ServerMessage} {stalled : Bool} (h : s.Ok known)
    (hlt : ∀ n, m.conn? = some n → n < 2 ^ 32) (hnew : ∀ n, m.opens? = some n → n ∉ known)
    (hs : s.take U o m stalled = some (s', ms)) : Takes s s' known m ms := by
  unfold take at hs
  split at hs
  · split at hs
    · rename_i conn payload
      have hdone : Takes s _ known (.dataFrame conn payload) _ := onData_takes h (hlt conn rfl)
      rw [Option.some.inj hs] at hdone
      exact hdone
    · rename_i hdata
      have hdone := onControl_takes (U := U) (o := o) h hnew fun n => ?_
      · rw [Option.some.inj hs] at hdone
        exact hdone
      · cases m with
        | dataFrame conn payload => exact absurd rfl (hdata conn payload)
        | _ => rfl
  · cases hs

/-! ### All else -/

theorem goOn_keeps {f : Channel → Option (Channel × List ClientMessage)} (h : s.Ok known)
    (hf : ∀ {c c' : Channel} {ns : List ClientMessage}, c.done = false → f c = some (c', ns) →
      c'.conn = c.conn ∧ c'.done = c.done ∧ c.view.Goes c'.view c.conn ns ∧ ∀ whole, c.Receives whole → c'.Receives whole)
    (hs : s.goOn i f = some (s', ms)) : Keeps s s' known ms := by
  obtain ⟨c, hc, hs⟩ := Option.bind_eq_some_iff.mp hs
  split at hs
  · cases hs
  · rename_i hd
    obtain ⟨⟨c', ns⟩, hfc, he⟩ := Option.map_eq_some_iff.mp hs
    obtain ⟨rfl, rfl⟩ := Prod.mk.inj he
    obtain ⟨hconn, hdone, hg, hr⟩ := hf (by simpa using hd) hfc
    have hb : Becomes s.made { s with made := s.made.set i c' }.made i c c' := becomes_set hc _
    exact .change h hb rfl hconn hdone hg hr

theorem move_keeps {o : Options} {μ : Move} (h : s.Ok known) (hs : s.move o μ = some (s', ms)) :
    Keeps s s' known ms := by
  have done : ∀ {p : Session × List ClientMessage}, some p = some (s', ms) → Keeps s p.1 known p.2 →
      Keeps s s' known ms := fun hs hk => by
    rw [Option.some.inj hs] at hk
    exact hk
  -- the read side of a channel stays as it is
  have reads : ∀ {c c' : Channel}, c'.handed = c.handed → c'.readable = c.readable → c'.done = c.done →
      c'.inboundEnded = c.inboundEnded → ∀ whole, c.Receives whole → c'.Receives whole :=
    fun hh hr hd he whole hrc => hrc.same (by rw [hh, hr]) (fun hd' => hd ▸ hd') fun he' => he ▸ he'
  cases μ with
  | «open» =>
    simp only [move] at hs
    split at hs
    · refine done hs (.same h rfl rfl fun m hm n hn => ?_)
      rw [List.mem_singleton.mp hm] at hn
      cases hn
    · cases hs
  | ping time_sent =>
    simp only [move] at hs
    split at hs
    · refine done hs (.same h rfl rfl fun m hm n hn => ?_)
      rw [mem_sendControl hm] at hn
      cases hn
    · cases hs
  | read i n =>
    refine goOn_keeps h (fun _ hfc => ?_) hs
    obtain ⟨rfl, rfl⟩ := Prod.mk.inj (Option.some.inj hfc)
    exact ⟨rfl, rfl, Channel.goes_quiet rfl (.inl rfl) fun _ hm => (nomatch hm), fun whole hrc =>
      hrc.same (by simp) (fun hd => hd) fun he => he⟩
  | write i data =>
    refine goOn_keeps h (fun _ hfc => ?_) hs
    split at hfc
    · cases hfc
    · rename_i ho
      have ho := not_not.mp ho
      split at hfc
      · obtain ⟨rfl, rfl⟩ := Prod.mk.inj (Option.some.inj hfc)
        exact ⟨rfl, rfl, Channel.goes_write ho data, reads rfl rfl rfl rfl⟩
      · obtain ⟨rfl, rfl⟩ := Prod.mk.inj (Option.some.inj hfc)
        exact ⟨rfl, rfl, Channel.goes_fail ho data, reads rfl rfl rfl rfl⟩
  | final i =>
    refine goOn_keeps h (fun _ hfc => ?_) hs
    split at hfc
    · cases hfc
    · rename_i ho
      have ho := not_not.mp ho
      split at hfc
      · obtain ⟨rfl, rfl⟩ := Prod.mk.inj (Option.some.inj hfc)
        exact ⟨rfl, rfl, Channel.goes_final ho, reads rfl rfl rfl rfl⟩
      · obtain ⟨rfl, rfl⟩ := Prod.mk.inj (Option.some.inj hfc)
        exact ⟨rfl, rfl, Channel.goes_quiet rfl (.inr ⟨by rw [ho]; simp, rfl⟩) fun _ hm => (nomatch hm),
          reads rfl rfl rfl rfl⟩
  | error i connecting => exact done hs (destroy_keeps h i _ true)
  | close i => exact done hs (destroy_keeps h i "" false)
  | closing => exact done hs (.same h rfl rfl fun _ hm => (nomatch hm))
  | finish => exact done hs (finishSession_keeps h)

theorem receives_of_unknown {n : ℕ} (h : s.Ok known) (hn : n ∉ known) : s.Receives n [] := fun c hc he => by
  obtain ⟨i, hi⟩ := List.mem_iff_getElem?.mp hc
  exact absurd (he ▸ h.known i c hi) hn

/-- A channel was handed a beginning of what it was sent. -/
theorem handed_prefix {n : ℕ} {whole : Bytes} (hr : s.Receives n whole) : (s.channel n).handed <+: whole := by
  unfold channel
  rcases channelOf_cases Channel.conn Channel.view s.made n with ⟨c, hc, hn, hv⟩ | ⟨-, hv⟩
  · rw [hv]
    exact (List.prefix_append _ _).trans (hr c hc hn).isPrefix
  · rw [hv]
    exact List.nil_prefix

end Session

/-- The TypeScript client keeps what a client must. -/
def faithful (U : Unicode) (o : Options) : (peer U o).Faithful where
  Ok := Session.Ok
  Receives := Session.Receives
  start := ⟨fun _ _ _ _ h => (nomatch h), fun _ _ h => (nomatch h), fun _ _ h => (nomatch h), fun _ _ h => (nomatch h)⟩
  unknown h hn := channelOf_of_forall_ne fun i c hc he => hn (he ▸ h.known i c hc)
  receives_unknown := Session.receives_of_unknown
  handed := Session.handed_prefix
  take := fun {s known m stalled s' ms} h hs hlt hnew => by
    have hs : Session.take U o s m stalled = some (s', ms) := hs
    obtain ⟨hok, hemits, hreceives⟩ := Session.take_takes h hlt hnew hs
    exact ⟨hok, hemits, hreceives⟩
  move h hs := by
    obtain ⟨hok, hemits, hreceives⟩ := Session.move_keeps h hs
    exact ⟨hok, hemits, hreceives⟩

end TypeScript

end ShuvTunnel
