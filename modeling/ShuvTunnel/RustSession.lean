/-
# The Rust client's session

`Supervisor::session` of `tunnel.rs`: the loop that takes the server's
messages, and a task `run_channel` for each connection. Of the task, `receive`
writes what the session puts into its queue to the TLS side, and `send` reads
what the TLS side wrote and sends it. The tasks run on several threads, so a
task that is aborted may still take steps until it is cancelled.

The queue `outbound`, the writer and the WebSocket are one FIFO, which is the
network's here.

Key definitions: `RunChannel.step`, `Session.take`, `Session.move`.
Key theorems: `RunChannel.steps_of_step`, `RunChannel.step_sends`, `Session.take_takes`, `Session.move_keeps`,
`faithful`.
-/
import ShuvTunnel.Sessions

namespace ShuvTunnel

open Hop (Carries Piece Sender)

namespace Rust

/-- So many messages wait for a channel. -/
def INBOUND_QUEUE : ℕ := 64

/-- So many bytes wait between a channel and the one who serves it. -/
def DUPLEX_BUFFER : ℕ := 64 * 1024

/-! ### `run_channel` -/

/-- What the session hands to a channel. -/
inductive Inbound
  | Data (payload : Bytes)
  | End

/-- The task `receive`: it waits for an item, writes a payload, or is over. -/
inductive Receive
  | recv
  | write_all (left : Bytes)
  | done
  deriving DecidableEq

/-- The future `send`: it reads, sends a frame or the end, has returned, or was
dropped. -/
inductive Send
  | read
  | frame (payload : Bytes)
  | ending
  | returned
  | dropped
  deriving DecidableEq

/-- The errors a channel ends with. -/
inductive ChannelError
  | Connect
  | Io

/-- The code of the error, which is sent in the reset. -/
def ChannelError.code : ChannelError → String
  | Connect => "upstream_connect_failed"
  | Io => "upstream_io_error"

/-- The task is running, has an error to report, has returned, or is joined. -/
inductive Progress
  | running
  | failed (error : ChannelError)
  | returned
  | joined

/-- A task `run_channel`: the queue of its `receive` and what that handed to the
TLS side; what the TLS side wrote, what of it `send` has not read, and whether
it has shut its half down. -/
structure RunChannel where
  conn : ℕ
  inbound : List Inbound
  receive : Receive
  handed : Bytes
  wrote : Bytes
  duplex : Bytes
  shut : Bool
  send : Send
  progress : Progress
  aborted : Bool

/-- The steps of `run_channel`, and of the one who serves the other end. -/
inductive ChannelMove
  | recv
  | write (n : ℕ)
  | receiveFails
  | serve (data : Bytes)
  | shutdown
  | read (n : ℕ)
  | send
  | fail (error : ChannelError)
  | report
  | finish
  | cancel

namespace RunChannel

/-- A channel that is just spawned. -/
def spawn (conn : ℕ) : RunChannel where
  conn := conn
  inbound := []
  receive := .recv
  handed := []
  wrote := []
  duplex := []
  shut := false
  send := .read
  progress := .running
  aborted := false

/-- The future `send` is dropped, unless it has returned. -/
def dropSend (t : RunChannel) : RunChannel :=
  { t with send := if t.send = .returned then .returned else .dropped, shut := true }

/-- What may happen in the task, and what it sends. -/
def step (t : RunChannel) : ChannelMove → Option (RunChannel × List ClientMessage)
  -- `inbound.recv()`; at `End` the half is shut down
  | .recv =>
    match t.receive, t.inbound with
    | .recv, .Data payload :: inbound => some ({ t with inbound, receive := .write_all payload }, [])
    | .recv, .End :: inbound => some ({ t with inbound, receive := .done }, [])
    | _, _ => none
  -- `local_write.write_all(&payload)` writes some bytes
  | .write n =>
    match t.receive with
    | .write_all left =>
      if left.length ≤ n then some ({ t with handed := t.handed ++ left, receive := .recv }, [])
      else some ({ t with handed := t.handed ++ left.take n, receive := .write_all (left.drop n) }, [])
    | _ => none
  -- an error, the end of the queue's sender, or `receive.abort()`
  | .receiveFails => some ({ t with receive := .done }, [])
  | .serve data =>
    match t.progress with
    | .running =>
      if !t.shut && t.duplex.length + data.length ≤ DUPLEX_BUFFER then
        some ({ t with wrote := t.wrote ++ data, duplex := t.duplex ++ data }, [])
      else none
    | _ => none
  | .shutdown => some ({ t with shut := true }, [])
  -- `local_read.read(&mut buffer)`
  | .read n =>
    match t.progress, t.send with
    | .running, .read =>
      if t.duplex = [] then if t.shut then some ({ t with send := .ending }, []) else none
      else if 0 < n ∧ n ≤ MAX_PAYLOAD_SIZE then
        some ({ t with send := .frame (t.duplex.take n), duplex := t.duplex.drop n }, [])
      else none
    | _, _ => none
  -- `outbound.send(message)`
  | .send =>
    match t.progress, t.send with
    | .running, .frame payload => some ({ t with send := .read }, [.dataFrame t.conn payload])
    | .running, .ending => some ({ t with send := .returned }, [.endConn t.conn])
    | _, _ => none
  | .fail error =>
    match t.progress with
    | .running => some ({ t.dropSend with progress := .failed error, receive := .done }, [])
    | _ => none
  | .report =>
    match t.progress with
    | .failed error => some ({ t with progress := .returned }, [.resetConn t.conn error.code])
    | _ => none
  | .finish =>
    match t.progress with
    | .running =>
      if t.send = .returned then some ({ t with progress := .returned, receive := .done }, []) else none
    | _ => none
  | .cancel => if t.aborted then some ({ t.dropSend with progress := .joined }, []) else none

end RunChannel

/-! ### The session -/

/-- What the session waits for. -/
inductive Phase
  | connecting
  | attaching
  | attached
  deriving DecidableEq

/-- The session: the map `channels`, from a connection to its task, and the
tasks in the order they were spawned. -/
structure Session where
  phase : Phase
  isOver : Bool
  channels : ℕ → Option ℕ
  tasks : List RunChannel

namespace Session

/-- `channels.remove(&conn)` and `channel.abort.abort()`. -/
def abort (s : Session) (conn i : ℕ) : Session :=
  { s with
    channels := Function.update s.channels conn none
    tasks := s.tasks.modify i fun t => { t with aborted := true } }

/-- `channel.inbound.send(item)`, when it is done: the queue has room, or its
receiver is gone. -/
def sendInbound (s : Session) (i : ℕ) (item : Inbound) : Option Session :=
  (s.tasks[i]?).bind fun t =>
    if t.receive = .done then some s
    else if t.inbound.length < INBOUND_QUEUE then
      some { s with tasks := s.tasks.set i { t with inbound := t.inbound ++ [item] } }
    else none

/-- A binary message; `stalled` tells that the channel's queue stayed full for
`STALLED_CHANNEL_TIMEOUT`. -/
def onBinary (s : Session) (frame : Bytes) (stalled : Bool) : Option (Session × List ClientMessage) :=
  match decode_data_frame frame with
  | none => some (s, [])
  | some (conn, payload) =>
    match s.channels conn with
    | none => some (s, [])
    | some i =>
      match s.sendInbound i (.Data payload) with
      | some s' => some (s', [])
      | none => if stalled then some (s.abort conn i, [.resetConn conn "upstream_io_error"]) else none

/-- A message once the session is attached. An `open` without a server name
does not decode. -/
def onMessage (o : Options) (s : Session) (stalled : Bool) : ServerMessage → Option (Session × List ClientMessage)
  | .dataFrame conn payload => s.onBinary (buildDataFrame conn payload) stalled
  | .openConn conn _ (some sni) _ =>
    match (Rust.routeForSni sni o.hostname).filter fun route => o.routes.contains route with
    | none => some (s, [.resetConn conn "unknown_route"])
    | some _ =>
      some ({ s with
        channels := Function.update s.channels conn (some s.tasks.length)
        tasks := s.tasks ++ [.spawn conn] }, [])
  | .endConn conn =>
    match s.channels conn with
    | none => some (s, [])
    | some i => (s.sendInbound i .End).map fun s' => (s', [])
  | .resetConn conn _ =>
    match s.channels conn with
    | none => some (s, [])
    | some i => some (s.abort conn i, [])
  | _ => some (s, [])

/-- The next message of the server. -/
def take (o : Options) (s : Session) (m : ServerMessage) (stalled : Bool) : Option (Session × List ClientMessage) :=
  if s.isOver then none
  else match s.phase, m with
    | .connecting, _ => none
    | .attaching, .attached .. => some ({ s with phase := .attached }, [])
    | .attaching, .attachError _ => some ({ s with isOver := true }, [])
    | .attaching, _ => some (s, [])
    | .attached, m => s.onMessage o stalled m

end Session

/-- The session's own moves. -/
inductive Move
  | attach
  | ping (time_sent : ℕ)
  | channel (i : ℕ) (move : ChannelMove)
  | join (i : ℕ)
  | disconnect

namespace Session

/-- What else happens in the session. When it is over nothing can be sent. -/
def move (o : Options) (s : Session) : Move → Option (Session × List ClientMessage)
  | .attach =>
    if !s.isOver && s.phase = .connecting then some ({ s with phase := .attaching }, [.attach o.token o.routes])
    else none
  | .ping time_sent => if !s.isOver && s.phase = .attached then some (s, [.ping time_sent]) else none
  | .channel i μ =>
    (s.tasks[i]?).bind fun t => (t.step μ).bind fun p =>
      if s.isOver && !p.2.isEmpty then none else some ({ s with tasks := s.tasks.set i p.1 }, p.2)
  | .join i =>
    (s.tasks[i]?).bind fun t =>
      match t.progress with
      | .returned =>
        some ({ s with
          channels := Function.update s.channels t.conn none
          tasks := s.tasks.set i { t with progress := .joined } }, [])
      | _ => none
  | .disconnect =>
    if s.isOver then none
    else some ({ s with
      isOver := true
      channels := fun _ => none
      tasks := s.tasks.map fun t => { t with aborted := true } }, [])

end Session

/-! ### What others see of it -/

/-- What `send` has read and not sent. -/
def Send.payload : Send → Bytes
  | .frame payload => payload
  | _ => []

/-- What is left of the half that sends. -/
def Send.sender : Send → Sender
  | .returned => .ended
  | .dropped => .dead
  | _ => .live

/-- The channel as the other end of the bridge may know it. -/
def RunChannel.view (t : RunChannel) : ChannelView where
  handed := t.handed
  wrote := t.wrote
  unsent := t.send.payload ++ t.duplex
  sender := t.send.sender

/-- The channel of a connection. -/
def Session.channel (s : Session) : ℕ → ChannelView := channelOf RunChannel.conn RunChannel.view s.tasks

/-- The Rust client. -/
def peer (o : Options) : Peer where
  Session := Session
  Move := Move
  start := { phase := .connecting, isOver := false, channels := fun _ => none, tasks := [] }
  take := Session.take o
  move := Session.move o
  channel := Session.channel

/-! ### One task -/

namespace RunChannel

/-- What a step can do, and when. -/
inductive Steps (t : RunChannel) : ChannelMove → RunChannel → List ClientMessage → Prop
  | takes {payload : Bytes} {inbound : List Inbound} (hr : t.receive = .recv)
      (hi : t.inbound = .Data payload :: inbound) :
      Steps t .recv { t with inbound, receive := .write_all payload } []
  | takesEnd {inbound : List Inbound} (hr : t.receive = .recv) (hi : t.inbound = .End :: inbound) :
      Steps t .recv { t with inbound, receive := .done } []
  | writesAll {left : Bytes} {n : ℕ} (hr : t.receive = .write_all left) (hn : left.length ≤ n) :
      Steps t (.write n) { t with handed := t.handed ++ left, receive := .recv } []
  | writes {left : Bytes} {n : ℕ} (hr : t.receive = .write_all left) (hn : n < left.length) :
      Steps t (.write n) { t with handed := t.handed ++ left.take n, receive := .write_all (left.drop n) } []
  | receiveFails : Steps t .receiveFails { t with receive := .done } []
  | serves {data : Bytes} (hp : t.progress = .running) (hshut : t.shut = false)
      (hroom : t.duplex.length + data.length ≤ DUPLEX_BUFFER) :
      Steps t (.serve data) { t with wrote := t.wrote ++ data, duplex := t.duplex ++ data } []
  | shutdown : Steps t .shutdown { t with shut := true } []
  | readsEnd {n : ℕ} (hp : t.progress = .running) (hs : t.send = .read) (hd : t.duplex = []) (hshut : t.shut = true) :
      Steps t (.read n) { t with send := .ending } []
  | reads {n : ℕ} (hp : t.progress = .running) (hs : t.send = .read) (hn : 0 < n ∧ n ≤ MAX_PAYLOAD_SIZE) :
      Steps t (.read n) { t with send := .frame (t.duplex.take n), duplex := t.duplex.drop n } []
  | sends {payload : Bytes} (hp : t.progress = .running) (hs : t.send = .frame payload) :
      Steps t .send { t with send := .read } [.dataFrame t.conn payload]
  | sendsEnd (hp : t.progress = .running) (hs : t.send = .ending) :
      Steps t .send { t with send := .returned } [.endConn t.conn]
  | fails {error : ChannelError} (hp : t.progress = .running) :
      Steps t (.fail error) { t.dropSend with progress := .failed error, receive := .done } []
  | reports {error : ChannelError} (hp : t.progress = .failed error) :
      Steps t .report { t with progress := .returned } [.resetConn t.conn error.code]
  | finishes (hp : t.progress = .running) (hs : t.send = .returned) :
      Steps t .finish { t with progress := .returned, receive := .done } []
  | cancelled (ha : t.aborted = true) : Steps t .cancel { t.dropSend with progress := .joined } []

theorem steps_of_step {t t' : RunChannel} {μ : ChannelMove} {ms : List ClientMessage} (h : t.step μ = some (t', ms)) :
    Steps t μ t' ms := by
  have done : ∀ {x : RunChannel} {ns : List ClientMessage}, some (x, ns) = some (t', ms) → Steps t μ x ns →
      Steps t μ t' ms := fun h hx => by
    obtain ⟨rfl, rfl⟩ := Prod.mk.inj (Option.some.inj h)
    exact hx
  cases μ with
  | recv =>
    simp only [step] at h
    split at h
    · rename_i hr hi
      exact done h (.takes hr hi)
    · rename_i hr hi
      exact done h (.takesEnd hr hi)
    · cases h
  | write n =>
    simp only [step] at h
    split at h
    · rename_i hr
      split at h
      · rename_i hn
        exact done h (.writesAll hr hn)
      · rename_i hn
        exact done h (.writes hr (Nat.lt_of_not_le hn))
    · cases h
  | receiveFails => exact done h .receiveFails
  | serve data =>
    simp only [step] at h
    split at h
    · rename_i hp
      obtain ⟨hif, h⟩ := Option.ite_none_right_eq_some.mp h
      simp only [Bool.and_eq_true, Bool.not_eq_true', decide_eq_true_eq] at hif
      exact done h (.serves hp hif.1 hif.2)
    · cases h
  | shutdown => exact done h .shutdown
  | read n =>
    simp only [step] at h
    split at h
    · rename_i hp hs
      split at h
      · rename_i hd
        obtain ⟨hshut, h⟩ := Option.ite_none_right_eq_some.mp h
        exact done h (.readsEnd hp hs hd hshut)
      · obtain ⟨hn, h⟩ := Option.ite_none_right_eq_some.mp h
        exact done h (.reads hp hs hn)
    · cases h
  | send =>
    simp only [step] at h
    split at h
    · rename_i hp hs
      exact done h (.sends hp hs)
    · rename_i hp hs
      exact done h (.sendsEnd hp hs)
    · cases h
  | fail error =>
    simp only [step] at h
    split at h
    · rename_i hp
      exact done h (.fails hp)
    · cases h
  | report =>
    simp only [step] at h
    split at h
    · rename_i hp
      exact done h (.reports hp)
    · cases h
  | finish =>
    simp only [step] at h
    split at h
    · rename_i hp
      obtain ⟨hs, h⟩ := Option.ite_none_right_eq_some.mp h
      exact done h (.finishes hp hs)
    · cases h
  | cancel =>
    obtain ⟨ha, h⟩ := Option.ite_none_right_eq_some.mp h
    exact done h (.cancelled ha)

/-- Once the end is to be sent, all is read; and frames are small. -/
structure Ok (t : RunChannel) : Prop where
  drained : t.send = .ending ∨ t.send = .returned → t.duplex = [] ∧ t.shut = true
  small : ∀ payload, t.send = .frame payload → payload.length ≤ MAX_PAYLOAD_SIZE

theorem ok_spawn (conn : ℕ) : (spawn conn).Ok := by
  refine ⟨fun h => ?_, fun _ h => (nomatch h)⟩
  rcases h with h | h <;> cases h

theorem sender_ended {t : RunChannel} (h : t.view.sender = .ended) : t.send = .returned := by
  have h : t.send.sender = .ended := h
  cases hs : t.send with
  | returned => rfl
  | _ =>
    rw [hs] at h
    cases h

/-- What a step does to the bytes the TLS side writes, and what it sends. -/
structure Sends (t t' : RunChannel) (ms : List ClientMessage) : Prop where
  conn : t'.conn = t.conn
  ok : t'.Ok
  goes : t.view.Goes t'.view t.conn ms

/-- A step that leaves that half alone. -/
theorem Sends.same {t t' : RunChannel} (ht : t.Ok) (hconn : t'.conn = t.conn) (hw : t'.wrote = t.wrote)
    (hd : t'.duplex = t.duplex) (hs : t'.send = t.send) (hshut : t'.shut = t.shut) : Sends t t' [] := by
  have hw : t'.view.wrote = t.view.wrote := hw
  have hview : t'.view.unsent = t.view.unsent ∧ t'.view.sender = t.view.sender := by
    unfold view
    rw [hd, hs]
    exact ⟨rfl, rfl⟩
  refine ⟨hconn, ⟨?_, ?_⟩, fun _ h => (nomatch h), fun _ _ h => (nomatch h), fun got ps hc => ?_, ?_, fun he => ?_⟩
  · rw [hs, hd, hshut]
    exact ht.drained
  · rw [hs]
    exact ht.small
  · rw [hw, hview.1, hview.2, pieces_nil, List.append_nil]
    exact hc
  · rw [hw]
  · rw [hview.2, hw]
    exact ⟨he, rfl⟩

/-- `send` is dropped. -/
theorem Sends.drop {t t' : RunChannel} (ht : t.Ok) (hconn : t'.conn = t.conn) (hw : t'.wrote = t.wrote)
    (hd : t'.duplex = t.duplex) (hs : t'.send = t.dropSend.send) (hshut : t'.shut = true) : Sends t t' [] := by
  have hview : t'.view.wrote = t.view.wrote := hw
  by_cases hr : t.send = .returned
  · have hs : t'.send = t.send := by
      rw [hs]
      unfold dropSend
      rw [if_pos hr, hr]
    exact .same ht hconn hw hd hs (hshut.trans (ht.drained (.inr hr)).2.symm)
  · have hs : t'.send = .dropped := by
      rw [hs]
      unfold dropSend
      rw [if_neg hr]
    have hne : t.view.sender ≠ .ended := fun he => hr (sender_ended he)
    have hdead : t'.view.sender = .dead := by
      unfold view
      rw [hs]
      rfl
    refine ⟨hconn, ⟨fun h => ?_, fun _ h => ?_⟩, fun _ h => (nomatch h), fun _ _ h => (nomatch h), fun got ps hc => ?_,
      by rw [hview], fun he => absurd he hne⟩
    · rw [hs] at h
      rcases h with h | h <;> cases h
    · rw [hs] at h
      cases h
    · rw [hview, hdead, pieces_nil, List.append_nil]
      exact hc.breaks hne _

variable {t t' : RunChannel}

/-- The TLS side writes some bytes. -/
theorem Sends.serve (ht : t.Ok) (hopen : t.shut = false) (data : Bytes) :
    Sends t { t with wrote := t.wrote ++ data, duplex := t.duplex ++ data } [] := by
  -- the half is not shut down, so the end was not sent
  have hgoes : ¬ (t.send = .ending ∨ t.send = .returned) := fun hs => by
    have := (ht.drained hs).2
    rw [hopen] at this
    cases this
  have hne : t.view.sender ≠ .ended := fun he => hgoes (.inr (sender_ended he))
  refine ⟨rfl, ⟨fun hs => absurd hs hgoes, ht.small⟩, fun _ h => (nomatch h), fun _ _ h => (nomatch h),
    fun got ps hc => ?_, List.prefix_append _ _, fun he => absurd he hne⟩
  have hgrow := hc.grow hne data
  rw [pieces_nil, List.append_nil]
  show Carries (t.wrote ++ data) (t.send.payload ++ (t.duplex ++ data)) t.send.sender got ps
  rw [← List.append_assoc]
  exact hgrow

theorem Sends.shutdown (ht : t.Ok) : Sends t { t with shut := true } [] := by
  refine ⟨rfl, ⟨fun hs => ⟨(ht.drained hs).1, rfl⟩, ht.small⟩, fun _ h => (nomatch h), fun _ _ h => (nomatch h),
    fun got ps hc => ?_, List.prefix_refl _, fun he => ⟨he, rfl⟩⟩
  rw [pieces_nil, List.append_nil]
  exact hc

/-- All is read, and the end is to be sent. -/
theorem Sends.ending (hsend : t.send = .read) (hempty : t.duplex = []) (hshut : t.shut = true) :
    Sends t { t with send := .ending } [] := by
  refine ⟨rfl, ⟨fun _ => ⟨hempty, hshut⟩, fun _ h => (nomatch h)⟩, fun _ h => (nomatch h), fun _ _ h => (nomatch h),
    fun got ps hc => ?_, List.prefix_refl _, fun he => ?_⟩
  · rw [pieces_nil, List.append_nil]
    unfold view at hc
    rw [hsend] at hc
    exact hc
  · unfold view at he
    rw [hsend] at he
    cases he

/-- What is read is still to be sent. -/
theorem Sends.read (hsend : t.send = .read) {n : ℕ} (hn : n ≤ MAX_PAYLOAD_SIZE) :
    Sends t { t with send := .frame (t.duplex.take n), duplex := t.duplex.drop n } [] := by
  refine ⟨rfl, ⟨fun h => ?_, fun payload hp => ?_⟩, fun _ h => (nomatch h), fun _ _ h => (nomatch h),
    fun got ps hc => ?_, List.prefix_refl _, fun he => ?_⟩
  · rcases h with h | h <;> cases h
  · obtain rfl := Send.frame.inj hp
    exact (List.length_take_le _ _).trans hn
  · rw [pieces_nil, List.append_nil]
    unfold view at hc
    rw [hsend] at hc
    show Carries t.wrote (t.duplex.take n ++ t.duplex.drop n) .live got ps
    rw [List.take_append_drop]
    exact hc
  · unfold view at he
    rw [hsend] at he
    cases he

theorem Sends.frame (ht : t.Ok) {payload : Bytes} (hsend : t.send = .frame payload) :
    Sends t { t with send := .read } [.dataFrame t.conn payload] := by
  refine ⟨rfl, ⟨fun h => ?_, fun _ h => (nomatch h)⟩, fun m hm => ?_, fun conn p hm => ?_, fun got ps hc => ?_,
    List.prefix_refl _, fun he => ?_⟩
  · rcases h with h | h <;> cases h
  · rw [List.mem_singleton.mp hm]
    rfl
  · obtain ⟨-, rfl⟩ := ClientMessage.dataFrame.inj (List.mem_singleton.mp hm)
    exact ht.small _ hsend
  · unfold view at hc
    rw [hsend] at hc
    rw [pieces_cons_of_eq rfl, pieces_nil]
    exact Carries.send hc
  · unfold view at he
    rw [hsend] at he
    cases he

/-- The end is sent, behind all that was written. -/
theorem Sends.end (ht : t.Ok) (hsend : t.send = .ending) : Sends t { t with send := .returned } [.endConn t.conn] := by
  obtain ⟨hempty, hshut⟩ := ht.drained (.inl hsend)
  refine ⟨rfl, ⟨fun _ => ⟨hempty, hshut⟩, fun _ h => (nomatch h)⟩, fun m hm => ?_, fun conn p hm => ?_,
    fun got ps hc => ?_, List.prefix_refl _, fun he => ?_⟩
  · rw [List.mem_singleton.mp hm]
    rfl
  · cases List.mem_singleton.mp hm
  · unfold view at hc
    rw [hsend, hempty] at hc
    rw [pieces_cons_of_eq rfl, pieces_nil]
    show Carries t.wrote ([] ++ t.duplex) .ended got (ps ++ [.fin])
    rw [hempty]
    exact Carries.finish hc
  · unfold view at he
    rw [hsend] at he
    cases he

theorem Sends.report (ht : t.Ok) (error : ChannelError) :
    Sends t { t with progress := .returned } [.resetConn t.conn error.code] := by
  have hsame : Sends t { t with progress := .returned } [] := .same ht rfl rfl rfl rfl rfl
  refine ⟨rfl, hsame.ok, fun m hm => ?_, fun conn p hm => ?_, fun got ps hc => ?_, hsame.goes.wrote, hsame.goes.ended⟩
  · rw [List.mem_singleton.mp hm]
    rfl
  · cases List.mem_singleton.mp hm
  · rw [pieces_cons_of_eq rfl, pieces_nil]
    exact hc.abort fun q hq => List.mem_singleton.mp hq

theorem step_sends {μ : ChannelMove} {ms : List ClientMessage} (ht : t.Ok) (h : t.step μ = some (t', ms)) :
    Sends t t' ms := by
  cases steps_of_step h with
  | takes | takesEnd | writesAll | writes | receiveFails | finishes => exact .same ht rfl rfl rfl rfl rfl
  | serves _ hshut => exact .serve ht hshut _
  | shutdown => exact .shutdown ht
  | readsEnd _ hs hd hshut => exact .ending hs hd hshut
  | reads _ hs hn => exact .read hs hn.2
  | sends _ hs => exact .frame ht hs
  | sendsEnd _ hs => exact .end ht hs
  | reports => exact .report ht _
  | fails | cancelled => exact .drop ht rfl rfl rfl rfl rfl

end RunChannel

/-! ### What a task is handed -/

/-- An `End` is news of a break: nothing is promised of what comes behind it. -/
def Inbound.piece : Inbound → Piece UInt8
  | .Data payload => .data payload
  | .End => .abort

/-- What `receive` is writing. -/
def Receive.left : Receive → Bytes
  | .write_all left => left
  | _ => []

namespace RunChannel

/-- The task was sent `whole`; what the session cannot send it any more does
not matter. -/
structure Receives (t : RunChannel) (held : Prop) (whole : Bytes) : Prop where
  handed : t.handed <+: whole
  queue : t.receive ≠ .done → ∃ s : Sender, (held → s = .live) ∧
    Carries whole [] s (t.handed ++ t.receive.left) (t.inbound.map (·.piece))

variable {t t' : RunChannel} {held held' : Prop} {whole : Bytes}

theorem receives_spawn (conn : ℕ) (held : Prop) : (spawn conn).Receives held [] :=
  ⟨List.prefix_refl _, fun _ => ⟨.live, fun _ => rfl, .start []⟩⟩

/-- The session need not hold the task's sender any more. -/
theorem Receives.mono (h : t.Receives held whole) (hh : held' → held) : t.Receives held' whole :=
  ⟨h.handed, fun hr => by
    obtain ⟨s, hs, hc⟩ := h.queue hr
    exact ⟨s, fun hheld => hs (hh hheld), hc⟩⟩

theorem Receives.same (h : t.Receives held whole) (hh : t'.handed = t.handed) (hr : t'.receive = t.receive)
    (hi : t'.inbound = t.inbound) : t'.Receives held whole := by
  refine ⟨by rw [hh]; exact h.handed, fun ho => ?_⟩
  rw [hh, hr, hi]
  exact h.queue (hr ▸ ho)

/-- `receive` is over, and hands on nothing more. -/
theorem Receives.done (h : t.Receives held whole) (hh : t'.handed = t.handed) (hr : t'.receive = .done) :
    t'.Receives held whole :=
  ⟨by rw [hh]; exact h.handed, fun ho => absurd hr ho⟩

/-- More is sent, not to this task. -/
theorem Receives.grow (h : t.Receives held whole) (hheld : ¬ held) (payload : Bytes) :
    t.Receives held (whole ++ payload) := by
  refine ⟨h.handed.trans (List.prefix_append _ _), fun hr => ?_⟩
  obtain ⟨s, -, hc⟩ := h.queue hr
  refine ⟨.dead, fun h => absurd h hheld, hc.isPrefix.trans (List.prefix_append _ _), fun h => (nomatch h),
    fun hf => ?_⟩
  -- the queue holds no end
  exfalso
  generalize t.inbound = items at hf
  induction items with
  | nil => cases hf
  | cons item items ih =>
    cases item with
    | Data payload => exact ih hf
    | End => cases hf

/-- `receive` is over, so what is sent is lost. -/
theorem Receives.lost (h : t.Receives held whole) (hr : t.receive = .done) (payload : Bytes) :
    t.Receives held (whole ++ payload) :=
  ⟨h.handed.trans (List.prefix_append _ _), fun ho => absurd hr ho⟩

/-- The session puts a payload into the queue. -/
theorem Receives.push (h : t.Receives held whole) (hheld : held) (payload : Bytes) :
    ({ t with inbound := t.inbound ++ [.Data payload] } : RunChannel).Receives held (whole ++ payload) := by
  refine ⟨h.handed.trans (List.prefix_append _ _), fun hr => ?_⟩
  obtain ⟨s, hs, hc⟩ := h.queue hr
  obtain rfl := hs hheld
  refine ⟨.live, fun _ => rfl, ?_⟩
  have hgrown : Carries (whole ++ payload) (payload ++ []) .live (t.handed ++ t.receive.left)
      (t.inbound.map (·.piece)) := by
    rw [List.append_nil]
    exact hc.grow (by simp) payload
  simpa [Inbound.piece] using hgrown.send

theorem Receives.pushEnd (h : t.Receives held whole) :
    ({ t with inbound := t.inbound ++ [.End] } : RunChannel).Receives held whole := by
  refine ⟨h.handed, fun hr => ?_⟩
  obtain ⟨s, hs, hc⟩ := h.queue hr
  refine ⟨s, hs, ?_⟩
  have hbroken : Carries whole [] s (t.handed ++ t.receive.left) (t.inbound.map (·.piece) ++ [.abort]) :=
    hc.abort fun q hq => List.mem_singleton.mp hq
  simpa [Inbound.piece] using hbroken

/-- What the task does hands on what it was sent, in order. -/
theorem Receives.step {μ : ChannelMove} {ms : List ClientMessage} (h : t.Receives held whole)
    (hs : t.step μ = some (t', ms)) : t'.Receives held whole := by
  cases steps_of_step hs with
  | takes hr hi =>
    refine ⟨h.handed, fun _ => ?_⟩
    obtain ⟨s, hheld, hc⟩ := h.queue (by rw [hr]; simp)
    rw [hr, hi] at hc
    exact ⟨s, hheld, by simpa [Receive.left, Inbound.piece] using hc.take⟩
  | @writesAll left n hr =>
    obtain ⟨s, hheld, hc⟩ := h.queue (by rw [hr]; simp)
    rw [hr] at hc
    have hc : Carries whole [] s (t.handed ++ left) (t.inbound.map (·.piece)) := hc
    refine ⟨hc.arrived, fun _ => ⟨s, hheld, ?_⟩⟩
    simpa [Receive.left] using hc
  | @writes left n hr =>
    obtain ⟨s, hheld, hc⟩ := h.queue (by rw [hr]; simp)
    rw [hr] at hc
    have hc : Carries whole [] s (t.handed ++ left) (t.inbound.map (·.piece)) := hc
    have hsplit : (t.handed ++ left.take n) ++ left.drop n = t.handed ++ left := by simp
    refine ⟨?_, fun _ => ⟨s, hheld, ?_⟩⟩
    · calc t.handed ++ left.take n <+: (t.handed ++ left.take n) ++ left.drop n := List.prefix_append _ _
        _ = t.handed ++ left := hsplit
        _ <+: whole := hc.arrived
    · show Carries whole [] s ((t.handed ++ left.take n) ++ left.drop n) (t.inbound.map (·.piece))
      rw [hsplit]
      exact hc
  | takesEnd | receiveFails | fails | finishes => exact h.done rfl rfl
  | serves | shutdown | readsEnd | reads | sends | sendsEnd | reports | cancelled => exact h.same rfl rfl rfl

end RunChannel

/-! ### The session keeps its tasks -/

namespace Session

/-- Each connection it was told of has at most one task, and the map leads to
the tasks of its numbers. -/
structure Ok (s : Session) (known : List ℕ) : Prop where
  early : s.phase ≠ .attached → s.tasks = []
  conns : OneEach RunChannel.conn s.tasks
  known : ∀ (i : ℕ) (t : RunChannel), s.tasks[i]? = some t → t.conn ∈ known
  channels : ∀ n i, s.channels n = some i → ∃ t : RunChannel, s.tasks[i]? = some t ∧ t.conn = n
  tasks : ∀ (i : ℕ) (t : RunChannel), s.tasks[i]? = some t → t.Ok

/-- The task of the connection was sent `whole`. -/
def Receives (s : Session) (n : ℕ) (whole : Bytes) : Prop :=
  ∀ (i : ℕ) (t : RunChannel), s.tasks[i]? = some t → t.conn = n → t.Receives (s.channels n = some i) whole

variable {s s' : Session} {known : List ℕ} {i : ℕ} {t t' : RunChannel} {ms : List ClientMessage}

theorem update_none {n m j : ℕ} {f : ℕ → Option ℕ} (h : Function.update f n none m = some j) : f m = some j := by
  by_cases hm : m = n
  · rw [hm, Function.update_self] at h
    cases h
  · rwa [Function.update_of_ne hm] at h

/-- The task `i` becomes another one, and the map only loses entries. -/
structure Changes (s s' : Session) (i : ℕ) (t t' : RunChannel) : Prop where
  tasks : Becomes s.tasks s'.tasks i t t'
  channels : ∀ n j, s'.channels n = some j → s.channels n = some j
  phase : s'.phase = s.phase

theorem changes_abort (ht : s.tasks[i]? = some t) (conn : ℕ) :
    Changes s (s.abort conn i) i t { t with aborted := true } :=
  ⟨becomes_modify ht _, fun _ _ => update_none, rfl⟩

theorem Changes.ok (h : s.Ok known) (hc : Changes s s' i t t') (hs : t.Sends t' ms) : s'.Ok known := by
  refine ⟨fun hp => ?_, h.conns.becomes hc.tasks hs.conn, fun j u hj => ?_, fun n j hn => ?_, fun j u hj => ?_⟩
  · have hnone := hc.tasks.before
    rw [h.early (hc.phase ▸ hp)] at hnone
    cases hnone
  · rcases hc.tasks.was hj with ⟨-, rfl⟩ | ⟨-, hj⟩
    · rw [hs.conn]
      exact h.known i t hc.tasks.before
    · exact h.known j u hj
  · obtain ⟨x, hx, hn⟩ := h.channels n j (hc.channels n j hn)
    by_cases hj : j = i
    · obtain rfl := Option.some.inj ((hj ▸ hx).symm.trans hc.tasks.before)
      exact ⟨t', by rw [hc.tasks.after, if_pos hj], hs.conn.trans hn⟩
    · exact ⟨x, by rw [hc.tasks.after, if_neg hj]; exact hx, hn⟩
  · rcases hc.tasks.was hj with ⟨-, rfl⟩ | ⟨-, hj⟩
    · exact hs.ok
    · exact h.tasks j u hj

theorem Changes.emits (h : s.Ok known) (hc : Changes s s' i t t') (hs : t.Sends t' ms) :
    Emits s.channel s'.channel known ms :=
  hc.tasks.emits h.conns hs.conn (h.known i t hc.tasks.before) hs.goes

theorem Changes.receives (h : s.Ok known) (hc : Changes s s' i t t') (hconn : t'.conn = t.conn) {n : ℕ}
    {whole whole' : Bytes} (hr : s.Receives n whole) (hother : n ≠ t.conn → whole' = whole)
    (hthis : n = t.conn → t.Receives (s.channels n = some i) whole → t'.Receives (s'.channels n = some i) whole') :
    s'.Receives n whole' := by
  intro j u hj hu
  rcases hc.tasks.was hj with ⟨rfl, rfl⟩ | ⟨hne, hj⟩
  · have hn : n = t.conn := hu.symm.trans hconn
    exact hthis hn (hr _ t hc.tasks.before hn.symm)
  · have hn : n ≠ t.conn := fun he => hne (h.conns j i u t hj hc.tasks.before (hu.trans he))
    rw [hother hn]
    exact (hr j u hj hu).mono fun hheld => hc.channels n j hheld

/-- Of a session that keeps its tasks and loses entries of the map at most. -/
theorem Ok.keep (h : s.Ok known) (htasks : s'.tasks = s.tasks)
    (hch : ∀ n j, s'.channels n = some j → s.channels n = some j)
    (hp : s'.phase ≠ .attached → s.phase ≠ .attached) : s'.Ok known := by
  refine ⟨fun hp' => ?_, ?_, ?_, fun n j hn => ?_, ?_⟩
  · rw [htasks]
    exact h.early (hp hp')
  · rw [htasks]
    exact h.conns
  · rw [htasks]
    exact h.known
  · rw [htasks]
    exact h.channels n j (hch n j hn)
  · rw [htasks]
    exact h.tasks

theorem Ok.mono {known' : List ℕ} (h : s.Ok known) (hk : known ⊆ known') : s.Ok known' :=
  ⟨h.early, h.conns, fun i t ht => hk (h.known i t ht), h.channels, h.tasks⟩

/-- Nothing is sent but news of breaks. -/
theorem emits_keep (htasks : s'.tasks = s.tasks)
    (hms : ∀ m ∈ ms, ∀ n, m.conn? = some n → n ∈ known ∧ m.piece = .abort) : Emits s.channel s'.channel known ms := by
  have hsame : s'.channel = s.channel := by
    funext n
    unfold channel
    rw [htasks]
  rw [hsame]
  exact .quiet (fun _ => ⟨rfl, .inl ⟨rfl, rfl⟩⟩) hms

theorem receives_keep {n : ℕ} {whole payload : Bytes} (hr : s.Receives n whole) (htasks : s'.tasks = s.tasks)
    (hch : ∀ n j, s'.channels n = some j → s.channels n = some j)
    (hlost : payload = [] ∨ s'.channels n = none) : s'.Receives n (whole ++ payload) := by
  intro j u hj hu
  rw [htasks] at hj
  have hmono := (hr j u hj hu).mono fun hheld => hch n j hheld
  rcases hlost with rfl | hnone
  · rw [List.append_nil]
    exact hmono
  · refine hmono.grow ?_ payload
    rw [hnone]
    exact fun h => nomatch h

theorem sendInbound_cases {item : Inbound} (h : s.sendInbound i item = some s') :
    ∃ t : RunChannel, s.tasks[i]? = some t ∧ (t.receive = .done ∧ s' = s ∨
      s' = { s with tasks := s.tasks.set i { t with inbound := t.inbound ++ [item] } }) := by
  obtain ⟨t, ht, h⟩ := Option.bind_eq_some_iff.mp h
  refine ⟨t, ht, ?_⟩
  split at h
  · rename_i hover
    exact .inl ⟨hover, (Option.some.inj h).symm⟩
  · split at h
    · exact .inr (Option.some.inj h).symm
    · cases h

/-- What a session owes for a message it takes. -/
structure Takes (s s' : Session) (known : List ℕ) (m : ServerMessage) (ms : List ClientMessage) : Prop where
  ok : s'.Ok (known ++ opened [m])
  emits : Emits s.channel s'.channel (known ++ opened [m]) ms
  receives : ∀ n whole, (m.opens? = some n → whole = []) → s.Receives n whole →
    s'.Receives n (whole ++ payloads n [m])

/-- A message that opens nothing and brings nothing to a channel. -/
theorem Takes.keep {m : ServerMessage} (h : s.Ok known) (hm : opened [m] = []) (htasks : s'.tasks = s.tasks)
    (hch : ∀ n j, s'.channels n = some j → s.channels n = some j)
    (hp : s'.phase ≠ .attached → s.phase ≠ .attached)
    (hms : ∀ m ∈ ms, ∀ n, m.conn? = some n → n ∈ known ∧ m.piece = .abort)
    (hlost : ∀ n, payloads n [m] = [] ∨ s'.channels n = none) : Takes s s' known m ms := by
  refine ⟨?_, ?_, fun n whole _ hr => receives_keep hr htasks hch (hlost n)⟩
  · rw [hm, List.append_nil]
    exact h.keep htasks hch hp
  · rw [hm, List.append_nil]
    exact emits_keep htasks hms

/-- A message that changes one task, and opens nothing. -/
theorem Takes.change {m : ServerMessage} (h : s.Ok known) (hm : opened [m] = []) (hc : Changes s s' i t t')
    (hs : t.Sends t' []) (hms : ∀ m ∈ ms, ∀ n, m.conn? = some n → n ∈ known ∧ m.piece = .abort)
    (hother : ∀ n, n ≠ t.conn → payloads n [m] = [])
    (hthis : ∀ whole, t.Receives (s.channels t.conn = some i) whole →
      t'.Receives (s'.channels t.conn = some i) (whole ++ payloads t.conn [m])) : Takes s s' known m ms := by
  have hview := hc.emits h hs
  refine ⟨?_, ?_, fun n whole _ hr => ?_⟩
  · rw [hm, List.append_nil]
    exact hc.ok h hs
  · rw [hm, List.append_nil]
    refine ⟨fun n got ps hcar => ?_, hview.wrote, hview.ended, fun m hm n hn => (hms m hm n hn).1,
      fun conn payload hm => ?_⟩
    · have hcar' := hview.carries n got ps hcar
      rw [pieces_nil, List.append_nil] at hcar'
      refine hcar'.abort fun q hq => ?_
      obtain ⟨m, hm, rfl⟩ := List.mem_map.mp hq
      obtain ⟨hm, hn⟩ := List.mem_filter.mp hm
      exact (hms m hm n (by simpa using hn)).2
    · cases (hms _ hm conn rfl).2
  · refine hc.receives h hs.conn hr (fun hn => ?_) fun hn htr => ?_
    · rw [hother n hn, List.append_nil]
    · subst hn
      exact hthis whole htr

/-- The session removes the channel, and its task is aborted. -/
theorem abort_sends (ht : t.Ok) : t.Sends { t with aborted := true } [] := .same ht rfl rfl rfl rfl rfl

theorem onBinary_takes {conn : ℕ} {payload : Bytes} {stalled : Bool} (h : s.Ok known) (hlt : conn < 2 ^ 32)
    (hs : s.onBinary (buildDataFrame conn payload) stalled = some (s', ms)) :
    Takes s s' known (.dataFrame conn payload) ms := by
  have hother : ∀ {k : ℕ}, k ≠ conn → payloads k [.dataFrame conn payload] = [] := fun hk => by
    rw [payloads_dataFrame, if_neg (Ne.symm hk)]
  have hthis : payloads conn [.dataFrame conn payload] = payload := by rw [payloads_dataFrame, if_pos rfl]
  unfold onBinary at hs
  rw [decode_data_frame_build hlt] at hs
  simp only at hs
  split at hs
  · rename_i hnone
    obtain ⟨rfl, rfl⟩ := Prod.mk.inj (Option.some.inj hs)
    refine .keep h rfl rfl (fun _ _ h => h) (fun h => h) (fun _ h => (nomatch h)) fun n => ?_
    by_cases hn : n = conn
    · exact .inr (hn ▸ hnone)
    · exact .inl (hother hn)
  · rename_i i hi
    obtain ⟨x, hx, hconn⟩ := h.channels conn i hi
    split at hs
    · rename_i s₁ hsend
      obtain ⟨rfl, rfl⟩ := Prod.mk.inj (Option.some.inj hs)
      obtain ⟨t, ht, hcase⟩ := sendInbound_cases hsend
      obtain rfl := Option.some.inj (hx.symm.trans ht)
      subst hconn
      rcases hcase with ⟨hover, rfl⟩ | rfl
      · -- `receive` is over, and the payload is lost
        have hc : Changes s₁ s₁ i x x := ⟨becomes_refl hx, fun _ _ h => h, rfl⟩
        refine .change h rfl hc (.same (h.tasks i x hx) rfl rfl rfl rfl rfl) (fun _ h => (nomatch h))
          (fun n hn => hother hn) fun whole hr => ?_
        exact hr.lost hover _
      · refine .change h rfl ⟨becomes_set hx _, fun _ _ h => h, rfl⟩ (.same (h.tasks i x hx) rfl rfl rfl rfl rfl)
          (fun _ h => (nomatch h)) (fun n hn => hother hn) fun whole hr => ?_
        rw [hthis]
        exact hr.push hi payload
    · split at hs
      · obtain ⟨rfl, rfl⟩ := Prod.mk.inj (Option.some.inj hs)
        subst hconn
        refine .change h rfl (changes_abort hx x.conn) (abort_sends (h.tasks i x hx)) (fun m hm n hn => ?_)
          (fun n hn => hother hn) fun whole hr => ?_
        · obtain rfl := List.mem_singleton.mp hm
          obtain rfl := Option.some.inj hn
          exact ⟨h.known i x hx, rfl⟩
        · have hgone : ¬ (s.abort x.conn i).channels x.conn = some i := by
            unfold abort
            simp
          have hsame : ({ x with aborted := true } : RunChannel).Receives (s.channels x.conn = some i) whole :=
            hr.same rfl rfl rfl
          exact (hsame.mono fun hheld => absurd hheld hgone).grow hgone _
      · cases hs

/-- A connection is opened that the session was not told of. -/
theorem open_takes {conn : ℕ} {m : ServerMessage} (h : s.Ok known) (hm : m.opens? = some conn)
    (hp : payloads conn [m] = []) (hother : ∀ n, payloads n [m] = []) (hnew : conn ∉ known)
    (hphase : s.phase = .attached) :
    Takes s { s with channels := Function.update s.channels conn (some s.tasks.length), tasks := s.tasks ++ [.spawn conn] }
      known m [] := by
  have hopened : opened [m] = [conn] := by simp [opened, hm]
  have hfresh : ∀ u ∈ s.tasks, u.conn ≠ conn := fun u hu he => by
    obtain ⟨j, hj⟩ := List.mem_iff_getElem?.mp hu
    exact hnew (he ▸ h.known j u hj)
  refine ⟨⟨fun hp => absurd hphase hp, h.conns.concat hfresh, fun j u hj => ?_, fun n j hn => ?_, fun j u hj => ?_⟩,
    ?_, fun n whole hempty hr j u hj hu => ?_⟩
  · rw [hopened]
    rcases concat_was hj with hj | ⟨-, rfl⟩
    · exact List.mem_append_left _ (h.known j u hj)
    · exact List.mem_append_right _ (List.mem_singleton.mpr rfl)
  · by_cases hc : n = conn
    · subst hc
      simp only [Function.update_self] at hn
      obtain rfl := Option.some.inj hn
      exact ⟨.spawn n, List.getElem?_concat_length, rfl⟩
    · simp only [Function.update_of_ne hc] at hn
      obtain ⟨u, hu, hun⟩ := h.channels n j hn
      refine ⟨u, ?_, hun⟩
      rw [List.getElem?_append_left (List.getElem?_eq_some_iff.mp hu).1]
      exact hu
  · rcases concat_was hj with hj | ⟨-, rfl⟩
    · exact h.tasks j u hj
    · exact RunChannel.ok_spawn conn
  · -- the new channel has written nothing
    have hview : Session.channel { s with
        channels := Function.update s.channels conn (some s.tasks.length), tasks := s.tasks ++ [.spawn conn] } =
        s.channel := funext (channelOf_concat rfl)
    rw [hview]
    exact .refl _ _
  · rw [hother n, List.append_nil]
    rcases concat_was hj with hj | ⟨rfl, rfl⟩
    · have hc : n ≠ conn := fun he => hfresh u (List.mem_of_getElem? hj) (hu.trans he)
      simp only [Function.update_of_ne hc]
      exact hr j u hj hu
    · have hc : conn = n := hu
      subst hc
      rw [hempty hm]
      exact RunChannel.receives_spawn _ _

theorem onMessage_takes {o : Options} {m : ServerMessage} {stalled : Bool} (h : s.Ok known)
    (hphase : s.phase = .attached) (hlt : ∀ n, m.conn? = some n → n < 2 ^ 32)
    (hnew : ∀ n, m.opens? = some n → n ∉ known) (hs : s.onMessage o stalled m = some (s', ms)) :
    Takes s s' known m ms := by
  have keep : ∀ {x : Session}, opened [m] = [] → (∀ n, payloads n [m] = []) → x.tasks = s.tasks →
      (∀ n j, x.channels n = some j → s.channels n = some j) → x.phase = s.phase →
      some (x, ([] : List ClientMessage)) = some (s', ms) → Takes s s' known m ms :=
    fun hm hp htasks hch hphase' hs => by
      obtain ⟨rfl, rfl⟩ := Prod.mk.inj (Option.some.inj hs)
      exact .keep h hm htasks hch (fun hp => by rwa [hphase'] at hp) (fun _ h => (nomatch h)) fun n => .inl (hp n)
  cases m with
  | dataFrame conn payload => exact onBinary_takes h (hlt conn rfl) hs
  | openConn conn peer sni alpn =>
    cases sni with
    | none =>
      obtain ⟨rfl, rfl⟩ := Prod.mk.inj (Option.some.inj hs)
      refine ⟨h.mono (List.subset_append_left _ _), emits_keep rfl (fun _ h => nomatch h), fun n whole _ hr => ?_⟩
      exact receives_keep hr rfl (fun _ _ h => h) (.inl rfl)
    | some sni =>
      simp only [onMessage] at hs
      split at hs
      · obtain ⟨rfl, rfl⟩ := Prod.mk.inj (Option.some.inj hs)
        refine ⟨h.mono (List.subset_append_left _ _), emits_keep rfl fun m hm n hn => ?_, fun n whole _ hr => ?_⟩
        · obtain rfl := List.mem_singleton.mp hm
          obtain rfl := Option.some.inj hn
          exact ⟨List.mem_append_right _ (List.mem_singleton.mpr rfl), rfl⟩
        · exact receives_keep hr rfl (fun _ _ h => h) (.inl rfl)
      · obtain ⟨rfl, rfl⟩ := Prod.mk.inj (Option.some.inj hs)
        exact open_takes h rfl rfl (fun _ => rfl) (hnew conn rfl) hphase
  | endConn conn =>
    simp only [onMessage] at hs
    split at hs
    · exact keep rfl (fun _ => rfl) rfl (fun _ _ h => h) rfl hs
    · rename_i i hi
      obtain ⟨s₁, hsend, he⟩ := Option.map_eq_some_iff.mp hs
      obtain ⟨rfl, rfl⟩ := Prod.mk.inj he
      obtain ⟨t, ht, hcase⟩ := sendInbound_cases hsend
      rcases hcase with ⟨-, rfl⟩ | rfl
      · exact .keep h rfl rfl (fun _ _ h => h) (fun hp => hp) (fun _ h => (nomatch h)) fun _ => .inl rfl
      · refine .change h rfl ⟨becomes_set ht _, fun _ _ h => h, rfl⟩ (.same (h.tasks i t ht) rfl rfl rfl rfl rfl)
          (fun _ h => (nomatch h)) (fun _ _ => rfl) fun whole hr => ?_
        rw [show payloads t.conn [.endConn conn] = [] from rfl, List.append_nil]
        exact hr.pushEnd
  | resetConn conn code =>
    simp only [onMessage] at hs
    split at hs
    · exact keep rfl (fun _ => rfl) rfl (fun _ _ h => h) rfl hs
    · rename_i i hi
      obtain ⟨rfl, rfl⟩ := Prod.mk.inj (Option.some.inj hs)
      obtain ⟨t, ht, -⟩ := h.channels conn i hi
      refine .change h rfl (changes_abort ht conn) (abort_sends (h.tasks i t ht)) (fun _ h => (nomatch h))
        (fun _ _ => rfl) fun whole hr => ?_
      rw [show payloads t.conn [.resetConn conn code] = [] from rfl, List.append_nil]
      have hsame : ({ t with aborted := true } : RunChannel).Receives (s.channels t.conn = some i) whole :=
        hr.same rfl rfl rfl
      exact hsame.mono fun hheld => update_none hheld
  | pong _ => exact keep rfl (fun _ => rfl) rfl (fun _ _ h => h) rfl hs
  | attachError _ => exact keep rfl (fun _ => rfl) rfl (fun _ _ h => h) rfl hs
  | attached _ _ _ _ => exact keep rfl (fun _ => rfl) rfl (fun _ _ h => h) rfl hs

/-- Before it is attached the session has no channel. -/
theorem Takes.early {m : ServerMessage} (h : s.Ok known) (hphase : s.phase ≠ .attached) (htasks : s'.tasks = s.tasks)
    (hch : s'.channels = s.channels) : Takes s s' known m [] := by
  have hnone := h.early hphase
  have hno : ∀ n, s'.channels n = none := fun n => by
    rw [hch]
    cases hn : s.channels n with
    | none => rfl
    | some i =>
      obtain ⟨t, ht, -⟩ := h.channels n i hn
      rw [hnone] at ht
      cases ht
  have hkeep : s'.Ok known := h.keep htasks (fun n j hn => by rw [hno n] at hn; cases hn) fun _ => hphase
  refine ⟨hkeep.mono (List.subset_append_left _ _), emits_keep htasks fun _ h => (nomatch h), fun n whole _ hr => ?_⟩
  exact receives_keep hr htasks (fun n j hn => by rw [hno n] at hn; cases hn) (.inr (hno n))

theorem take_takes {o : Options} {m : ServerMessage} {stalled : Bool} (h : s.Ok known)
    (hlt : ∀ n, m.conn? = some n → n < 2 ^ 32) (hnew : ∀ n, m.opens? = some n → n ∉ known)
    (hs : s.take o m stalled = some (s', ms)) : Takes s s' known m ms := by
  have done : ∀ {x : Session}, some (x, ([] : List ClientMessage)) = some (s', ms) → s.phase = .attaching →
      x.tasks = s.tasks → x.channels = s.channels → Takes s s' known m ms := fun hs hp htasks hch => by
    obtain ⟨rfl, rfl⟩ := Prod.mk.inj (Option.some.inj hs)
    exact .early h (by rw [hp]; simp) htasks hch
  unfold take at hs
  split at hs
  · cases hs
  · split at hs
    · cases hs
    · exact done hs ‹_› rfl rfl
    · exact done hs ‹_› rfl rfl
    · exact done hs ‹_› rfl rfl
    · exact onMessage_takes h ‹_› hlt hnew hs

/-- The bridge is gone: the session drops every channel and aborts its task. -/
theorem disconnect_keeps (h : s.Ok known) (htasks : s'.tasks = s.tasks.map fun t => { t with aborted := true })
    (hch : ∀ n, s'.channels n = none) (hp : s'.phase = s.phase) :
    s'.Ok known ∧ Emits s.channel s'.channel known [] ∧ ∀ n whole, s.Receives n whole → s'.Receives n whole := by
  have was : ∀ {j : ℕ} {u : RunChannel}, s'.tasks[j]? = some u →
      ∃ x : RunChannel, s.tasks[j]? = some x ∧ u = { x with aborted := true } := fun {j u} hj => by
    rw [htasks, List.getElem?_map] at hj
    obtain ⟨x, hx, rfl⟩ := Option.map_eq_some_iff.mp hj
    exact ⟨x, hx, rfl⟩
  have hok : s'.Ok known := by
    refine ⟨fun hne => ?_, fun j k u v hj hk he => ?_, fun j u hj => ?_, fun n j hn => ?_, fun j u hj => ?_⟩
    · rw [htasks, h.early (hp ▸ hne)]
      rfl
    · obtain ⟨x, hx, rfl⟩ := was hj
      obtain ⟨y, hy, rfl⟩ := was hk
      exact h.conns j k x y hx hy he
    · obtain ⟨x, hx, rfl⟩ := was hj
      exact h.known j x hx
    · rw [hch n] at hn
      cases hn
    · obtain ⟨x, hx, rfl⟩ := was hj
      exact (abort_sends (h.tasks j x hx)).ok
  refine ⟨hok, ?_, fun n whole hr j u hj hu => ?_⟩
  · have hview : s'.channel = s.channel := by
      unfold channel
      rw [htasks]
      exact funext (channelOf_map fun _ => rfl)
    rw [hview]
    exact .refl _ _
  · obtain ⟨x, hx, rfl⟩ := was hj
    have hsame : ({ x with aborted := true } : RunChannel).Receives (s.channels n = some j) whole :=
      (hr j x hx hu).same rfl rfl rfl
    exact hsame.mono fun hheld => by rw [hch n] at hheld; cases hheld

/-- Whatever else happens in the session, its channels go on as they may. -/
theorem move_keeps {o : Options} {μ : Move} (h : s.Ok known) (hs : s.move o μ = some (s', ms)) :
    s'.Ok known ∧ Emits s.channel s'.channel known ms ∧ ∀ n whole, s.Receives n whole → s'.Receives n whole := by
  have keep : ∀ {x : Session} {ns : List ClientMessage}, some (x, ns) = some (s', ms) → x.tasks = s.tasks →
      x.channels = s.channels → (x.phase ≠ .attached → s.phase ≠ .attached) → (∀ m ∈ ns, m.conn? = none) →
      s'.Ok known ∧ Emits s.channel s'.channel known ms ∧ ∀ n whole, s.Receives n whole → s'.Receives n whole :=
    fun hs htasks hch hp hms => by
      obtain ⟨rfl, rfl⟩ := Prod.mk.inj (Option.some.inj hs)
      refine ⟨h.keep htasks (fun n j hn => hch ▸ hn) hp, emits_keep htasks fun m hm n hn => ?_, fun n whole hr => ?_⟩
      · rw [hms m hm] at hn
        cases hn
      · have hkept := receives_keep hr htasks (fun n j hn => hch ▸ hn) (.inl (Eq.refl []))
        rw [List.append_nil] at hkept
        exact hkept
  cases μ with
  | attach =>
    simp only [move] at hs
    split at hs
    · rename_i hc
      simp only [Bool.and_eq_true, decide_eq_true_eq] at hc
      refine keep hs rfl rfl (fun _ => by rw [hc.2]; simp) fun m hm => ?_
      rw [List.mem_singleton.mp hm]
      rfl
    · cases hs
  | ping time_sent =>
    simp only [move] at hs
    split at hs
    · refine keep hs rfl rfl (fun h => h) fun m hm => ?_
      rw [List.mem_singleton.mp hm]
      rfl
    · cases hs
  | channel i μ =>
    obtain ⟨t, ht, hs⟩ := Option.bind_eq_some_iff.mp hs
    obtain ⟨⟨t', ns⟩, hstep, hs⟩ := Option.bind_eq_some_iff.mp hs
    split at hs
    · cases hs
    · obtain ⟨rfl, rfl⟩ := Prod.mk.inj (Option.some.inj hs)
      have hsends := RunChannel.step_sends (h.tasks i t ht) hstep
      have hc : Changes s { s with tasks := s.tasks.set i t' } i t t' := ⟨becomes_set ht _, fun _ _ h => h, rfl⟩
      refine ⟨hc.ok h hsends, hc.emits h hsends, fun n whole hr => ?_⟩
      exact hc.receives h hsends.conn hr (fun _ => rfl) fun _ htr => htr.step hstep
  | join i =>
    obtain ⟨t, ht, hs⟩ := Option.bind_eq_some_iff.mp hs
    split at hs
    · obtain ⟨rfl, rfl⟩ := Prod.mk.inj (Option.some.inj hs)
      have hsends : t.Sends { t with progress := .joined } [] := .same (h.tasks i t ht) rfl rfl rfl rfl rfl
      have hc : Changes s { s with
          channels := Function.update s.channels t.conn none
          tasks := s.tasks.set i { t with progress := .joined } } i t { t with progress := .joined } :=
        ⟨becomes_set ht _, fun _ _ => update_none, rfl⟩
      refine ⟨hc.ok h hsends, hc.emits h hsends, fun n whole hr => ?_⟩
      refine hc.receives h rfl hr (fun _ => rfl) fun _ htr => ?_
      have hsame : ({ t with progress := .joined } : RunChannel).Receives (s.channels n = some i) whole :=
        htr.same rfl rfl rfl
      exact hsame.mono update_none
    · cases hs
  | disconnect =>
    simp only [move] at hs
    split at hs
    · cases hs
    · obtain ⟨rfl, rfl⟩ := Prod.mk.inj (Option.some.inj hs)
      exact disconnect_keeps h rfl (fun _ => rfl) rfl

theorem receives_of_unknown {n : ℕ} (h : s.Ok known) (hn : n ∉ known) : s.Receives n [] :=
  fun i t ht he => absurd (he ▸ h.known i t ht) hn

/-- A channel was handed a beginning of what it was sent. -/
theorem handed_prefix {n : ℕ} {whole : Bytes} (hr : s.Receives n whole) : (s.channel n).handed <+: whole := by
  unfold channel
  rcases channelOf_cases RunChannel.conn RunChannel.view s.tasks n with ⟨t, ht, hn, hv⟩ | ⟨-, hv⟩
  · rw [hv]
    obtain ⟨i, hi⟩ := List.mem_iff_getElem?.mp ht
    exact (hr i t hi hn).handed
  · rw [hv]
    exact List.nil_prefix

end Session

/-- The Rust client keeps what a client must. -/
def faithful (o : Options) : (peer o).Faithful where
  Ok := Session.Ok
  Receives := Session.Receives
  start := ⟨fun _ => rfl, fun _ _ _ _ h => (nomatch h), fun _ _ h => (nomatch h), fun _ _ h => (nomatch h),
    fun _ _ h => (nomatch h)⟩
  unknown h hn := channelOf_of_forall_ne fun i t ht he => hn (he ▸ h.known i t ht)
  receives_unknown := Session.receives_of_unknown
  handed := Session.handed_prefix
  take h hs hlt hnew := by
    obtain ⟨hok, hemits, hreceives⟩ := Session.take_takes h hlt hnew hs
    exact ⟨hok, hemits, hreceives⟩
  move := Session.move_keeps

end Rust

end ShuvTunnel
