/-
# What a client reports of its connections

A session tells its listener of each connection that is opened and closed, and
how many are open. A `Ledger` has the routes in the map `channels`, the count told
last and the events so far; a `Report` is what one branch of the code does to
them. A connection is reported closed with the route it was opened for, when
its entry is taken out.

Key definitions: `Ledger.note`, `reporting`, `Rust.reports`,
`TypeScript.reports`.
Key theorems: `Ledger.Tracks.opens`, `Ledger.Tracks.closes`.
-/
import ShuvTunnel.RustSession
import ShuvTunnel.TypeScriptSession
import ShuvTunnel.Lib.Lts
import ShuvTunnel.Lib.OrderedMap

namespace ShuvTunnel

/-! ### The ledger -/

/-- The events of a session about its connections. -/
inductive ConnectionEvent
  | opened (conn : ℕ) (route peer : String)
  | closed (conn : ℕ) (route : String) (error : Option String)
  deriving DecidableEq

/-- What a session reports: a connection that it opens, one that it closes, or all
at its end. -/
inductive Report
  | opens (conn : ℕ) (route peer : String)
  | closes (conn : ℕ) (error : Option String)
  | drains (error : String)

/-- What the listener knows, and the route of each entry of `channels`. -/
structure Ledger where
  channels : List (ℕ × String)
  nodup : (OrderedMap.keys channels).Nodup
  connections : ℕ
  events : List ConnectionEvent

namespace Ledger

/-- Nothing is open. -/
def start : Ledger where
  channels := []
  nodup := List.nodup_nil
  connections := 0
  events := []

/-- `channels.insert` and the event. -/
def opens (b : Ledger) (conn : ℕ) (route peer : String) : Ledger where
  channels := OrderedMap.set b.channels conn route
  nodup := OrderedMap.nodup_set b.nodup
  connections := (OrderedMap.set b.channels conn route).length
  events := b.events ++ [.opened conn route peer]

/-- `channels.remove` of an entry that is there, and the event. -/
def closes (b : Ledger) (conn : ℕ) (route : String) (error : Option String) : Ledger where
  channels := OrderedMap.delete b.channels conn
  nodup := OrderedMap.nodup_delete b.nodup
  connections := (OrderedMap.delete b.channels conn).length
  events := b.events ++ [.closed conn route error]

/-- `channels.drain()`: the count is not told. -/
def drains (b : Ledger) (error : String) : Ledger where
  channels := []
  nodup := List.nodup_nil
  connections := b.connections
  events := b.events ++ b.channels.map fun e => .closed e.1 e.2 (some error)

/-- One report. -/
def note (b : Ledger) : Report → Ledger
  | .opens conn route peer => b.opens conn route peer
  | .closes conn error =>
    match b.channels.lookup conn with
    | none => b
    | some route => b.closes conn route error
  | .drains error => b.drains error

/-- Reports, one after the other. -/
def noteAll (b : Ledger) (ρs : List Report) : Ledger := ρs.foldl note b

variable {b : Ledger} {n : ℕ} {error : Option String}

theorem noteAll_append (ρs ρs' : List Report) : b.noteAll (ρs ++ ρs') = (b.noteAll ρs).noteAll ρs' :=
  List.foldl_append

theorem note_closes_of_none (h : b.channels.lookup n = none) : b.note (.closes n error) = b := by
  simp only [note, h]

theorem note_closes_of_some {route : String} (h : b.channels.lookup n = some route) :
    b.note (.closes n error) = b.closes n route error := by
  simp only [note, h]

/-- The entries are those of the session's map. -/
def Tracks (b : Ledger) (channels : ℕ → Option ℕ) : Prop :=
  ∀ n, (b.channels.lookup n).isSome = (channels n).isSome

variable {channels : ℕ → Option ℕ}

theorem Tracks.lookup_eq_none (h : b.Tracks channels) (hn : channels n = none) : b.channels.lookup n = none := by
  have h := h n
  rw [hn] at h
  simpa using h

theorem Tracks.opens (h : b.Tracks channels) (route peer : String) (i : ℕ) :
    (b.opens n route peer).Tracks (Function.update channels n (some i)) := by
  intro k
  show ((OrderedMap.set b.channels n route).lookup k).isSome = _
  rw [OrderedMap.lookup_set]
  by_cases hk : k = n
  · rw [if_pos hk, hk, Function.update_self]
    rfl
  · rw [if_neg hk, Function.update_of_ne hk]
    exact h k

theorem Tracks.closes (h : b.Tracks channels) (n : ℕ) (error : Option String) :
    (b.note (.closes n error)).Tracks (Function.update channels n none) := by
  cases hl : b.channels.lookup n with
  | none =>
    rw [note_closes_of_none hl]
    intro k
    by_cases hk : k = n
    · rw [hk, Function.update_self, hl]
      rfl
    · rw [Function.update_of_ne hk]
      exact h k
  | some route =>
    rw [note_closes_of_some hl]
    intro k
    show ((OrderedMap.delete b.channels n).lookup k).isSome = _
    rw [OrderedMap.lookup_delete]
    by_cases hk : k = n
    · rw [if_pos hk, hk, Function.update_self]
      rfl
    · rw [if_neg hk, Function.update_of_ne hk]
      exact h k

theorem Tracks.drains (b : Ledger) (error : String) : (b.drains error).Tracks fun _ => none := fun _ => rfl

/-- Where the map is empty, there are no entries. -/
theorem Tracks.channels_eq_nil (h : b.Tracks channels) (hn : ∀ n, channels n = none) : b.channels = [] := by
  rw [List.eq_nil_iff_forall_not_mem]
  intro e he
  have hkey : e.1 ∈ OrderedMap.keys b.channels := List.mem_map_of_mem he
  exact OrderedMap.lookup_eq_none.mp (h.lookup_eq_none (hn e.1)) hkey

end Ledger

/-! ### The sessions with their ledger -/

/-- What a client reports for a message it takes, and for all else that
happens; a task or a socket comes with the text of its error. -/
structure Peer.Reports (C : Peer) where
  isOver : C.Session → Bool
  take : C.Session → ServerMessage → List Report
  move : C.Session → C.Move → Option String → List Report

/-- A session of a client and what it has reported. -/
structure Reporting (C : Peer) where
  session : C.Session
  ledger : Ledger

/-- What a session takes part in: a message to it, or a move of its own. -/
inductive Happening (C : Peer)
  | message (m : ServerMessage) (stalled : Bool)
  | move (μ : C.Move) (error : Option String)

/-- The message, when it is one. -/
def Happening.message? {C : Peer} : Happening C → Option ServerMessage
  | message m _ => some m
  | move .. => none

/-- A step of a session that reports. -/
abbrev Reporting.Event (C : Peer) := Lts.Event (Reporting C) (Happening C)

/-- The messages a run takes. -/
def messages {C : Peer} (es : List (Reporting.Event C)) : List ServerMessage := es.filterMap fun e => e.label.message?

theorem messages_eq {C : Peer} {es : List (Reporting.Event C)} {as : List (Happening C)}
    (h : es.map (·.label) = as) : messages es = as.filterMap (·.message?) := by
  rw [← h, List.filterMap_map]
  rfl

theorem messages_concat {C : Peer} (es : List (Reporting.Event C)) (e : Reporting.Event C) :
    messages (es ++ [e]) = messages es ++ e.label.message?.toList := by
  unfold messages
  rw [List.filterMap_append]
  cases he : e.label.message? with
  | none => simp [he]
  | some m => simp [he]

/-- A session before its first step. -/
def Reporting.start (C : Peer) : Reporting C := ⟨C.start, .start⟩

/-- A session, step by step, with what it reports. -/
def reporting {C : Peer} (R : C.Reports) : Lts.System (Reporting C) (Happening C) where
  step r
    | .message m stalled =>
      (C.take r.session m stalled).map fun p => ⟨p.1, r.ledger.noteAll (R.take r.session m)⟩
    | .move μ error =>
      (C.move r.session μ).map fun p => ⟨p.1, r.ledger.noteAll (R.move r.session μ error)⟩

namespace Rust

/-- The reports in the arms of the loop that take a message. -/
def Session.takeReports (o : Options) (s : Session) (m : ServerMessage) : List Report :=
  if s.phase ≠ .attached then []
  else match m with
    | .dataFrame conn payload =>
      match decode_data_frame (buildDataFrame conn payload) with
      | none => []
      | some (conn, payload) =>
        match s.channels conn with
        | none => []
        | some i =>
          if (s.sendInbound i (.Data payload)).isSome then [] else [.closes conn (some "local connection stalled")]
    | .openConn conn peer (some sni) _ =>
      match (Rust.routeForSni sni o.hostname).filter fun route => o.routes.contains route with
      | none => []
      | some route => [.opens conn route peer]
    | .resetConn conn code => [.closes conn (some code)]
    | _ => []

/-- `tasks.join_next()` gives the id the task was spawned with; and the end. -/
def Session.moveReports (s : Session) (error : Option String) : Move → List Report
  | .join i =>
    match s.tasks[i]? with
    | none => []
    | some t => [.closes t.conn error]
  | .disconnect => [.drains "bridge disconnected"]
  | _ => []

/-- What the Rust client reports. -/
def reports (o : Options) : (peer o).Reports where
  isOver := Session.isOver
  take := Session.takeReports o
  move := fun s μ error => Session.moveReports s error μ

end Rust

namespace TypeScript

namespace Session

/-- `closed`: a channel whose entry is another's by now is not reported. -/
def destroyReports (s : Session) (i : ℕ) (error : Option String) : List Report :=
  match s.made[i]? with
  | none => []
  | some c => if !c.done && s.channels c.conn = some i then [.closes c.conn error] else []

/-- `push` of a channel that has stalled closes it. -/
def pushReports (s : Session) (i : ℕ) : List Report :=
  match s.made[i]? with
  | none => []
  | some c =>
    if STALLED_CHANNEL_BYTES < c.readable.length then s.destroyReports i (some "local connection stalled") else []

/-- The channels are destroyed one after the other, each with its report. -/
def destroyAllReports (code : String) : List ℕ → Session → List Report
  | [], _ => []
  | i :: is, s => s.destroyReports i (some code) ++ destroyAllReports code is (s.destroy i code true).1

/-- `finish`: what is open is destroyed. -/
def finishReports (s : Session) : List Report :=
  if s.isOver then [] else destroyAllReports "bridge disconnected" s.values { s with isOver := true }

/-- What a message to the session makes it report. -/
def takeReports (U : Unicode) (o : Options) (s : Session) : ServerMessage → List Report
  | .attachError _ => if s.attached then [] else s.finishReports
  | .openConn conn peer (some sni) _ =>
    if !s.attached then []
    else match (Names.routeForSni U sni o.hostname).filter fun route => o.routes.contains route with
      | none => []
      | some route => [.opens conn route peer]
  | .resetConn conn code =>
    if !s.attached then []
    else match s.channels conn with
      | none => []
      | some i => s.destroyReports i (some code)
  | .dataFrame conn payload =>
    match parseDataFrame (buildDataFrame conn payload) with
    | none => []
    | some (conn, _) =>
      match s.channels conn with
      | none => []
      | some i => s.pushReports i
  | _ => []

/-- An error of a socket is reported with its message. -/
def moveReports (s : Session) (error : Option String) : Move → List Report
  | .error i _ => s.destroyReports i error
  | .close i => s.destroyReports i none
  | .finish => s.finishReports
  | _ => []

end Session

/-- What the TypeScript client reports. -/
def reports (U : Unicode) (o : Options) : (peer U o).Reports where
  isOver := Session.isOver
  take := Session.takeReports U o
  move := fun s μ error => Session.moveReports s error μ

end TypeScript

end ShuvTunnel
