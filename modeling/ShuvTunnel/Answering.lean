/-
# The way back through the Worker and the relay

What the object writes to a public connection the Worker pipes to the WebSocket
of the relay, and the relay to the client. The client's socket is written a
beginning of what the object wrote. It is half-closed, behind all of it, when the
object closed its writer, and only then: a writer that was aborted, a WebSocket
that is closed or breaks off, or a socket that is destroyed never looks like the
end of the stream. And as long as none of that happens, the end gets through,
also when the Worker has sent it and closed its WebSocket behind it.

Key definitions: `Answering.step`, `Answering.Ok`, `Answering.Unbroken`.
Key theorems: `Answering.Ok.step`, `Answering.delivers`, `answers_preserved`.
-/
import ShuvTunnel.Relaying
import ShuvTunnel.Sockets
import ShuvTunnel.Lib.Hop

namespace ShuvTunnel

open Hop

/-- What goes back on one public connection: all that the object wrote, and the
state of its writer; what the Worker's pipe has not read; the state of
`connection.writable`; whether the Worker's WebSocket takes messages; those under
way, and whether the way is broken off; the relay's side; and of what was written
to the client's socket, what has left, and whether its end has. -/
structure Answering where
  whole : Bytes
  source : WriterState
  unread : Bytes
  writable : WriterState
  accepting : Bool
  wire : List Message
  severed : Bool
  link : RelayLink
  flushed : Bytes
  fin : Bool

/-- The steps of the object's answer, of the Worker that pipes it, of the wire and
of the relay. -/
inductive AnswerLabel
  -- the object's writer
  | writes (data : Bytes)
  | closes
  | aborts
  -- `routed.readable.pipeTo(client.writable)`
  | pipe (n : ℕ)
  | pipeEnd
  | pipeAbort
  -- `connection.close()`
  | close
  | sever (n : ℕ)
  -- at the relay
  | deliver
  | link (e : RelayEvent)
  | flush (n : ℕ)
  | fin

/-- The piece of the stream a message to the relay is. -/
def Message.piece : Message → Piece UInt8
  | .binary data => .data data
  | .text _ => .fin

namespace RelayEvent

/-- The event is a message from the bridge. -/
def isMessage : RelayEvent → Bool
  | message _ => true
  | _ => false

end RelayEvent

namespace Answering

/-- Both ends before anything is written. -/
def start : Answering where
  whole := []
  source := .active
  unread := []
  writable := .active
  accepting := true
  wire := []
  severed := false
  link := .start
  flushed := []
  fin := false

/-- `server.send`, where it does not throw. -/
def send (s : Answering) (m : Message) : Answering := if s.severed then s else { s with wire := s.wire ++ [m] }

/-- What a step does. -/
def step (s : Answering) : AnswerLabel → Option Answering
  | .writes data =>
    if s.source = .active then some { s with whole := s.whole ++ data, unread := s.unread ++ data } else none
  | .closes => if s.source = .active then some { s with source := .closed } else none
  -- a stream that fails loses what is not read
  | .aborts => if s.source = .active then some { s with source := .aborted, unread := [] } else none
  | .pipe n =>
    if s.writable = .active ∧ 0 < n ∧ n ≤ s.unread.length then
      if s.accepting then some ({ s with unread := s.unread.drop n }.send (.binary (s.unread.take n)))
      else some { s with writable := .aborted }
    else none
  | .pipeEnd =>
    if s.writable = .active ∧ s.source = .closed ∧ s.unread = [] then
      if s.accepting then some ({ s with writable := .closed }.send endMessage)
      else some { s with writable := .aborted }
    else none
  | .pipeAbort =>
    if s.writable = .active ∧ s.source = .aborted then some { s with writable := .aborted, accepting := false }
    else none
  | .close => some { s with accepting := false }
  | .sever n => some { s with wire := s.wire.take n, severed := true }
  | .deliver =>
    match s.wire with
    | [] => none
    | m :: wire => (s.link.step (.message m)).map fun link => { s with link, wire }
  | .link e => if e.isMessage then none else (s.link.step e).map fun link => { s with link }
  | .flush n =>
    if !s.link.destroyed && decide (n ≤ s.link.answered.length - s.flushed.length) then
      some { s with flushed := s.link.answered.take (s.flushed.length + n) }
    else none
  | .fin =>
    if !s.link.destroyed && s.link.halfClosed && decide (s.flushed = s.link.answered) then some { s with fin := true }
    else none

end Answering

/-- The answer on its way from the object to the public socket. -/
def answering : Lts.System Answering AnswerLabel := ⟨Answering.step⟩

/-! ### What the relay does to its socket -/

namespace RelayLink

variable {l l' : RelayLink}

/-- Nothing but a message writes to the socket or ends it, and what is destroyed
stays so. -/
structure Leaves (l l' : RelayLink) : Prop where
  answered : l'.answered = l.answered
  halfClosed : l'.halfClosed = l.halfClosed
  destroyed : l'.destroyed = false → l.destroyed = false

theorem leaves_send (l : RelayLink) (m : Message) : l.Leaves (l.send m) := by
  unfold send
  split <;> exact ⟨rfl, rfl, fun h => h⟩

theorem leaves_close (l : RelayLink) : l.Leaves l.close := ⟨rfl, rfl, fun h => Bool.noConfusion h⟩

theorem step_leaves {e : RelayEvent} (he : e.isMessage = false) (h : l.step e = some l') : l.Leaves l' := by
  cases e with
  | writes data =>
    simp only [step] at h
    split at h
    · cases h
    · obtain rfl := Option.some.inj h
      exact ⟨rfl, rfl, fun h => h⟩
  | finishes =>
    obtain rfl := Option.some.inj h
    exact ⟨rfl, rfl, fun h => h⟩
  | data n =>
    simp only [step] at h
    split at h
    · obtain rfl := Option.some.inj h
      have hs := leaves_send { l with pending := l.pending.drop n } (.binary (l.pending.take n))
      exact ⟨hs.answered, hs.halfClosed, hs.destroyed⟩
    · cases h
  | «end» =>
    simp only [step] at h
    split at h
    · obtain rfl := Option.some.inj h
      have hs := leaves_send { l with ended := true } endMessage
      exact ⟨hs.answered, hs.halfClosed, hs.destroyed⟩
    · cases h
  | error =>
    obtain rfl := Option.some.inj h
    exact leaves_close l
  | close =>
    obtain rfl := Option.some.inj h
    exact leaves_close l
  | «open» =>
    simp only [step] at h
    split at h
    · obtain rfl := Option.some.inj h
      unfold onOpen
      split
      · have hs := leaves_send { l with readyState := .OPEN } endMessage
        exact ⟨hs.answered, hs.halfClosed, hs.destroyed⟩
      · exact ⟨rfl, rfl, fun h => h⟩
    · cases h
  | message m => cases he
  | closing =>
    simp only [step] at h
    split at h
    · obtain rfl := Option.some.inj h
      exact ⟨rfl, rfl, fun h => h⟩
    · cases h
  | bridgeClose =>
    obtain rfl := Option.some.inj h
    exact ⟨rfl, rfl, fun h => Bool.noConfusion h⟩
  | bridgeError =>
    obtain rfl := Option.some.inj h
    exact ⟨rfl, rfl, fun h => Bool.noConfusion h⟩

/-- Data is written, unless the socket is destroyed. -/
theorem step_binary {data : Bytes} (h : l.step (.message (.binary data)) = some l') :
    l' = if l.destroyed then l else { l with answered := l.answered ++ data } := by
  simp only [step] at h
  split at h
  · exact (Option.some.inj h).symm
  · cases h

/-- The end half-closes it. -/
theorem step_endMessage (h : l.step (.message endMessage) = some l') : l' = { l with halfClosed := true } := by
  simp only [step] at h
  split at h
  · exact (Option.some.inj h).symm
  · cases h

end RelayLink

/-! ### What holds on the way -/

namespace Answering

/-- The Worker's end of the way. -/
def sender (s : Answering) : Sender :=
  match s.writable with
  | .closed => .ended
  | .active => if s.accepting && decide (s.source ≠ .aborted) then .live else .dead
  | .aborted => .dead

theorem sender_ended {s : Answering} : s.sender = .ended ↔ s.writable = .closed := by
  unfold sender
  cases s.writable with
  | active =>
    dsimp only
    split <;> simp
  | closed => simp
  | aborted => simp

/-- Until the socket is ended or destroyed, what it was written and what is under
way carries on with what the object wrote. -/
structure Ok (s : Answering) : Prop where
  carries : s.link.destroyed = false → s.link.halfClosed = false →
    Carries s.whole s.unread (if s.severed then s.sender.cut else s.sender) s.link.answered (s.wire.map (·.piece))
  finished : s.link.destroyed = false → s.link.halfClosed = true →
    s.writable = .closed ∧ s.link.answered = s.whole ∧ s.wire = []
  answered : s.link.answered <+: s.whole
  flushed : s.flushed <+: s.link.answered
  fin : s.fin = true → s.source = .closed ∧ s.flushed = s.whole
  closed : s.writable = .closed → s.source = .closed
  broken : s.source = .aborted → s.unread = []
  wire : ∃ chunks : List Bytes, s.wire = chunks.map .binary ∨
    s.wire = chunks.map .binary ++ [endMessage] ∧ s.writable = .closed
  -- the end stays under way until it comes
  ended : s.link.destroyed = false → s.link.halfClosed = false → s.severed = false → s.writable = .closed →
    ∃ chunks : List Bytes, s.wire = chunks.map .binary ++ [endMessage]

variable {s s' : Answering}

theorem ok_start : start.Ok where
  carries _ _ := .start []
  finished _ h := nomatch h
  answered := List.nil_prefix
  flushed := List.nil_prefix
  fin h := nomatch h
  closed h := nomatch h
  broken h := nomatch h
  wire := ⟨[], .inl rfl⟩
  ended _ _ _ h := nomatch h

/-- The Worker goes on, and nothing is sent. -/
theorem Ok.goes (h : s.Ok) (hwire : s'.wire = s.wire) (hlink : s'.link = s.link) (hsevered : s'.severed = s.severed)
    (hflushed : s'.flushed = s.flushed) (hfin : s'.fin = s.fin) (hwhole : s.whole <+: s'.whole)
    (hclosed : s.writable = .closed → s'.writable = .closed ∧ s'.whole = s.whole)
    (hsource : s.source = .closed → s'.source = .closed ∧ s'.whole = s.whole)
    (hback : s'.writable = .closed → s.writable = .closed) (hbroken : s'.source = .aborted → s'.unread = [])
    (hc : ∀ got ps, Carries s.whole s.unread s.sender got ps → Carries s'.whole s'.unread s'.sender got ps) :
    s'.Ok where
  carries hd hh := by
    rw [hlink] at hd hh ⊢
    rw [hwire, hsevered]
    have hcarries := h.carries hd hh
    split
    · rename_i hs
      rw [if_pos hs] at hcarries
      refine hcarries.apart hwhole fun he => ?_
      obtain ⟨hw, he⟩ := hclosed (sender_ended.mp he)
      exact ⟨sender_ended.mpr hw, he⟩
    · rename_i hs
      rw [if_neg hs] at hcarries
      exact hc _ _ hcarries
  finished hd hh := by
    rw [hlink] at hd hh ⊢
    obtain ⟨hw, ha, he⟩ := h.finished hd hh
    obtain ⟨hw', he'⟩ := hclosed hw
    exact ⟨hw', ha.trans he'.symm, hwire.trans he⟩
  answered := by
    rw [hlink]
    exact h.answered.trans hwhole
  flushed := by
    rw [hlink, hflushed]
    exact h.flushed
  fin hf := by
    obtain ⟨hs, he⟩ := h.fin (hfin ▸ hf)
    obtain ⟨hs', he'⟩ := hsource hs
    exact ⟨hs', hflushed.trans (he.trans he'.symm)⟩
  closed hc := (hsource (h.closed (hback hc))).1
  broken := hbroken
  wire := by
    rw [hwire]
    obtain ⟨chunks, hw | ⟨hw, hc⟩⟩ := h.wire
    · exact ⟨chunks, .inl hw⟩
    · exact ⟨chunks, .inr ⟨hw, (hclosed hc).1⟩⟩
  ended hd hh hs hc := by
    rw [hlink] at hd hh
    rw [hwire]
    exact h.ended hd hh (hsevered ▸ hs) (hback hc)

/-- The pipe breaks off. -/
theorem Ok.breaks (h : s.Ok) (ha : s.writable = .active) (accepting : Bool) :
    Ok { s with writable := .aborted, accepting } := by
  have hne : s.writable ≠ .closed := by simp [ha]
  refine h.goes rfl rfl rfl rfl rfl (List.prefix_refl _) (fun hc => absurd hc hne) (fun hs => ⟨hs, rfl⟩)
    (fun hc => (nomatch hc)) h.broken fun got ps hc => ?_
  exact hc.breaks (fun he => hne (sender_ended.mp he)) s.unread

/-- A message is sent. -/
theorem Ok.sends (h : s.Ok) (ha : s.writable = .active) {m : Message} (unread : Bytes)
    (writable : WriterState) (hbroken : s.source = .aborted → unread = [])
    (hclosed : writable = .closed → s.source = .closed ∧ m = endMessage)
    (hm : writable ≠ .closed → ∃ data, m = .binary data)
    (hc : ∀ got ps, Carries s.whole s.unread s.sender got ps →
      Carries s.whole unread ({ s with unread, writable }).sender got (ps ++ [m.piece])) :
    Ok ({ s with unread, writable }.send m) := by
  have hne : s.writable ≠ .closed := by simp [ha]
  have hnot : s.link.destroyed = false → s.link.halfClosed = false := fun hd => by
    by_contra hh
    exact hne (h.finished hd (by simpa using hh)).1
  obtain ⟨chunks, hw⟩ : ∃ chunks : List Bytes, s.wire = chunks.map .binary := by
    obtain ⟨chunks, hw | ⟨-, hw⟩⟩ := h.wire
    · exact ⟨chunks, hw⟩
    · exact absurd hw hne
  unfold send
  split
  · rename_i hsevered
    have hsevered : s.severed = true := hsevered
    refine ⟨fun hd hh => ?_, fun hd hh => ?_, h.answered, h.flushed, h.fin, fun hc => (hclosed hc).1, hbroken,
      ⟨chunks, .inl hw⟩, fun _ _ hs => absurd (hsevered.symm.trans hs) (by decide)⟩
    · have hcarries := h.carries hd hh
      rw [if_pos hsevered] at hcarries
      rw [if_pos hsevered]
      exact hcarries.apart (List.prefix_refl _) fun he => absurd (sender_ended.mp he) hne
    · have hh' := hnot hd
      rw [hh] at hh'
      cases hh'
  · rename_i hsevered
    have hsevered : ¬ s.severed = true := hsevered
    refine ⟨fun hd hh => ?_, fun hd hh => ?_, h.answered, h.flushed, h.fin, fun hc => (hclosed hc).1, hbroken, ?_,
      fun _ _ _ hc => ⟨chunks, ?_⟩⟩
    · have hcarries := h.carries hd hh
      rw [if_neg hsevered] at hcarries
      have hsent := hc _ _ hcarries
      rw [if_neg hsevered, List.map_append]
      exact hsent
    · have hh' := hnot hd
      rw [hh] at hh'
      cases hh'
    · by_cases hwritable : writable = .closed
      · refine ⟨chunks, .inr ⟨?_, hwritable⟩⟩
        rw [← (hclosed hwritable).2, ← hw]
      · obtain ⟨data, rfl⟩ := hm hwritable
        refine ⟨chunks ++ [data], .inl ?_⟩
        rw [List.map_append, ← hw]
        rfl
    · rw [← (hclosed hc).2, ← hw]

/-- The Worker closes its end of the WebSocket. -/
theorem Ok.stops (h : s.Ok) : Ok { s with accepting := false } := by
  refine h.goes rfl rfl rfl rfl rfl (List.prefix_refl _) (fun hc => ⟨hc, rfl⟩) (fun hs => ⟨hs, rfl⟩)
    (fun hc => hc) h.broken fun got ps hc => ?_
  by_cases hw : s.writable = .closed
  · have hs : s.sender = .ended := sender_ended.mpr hw
    have hs' : sender { s with accepting := false } = .ended := sender_ended.mpr hw
    rw [hs] at hc
    rw [hs']
    exact hc
  · have hdead : sender { s with accepting := false } = .dead := by
      unfold sender
      cases ha : s.writable with
      | active => rfl
      | closed => exact absurd ha hw
      | aborted => rfl
    rw [hdead]
    exact hc.breaks (fun he => hw (sender_ended.mp he)) s.unread

/-- The way breaks off. -/
theorem Ok.sever (h : s.Ok) (n : ℕ) : Ok { s with wire := s.wire.take n, severed := true } where
  carries hd hh := by
    have hfirst : (s.wire.take n).map (·.piece) <+: s.wire.map (·.piece) := (List.take_prefix n s.wire).map _
    have hlost := (h.carries hd hh).lose hfirst
    rw [if_pos rfl]
    split at hlost
    · rw [Sender.cut_cut] at hlost
      exact hlost
    · exact hlost
  finished hd hh := by
    obtain ⟨hw, ha, he⟩ := h.finished hd hh
    refine ⟨hw, ha, ?_⟩
    show s.wire.take n = []
    rw [he, List.take_nil]
  answered := h.answered
  flushed := h.flushed
  fin := h.fin
  closed := h.closed
  broken := h.broken
  wire := by
    obtain ⟨chunks, hw | ⟨hw, hc⟩⟩ := h.wire
    · refine ⟨chunks.take n, .inl ?_⟩
      show s.wire.take n = _
      rw [hw, List.map_take]
    · by_cases hn : n ≤ chunks.length
      · refine ⟨chunks.take n, .inl ?_⟩
        show s.wire.take n = _
        rw [hw, List.take_append_of_le_length (by simpa using hn), List.map_take]
      · refine ⟨chunks, .inr ⟨?_, hc⟩⟩
        show s.wire.take n = _
        rw [hw, List.take_of_length_le (by simp; omega)]
  ended _ _ hs := nomatch hs

/-- The relay goes on, and nothing is written to its socket. -/
theorem Ok.leaves (h : s.Ok) {link : RelayLink} (hl : s.link.Leaves link) : Ok { s with link } where
  carries hd hh := by
    have hh : link.halfClosed = false := hh
    have hcarries := h.carries (hl.destroyed hd) (hl.halfClosed ▸ hh)
    show Carries _ _ _ link.answered _
    rw [hl.answered]
    exact hcarries
  finished hd hh := by
    have hh : link.halfClosed = true := hh
    obtain ⟨hw, ha, he⟩ := h.finished (hl.destroyed hd) (hl.halfClosed ▸ hh)
    exact ⟨hw, hl.answered.trans ha, he⟩
  answered := by
    show link.answered <+: s.whole
    rw [hl.answered]
    exact h.answered
  flushed := by
    show s.flushed <+: link.answered
    rw [hl.answered]
    exact h.flushed
  fin := h.fin
  closed := h.closed
  broken := h.broken
  wire := h.wire
  ended hd hh := h.ended (hl.destroyed hd) (hl.halfClosed ▸ hh)

/-- The relay hears a message. -/
theorem Ok.deliver (h : s.Ok) {m : Message} {wire : List Message} {link : RelayLink} (hwire : s.wire = m :: wire)
    (hl : s.link.step (.message m) = some link) : Ok { s with link, wire } := by
  -- the socket is not half-closed yet, or it is destroyed
  have hopen : s.link.destroyed = false → s.link.halfClosed = false := fun hd => by
    by_contra hh
    have hnone := (h.finished hd (by simpa using hh)).2.2
    rw [hwire] at hnone
    cases hnone
  have rest : ∃ chunks : List Bytes, wire = chunks.map .binary ∨
      wire = chunks.map .binary ++ [endMessage] ∧ s.writable = .closed := by
    obtain ⟨chunks, hw⟩ := h.wire
    rw [hwire] at hw
    cases chunks with
    | nil =>
      rcases hw with hw | ⟨hw, -⟩
      · cases hw
      · exact ⟨[], .inl (List.cons.inj hw).2⟩
    | cons chunk chunks =>
      rcases hw with hw | ⟨hw, hc⟩
      · exact ⟨chunks, .inl (List.cons.inj hw).2⟩
      · exact ⟨chunks, .inr ⟨(List.cons.inj hw).2, hc⟩⟩
  have hm : (∃ data, m = .binary data) ∨ m = endMessage ∧ wire = [] := by
    obtain ⟨chunks, hw⟩ := h.wire
    rw [hwire] at hw
    cases chunks with
    | nil =>
      rcases hw with hw | ⟨hw, -⟩
      · cases hw
      · exact .inr (List.cons.inj hw)
    | cons chunk chunks =>
      rcases hw with hw | ⟨hw, -⟩
      · exact .inl ⟨chunk, (List.cons.inj hw).1⟩
      · exact .inl ⟨chunk, (List.cons.inj hw).1⟩
  rcases hm with ⟨data, rfl⟩ | ⟨rfl, rfl⟩
  · have hl := RelayLink.step_binary hl
    by_cases hd : s.link.destroyed = true
    · rw [if_pos hd] at hl
      rw [hl]
      exact ⟨fun hd' => absurd (hd.symm.trans hd') (by decide), fun hd' => absurd (hd.symm.trans hd') (by decide),
        h.answered, h.flushed, h.fin, h.closed, h.broken, rest, fun hd' => absurd (hd.symm.trans hd') (by decide)⟩
    · have hd : s.link.destroyed = false := by simpa using hd
      rw [if_neg (by simp [hd])] at hl
      have hcarries := h.carries hd (hopen hd)
      rw [hwire, List.map_cons] at hcarries
      have hcarries := hcarries.take
      rw [hl]
      refine ⟨fun _ _ => hcarries, fun _ hh => absurd ((hopen hd).symm.trans hh) (by decide), hcarries.arrived,
        h.flushed.trans (List.prefix_append _ _), h.fin, h.closed, h.broken, rest, fun _ _ hs hc => ?_⟩
      obtain ⟨chunks, hw⟩ := h.ended hd (hopen hd) hs hc
      rw [hwire] at hw
      cases chunks with
      | nil => cases hw
      | cons chunk chunks => exact ⟨chunks, (List.cons.inj hw).2⟩
  · have hl := RelayLink.step_endMessage hl
    rw [hl]
    refine ⟨fun _ hh => (nomatch hh), fun hd _ => ?_, h.answered, h.flushed, h.fin, h.closed, h.broken, rest,
      fun _ hh => nomatch hh⟩
    have hcarries := h.carries hd (hopen hd)
    rw [hwire] at hcarries
    obtain ⟨hs, hw⟩ := hcarries.ended
    refine ⟨?_, hw, rfl⟩
    split at hs
    · exact sender_ended.mp (Sender.cut_eq_ended.mp hs)
    · exact sender_ended.mp hs

/-- While the object's writer is open, the end has not been sent. -/
theorem Ok.writable_ne (h : s.Ok) (hactive : s.source = .active) : s.writable ≠ .closed := fun hc => by
  rw [h.closed hc] at hactive
  cases hactive

/-- The object writes. -/
theorem Ok.object_writes (h : s.Ok) (hactive : s.source = .active) (data : Bytes) :
    Ok { s with whole := s.whole ++ data, unread := s.unread ++ data } := by
  have hne := h.writable_ne hactive
  refine h.goes rfl rfl rfl rfl rfl (List.prefix_append _ _) (fun hc => absurd hc hne) (fun hc => ?_)
    (fun hc => hc) (fun ha => ?_) fun got ps hc => hc.grow (fun he => hne (sender_ended.mp he)) data
  · rw [hactive] at hc
    cases hc
  · have ha : s.source = .aborted := ha
    rw [hactive] at ha
    cases ha

/-- The object closes its writer. -/
theorem Ok.object_closes (h : s.Ok) (hactive : s.source = .active) : Ok { s with source := .closed } := by
  refine h.goes rfl rfl rfl rfl rfl (List.prefix_refl _) (fun hc => ⟨hc, rfl⟩) (fun _ => ⟨rfl, rfl⟩)
    (fun hc => hc) (fun ha => (nomatch ha)) fun got ps hc => ?_
  have hsender : sender { s with source := .closed } = s.sender := by
    unfold sender
    rw [hactive]
    rfl
  rw [hsender]
  exact hc

/-- The object breaks its writer off. -/
theorem Ok.object_aborts (h : s.Ok) (hactive : s.source = .active) : Ok { s with source := .aborted, unread := [] } := by
  have hne := h.writable_ne hactive
  refine h.goes rfl rfl rfl rfl rfl (List.prefix_refl _) (fun hc => absurd hc hne) (fun hc => ?_)
    (fun hc => hc) (fun _ => rfl) fun got ps hc => ?_
  · rw [hactive] at hc
    cases hc
  · have hdead : sender { s with source := .aborted, unread := [] } = .dead := by
      unfold sender
      cases hw : s.writable with
      | active => simp
      | closed => exact absurd hw hne
      | aborted => rfl
    rw [hdead]
    exact hc.breaks (fun he => hne (sender_ended.mp he)) []

/-- The pipe passes bytes on. -/
theorem Ok.pipe_passes (h : s.Ok) (hactive : s.writable = .active) (hacc : s.accepting = true)
    (hsource : s.source ≠ .aborted) (n : ℕ) :
    Ok ({ s with unread := s.unread.drop n }.send (.binary (s.unread.take n))) := by
  have hlive : s.sender = .live := by
    unfold sender
    rw [hactive]
    simp [hacc, hsource]
  have hlive' : sender { s with unread := s.unread.drop n, writable := s.writable } = .live := hlive
  refine h.sends hactive _ _ (fun ha => absurd ha hsource) (fun hc => ?_) (fun _ => ⟨_, rfl⟩) fun got ps hc => ?_
  · rw [hactive] at hc
    cases hc
  · rw [hlive, ← List.take_append_drop n s.unread] at hc
    rw [hlive']
    exact hc.send

/-- The pipe has passed all on, and ends. -/
theorem Ok.pipe_ends (h : s.Ok) (hactive : s.writable = .active) (hacc : s.accepting = true)
    (hclosed : s.source = .closed) (hempty : s.unread = []) : Ok ({ s with writable := .closed }.send endMessage) := by
  have hlive : s.sender = .live := by
    unfold sender
    rw [hactive]
    simp [hacc, hclosed]
  refine h.sends hactive s.unread .closed h.broken (fun _ => ⟨hclosed, rfl⟩) (fun hne => absurd rfl hne)
    fun got ps hc => ?_
  rw [hlive, hempty] at hc
  rw [hempty]
  exact hc.finish

/-- The socket sends some of what was written to it. -/
theorem Ok.socket_sends (h : s.Ok) (n : ℕ) : Ok { s with flushed := s.link.answered.take (s.flushed.length + n) } := by
  refine ⟨h.carries, h.finished, h.answered, List.take_prefix _ _, fun hf => ?_, h.closed, h.broken, h.wire, h.ended⟩
  obtain ⟨hsource, hwhole⟩ := h.fin hf
  refine ⟨hsource, ?_⟩
  -- all has left already, so all has been written
  have heq : s.flushed = s.link.answered := h.flushed.eq_of_length_le (by rw [hwhole]; exact h.answered.length_le)
  show s.link.answered.take _ = s.whole
  rw [heq, List.take_of_length_le (Nat.le_add_right _ _), ← heq, hwhole]

theorem Ok.step {a : AnswerLabel} (h : s.Ok) (hs : s.step a = some s') : s'.Ok := by
  cases a with
  | writes data =>
    obtain ⟨hactive, he⟩ := Option.ite_none_right_eq_some.mp hs
    obtain rfl := Option.some.inj he
    exact h.object_writes hactive data
  | closes =>
    obtain ⟨hactive, he⟩ := Option.ite_none_right_eq_some.mp hs
    obtain rfl := Option.some.inj he
    exact h.object_closes hactive
  | aborts =>
    obtain ⟨hactive, he⟩ := Option.ite_none_right_eq_some.mp hs
    obtain rfl := Option.some.inj he
    exact h.object_aborts hactive
  | pipe n =>
    obtain ⟨⟨hactive, hpos, hle⟩, he⟩ := Option.ite_none_right_eq_some.mp hs
    have hsource : s.source ≠ .aborted := fun ha => by
      rw [h.broken ha] at hle
      exact absurd (Nat.lt_of_lt_of_le hpos hle) (Nat.lt_irrefl 0)
    split at he
    · rename_i hacc
      obtain rfl := Option.some.inj he
      exact h.pipe_passes hactive hacc hsource n
    · obtain rfl := Option.some.inj he
      exact h.breaks hactive s.accepting
  | pipeEnd =>
    obtain ⟨⟨hactive, hclosed, hempty⟩, he⟩ := Option.ite_none_right_eq_some.mp hs
    split at he
    · rename_i hacc
      obtain rfl := Option.some.inj he
      exact h.pipe_ends hactive hacc hclosed hempty
    · obtain rfl := Option.some.inj he
      exact h.breaks hactive s.accepting
  | pipeAbort =>
    obtain ⟨⟨hactive, -⟩, he⟩ := Option.ite_none_right_eq_some.mp hs
    obtain rfl := Option.some.inj he
    exact h.breaks hactive false
  | close =>
    obtain rfl := Option.some.inj hs
    exact h.stops
  | sever n =>
    obtain rfl := Option.some.inj hs
    exact h.sever n
  | deliver =>
    simp only [Answering.step] at hs
    split at hs
    · cases hs
    · rename_i hwire
      obtain ⟨link, hl, rfl⟩ := Option.map_eq_some_iff.mp hs
      exact h.deliver hwire hl
  | link e =>
    obtain ⟨he, hs⟩ := Option.ite_none_left_eq_some.mp hs
    obtain ⟨link, hl, rfl⟩ := Option.map_eq_some_iff.mp hs
    exact h.leaves (RelayLink.step_leaves (by simpa using he) hl)
  | flush n =>
    obtain ⟨-, he⟩ := Option.ite_none_right_eq_some.mp hs
    obtain rfl := Option.some.inj he
    exact h.socket_sends n
  | fin =>
    obtain ⟨hfin, he⟩ := Option.ite_none_right_eq_some.mp hs
    obtain rfl := Option.some.inj he
    simp only [Bool.and_eq_true, Bool.not_eq_true', decide_eq_true_eq] at hfin
    obtain ⟨⟨hd, hh⟩, he⟩ := hfin
    obtain ⟨hw, ha, -⟩ := h.finished hd hh
    exact ⟨h.carries, h.finished, h.answered, h.flushed, fun _ => ⟨h.closed hw, he.trans ha⟩, h.closed,
      h.broken, h.wire, h.ended⟩

theorem ok_of_reachable (h : Lts.Reachable answering (· = .start) s) : s.Ok := by
  refine h.invariant (fun s hs => ?_) fun s a s' hok hstep => hok.step hstep
  rw [hs]
  exact ok_start

/-! ### What gets through -/

/-- The states that `s` can lead to. -/
abbrev Leads (s t : Answering) : Prop := Lts.Reachable answering (· = s) t

theorem Leads.refl (s : Answering) : s.Leads s := .of_init rfl

theorem Ok.leads {t : Answering} (h : s.Ok) (hl : s.Leads t) : t.Ok :=
  hl.invariant (fun _ hs => hs ▸ h) fun _ _ _ hok hstep => hok.step hstep

/-- Nothing has broken off: the client's socket is there; and it has its end, or
the relay's WebSocket is open or still to be opened, the way to it is there, and
the Worker has sent the end or can. -/
def Unbroken (s : Answering) : Prop :=
  s.link.destroyed = false ∧ (s.link.halfClosed = true ∨ s.severed = false ∧
    (s.link.readyState = .CONNECTING ∨ s.link.readyState = .OPEN) ∧
    (s.writable = .closed ∨ s.writable = .active ∧ s.accepting = true ∧ s.source ≠ .aborted))

instance : DecidablePred Unbroken := fun s => by
  unfold Unbroken
  infer_instance

/-- The relay's WebSocket is opened, if it is not. -/
theorem connects {t : Answering} (h : s.Leads t)
    (hready : t.link.readyState = .CONNECTING ∨ t.link.readyState = .OPEN) :
    ∃ link, s.Leads { t with link } ∧ link.readyState = .OPEN ∧ link.destroyed = t.link.destroyed := by
  rcases hready with hready | hready
  · have hstep : answering.step t (.link .open) =
        some { t with link := RelayLink.onOpen { t.link with readyState := .OPEN } } := by
      show Answering.step t (.link .open) = _
      simp [Answering.step, RelayEvent.isMessage, RelayLink.step, hready]
    refine ⟨_, h.step hstep, ?_, ?_⟩
    · unfold RelayLink.onOpen RelayLink.send
      split
      · split <;> rfl
      · rfl
    · unfold RelayLink.onOpen RelayLink.send
      split
      · split <;> rfl
      · rfl
  · exact ⟨t.link, h, hready, rfl⟩

/-- The object closes its writer, if it has not. -/
theorem closes {t : Answering} (h : s.Leads t) (hsource : t.source ≠ .aborted) :
    s.Leads { t with source := .closed } := by
  cases hactive : t.source with
  | active =>
    have hstep : answering.step t .closes = some { t with source := .closed } := by
      show Answering.step t .closes = _
      simp [Answering.step, hactive]
    exact h.step hstep
  | closed =>
    rw [← hactive]
    exact h
  | aborted => exact absurd hactive hsource

/-- The Worker pipes all there is, and the end behind it. -/
theorem pipes {t : Answering} (h : s.Leads t) (hok : s.Ok) (hactive : t.writable = .active)
    (hacc : t.accepting = true) (hsevered : t.severed = false) (hclosed : t.source = .closed) :
    ∃ chunks : List Bytes, s.Leads { t with
      unread := [], writable := .closed, wire := chunks.map .binary ++ [endMessage] } := by
  obtain ⟨chunks, hw⟩ : ∃ chunks : List Bytes, t.wire = chunks.map .binary := by
    obtain ⟨chunks, hw | ⟨-, hw⟩⟩ := (hok.leads h).wire
    · exact ⟨chunks, hw⟩
    · rw [hactive] at hw
      cases hw
  obtain ⟨chunks, hpiped⟩ : ∃ chunks : List Bytes, s.Leads { t with unread := [], wire := chunks.map .binary } := by
    by_cases hempty : t.unread = []
    · refine ⟨chunks, ?_⟩
      rw [← hempty, ← hw]
      exact h
    · have hpos : 0 < t.unread.length := List.length_pos_iff.mpr hempty
      have hstep : answering.step t (.pipe t.unread.length) =
          some { t with unread := [], wire := (chunks ++ [t.unread]).map .binary } := by
        show Answering.step t (.pipe _) = _
        simp [Answering.step, send, hactive, hpos, hacc, hsevered, hw]
      exact ⟨_, h.step hstep⟩
  have hend : answering.step { t with unread := [], wire := chunks.map .binary } .pipeEnd =
      some { t with unread := [], writable := .closed, wire := chunks.map .binary ++ [endMessage] } := by
    show Answering.step _ .pipeEnd = _
    simp [Answering.step, send, hactive, hclosed, hacc, hsevered]
  exact ⟨chunks, hpiped.step hend⟩

/-- All messages under way come to the relay, and the end last. -/
theorem delivers {t : Answering} {chunks : List Bytes} (h : s.Leads t)
    (hwire : t.wire = chunks.map .binary ++ [endMessage])
    (hopen : t.link.readyState = .OPEN) (hd : t.link.destroyed = false) :
    ∃ u, s.Leads u ∧ u.link.halfClosed = true ∧ u.link.destroyed = false ∧ u.whole = t.whole := by
  induction chunks generalizing t with
  | nil =>
    have hl : t.link.step (.message endMessage) = some { t.link with halfClosed := true } := if_pos hopen
    have hstep : answering.step t .deliver =
        some { t with link := { t.link with halfClosed := true }, wire := [] } := by
      show Answering.step t .deliver = _
      simp only [Answering.step]
      rw [hwire]
      exact congrArg (Option.map _) hl
    exact ⟨_, h.step hstep, rfl, hd, rfl⟩
  | cons chunk chunks ih =>
    have hl : t.link.step (.message (.binary chunk)) = some { t.link with answered := t.link.answered ++ chunk } := by
      have hstep : t.link.step (.message (.binary chunk)) = some (t.link.onMessage (.binary chunk)) := if_pos hopen
      rw [hstep]
      exact congrArg some (if_neg (by simp [hd]))
    have hstep : answering.step t .deliver = some { t with
        link := { t.link with answered := t.link.answered ++ chunk }
        wire := chunks.map .binary ++ [endMessage] } := by
      show Answering.step t .deliver = _
      simp only [Answering.step]
      rw [hwire]
      exact congrArg (Option.map _) hl
    obtain ⟨u, hu, hh, hd', hwhole⟩ := ih (h.step hstep) rfl hopen hd
    exact ⟨u, hu, hh, hd', hwhole⟩

/-- What was written to a socket that is half-closed leaves it, and its end. -/
theorem drains {t : Answering} (h : s.Leads t) (hh : t.link.halfClosed = true) (hd : t.link.destroyed = false)
    (hle : t.flushed.length ≤ t.link.answered.length) : ∃ u, s.Leads u ∧ u.fin = true ∧ u.whole = t.whole := by
  have hflush : answering.step t (.flush (t.link.answered.length - t.flushed.length)) =
      some { t with flushed := t.link.answered } := by
    have hall : t.flushed.length + (t.link.answered.length - t.flushed.length) = t.link.answered.length := by omega
    show Answering.step t (.flush _) = _
    simp only [Answering.step]
    rw [if_pos (by simp [hd]), hall, List.take_length]
  have hfin : answering.step { t with flushed := t.link.answered } .fin =
      some { t with flushed := t.link.answered, fin := true } := by
    show Answering.step _ .fin = _
    simp only [Answering.step]
    rw [if_pos (by simp [hd, hh])]
  exact ⟨_, (h.step hflush).step hfin, rfl, rfl⟩

/-- While nothing has broken off, the end of the stream can get through to the
client. -/
theorem Ok.gets_through (h : s.Ok) (hunbroken : s.Unbroken) : ∃ t, s.Leads t ∧ t.fin = true ∧ t.flushed = s.whole := by
  obtain ⟨hd, hway⟩ := hunbroken
  -- behind the end at the socket
  have leaves : ∀ {t : Answering}, s.Leads t → t.link.halfClosed = true → t.link.destroyed = false →
      t.whole = s.whole → ∃ u, s.Leads u ∧ u.fin = true ∧ u.flushed = s.whole := by
    intro t ht hh hd hwhole
    obtain ⟨u, hu, hfin, hu'⟩ := drains ht hh hd (h.leads ht).flushed.length_le
    exact ⟨u, hu, hfin, ((h.leads hu).fin hfin).2.trans (hu'.trans hwhole)⟩
  rcases hway with hh | ⟨hsevered, hready, hworker⟩
  · exact leaves (.refl s) hh hd rfl
  by_cases hh : s.link.halfClosed = true
  · exact leaves (.refl s) hh hd rfl
  have hh : s.link.halfClosed = false := by simpa using hh
  -- the end is under way
  obtain ⟨t, ht, hlink, hwhole, chunks, hw⟩ : ∃ t, s.Leads t ∧ t.link = s.link ∧ t.whole = s.whole ∧
      ∃ chunks : List Bytes, t.wire = chunks.map .binary ++ [endMessage] := by
    rcases hworker with hclosed | ⟨hactive, hacc, hsource⟩
    · exact ⟨s, .refl s, rfl, rfl, h.ended hd hh hsevered hclosed⟩
    · obtain ⟨chunks, hpiped⟩ := pipes (closes (.refl s) hsource) h hactive hacc hsevered rfl
      exact ⟨_, hpiped, rfl, rfl, chunks, rfl⟩
  rw [← hlink] at hready hd
  obtain ⟨link, hopened, hopen, hd'⟩ := connects ht hready
  obtain ⟨u, hu, hh', hdu, hu'⟩ := delivers hopened hw hopen (hd'.trans hd)
  exact leaves hu hh' hdu (hu'.trans hwhole)

end Answering

/-- In whatever order the object, the Worker, the relay and the client go on: what
left for the client is a beginning of what the object wrote; its end left behind
all of it, and only if the object closed its writer; and as long as nothing broke
off, all of it and its end can still get there. -/
theorem answers_preserved {s : Answering} (h : Lts.Reachable answering (· = .start) s) :
    s.flushed <+: s.whole ∧ (s.fin = true → s.source = .closed ∧ s.flushed = s.whole) ∧
      (s.Unbroken → ∃ t, s.Leads t ∧ t.fin = true ∧ t.flushed = s.whole) := by
  have hok := Answering.ok_of_reachable h
  exact ⟨hok.flushed.trans hok.answered, hok.fin, hok.gets_through⟩

/-- Two writes are piped and the end behind them, and the Worker closes its
WebSocket, before the relay has all. -/
def answerLabels : List AnswerLabel :=
  [.link .open, .writes [1, 2], .pipe 2, .deliver, .flush 1, .writes [3], .closes, .pipe 1, .pipeEnd, .close]

/-- The object writes, before the WebSocket is open. -/
def earlyLabels : List AnswerLabel := [.writes [1, 2], .pipe 1]

theorem answers_preserved_closed :
    (∃ s t, answering.exec .start answerLabels = some s ∧ s.Leads t ∧ t.fin = true ∧ t.flushed = s.whole ∧
      s.flushed <+: s.whole) ∧
    ∃ s t, answering.exec .start earlyLabels = some s ∧ s.Leads t ∧ t.fin = true ∧ t.flushed = s.whole := by
  constructor
  · have hrun : (answering.exec .start answerLabels).any (fun s => decide s.Unbroken) = true := by decide
    obtain ⟨s, hs, hunbroken⟩ := (Option.any_eq_true _ _).mp hrun
    obtain ⟨hpre, -, hthrough⟩ := answers_preserved (.of_exec rfl hs)
    obtain ⟨t, ht, hfin, hall⟩ := hthrough (of_decide_eq_true hunbroken)
    exact ⟨s, t, hs, ht, hfin, hall, hpre⟩
  · have hrun : (answering.exec .start earlyLabels).any (fun s => decide s.Unbroken) = true := by decide
    obtain ⟨s, hs, hunbroken⟩ := (Option.any_eq_true _ _).mp hrun
    obtain ⟨t, ht, hfin, hall⟩ := (answers_preserved (.of_exec rfl hs)).2.2 (of_decide_eq_true hunbroken)
    exact ⟨s, t, hs, ht, hfin, hall⟩

end ShuvTunnel
