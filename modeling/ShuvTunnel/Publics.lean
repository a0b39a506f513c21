/-
# Public connections on their way through the Worker

`routeTcp` reads a public stream until it has the ClientHello, connects to the
tunnel's object, writes the chunks it has read, and pipes the rest. The object
reads what was written, in chunks of its own. An error anywhere breaks the
connection off: both sockets are closed, and what is left is lost. The object's
reader cannot tell this from the end of the stream.

Key definitions: `Public`, `Public.step`, `Public.Flows`, `Public.Goes`.
Key theorems: `Public.Flows.step`.
-/
import ShuvTunnel.Inspection
import ShuvTunnel.Names
import ShuvTunnel.Turns

namespace ShuvTunnel

open Coop

/-- What is given: the platform and the text functions, the tunnel of the
object, and the socket whose client is followed. -/
structure Site where
  P : Platform
  U : Unicode
  domain : String
  id : String
  bridge : ℕ

/-- Where `routeTcp` is. -/
inductive Routing
  | reading
  | replaying
  | piping
  | done
  deriving DecidableEq

/-- A public connection: all bytes that came, and whether the peer has shut its
half down; what the Worker has not read; the chunks it has read and not
replayed; what it has written and the object not read; the state of
`routed.writable`; what the object has read, its call of `connect`, and the
channel of that. -/
structure Public where
  stream : Bytes
  shut : Bool
  unread : Bytes
  routing : Routing
  chunks : List Bytes
  pipe : Bytes
  writable : WriterState
  taken : Bytes
  call : Option ℕ
  channel : Option ℕ

/-- A connection is accepted. -/
def Public.accepted : Public where
  stream := []
  shut := false
  unread := []
  routing := .reading
  chunks := []
  pipe := []
  writable := .active
  taken := []
  call := none
  channel := none

/-- What a public peer and its handler do. -/
inductive PublicMove
  | arrive (data : Bytes)
  | shut
  | route (items : List Bytes)
  | replay
  | pipe (n : ℕ)
  | close
  | fail
  | hello (h : Hello)
  | chunk (n bufferedAmount : ℕ)
  | eof
  | error (message : String)
  | settle

namespace Public

/-- What may happen to a public connection, and what of it the object sees. -/
def step (S : Site) (s : State) (p : Public) : PublicMove → Option (Public × Option Action)
  | .arrive data =>
    if p.shut then none else some ({ p with stream := p.stream ++ data, unread := p.unread ++ data }, none)
  | .shut => some ({ p with shut := true }, none)
  -- the read loop of `routeTcp`, which read `items`, and `TUNNELS.getByName(tunnelID).connect`
  | .route items =>
    match p.routing, routeTcpLoop S.U [] items with
    | .reading, .left (some hostname) _ chunks =>
      if chunks = items ∧ items.flatten <+: p.unread ∧ hostname ≠ "" ∧
          tunnelIDFromHostname S.U hostname S.domain = some S.id then
        some ({ p with
          routing := .replaying
          chunks := items
          unread := p.unread.drop items.flatten.length
          call := some s.next }, some (.call .connect))
      else none
    | _, _ => none
  -- `for (const chunk of chunks) await replay.write(chunk)`
  | .replay =>
    match p.routing, p.chunks with
    | .replaying, chunk :: chunks => some ({ p with chunks, pipe := p.pipe ++ chunk }, none)
    | .replaying, [] => some ({ p with routing := .piping }, none)
    | _, _ => none
  -- `client.readable.pipeTo(routed.writable)`, a chunk and the end
  | .pipe n =>
    if p.routing = .piping then some ({ p with unread := p.unread.drop n, pipe := p.pipe ++ p.unread.take n }, none)
    else none
  | .close =>
    if p.routing = .piping ∧ p.writable = .active ∧ p.unread = [] ∧ p.shut then
      some ({ p with writable := .closed }, none)
    else none
  -- an error of the loop, of a pipe in either direction, and the closing behind it: `client.close()`
  -- ends the stream that is piped, `routed.close()` closes both streams whatever is under way
  | .fail =>
    some ({ p with
      routing := .done
      writable := if p.writable = .active then .aborted else p.writable }, none)
  -- the read loop of `connect`, left after these chunks
  | .hello h =>
    p.call.bind fun k =>
      if h.initial.flatten <+: p.pipe ∧ connectLoop S.U [] h.initial = .left h.sni h.alpn h.initial then
        some ({ p with
          pipe := p.pipe.drop h.initial.flatten.length
          taken := p.taken ++ h.initial.flatten }, some (.resume k (.hello h)))
      else none
  -- `reader.read()` of `upload`
  | .chunk n bufferedAmount =>
    p.call.map fun k =>
      ({ p with pipe := p.pipe.drop n, taken := p.taken ++ p.pipe.take n },
        some (.resume k (.chunk (p.pipe.take n) bufferedAmount)))
  -- it finds a stream that was closed while bytes were under way ended, or in error
  | .eof =>
    p.call.bind fun k =>
      if p.writable = .closed ∧ p.pipe = [] ∨ p.writable = .aborted then
        some (p, some (.resume k .eof))
      else none
  | .error message => p.call.map fun k => (p, some (.resume k (.error message)))
  | .settle => p.call.map fun k => (p, some (.resume k .ok))

/-- The channel of the call, once it has one. -/
def follow (p : Public) (s : State) : Public :=
  { p with channel := p.channel.or ((p.call.bind s.task).bind Task.key) }

/-! ### Nothing is lost or changed on the way -/

/-- All bytes are read by the object or on the way, in order, and none is on the
way to the Worker once it has ended. -/
structure Flows (p : Public) : Prop where
  whole : p.taken ++ p.pipe ++ p.chunks.flatten ++ p.unread = p.stream
  chunks : p.routing ≠ .replaying → p.routing ≠ .done → p.chunks = []
  closed : p.writable = .closed → p.routing ≠ .reading ∧ p.routing ≠ .replaying ∧ p.chunks = [] ∧ p.unread = [] ∧
    p.shut = true
  uncalled : p.routing = .reading → p.call = none

/-- What the object has read is a beginning of the stream. -/
theorem Flows.taken_of_stream {p : Public} (h : p.Flows) : p.taken <+: p.stream := by
  refine ⟨p.pipe ++ p.chunks.flatten ++ p.unread, ?_⟩
  rw [← h.whole]
  simp only [List.append_assoc]

theorem flows_accepted : accepted.Flows :=
  ⟨rfl, fun _ _ => rfl, fun h => (nomatch h), fun _ => rfl⟩

/-- What the object sees of a step: nothing, the call, or what it reads. -/
inductive Reads (S : Site) (s : State) (p p' : Public) : Option Action → Prop
  | unseen : p'.taken = p.taken → p'.call = p.call → Reads S s p p' none
  | calls : p.call = none → p'.taken = p.taken → p'.call = some s.next → Reads S s p p' (some (.call .connect))
  | hello {k : ℕ} {h : Hello} : p.call = some k → p'.call = some k → p'.taken = p.taken ++ h.initial.flatten →
      Reads S s p p' (some (.resume k (.hello h)))
  | chunk {k : ℕ} {value : Bytes} {bufferedAmount : ℕ} : p.call = some k → p'.call = some k →
      p'.taken = p.taken ++ value → Reads S s p p' (some (.resume k (.chunk value bufferedAmount)))
  | eof {k : ℕ} : p.call = some k → p' = p → (p.writable ≠ .aborted → p.taken = p.stream ∧ p.shut = true) →
      Reads S s p p' (some (.resume k .eof))
  | other {k : ℕ} {a : Answer} : p.call = some k → p' = p → a = .ok ∨ (∃ message, a = .error message) →
      Reads S s p p' (some (.resume k a))

/-- Nothing comes behind the end of the stream, and what is broken off stays so. -/
structure Keeps (p p' : Public) : Prop where
  shut : p.shut = true → p'.shut = true ∧ p'.stream = p.stream
  aborted : p.writable = .aborted → p'.writable = .aborted

theorem Keeps.refl (p : Public) : p.Keeps p := ⟨fun h => ⟨h, rfl⟩, id⟩

/-- A step of a public connection. -/
structure Goes (S : Site) (s : State) (p p' : Public) (a : Option Action) : Prop where
  flows : p'.Flows
  stream : p.stream <+: p'.stream
  keeps : p.Keeps p'
  channel : p'.channel = p.channel
  reads : Reads S s p p' a

/-- A step inside the Worker: the stream stays as it is. -/
theorem Goes.inside {S : Site} {s : State} {p p' : Public} {a : Option Action} (hflows : p'.Flows)
    (hstream : p'.stream = p.stream) (hshut : p'.shut = p.shut)
    (haborted : p.writable = .aborted → p'.writable = .aborted) (hchannel : p'.channel = p.channel)
    (hreads : Reads S s p p' a) : Goes S s p p' a where
  flows := hflows
  stream := hstream ▸ List.prefix_refl _
  keeps := ⟨fun hc => ⟨hshut.trans hc, hstream⟩, haborted⟩
  channel := hchannel
  reads := hreads

/-- What the object has read it keeps. -/
theorem Goes.taken {S : Site} {s : State} {p p' : Public} {a : Option Action} (h : Goes S s p p' a) :
    p.taken <+: p'.taken := by
  have hreads := h.reads
  cases hreads with
  | unseen ht _ => rw [ht]
  | calls _ ht _ => rw [ht]
  | hello _ _ ht => rw [ht]; exact List.prefix_append _ _
  | chunk _ _ ht => rw [ht]; exact List.prefix_append _ _
  | eof _ hp _ => rw [hp]
  | other _ hp _ => rw [hp]

/-- The first bytes move on. -/
theorem moveOn {xs ys zs : Bytes} (h : zs <+: ys) : xs ++ zs ++ ys.drop zs.length = xs ++ ys := by
  obtain ⟨rest, rfl⟩ := h
  simp

theorem Flows.step {S : Site} {s : State} {p p' : Public} {μ : PublicMove} {a : Option Action} (h : p.Flows)
    (hs : p.step S s μ = some (p', a)) : Goes S s p p' a := by
  have done : ∀ {x : Public} {b : Option Action}, some (x, b) = some (p', a) → Goes S s p x b → Goes S s p p' a :=
    fun he hg => by
      obtain ⟨rfl, rfl⟩ := Prod.mk.inj (Option.some.inj he)
      exact hg
  cases μ with
  | arrive data =>
    simp only [Public.step] at hs
    split at hs
    · cases hs
    · rename_i hopen
      have hopen : p.shut ≠ true := hopen
      refine done hs ⟨⟨?_, h.chunks, fun hc => absurd (h.closed hc).2.2.2.2 hopen, h.uncalled⟩, List.prefix_append _ _,
        ⟨fun hc => absurd hc hopen, id⟩, rfl, .unseen rfl rfl⟩
      show p.taken ++ p.pipe ++ p.chunks.flatten ++ (p.unread ++ data) = p.stream ++ data
      rw [← List.append_assoc, h.whole]
  | shut =>
    refine done hs ⟨⟨h.whole, h.chunks, fun hc => ?_, h.uncalled⟩, List.prefix_refl _, ⟨fun _ => ⟨rfl, rfl⟩, id⟩, rfl,
      .unseen rfl rfl⟩
    obtain ⟨h1, h2, h3, h4, -⟩ := h.closed hc
    exact ⟨h1, h2, h3, h4, rfl⟩
  | route items =>
    simp only [Public.step] at hs
    split at hs
    · rename_i hostname alpn chunks hr _
      split at hs
      · rename_i hok
        refine done hs (.inside ⟨?_, fun hne => absurd rfl hne, fun hc => absurd hr (h.closed hc).1,
          fun hne => (nomatch hne)⟩ rfl rfl id rfl (.calls (h.uncalled hr) rfl rfl))
        have hwhole := h.whole
        rw [h.chunks (by rw [hr]; simp) (by rw [hr]; simp), List.flatten_nil, List.append_nil] at hwhole
        show p.taken ++ p.pipe ++ items.flatten ++ p.unread.drop items.flatten.length = p.stream
        rw [moveOn hok.2.1]
        exact hwhole
      · cases hs
    · cases hs
  | replay =>
    simp only [Public.step] at hs
    split at hs
    · rename_i chunk chunks hr hc
      refine done hs (.inside ⟨?_, fun hne => absurd hr hne, fun hw => absurd hr (h.closed hw).2.1, h.uncalled⟩
        rfl rfl id rfl (.unseen rfl rfl))
      have hwhole := h.whole
      rw [hc] at hwhole
      show p.taken ++ (p.pipe ++ chunk) ++ chunks.flatten ++ p.unread = p.stream
      simpa using hwhole
    · rename_i hr hc
      exact done hs (.inside ⟨h.whole, fun _ _ => hc, fun hw => absurd hr (h.closed hw).2.1,
        fun hne => (nomatch hne)⟩ rfl rfl id rfl (.unseen rfl rfl))
    · cases hs
  | pipe n =>
    simp only [Public.step] at hs
    split at hs
    · rename_i hr
      have hchunks := h.chunks (by rw [hr]; simp) (by rw [hr]; simp)
      refine done hs (.inside ⟨?_, h.chunks, fun hw => ?_, h.uncalled⟩ rfl rfl id rfl (.unseen rfl rfl))
      · have hwhole := h.whole
        rw [hchunks] at hwhole
        show p.taken ++ (p.pipe ++ p.unread.take n) ++ p.chunks.flatten ++ p.unread.drop n = p.stream
        rw [hchunks]
        simpa using hwhole
      · obtain ⟨h1, h2, h3, h4, h5⟩ := h.closed hw
        exact ⟨h1, h2, h3, by simp [h4], h5⟩
    · cases hs
  | close =>
    simp only [Public.step] at hs
    split at hs
    · rename_i hok
      obtain ⟨hr, hactive, hu, hshut⟩ := hok
      refine done hs (.inside ⟨h.whole, h.chunks, fun _ => ?_, h.uncalled⟩ rfl rfl
        (fun ha => nomatch hactive.symm.trans ha) rfl (.unseen rfl rfl))
      exact ⟨by rw [hr]; simp, by rw [hr]; simp, h.chunks (by rw [hr]; simp) (by rw [hr]; simp), hu, hshut⟩
    · cases hs
  | fail =>
    refine done hs (.inside ⟨h.whole, fun _ hne => absurd rfl hne, fun hw => ?_, fun hne => (nomatch hne)⟩
      rfl rfl (fun ha => by simp [ha]) rfl (.unseen rfl rfl))
    simp only at hw
    split at hw
    · cases hw
    · obtain ⟨-, -, h3, h4, h5⟩ := h.closed hw
      exact ⟨by simp, by simp, h3, h4, h5⟩
  | hello hello =>
    obtain ⟨k, hk, hs⟩ := Option.bind_eq_some_iff.mp hs
    split at hs
    · rename_i hok
      refine done hs (.inside ⟨?_, h.chunks, h.closed, h.uncalled⟩ rfl rfl id rfl (.hello hk hk rfl))
      show p.taken ++ hello.initial.flatten ++ p.pipe.drop hello.initial.flatten.length ++ p.chunks.flatten ++ p.unread =
        p.stream
      rw [moveOn hok.1]
      exact h.whole
    · cases hs
  | chunk n bufferedAmount =>
    obtain ⟨k, hk, he⟩ := Option.map_eq_some_iff.mp hs
    refine done (congrArg some he) (.inside ⟨?_, h.chunks, h.closed, h.uncalled⟩ rfl rfl id rfl (.chunk hk hk rfl))
    have hwhole := h.whole
    show p.taken ++ p.pipe.take n ++ p.pipe.drop n ++ p.chunks.flatten ++ p.unread = p.stream
    rw [List.append_assoc p.taken, List.take_append_drop]
    exact hwhole
  | eof =>
    obtain ⟨k, hk, hs⟩ := Option.bind_eq_some_iff.mp hs
    split at hs
    · rename_i hok
      refine done hs (.inside h rfl rfl id rfl (.eof hk rfl fun hends => ?_))
      rcases hok with ⟨hclosed, hpipe⟩ | haborted
      · obtain ⟨-, -, hchunks, hunread, hshut⟩ := h.closed hclosed
        have hwhole := h.whole
        rw [hpipe, hchunks, hunread] at hwhole
        exact ⟨by simpa using hwhole, hshut⟩
      · exact absurd haborted hends
    · cases hs
  | error message =>
    obtain ⟨k, hk, he⟩ := Option.map_eq_some_iff.mp hs
    exact done (congrArg some he) (.inside h rfl rfl id rfl (.other hk rfl (.inr ⟨message, rfl⟩)))
  | settle =>
    obtain ⟨k, hk, he⟩ := Option.map_eq_some_iff.mp hs
    exact done (congrArg some he) (.inside h rfl rfl id rfl (.other hk rfl (.inl rfl)))

end Public

end ShuvTunnel
