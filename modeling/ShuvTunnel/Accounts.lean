/-
# The reports of a session are exact

Where the server opens each connection at most once, every connection that is
reported opened is reported closed once, with the same route, by the end of the
session, none is reported closed that was not opened, those reported opened and
not closed are the channels the session has, and the count told last is how
many these are. The ledger keeps this whatever a client notes in it, as long as
it opens no connection twice (`Ledger.Exact.note`); that its entries are the
session's channels, and all gone at the end, is what the clients' maps give
(`Peer.Tracked`).

Key definitions: `about`, `Ledger.Exact`, `unclosed`, `Accounted`,
`Library.channels`.
Key theorems: `Ledger.Exact.note`, `accounted_of_exact`,
`connections_accounted`.
-/
import Mathlib.Data.Set.Card
import ShuvTunnel.Tracking
import ShuvTunnel.DownloadFidelity

namespace ShuvTunnel

/-! ### Events about a connection -/

namespace ConnectionEvent

/-- The connection an event is about. -/
def conn : ConnectionEvent → ℕ
  | opened conn .. | closed conn .. => conn

/-- The connection that an event opens. -/
def opens? : ConnectionEvent → Option ℕ
  | opened conn .. => some conn
  | closed .. => none

/-- The connection that an event closes. -/
def closes? : ConnectionEvent → Option ℕ
  | opened .. => none
  | closed conn .. => some conn

end ConnectionEvent

/-- The events about a connection, in their order. -/
def about (n : ℕ) (es : List ConnectionEvent) : List ConnectionEvent := es.filter fun e => e.conn = n

theorem about_append (n : ℕ) (es es' : List ConnectionEvent) : about n (es ++ es') = about n es ++ about n es' :=
  List.filter_append ..

theorem about_singleton (n : ℕ) (e : ConnectionEvent) : about n [e] = if e.conn = n then [e] else [] := by
  unfold about
  by_cases h : e.conn = n
  · simp [h]
  · simp [h]

/-- The connections reported opened, and not closed so far. -/
def unclosed (es : List ConnectionEvent) : List ℕ :=
  (es.filterMap (·.opens?)).filter fun n => n ∉ es.filterMap (·.closes?)

/-- What a listener can rely on, given the session's map of channels: what it
was told agrees with itself and with the map. -/
structure Accounted (isOver : Bool) (channels : ℕ → Option ℕ) (connections : ℕ) (es : List ConnectionEvent) : Prop where
  pairs : ∀ n, about n es = [] ∨ (∃ route peer, about n es = [.opened n route peer]) ∨
    ∃ route peer error, about n es = [.opened n route peer, .closed n route error]
  current : ∀ n, n ∈ unclosed es ↔ (channels n).isSome = true
  ended : isOver = true → unclosed es = []
  counted : isOver = false →
    connections = (unclosed es).length ∧ connections = {n | (channels n).isSome = true}.ncard

namespace Ledger

/-- What the events so far tell of each connection, given the connections that
were opened. -/
structure Exact (l : Ledger) (used : List ℕ) : Prop where
  held : ∀ n route, l.channels.lookup n = some route → ∃ peer, about n l.events = [.opened n route peer]
  gone : ∀ n, l.channels.lookup n = none → about n l.events = [] ∨
    ∃ route peer error, about n l.events = [.opened n route peer, .closed n route error]
  used : ∀ n, about n l.events ≠ [] → n ∈ used

variable {l : Ledger} {used : List ℕ}

theorem exact_start : start.Exact [] :=
  ⟨fun _ _ h => (nomatch h), fun _ _ => .inl rfl, fun _ h => absurd rfl h⟩

theorem Exact.mono {used' : List ℕ} (h : l.Exact used) (hu : used ⊆ used') : l.Exact used' :=
  ⟨h.held, h.gone, fun n hn => hu (h.used n hn)⟩

/-- Nothing was told of a connection that was not opened. -/
theorem Exact.about_eq_nil (h : l.Exact used) {n : ℕ} (hn : n ∉ used) : about n l.events = [] := by
  by_contra hne
  exact hn (h.used n hne)

theorem Exact.opens (h : l.Exact used) {n : ℕ} (hn : n ∉ used) (route peer : String) :
    (l.opens n route peer).Exact (used ++ [n]) := by
  have hevents : ∀ k, about k (l.opens n route peer).events =
      about k l.events ++ if n = k then [.opened n route peer] else [] := fun k => by
    show about k (l.events ++ [.opened n route peer]) = _
    rw [about_append, about_singleton]
    rfl
  have hlookup : ∀ k, (l.opens n route peer).channels.lookup k = if k = n then some route else l.channels.lookup k :=
    fun k => OrderedMap.lookup_set
  have hnone := h.about_eq_nil hn
  refine ⟨fun k route' hk => ?_, fun k hk => ?_, fun k hk => ?_⟩
  · rw [hlookup] at hk
    rw [hevents]
    by_cases he : k = n
    · rw [if_pos he] at hk
      obtain rfl := Option.some.inj hk
      rw [he, hnone, if_pos rfl]
      exact ⟨peer, rfl⟩
    · rw [if_neg he] at hk
      rw [if_neg (Ne.symm he), List.append_nil]
      exact h.held k route' hk
  · rw [hlookup] at hk
    rw [hevents]
    by_cases he : k = n
    · rw [if_pos he] at hk
      cases hk
    · rw [if_neg he] at hk
      rw [if_neg (Ne.symm he), List.append_nil]
      exact h.gone k hk
  · rw [hevents] at hk
    rw [List.mem_append, List.mem_singleton]
    by_cases he : k = n
    · exact .inr he
    · rw [if_neg (Ne.symm he), List.append_nil] at hk
      exact .inl (h.used k hk)

theorem Exact.closes (h : l.Exact used) {n : ℕ} {route : String} (hn : l.channels.lookup n = some route)
    (error : Option String) : (l.closes n route error).Exact used := by
  have hevents : ∀ k, about k (l.closes n route error).events =
      about k l.events ++ if n = k then [.closed n route error] else [] := fun k => by
    show about k (l.events ++ [.closed n route error]) = _
    rw [about_append, about_singleton]
    rfl
  have hlookup : ∀ k, (l.closes n route error).channels.lookup k = if k = n then none else l.channels.lookup k :=
    fun k => OrderedMap.lookup_delete
  obtain ⟨peer, hopened⟩ := h.held n route hn
  refine ⟨fun k route' hk => ?_, fun k hk => ?_, fun k hk => ?_⟩
  · rw [hlookup] at hk
    rw [hevents]
    by_cases he : k = n
    · rw [if_pos he] at hk
      cases hk
    · rw [if_neg he] at hk
      rw [if_neg (Ne.symm he), List.append_nil]
      exact h.held k route' hk
  · rw [hlookup] at hk
    rw [hevents]
    by_cases he : k = n
    · rw [he, hopened, if_pos rfl]
      exact .inr ⟨route, peer, error, rfl⟩
    · rw [if_neg he] at hk
      rw [if_neg (Ne.symm he), List.append_nil]
      exact h.gone k hk
  · rw [hevents] at hk
    by_cases he : k = n
    · refine h.used k ?_
      rw [he, hopened]
      exact List.cons_ne_nil _ _
    · rw [if_neg (Ne.symm he), List.append_nil] at hk
      exact h.used k hk

/-- Each entry is told closed once. -/
theorem about_drained (l : Ledger) (error : Option String) (n : ℕ) :
    about n (l.channels.map fun e => .closed e.1 e.2 error) =
      ((l.channels.lookup n).map fun route => .closed n route error).toList := by
  unfold about
  rw [List.filter_map]
  have hkey : ((fun e => decide (ConnectionEvent.conn e = n)) ∘ fun e : ℕ × String => .closed e.1 e.2 error) =
      fun e => decide (e.1 = n) := rfl
  rw [hkey, OrderedMap.filter_key l.nodup]
  cases l.channels.lookup n with
  | none => rfl
  | some route => rfl

theorem Exact.drains (h : l.Exact used) (error : String) : (l.drains error).Exact used := by
  have hevents : ∀ k, about k (l.drains error).events =
      about k l.events ++ ((l.channels.lookup k).map fun route => .closed k route (some error)).toList := fun k => by
    show about k (l.events ++ l.channels.map fun e => .closed e.1 e.2 (some error)) = _
    rw [about_append, about_drained]
  refine ⟨fun k route hk => (nomatch hk), fun k _ => ?_, fun k hk => h.used k fun hnil => ?_⟩
  · rw [hevents]
    cases hl : l.channels.lookup k with
    | none =>
      rw [Option.map_none, Option.toList_none, List.append_nil]
      exact h.gone k hl
    | some route =>
      obtain ⟨peer, hopened⟩ := h.held k route hl
      rw [hopened]
      exact .inr ⟨route, peer, some error, rfl⟩
  · rw [hevents, hnil] at hk
    cases hl : l.channels.lookup k with
    | none =>
      rw [hl] at hk
      exact hk rfl
    | some route =>
      obtain ⟨peer, hopened⟩ := h.held k route hl
      rw [hopened] at hnil
      cases hnil

theorem Exact.note (h : l.Exact used) {ρ : Report} (hρ : ∀ n, ρ.opens? = some n → n ∉ used) :
    (l.note ρ).Exact (used ++ ρ.opens?.toList) := by
  cases ρ with
  | opens n route peer => exact h.opens (hρ n rfl) route peer
  | closes n error =>
    rw [show (Report.closes n error).opens?.toList = [] from rfl, List.append_nil]
    cases hl : l.channels.lookup n with
    | none =>
      rw [note_closes_of_none hl]
      exact h
    | some route =>
      rw [note_closes_of_some hl]
      exact h.closes hl error
  | drains error =>
    rw [show (Report.drains error).opens?.toList = [] from rfl, List.append_nil]
    exact h.drains error

theorem Exact.noteAll {ρs : List Report} (h : l.Exact used) (hnew : (used ++ ρs.filterMap (·.opens?)).Nodup) :
    (l.noteAll ρs).Exact (used ++ ρs.filterMap (·.opens?)) := by
  induction ρs generalizing l used with
  | nil => exact h.mono (List.subset_append_left _ _)
  | cons ρ ρs ih =>
    have hsplit : (ρ :: ρs).filterMap (·.opens?) = ρ.opens?.toList ++ ρs.filterMap (·.opens?) := by
      cases hρ : ρ.opens? with
      | none => simp [hρ]
      | some n => simp [hρ]
    rw [hsplit, ← List.append_assoc] at hnew ⊢
    refine ih (h.note fun n hn hused => ?_) hnew
    have hdisjoint := List.disjoint_of_nodup_append (List.nodup_append.mp hnew).1
    exact hdisjoint hused (by rw [hn]; exact List.mem_singleton.mpr rfl)

end Ledger

/-! ### What the listener can rely on -/

/-- What is told of a connection is among the events about it. -/
theorem filterMap_about {f : ConnectionEvent → Option ℕ} (hf : ∀ e k, f e = some k → e.conn = k) (n : ℕ)
    (es : List ConnectionEvent) : (es.filterMap f).filter (fun k => k = n) = (about n es).filterMap f := by
  unfold about
  rw [List.filter_filterMap, List.filterMap_filter]
  refine List.filterMap_congr fun e _ => ?_
  cases he : f e with
  | none => simp
  | some k =>
    rw [hf e k he]
    by_cases hk : k = n
    · simp [hk]
    · simp [hk]

theorem mem_filterMap_about {f : ConnectionEvent → Option ℕ} (hf : ∀ e k, f e = some k → e.conn = k) {n : ℕ}
    {es : List ConnectionEvent} : n ∈ es.filterMap f ↔ n ∈ (about n es).filterMap f := by
  rw [← filterMap_about hf, List.mem_filter]
  simp

theorem conn_of_opens {e : ConnectionEvent} {k : ℕ} (h : e.opens? = some k) : e.conn = k := by
  cases e with
  | opened conn route peer => exact Option.some.inj h
  | closed conn route error => cases h

theorem conn_of_closes {e : ConnectionEvent} {k : ℕ} (h : e.closes? = some k) : e.conn = k := by
  cases e with
  | opened conn route peer => cases h
  | closed conn route error => exact Option.some.inj h

theorem mem_unclosed {n : ℕ} {es : List ConnectionEvent} :
    n ∈ unclosed es ↔ n ∈ (about n es).filterMap (·.opens?) ∧ n ∉ (about n es).filterMap (·.closes?) := by
  unfold unclosed
  rw [List.mem_filter, decide_eq_true_eq, mem_filterMap_about fun _ _ => conn_of_opens,
    mem_filterMap_about fun _ _ => conn_of_closes]

/-- What is not closed is what the ledger holds. -/
theorem mem_unclosed_iff {l : Ledger} {used : List ℕ} (h : l.Exact used) {n : ℕ} :
    n ∈ unclosed l.events ↔ n ∈ OrderedMap.keys l.channels := by
  rw [mem_unclosed, ← OrderedMap.lookup_isSome]
  cases hl : l.channels.lookup n with
  | some route =>
    obtain ⟨peer, hopened⟩ := h.held n route hl
    rw [hopened]
    simp [ConnectionEvent.opens?, ConnectionEvent.closes?]
  | none =>
    rcases h.gone n hl with hnil | ⟨route, peer, error, hboth⟩
    · rw [hnil]
      simp
    · rw [hboth]
      simp [ConnectionEvent.opens?, ConnectionEvent.closes?]

theorem nodup_unclosed {l : Ledger} {used : List ℕ} (h : l.Exact used) : (unclosed l.events).Nodup := by
  refine List.Nodup.filter _ (List.nodup_iff_count_le_one.mpr fun n => ?_)
  -- at most one event opens it
  have hone : ((about n l.events).filterMap (·.opens?)).length ≤ 1 := by
    cases hl : l.channels.lookup n with
    | some route =>
      obtain ⟨peer, hopened⟩ := h.held n route hl
      rw [hopened]
      exact Nat.le_refl 1
    | none =>
      rcases h.gone n hl with hnil | ⟨route, peer, error, hboth⟩
      · rw [hnil]
        exact Nat.zero_le 1
      · rw [hboth]
        exact Nat.le_refl 1
  rw [← filterMap_about fun _ _ => conn_of_opens] at hone
  rw [List.count_eq_length_filter]
  simpa [beq_eq_decide] using hone

/-- What is not closed is what the session has. -/
theorem mem_unclosed_iff_channels {l : Ledger} {used : List ℕ} {channels : ℕ → Option ℕ} (h : l.Exact used)
    (ht : l.Tracks channels) (n : ℕ) : n ∈ unclosed l.events ↔ (channels n).isSome = true := by
  rw [mem_unclosed_iff h, ← OrderedMap.lookup_isSome, ht n]

/-- So there are as many as the map has channels. -/
theorem ncard_channels {l : Ledger} {used : List ℕ} {channels : ℕ → Option ℕ} (h : l.Exact used)
    (ht : l.Tracks channels) : {n | (channels n).isSome = true}.ncard = (unclosed l.events).length := by
  have hset : {n | (channels n).isSome = true} = ((unclosed l.events).toFinset : Set ℕ) := by
    ext n
    rw [Set.mem_ofPred_eq, ← mem_unclosed_iff_channels h ht n, Finset.mem_coe, List.mem_toFinset]
  rw [hset, Set.ncard_coe_finset, List.toFinset_card_of_nodup (nodup_unclosed h)]

theorem accounted_of_exact {l : Ledger} {used : List ℕ} {isOver : Bool} {channels : ℕ → Option ℕ} (h : l.Exact used)
    (hl : l.Current isOver channels) : Accounted isOver channels l.connections l.events := by
  have hperm : (unclosed l.events).Perm (OrderedMap.keys l.channels) :=
    (List.perm_ext_iff_of_nodup (nodup_unclosed h) l.nodup).mpr fun n => mem_unclosed_iff h
  have hlength : (unclosed l.events).length = l.channels.length := by
    rw [hperm.length_eq]
    exact List.length_map _
  refine ⟨fun n => ?_, mem_unclosed_iff_channels h hl.tracks, fun ho => ?_, fun ho => ?_⟩
  · cases hl : l.channels.lookup n with
    | none => exact (h.gone n hl).imp_right .inr
    | some route =>
      obtain ⟨peer, hopened⟩ := h.held n route hl
      exact .inr (.inl ⟨route, peer, hopened⟩)
  · rw [hl.tracks.channels_eq_nil (hl.ended ho)] at hlength
    exact List.length_eq_zero_iff.mp hlength
  · rw [ncard_channels h hl.tracks, hl.counted ho, hlength]
    exact ⟨rfl, rfl⟩

/-! ### Runs -/

/-- One step: what it opens is what the message it takes opens. -/
theorem Peer.Tracked.step {C : Peer} {R : C.Reports} (T : C.Tracked R) {es : List (Reporting.Event C)}
    {r r' : Reporting C} {a : Happening C} (hok : T.Ok r.session) (he : r.ledger.Exact (opened (messages es)))
    (hl : r.ledger.Current (R.isOver r.session) (T.channels r.session)) (hs : (reporting R).step r a = some r')
    (hu : (opened (messages (es ++ [⟨r, a, r'⟩]))).Nodup) :
    T.Ok r'.session ∧ r'.ledger.Exact (opened (messages (es ++ [⟨r, a, r'⟩]))) ∧
      r'.ledger.Current (R.isOver r'.session) (T.channels r'.session) := by
  rw [messages_concat, opened_append] at hu ⊢
  cases a with
  | message m stalled =>
    obtain ⟨p, hp, rfl⟩ := Option.map_eq_some_iff.mp hs
    obtain ⟨hok', hl'⟩ := T.take hok hl hp
    have hopened : opened [m] = m.opens?.toList := by
      cases hm : m.opens? with
      | none => simp [opened, hm]
      | some n => simp [opened, hm]
    have hsub := (T.opens_take r.session m).append_left (opened (messages es))
    have hu : (opened (messages es) ++ m.opens?.toList).Nodup := hopened ▸ hu
    refine ⟨hok', ?_, hl'⟩
    have hexact := he.noteAll (hu.sublist hsub)
    show Ledger.Exact _ (opened (messages es) ++ opened [m])
    rw [hopened]
    exact hexact.mono hsub.subset
  | move μ error =>
    obtain ⟨p, hp, rfl⟩ := Option.map_eq_some_iff.mp hs
    obtain ⟨hok', hl'⟩ := T.move hok hl hp
    refine ⟨hok', ?_, hl'⟩
    have hnone := T.opens_move r.session μ error
    have hnew : (opened (messages es) ++ (R.move r.session μ error).filterMap (·.opens?)).Nodup := by
      rw [hnone]
      exact hu
    have hexact := he.noteAll hnew
    rw [hnone] at hexact
    exact hexact

theorem Peer.Tracked.exact_of_run {C : Peer} {R : C.Reports} (T : C.Tracked R) {es : List (Reporting.Event C)}
    {r : Reporting C} (h : Lts.Run (reporting R) (.start C) es r) (hu : (opened (messages es)).Nodup) :
    r.ledger.Exact (opened (messages es)) ∧ r.ledger.Current (R.isOver r.session) (T.channels r.session) := by
  have hrun := h.history (A := fun _ _ => True) (I := fun es r => (opened (messages es)).Nodup →
    T.Ok r.session ∧ r.ledger.Exact (opened (messages es)) ∧
      r.ledger.Current (R.isOver r.session) (T.channels r.session)) ?_ (fun _ _ => trivial) ?_
  · exact (hrun hu).2
  · intro es r a r' ih _ hs hu
    have hu' : (opened (messages es)).Nodup := by
      rw [messages_concat, opened_append] at hu
      exact (List.nodup_append.mp hu).1
    obtain ⟨hok, he, hl⟩ := ih hu'
    exact T.step hok he hl hs hu
  · intro _
    obtain ⟨hok, hover, hnone⟩ := T.start
    exact ⟨hok, Ledger.exact_start, Ledger.current_start hnone⟩

/-- What a client reports. -/
def Library.reports (U : Unicode) (o : Options) : (L : Library) → (L.peer U o).Reports
  | .rust => Rust.reports o
  | .typescript => TypeScript.reports U o

/-- The map of channels of a client's session. -/
def Library.channels (U : Unicode) (o : Options) : (L : Library) → (L.peer U o).Session → ℕ → Option ℕ
  | .rust => Rust.Session.channels
  | .typescript => TypeScript.Session.channels

/-- Both clients report what their maps say. -/
def Library.tracked (U : Unicode) (o : Options) : (L : Library) → (L.peer U o).Tracked (L.reports U o)
  | .rust => Rust.tracked o
  | .typescript => TypeScript.tracked U o

theorem Library.tracked_channels (U : Unicode) (o : Options) (L : Library) :
    (L.tracked U o).channels = L.channels U o := by
  cases L with
  | rust => rfl
  | typescript => rfl

/-- In every run in which the server opens each connection at most once, the
reports of either client are exact at every point, and say which channels its
session has. -/
theorem connections_accounted {U : Unicode} {o : Options} {L : Library} {es : List (Reporting.Event (L.peer U o))}
    {r : Reporting (L.peer U o)} (h : Lts.Run (reporting (L.reports U o)) (.start _) es r)
    (hu : (opened (messages es)).Nodup) :
    Accounted ((L.reports U o).isOver r.session) (L.channels U o r.session) r.ledger.connections r.ledger.events := by
  obtain ⟨hexact, hcurrent⟩ := (L.tracked U o).exact_of_run h hu
  rw [L.tracked_channels U o] at hcurrent
  exact accounted_of_exact hexact hcurrent

/-- Three connections: one is reset, one refused, and one open so far. -/
def threeRun : List (Happening (TypeScript.peer plainUnicode plainOptions)) :=
  [.move .open none, .message (.attached "session" ["@"] 15000 45000) false,
    .message (.openConn 1 "peer" (some "t.d") "") false, .message (.openConn 2 "peer" (some "t.d") "") false,
    .message (.resetConn 1 "peer_closed") false, .message (.openConn 3 "peer" (some "t.d") "") false,
    .move (.error 1 true) (some "refused"), .move (.close 0) none]

/-- What is told of it. -/
def threeEvents : List ConnectionEvent :=
  [.opened 1 "@" "peer", .opened 2 "@" "peer", .closed 1 "@" (some "peer_closed"), .opened 3 "@" "peer",
    .closed 2 "@" (some "refused")]

theorem threeRun_waits : ((reporting (TypeScript.reports plainUnicode plainOptions)).exec (.start _) threeRun).any
    (fun r => !TypeScript.Session.isOver r.session && decide (r.ledger.events = threeEvents)) = true := by
  decide

/-- One of the three is told open, and it is the one channel the session has. -/
theorem connections_accounted_three : ∃ (es : List (Reporting.Event (Library.peer plainUnicode plainOptions .typescript)))
    (r : Reporting (Library.peer plainUnicode plainOptions .typescript)),
      Lts.Run (reporting (Library.reports plainUnicode plainOptions .typescript)) (.start _) es r ∧
        messages es = threeRun.filterMap (·.message?) ∧ r.ledger.events = threeEvents ∧ r.ledger.connections = 1 ∧
          ∀ n, (TypeScript.Session.channels r.session n).isSome = true ↔ n = 3 := by
  obtain ⟨r, hr, hends⟩ := (Option.any_eq_true _ _).mp threeRun_waits
  simp only [Bool.and_eq_true, Bool.not_eq_true', decide_eq_true_eq] at hends
  obtain ⟨hover, hevents⟩ := hends
  obtain ⟨es, hes, hlabels⟩ := Lts.Run.exists_of_exec hr
  have hmessages : messages es = threeRun.filterMap (·.message?) := messages_eq hlabels
  have hu : (opened (messages es)).Nodup := by
    rw [hmessages]
    decide
  have hopen : unclosed threeEvents = [3] := by decide
  have hfinal := connections_accounted (L := .typescript) hes hu
  rw [hevents] at hfinal
  refine ⟨es, r, hes, hmessages, hevents, ?_, fun n => ?_⟩
  · rw [(hfinal.counted hover).1, hopen]
    rfl
  · have hcurrent : n ∈ unclosed threeEvents ↔ (TypeScript.Session.channels r.session n).isSome = true :=
      hfinal.current n
    rw [← hcurrent, hopen, List.mem_singleton]

end ShuvTunnel
