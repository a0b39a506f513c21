/-
# What a client reports follows its map of channels

After each step of a session the entries in the ledger are those in its map,
and until the session is over the count told last is how many there are. For
the TypeScript client this needs that the map holds no channel that is done,
so that `end`, which destroys the channels in the map, empties it.

Key definitions: `Ledger.Current`, `TypeScript.Session.Live`, `Peer.Tracked`.
Key theorems: `Rust.tracked`, `TypeScript.tracked`.
-/
import ShuvTunnel.Reports

namespace ShuvTunnel

/-- The connection a report opens. -/
def Report.opens? : Report → Option ℕ
  | opens conn .. => some conn
  | _ => none

/-- The ledger of a session between two steps. -/
structure Ledger.Current (l : Ledger) (isOver : Bool) (channels : ℕ → Option ℕ) : Prop where
  tracks : l.Tracks channels
  counted : isOver = false → l.connections = l.channels.length
  ended : isOver = true → ∀ n, channels n = none

/-- A client whose ledger stays current. It reports only what the message
opens, and no more than that. -/
structure Peer.Tracked (C : Peer) (R : C.Reports) where
  channels : C.Session → ℕ → Option ℕ
  Ok : C.Session → Prop
  start : Ok C.start ∧ R.isOver C.start = false ∧ ∀ n, channels C.start n = none
  take : ∀ {s m stalled s' ms} {l : Ledger}, Ok s → l.Current (R.isOver s) (channels s) →
    C.take s m stalled = some (s', ms) →
      Ok s' ∧ (l.noteAll (R.take s m)).Current (R.isOver s') (channels s')
  move : ∀ {s μ error s' ms} {l : Ledger}, Ok s → l.Current (R.isOver s) (channels s) →
    C.move s μ = some (s', ms) →
      Ok s' ∧ (l.noteAll (R.move s μ error)).Current (R.isOver s') (channels s')
  opens_take : ∀ s m, ((R.take s m).filterMap (·.opens?)).Sublist m.opens?.toList
  opens_move : ∀ s μ error, (R.move s μ error).filterMap (·.opens?) = []

namespace Ledger

variable {l : Ledger} {isOver : Bool} {channels : ℕ → Option ℕ} {n : ℕ} {error : Option String}

theorem current_start (h : ∀ n, channels n = none) : start.Current isOver channels :=
  ⟨fun n => by rw [h n]; rfl, fun _ => rfl, fun _ => h⟩

theorem Current.opens (h : l.Current false channels) (n : ℕ) (route peer : String) (i : ℕ) :
    (l.note (.opens n route peer)).Current false (Function.update channels n (some i)) :=
  ⟨h.tracks.opens route peer i, fun _ => rfl, fun h => (nomatch h)⟩

theorem counted_closes (h : l.connections = l.channels.length) (n : ℕ) (error : Option String) :
    (l.note (.closes n error)).connections = (l.note (.closes n error)).channels.length := by
  cases hl : l.channels.lookup n with
  | none =>
    rw [note_closes_of_none hl]
    exact h
  | some route =>
    rw [note_closes_of_some hl]
    rfl

theorem Current.closes (h : l.Current isOver channels) (n : ℕ) (error : Option String) :
    (l.note (.closes n error)).Current isOver (Function.update channels n none) := by
  refine ⟨h.tracks.closes n error, fun ho => counted_closes (h.counted ho) n error, fun ho k => ?_⟩
  by_cases hk : k = n
  · rw [hk, Function.update_self]
  · rw [Function.update_of_ne hk]
    exact h.ended ho k

theorem Current.drains (l : Ledger) (error : String) : (l.note (.drains error)).Current true fun _ => none :=
  ⟨.drains l error, fun h => (nomatch h), fun _ _ => rfl⟩

end Ledger

/-! ### The Rust client -/

namespace Rust

namespace Session

variable {s s' : Session} {l : Ledger} {ms : List ClientMessage}

/-- An item for a task leaves the rest alone. -/
theorem sendInbound_same {i : ℕ} {item : Inbound} (h : s.sendInbound i item = some s') :
    s'.phase = s.phase ∧ s'.isOver = s.isOver ∧ s'.channels = s.channels := by
  obtain ⟨t, -, h⟩ := Option.bind_eq_some_iff.mp h
  split at h
  · obtain rfl := Option.some.inj h
    exact ⟨rfl, rfl, rfl⟩
  · split at h
    · obtain rfl := Option.some.inj h
      exact ⟨rfl, rfl, rfl⟩
    · cases h

theorem onMessage_phase {o : Options} {m : ServerMessage} {stalled : Bool}
    (h : s.onMessage o stalled m = some (s', ms)) : s'.phase = s.phase := by
  have same : ∀ {x : Session} {ns : List ClientMessage}, some (x, ns) = some (s', ms) → x.phase = s.phase →
      s'.phase = s.phase := fun h hx => by
    obtain ⟨rfl, -⟩ := Prod.mk.inj (Option.some.inj h)
    exact hx
  cases m with
  | dataFrame conn payload =>
    simp only [onMessage, onBinary] at h
    split at h
    · exact same h rfl
    · split at h
      · exact same h rfl
      · split at h
        · rename_i hq
          exact same h (sendInbound_same hq).1
        · split at h
          · exact same h rfl
          · cases h
  | openConn conn peer sni alpn =>
    cases sni with
    | none => exact same h rfl
    | some sni =>
      simp only [onMessage] at h
      split at h
      · exact same h rfl
      · exact same h rfl
  | endConn conn =>
    simp only [onMessage] at h
    split at h
    · exact same h rfl
    · obtain ⟨s₁, hq, he⟩ := Option.map_eq_some_iff.mp h
      obtain ⟨rfl, -⟩ := Prod.mk.inj he
      exact (sendInbound_same hq).1
  | resetConn conn code =>
    simp only [onMessage] at h
    split at h
    · exact same h rfl
    · exact same h rfl
  | attached _ _ _ _ | attachError _ | pong _ => exact same h rfl

theorem onMessage_current {o : Options} {m : ServerMessage} {stalled : Bool} (hl : l.Current s.isOver s.channels)
    (ho : s.isOver = false) (hp : s.phase = .attached) (h : s.onMessage o stalled m = some (s', ms)) :
    (l.noteAll (s.takeReports o m)).Current s'.isOver s'.channels := by
  unfold takeReports
  rw [if_neg (not_not.mpr hp)]
  cases m with
  | dataFrame conn payload =>
    simp only [onMessage, onBinary] at h ⊢
    cases hd : decode_data_frame (buildDataFrame conn payload) with
    | none =>
      rw [hd] at h
      obtain ⟨rfl, -⟩ := Prod.mk.inj (Option.some.inj h)
      exact hl
    | some p =>
      rw [hd] at h
      dsimp only at h ⊢
      cases hc : s.channels p.1 with
      | none =>
        rw [hc] at h
        obtain ⟨rfl, -⟩ := Prod.mk.inj (Option.some.inj h)
        exact hl
      | some i =>
        rw [hc] at h
        dsimp only at h ⊢
        cases hq : s.sendInbound i (.Data p.2) with
        | some s₁ =>
          rw [hq] at h
          obtain ⟨rfl, -⟩ := Prod.mk.inj (Option.some.inj h)
          obtain ⟨-, hover, hch⟩ := sendInbound_same hq
          rw [hover, hch]
          exact hl
        | none =>
          rw [hq] at h
          dsimp only at h
          split at h
          · obtain ⟨rfl, -⟩ := Prod.mk.inj (Option.some.inj h)
            exact hl.closes p.1 _
          · cases h
  | openConn conn peer sni alpn =>
    cases sni with
    | none =>
      obtain ⟨rfl, -⟩ := Prod.mk.inj (Option.some.inj h)
      exact hl
    | some sni =>
      simp only [onMessage] at h ⊢
      cases hr : (Rust.routeForSni sni o.hostname).filter fun route => o.routes.contains route with
      | none =>
        rw [hr] at h
        obtain ⟨rfl, -⟩ := Prod.mk.inj (Option.some.inj h)
        exact hl
      | some route =>
        rw [hr] at h
        obtain ⟨rfl, -⟩ := Prod.mk.inj (Option.some.inj h)
        show Ledger.Current _ s.isOver _
        rw [ho] at hl ⊢
        exact hl.opens conn route peer s.tasks.length
  | endConn conn =>
    simp only [onMessage] at h
    split at h
    · obtain ⟨rfl, -⟩ := Prod.mk.inj (Option.some.inj h)
      exact hl
    · obtain ⟨s₁, hq, he⟩ := Option.map_eq_some_iff.mp h
      obtain ⟨rfl, -⟩ := Prod.mk.inj he
      obtain ⟨-, hover, hch⟩ := sendInbound_same hq
      rw [hover, hch]
      exact hl
  | resetConn conn code =>
    have hcloses := hl.closes conn (some code)
    simp only [onMessage] at h
    split at h
    · rename_i hc
      obtain ⟨rfl, -⟩ := Prod.mk.inj (Option.some.inj h)
      rw [← hc, Function.update_eq_self] at hcloses
      exact hcloses
    · obtain ⟨rfl, -⟩ := Prod.mk.inj (Option.some.inj h)
      exact hcloses
  | attached _ _ _ _ | attachError _ | pong _ =>
    obtain ⟨rfl, -⟩ := Prod.mk.inj (Option.some.inj h)
    exact hl

/-- Nothing was opened before the session is attached. -/
def Idle (s : Session) : Prop := s.phase ≠ .attached → ∀ n, s.channels n = none

theorem take_current {o : Options} {m : ServerMessage} {stalled : Bool} (hi : s.Idle)
    (hl : l.Current s.isOver s.channels) (h : s.take o m stalled = some (s', ms)) :
    s'.Idle ∧ (l.noteAll (s.takeReports o m)).Current s'.isOver s'.channels := by
  unfold take at h
  split at h
  · cases h
  · rename_i ho
    have ho : s.isOver = false := by simpa using ho
    -- before it is attached a session has nothing to report
    have quiet : s.phase ≠ .attached → l.noteAll (s.takeReports o m) = l := fun hp => by
      unfold takeReports
      rw [if_pos hp]
      rfl
    split at h
    · cases h
    · rename_i hp
      obtain ⟨rfl, -⟩ := Prod.mk.inj (Option.some.inj h)
      rw [quiet (by rw [hp]; decide)]
      exact ⟨fun hne => absurd rfl hne, hl⟩
    · rename_i hp
      obtain ⟨rfl, -⟩ := Prod.mk.inj (Option.some.inj h)
      have hp : s.phase ≠ .attached := by rw [hp]; decide
      rw [quiet hp]
      exact ⟨hi, hl.tracks, fun h => (nomatch h), fun _ => hi hp⟩
    · rename_i hp _ _
      obtain ⟨rfl, -⟩ := Prod.mk.inj (Option.some.inj h)
      rw [quiet (by rw [hp]; decide)]
      exact ⟨hi, hl⟩
    · rename_i hp
      have hphase : s'.phase = .attached := (onMessage_phase h).trans hp
      exact ⟨fun hne => absurd hphase hne, onMessage_current hl ho hp h⟩

theorem move_current {o : Options} {μ : Move} {error : Option String} (hi : s.Idle)
    (hl : l.Current s.isOver s.channels) (h : s.move o μ = some (s', ms)) :
    s'.Idle ∧ (l.noteAll (s.moveReports error μ)).Current s'.isOver s'.channels := by
  cases μ with
  | attach =>
    simp only [move] at h
    split at h
    · rename_i hc
      obtain ⟨rfl, -⟩ := Prod.mk.inj (Option.some.inj h)
      have hp : s.phase = .connecting := by simpa using (Bool.and_eq_true_iff.mp hc).2
      exact ⟨fun _ => hi (by rw [hp]; decide), hl⟩
    · cases h
  | ping time_sent =>
    simp only [move] at h
    split at h
    · obtain ⟨rfl, -⟩ := Prod.mk.inj (Option.some.inj h)
      exact ⟨hi, hl⟩
    · cases h
  | channel i μ =>
    obtain ⟨t, -, h⟩ := Option.bind_eq_some_iff.mp h
    obtain ⟨p, -, h⟩ := Option.bind_eq_some_iff.mp h
    split at h
    · cases h
    · obtain ⟨rfl, -⟩ := Prod.mk.inj (Option.some.inj h)
      exact ⟨hi, hl⟩
  | join i =>
    obtain ⟨t, ht, h⟩ := Option.bind_eq_some_iff.mp h
    split at h
    · obtain ⟨rfl, -⟩ := Prod.mk.inj (Option.some.inj h)
      refine ⟨fun hp n => ?_, ?_⟩
      · show Function.update s.channels t.conn none n = none
        by_cases hn : n = t.conn
        · rw [hn, Function.update_self]
        · rw [Function.update_of_ne hn]
          exact hi hp n
      · simp only [moveReports, ht]
        exact hl.closes t.conn error
    · cases h
  | disconnect =>
    simp only [move] at h
    split at h
    · cases h
    · obtain ⟨rfl, -⟩ := Prod.mk.inj (Option.some.inj h)
      exact ⟨fun _ _ => rfl, .drains l _⟩

end Session

/-- The Rust client reports what its map says. -/
def tracked (o : Options) : (peer o).Tracked (reports o) where
  channels := Session.channels
  Ok := Session.Idle
  start := ⟨fun _ _ => rfl, rfl, fun _ => rfl⟩
  take := Session.take_current
  move := Session.move_current
  opens_take s m := by
    show (List.filterMap _ (s.takeReports o m)).Sublist _
    unfold Session.takeReports
    split
    · exact List.nil_sublist _
    · cases m with
      | dataFrame conn payload =>
        dsimp only
        split
        · exact List.nil_sublist _
        · split
          · exact List.nil_sublist _
          · split
            · exact List.nil_sublist _
            · exact List.nil_sublist _
      | openConn conn peer sni alpn =>
        cases sni with
        | none => exact List.nil_sublist _
        | some sni =>
          dsimp only
          split
          · exact List.nil_sublist _
          · exact List.Sublist.refl _
      | _ => exact List.nil_sublist _
  opens_move s μ error := by
    show List.filterMap _ (s.moveReports error μ) = []
    cases μ with
    | join i =>
      simp only [Session.moveReports]
      split
      · rfl
      · rfl
    | _ => rfl

end Rust

/-! ### The TypeScript client -/

namespace TypeScript

namespace Session

variable {s s' : Session} {l : Ledger} {i j n : ℕ} {c c' : Channel} {ms : List ClientMessage} {code : String}
  {notify : Bool} {error : Option String}

/-- What the map holds is not done. -/
def Live (s : Session) : Prop :=
  ∀ n i, s.channels n = some i → ∃ c : Channel, s.made[i]? = some c ∧ c.conn = n ∧ c.done = false

/-- A channel goes on as the one it was. -/
theorem Live.set (h : s.Live) (hc : s.made[i]? = some c) (hconn : c'.conn = c.conn) (hd : c'.done = c.done) :
    Live { s with made := s.made.set i c' } := by
  intro n j hj
  obtain ⟨d, hdm, hdn, hdd⟩ := h n j hj
  have hb : Becomes s.made (s.made.set i c') i c c' := becomes_set hc c'
  by_cases hji : j = i
  · subst hji
    obtain rfl := Option.some.inj (hc.symm.trans hdm)
    refine ⟨c', ?_, hconn.trans hdn, hd.trans hdd⟩
    show (s.made.set j c')[j]? = some c'
    rw [hb.after, if_pos rfl]
  · refine ⟨d, ?_, hdn, hdd⟩
    show (s.made.set i c')[j]? = some d
    rw [hb.after, if_neg hji]
    exact hdm

theorem destroy_cases (s : Session) (i : ℕ) (code : String) (notify : Bool) (error : Option String) :
    ((s.destroy i code notify).1 = s ∧ s.destroyReports i error = [] ∧
        ∀ c : Channel, s.made[i]? = some c → c.done = true) ∨
      ∃ c : Channel, s.made[i]? = some c ∧ c.done = false ∧ (s.destroy i code notify).1 = s.finish i c ∧
        s.destroyReports i error = if s.channels c.conn = some i then [.closes c.conn error] else [] := by
  unfold destroy destroyReports
  cases hc : s.made[i]? with
  | none => exact .inl ⟨rfl, rfl, fun _ h => (nomatch h)⟩
  | some c =>
    dsimp only
    by_cases hd : c.done = true
    · left
      refine ⟨?_, ?_, fun d he => ?_⟩
      · rw [if_pos hd]
      · rw [hd]
        rfl
      · rw [← Option.some.inj he]
        exact hd
    · right
      have hd : c.done = false := by simpa using hd
      refine ⟨c, rfl, hd, ?_, ?_⟩
      · rw [hd]
        rfl
      · rw [hd]
        simp

/-- What taking an entry out keeps, destroying a channel keeps. -/
theorem destroy_notes {I : Ledger → (ℕ → Option ℕ) → Prop}
    (hI : ∀ {l : Ledger} {channels : ℕ → Option ℕ} (n : ℕ) (error : Option String), I l channels →
      I (l.note (.closes n error)) (Function.update channels n none)) (h : I l s.channels) :
    I (l.noteAll (s.destroyReports i error)) (s.destroy i code notify).1.channels := by
  rcases destroy_cases s i code notify error with ⟨hs, hρ, -⟩ | ⟨c, -, -, hs, hρ⟩
  · rw [hs, hρ]
    exact h
  · rw [hs, hρ]
    show I _ (if s.channels c.conn = some i then Function.update s.channels c.conn none else s.channels)
    split
    · exact hI c.conn error h
    · exact h

theorem destroy_same (s : Session) (i : ℕ) (code : String) (notify : Bool) :
    (s.destroy i code notify).1.isOver = s.isOver ∧ (s.destroy i code notify).1.readyState = s.readyState := by
  rcases destroy_cases s i code notify none with ⟨hs, -, -⟩ | ⟨c, -, -, hs, -⟩
  · rw [hs]
    exact ⟨rfl, rfl⟩
  · rw [hs]
    exact ⟨rfl, rfl⟩

/-- A channel that is destroyed is not in the map any more. -/
theorem Live.of_destroy (h : s.Live) (hn : (s.destroy j code notify).1.channels n = some i) :
    s.channels n = some i ∧ i ≠ j ∧ ∃ c : Channel, (s.destroy j code notify).1.made[i]? = some c ∧
      c.conn = n ∧ c.done = false := by
  rcases destroy_cases s j code notify none with ⟨hs, -, hdone⟩ | ⟨c, hc, hd, hs, -⟩
  · rw [hs] at hn ⊢
    obtain ⟨d, hdm, hdn, hdd⟩ := h n i hn
    refine ⟨hn, ?_, d, hdm, hdn, hdd⟩
    rintro rfl
    rw [hdone d hdm] at hdd
    cases hdd
  · rw [hs] at hn ⊢
    have hheld : s.channels n = some i ∧ i ≠ j := by
      have hn' : (if s.channels c.conn = some j then Function.update s.channels c.conn none else s.channels) n = some i := hn
      split at hn'
      · by_cases hk : n = c.conn
        · rw [hk, Function.update_self] at hn'
          cases hn'
        · rw [Function.update_of_ne hk] at hn'
          refine ⟨hn', ?_⟩
          rintro rfl
          obtain ⟨d, hdm, hdn, -⟩ := h n i hn'
          exact hk (hdn.symm.trans (congrArg Channel.conn (Option.some.inj (hdm.symm.trans hc))))
      · rename_i hj
        refine ⟨hn', ?_⟩
        rintro rfl
        obtain ⟨d, hdm, hdn, -⟩ := h n i hn'
        obtain rfl := Option.some.inj (hdm.symm.trans hc)
        exact hj (hdn ▸ hn')
    obtain ⟨d, hdm, hdn, hdd⟩ := h n i hheld.1
    have hb : Becomes s.made (s.finish j c).made j c c.destroyed := becomes_set hc _
    refine ⟨hheld.1, hheld.2, d, ?_, hdn, hdd⟩
    rw [hb.after, if_neg hheld.2]
    exact hdm

theorem Live.destroy (h : s.Live) (i : ℕ) (code : String) (notify : Bool) : (s.destroy i code notify).1.Live :=
  fun _ _ hn => (h.of_destroy hn).2.2

/-! ### All channels -/

theorem destroyAll_same (code : String) (is : List ℕ) (s : Session) : (destroyAll code is s).1.isOver = s.isOver := by
  induction is generalizing s with
  | nil => rfl
  | cons i is ih => exact (ih _).trans (destroy_same s i code true).1

theorem Live.destroyAll (h : s.Live) (code : String) (is : List ℕ) : (destroyAll code is s).1.Live := by
  induction is generalizing s with
  | nil => exact h
  | cons i is ih => exact ih (h.destroy i code true)

theorem Live.of_destroyAll (h : s.Live) {is : List ℕ} (hn : (Session.destroyAll code is s).1.channels n = some i) :
    s.channels n = some i ∧ i ∉ is := by
  induction is generalizing s with
  | nil => exact ⟨hn, List.not_mem_nil⟩
  | cons j is ih =>
    obtain ⟨hn, hi⟩ := ih (h.destroy j code true) hn
    obtain ⟨hn, hj, -⟩ := h.of_destroy hn
    exact ⟨hn, fun hm => (List.mem_cons.mp hm).elim hj hi⟩

theorem destroyAll_tracks (h : l.Tracks s.channels) (is : List ℕ) :
    (l.noteAll (destroyAllReports code is s)).Tracks (Session.destroyAll code is s).1.channels := by
  induction is generalizing s l with
  | nil => exact h
  | cons i is ih =>
    unfold destroyAllReports
    rw [Ledger.noteAll_append]
    exact ih (destroy_notes (fun n error h => h.closes n error) h)

/-- The entries of the map are among its values. -/
theorem Live.mem_values (h : s.Live) (hn : s.channels n = some i) : i ∈ s.values := by
  obtain ⟨c, hc, hcn, -⟩ := h n i hn
  have hlt := (List.getElem?_eq_some_iff.mp hc).1
  refine List.mem_filter.mpr ⟨List.mem_range.mpr hlt, ?_⟩
  rw [hc]
  simp [hcn, hn]

/-- The end empties the map. -/
theorem finishSession_current (hlive : s.Live) (h : l.Current s.isOver s.channels) :
    (l.noteAll s.finishReports).Current s.finishSession.1.isOver s.finishSession.1.channels := by
  unfold finishReports finishSession
  by_cases ho : s.isOver = true
  · rw [if_pos ho, if_pos ho]
    exact h
  · rw [if_neg ho, if_neg ho]
    have hlive : Live { s with isOver := true } := hlive
    have htracks : l.Tracks ({ s with isOver := true } : Session).channels := h.tracks
    have hover := destroyAll_same "bridge disconnected" s.values { s with isOver := true }
    refine ⟨destroyAll_tracks htracks s.values, fun hf => ?_, fun _ n => ?_⟩
    · have hf : true = false := hover.symm.trans hf
      cases hf
    · rw [Option.eq_none_iff_forall_not_mem]
      intro i hi
      obtain ⟨hn, hv⟩ := hlive.of_destroyAll hi
      exact hv (hlive.mem_values hn)

/-! ### Steps -/

/-- What holds between two steps: after its end a session takes no messages. -/
structure Sane (s : Session) : Prop where
  live : s.Live
  closed : s.isOver = true → s.readyState ≠ .OPEN

theorem Sane.destroy (h : s.Sane) (i : ℕ) (code : String) (notify : Bool) : (s.destroy i code notify).1.Sane := by
  obtain ⟨hover, hready⟩ := destroy_same s i code notify
  refine ⟨h.live.destroy i code notify, ?_⟩
  rw [hover, hready]
  exact h.closed

theorem destroy_current (h : l.Current s.isOver s.channels) :
    (l.noteAll (s.destroyReports i error)).Current (s.destroy i code notify).1.isOver
      (s.destroy i code notify).1.channels := by
  rw [(destroy_same s i code notify).1]
  exact destroy_notes (I := fun l channels => l.Current s.isOver channels) (fun n error h => h.closes n error) h

theorem Sane.finishSession (h : s.Sane) : s.finishSession.1.Sane := by
  unfold Session.finishSession
  split
  · exact h
  · have hlive : Live { s with isOver := true } := h.live
    exact ⟨hlive.destroyAll _ _, fun _ hr => (nomatch hr)⟩

/-- A channel goes on, and nothing is reported. -/
theorem Sane.set (h : s.Sane) (hc : s.made[i]? = some c) (hconn : c'.conn = c.conn) (hd : c'.done = c.done) :
    Sane { s with made := s.made.set i c' } :=
  ⟨h.live.set hc hconn hd, h.closed⟩

theorem push_current {payload : Bytes} (h : s.Sane) (hl : l.Current s.isOver s.channels) :
    (s.push i payload).1.Sane ∧
      (l.noteAll (s.pushReports i)).Current (s.push i payload).1.isOver (s.push i payload).1.channels := by
  unfold push pushReports
  cases hc : s.made[i]? with
  | none => exact ⟨h, hl⟩
  | some c =>
    dsimp only
    split
    · rename_i hd
      -- a channel that is done reports nothing
      have hnone : s.destroyReports i (some "local connection stalled") = [] := by
        unfold destroyReports
        rw [hc]
        dsimp only
        rw [hd]
        rfl
      rw [hnone, ite_self]
      exact ⟨h, hl⟩
    · split
      · exact ⟨h.destroy i _ true, destroy_current hl⟩
      · split
        · exact ⟨h, hl⟩
        · exact ⟨h.set hc rfl rfl, hl⟩

theorem open_current (h : s.Sane) (hl : l.Current s.isOver s.channels) (ho : s.isOver = false) (conn : ℕ)
    (route peer : String) :
    Sane { s with channels := Function.update s.channels conn (some s.made.length), made := s.made ++ [.new conn] } ∧
      (l.note (.opens conn route peer)).Current s.isOver (Function.update s.channels conn (some s.made.length)) := by
  refine ⟨⟨fun n i hn => ?_, h.closed⟩, ?_⟩
  · by_cases hk : n = conn
    · have hi : some s.made.length = some i := by
        rw [← hn, hk]
        exact (Function.update_self conn _ s.channels).symm
      refine ⟨.new conn, ?_, hk.symm, rfl⟩
      rw [← Option.some.inj hi]
      simp
    · have hn : s.channels n = some i := by
        rw [← hn]
        exact (Function.update_of_ne hk _ s.channels).symm
      obtain ⟨c, hc, hcn, hd⟩ := h.live n i hn
      refine ⟨c, ?_, hcn, hd⟩
      have hlt := (List.getElem?_eq_some_iff.mp hc).1
      show (s.made ++ [.new conn])[i]? = some c
      rw [List.getElem?_append_left hlt]
      exact hc
  · rw [ho] at hl ⊢
    exact hl.opens conn route peer s.made.length

theorem current_of_some {p : Session × List ClientMessage} {ρs : List Report} (hs : some p = some (s', ms))
    (hp : p.1.Sane ∧ (l.noteAll ρs).Current p.1.isOver p.1.channels) :
    s'.Sane ∧ (l.noteAll ρs).Current s'.isOver s'.channels := by
  rw [Option.some.inj hs] at hp
  exact hp

theorem take_current {U : Unicode} {o : Options} {m : ServerMessage} (stalled : Bool) (h : s.Sane)
    (hl : l.Current s.isOver s.channels) (hs : s.take U o m stalled = some (s', ms)) :
    s'.Sane ∧ (l.noteAll (s.takeReports U o m)).Current s'.isOver s'.channels := by
  unfold take at hs
  split at hs
  · rename_i hready
    have ho : s.isOver = false := by
      cases ho : s.isOver with
      | false => rfl
      | true => exact absurd hready (h.closed ho)
    cases m with
    | dataFrame conn payload =>
      refine current_of_some hs ?_
      simp only [onData, takeReports]
      cases hd : parseDataFrame (buildDataFrame conn payload) with
      | none => exact ⟨h, hl⟩
      | some p =>
        dsimp only
        cases hc : s.channels p.1 with
        | none => exact ⟨h, hl⟩
        | some i => exact push_current h hl
    | attached session routes heartbeat_ms idle_timeout_ms => exact current_of_some hs ⟨⟨h.live, h.closed⟩, hl⟩
    | attachError _ =>
      refine current_of_some hs ?_
      simp only [onControl, takeReports]
      split
      · exact ⟨h, hl⟩
      · exact ⟨h.finishSession, finishSession_current h.live hl⟩
    | openConn conn peer sni alpn =>
      refine current_of_some hs ?_
      cases sni with
      | none => exact ⟨h, hl⟩
      | some sni =>
        simp only [onControl, takeReports]
        split
        · exact ⟨h, hl⟩
        · cases hr : Names.routeForSni U sni o.hostname with
          | none => exact ⟨h, hl⟩
          | some route =>
            dsimp only
            by_cases hroute : o.routes.contains route = true
            · rw [if_pos hroute, Option.filter_some, if_pos hroute]
              exact open_current h hl ho conn route peer
            · rw [if_neg hroute, Option.filter_some, if_neg hroute]
              split
              · exact ⟨h, hl⟩
              · exact ⟨h, hl⟩
    | endConn conn =>
      refine current_of_some hs ?_
      simp only [onControl, takeReports]
      split
      · exact ⟨h, hl⟩
      · split
        · exact ⟨h, hl⟩
        · unfold endInbound
          split
          · exact ⟨h, hl⟩
          · rename_i c hc
            split
            · exact ⟨h, hl⟩
            · exact ⟨h.set hc rfl rfl, hl⟩
    | resetConn conn code =>
      refine current_of_some hs ?_
      simp only [onControl, takeReports]
      split
      · exact ⟨h, hl⟩
      · cases hc : s.channels conn with
        | none => exact ⟨h, hl⟩
        | some i => exact ⟨h.destroy i code false, destroy_current hl⟩
    | pong _ => exact current_of_some hs ⟨h, hl⟩
  · cases hs

theorem goOn_current {f : Channel → Option (Channel × List ClientMessage)} (h : s.Sane)
    (hl : l.Current s.isOver s.channels)
    (hf : ∀ {c c' : Channel} {ns : List ClientMessage}, f c = some (c', ns) → c'.conn = c.conn ∧ c'.done = c.done)
    (hs : s.goOn i f = some (s', ms)) : s'.Sane ∧ l.Current s'.isOver s'.channels := by
  obtain ⟨c, hc, hs⟩ := Option.bind_eq_some_iff.mp hs
  split at hs
  · cases hs
  · obtain ⟨⟨c', ns⟩, hfc, he⟩ := Option.map_eq_some_iff.mp hs
    obtain ⟨rfl, rfl⟩ := Prod.mk.inj he
    obtain ⟨hconn, hd⟩ := hf hfc
    exact ⟨h.set hc hconn hd, hl⟩

theorem move_current {o : Options} {μ : Move} (h : s.Sane) (hl : l.Current s.isOver s.channels)
    (hs : s.move o μ = some (s', ms)) :
    s'.Sane ∧ (l.noteAll (s.moveReports error μ)).Current s'.isOver s'.channels := by
  cases μ with
  | «open» =>
    simp only [move] at hs
    split at hs
    · rename_i hc
      refine current_of_some hs ⟨⟨h.live, fun ho => ?_⟩, hl⟩
      rw [hc.2] at ho
      cases ho
    · cases hs
  | ping time_sent =>
    simp only [move] at hs
    split at hs
    · exact current_of_some hs ⟨h, hl⟩
    · cases hs
  | read i n =>
    refine goOn_current h hl (fun hfc => ?_) hs
    obtain ⟨rfl, -⟩ := Prod.mk.inj (Option.some.inj hfc)
    exact ⟨rfl, rfl⟩
  | write i data =>
    refine goOn_current h hl (fun hfc => ?_) hs
    split at hfc
    · cases hfc
    · split at hfc
      · obtain ⟨rfl, -⟩ := Prod.mk.inj (Option.some.inj hfc)
        exact ⟨rfl, rfl⟩
      · obtain ⟨rfl, -⟩ := Prod.mk.inj (Option.some.inj hfc)
        exact ⟨rfl, rfl⟩
  | final i =>
    refine goOn_current h hl (fun hfc => ?_) hs
    split at hfc
    · cases hfc
    · split at hfc
      · obtain ⟨rfl, -⟩ := Prod.mk.inj (Option.some.inj hfc)
        exact ⟨rfl, rfl⟩
      · obtain ⟨rfl, -⟩ := Prod.mk.inj (Option.some.inj hfc)
        exact ⟨rfl, rfl⟩
  | error i connecting => exact current_of_some hs ⟨h.destroy i _ true, destroy_current hl⟩
  | close i => exact current_of_some hs ⟨h.destroy i "" false, destroy_current hl⟩
  | closing => exact current_of_some hs ⟨⟨h.live, fun _ hr => by cases hr⟩, hl⟩
  | finish => exact current_of_some hs ⟨h.finishSession, finishSession_current h.live hl⟩

/-! ### Only the opened -/

theorem destroyReports_opens (s : Session) (i : ℕ) (error : Option String) :
    (s.destroyReports i error).filterMap (·.opens?) = [] := by
  unfold destroyReports
  split
  · rfl
  · split
    · rfl
    · rfl

theorem finishReports_opens (s : Session) : s.finishReports.filterMap (·.opens?) = [] := by
  have all : ∀ (is : List ℕ) (s : Session),
      (destroyAllReports "bridge disconnected" is s).filterMap (·.opens?) = [] := by
    intro is
    induction is with
    | nil => exact fun _ => rfl
    | cons i is ih =>
      intro s
      unfold destroyAllReports
      rw [List.filterMap_append, destroyReports_opens, ih]
      rfl
  unfold finishReports
  split
  · rfl
  · exact all _ _

theorem takeReports_opens (U : Unicode) (o : Options) (s : Session) (m : ServerMessage) :
    ((s.takeReports U o m).filterMap (·.opens?)).Sublist m.opens?.toList := by
  have none : ∀ {ρs : List Report}, ρs.filterMap (·.opens?) = [] →
      (ρs.filterMap (·.opens?)).Sublist m.opens?.toList := fun h => by
    rw [h]
    exact List.nil_sublist _
  cases m with
  | dataFrame conn payload =>
    refine none ?_
    simp only [takeReports]
    split
    · rfl
    · split
      · rfl
      · unfold pushReports
        split
        · rfl
        · split
          · exact destroyReports_opens s _ _
          · rfl
  | attachError _ =>
    refine none ?_
    simp only [takeReports]
    split
    · rfl
    · exact finishReports_opens s
  | openConn conn peer sni alpn =>
    cases sni with
    | none => exact List.nil_sublist _
    | some sni =>
      simp only [takeReports]
      split
      · exact List.nil_sublist _
      · split
        · exact List.nil_sublist _
        · exact List.Sublist.refl _
  | resetConn conn code =>
    refine none ?_
    simp only [takeReports]
    split
    · rfl
    · split
      · rfl
      · exact destroyReports_opens s _ _
  | _ => exact List.nil_sublist _

theorem moveReports_opens (s : Session) (error : Option String) (μ : Move) :
    (s.moveReports error μ).filterMap (·.opens?) = [] := by
  cases μ with
  | error i _ => exact destroyReports_opens s i error
  | close i => exact destroyReports_opens s i none
  | finish => exact finishReports_opens s
  | _ => rfl

end Session

/-- The TypeScript client reports what its map says. -/
def tracked (U : Unicode) (o : Options) : (peer U o).Tracked (reports U o) where
  channels := Session.channels
  Ok := Session.Sane
  start := ⟨⟨fun _ _ h => (nomatch h), fun h => (nomatch h)⟩, rfl, fun _ => rfl⟩
  take := fun {_ _ stalled _ _ _} h hl hs => Session.take_current stalled h hl hs
  move := Session.move_current
  opens_take := Session.takeReports_opens U o
  opens_move s μ error := Session.moveReports_opens s error μ

end TypeScript

end ShuvTunnel
