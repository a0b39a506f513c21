/-
# A task that completes, and the channel of its id

`tasks.join_next()` gives the id of the connection a task was spawned for, and
the loop takes that entry out of `channels` and reports it closed. Where the
server reset the connection and opened the id again, and the task had returned
before it was aborted, its completion takes out the channel of the later task,
which goes on unknown to the session. The TypeScript client compares the
channels (`Session.closed`).

Key definitions: `OwnCompletion`, `Overtaken`, `reopensAfterReset`.
Key theorems: `completions_own_iff`, `not_completions_own`.
-/
import ShuvTunnel.Tracking
import ShuvTunnel.Network

namespace ShuvTunnel

/-- Of the server's messages: an id in use is opened again only behind a reset. -/
def reopensAfterReset : List ℕ → List ServerMessage → Bool
  | _, [] => true
  | used, .openConn conn _ _ _ :: ms => !used.contains conn && reopensAfterReset (conn :: used) ms
  | used, .resetConn conn _ :: ms => reopensAfterReset (used.filter fun n => n ≠ conn) ms
  | used, _ :: ms => reopensAfterReset used ms

namespace Rust

variable {o : Options}

/-- A task's completion takes out of the map, and reports closed, at most the
channel the task was spawned for. -/
def OwnCompletion (e : Reporting.Event (peer o)) : Prop :=
  ∀ i error, e.label = .move (.join i) error →
    (∀ n j, e.before.session.channels n = some j → e.after.session.channels n = some j ∨ j = i) ∧
      (e.after.ledger.events = e.before.ledger.events ∨ ∃ n route, e.before.session.channels n = some i ∧
        e.after.ledger.events = e.before.ledger.events ++ [.closed n route error])

/-- The completion of a task is taken while a later channel of its id is open. -/
def Overtaken (r : Reporting (peer o)) (a : Happening (peer o)) : Prop :=
  ∃ i error t j, a = .move (.join i) error ∧ r.session.tasks[i]? = some t ∧
    r.session.channels t.conn = some j ∧ i < j

/-! ### An entry is the last of its id -/

/-- A task keeps its id. -/
theorem RunChannel.step_conn {t t' : RunChannel} {μ : ChannelMove} {ms : List ClientMessage}
    (h : t.step μ = some (t', ms)) : t'.conn = t.conn := by
  cases RunChannel.steps_of_step h <;> rfl

/-- An entry of the map leads to the last task that was spawned for its id. -/
def Session.Latest (s : Session) : Prop :=
  ∀ n i, s.channels n = some i → (s.tasks.map RunChannel.conn)[i]? = some n ∧
    ∀ j, (s.tasks.map RunChannel.conn)[j]? = some n → j ≤ i

namespace Session

variable {s s' : Session} {ms : List ClientMessage} {i : ℕ} {t t' : RunChannel}

/-- The tasks keep their ids, and the map loses entries at most. -/
theorem Latest.keep (h : s.Latest) (htasks : s'.tasks.map RunChannel.conn = s.tasks.map RunChannel.conn)
    (hch : ∀ n j, s'.channels n = some j → s.channels n = some j) : s'.Latest := by
  intro n i hn
  rw [htasks]
  exact h n i (hch n i hn)

theorem conns_set (ht : s.tasks[i]? = some t) (hconn : t'.conn = t.conn) :
    (s.tasks.set i t').map RunChannel.conn = s.tasks.map RunChannel.conn := by
  have hget : (s.tasks.map RunChannel.conn)[i]? = some t.conn := by rw [List.getElem?_map, ht, Option.map_some]
  obtain ⟨hlt, hget⟩ := List.getElem?_eq_some_iff.mp hget
  rw [List.map_set, hconn, ← hget, List.set_getElem_self]

theorem conns_abort (s : Session) (conn i : ℕ) :
    (s.abort conn i).tasks.map RunChannel.conn = s.tasks.map RunChannel.conn := by
  refine List.ext_getElem? fun j => ?_
  rw [List.getElem?_map, List.getElem?_map]
  show Option.map _ ((s.tasks.modify i fun t => { t with aborted := true })[j]?) = _
  rw [List.getElem?_modify]
  cases s.tasks[j]? with
  | none => rfl
  | some t =>
    by_cases hij : i = j
    · simp [hij]
    · simp [hij]

theorem Latest.abort (h : s.Latest) (conn i : ℕ) : (s.abort conn i).Latest :=
  h.keep (conns_abort s conn i) fun _ _ => update_none

theorem Latest.sendInbound {item : Inbound} (h : s.Latest) (hs : s.sendInbound i item = some s') : s'.Latest := by
  obtain ⟨t, ht, ⟨-, rfl⟩ | rfl⟩ := sendInbound_cases hs
  · exact h
  · exact h.keep (conns_set ht rfl) fun _ _ hn => hn

/-- A task is spawned behind the others. -/
theorem Latest.spawn (h : s.Latest) (conn : ℕ) :
    Latest { s with
      channels := Function.update s.channels conn (some s.tasks.length), tasks := s.tasks ++ [.spawn conn] } := by
  have hlen : (s.tasks.map RunChannel.conn).length = s.tasks.length := List.length_map _
  intro n i hn
  have hn : Function.update s.channels conn (some s.tasks.length) n = some i := hn
  show ((s.tasks ++ [RunChannel.spawn conn]).map RunChannel.conn)[i]? = some n ∧
    ∀ j, ((s.tasks ++ [RunChannel.spawn conn]).map RunChannel.conn)[j]? = some n → j ≤ i
  rw [List.map_append]
  by_cases hk : n = conn
  · rw [hk, Function.update_self] at hn
    obtain rfl := Option.some.inj hn
    rw [hk]
    refine ⟨?_, fun j hj => ?_⟩
    · rw [List.getElem?_append_right (by omega), hlen, Nat.sub_self]
      rfl
    · obtain ⟨hlt, -⟩ := List.getElem?_eq_some_iff.mp hj
      rw [List.length_append, hlen] at hlt
      exact Nat.le_of_lt_succ hlt
  · rw [Function.update_of_ne hk] at hn
    obtain ⟨hi, hlast⟩ := h n i hn
    have hlt := (List.getElem?_eq_some_iff.mp hi).1
    refine ⟨by rw [List.getElem?_append_left hlt]; exact hi, fun j hj => ?_⟩
    rcases Nat.lt_or_ge j (s.tasks.map RunChannel.conn).length with hjlt | hge
    · rw [List.getElem?_append_left hjlt] at hj
      exact hlast j hj
    · rw [List.getElem?_append_right hge] at hj
      obtain ⟨hone, hconn⟩ := List.getElem?_eq_some_iff.mp hj
      rw [List.getElem_map, List.getElem_singleton] at hconn
      exact absurd hconn.symm hk

theorem onMessage_latest {m : ServerMessage} {stalled : Bool} (h : s.Latest)
    (hs : s.onMessage o stalled m = some (s', ms)) : s'.Latest := by
  have done : ∀ {x : Session} {ns : List ClientMessage}, some (x, ns) = some (s', ms) → x.Latest → s'.Latest :=
    fun hs hx => by
      obtain ⟨rfl, -⟩ := Prod.mk.inj (Option.some.inj hs)
      exact hx
  cases m with
  | dataFrame conn payload =>
    simp only [onMessage, onBinary] at hs
    split at hs
    · exact done hs h
    · split at hs
      · exact done hs h
      · split at hs
        · rename_i hq
          exact done hs (h.sendInbound hq)
        · split at hs
          · exact done hs (h.abort _ _)
          · cases hs
  | openConn conn peer sni alpn =>
    cases sni with
    | none => exact done hs h
    | some sni =>
      simp only [onMessage] at hs
      split at hs
      · exact done hs h
      · exact done hs (h.spawn conn)
  | endConn conn =>
    simp only [onMessage] at hs
    split at hs
    · exact done hs h
    · obtain ⟨s₁, hq, he⟩ := Option.map_eq_some_iff.mp hs
      obtain ⟨rfl, -⟩ := Prod.mk.inj he
      exact h.sendInbound hq
  | resetConn conn code =>
    simp only [onMessage] at hs
    split at hs
    · exact done hs h
    · exact done hs (h.abort _ _)
  | attached _ _ _ _ | attachError _ | pong _ => exact done hs h

theorem take_latest {m : ServerMessage} {stalled : Bool} (h : s.Latest)
    (hs : s.take o m stalled = some (s', ms)) : s'.Latest := by
  unfold take at hs
  split at hs
  · cases hs
  · split at hs
    · cases hs
    · obtain ⟨rfl, -⟩ := Prod.mk.inj (Option.some.inj hs)
      exact h
    · obtain ⟨rfl, -⟩ := Prod.mk.inj (Option.some.inj hs)
      exact h
    · obtain ⟨rfl, -⟩ := Prod.mk.inj (Option.some.inj hs)
      exact h
    · exact onMessage_latest h hs

theorem move_latest {μ : Move} (h : s.Latest) (hs : s.move o μ = some (s', ms)) : s'.Latest := by
  cases μ with
  | attach =>
    simp only [move] at hs
    split at hs
    · obtain ⟨rfl, -⟩ := Prod.mk.inj (Option.some.inj hs)
      exact h
    · cases hs
  | ping time_sent =>
    simp only [move] at hs
    split at hs
    · obtain ⟨rfl, -⟩ := Prod.mk.inj (Option.some.inj hs)
      exact h
    · cases hs
  | channel i μ =>
    obtain ⟨t, ht, hs⟩ := Option.bind_eq_some_iff.mp hs
    obtain ⟨p, hp, hs⟩ := Option.bind_eq_some_iff.mp hs
    split at hs
    · cases hs
    · obtain ⟨rfl, -⟩ := Prod.mk.inj (Option.some.inj hs)
      exact h.keep (conns_set ht (RunChannel.step_conn hp)) fun _ _ hn => hn
  | join i =>
    obtain ⟨t, ht, hs⟩ := Option.bind_eq_some_iff.mp hs
    split at hs
    · obtain ⟨rfl, -⟩ := Prod.mk.inj (Option.some.inj hs)
      exact h.keep (conns_set ht rfl) fun _ _ => update_none
    · cases hs
  | disconnect =>
    simp only [move] at hs
    split at hs
    · cases hs
    · obtain ⟨rfl, -⟩ := Prod.mk.inj (Option.some.inj hs)
      exact fun _ _ hn => by cases hn

end Session

/-! ### Completions -/

/-- What the session and its ledger keep. -/
structure Reporting.Ok (r : Reporting (peer o)) : Prop where
  idle : Session.Idle r.session
  current : r.ledger.Current (Session.isOver r.session) (Session.channels r.session)
  latest : Session.Latest r.session

theorem reporting_ok {r r' : Reporting (peer o)} {a : Happening (peer o)} (h : Reporting.Ok r)
    (hs : (reporting (reports o)).step r a = some r') : Reporting.Ok r' := by
  cases a with
  | message m stalled =>
    obtain ⟨p, hp, rfl⟩ := Option.map_eq_some_iff.mp hs
    obtain ⟨hidle, hcurrent⟩ := Session.take_current h.idle h.current hp
    exact ⟨hidle, hcurrent, Session.take_latest h.latest hp⟩
  | move μ error =>
    obtain ⟨p, hp, rfl⟩ := Option.map_eq_some_iff.mp hs
    obtain ⟨hidle, hcurrent⟩ := Session.move_current h.idle h.current hp
    exact ⟨hidle, hcurrent, Session.move_latest h.latest hp⟩

/-- What the loop does when it takes the completion of task `i`. -/
theorem join_step {r r' : Reporting (peer o)} {i : ℕ} {error : Option String}
    (hs : (reporting (reports o)).step r (.move (.join i) error) = some r') :
    ∃ t : RunChannel, (Session.tasks r.session)[i]? = some t ∧
      Session.channels r'.session = Function.update (Session.channels r.session) t.conn none ∧
      r'.ledger = r.ledger.note (.closes t.conn error) := by
  obtain ⟨p, hp, rfl⟩ := Option.map_eq_some_iff.mp hs
  obtain ⟨t, ht, hp⟩ := Option.bind_eq_some_iff.mp hp
  split at hp
  · obtain rfl := Option.some.inj hp
    refine ⟨t, ht, rfl, ?_⟩
    show r.ledger.noteAll (Session.moveReports r.session error (.join i)) = _
    simp only [Session.moveReports, ht]
    rfl
  · cases hp

/-- A completion goes wrong exactly when it comes behind a later channel. -/
theorem ownCompletion_iff {e : Reporting.Event (peer o)} (h : Reporting.Ok e.before)
    (hs : (reporting (reports o)).step e.before e.label = some e.after) :
    OwnCompletion e ↔ ¬ Overtaken e.before e.label := by
  constructor
  · rintro hown ⟨i, error, t, j, hlabel, ht, hj, hlt⟩
    rw [hlabel] at hs
    obtain ⟨u, hu, hchannels, -⟩ := join_step hs
    obtain rfl := Option.some.inj (ht.symm.trans hu)
    rcases (hown i error hlabel).1 t.conn j hj with hleft | hj
    · rw [hchannels, Function.update_self] at hleft
      cases hleft
    · omega
  · intro hno i error hlabel
    rw [hlabel] at hs
    obtain ⟨t, ht, hchannels, hledger⟩ := join_step hs
    -- what the map holds under the id is the task's own channel
    have own : ∀ j, Session.channels e.before.session t.conn = some j → j = i := fun j hj => by
      have hconn : ((Session.tasks e.before.session).map RunChannel.conn)[i]? = some t.conn := by
        rw [List.getElem?_map, ht, Option.map_some]
      have hle := (h.latest t.conn j hj).2 i hconn
      by_contra hne
      exact hno ⟨i, error, t, j, hlabel, ht, hj, by omega⟩
    refine ⟨fun n j hn => ?_, ?_⟩
    · rw [hchannels]
      by_cases hk : n = t.conn
      · exact .inr (own j (hk ▸ hn))
      · rw [Function.update_of_ne hk]
        exact .inl hn
    · rw [hledger]
      cases hl : e.before.ledger.channels.lookup t.conn with
      | none =>
        rw [Ledger.note_closes_of_none hl]
        exact .inl rfl
      | some route =>
        rw [Ledger.note_closes_of_some hl]
        have hheld := h.current.tracks t.conn
        rw [hl] at hheld
        obtain ⟨j, hj⟩ := Option.isSome_iff_exists.mp hheld.symm
        rw [own j hj] at hj
        exact .inr ⟨t.conn, route, hj, rfl⟩

/-- In every run, every completion closes its own channel at most exactly when
none is taken while a later channel of its id is open. -/
theorem completions_own_iff {es : List (Reporting.Event (peer o))}
    {r : Reporting (peer o)} (h : Lts.Run (reporting (reports o)) (.start (peer o)) es r) :
    (∀ e ∈ es, OwnCompletion e) ↔ ∀ e ∈ es, ¬ Overtaken e.before e.label := by
  refine h.safe_iff (J := Reporting.Ok) (A := fun _ _ => True) (fun e he _ hs _ => reporting_ok he hs)
    (fun e he _ hs => ownCompletion_iff he hs) (fun _ _ => trivial) ?_
  exact ⟨fun _ _ => rfl, Ledger.current_start fun _ => rfl, fun _ _ hn => (nomatch hn)⟩

/-- The connection 1 is opened, its task fails, and its completion is taken. -/
def joinedRun : List (Happening (peer plainOptions)) :=
  [.move .attach none, .message (.attached "session" ["@"] 15000 45000) false,
    .message (.openConn 1 "peer" (some "t.d") "") false, .move (.channel 0 (.fail .Connect)) none,
    .move (.channel 0 .report) none, .move (.join 0) (some "refused")]

/-- No later channel of the id is open. -/
def notOvertaken (e : Reporting.Event (peer o)) : Bool :=
  match e.label with
  | .move (.join i) _ => (Session.tasks e.before.session)[i]?.all fun t =>
      (Session.channels e.before.session t.conn).all fun j => decide (j ≤ i)
  | _ => true

theorem not_overtaken {e : Reporting.Event (peer o)} (h : notOvertaken e = true) :
    ¬ Overtaken e.before e.label := by
  rintro ⟨i, error, t, j, hlabel, ht, hj, hlt⟩
  unfold notOvertaken at h
  rw [hlabel] at h
  simp only [ht, hj, Option.all_some, decide_eq_true_eq] at h
  omega

theorem joinedRun_ends : ((reporting (reports plainOptions)).exec (.start _) joinedRun).isSome = true ∧
    ((reporting (reports plainOptions)).trace (.start _) joinedRun).all notOvertaken = true := by
  decide

theorem completions_own_joined : ∃ (es : List (Reporting.Event (peer plainOptions))) (r : Reporting (peer plainOptions)),
    Lts.Run (reporting (reports plainOptions)) (.start _) es r ∧ es.map (·.label) = joinedRun ∧
      ∀ e ∈ es, OwnCompletion e := by
  obtain ⟨hends, hall⟩ := joinedRun_ends
  obtain ⟨r, hr⟩ := Option.isSome_iff_exists.mp hends
  refine ⟨_, r, .of_exec hr, Lts.map_label_trace hr, (completions_own_iff (.of_exec hr)).mpr fun e he => ?_⟩
  exact not_overtaken (List.all_eq_true.mp hall e he)

/-- The connection 1 is opened and its task fails; the server resets it and
opens it again. -/
def reopenedRun : List (Happening (peer plainOptions)) :=
  [.move .attach none, .message (.attached "session" ["@"] 15000 45000) false,
    .message (.openConn 1 "peer" (some "t.d") "") false, .move (.channel 0 (.fail .Connect)) none,
    .move (.channel 0 .report) none, .message (.resetConn 1 "peer_closed") false,
    .message (.openConn 1 "peer" (some "t.d") "") false]

/-- Then the completion of the first task takes out the second one's channel. -/
theorem reopenedRun_ends : ((reporting (reports plainOptions)).exec (.start _) reopenedRun).any (fun r =>
    decide (Session.channels r.session 1 = some 1) &&
      ((reporting (reports plainOptions)).step r (.move (.join 0) (some "refused"))).any fun r' =>
        decide (Session.channels r'.session 1 = none)) = true := by
  decide

theorem not_completions_own : ¬ ∀ (o : Options) (es : List (Reporting.Event (peer o)))
    (r : Reporting (peer o)), Lts.Run (reporting (reports o)) (.start (peer o)) es r →
      reopensAfterReset [] (messages es) = true → ∀ e ∈ es, OwnCompletion e := by
  intro hall
  obtain ⟨r, hr, hends⟩ := (Option.any_eq_true _ _).mp reopenedRun_ends
  simp only [Bool.and_eq_true, decide_eq_true_eq, Option.any_eq_true] at hends
  obtain ⟨hheld, r', hjoin, hgone⟩ := hends
  obtain ⟨es, hes, hlabels⟩ := Lts.Run.exists_of_exec hr
  have hmessages : messages (es ++ [⟨r, .move (.join 0) (some "refused"), r'⟩]) = reopenedRun.filterMap (·.message?) := by
    rw [messages_concat, messages_eq hlabels]
    exact List.append_nil _
  have hserver : reopensAfterReset [] (reopenedRun.filterMap (·.message?)) = true := by decide
  rw [← hmessages] at hserver
  have hown := hall plainOptions _ r' (hes.append (.single hjoin)) hserver _
    (List.mem_append_right _ (List.mem_singleton.mpr rfl))
  rcases (hown 0 (some "refused") rfl).1 1 1 hheld with hleft | hone
  · rw [hgone] at hleft
    cases hleft
  · cases hone

end Rust

end ShuvTunnel
