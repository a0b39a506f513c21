/-
# Whether a reset is final

After a reset from its own bridge, or once its channel is finished with an
error, a connection should send nothing more. The channel's `finish` ends the
half that writes to the public socket only; the upload is a loop of its own,
and it stops when its bridge is not open, or by itself. So a reset is final
exactly when the upload is over, or the bridge is not open: a client's reset of
a connection whose public side goes on does not stop it.

Key definitions: `Over`, `SendsData`, `Silent`, `ResetsUpload`.
Key theorems: `silent_of_shut`, `silent_of_idle`, `reset_final`.
-/
import ShuvTunnel.Isolation
import ShuvTunnel.Uploads

namespace ShuvTunnel

open Coop

/-- The event ends the connection: its own bridge resets it, or its channel is
finished with an error. -/
inductive Over (e : Lts.Event State Action) (key : ℕ) : Prop
  | reset {c : Channel} {m : Message} : e.before.store.bridges.connection key = some c →
      e.label = .call (.webSocketMessage c.bridge m) → m.Finishes c.conn true → Over e key
  | aborted {c c' : Channel} : e.before.store.bridges.connection key = some c → c.writer ≠ .aborted →
      e.after.store.bridges.connection key = some c' → c'.writer = .aborted → Over e key

/-- In the event the connection's call of `connect` sends its bridge a data
frame. -/
def SendsData (e : Lts.Event State Action) (key : ℕ) : Prop :=
  ∃ k a t c w w' ms payload, e.label = .resume k a ∧ e.before.task k = some t ∧ t.key = some key ∧
    e.before.store.bridges.connection key = some c ∧ e.before.store.bridges.socket c.bridge = some w ∧
    e.after.store.bridges.socket c.bridge = some w' ∧ w'.sent = w.sent ++ ms ∧
    ServerMessage.dataFrame c.conn payload ∈ ms

/-- From here on the connection sends no data frame. -/
def Silent (P : Platform) (s : State) (key : ℕ) : Prop :=
  ∀ es t, Run P s es t → ∀ e ∈ es, ¬ SendsData e key

/-- An open bridge resets its connection, and the upload still runs. -/
def ResetsUpload (s : State) (l : Action) (key : ℕ) : Prop :=
  ∃ c m k, s.store.bridges.connection key = some c ∧ l = .call (.webSocketMessage c.bridge m) ∧
    m.Finishes c.conn true ∧ s.store.bridges.isOpen c.bridge = true ∧ s.task k = some (.upload key)

/-! ### What stops an upload -/

/-- A data frame takes a turn of the upload, and an open bridge. -/
theorem SendsData.upload {P : Platform} {e : Lts.Event State Action} {key : ℕ} (h : SendsData e key)
    (hr : Reachable P e.before) (hs : (tunnelObject P).step e.before e.label = some e.after) :
    ∃ k c, e.before.task k = some (.upload key) ∧ e.before.store.bridges.connection key = some c ∧
      e.before.store.bridges.isOpen c.bridge = true := by
  obtain ⟨k, a, t, c, w, w', ms, payload, hl, ht, hkey, hc, hw, hw', hsent, hmem⟩ := h
  rw [hl, step_resume ht] at hs
  obtain ⟨⟨x, o⟩, h1, he⟩ := Option.map_eq_some_iff.mp hs
  rw [← he, settle_store] at hw'
  obtain ⟨ns, hns, ho, hsends⟩ := (resume_touch h1).sends (exclusive_of_reachable hr).numbered
    (owned_of_reachable hr) hw hw'
  obtain rfl : ns = ms := List.append_cancel_left (hns.symm.trans hsent)
  have hopen : e.before.store.bridges.isOpen c.bridge = true := by
    unfold Bridges.isOpen
    rw [hw]
    exact ho (List.ne_nil_of_mem hmem)
  cases hsends with
  | other hno => exact absurd (hno _ hmem) (by simp [ServerMessage.conn?])
  | opened hcause _ _ _ =>
    obtain ⟨rfl, -⟩ := Cause.resumed.inj hcause
    cases hkey
  | uploaded hcause hx _ _ =>
    obtain ⟨rfl, -⟩ := Cause.resumed.inj hcause
    obtain rfl := Option.some.inj hkey
    exact ⟨k, c, ht, hc, hopen⟩

/-- A bridge that is not open is sent nothing any more. -/
theorem silent_of_shut {P : Platform} {s : State} {key : ℕ} {c : Channel} (h : Reachable P s)
    (hc : s.store.bridges.connection key = some c) (ho : s.store.bridges.isOpen c.bridge = false) :
    Silent P s key := by
  intro es t hr e he hsends
  obtain ⟨fs, gs, rfl⟩ := List.append_of_mem he
  obtain ⟨hbefore, hstep⟩ := hr.at
  obtain ⟨k, c', -, hc', hopen⟩ := hsends.upload (h.run hbefore) hstep
  obtain ⟨x, hx, hcx⟩ := (Run.moves hbefore).connection key c hc
  obtain rfl := Option.some.inj (hx.symm.trans hc')
  obtain ⟨w', hw', hwo⟩ := (Option.any_eq_true _ _).mp hopen
  rw [hcx.bridge] at hw'
  have hlt := ((uploads_of_reachable h).served key c hc).1
  obtain ⟨w, hw, hww⟩ := (Run.moves hbefore).socket _ hlt w' hw'
  have hwopen : s.store.bridges.isOpen c.bridge = true := by
    unfold Bridges.isOpen
    rw [hw]
    exact hww.isOpen hwo
  rw [ho] at hwopen
  cases hwopen

/-- The upload of a channel goes on with its next turn, or begins. -/
theorem Touch.upload {P : Platform} {b b' : Bridges} {c : Cause} {key : ℕ}
    (h : Touch P b c b' (.await (.upload key))) : (∃ a, c = .resumed (.upload key) a) ∨ key = b.nextConnection := by
  have absent : Keyless (.await (.upload key)) → False := fun ho => nomatch ho _ rfl
  cases h with
  | still _ ho => exact (absent ho).elim
  | attached _ _ _ ho => exact (absent ho).elim
  | opened _ _ _ _ _ _ _ => exact .inr rfl
  | uploaded _ _ => exact .inl ⟨_, rfl⟩

/-- No call waits for the next bytes of the connection. -/
structure Idle (key : ℕ) (s : State) : Prop where
  lt : key < s.store.bridges.nextConnection
  tasks : ∀ k, (k, .upload key) ∉ s.tasks

theorem Idle.step {P : Platform} {s s' : State} {l : Action} {key : ℕ} (h : Idle key s)
    (hs : (tunnelObject P).step s l = some s') : Idle key s' := by
  refine ⟨lt_of_lt_of_le h.lt (step_moves hs).nextConnection, fun j hj => ?_⟩
  have fresh : key ≠ s.store.bridges.nextConnection := Nat.ne_of_lt h.lt
  obtain ⟨c, x, o, rfl, h1, rfl⟩ | ⟨k, a, t, x, o, rfl, ht, h1, rfl⟩ | ⟨e, x, rfl, -, rfl⟩ := step_cases hs
  · rcases mem_settle_tasks hj with hj | ⟨-, ho⟩
    · exact h.tasks j hj
    · have htouch := start_touch h1
      rw [ho] at htouch
      rcases htouch.upload with ⟨a, hc⟩ | hk
      · cases hc
      · exact fresh hk
  · rcases mem_settle_tasks hj with hj | ⟨-, ho⟩
    · exact h.tasks j (mem_wake_tasks hj)
    · have htouch := resume_touch h1
      rw [ho] at htouch
      rcases htouch.upload with ⟨b, hc⟩ | hk
      · obtain ⟨rfl, -⟩ := Cause.resumed.inj hc
        exact h.tasks k (task_mem ht)
      · exact fresh hk
  · exact h.tasks j hj

/-- An upload that is over stays over. -/
theorem silent_of_idle {P : Platform} {s : State} {key : ℕ} (h : Reachable P s) (hi : Idle key s) :
    Silent P s key := by
  intro es t hr e he hsends
  obtain ⟨fs, gs, rfl⟩ := List.append_of_mem he
  obtain ⟨hbefore, hstep⟩ := hr.at
  obtain ⟨k, -, ht, -⟩ := hsends.upload (h.run hbefore) hstep
  have hinv := hbefore.invariant (A := fun _ _ => True) (fun _ _ _ hy _ hstep => hy.step hstep)
    (fun _ _ => trivial) hi
  exact hinv.1.tasks k (task_mem ht)

/-! ### What a reset does -/

/-- An attached socket's `end` or `reset` finishes one of its channels, or
does nothing. -/
theorem message_finishes {P : Platform} {s : Store} {w : ℕ} {x : Socket} {m : Message} {conn : ℚ} {error : Bool}
    (hx : s.bridges.socket w = some x) (ha : x.attached = true) (hm : m.Finishes conn error) :
    ∃ b, s.webSocketMessage P w m = some (s.withBridges b, .done .void) ∧
      (b = s.bridges ∨ ∃ key, b = s.bridges.finish key error) := by
  obtain ⟨value, control, rfl, hcontrol, htype, hconn⟩ := hm
  obtain ⟨att, hatt, hattached⟩ := (Option.any_eq_true _ _).mp ha
  have hstep : s.webSocketMessage P w (.text value) =
      some (s.attachedControl P w (if error then "reset" else "end") control) := by
    obtain ⟨j, hj, hstr⟩ := Option.bind_eq_some_iff.mp htype
    unfold Store.webSocketMessage
    rw [hx]
    simp [hatt, hattached, hcontrol, hj, hstr]
  rw [hstep, attachedControl_finish hconn]
  cases Store.ownChannel s.bridges w conn with
  | some key => exact ⟨_, rfl, .inr ⟨key, rfl⟩⟩
  | none => exact ⟨s.bridges, rfl, .inl rfl⟩

/-- With an open bridge that is not full, the upload sends what it reads. -/
theorem upload_chunk {P : Platform} {s : Store} {key : ℕ} {c : Channel} (hc : s.bridges.connection key = some c)
    (ho : s.bridges.isOpen c.bridge = true) (value : Bytes) :
    resume P s (.upload key) (.chunk value 0) =
      some (s.withBridges (s.bridges.sending c.bridge [.dataFrame c.conn value]), .await (.upload key)) := by
  have hsend : s.bridges.send P c.bridge (.dataFrame c.conn value) =
      some (s.bridges.sending c.bridge [.dataFrame c.conn value]) := by
    rw [Bridges.send, if_pos ho]
    rfl
  show s.upload P key (.chunk value 0) = _
  unfold Store.upload
  rw [hc]
  simp only [Option.bind_some, hsend]
  rfl

/-- After the reset the upload sends the next bytes it reads. -/
theorem ResetsUpload.not_silent {P : Platform} {s s' : State} {l : Action} {key : ℕ} (h : ResetsUpload s l key)
    (hr : Reachable P s) (hs : (tunnelObject P).step s l = some s') : ¬ Silent P s' key := by
  obtain ⟨c, m, k, hc, rfl, hm, ho, ht⟩ := h
  obtain ⟨w, hw, hwo⟩ := (Option.any_eq_true _ _).mp ho
  have hatt := ((uploads_of_reachable hr).served key c hc).2 w hw
  obtain ⟨b, hmessage, hb⟩ := message_finishes (P := P) hw hatt hm
  have hstart : start P s.store (.webSocketMessage c.bridge m) = some (s.store.withBridges b, .done .void) := hmessage
  have hs : (start P s.store (.webSocketMessage c.bridge m)).map (fun p =>
      { s with next := s.next + 1 }.settle s.next p.1 p.2) = some s' := hs
  rw [hstart] at hs
  obtain rfl := Option.some.inj hs
  -- the bridge and the channel are there as before, and the upload waits
  obtain ⟨c', hc', hcc⟩ : ∃ c', b.connection key = some c' ∧ c.Moves c' := by
    rcases hb with rfl | ⟨key', rfl⟩
    · exact ⟨c, hc, .refl c⟩
    · exact (Bridges.moves_finish _ key' true).connection key c hc
  have hbw : b.socket c.bridge = some w := by
    rcases hb with rfl | ⟨key', rfl⟩
    · exact hw
    · rw [Bridges.socket_of_sockets (Bridges.finish_sockets _ _ _)]
      exact hw
  have hbo : b.isOpen c'.bridge = true := by
    unfold Bridges.isOpen
    rw [hcc.bridge, hbw]
    exact hwo
  have hturn := upload_chunk (P := P) (s := s.store.withBridges b) hc' hbo []
  intro hsilent
  have hstep := step_resume (P := P) (s := ({ s with next := s.next + 1 } : State).settle s.next
    (s.store.withBridges b) (.done .void)) (k := k) (t := .upload key) (a := .chunk [] 0) ht
  rw [settle_store, hturn] at hstep
  refine hsilent _ _ (.single hstep) _ (List.mem_singleton.mpr rfl) ?_
  refine ⟨k, _, .upload key, c', w, { w with sent := w.sent ++ [.dataFrame c'.conn []] }, _, [], rfl, ht, rfl, hc', ?_,
    ?_, rfl, List.mem_singleton.mpr rfl⟩
  · rw [hcc.bridge]
    exact hbw
  · show ((State.settle _ k (s.store.withBridges (b.sending c'.bridge _)) _).store).bridges.socket c'.bridge = _
    rw [settle_store]
    refine (Bridges.sending_socket c'.bridge _ c'.bridge).trans ?_
    rw [if_pos rfl, hcc.bridge, hbw]
    rfl

/-! ### The rule -/

theorem Channel.finish_aborted {c : Channel} {error : Bool} (hc : c.writer ≠ .aborted)
    (h : (c.finish error).writer = .aborted) : error = true := by
  unfold Channel.finish at h
  split at h
  · exact absurd h hc
  · cases error
    · cases h
    · rfl

/-- Whose segment aborts a channel's writer: a reset from its bridge, the end
of its bridge, or its own upload failing. -/
theorem Touch.aborts {P : Platform} {b b' : Bridges} {cause : Cause} {o : Outcome Task Result} {key : ℕ}
    {c c' : Channel} (h : Touch P b cause b' o) (hb : b.Owned) (hn : c.bridge < b.nextSocket)
    (hc : b.connection key = some c) (hw : c.writer ≠ .aborted) (hc' : b'.connection key = some c')
    (hw' : c'.writer = .aborted) :
    (∃ m, cause = .call (.webSocketMessage c.bridge m) ∧ m.Finishes c.conn true) ∨
      b'.isOpen c.bridge = false ∨ ∃ a u, cause = .resumed (.upload key) a ∧ o = .await (.settling u) := by
  have hmoves := h.moves
  -- the channel that is finished is this one
  have finished : ∀ {b₁ : Bridges} {k : ℕ} {error : Bool}, b.SameChannels b₁ →
      (b₁.finish k error).connection key = some c' → key = k ∧ error = true := fun hs hf => by
    rw [Bridges.finish_connection, hs.connection, hc] at hf
    split at hf
    · rename_i hk
      obtain rfl := Option.some.inj hf
      exact ⟨hk, Channel.finish_aborted hw hw'⟩
    · obtain rfl := Option.some.inj hf
      exact absurd hw' hw
  cases h.channels with
  | same hs =>
    rw [hs.connection, hc] at hc'
    obtain rfl := Option.some.inj hc'
    exact absurd hw' hw
  | @finished w m conn k _ _ hm hown =>
    obtain ⟨rfl, rfl⟩ := finished (.refl b) hc'
    obtain ⟨n, x, rfl, hmem, hx, rfl⟩ := ownChannel_eq_some hown
    obtain rfl := Option.some.inj (hx.symm.trans hc)
    obtain ⟨y, hy, hyn, -⟩ := hb.entry _ hmem
    obtain rfl := Option.some.inj (hx.symm.trans hy)
    exact .inl ⟨m, rfl, by rw [hyn]; exact hm⟩
  | written _ _ =>
    rw [Bridges.write_connection, hc] at hc'
    split at hc'
    · obtain rfl := Option.some.inj hc'
      rw [Channel.write_writer] at hw'
      exact absurd hw' hw
    · obtain rfl := Option.some.inj hc'
      exact absurd hw' hw
  | @ended w x b₁ _ hx hxo hs =>
    rw [Bridges.finishAll_connection (p := fun c => decide (c.bridge = w)) (fun c => by rw [c.finish_bridge]),
      hs.connection, hc] at hc'
    obtain rfl := Option.some.inj hc'
    beta_reduce at hw'
    split at hw'
    · rename_i hfin
      obtain rfl : c.bridge = w := by simpa using hfin.2
      refine .inr (.inl ?_)
      by_contra hopen
      obtain ⟨y', hy', hyo⟩ := (Option.any_eq_true _ _).mp ((Bool.not_eq_false _).mp hopen)
      obtain ⟨y, hy, hyy⟩ := hmoves.socket _ hn y' hy'
      obtain rfl := Option.some.inj (hx.symm.trans hy)
      rw [hyy.isOpen hyo] at hxo
      cases hxo
    · exact absurd hw' hw
  | shutDown =>
    refine .inr (.inl ?_)
    unfold Bridges.isOpen
    rw [Bridges.shutDown_socket]
    cases b.socket c.bridge with
    | none => rfl
    | some x => exact x.close_isOpen
  | entered _ _ hs =>
    rw [hs.connection, Bridges.enterChannel_connection, if_neg (by rw [hc]; simp), hc] at hc'
    obtain rfl := Option.some.inj hc'
    exact absurd hw' hw
  | aborted hs =>
    obtain ⟨rfl, -⟩ := finished hs hc'
    exact .inr (.inr ⟨_, _, rfl, rfl⟩)

theorem Silent.step {P : Platform} {s s' : State} {l : Action} {key : ℕ} (h : Silent P s key)
    (hs : (tunnelObject P).step s l = some s') : Silent P s' key :=
  fun _ t hr e he => h _ t (.cons hs hr) e (List.mem_cons_of_mem _ he)

/-- A reset of a bridge that is not open, or of an upload that is over, is
final. -/
theorem silent_of_reset {P : Platform} {s s' : State} {key : ℕ} {c : Channel} {m : Message} (h : Reachable P s)
    (hs : (tunnelObject P).step s (.call (.webSocketMessage c.bridge m)) = some s')
    (hc : s.store.bridges.connection key = some c) (hm : m.Finishes c.conn true)
    (hno : ¬ ResetsUpload s (.call (.webSocketMessage c.bridge m)) key) : Silent P s' key := by
  by_cases ho : s.store.bridges.isOpen c.bridge = true
  · have hidle : Idle key s := by
      refine ⟨(owned_of_reachable h).lt key c hc, fun k hk => hno ⟨c, m, k, hc, rfl, hm, ho, ?_⟩⟩
      exact task_of_mem (tasks_nodup h) hk
    exact (silent_of_idle h hidle).step hs
  · exact (silent_of_shut h hc (by simpa using ho)).step hs

/-- A channel that is finished with an error sends nothing more, unless by such
a reset. -/
theorem silent_of_aborted {P : Platform} {s s' : State} {l : Action} {key : ℕ} {c c' : Channel}
    (h : Reachable P s) (hs : (tunnelObject P).step s l = some s')
    (hc : s.store.bridges.connection key = some c) (hw : c.writer ≠ .aborted)
    (hc' : s'.store.bridges.connection key = some c') (hw' : c'.writer = .aborted)
    (hno : ¬ ResetsUpload s l key) : Silent P s' key := by
  have hr := h.step hs
  have hu := uploads_of_reachable h
  have hb := owned_of_reachable h
  have hmoves := step_moves hs
  have hshut : s'.store.bridges.isOpen c.bridge = false → Silent P s' key := fun ho => by
    obtain ⟨x, hx, hcx⟩ := hmoves.connection key c hc
    obtain rfl := Option.some.inj (hx.symm.trans hc')
    exact silent_of_shut hr hc' (by rw [hcx.bridge]; exact ho)
  obtain ⟨call, x, o, rfl, h1, rfl⟩ | ⟨k, a, t, x, o, rfl, ht, h1, rfl⟩ | ⟨e, x, rfl, h1, rfl⟩ := step_cases hs
  · rw [settle_store] at hc' hshut
    rcases (start_touch h1).aborts hb (hu.served key c hc).1 hc hw hc' hw' with
      ⟨m, hcause, hm⟩ | ho | ⟨a, u, hcause, -⟩
    · obtain rfl := Cause.call.inj hcause
      exact silent_of_reset h hs hc hm hno
    · exact hshut ho
    · cases hcause
  · rw [settle_store] at hc' hshut
    rcases (resume_touch h1).aborts hb (hu.served key c hc).1 hc hw hc' hw' with
      ⟨m, hcause, -⟩ | ho | ⟨b, u, hcause, rfl⟩
    · cases hcause
    · exact hshut ho
    · -- the upload has failed, and no other call waits for its bytes
      obtain ⟨rfl, -⟩ := Cause.resumed.inj hcause
      refine silent_of_idle hr ⟨lt_of_lt_of_le (hb.lt key c hc) hmoves.nextConnection, fun j hj => ?_⟩
      rcases mem_settle_tasks hj with hj | ⟨-, ho⟩
      · have hne : j ≠ k := by simpa using (List.mem_filter.mp hj).2
        exact hne (hu.one _ (mem_wake_tasks hj) _ (task_mem ht) key rfl rfl)
      · cases ho
  · have hsame : x.bridges.connection key = some c' := hc'
    rw [(environment_sameChannels h1).connection, hc] at hsame
    obtain rfl := Option.some.inj hsame
    exact absurd hw' hw

/-- Without such a reset, what ends a connection ends its upload too. -/
theorem Over.silent {P : Platform} {e : Lts.Event State Action} {key : ℕ} (h : Over e key)
    (hr : Reachable P e.before) (hs : (tunnelObject P).step e.before e.label = some e.after)
    (hno : ¬ ResetsUpload e.before e.label key) : Silent P e.after key := by
  cases h with
  | reset hc hl hm =>
    rw [hl] at hs hno
    exact silent_of_reset hr hs hc hm hno
  | aborted hc hw hc' hw' => exact silent_of_aborted hr hs hc hw hc' hw' hno

/-- What ends a connection, by a reset or with an error, leaves nothing more to
be sent for it, exactly when no open bridge resets a connection whose upload
still runs. -/
theorem reset_final {P : Platform} {s t : State} {es : List (Lts.Event State Action)} {key : ℕ}
    (h : Reachable P s) (hr : Run P s es t) :
    (∀ e ∈ es, Over e key → Silent P e.after key) ↔ ∀ e ∈ es, ¬ ResetsUpload e.before e.label key := by
  constructor
  · intro hfinal e he hreset
    obtain ⟨fs, gs, rfl⟩ := List.append_of_mem he
    obtain ⟨hbefore, hstep⟩ := hr.at
    refine hreset.not_silent (h.run hbefore) hstep (hfinal e he ?_)
    obtain ⟨c, m, k, hc, hl, hm, -, -⟩ := hreset
    exact .reset hc hl hm
  · intro hno e he hover
    obtain ⟨fs, gs, rfl⟩ := List.append_of_mem he
    obtain ⟨hbefore, hstep⟩ := hr.at
    exact hover.silent (h.run hbefore) hstep (hno e he)

/-- A connection is opened on the bridge, and its upload runs. -/
def uploadingRun : List Action := servingRun ++ [.call .connect, .resume 4 (.hello rootHello)]

/-- The bridge resets the connection 1. -/
def resetMessage : Message := .text (some (.obj [("type", .str "reset"), ("conn", .num 1)]))

theorem resetMessage_finishes : resetMessage.Finishes (1 : ℕ) true :=
  ⟨_, _, rfl, rfl, rfl, rfl⟩

set_option maxRecDepth 4000 in
theorem uploadingRun_state : ∃ s c, after plainPlatform uploadingRun = some s ∧
    s.store.bridges.connection 0 = some c ∧ c.bridge = 0 ∧ c.conn = 1 ∧ s.store.bridges.isOpen 0 = true ∧
    s.task 4 = some (.upload 0) ∧
    ∃ s', (tunnelObject plainPlatform).step s (.call (.webSocketMessage 0 resetMessage)) = some s' :=
  ⟨_, _, rfl, rfl, rfl, rfl, rfl, rfl, _, rfl⟩

/-- The bridge resets a connection, and is sent its next bytes. -/
theorem reset_upload_goes_on : ¬ ∀ (s s' : State) (l : Action) (key : ℕ), Reachable plainPlatform s →
    (tunnelObject plainPlatform).step s l = some s' → Over ⟨s, l, s'⟩ key → Silent plainPlatform s' key := by
  intro h
  obtain ⟨s, c, hs, hc, hbridge, hconn, ho, ht, s', hs'⟩ := uploadingRun_state
  have hr := reachable_of_after hs
  have hm : resetMessage.Finishes c.conn true := by rw [hconn]; exact resetMessage_finishes
  rw [← hbridge] at hs' ho
  exact ResetsUpload.not_silent ⟨c, _, 4, hc, rfl, hm, ho, ht⟩ hr hs' (h s s' _ 0 hr hs' (.reset hc rfl hm))

set_option maxRecDepth 4000 in
/-- The bridge closes instead: what that ends stays ended. -/
theorem reset_final_closed : ∃ s es t, Reachable plainPlatform s ∧ Run plainPlatform s es t ∧
    es.map (·.label) = [.environment (.peerClose 0), .call (.webSocketClose 0)] ∧
    ∀ e ∈ es, Over e 0 → Silent plainPlatform e.after 0 := by
  obtain ⟨s, t, hs, ht⟩ : ∃ s t, after plainPlatform uploadingRun = some s ∧
      (tunnelObject plainPlatform).exec s [.environment (.peerClose 0), .call (.webSocketClose 0)] = some t :=
    ⟨_, _, rfl, rfl⟩
  obtain ⟨es, hr, hl⟩ := Lts.Run.exists_of_exec ht
  refine ⟨s, es, t, reachable_of_after hs, hr, hl, (reset_final (reachable_of_after hs) hr).mpr ?_⟩
  rintro e he ⟨c, m, k, -, hlabel, -⟩
  have hmem := List.mem_map.mpr ⟨e, he, hlabel⟩
  rw [hl] at hmem
  simp at hmem

end ShuvTunnel
