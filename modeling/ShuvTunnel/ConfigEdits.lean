/-
# Edits of the config, seen by the service

The user may edit the config file while the service runs, also between two of its
reads. `try_reconcile` reads the time of the last modification first and the routes
after it, and `check` compares that time with the file's. So a time that is
recorded is never newer than the routes that were loaded after it.

Key definitions: `Look`, `EditedEvent`, `editedSystem`, `Applied`.
Key theorems: `Daemon.tryReconcile_ok`, `Applied.reconciled`, `no_edit_unnoticed`,
`quiet_tick_applies`.
-/
import ShuvTunnel.Config
import ShuvTunnel.Daemon

namespace ShuvTunnel

/-! ### Reads with edits between them -/

/-- What a reconciliation meets, other than the file: whether the file's metadata
are denied, the edits between its two reads, why the second one fails, and what comes of the rest. -/
structure Look where
  statFails : Bool
  edits : List ConfigFile
  readFails : Option String
  identity : Except String (Option Rust.Identity)
  pending : Except String Bool
  connect : Except String Unit
  setRoutes : Except String Unit

/-- The file behind some edits. -/
def editedFile (file : Option ConfigFile) (edits : List ConfigFile) : Option ConfigFile :=
  edits.foldl (fun _ edit => some edit) file

/-- `config::modified`, which gives nothing where it fails. -/
def readModified (statFails : Bool) (file : Option ConfigFile) : Option ℕ :=
  if statFails then none else Config.modified file

section

variable (toml : Toml) (path : String)

/-- The routes in a file. -/
def fileRoutes (file : Option ConfigFile) : Except String Routes :=
  (Config.load toml path (Config.read (file.map (·.content)))).map (·.routes)

/-- The routes a look gives: those of the file, or the error of reading it. -/
def Look.routes (look : Look) (file : Option ConfigFile) : Except String Routes :=
  match look.readFails with
  | some message => (Config.load toml path (.error (.failed message))).map (·.routes)
  | none => fileRoutes toml path file

/-- The reads of a reconciliation that begins with this file. -/
def Look.reads (look : Look) (file : Option ConfigFile) : Daemon.Reads where
  modified := readModified look.statFails file
  identity := look.identity
  pending := look.pending
  routes := look.routes toml path (editedFile file look.edits)
  connect := look.connect
  setRoutes := look.setRoutes

end

/-- The events of the daemon as it looks at the file, and the edits between them. -/
inductive EditedEvent
  | edit (file : ConfigFile)
  | start (look : Look)
  | status
  | reload (look : Look)
  | stop
  | terminate
  | interrupt
  | hangup (look : Look)
  -- with the edits before and after the time is read that is compared
  | tick (first : Look) (before : List ConfigFile) (statFails : Bool) (behind : List ConfigFile) (second : Look)
  | tunnelStops (error : Option String)
  | resumeFails (message : String)
  | resumeEnds

namespace EditedEvent

/-- The edits in the order in which they are made. -/
def edits : EditedEvent → List ConfigFile
  | edit file => [file]
  | start look | reload look | hangup look => look.edits
  | tick first before _ behind second => first.edits ++ before ++ behind ++ second.edits
  | _ => []

/-- What the daemon does, if anything. -/
def event (toml : Toml) (path : String) (file : Option ConfigFile) : EditedEvent → Option DaemonEvent
  | edit _ => none
  | start look => some (.start (look.reads toml path file))
  | status => some .status
  | reload look => some (.reload (look.reads toml path file))
  | stop => some .stop
  | terminate => some .terminate
  | interrupt => some .interrupt
  | hangup look => some (.hangup (look.reads toml path file))
  | tick first before statFails behind second =>
    let compared := editedFile file (first.edits ++ before)
    some (.tick (first.reads toml path file) (readModified statFails compared)
      (second.reads toml path (editedFile compared behind)))
  | tunnelStops error => some (.tunnelStops error)
  | resumeFails message => some (.resumeFails message)
  | resumeEnds => some .resumeEnds

end EditedEvent

namespace Daemon

/-- What `check` does first. -/
def recordProvisioning (d : Daemon) : Daemon :=
  match d.provisioningError with
  | some error => { d with provisioningError := none }.recordError error
  | none => d

/-- What the reconciliations report that an event leads to, in their order. -/
def outcomes (d : Daemon) : DaemonEvent → List (Except String Unit)
  | .start reads => [({ d with phase := .serving }.tryReconcile reads).1]
  | .reload reads => [({ d with stopped := false }.tryReconcile reads).1]
  | .hangup reads => [(d.tryReconcile reads).1]
  | .tick first modified second =>
    let noticed := d.noticeProvisioning first
    (if d.provisioning = some .finished then
      [({ d.recordProvisioning with provisioning := none }.tryReconcile first).1] else []) ++
    (if noticed.fatalStop = none ∧ noticed.stopped = false ∧ modified ≠ noticed.configModified then
      [(noticed.tryReconcile second).1] else [])
  | _ => []

end Daemon

/-- These edits, in their order, each give the file a time that it never had. -/
def FreshEdits (past : List ℕ) (edits : List ConfigFile) : Prop :=
  (edits.map (·.modified)).Nodup ∧ ∀ time ∈ edits.map (·.modified), time ∉ past

instance (past : List ℕ) (edits : List ConfigFile) : Decidable (FreshEdits past edits) :=
  inferInstanceAs (Decidable (_ ∧ _))

/-- The service and the file: `past` are the times it was modified at, `failed` says
that the last reconciliation reported an error. -/
structure EditedDaemon where
  watched : Watched
  file : Option ConfigFile
  past : List ℕ
  failed : Bool

namespace EditedDaemon

/-- Whether the last of some reconciliations has failed. -/
def afterOutcomes (failed : Bool) (outcomes : List (Except String Unit)) : Bool :=
  outcomes.foldl (fun _ outcome => !outcome.toBool) failed

/-- What an event does; the edits in it are made between the looks. -/
def step (toml : Toml) (path : String) (s : EditedDaemon) (a : EditedEvent) : Option EditedDaemon :=
  let times := a.edits.map (·.modified)
  if FreshEdits s.past a.edits then
    match a.event toml path s.file with
    | none => some { s with file := editedFile s.file a.edits, past := s.past ++ times }
    | some event =>
      (s.watched.step event).map fun watched =>
        { watched
          file := editedFile s.file a.edits
          past := s.past ++ times
          failed := afterOutcomes s.failed (s.watched.daemon.outcomes event) }
  else none

/-- The service begins with this file, which may not be there. -/
def fresh (file : Option ConfigFile) : EditedDaemon where
  watched := .fresh
  file := file
  past := (Config.modified file).toList
  failed := false

end EditedDaemon

/-- The daemon and the file it looks at. -/
def editedSystem (toml : Toml) (path : String) : Lts.System EditedDaemon EditedEvent :=
  ⟨EditedDaemon.step toml path⟩

/-! ### Edits -/

theorem freshEdits_append {past : List ℕ} {edits edits' : List ConfigFile} :
    FreshEdits past (edits ++ edits') ↔
      FreshEdits past edits ∧ FreshEdits (past ++ edits.map (·.modified)) edits' := by
  unfold FreshEdits
  simp only [List.map_append, List.nodup_append, List.mem_append, not_or]
  constructor
  · rintro ⟨⟨hnodup, hnodup', hdisjoint⟩, hpast⟩
    exact ⟨⟨hnodup, fun time h => hpast time (.inl h)⟩, hnodup',
      fun time h => ⟨hpast time (.inr h), fun h' => hdisjoint time h' time h rfl⟩⟩
  · rintro ⟨⟨hnodup, hpast⟩, hnodup', hpast'⟩
    refine ⟨⟨hnodup, hnodup', fun time h time' h' heq => (hpast' time' h').2 (heq ▸ h)⟩, ?_⟩
    rintro time (h | h)
    · exact hpast time h
    · exact (hpast' time h).1

theorem editedFile_append (file : Option ConfigFile) (edits edits' : List ConfigFile) :
    editedFile file (edits ++ edits') = editedFile (editedFile file edits) edits' :=
  List.foldl_append

/-- The last edit is what is in the file. -/
theorem editedFile_cases (file : Option ConfigFile) (edits : List ConfigFile) :
    edits = [] ∨ ∃ edit ∈ edits, editedFile file edits = some edit := by
  rcases edits.eq_nil_or_concat' with rfl | ⟨before, edit, rfl⟩
  · exact .inl rfl
  · exact .inr ⟨edit, by simp, by rw [editedFile_append]; rfl⟩

/-! ### What a reconciliation gives the tunnel -/

namespace Daemon

variable {d : Daemon} {r : Reads}

theorem tryReconcile_configModified (d : Daemon) (r : Reads) : (d.tryReconcile r).2.configModified = r.modified := by
  unfold tryReconcile
  dsimp only
  split
  · rfl
  · split
    · split <;> rfl
    · rfl
  · split
    · rfl
    · split
      · split <;> rfl
      · split <;> rfl

/-- A tunnel that runs behind a reconciliation without an error has the routes that were loaded. -/
theorem tryReconcile_ok {running : Running} : (d.tryReconcile r).1 = .ok () →
    (d.tryReconcile r).2.running = some running → r.routes = .ok running.routes := by
  unfold tryReconcile
  dsimp only
  split
  · exact fun hok => (nomatch hok)
  · -- no identity, no tunnel
    split
    · split <;> exact fun _ hrunning => (nomatch hrunning)
    · exact fun _ hrunning => (nomatch hrunning)
  · split
    · exact fun hok => (nomatch hok)
    · rename_i routes hroutes
      split
      · split
        · exact fun hok => (nomatch hok)
        · exact fun _ hrunning => hroutes.trans (congrArg _ (congrArg Running.routes (Option.some.inj hrunning)))
      · split
        · exact fun hok => (nomatch hok)
        · exact fun _ hrunning => hroutes.trans (congrArg _ (congrArg Running.routes (Option.some.inj hrunning)))

theorem reconcile_running (d : Daemon) (r : Reads) : (d.reconcile r).running = (d.tryReconcile r).2.running := by
  unfold reconcile
  split
  · rename_i d' h
    rw [h]
  · rename_i message d' h
    rw [h]
    rfl

theorem reconcile_configModified (d : Daemon) (r : Reads) : (d.reconcile r).configModified = r.modified := by
  rw [← tryReconcile_configModified d r]
  unfold reconcile
  split
  · rename_i d' h
    rw [h]
  · rename_i message d' h
    rw [h]
    rfl

theorem recordProvisioning_running (d : Daemon) : d.recordProvisioning.running = d.running := by
  unfold recordProvisioning
  split <;> rfl

theorem recordProvisioning_configModified (d : Daemon) : d.recordProvisioning.configModified = d.configModified := by
  unfold recordProvisioning
  split <;> rfl

theorem noticeProvisioning_finished (h : d.provisioning = some .finished) :
    d.noticeProvisioning r = ({ d.recordProvisioning with provisioning := none } : Daemon).reconcile r := by
  unfold noticeProvisioning recordProvisioning
  cases d.provisioningError with
  | none => exact if_pos h
  | some error => exact if_pos h

theorem noticeProvisioning_other (h : d.provisioning ≠ some .finished) :
    d.noticeProvisioning r = d.recordProvisioning := by
  unfold noticeProvisioning recordProvisioning
  cases d.provisioningError with
  | none => exact if_neg h
  | some error => exact if_neg h

end Daemon

/-! ### The invariant -/

section

variable {toml : Toml} {path : String}

/-- Where the time that is recorded is the file's and the last reconciliation went
well, the tunnel has the routes in the file. -/
structure Applied (toml : Toml) (path : String) (d : Daemon) (file : Option ConfigFile) (past : List ℕ)
    (failed : Bool) : Prop where
  routes : ∀ running, d.running = some running → failed = false → d.configModified = Config.modified file →
    fileRoutes toml path file = .ok running.routes
  recorded : ∀ time, d.configModified = some time → time ∈ past
  present : ∀ time, Config.modified file = some time → time ∈ past

namespace Applied

variable {d d' : Daemon} {file : Option ConfigFile} {past : List ℕ} {failed : Bool} {edits : List ConfigFile}

theorem congr (h : Applied toml path d file past failed) (hrunning : d'.running = d.running)
    (hmodified : d'.configModified = d.configModified) : Applied toml path d' file past failed :=
  ⟨fun running h1 h2 h3 => h.routes running (hrunning ▸ h1) h2 (hmodified ▸ h3),
    fun time h1 => h.recorded time (hmodified ▸ h1), h.present⟩

/-- Without a tunnel there is nothing to keep up to date. -/
theorem halted (h : Applied toml path d file past failed) (hrunning : d'.running = none)
    (hmodified : d'.configModified = d.configModified) : Applied toml path d' file past failed :=
  ⟨fun running h1 => absurd (hrunning.symm.trans h1) (by simp), fun time h1 => h.recorded time (hmodified ▸ h1),
    h.present⟩

/-- An edit makes the time of the file one that was not recorded. -/
theorem edited (h : Applied toml path d file past failed) (hfresh : FreshEdits past edits) :
    Applied toml path d (editedFile file edits) (past ++ edits.map (·.modified)) failed := by
  rcases editedFile_cases file edits with rfl | ⟨edit, hedit, hfile⟩
  · rw [List.map_nil, List.append_nil]
    exact h
  · have htime : edit.modified ∈ edits.map (·.modified) := List.mem_map_of_mem hedit
    rw [hfile]
    refine ⟨fun running _ _ hsame => ?_, fun time htime => List.mem_append_left _ (h.recorded time htime), ?_⟩
    · exact absurd (h.recorded _ hsame) (hfresh.2 _ htime)
    · rintro time hpresent
      obtain rfl := Option.some.inj hpresent
      exact List.mem_append_right _ htime

theorem routes_of_look {look : Look} {routes : Routes} (h : look.routes toml path file = .ok routes) :
    fileRoutes toml path file = .ok routes := by
  unfold Look.routes at h
  split at h
  · cases h
  · exact h

/-- A reconciliation records the time of the file that it began with, and gives
the tunnel the routes of the file that the edits left. -/
theorem reconciled {look : Look} (hpresent : ∀ time, Config.modified file = some time → time ∈ past)
    (hfresh : FreshEdits past look.edits) :
    Applied toml path (d.reconcile (look.reads toml path file)) (editedFile file look.edits)
      (past ++ look.edits.map (·.modified)) (!(d.tryReconcile (look.reads toml path file)).1.toBool) := by
  have hrecorded : ∀ time, (look.reads toml path file).modified = some time → time ∈ past := fun time htime => by
    refine hpresent time ?_
    unfold Look.reads readModified at htime
    dsimp only at htime
    split at htime
    · cases htime
    · exact htime
  have hstart : Applied toml path { d with running := none, configModified := (look.reads toml path file).modified }
      file past true := ⟨fun _ h => (nomatch h), hrecorded, hpresent⟩
  have hend := hstart.edited hfresh
  refine ⟨fun running hrunning hok _ => ?_, fun time htime => hend.recorded time ?_, hend.present⟩
  · rw [Daemon.reconcile_running] at hrunning
    refine routes_of_look (Daemon.tryReconcile_ok ?_ hrunning)
    cases hout : (d.tryReconcile (look.reads toml path file)).1 with
    | ok u => rfl
    | error message =>
      rw [hout] at hok
      cases hok
  · rwa [Daemon.reconcile_configModified] at htime

theorem noticeProvisioning {look : Look} (h : Applied toml path d file past failed)
    (hfresh : FreshEdits past look.edits) :
    Applied toml path (d.noticeProvisioning (look.reads toml path file)) (editedFile file look.edits)
      (past ++ look.edits.map (·.modified))
      (EditedDaemon.afterOutcomes failed (if d.provisioning = some .finished then
        [({ d.recordProvisioning with provisioning := none }.tryReconcile (look.reads toml path file)).1] else [])) := by
  by_cases hfinished : d.provisioning = some .finished
  · rw [Daemon.noticeProvisioning_finished hfinished, if_pos hfinished]
    exact reconciled h.present hfresh
  · rw [Daemon.noticeProvisioning_other hfinished, if_neg hfinished]
    exact (h.congr d.recordProvisioning_running d.recordProvisioning_configModified).edited hfresh

/-- The second half of `check`. -/
theorem check {first : Daemon.Reads} {look : Look}
    (h : Applied toml path (d.noticeProvisioning first) file past failed) (modified : Option ℕ)
    (hfresh : FreshEdits past look.edits) :
    Applied toml path (d.check first modified (look.reads toml path file)) (editedFile file look.edits)
      (past ++ look.edits.map (·.modified))
      (EditedDaemon.afterOutcomes failed (if (d.noticeProvisioning first).fatalStop = none ∧
          (d.noticeProvisioning first).stopped = false ∧ modified ≠ (d.noticeProvisioning first).configModified then
        [((d.noticeProvisioning first).tryReconcile (look.reads toml path file)).1] else [])) := by
  unfold Daemon.check
  dsimp only
  cases hstop : (d.noticeProvisioning first).fatalStop with
  | some error =>
    dsimp only
    rw [if_neg fun h => (nomatch h.1)]
    exact (h.edited hfresh).halted rfl rfl
  | none =>
    by_cases hedited : (d.noticeProvisioning first).stopped = false ∧
        modified ≠ (d.noticeProvisioning first).configModified
    · rw [if_pos (by simpa using hedited), if_pos ⟨rfl, hedited⟩]
      exact reconciled h.present hfresh
    · rw [if_neg (by simpa using hedited), if_neg fun h => hedited h.2]
      exact h.edited hfresh

end Applied

/-- The invariant, of the service and the file. -/
def EditedDaemon.Sound (toml : Toml) (path : String) (s : EditedDaemon) : Prop :=
  Applied toml path s.watched.daemon s.file s.past s.failed

namespace EditedDaemon

variable {s s' : EditedDaemon} {a : EditedEvent}

theorem afterOutcomes_append (failed : Bool) (outcomes outcomes' : List (Except String Unit)) :
    afterOutcomes failed (outcomes ++ outcomes') = afterOutcomes (afterOutcomes failed outcomes) outcomes' :=
  List.foldl_append

theorem Sound.tick {first second : Look} {before behind : List ConfigFile} (hs : s.Sound toml path)
    (statFails : Bool)
    (hfresh : FreshEdits s.past (EditedEvent.tick first before statFails behind second).edits) :
    let event := DaemonEvent.tick (first.reads toml path s.file)
      (readModified statFails (editedFile s.file (first.edits ++ before)))
      (second.reads toml path (editedFile (editedFile s.file (first.edits ++ before)) behind))
    Applied toml path (s.watched.daemon.check (first.reads toml path s.file)
        (readModified statFails (editedFile s.file (first.edits ++ before)))
        (second.reads toml path (editedFile (editedFile s.file (first.edits ++ before)) behind)))
      (editedFile s.file (first.edits ++ before ++ behind ++ second.edits))
      (s.past ++ (first.edits ++ before ++ behind ++ second.edits).map (·.modified))
      (afterOutcomes s.failed (s.watched.daemon.outcomes event)) := by
  obtain ⟨hfresh, hsecond⟩ := freshEdits_append.mp hfresh
  obtain ⟨hfresh, hbehind⟩ := freshEdits_append.mp hfresh
  obtain ⟨hfirst, hbefore⟩ := freshEdits_append.mp hfresh
  simp only [List.map_append, ← List.append_assoc] at hbefore hbehind hsecond ⊢
  have hnoticed := ((hs.noticeProvisioning hfirst).edited hbefore).edited hbehind
  have hchecked := hnoticed.check (readModified statFails (editedFile s.file (first.edits ++ before))) hsecond
  unfold Daemon.outcomes
  dsimp only
  rw [afterOutcomes_append]
  simp only [editedFile_append] at hchecked ⊢
  exact hchecked

theorem Sound.step (hs : s.Sound toml path) (hstep : s.step toml path a = some s') : s'.Sound toml path := by
  obtain ⟨hfresh, hstep⟩ := Option.ite_none_right_eq_some.mp hstep
  cases a with
  | edit file =>
    obtain rfl := Option.some.inj hstep
    exact hs.edited hfresh
  | start look | reload look | hangup look =>
    obtain ⟨watched, hwatched, rfl⟩ := Option.map_eq_some_iff.mp hstep
    obtain ⟨-, h⟩ := Option.ite_none_right_eq_some.mp hwatched
    obtain rfl := Option.some.inj h
    exact Applied.reconciled hs.present hfresh
  | tick first before statFails behind second =>
    obtain ⟨watched, hwatched, rfl⟩ := Option.map_eq_some_iff.mp hstep
    obtain ⟨-, h⟩ := Option.ite_none_right_eq_some.mp hwatched
    obtain rfl := Option.some.inj h
    exact hs.tick statFails hfresh
  | stop | terminate | interrupt =>
    obtain ⟨watched, hwatched, rfl⟩ := Option.map_eq_some_iff.mp hstep
    obtain ⟨-, h⟩ := Option.ite_none_right_eq_some.mp hwatched
    obtain rfl := Option.some.inj h
    exact (hs.edited hfresh).halted rfl rfl
  | tunnelStops error =>
    obtain ⟨watched, hwatched, rfl⟩ := Option.map_eq_some_iff.mp hstep
    obtain ⟨running, hrunning, rfl⟩ := Option.map_eq_some_iff.mp hwatched
    have h := hs.edited hfresh
    exact ⟨fun running' h1 => Option.some.inj h1 ▸ h.routes running hrunning, h.recorded, h.present⟩
  | status | resumeFails message | resumeEnds =>
    obtain ⟨watched, hwatched, rfl⟩ := Option.map_eq_some_iff.mp hstep
    obtain ⟨-, h⟩ := Option.ite_none_right_eq_some.mp hwatched
    obtain rfl := Option.some.inj h
    exact (hs.edited hfresh).congr rfl rfl

theorem sound_fresh (file : Option ConfigFile) : (fresh file).Sound toml path :=
   ⟨fun _ h => (nomatch h), fun _ h => (nomatch h), fun _ h => Option.mem_toList.mpr h⟩

end EditedDaemon

/-- **No config edit goes unnoticed.** In every state of every run, with edits
wherever they fall: a tunnel that runs has exactly the routes in the file, where the
last reconciliation reported no error and the recorded time is the file's. -/
theorem no_edit_unnoticed {file : Option ConfigFile} {es : List (Lts.Event EditedDaemon EditedEvent)}
    {t : EditedDaemon} (h : Lts.Run (editedSystem toml path) (.fresh file) es t) {running : Daemon.Running}
    (hrunning : t.watched.daemon.running = some running) (hok : t.failed = false)
    (hsame : t.watched.daemon.configModified = Config.modified t.file) :
    fileRoutes toml path t.file = .ok running.routes :=
  (h.invariant (I := EditedDaemon.Sound toml path) (A := fun _ _ => True)
    (fun _ _ _ hs _ hstep => hs.step hstep) (fun _ _ => trivial)
    (EditedDaemon.sound_fresh file)).1.routes running hrunning hok hsame

/-! ### A tick without edits -/

namespace Daemon

variable {d : Daemon} {r : Reads}

/-- `stopped` is set where no tunnel runs. -/
def Coherent (d : Daemon) : Prop := d.stopped = true → d.running = none

theorem Coherent.tryReconcile (h : d.Coherent) : (d.tryReconcile r).2.Coherent := by
  unfold Daemon.tryReconcile
  dsimp only
  split
  · exact h
  · split
    · split <;> exact fun _ => rfl
    · exact fun _ => rfl
  · split
    · exact h
    · split
      · -- the tunnel that goes on runs already
        rename_i routes hroutes running hrunning
        have hsome : d.running ≠ none := fun hnone => by
          rw [hnone] at hrunning
          cases hrunning
        split
        · exact fun hstopped => absurd (h hstopped) hsome
        · exact fun hstopped => absurd (h hstopped) hsome
      · split
        · exact fun _ => rfl
        · exact fun hstopped => (nomatch hstopped)

theorem Coherent.reconcile (h : d.Coherent) : (d.reconcile r).Coherent := by
  have hafter : (d.tryReconcile r).2.Coherent := h.tryReconcile
  unfold Daemon.reconcile
  split
  · rename_i d' hd
    rwa [hd] at hafter
  · rename_i message d' hd
    rw [hd] at hafter
    exact hafter

theorem Coherent.noticeProvisioning (h : d.Coherent) : (d.noticeProvisioning r).Coherent := by
  obtain ⟨d', hnotice, hrunning, hstopped, -, -⟩ := noticeProvisioning_eq r d
  have hcoherent : d'.Coherent := fun hset => hrunning.trans (h (hstopped ▸ hset))
  rw [hnotice]
  split
  · exact Coherent.reconcile (d := { d' with provisioning := none }) hcoherent
  · exact hcoherent

theorem Coherent.check (h : d.Coherent) {first second : Reads} {modified : Option ℕ} :
    (d.check first modified second).Coherent := by
  unfold Daemon.check
  dsimp only
  split
  · exact fun _ => rfl
  · split
    · exact h.noticeProvisioning.reconcile
    · exact h.noticeProvisioning

/-- Behind a tick that leaves a tunnel running the time that was compared, or one read
later, is recorded. -/
theorem check_configModified (h : d.Coherent) {first second : Reads} {modified : Option ℕ}
    (hrunning : (d.check first modified second).running ≠ none) :
    (d.check first modified second).configModified = modified ∨
      (d.check first modified second).configModified = second.modified := by
  have hnoticed : (d.noticeProvisioning first).Coherent := h.noticeProvisioning
  unfold Daemon.check at hrunning ⊢
  dsimp only at hrunning ⊢
  split
  · rename_i error hfatal
    rw [hfatal] at hrunning
    exact absurd rfl hrunning
  · rename_i hfatal
    rw [hfatal] at hrunning
    dsimp only at hrunning
    split
    · exact .inr (reconcile_configModified _ _)
    · rename_i hquiet
      rw [if_neg hquiet] at hrunning
      have hstopped : (d.noticeProvisioning first).stopped = false :=
        Bool.eq_false_iff.mpr fun hset => hrunning (hnoticed hset)
      rw [hstopped] at hquiet
      have hsame : modified = (d.noticeProvisioning first).configModified := by simpa using hquiet
      exact .inl hsame.symm

end Daemon

theorem Watched.coherent_step {s s' : Watched} {a : DaemonEvent} (hs : s.daemon.Coherent)
    (hstep : s.step a = some s') : s'.daemon.Coherent := by
  cases a with
  | start reads | hangup reads =>
    obtain ⟨-, h⟩ := Option.ite_none_right_eq_some.mp hstep
    obtain rfl := Option.some.inj h
    exact Daemon.Coherent.reconcile hs
  | reload reads =>
    obtain ⟨-, h⟩ := Option.ite_none_right_eq_some.mp hstep
    obtain rfl := Option.some.inj h
    exact Daemon.Coherent.reconcile fun hstopped => (nomatch hstopped)
  | tick first modified second =>
    obtain ⟨-, h⟩ := Option.ite_none_right_eq_some.mp hstep
    obtain rfl := Option.some.inj h
    exact hs.check
  | tunnelStops error =>
    obtain ⟨running, hrunning, rfl⟩ := Option.map_eq_some_iff.mp hstep
    exact fun hstopped => absurd ((hs hstopped).symm.trans hrunning) (Option.some_ne_none running).symm
  | stop | terminate | interrupt =>
    obtain ⟨-, h⟩ := Option.ite_none_right_eq_some.mp hstep
    obtain rfl := Option.some.inj h
    exact fun _ => rfl
  | status | resumeFails message | resumeEnds =>
    obtain ⟨-, h⟩ := Option.ite_none_right_eq_some.mp hstep
    obtain rfl := Option.some.inj h
    exact hs

/-- An edit leaves the service alone, and every other event is one of its own. -/
theorem EditedDaemon.watched_step {s s' : EditedDaemon} {a : EditedEvent} (hstep : s.step toml path a = some s') :
    s'.watched = s.watched ∨ ∃ event, s.watched.step event = some s'.watched := by
  obtain ⟨-, hstep⟩ := Option.ite_none_right_eq_some.mp hstep
  cases hevent : a.event toml path s.file with
  | none =>
    rw [hevent] at hstep
    obtain rfl := Option.some.inj hstep
    exact .inl rfl
  | some event =>
    rw [hevent] at hstep
    obtain ⟨watched, hwatched, rfl⟩ := Option.map_eq_some_iff.mp hstep
    exact .inr ⟨event, hwatched⟩

theorem EditedDaemon.coherent_step {s s' : EditedDaemon} {a : EditedEvent} (hs : s.watched.daemon.Coherent)
    (hstep : s.step toml path a = some s') : s'.watched.daemon.Coherent := by
  rcases watched_step hstep with hsame | ⟨event, hevent⟩
  · rw [hsame]
    exact hs
  · exact Watched.coherent_step hs hevent

/-- So an edit waits for the next tick that none falls into and that reads the file's
times: behind it, what runs has the routes in the file, unless an error is reported. -/
theorem quiet_tick_applies {file : Option ConfigFile} {es : List (Lts.Event EditedDaemon EditedEvent)}
    {s t : EditedDaemon} (h : Lts.Run (editedSystem toml path) (.fresh file) es s) {first second : Look}
    (hfirst : first.edits = []) (hsecond : second.edits = []) (hstat : second.statFails = false)
    (hstep : s.step toml path (.tick first [] false [] second) = some t) {running : Daemon.Running}
    (hrunning : t.watched.daemon.running = some running) (hok : t.failed = false) :
    fileRoutes toml path t.file = .ok running.routes := by
  obtain ⟨⟨hsound, hcoherent⟩, -⟩ := h.invariant
    (I := fun s => s.Sound toml path ∧ s.watched.daemon.Coherent) (A := fun _ _ => True)
    (fun _ _ _ hs _ hstep => ⟨hs.1.step hstep, EditedDaemon.coherent_step hs.2 hstep⟩) (fun _ _ => trivial)
    ⟨EditedDaemon.sound_fresh file, fun hstopped => (nomatch hstopped)⟩
  have hend := hsound.step hstep
  obtain ⟨-, hstep⟩ := Option.ite_none_right_eq_some.mp hstep
  obtain ⟨watched, hwatched, rfl⟩ := Option.map_eq_some_iff.mp hstep
  obtain ⟨-, hcheck⟩ := Option.ite_none_right_eq_some.mp hwatched
  obtain rfl := Option.some.inj hcheck
  refine hend.routes running hrunning hok ?_
  have hruns : (s.watched.daemon.check _ _ _).running ≠ none := fun hnone => by
    rw [hnone] at hrunning
    cases hrunning
  have hquiet : editedFile s.file (first.edits ++ []) = s.file := by
    rw [hfirst]
    rfl
  have hfile : editedFile s.file (EditedEvent.tick first [] false [] second).edits = s.file := by
    have hnone : (EditedEvent.tick first [] false [] second).edits = [] := by
      simp [EditedEvent.edits, hfirst, hsecond]
    rw [hnone]
    rfl
  rw [hfile]
  rcases Daemon.check_configModified hcoherent hruns with hcompared | hread
  · rw [hcompared, hquiet]
    rfl
  · rw [hread, hquiet]
    unfold Look.reads readModified
    rw [hstat]
    rfl

end

/-! ### A run -/

/-- A tunnel is there and connects. -/
def servingLook : Look where
  statFails := false
  edits := []
  readFails := none
  identity := .ok (some ⟨"demo", "demo.shuv.zip", "token", "KEY", "CERT", "CHAIN", "2026-01-01T00:00:00.000Z"⟩)
  pending := .ok false
  connect := .ok ()
  setRoutes := .ok ()

/-- The file as `save` writes it. -/
def savedFile (time : ℕ) (config : Config) : ConfigFile := ⟨time, config.print⟩

/-- The second edit falls between the two reads of a reload; the tick after it loads it again. -/
def editedRun : List EditedEvent :=
  [.start servingLook, .edit (savedFile 1 apiConfig), .reload { servingLook with edits := [savedFile 2 webConfig] },
    .tick servingLook [] false [] servingLook]

theorem editedRun_ends : ∃ t, (editedSystem (.on [apiConfig, webConfig]) "demo.toml").exec (.fresh none) editedRun =
      some t ∧
    t.watched.daemon.running.map (·.routes) = some webConfig.routes ∧ t.failed = false ∧
    t.watched.daemon.configModified = Config.modified t.file := by
  refine ⟨_, rfl, ?_, ?_, ?_⟩
  · decide
  · decide
  · decide

/-- The tunnel has the routes of the second edit. -/
theorem no_edit_unnoticed_reload : ∃ t running, (editedSystem (.on [apiConfig, webConfig]) "demo.toml").exec
      (.fresh none) editedRun = some t ∧ t.watched.daemon.running = some running ∧
    running.routes = webConfig.routes ∧
    fileRoutes (.on [apiConfig, webConfig]) "demo.toml" t.file = .ok running.routes := by
  obtain ⟨t, hexec, hroutes, hok, hsame⟩ := editedRun_ends
  obtain ⟨running, hrunning, hroutes⟩ := Option.map_eq_some_iff.mp hroutes
  exact ⟨t, running, hexec, hrunning, hroutes, no_edit_unnoticed (.of_exec hexec) hrunning hok hsame⟩

end ShuvTunnel
