/-
# Route commands of several processes

`shuvtunnel route add` and `route remove` read the config file of a profile, edit
its routes in memory and write the whole file back. Nothing keeps two processes
from doing so at the same time: a command writes what it makes of the file it read,
and takes back what others have written since. What is left is a run, one after the
other, of some of the commands, the last writer among them.

Key definitions: `RouteCommand.edited`, `routeSystem`, `serial`, `Writes`, `Undisturbed`.
Key theorems: `Pending.step`, `Chained.step`, `route_edits_chained`,
`not_route_edits_serializable`.
-/
import ShuvTunnel.Config
import ShuvTunnel.Lib.Lts
import Mathlib.Logic.Function.Basic
import Mathlib.Data.List.Permutation

namespace ShuvTunnel

/-! ### The commands -/

/-- `route add` and `route remove`, with their arguments. -/
inductive RouteCommand
  | add (name target : String)
  | remove (name : String)
  deriving DecidableEq

namespace RouteCommand

/-- What a command does before it reads anything. -/
def prepare : RouteCommand → Except String RouteCommand
  | add name target =>
    let target := Config.normalize_target target
    (Config.validate name target).map fun () => add name target
  | remove name => .ok (remove name)

/-- What a command makes of the configuration, or the error it ends with. -/
def edit (profile : String) (config : Config) : RouteCommand → Except String Config
  | add name target => .ok ⟨config.routes.insert name target⟩
  | remove name =>
    match config.routes.remove name with
    | none => .error ("no route named '" ++ name ++ "' in profile " ++ profile)
    | some (_, routes) => .ok ⟨routes⟩

variable (toml : Toml) (path profile : String)

/-- The config that a command goes on to save, from what reading the file comes to. -/
def edited (command : RouteCommand) (read : Except ReadError String) : Except String Config :=
  match command.prepare with
  | .error message => .error message
  | .ok command =>
    match Config.load toml path read with
    | .error message => .error message
    | .ok config => command.edit profile config

/-- The file behind a command that nothing disturbs, if it succeeds. -/
def run (content : Option String) (command : RouteCommand) : Option (Option String) :=
  match command.edited toml path profile (Config.read content) with
  | .error _ => none
  | .ok config => some (Config.save toml none config content).2

end RouteCommand

/-- Commands one after the other, all of which succeed. -/
def serial (toml : Toml) (path profile : String) (order : List RouteCommand) (content : Option String) :
    Option (Option String) :=
  order.foldlM (RouteCommand.run toml path profile) content

/-! ### The processes -/

/-- Where a process is. `seen` is how often the file had been written when it read it. -/
inductive RouteStage
  | reading (command : RouteCommand)
  | writing (command : RouteCommand) (config : Config) (seen : ℕ)
  -- `up`, or `reload_if_running`
  | applying (command : RouteCommand)
  | done (command : RouteCommand) (result : Except String Unit)

/-- The version of the file that a process has read and not yet written over. -/
def RouteStage.seen : RouteStage → Option ℕ
  | .writing _ _ seen => some seen
  | _ => none

/-- The file, how often it was written, and the processes with their numbers. -/
structure RouteProcesses where
  content : Option String
  writes : ℕ
  stages : ℕ → Option RouteStage

/-- The steps of the processes; a failure is given with what it leaves of the
message. -/
inductive RouteLabel
  | start (p : ℕ) (command : RouteCommand)
  -- `client.get` fails
  | refuse (p : ℕ) (message : String)
  | read (p : ℕ) (failure : Option String)
  | write (p : ℕ) (failure : Option String)
  | apply (p : ℕ) (result : Except String Unit)

namespace RouteProcesses

/-- A process comes to a stage. -/
def enter (s : RouteProcesses) (p : ℕ) (stage : RouteStage) : RouteProcesses :=
  { s with stages := Function.update s.stages p (some stage) }

/-- What a step does; reading and writing the file are steps of their own. -/
def step (toml : Toml) (path profile : String) (s : RouteProcesses) : RouteLabel → Option RouteProcesses
  | .start p command => if (s.stages p).isNone then some (s.enter p (.reading command)) else none
  | .refuse p message =>
    match s.stages p with
    | some (.reading command) => some (s.enter p (.done command (.error message)))
    | _ => none
  | .read p failure =>
    match s.stages p with
    | some (.reading command) =>
      let read := match failure with
        | some message => .error (.failed message)
        | none => Config.read s.content
      match command.edited toml path profile read with
      | .error message => some (s.enter p (.done command (.error message)))
      | .ok config => some (s.enter p (.writing command config s.writes))
    | _ => none
  | .write p failure =>
    match s.stages p with
    | some (.writing command config _) =>
      match Config.save toml failure config s.content with
      | (.error message, content) => some ({ s with content }.enter p (.done command (.error message)))
      | (.ok (), content) => some ({ s with content, writes := s.writes + 1 }.enter p (.applying command))
    | _ => none
  | .apply p result =>
    match s.stages p with
    | some (.applying command) => some (s.enter p (.done command result))
    | _ => none

/-- The file, before any process is started. -/
def fresh (content : Option String) : RouteProcesses := ⟨content, 0, fun _ => none⟩

end RouteProcesses

/-- The processes and the file they share. -/
def routeSystem (toml : Toml) (path profile : String) : Lts.System RouteProcesses RouteLabel :=
  ⟨RouteProcesses.step toml path profile⟩

/-- A step of the processes, with the states around it. -/
abbrev RouteEvent := Lts.Event RouteProcesses RouteLabel

/-- The command that a step writes for. -/
def RouteEvent.saved (e : RouteEvent) : Option RouteCommand :=
  match e.label with
  | .write p none =>
    match e.before.stages p with
    | some (.writing command _ _) => some command
    | _ => none
  | _ => none

/-- The command that a step ends without an error. -/
def RouteEvent.succeeded (e : RouteEvent) : Option RouteCommand :=
  match e.label with
  | .apply p (.ok ()) =>
    match e.before.stages p with
    | some (.applying command) => some command
    | _ => none
  | _ => none

/-- The commands that wrote the file, in the order in which they did. -/
def saves (es : List RouteEvent) : List RouteCommand := es.filterMap RouteEvent.saved

/-- The commands that ended without an error, in the order in which they did. -/
def successes (es : List RouteEvent) : List RouteCommand := es.filterMap RouteEvent.succeeded

/-- What a process that writes had seen. -/
def RouteLabel.seen (s : RouteProcesses) : RouteLabel → Option ℕ
  | .write p _ => (s.stages p).bind RouteStage.seen
  | _ => none

/-- A process that writes has read what is in the file. -/
def Undisturbed (s : RouteProcesses) (a : RouteLabel) : Prop := ∀ seen ∈ a.seen s, seen = s.writes

instance (s : RouteProcesses) (a : RouteLabel) : Decidable (Undisturbed s a) :=
  inferInstanceAs (Decidable (∀ seen ∈ a.seen s, seen = s.writes))

/-! ### What a step does -/

section

variable {toml : Toml} {path profile : String}

/-- A command whose read fails saves nothing. -/
theorem RouteCommand.edited_failed (command : RouteCommand) (message : String) (config : Config) :
    command.edited toml path profile (.error (.failed message)) ≠ .ok config := by
  unfold RouteCommand.edited
  split
  · simp
  · simp [Config.load]

namespace RouteProcesses

variable {s s' : RouteProcesses} {a : RouteLabel}

/-- Another process is where it was. -/
theorem stages_enter {p q : ℕ} {stage stage' : RouteStage} (h : (s.enter p stage).stages q = some stage') :
    stage' = stage ∨ s.stages q = some stage' := by
  by_cases hq : q = p
  · subst hq
    left
    simpa [enter, eq_comm] using h
  · right
    simpa [enter, hq] using h

/-- A step reads the file for a command that goes on to write, or writes it, or does neither. -/
theorem step_cases (h : s.step toml path profile a = some s') :
    (∃ p command config, a = .read p none ∧ s.stages p = some (.reading command) ∧
      command.edited toml path profile (Config.read s.content) = .ok config ∧
      s' = s.enter p (.writing command config s.writes)) ∨
    (∃ p command config seen, a = .write p none ∧ s.stages p = some (.writing command config seen) ∧
      s' = { s with content := some (toml.to_string config), writes := s.writes + 1 }.enter p (.applying command)) ∨
    (∃ p stage, (∀ command config seen, stage ≠ .writing command config seen) ∧ (∀ q, a ≠ .write q none) ∧
      s' = s.enter p stage) := by
  cases a with
  | start p command =>
    obtain ⟨-, h⟩ := Option.ite_none_right_eq_some.mp h
    exact .inr (.inr ⟨p, .reading command, by simp, by simp, (Option.some.inj h).symm⟩)
  | refuse p message =>
    simp only [step] at h
    split at h
    · rename_i command _
      exact .inr (.inr ⟨p, .done command (.error message), by simp, by simp, (Option.some.inj h).symm⟩)
    · cases h
  | read p failure =>
    simp only [step] at h
    split at h
    · rename_i command hstage
      split at h
      · rename_i message _
        exact .inr (.inr ⟨p, .done command (.error message), by simp, by simp, (Option.some.inj h).symm⟩)
      · rename_i config hedited
        cases failure with
        | some message => exact absurd hedited (command.edited_failed message config)
        | none => exact .inl ⟨p, command, config, rfl, hstage, hedited, (Option.some.inj h).symm⟩
    · cases h
  | write p failure =>
    simp only [step] at h
    split at h
    · rename_i command config seen hstage
      cases failure with
      | some message =>
        exact .inr (.inr ⟨p, .done command (.error message), by simp, by simp, (Option.some.inj h).symm⟩)
      | none => exact .inr (.inl ⟨p, command, config, seen, rfl, hstage, (Option.some.inj h).symm⟩)
    · cases h
  | apply p result =>
    simp only [step] at h
    split at h
    · rename_i command _
      exact .inr (.inr ⟨p, .done command result, by simp, by simp, (Option.some.inj h).symm⟩)
    · cases h

end RouteProcesses

theorem saved_eq_none {e : RouteEvent} (h : ∀ p, e.label ≠ .write p none) : RouteEvent.saved e = none := by
  unfold RouteEvent.saved
  split
  · rename_i p hlabel
    exact absurd hlabel (h p)
  · rfl

theorem saves_append_of_quiet {es : List RouteEvent} {e : RouteEvent} (h : ∀ p, e.label ≠ .write p none) :
    saves (es ++ [e]) = saves es := by
  rw [saves, List.filterMap_append, List.filterMap_cons, saved_eq_none h]
  simp [saves]

theorem saves_append_write {es : List RouteEvent} {s s' : RouteProcesses} {p seen : ℕ} {command : RouteCommand}
    {config : Config} (h : s.stages p = some (.writing command config seen)) :
    saves (es ++ [⟨s, .write p none, s'⟩]) = saves es ++ [command] := by
  simp [saves, RouteEvent.saved, h]

theorem serial_append (order : List RouteCommand) (command : RouteCommand) (content : Option String) :
    serial toml path profile (order ++ [command]) content =
      (serial toml path profile order content).bind fun content => command.run toml path profile content := by
  simp [serial, List.foldlM_append]

/-- A command that edits what it reads is run by writing that. -/
theorem RouteCommand.run_of_edited {command : RouteCommand} {content : Option String} {config : Config}
    (h : command.edited toml path profile (Config.read content) = .ok config) :
    command.run toml path profile content = some (some (toml.to_string config)) := by
  simp [RouteCommand.run, h, Config.save]

/-! ### Chains of commands -/

/-- The content that some of the commands that wrote make, one after the other,
the last of them the last that wrote. -/
def Makes (toml : Toml) (path profile : String) (start : Option String) (written : List RouteCommand)
    (content : Option String) : Prop :=
  ∃ order : List RouteCommand, order.Sublist written ∧ order.getLast? = written.getLast? ∧
    serial toml path profile order start = some content

/-- The file is such a content, and each config to be written was made from one. -/
structure Chained (toml : Toml) (path profile : String) (start : Option String) (es : List RouteEvent)
    (s : RouteProcesses) : Prop where
  makes : Makes toml path profile start (saves es) s.content
  pending : ∀ p command config seen, s.stages p = some (.writing command config seen) →
    ∃ order content, order.Sublist (saves es) ∧ serial toml path profile order start = some content ∧
      command.edited toml path profile (Config.read content) = .ok config

/-- The file is what the commands make in the order of their writes, and a config
to be written was made from it, unless the file was written since. -/
structure Consecutive (toml : Toml) (path profile : String) (start : Option String) (es : List RouteEvent)
    (s : RouteProcesses) : Prop where
  makes : serial toml path profile (saves es) start = some s.content
  bound : ∀ p command config seen, s.stages p = some (.writing command config seen) → seen ≤ s.writes
  pending : ∀ p command config, s.stages p = some (.writing command config s.writes) →
    command.edited toml path profile (Config.read s.content) = .ok config

variable {start : Option String} {es : List RouteEvent} {s s' : RouteProcesses} {a : RouteLabel}

open RouteProcesses

theorem Chained.step (hs : Chained toml path profile start es s) (hstep : s.step toml path profile a = some s') :
    Chained toml path profile start (es ++ [⟨s, a, s'⟩]) s' := by
  rcases step_cases hstep with ⟨p, command, config, rfl, -, hedited, rfl⟩ |
    ⟨p, command, config, seen, rfl, hstage, rfl⟩ | ⟨p, stage, hstage, hquiet, rfl⟩
  · -- what it is to write is made from what is in the file now
    obtain ⟨order, hsub, hlast, hserial⟩ := hs.makes
    refine ⟨?_, fun q command' config' seen' hq => ?_⟩
    · rw [saves_append_of_quiet (by simp)]
      exact ⟨order, hsub, hlast, hserial⟩
    · rw [saves_append_of_quiet (by simp)]
      rcases stages_enter hq with hnew | hold
      · obtain ⟨rfl, rfl, -⟩ := RouteStage.writing.inj hnew
        exact ⟨order, s.content, hsub, hserial, hedited⟩
      · exact hs.pending q command' config' seen' hold
  · -- the chain goes on from what it has read, whatever was written since
    obtain ⟨order, content, hsub, hserial, hedited⟩ := hs.pending p command config seen hstage
    refine ⟨⟨order ++ [command], ?_, ?_, ?_⟩, fun q command' config' seen' hq => ?_⟩
    · rw [saves_append_write hstage]
      exact hsub.append (List.Sublist.refl _)
    · rw [saves_append_write hstage, List.getLast?_concat, List.getLast?_concat]
    · rw [serial_append, hserial, Option.bind_some, RouteCommand.run_of_edited hedited]
      rfl
    · rw [saves_append_write hstage]
      rcases stages_enter hq with hnew | hold
      · cases hnew
      · obtain ⟨order', content', hsub', h'⟩ := hs.pending q command' config' seen' hold
        exact ⟨order', content', hsub'.trans (List.sublist_append_left _ _), h'⟩
  · refine ⟨?_, fun q command' config' seen' hq => ?_⟩
    · rw [saves_append_of_quiet hquiet]
      exact hs.makes
    · rw [saves_append_of_quiet hquiet]
      rcases stages_enter hq with hnew | hold
      · exact absurd hnew.symm (hstage command' config' seen')
      · exact hs.pending q command' config' seen' hold

theorem Consecutive.step (hs : Consecutive toml path profile start es s) (hundisturbed : Undisturbed s a)
    (hstep : s.step toml path profile a = some s') :
    Consecutive toml path profile start (es ++ [⟨s, a, s'⟩]) s' := by
  rcases step_cases hstep with ⟨p, command, config, rfl, -, hedited, rfl⟩ |
    ⟨p, command, config, seen, rfl, hstage, rfl⟩ | ⟨p, stage, hstage, hquiet, rfl⟩
  · refine ⟨?_, fun q command' config' seen' hq => ?_, fun q command' config' hq => ?_⟩
    · rw [saves_append_of_quiet (by simp)]
      exact hs.makes
    · rcases stages_enter hq with hnew | hold
      · exact (RouteStage.writing.inj hnew).2.2.le
      · exact hs.bound q command' config' seen' hold
    · rcases stages_enter hq with hnew | hold
      · obtain ⟨rfl, rfl, -⟩ := RouteStage.writing.inj hnew
        exact hedited
      · exact hs.pending q command' config' hold
  · -- it has read what is in the file, and the others have read an older one
    obtain rfl : seen = s.writes := hundisturbed seen (by rw [RouteLabel.seen, hstage]; rfl)
    refine ⟨?_, fun q command' config' seen' hq => ?_, fun q command' config' hq => ?_⟩
    · rw [saves_append_write hstage, serial_append, hs.makes, Option.bind_some,
        RouteCommand.run_of_edited (hs.pending p command config hstage)]
      rfl
    · rcases stages_enter hq with hnew | hold
      · cases hnew
      · exact (hs.bound q command' config' seen' hold).trans (Nat.le_succ _)
    · rcases stages_enter hq with hnew | hold
      · cases hnew
      · exact absurd (hs.bound q command' config' _ hold) (Nat.not_succ_le_self _)
  · refine ⟨?_, fun q command' config' seen' hq => ?_, fun q command' config' hq => ?_⟩
    · rw [saves_append_of_quiet hquiet]
      exact hs.makes
    · rcases stages_enter hq with hnew | hold
      · exact absurd hnew.symm (hstage command' config' seen')
      · exact hs.bound q command' config' seen' hold
    · rcases stages_enter hq with hnew | hold
      · exact absurd hnew.symm (hstage command' config' _)
      · exact hs.pending q command' config' hold

/-! ### Each write -/

/-- The write `e`, behind the events `past`, is `command` applied to the file as `r`, the
read of its process, found it; and so to the file just before, where nobody wrote in
between. -/
def Writes (toml : Toml) (path profile : String) (past : List RouteEvent) (e : RouteEvent) (command : RouteCommand) :
    Prop :=
  ∃ before r between p, past = before ++ r :: between ∧ r.label = .read p none ∧
    r.before.stages p = some (.reading command) ∧ e.label = .write p none ∧
      command.run toml path profile r.before.content = some e.after.content ∧
        ((∀ x ∈ between, RouteEvent.saved x = none) →
          command.run toml path profile e.before.content = some e.after.content)

/-- A config to be written is what the command makes of the file as it was read, which
is the file as it is unless somebody wrote since. -/
def Pending (toml : Toml) (path profile : String) (es : List RouteEvent) (s : RouteProcesses) : Prop :=
  ∀ p command config seen, s.stages p = some (.writing command config seen) →
    ∃ before r between, es = before ++ r :: between ∧ r.label = .read p none ∧
      r.before.stages p = some (.reading command) ∧
        command.edited toml path profile (Config.read r.before.content) = .ok config ∧
          ((∀ x ∈ between, RouteEvent.saved x = none) → r.before.content = s.content)

/-- What was pending is pending behind one more step, that may write. -/
theorem Pending.later (hs : Pending toml path profile es s) (e : RouteEvent)
    (hquiet : RouteEvent.saved e = none → s'.content = s.content) {p seen : ℕ} {command : RouteCommand} {config : Config}
    (hp : s.stages p = some (.writing command config seen)) :
    ∃ before r between, es ++ [e] = before ++ r :: between ∧ r.label = .read p none ∧
      r.before.stages p = some (.reading command) ∧
        command.edited toml path profile (Config.read r.before.content) = .ok config ∧
          ((∀ x ∈ between, RouteEvent.saved x = none) → r.before.content = s'.content) := by
  obtain ⟨before, r, between, hes, hlabel, hreading, hedited, hsame⟩ := hs p command config seen hp
  refine ⟨before, r, between ++ [e], ?_, hlabel, hreading, hedited, fun hnone => ?_⟩
  · rw [hes, List.append_assoc, List.cons_append]
  · rw [hsame fun x hx => hnone x (List.mem_append_left _ hx),
      hquiet (hnone e (List.mem_append_right _ (List.mem_singleton.mpr rfl)))]

theorem Pending.step (hs : Pending toml path profile es s) (hstep : s.step toml path profile a = some s') :
    Pending toml path profile (es ++ [⟨s, a, s'⟩]) s' := by
  rcases step_cases hstep with ⟨p, command, config, rfl, hreading, hedited, rfl⟩ |
    ⟨p, command, config, seen, rfl, hstage, rfl⟩ | ⟨p, stage, hstage, hquiet, rfl⟩
  · intro q command' config' seen' hq
    by_cases hqp : q = p
    · subst hqp
      obtain ⟨rfl, rfl, -⟩ : command' = command ∧ config' = config ∧ seen' = s.writes := by
        simpa [enter, eq_comm] using hq
      exact ⟨es, _, [], rfl, rfl, hreading, hedited, fun _ => rfl⟩
    · exact hs.later _ (fun _ => rfl) (by simpa [enter, hqp] using hq)
  · intro q command' config' seen' hq
    rcases stages_enter hq with hnew | hold
    · cases hnew
    · refine hs.later _ (fun hnone => ?_) hold
      simp [RouteEvent.saved, hstage] at hnone
  · intro q command' config' seen' hq
    rcases stages_enter hq with hnew | hold
    · exact absurd hnew.symm (hstage command' config' seen')
    · exact hs.later _ (fun _ => rfl) hold

/-- A step leaves the file alone, or writes it for a command that read it. -/
theorem Pending.writes (hs : Pending toml path profile es s) (hstep : s.step toml path profile a = some s') :
    RouteEvent.saved ⟨s, a, s'⟩ = none ∧ s'.content = s.content ∨
      ∃ command, RouteEvent.saved ⟨s, a, s'⟩ = some command ∧ Writes toml path profile es ⟨s, a, s'⟩ command := by
  rcases step_cases hstep with ⟨p, command, config, rfl, -, -, rfl⟩ |
    ⟨p, command, config, seen, rfl, hstage, rfl⟩ | ⟨p, stage, -, hquiet, rfl⟩
  · exact .inl ⟨saved_eq_none (by simp), rfl⟩
  · obtain ⟨before, r, between, hes, hlabel, hreading, hedited, hsame⟩ := hs p command config seen hstage
    have hrun := RouteCommand.run_of_edited hedited
    refine .inr ⟨command, by simp [RouteEvent.saved, hstage], before, r, between, p, hes, hlabel, hreading, rfl,
      hrun, fun hnone => ?_⟩
    rw [← hsame hnone]
    exact hrun
  · exact .inl ⟨saved_eq_none hquiet, rfl⟩

/-- In every interleaving each step leaves the file alone or writes what a command makes
of the file it read. So in the end the file is what some of the commands that wrote it
make, one after the other in the order of their writes, the last writer among them.
Where each command that writes has read what is in the file, it is what all of them
make. -/
theorem route_edits_chained {t : RouteProcesses}
    (h : Lts.Run (routeSystem toml path profile) (.fresh start) es t) :
    (∀ past e rest, es = past ++ e :: rest → RouteEvent.saved e = none ∧ e.after.content = e.before.content ∨
      ∃ command, RouteEvent.saved e = some command ∧ Writes toml path profile past e command) ∧
    Makes toml path profile start (saves es) t.content ∧
    ((∀ e ∈ es, Undisturbed e.before e.label) → serial toml path profile (saves es) start = some t.content) := by
  refine ⟨?_, ?_, ?_⟩
  · rintro past e rest rfl
    obtain ⟨hpast, hstep⟩ := h.at
    refine Pending.writes (hpast.history (I := Pending toml path profile) (A := fun _ _ => True)
      (fun _ _ _ _ hs _ hstep => hs.step hstep) (fun _ _ => trivial) ?_) hstep
    exact fun p command config seen hp => (nomatch hp)
  · refine (h.history (I := Chained toml path profile start) (A := fun _ _ => True)
      (fun _ _ _ _ hs _ hstep => hs.step hstep) (fun _ _ => trivial) ⟨⟨[], ?_, rfl, rfl⟩, ?_⟩).makes
    · exact List.nil_sublist _
    · exact fun p command config seen hp => (nomatch hp)
  · intro hundisturbed
    refine (h.history (I := Consecutive toml path profile start) (A := Undisturbed)
      (fun _ _ _ _ hs hundisturbed hstep => hs.step hundisturbed hstep) hundisturbed ⟨rfl, ?_, ?_⟩).makes
    · exact fun p command config seen hp => (nomatch hp)
    · exact fun p command config hp => (nomatch hp)

end

/-! ### Two commands -/

/-- A command that adds a route. -/
def addApi : RouteCommand := .add "api" "3000"

/-- One that adds another. -/
def addWeb : RouteCommand := .add "web" "4000"

/-- The routes of both. -/
def bothConfig : Config := ⟨apiConfig.routes ++ webConfig.routes⟩

/-- The format of the files in the run. -/
def bothToml : Toml := .on [apiConfig, webConfig, bothConfig]

/-- The processes of the run. -/
abbrev bothSystem : Lts.System RouteProcesses RouteLabel := routeSystem bothToml "demo.toml" "demo"

/-- The second reads what the first has written. -/
def followingRun : List RouteLabel :=
  [.start 0 addApi, .start 1 addWeb, .read 0 none, .write 0 none, .read 1 none, .apply 0 (.ok ()), .write 1 none,
    .apply 1 (.ok ())]

theorem followingRun_ends : ∃ t, bothSystem.exec (.fresh none) followingRun = some t ∧
    saves (bothSystem.trace (.fresh none) followingRun) = [addApi, addWeb] ∧
    (∀ e ∈ bothSystem.trace (.fresh none) followingRun, Undisturbed e.before e.label) ∧
    t.content = some bothConfig.print :=
  ⟨_, rfl, rfl, by decide, rfl⟩

/-- The second and the third read what the first has written, and the third takes back
what the second wrote; the last reads what the third has written. -/
def takingBackRun : List RouteLabel :=
  [.start 0 addApi, .read 0 none, .write 0 none, .start 1 addWeb, .start 2 addApi, .read 1 none, .read 2 none,
    .write 1 none, .write 2 none, .start 3 addWeb, .read 3 none, .write 3 none]

theorem takingBackRun_ends : ∃ t, bothSystem.exec (.fresh none) takingBackRun = some t ∧
    saves (bothSystem.trace (.fresh none) takingBackRun) = [addApi, addWeb, addApi, addWeb] ∧
    t.content = some bothConfig.print :=
  ⟨_, rfl, rfl, rfl⟩

theorem route_edits_chained_following :
    (∃ t : RouteProcesses, t.content = some bothConfig.print ∧
      serial bothToml "demo.toml" "demo" [addApi, addWeb] none = some t.content) ∧
    ∃ (es : List RouteEvent) (t : RouteProcesses),
      es.map (·.label) = takingBackRun ∧ t.content = some bothConfig.print ∧
      (∀ past e rest, es = past ++ e :: rest → RouteEvent.saved e = none ∧ e.after.content = e.before.content ∨
        ∃ command, RouteEvent.saved e = some command ∧ Writes bothToml "demo.toml" "demo" past e command) ∧
      Makes bothToml "demo.toml" "demo" none [addApi, addWeb, addApi, addWeb] t.content := by
  constructor
  · obtain ⟨t, hexec, hsaves, hundisturbed, hcontent⟩ := followingRun_ends
    obtain ⟨-, -, hall⟩ := route_edits_chained (.of_exec hexec)
    rw [hsaves] at hall
    exact ⟨t, hcontent, hall hundisturbed⟩
  · obtain ⟨t, hexec, hsaves, hcontent⟩ := takingBackRun_ends
    obtain ⟨hwrites, hmakes, -⟩ := route_edits_chained (.of_exec hexec)
    rw [hsaves] at hmakes
    exact ⟨_, t, Lts.map_label_trace hexec, hcontent, hwrites, hmakes⟩

/-- Both read that there is no file. -/
def overlapRun : List RouteLabel :=
  [.start 0 addApi, .start 1 addWeb, .read 0 none, .read 1 none, .write 0 none, .write 1 none,
    .apply 0 (.ok ()), .apply 1 (.ok ())]

theorem overlapRun_ends : ∃ t, bothSystem.exec (.fresh none) overlapRun = some t ∧
    successes (bothSystem.trace (.fresh none) overlapRun) = [addApi, addWeb] ∧ t.content = some webConfig.print :=
  ⟨_, rfl, rfl, rfl⟩

/-- Its file, read again. -/
theorem load_overlapRun : Config.load bothToml "demo.toml" (Config.read (some webConfig.print)) = .ok webConfig := by
  decide

theorem serial_overlapRun : ∀ order ∈ [[addApi, addWeb], [addWeb, addApi]],
    (serial bothToml "demo.toml" "demo" order none).map (fun content =>
      Config.load bothToml "demo.toml" (Config.read content)) = some (.ok bothConfig) := by
  decide

/-- The last that writes takes the other's route back: no order of the two commands
ends so, and one of two routes that were added is not there. -/
theorem not_route_edits_serializable :
    (¬ ∀ (toml : Toml) (path profile : String) (start : Option String) (es : List RouteEvent) (t : RouteProcesses),
      Lts.Run (routeSystem toml path profile) (.fresh start) es t →
      ∃ order : List RouteCommand, order.Perm (successes es) ∧
        (serial toml path profile order start).map (fun content => Config.load toml path (Config.read content)) =
          some (Config.load toml path (Config.read t.content))) ∧
    ¬ ∀ (toml : Toml) (path profile : String) (start : Option String) (es : List RouteEvent) (t : RouteProcesses)
        (name target name' target' : String),
      Lts.Run (routeSystem toml path profile) (.fresh start) es t → name ≠ name' →
      successes es = [.add name target, .add name' target'] →
      ∃ config, Config.load toml path (Config.read t.content) = .ok config ∧
        (config.routes.lookup name).isSome = true ∧ (config.routes.lookup name').isSome = true := by
  obtain ⟨t, hexec, hsuccesses, hcontent⟩ := overlapRun_ends
  constructor
  · intro h
    obtain ⟨order, hperm, hserial⟩ := h _ _ _ _ _ t (.of_exec hexec)
    rw [hsuccesses] at hperm
    have horder : order ∈ [[addApi, addWeb], [addWeb, addApi]] := by simpa using List.perm_pair.mp hperm
    rw [hcontent, load_overlapRun, serial_overlapRun order horder] at hserial
    revert hserial
    decide
  · intro h
    obtain ⟨config, hload, hapi, -⟩ := h _ _ _ _ _ t "api" "3000" "web" "4000" (.of_exec hexec) (by decide) hsuccesses
    rw [hcontent, load_overlapRun] at hload
    obtain rfl := Except.ok.inj hload
    revert hapi
    decide

end ShuvTunnel
