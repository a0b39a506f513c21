/-
# Closing a tunnel

`Tunnel::close` and `close()` stop the supervisor of the sessions and wait for it.
Beside it a task asks for renewed certificates. Rust's looks at `shutdown` only
while it sleeps, TypeScript's only before a request and after it, and neither is
waited for: a request that is under way then may still be answered by a
renewed certificate, which is saved and announced.

A save is its file operations one by one; in TypeScript the writes come in any
order. `effects` are the operations done and the events emitted so far.

Key definitions: `Rust.Closing`, `Rust.closeSystem`, `Rust.Closing.Calm`, `Closing`,
`closeSystem`, `Closing.Calm`.
Key theorems: `Rust.Closing.exec_iteration`, `Rust.Closing.quiescent_of_run`,
`closing_quiescent`.
-/
import ShuvTunnel.HotSwap

namespace ShuvTunnel

/-- The events of a tunnel, as far as they differ here. -/
inductive TunnelEvent
  -- one of the sessions, or of the connecting
  | session
  | certificateRenewed (expiry : String)
  | stopped

/-- What a tunnel does to the storage and tells its listeners. -/
inductive Outward
  | wrote (op : Op)
  | emitted (event : TunnelEvent)

/-! ### Rust -/

namespace Rust

/-- Where `refresh_certificate` is. -/
inductive RefreshStage
  -- between two requests, or before the first
  | waiting (first : Bool)
  | requesting
  | saving (renewed : Identity) (done : ℕ)
  | announcing (renewed : Identity)
  | returned

/-- A renewed certificate is being stored or announced. -/
def RefreshStage.renewing : RefreshStage → Bool
  | saving .. | announcing _ => true
  | waiting _ | requesting | returned => false

/-- A `Tunnel` and its two tasks: `joinable` says that the handle of the supervisor
is still there, `closed` that `close` has resolved. -/
structure Closing (α : Type) where
  stage : RefreshStage
  refresher : Refresher α
  supervising : Bool
  joinable : Bool
  shutdown : Bool
  closed : Bool
  effects : List Outward

/-- What happens to a tunnel, from within and by its owner. -/
inductive CloseEvent
  | emit
  | stop
  -- a `wait` that is given up
  | abandon
  | close
  | resolve
  | request
  -- `shutdown.changed()`
  | notice
  | answered (answer : CertificateAnswer)
  | write
  | saveFails
  | announce
  -- `Storage::remove`
  | remove

namespace Closing

variable {α : Type} (acceptor : Identity → Option α)

/-- The event goes out. -/
def emits (event : TunnelEvent) (s : Closing α) : Closing α := { s with effects := s.effects ++ [.emitted event] }

/-- The acceptor is exchanged, and the identity is saved where there is a storage. -/
def renew (renewed : Identity) (next : α) (s : Closing α) : Closing α :=
  { s with
    stage := if s.refresher.storage.isSome then .saving renewed 0 else .announcing renewed
    refresher := { s.refresher with acceptor := next, built := s.refresher.built ++ [renewed] } }

/-- What a step does; the refresher and the supervisor are tasks of their own. -/
def step (s : Closing α) : CloseEvent → Option (Closing α)
  | .emit => if s.supervising then some (s.emits .session) else none
  | .stop => if s.supervising then some ({ s with supervising := false }.emits .stopped) else none
  | .abandon => if s.shutdown then none else some { s with joinable := false }
  | .close => if s.shutdown then none else some { s with shutdown := true }
  | .resolve => if s.shutdown && !(s.joinable && s.supervising) then some { s with closed := true } else none
  -- where both branches of `select!` are ready, either is taken
  | .request =>
    match s.stage with
    | .waiting _ => some { s with stage := .requesting }
    | _ => none
  | .notice =>
    match s.stage with
    | .waiting false => if s.shutdown then some { s with stage := .returned } else none
    | _ => none
  | .answered answer =>
    match s.stage with
    | .requesting =>
      match s.refresher.identity.renewedBy answer with
      | none => some { s with stage := .waiting false }
      | some renewed =>
        match acceptor renewed with
        | none => some { s with stage := .waiting false }
        | some next => some (s.renew renewed next)
    | _ => none
  | .write =>
    match s.stage with
    | .saving renewed done =>
      ((saveOps renewed)[done]?).map fun op =>
        { s with
          stage := if done + 1 < (saveOps renewed).length then .saving renewed (done + 1) else .announcing renewed
          refresher := { s.refresher with storage := s.refresher.storage.map fun d => (d.1, op.apply d.2) }
          effects := s.effects ++ [.wrote op] }
    | _ => none
  | .saveFails =>
    match s.stage with
    | .saving renewed _ => some { s with stage := .announcing renewed }
    | _ => none
  | .announce =>
    match s.stage with
    | .announcing renewed =>
      some ({ s with
        stage := .waiting false
        refresher := { s.refresher with
          identity := renewed
          renewed := s.refresher.renewed ++ [renewed.certificateExpiry] } }.emits
        (.certificateRenewed renewed.certificateExpiry))
    | _ => none
  | .remove =>
    some { s with refresher := { s.refresher with storage := s.refresher.storage.map fun d => (d.1, fun _ => none) } }

end Closing

/-- The tunnel of the Rust client. -/
def closeSystem {α : Type} (acceptor : Identity → Option α) : Lts.System (Closing α) CloseEvent :=
  ⟨Closing.step acceptor⟩

/-- `Tunnel::start`. -/
def Closing.start {α : Type} (refresher : Refresher α) : Closing α where
  stage := .waiting true
  refresher := refresher
  supervising := true
  joinable := true
  shutdown := false
  closed := false
  effects := []

/-- Nothing is in the directory of the profile. -/
def Closing.Emptied {α : Type} (s : Closing α) : Prop :=
  ∀ profile dir, s.refresher.storage = some (profile, dir) → dir = fun _ => none

/-- Once `close` has resolved, the step writes and emits nothing, and what was
removed stays so. -/
def Closing.Quiescent {α : Type} (e : Lts.Event (Closing α) CloseEvent) : Prop :=
  e.before.closed = true → e.after.effects = e.before.effects ∧ (e.before.Emptied → e.after.Emptied)

/-- When `close` resolves, the supervisor has ended and no renewal is saved or
announced; and what is answered afterwards is of no use. -/
def Closing.Calm {α : Type} (acceptor : Identity → Option α) (s : Closing α) : CloseEvent → Prop
  | .resolve => s.supervising = false ∧ s.stage.renewing = false
  | .answered answer => s.closed = true → s.refresher.Useless acceptor answer
  | _ => True

namespace Closing

variable {α : Type} {acceptor : Identity → Option α} {s s' : Closing α} {a : CloseEvent} {renewed : Identity}

/-- Neither task has anything to do. -/
structure Settled (s : Closing α) : Prop where
  supervising : s.supervising = false
  stage : s.stage.renewing = false

/-- A step of a settled tunnel, when what is answered is of no use. -/
theorem Settled.step (hs : s.Settled) (huseless : ∀ answer, a = .answered answer → s.refresher.Useless acceptor answer)
    (hstep : s.step acceptor a = some s') :
    s'.Settled ∧ s'.effects = s.effects ∧ (s.Emptied → s'.Emptied) := by
  obtain ⟨hsupervising, hstage⟩ := hs
  cases a with
  | emit | stop =>
    have hrunning := (Option.ite_none_right_eq_some.mp hstep).1
    rw [hsupervising] at hrunning
    cases hrunning
  | abandon | close =>
    obtain ⟨-, hstep⟩ := Option.ite_none_left_eq_some.mp hstep
    obtain rfl := Option.some.inj hstep
    exact ⟨⟨hsupervising, hstage⟩, rfl, id⟩
  | resolve =>
    obtain ⟨-, hstep⟩ := Option.ite_none_right_eq_some.mp hstep
    obtain rfl := Option.some.inj hstep
    exact ⟨⟨hsupervising, hstage⟩, rfl, id⟩
  | request =>
    dsimp only [Closing.step] at hstep
    split at hstep
    · obtain rfl := Option.some.inj hstep
      exact ⟨⟨hsupervising, rfl⟩, rfl, id⟩
    · cases hstep
  | notice =>
    dsimp only [Closing.step] at hstep
    split at hstep
    · obtain ⟨-, hstep⟩ := Option.ite_none_right_eq_some.mp hstep
      obtain rfl := Option.some.inj hstep
      exact ⟨⟨hsupervising, rfl⟩, rfl, id⟩
    · cases hstep
  | answered answer =>
    have hnone := huseless answer rfl
    dsimp only [Closing.step] at hstep
    split at hstep
    · split at hstep
      · obtain rfl := Option.some.inj hstep
        exact ⟨⟨hsupervising, rfl⟩, rfl, id⟩
      · rename_i renewed hrenewed
        rw [hnone renewed hrenewed] at hstep
        obtain rfl := Option.some.inj hstep
        exact ⟨⟨hsupervising, rfl⟩, rfl, id⟩
    · cases hstep
  | write | saveFails | announce =>
    dsimp only [Closing.step] at hstep
    split at hstep
    · rename_i hrenewing
      rw [hrenewing] at hstage
      cases hstage
    · cases hstep
  | remove =>
    obtain rfl := Option.some.inj hstep
    refine ⟨⟨hsupervising, hstage⟩, rfl, fun _ profile dir hdir => ?_⟩
    obtain ⟨d, -, hd⟩ := Option.map_eq_some_iff.mp hdir
    exact (Prod.mk.inj hd).2.symm

/-- Only `resolve` closes. -/
theorem closed_step (hstep : s.step acceptor a = some s') (hne : a ≠ .resolve) : s'.closed = s.closed := by
  cases a with
  | resolve => exact absurd rfl hne
  | emit | stop =>
    obtain ⟨-, hstep⟩ := Option.ite_none_right_eq_some.mp hstep
    obtain rfl := Option.some.inj hstep
    rfl
  | abandon | close =>
    obtain ⟨-, hstep⟩ := Option.ite_none_left_eq_some.mp hstep
    obtain rfl := Option.some.inj hstep
    rfl
  | request | saveFails | announce =>
    dsimp only [step] at hstep
    split at hstep
    · obtain rfl := Option.some.inj hstep
      rfl
    · cases hstep
  | notice =>
    dsimp only [step] at hstep
    split at hstep
    · obtain ⟨-, hstep⟩ := Option.ite_none_right_eq_some.mp hstep
      obtain rfl := Option.some.inj hstep
      rfl
    · cases hstep
  | answered answer =>
    dsimp only [step] at hstep
    split at hstep
    · split at hstep
      · obtain rfl := Option.some.inj hstep
        rfl
      · split at hstep
        · obtain rfl := Option.some.inj hstep
          rfl
        · obtain rfl := Option.some.inj hstep
          rfl
    · cases hstep
  | write =>
    dsimp only [step] at hstep
    split at hstep
    · obtain ⟨op, -, rfl⟩ := Option.map_eq_some_iff.mp hstep
      rfl
    · cases hstep
  | remove =>
    obtain rfl := Option.some.inj hstep
    rfl

/-- Once `close` has resolved, both tasks are settled. -/
def Sound (s : Closing α) : Prop := s.closed = true → s.Settled

theorem Sound.step (hs : s.Sound) (hcalm : s.Calm acceptor a) (hstep : s.step acceptor a = some s') :
    s'.Sound ∧ Quiescent ⟨s, a, s'⟩ := by
  by_cases hclosed : s.closed = true
  · have huseless : ∀ answer, a = .answered answer → s.refresher.Useless acceptor answer := fun answer ha => by
      rw [ha] at hcalm
      exact hcalm hclosed
    obtain ⟨hsettled, heffects, hemptied⟩ := (hs hclosed).step huseless hstep
    exact ⟨fun _ => hsettled, fun _ => ⟨heffects, hemptied⟩⟩
  · refine ⟨fun hclosed' => ?_, fun h => absurd h hclosed⟩
    by_cases hresolve : a = .resolve
    · subst hresolve
      obtain ⟨-, hstep⟩ := Option.ite_none_right_eq_some.mp hstep
      obtain rfl := Option.some.inj hstep
      exact ⟨hcalm.1, hcalm.2⟩
    · rw [closed_step hstep hresolve] at hclosed'
      exact absurd hclosed' hclosed

theorem quiescent_of_run {refresher : Refresher α} {t : Closing α} {es : List (Lts.Event (Closing α) CloseEvent)}
    (hrun : Lts.Run (closeSystem acceptor) (start refresher) es t) (hcalm : ∀ e ∈ es, e.before.Calm acceptor e.label) :
    ∀ e ∈ es, Quiescent e := by
  have hstart : (start refresher).Sound := fun h => (by cases h)
  have hsound := (hrun.invariant (fun _ _ _ hs hc hstep => (hs.step hc hstep).1) hcalm hstart).2
  exact fun e he => ((hsound e he).1.step (hcalm e he) (hrun.step_of_mem he)).2

/-- `n` operations of the save, behind the first `j`. -/
def stored (renewed : Identity) (j n : ℕ) (r : Refresher α) : Refresher α :=
  { r with storage := r.storage.map fun d => (d.1, Op.applyAll d.2 (((saveOps renewed).drop j).take n)) }

theorem exec_writes (acceptor : Identity → Option α) {j n : ℕ} (hs : s.stage = .saving renewed j) (h : j + n < 6) :
    ∃ s', (closeSystem acceptor).exec s (List.replicate n .write) = some s' ∧ s'.stage = .saving renewed (j + n) ∧
      s'.refresher = stored renewed j n s.refresher := by
  induction n generalizing s j with
  | zero =>
    refine ⟨s, rfl, hs, ?_⟩
    have hid : (fun d : String × Dir => (d.1, Op.applyAll d.2 (((saveOps renewed).drop j).take 0))) = id := rfl
    unfold stored
    rw [hid, Option.map_id]
    rfl
  | succ n ih =>
    have hlen : j < (saveOps renewed).length := show j < 6 by omega
    have hop : (saveOps renewed)[j]? = some (saveOps renewed)[j] := List.getElem?_eq_getElem hlen
    have hdrop : (saveOps renewed).drop j = (saveOps renewed)[j] :: (saveOps renewed).drop (j + 1) :=
      List.drop_eq_getElem_cons hlen
    have hleft : j + 1 < (saveOps renewed).length := show j + 1 < 6 by omega
    obtain ⟨s', hexec, hstage, hrefresher⟩ := ih (j := j + 1) (s := { s with
      stage := .saving renewed (j + 1)
      refresher := { s.refresher with storage := s.refresher.storage.map fun d => (d.1, (saveOps renewed)[j].apply d.2) }
      effects := s.effects ++ [.wrote (saveOps renewed)[j]] }) rfl (by omega)
    refine ⟨s', ?_, by rw [hstage, Nat.add_right_comm, Nat.add_assoc], ?_⟩
    · rw [List.replicate_succ, Lts.System.exec]
      show (step acceptor s .write).bind _ = _
      unfold step
      dsimp only
      rw [hs]
      dsimp only
      rw [hop, if_pos hleft]
      exact hexec
    · rw [hrefresher]
      unfold stored
      rw [hdrop, List.take_succ_cons]
      simp only [Option.map_map, Op.applyAll_cons]
      rfl

/-- Answer, operations, failure and event are together one iteration of the loop. -/
theorem exec_iteration (hs : s.stage = .requesting) (hstorage : s.refresher.storage.isSome = true)
    {answer : CertificateAnswer} (huseful : ¬ s.refresher.Useless acceptor answer) {done : ℕ} (h : done < 6) :
    ∃ s', (closeSystem acceptor).exec s (.answered answer :: (List.replicate done .write ++ [.saveFails, .announce])) =
        some s' ∧ s'.refresher = s.refresher.iterate acceptor ⟨answer, done⟩ := by
  rcases Refresher.iterate_cases acceptor s.refresher ⟨answer, done⟩ with
    ⟨huseless, -⟩ | ⟨renewed, next, hrenewed, hnext, hiterate⟩
  · exact absurd huseless huseful
  · have hanswered : step acceptor s (.answered answer) = some (s.renew renewed next) := by
      unfold step
      dsimp only at hrenewed ⊢
      rw [hs]
      dsimp only
      rw [hrenewed]
      dsimp only
      rw [hnext]
    have hstage : (s.renew renewed next).stage = .saving renewed 0 := if_pos hstorage
    obtain ⟨s', hexec, hstage', hrefresher⟩ := exec_writes acceptor hstage (n := done) (by omega)
    refine ⟨{ s' with
      stage := .waiting false
      refresher := { s'.refresher with
        identity := renewed
        renewed := s'.refresher.renewed ++ [renewed.certificateExpiry] }
      effects := s'.effects ++ [.emitted (.certificateRenewed renewed.certificateExpiry)] }, ?_, ?_⟩
    · rw [Lts.System.exec]
      show (step acceptor s (.answered answer)).bind _ = _
      rw [hanswered, Option.bind_some, Lts.System.exec_append, hexec, Option.bind_some, Lts.System.exec]
      show (step acceptor s' .saveFails).bind _ = _
      unfold step
      dsimp only
      rw [hstage']
      rfl
    · rw [hiterate]
      dsimp only
      rw [hrefresher]
      rfl

end Closing

end Rust

/-! ### TypeScript -/

/-- A `storage.save` under way: the calls of `writeFile` that have not completed,
and whether one has failed. -/
structure Save where
  writes : List (File × Bytes)
  failed : Bool

/-- Where `refreshCertificate` is. -/
inductive RefreshStage
  | timer
  | requesting
  | returned
  deriving DecidableEq

/-- A `Tunnel`, the saves that `onRenewed` has started, and what the disk holds. -/
structure Closing (α : Type) where
  stage : RefreshStage
  refreshed : Refreshed α
  saves : List Save
  dir : Dir
  running : Bool
  shutdown : Bool
  closed : Bool
  effects : List Outward

/-- What happens to a tunnel, from within and by its owner. -/
inductive CloseEvent
  | emit
  | stop
  | close
  | resolve
  | fires
  -- `fetch` and `response.json()`; none where one fails or the answer is refused
  | answered (answer : Option AnsweredState)
  -- the next write that completes of a save
  | write (save index : ℕ)
  | writeFails (save index : ℕ)
  -- `pending.json` is removed behind the writes
  | finish (save : ℕ)
  | remove

namespace Closing

variable {α : Type} (secureContextFor : ShuvTunnelIdentity → Option α) (other : String → Date)

/-- The event goes out. -/
def emits (event : TunnelEvent) (s : Closing α) : Closing α := { s with effects := s.effects ++ [.emitted event] }

/-- `refreshCertificate` sets the timer again, unless the tunnel is shut down. -/
def rest (s : Closing α) : Closing α := { s with stage := if s.shutdown then .returned else .timer }

/-- `toISOString` throws before anything is written. -/
def startSave (renewed : ShuvTunnelIdentity) : Save :=
  match saveWrites renewed with
  | some writes => ⟨writes, false⟩
  | none => ⟨[], true⟩

/-- A renewed certificate is taken, its save is started, and the event goes out. -/
def renew (renewed : ShuvTunnelIdentity) (expiry : String) (next : α) (s : Closing α) : Closing α :=
  { s with
    refreshed := ⟨renewed, next, s.refreshed.saved ++ [renewed], s.refreshed.renewed ++ [expiry]⟩
    saves := s.saves ++ [startSave renewed] }.emits (.certificateRenewed expiry)

/-- An operation is done. -/
def does (op : Op) (s : Closing α) : Closing α := { s with dir := op.apply s.dir, effects := s.effects ++ [.wrote op] }

/-- What a step does; a save goes on by itself, and nothing waits for it. -/
def step (s : Closing α) : CloseEvent → Option (Closing α)
  | .emit => if s.running then some (s.emits .session) else none
  | .stop => if s.running then some ({ s with running := false }.emits .stopped) else none
  -- the timer is cleared
  | .close => some { s with shutdown := true, stage := if s.stage = .timer then .returned else s.stage }
  | .resolve => if s.shutdown && !s.running then some { s with closed := true } else none
  | .fires =>
    if s.stage = .timer then some { s with stage := if s.shutdown then .returned else .requesting } else none
  | .answered answer =>
    if s.stage = .requesting then
      match s.refreshed.identity.renewedBy other answer with
      | none => some s.rest
      | some (renewed, expiry) =>
        match secureContextFor renewed with
        | none => some s.rest
        | some next => some (s.renew renewed expiry next).rest
    else none
  | .write i j =>
    (s.saves[i]?).bind fun save => (save.writes[j]?).map fun w =>
      { s with saves := s.saves.set i { save with writes := save.writes.eraseIdx j } }.does (.ofWrite w)
  | .writeFails i j =>
    (s.saves[i]?).bind fun save => (save.writes[j]?).map fun _ =>
      { s with saves := s.saves.set i { writes := save.writes.eraseIdx j, failed := true } }
  | .finish i =>
    (s.saves[i]?).bind fun save =>
      if save.writes = [] ∧ save.failed = false then
        some ({ s with saves := s.saves.eraseIdx i }.does (.remove .pendingJson))
      else none
  | .remove => some { s with dir := fun _ => none }

end Closing

/-- The tunnel of the TypeScript client. -/
def closeSystem {α : Type} (secureContextFor : ShuvTunnelIdentity → Option α) (other : String → Date) :
    Lts.System (Closing α) CloseEvent :=
  ⟨Closing.step secureContextFor other⟩

/-- `new Tunnel`, whose constructor has sent the first request. -/
def Closing.start {α : Type} (refreshed : Refreshed α) (dir : Dir) : Closing α where
  stage := .requesting
  refreshed := refreshed
  saves := []
  dir := dir
  running := true
  shutdown := false
  closed := false
  effects := []

/-- A save that has failed and has no writes left does nothing any more. -/
def Save.over (save : Save) : Prop := save.writes = [] ∧ save.failed = true

/-- Once `close` has resolved, a step has no effect outside, and leaves the
storage empty where it is. -/
def Closing.Quiescent {α : Type} (e : Lts.Event (Closing α) CloseEvent) : Prop :=
  e.before.closed = true → e.after.effects = e.before.effects ∧
    (e.before.dir = (fun _ => none) → e.after.dir = fun _ => none)

/-- When `close` resolves, no save is under way; and what is answered afterwards is
of no use. -/
def Closing.Calm {α : Type} (secureContextFor : ShuvTunnelIdentity → Option α) (other : String → Date) (s : Closing α) :
    CloseEvent → Prop
  | .resolve => ∀ save ∈ s.saves, save.over
  | .answered answer => s.closed = true → s.refreshed.Useless secureContextFor other answer
  | _ => True

namespace Closing

variable {α : Type} {secureContextFor : ShuvTunnelIdentity → Option α} {other : String → Date} {s s' : Closing α}
  {a : CloseEvent}

/-- `run` has ended, and no save has anything to do. -/
structure Settled (s : Closing α) : Prop where
  running : s.running = false
  shutdown : s.shutdown = true
  saves : ∀ save ∈ s.saves, save.over

theorem Settled.step (hs : s.Settled)
    (huseless : ∀ answer, a = .answered answer → s.refreshed.Useless secureContextFor other answer)
    (hstep : s.step secureContextFor other a = some s') :
    s'.Settled ∧ s'.effects = s.effects ∧ (s.dir = (fun _ => none) → s'.dir = fun _ => none) := by
  obtain ⟨hrunning, hshutdown, hsaves⟩ := hs
  cases a with
  | emit | stop =>
    have hruns := (Option.ite_none_right_eq_some.mp hstep).1
    rw [hrunning] at hruns
    cases hruns
  | close =>
    obtain rfl := Option.some.inj hstep
    exact ⟨⟨hrunning, rfl, hsaves⟩, rfl, id⟩
  | resolve | fires =>
    obtain ⟨-, hstep⟩ := Option.ite_none_right_eq_some.mp hstep
    obtain rfl := Option.some.inj hstep
    exact ⟨⟨hrunning, hshutdown, hsaves⟩, rfl, id⟩
  | answered answer =>
    have hnone := huseless answer rfl
    obtain ⟨-, hstep⟩ := Option.ite_none_right_eq_some.mp hstep
    split at hstep
    · obtain rfl := Option.some.inj hstep
      exact ⟨⟨hrunning, hshutdown, hsaves⟩, rfl, id⟩
    · rename_i renewed expiry hrenewed
      have hcontext : secureContextFor renewed = none := hnone (renewed, expiry) hrenewed
      rw [hcontext] at hstep
      obtain rfl := Option.some.inj hstep
      exact ⟨⟨hrunning, hshutdown, hsaves⟩, rfl, id⟩
  | write i j | writeFails i j =>
    obtain ⟨save, hsave, hstep⟩ := Option.bind_eq_some_iff.mp hstep
    obtain ⟨w, hw, -⟩ := Option.map_eq_some_iff.mp hstep
    rw [(hsaves save (List.mem_of_getElem? hsave)).1] at hw
    cases hw
  | finish i =>
    obtain ⟨save, hsave, hstep⟩ := Option.bind_eq_some_iff.mp hstep
    obtain ⟨⟨-, hfailed⟩, -⟩ := Option.ite_none_right_eq_some.mp hstep
    rw [(hsaves save (List.mem_of_getElem? hsave)).2] at hfailed
    cases hfailed
  | remove =>
    obtain rfl := Option.some.inj hstep
    exact ⟨⟨hrunning, hshutdown, hsaves⟩, rfl, fun _ => rfl⟩

theorem closed_step (hstep : s.step secureContextFor other a = some s') (hne : a ≠ .resolve) :
    s'.closed = s.closed := by
  cases a with
  | resolve => exact absurd rfl hne
  | emit | stop | fires =>
    obtain ⟨-, hstep⟩ := Option.ite_none_right_eq_some.mp hstep
    obtain rfl := Option.some.inj hstep
    rfl
  | close | remove =>
    obtain rfl := Option.some.inj hstep
    rfl
  | answered answer =>
    obtain ⟨-, hstep⟩ := Option.ite_none_right_eq_some.mp hstep
    split at hstep
    · obtain rfl := Option.some.inj hstep
      rfl
    · split at hstep
      · obtain rfl := Option.some.inj hstep
        rfl
      · obtain rfl := Option.some.inj hstep
        rfl
  | write i j | writeFails i j =>
    obtain ⟨save, -, hstep⟩ := Option.bind_eq_some_iff.mp hstep
    obtain ⟨w, -, rfl⟩ := Option.map_eq_some_iff.mp hstep
    rfl
  | finish i =>
    obtain ⟨save, -, hstep⟩ := Option.bind_eq_some_iff.mp hstep
    obtain ⟨-, hstep⟩ := Option.ite_none_right_eq_some.mp hstep
    obtain rfl := Option.some.inj hstep
    rfl

/-- What holds in every state: `close` has resolved only of a tunnel that is
settled. -/
def Sound (s : Closing α) : Prop := s.closed = true → s.Settled

theorem Sound.step (hs : s.Sound) (hcalm : s.Calm secureContextFor other a)
    (hstep : s.step secureContextFor other a = some s') : s'.Sound ∧ Quiescent ⟨s, a, s'⟩ := by
  by_cases hclosed : s.closed = true
  · have huseless : ∀ answer, a = .answered answer → s.refreshed.Useless secureContextFor other answer :=
      fun answer ha => by
        rw [ha] at hcalm
        exact hcalm hclosed
    obtain ⟨hsettled, heffects, hemptied⟩ := (hs hclosed).step huseless hstep
    exact ⟨fun _ => hsettled, fun _ => ⟨heffects, hemptied⟩⟩
  · refine ⟨fun hclosed' => ?_, fun h => absurd h hclosed⟩
    by_cases hresolve : a = .resolve
    · subst hresolve
      obtain ⟨hended, hstep⟩ := Option.ite_none_right_eq_some.mp hstep
      obtain ⟨hshutdown, hrunning⟩ := Bool.and_eq_true_iff.mp hended
      obtain rfl := Option.some.inj hstep
      exact ⟨by simpa using hrunning, hshutdown, hcalm⟩
    · rw [closed_step hstep hresolve] at hclosed'
      exact absurd hclosed' hclosed

theorem quiescent_of_run {refreshed : Refreshed α} {dir : Dir} {t : Closing α}
    {es : List (Lts.Event (Closing α) CloseEvent)}
    (hrun : Lts.Run (closeSystem secureContextFor other) (start refreshed dir) es t)
    (hcalm : ∀ e ∈ es, e.before.Calm secureContextFor other e.label) : ∀ e ∈ es, Quiescent e := by
  have hstart : (start refreshed dir).Sound := fun h => (by cases h)
  have hsound := (hrun.invariant (fun _ _ _ hs hc hstep => (hs.step hc hstep).1) hcalm hstart).2
  exact fun e he => ((hsound e he).1.step (hcalm e he) (hrun.step_of_mem he)).2

end Closing

/-- In a run whose certificate requests end calmly, nothing is written or emitted
once `close` has resolved, and a profile that is removed stays so. -/
theorem closing_quiescent {α β : Type} (acceptor : Rust.Identity → Option α)
    (secureContextFor : ShuvTunnelIdentity → Option β) (other : String → Date) :
    (∀ refresher t es, Lts.Run (Rust.closeSystem acceptor) (Rust.Closing.start refresher) es t →
      (∀ e ∈ es, e.before.Calm acceptor e.label) → ∀ e ∈ es, Rust.Closing.Quiescent e) ∧
    ∀ refreshed dir t es, Lts.Run (closeSystem secureContextFor other) (Closing.start refreshed dir) es t →
      (∀ e ∈ es, e.before.Calm secureContextFor other e.label) → ∀ e ∈ es, Closing.Quiescent e :=
  ⟨fun _ _ _ hrun hcalm => Rust.Closing.quiescent_of_run hrun hcalm,
    fun _ _ _ _ hrun hcalm => Closing.quiescent_of_run hrun hcalm⟩

/-! ### A request that outlasts the tunnel -/

/-- The first request is under way when the tunnel is closed and the profile is
removed; then the renewed certificate is answered. -/
def Rust.outlastingRun : List Rust.CloseEvent :=
  [.request, .close, .stop, .resolve, .remove, .answered (Rust.renewal 6).answer]

theorem Rust.outlastingRun_ends : ∃ s s',
    (Rust.closeSystem Rust.matching).exec (.start Rust.renewingRefresher) Rust.outlastingRun = some s ∧
      s.closed = true ∧
      (Rust.closeSystem Rust.matching).step s .write = some s' ∧ s'.effects.length = s.effects.length + 1 :=
  ⟨_, _, rfl, rfl, rfl, rfl⟩

/-- In TypeScript the answer is announced at once. -/
def outlastingRun : List CloseEvent := [.close, .stop, .resolve, .remove]

theorem outlastingRun_ends : ∃ s s',
    (closeSystem some fun _ => none).exec (.start renewingTunnel fun _ => none) outlastingRun = some s ∧
      s.closed = true ∧
      (closeSystem some fun _ => none).step s (.answered (some renewedState)) = some s' ∧
      s'.effects.length = s.effects.length + 1 :=
  ⟨_, _, rfl, rfl, rfl, rfl⟩

theorem not_closing_quiescent :
    (¬ ∀ (acceptor : Rust.Identity → Option Rust.Identity) refresher t es,
      Lts.Run (Rust.closeSystem acceptor) (.start refresher) es t → ∀ e ∈ es, Rust.Closing.Quiescent e) ∧
    ¬ ∀ (secureContextFor : ShuvTunnelIdentity → Option ShuvTunnelIdentity) other refreshed dir t es,
      Lts.Run (closeSystem secureContextFor other) (.start refreshed dir) es t → ∀ e ∈ es, Closing.Quiescent e := by
  constructor
  · intro h
    obtain ⟨s, s', hexec, hclosed, hstep, hlength⟩ := Rust.outlastingRun_ends
    have hrun := (Lts.Run.of_exec hexec).append (.single hstep)
    have hquiet := h _ _ _ _ hrun ⟨s, .write, s'⟩ (List.mem_append_right _ (List.mem_singleton_self _)) hclosed
    have heffects : s'.effects = s.effects := hquiet.1
    rw [heffects] at hlength
    omega
  · intro h
    obtain ⟨s, s', hexec, hclosed, hstep, hlength⟩ := outlastingRun_ends
    have hrun := (Lts.Run.of_exec hexec).append (.single hstep)
    have hquiet := h _ _ _ _ _ _ hrun ⟨s, .answered (some renewedState), s'⟩
      (List.mem_append_right _ (List.mem_singleton_self _)) hclosed
    have heffects : s'.effects = s.effects := hquiet.1
    rw [heffects] at hlength
    omega

/-- The request outlasts the tunnel and is refused. -/
theorem closing_quiescent_calm :
    (∀ e ∈ (Rust.closeSystem Rust.matching).trace (.start Rust.renewingRefresher)
        [.request, .close, .stop, .resolve, .remove, .answered none], Rust.Closing.Quiescent e) ∧
    ∀ e ∈ (closeSystem some fun _ => none).trace (.start renewingTunnel fun _ => none)
        [.close, .stop, .resolve, .remove, .answered none], Closing.Quiescent e := by
  obtain ⟨hrust, htypescript⟩ := closing_quiescent Rust.matching some fun _ => none
  constructor
  · refine hrust _ _ _ (.of_exec rfl) ?_
    refine List.forall_mem_cons.mpr ⟨trivial, List.forall_mem_cons.mpr ⟨trivial, ?_⟩⟩
    refine List.forall_mem_cons.mpr ⟨trivial, ?_⟩
    have huseless : (Rust.Closing.start Rust.renewingRefresher).refresher.Useless Rust.matching none :=
      fun renewed h => (by cases h)
    refine List.forall_mem_cons.mpr ⟨⟨rfl, rfl⟩, List.forall_mem_cons.mpr ⟨trivial, ?_⟩⟩
    exact List.forall_mem_singleton.mpr fun _ => huseless
  · refine htypescript _ _ _ _ (.of_exec rfl) ?_
    refine List.forall_mem_cons.mpr ⟨trivial, List.forall_mem_cons.mpr ⟨trivial, ?_⟩⟩
    have huseless : (renewingTunnel : Refreshed ShuvTunnelIdentity).Useless some (fun _ => none) none :=
      fun r h => (by cases h)
    refine List.forall_mem_cons.mpr ⟨fun save h => (by cases h), List.forall_mem_cons.mpr ⟨trivial, ?_⟩⟩
    exact List.forall_mem_singleton.mpr fun _ => huseless

end ShuvTunnel
