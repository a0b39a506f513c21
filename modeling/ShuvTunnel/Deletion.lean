/-
# What undoes a deletion

`remove` stores the record with `deletedAt`. A handler that read the record
before and is still suspended does not know: when it writes the record it
read, the tunnel is back, and `connect` enters a channel on the record it
read. Everything else finds the record deleted. So the deletion is final along
a run exactly when no such handler resumes in it.

Key definitions: `Deleted`, `Revives`.
Key theorems: `Effect.final_iff`, `deletion_final_iff`.
-/
import ShuvTunnel.Snapshots

namespace ShuvTunnel

open Coop

/-! ### The property and the steps that lose it -/

/-- The stored record is deleted. -/
def Deleted (s : Store) : Prop := ∃ r, s.durable.record = some r ∧ r.deletedAt ≠ none

/-- No socket has become an attached bridge, and no channel was put into the
map. -/
structure NothingNew (b b' : Bridges) : Prop where
  attached : ∀ w' ∈ b'.sockets, w'.attached = true → ∃ w ∈ b.sockets, w.id = w'.id ∧ w.attached = true
  channels : b'.channels ⊆ b.channels

/-- The record stays deleted, and the bridges get nothing new. -/
structure Final (s s' : Store) : Prop where
  deleted : Deleted s'
  nothing : NothingNew s.bridges s'.bridges

/-- The answer makes the handler write back the record it read (`remove`
apart), or enter a channel. -/
def Undeletes (P : Platform) (s : Store) (t : Task) (a : Answer) : Prop :=
  opens s t a = true ∨ (writesBack P s t a = true ∧ t.removing = false)

/-- A suspended handler resumes that does not know of the deletion. -/
def Revives (P : Platform) (s : State) : Action → Prop
  | .resume k a => ∃ t, s.task k = some t ∧ Undeletes P s.store t a
  | _ => False

/-! ### One segment -/

theorem Deleted.live {s : Store} (h : Deleted s) : s.durable.live = none := by
  obtain ⟨r, hr, hd⟩ := h
  refine Durable.live_eq_none.mpr fun r' hr' => ?_
  obtain rfl := Option.some.inj (hr.symm.trans hr')
  exact hd

theorem Deleted.of_record {s s' : Store} (h : Deleted s) (hr : s'.durable.record = s.durable.record) :
    Deleted s' := by
  obtain ⟨r, hr', hd⟩ := h
  exact ⟨r, hr.trans hr', hd⟩

/-- A record that is not deleted is written. -/
theorem not_deleted {d : Durable} {r : StoredTunnel} {b : Bridges} (h : d.record = some r)
    (hd : r.deletedAt = none) : ¬ Deleted ⟨d, b⟩ := by
  rintro ⟨r', hr', hd'⟩
  obtain rfl := Option.some.inj (h.symm.trans hr')
  exact hd' hd

theorem NothingNew.of_quiet {b b' : Bridges} (h : b.Quiet b') : NothingNew b b' := by
  refine ⟨fun w' hw' ha => ?_, h.channels⟩
  obtain ⟨w, hw, hs⟩ := h.attached hw' ha
  exact ⟨w, hw, hs.1, hs.attached ▸ ha⟩

/-- The record and the bridges are those of before, or quieter. -/
theorem Final.of_quiet {s s' : Store} (h : Deleted s) (hr : s'.durable.record = s.durable.record)
    (hq : s.bridges.Quiet s'.bridges) : Final s s' :=
  ⟨h.of_record hr, .of_quiet hq⟩

/-- Once the record is deleted, a segment that is not `initialize`'s leaves the
deletion final, unless it resumed a handler that does not know of it. -/
theorem Effect.final_iff {P : Platform} {s s' : Store} {c : Cause} {o : Outcome Task Result}
    (h : Effect P s c s' o) (hd : Deleted s) (hc : ∀ t a, c = .resumed t a → t.Sound)
    (hi : ∀ id hostname tokenHash, c ≠ .call (.initialized id hostname tokenHash)) :
    Final s s' ↔ ∀ t a, c = .resumed t a → ¬ Undeletes P s t a := by
  have hnone := hd.live
  have call : ∀ {x : Call}, ∀ t a, Cause.call x = .resumed t a → ¬ Undeletes P s t a :=
    by simp
  have keeps : ∀ {t : Task} {a : Answer}, opens s t a = false → writesBack P s t a = false →
      ∀ t' a', Cause.resumed t a = .resumed t' a' → ¬ Undeletes P s t' a' := fun h1 h2 t' a' he => by
    obtain ⟨rfl, rfl⟩ := Cause.resumed.inj he
    rintro (h | ⟨h, -⟩)
    · rw [h1] at h; cases h
    · rw [h2] at h; cases h
  -- a record that was carried is written back, and it is not deleted
  have revived : ∀ {t : Task} {a : Answer} {r r' : StoredTunnel} {x : Store}, c = .resumed t a →
      t.snapshot = some r → (∀ x, t ≠ .connectRead x) → t.removing = false → writesBack P s t a = true →
      x.durable.record = some r' → r'.deletedAt = r.deletedAt →
      (Final s x ↔ ∀ t a, c = .resumed t a → ¬ Undeletes P s t a) := fun he ht hn hrem hw hr hdel => by
    have hlive := (hc _ _ he).not_deleted ht hn
    exact iff_of_false (fun hf => not_deleted hr (hdel.trans hlive) hf.deleted)
      fun hno => hno _ _ he (.inr ⟨hw, hrem⟩)
  cases h with
  | quiet hq _ hw =>
    refine iff_of_true (.of_quiet hd rfl hq) fun t a he => ?_
    exact keeps (hw t a he).2 (hw t a he).1 t a rfl
  | opened ho _ hch hnew _ =>
    refine iff_of_false (fun hf => ?_) fun hno => hno _ _ rfl (.inl ho)
    have hm := hf.nothing.channels (hch ▸ List.mem_append_right _ (List.mem_singleton.mpr rfl))
    exact hnew _ hm rfl
  | created _ _ _ _ _ _ => exact absurd rfl (hi _ _ _)
  | closed hl _ => rw [hnone] at hl; cases hl
  | alarmed _ => exact iff_of_true (.of_quiet hd rfl (.refl _)) call
  | renewing hl _ _ _ _ => rw [hnone] at hl; cases hl
  | issued hb _ => exact revived rfl rfl (by simp) rfl hb rfl rfl
  | issueFailed he _ hw =>
    refine revived rfl (Task.snapshot_of_ensure he) (fun x hx => ?_) (removing_of_ensure he) hw rfl rfl
    rw [hx] at he
    cases he
  | requested he hw => exact iff_of_true (.of_quiet hd rfl (.refl _)) (keeps (opens_of_ensure he _) hw)
  | taken _ hw =>
    rw [createWorkflow_frame hw]
    exact iff_of_true (.of_quiet hd rfl (.refl _)) (keeps (opens_accepted s _) (writesBack_accepted P s _))
  | restarted hw =>
    rw [restartWorkflow_frame hw]
    exact iff_of_true (.of_quiet hd rfl (.refl _)) (keeps rfl rfl)
  | removed _ =>
    refine iff_of_true ⟨⟨_, rfl, Option.some_ne_none _⟩, .of_quiet (.shutDown _)⟩ fun t a he => ?_
    obtain ⟨rfl, rfl⟩ := Cause.resumed.inj he
    rintro (h | ⟨-, h⟩)
    · cases h
    · cases h
  | attachThrown ha _ => exact revived rfl rfl (by simp) rfl ha rfl rfl
  | attached ha _ _ _ => exact revived rfl rfl (by simp) rfl ha rfl rfl
  | attachedRenewing ha _ _ _ _ _ => exact revived rfl rfl (by simp) rfl ha rfl rfl
  | renewFailed => exact revived rfl rfl (by simp) rfl rfl rfl rfl

/-! ### The environment, and runs -/

/-- A workflow that posts to a deleted tunnel is refused. -/
theorem Change.final {P : Platform} {s s' : Store} {e : Event} (h : Change P s e s') (hd : Deleted s) :
    Final s s' := by
  cases h with
  | tick => exact .of_quiet hd rfl (.refl _)
  | sockets _ _ hq => exact .of_quiet hd rfl hq
  | workflow _ _ _ => exact .of_quiet hd rfl (.refl _)
  | posted _ _ _ _ =>
    refine .of_quiet hd ?_ (.refl _)
    have hlive : ∀ ds, ({ s.durable with deliveries := ds } : Durable).live = none := fun _ => hd.live
    simp only [Durable.update, Durable.updateCertificate, hlive]

theorem step_final_iff {P : Platform} {s s' : State} {l : Action} (h : Reachable P s) (hd : Deleted s.store)
    (hi : ∀ id hostname tokenHash, l ≠ .call (.initialized id hostname tokenHash))
    (hstep : (tunnelObject P).step s l = some s') : Final s.store s'.store ↔ ¬ Revives P s l := by
  obtain ⟨c, x, o, rfl, h1, rfl⟩ | ⟨k, a, t, x, o, rfl, ht, h1, rfl⟩ | ⟨e, x, rfl, h1, rfl⟩ :=
    step_cases hstep
  · rw [settle_store, (start_effect h1).final_iff hd (fun _ _ h => by cases h)
      fun id hostname tokenHash he => hi id hostname tokenHash (congrArg _ (Cause.call.inj he))]
    exact iff_of_true (fun _ _ h => by cases h) fun h => h
  · rw [settle_store, (resume_effect h1).final_iff hd (fun t' a' he => by
      obtain ⟨rfl, rfl⟩ := Cause.resumed.inj he
      exact sound_of_reachable h _ (task_mem ht)) fun _ _ _ h => by cases h]
    exact resumed_iff ht
  · exact iff_of_true ((environment_change h1).final hd) fun h => h

/-- Along a run without `initialize` a deletion is final exactly when no
suspended handler resumes that does not know of it. -/
theorem deletion_final_iff {P : Platform} {s t : State} {es : List (Lts.Event State Action)} (h : Reachable P s)
    (hd : Deleted s.store) (hr : Run P s es t)
    (hi : ∀ e ∈ es, ∀ id hostname tokenHash, e.label ≠ .call (.initialized id hostname tokenHash)) :
    (∀ e ∈ es, Final e.before.store e.after.store) ↔ ∀ e ∈ es, ¬ Revives P e.before e.label :=
  hr.safe_iff (J := fun s => Reachable P s ∧ Deleted s.store)
    (A := fun _ l => ∀ id hostname tokenHash, l ≠ .call (.initialized id hostname tokenHash))
    (fun _ hs _ hstep hf => ⟨hs.1.step hstep, hf.deleted⟩)
    (fun _ hs hi hstep => step_final_iff hs.1 hs.2 hi hstep) hi ⟨h, hd⟩

/-! ### An attach message that was suspended -/

/-- A client attaches, and the tunnel is removed while its token is hashed. -/
def removedRun : List Action :=
  provisioned "csr" ++ [fetching, attachMessage 0, .resume 3 .ok, .call (.remove "tok"), .resume 4 .ok]

set_option maxRecDepth 4000 in
theorem removedRun_state : ∃ s s' r, after plainPlatform removedRun = some s ∧
    s.store.durable.record = some r ∧ r.deletedAt ≠ none ∧
    (tunnelObject plainPlatform).step s (.resume 3 (.drawn "" "1")) = some s' ∧
    s'.store.durable.record.map (·.deletedAt) = some none := by
  refine ⟨_, _, _, rfl, rfl, ?_, rfl, rfl⟩
  exact Option.some_ne_none _

/-- New calls leave the deletion final. -/
theorem deletion_final_calls : ∃ s t es, Reachable plainPlatform s ∧ Deleted s.store ∧ Run plainPlatform s es t ∧
    es.map (·.label) = [.call (.info "tok"), .call (.bindCertificate "tok" "csr2")] ∧
    ∀ e ∈ es, Final e.before.store e.after.store := by
  obtain ⟨s, -, r, hs, hr, hd, -, -⟩ := removedRun_state
  obtain ⟨t, ht⟩ : ∃ t, (tunnelObject plainPlatform).exec s
      [.call (.info "tok"), .call (.bindCertificate "tok" "csr2")] = some t := ⟨_, rfl⟩
  obtain ⟨es, hrun, hl⟩ := Lts.Run.exists_of_exec ht
  have hlabel : ∀ e ∈ es, e.label = .call (.info "tok") ∨ e.label = .call (.bindCertificate "tok" "csr2") := by
    intro e he
    have hm : e.label ∈ es.map (·.label) := List.mem_map_of_mem he
    rw [hl] at hm
    simpa using hm
  refine ⟨s, t, es, reachable_of_after hs, ⟨r, hr, hd⟩, hrun, hl, (deletion_final_iff (reachable_of_after hs)
    ⟨r, hr, hd⟩ hrun fun e he id hostname tokenHash h => ?_).mpr fun e he h => ?_⟩
  · rcases hlabel e he with h' | h'
    · rw [h'] at h; cases h
    · rw [h'] at h; cases h
  · rcases hlabel e he with h' | h'
    · rw [h'] at h; exact h
    · rw [h'] at h; exact h

theorem attach_revives : ¬ ∀ (s t : State) (es : List (Lts.Event State Action)), Reachable plainPlatform s →
    Deleted s.store → Run plainPlatform s es t →
    (∀ e ∈ es, ∀ id hostname tokenHash, e.label ≠ .call (.initialized id hostname tokenHash)) →
    ∀ e ∈ es, Final e.before.store e.after.store := by
  intro h
  obtain ⟨s, s', r, hs, hr, hd, hstep, hlive⟩ := removedRun_state
  have hfinal := h s s' _ (reachable_of_after hs) ⟨r, hr, hd⟩ (.single hstep) (fun e he _ _ _ hl => by
    obtain rfl := List.mem_singleton.mp he
    cases hl) _ (List.mem_singleton.mpr rfl)
  obtain ⟨r', hr', hd'⟩ := hfinal.deleted
  have hr' : s'.store.durable.record = some r' := hr'
  rw [hr'] at hlive
  exact hd' (Option.some.inj hlive)

end ShuvTunnel
