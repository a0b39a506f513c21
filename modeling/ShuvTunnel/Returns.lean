/-
# What a handler returns

The segments that end a handler end it with a result of its method: the
socket handlers, the alarm and `connect` return nothing, `bindCertificate` one
of its own results; each may throw.

Key definitions: `Returns`, `Result.silent`, `Result.ofBind`.
Key theorems: `message_returns`, `alarm_returns`, `attachHashed_returns`,
`bindVerified_returns`.
-/
import ShuvTunnel.System

namespace ShuvTunnel

open Coop

/-- If the segment ends its handler, the result is in `Q`. -/
def Returns (Q : Result → Prop) (o : Outcome Task Result) : Prop := ∀ r, o = .done r → Q r

theorem Returns.await {Q : Result → Prop} {t : Task} : Returns Q (.await t) := fun _ h => by cases h

theorem Returns.done {Q : Result → Prop} {r : Result} (h : Q r) : Returns Q (.done r) :=
  fun _ hr => by cases hr; exact h

theorem Returns.of_eq {Q : Result → Prop} {p : Segment} {s' : Store} {o : Outcome Task Result} (he : p = (s', o))
    (h : Returns Q p.2) : Returns Q o := by
  rw [he] at h
  exact h

theorem Returns.of_some {Q : Result → Prop} {p : Segment} {s' : Store} {o : Outcome Task Result}
    (he : some p = some (s', o)) (h : Returns Q p.2) : Returns Q o :=
  .of_eq (Option.some.inj he) h

/-- No value is returned. -/
def Result.silent : Result → Prop
  | .void | .thrown _ => True
  | _ => False

/-- It is a result of `bindCertificate`. -/
def Result.ofBind : Result → Prop
  | .bindCertificate _ | .thrown _ => True
  | _ => False

section Segments

variable {P : Platform} {s s' : Store} {o : Outcome Task Result}

theorem attachError_returns (P : Platform) (s : Store) (w : ℕ) (code : String) :
    Returns Result.silent (s.attachError P w code).2 := by
  unfold Store.attachError
  split <;> exact .done trivial

theorem startRenewal_returns {r : StoredTunnel} {uuid : String} (h : s.startRenewal r uuid = some (s', o)) :
    Returns Result.silent o := by
  unfold Store.startRenewal at h
  split at h
  · exact .of_some h (.done trivial)
  · obtain ⟨x, -, hx⟩ := Option.map_eq_some_iff.mp h
    exact .of_eq hx .await

theorem onAttached_returns {r : StoredTunnel} {uuid : String} (h : s.onAttached r uuid = some (s', o)) :
    Returns Result.silent o := by
  unfold Store.onAttached at h
  split at h
  · simp only at h
    split at h
    · exact startRenewal_returns h
    · split at h <;> exact .of_some h (.done trivial)
  · exact .of_some h (.done trivial)

theorem attachHashed_returns {w : ℕ} {token uuid session : String} {routes : Option Json} {r : StoredTunnel}
    (h : s.attachHashed P w token routes r uuid session = some (s', o)) : Returns Result.silent o := by
  unfold Store.attachHashed at h
  simp only at h
  split at h
  · exact .of_some h (attachError_returns P s w _)
  split at h
  · exact .of_some h (attachError_returns P s w _)
  split at h
  · exact .of_some h (attachError_returns P s w _)
  split at h
  · exact .of_some h (attachError_returns P s w _)
  split at h
  · exact .of_some h (.done trivial)
  · exact onAttached_returns h

theorem alarm_returns {uuid : String} (h : s.alarm uuid = some (s', o)) : Returns Result.silent o := by
  unfold Store.alarm at h
  split at h
  · simp only at h
    split at h
    · exact .of_some h (.done trivial)
    · split at h
      · split at h
        · exact .of_some h (.done trivial)
        split at h
        · exact .of_some h (.done trivial)
        split at h
        · exact .of_some h (.done trivial)
        · exact startRenewal_returns h
      · exact .of_some h (.done trivial)
  · cases h

theorem message_returns {w : ℕ} {m : Message} (h : s.webSocketMessage P w m = some (s', o)) :
    Returns Result.silent o := by
  obtain ⟨x, -, hm⟩ := Option.map_eq_some_iff.mp h
  split at hm
  · exact .of_eq hm (.done trivial)
  split at hm
  · split at hm
    · exact .of_eq hm (.done trivial)
    · refine .of_eq hm ?_
      unfold Store.dataFrame
      split
      · exact .done trivial
      · split
        · split <;> exact .done trivial
        · exact .done trivial
  split at hm
  · exact .of_eq hm (.done trivial)
  split at hm
  · refine .of_eq hm ?_
    unfold Store.unattachedControl
    split
    · split
      · exact .done trivial
      · exact .await
    · exact .done trivial
  · refine .of_eq hm ?_
    unfold Store.attachedControl
    split
    · split <;> exact .done trivial
    · split <;> exact .done trivial
    · split <;> exact .done trivial
    · exact .done trivial

theorem close_returns {w : ℕ} (h : s.webSocketClose w = some (s', o)) : Returns Result.silent o := by
  obtain ⟨x, -, h⟩ := Option.bind_eq_some_iff.mp h
  split at h
  · cases h
  · simp only at h
    split at h
    · exact .of_some h (.done trivial)
    · split at h
      · split at h <;> exact .of_some h (.done trivial)
      · exact .of_some h (.done trivial)

theorem connectHello_returns {record : Option StoredTunnel} {hello : Hello}
    (h : s.connectHello P record hello = some (s', o)) : Returns Result.silent o := by
  unfold Store.connectHello at h
  simp only at h
  split at h
  · split at h
    · exact .of_some h (.done trivial)
    · obtain ⟨⟨conn, sequence⟩, -, hx⟩ := Option.map_eq_some_iff.mp h
      simp only at hx
      split at hx
      · exact .of_eq hx (.done trivial)
      · exact .of_eq hx .await
  · exact .of_some h (.done trivial)

theorem upload_returns {key : ℕ} {a : Answer} (h : s.upload P key a = some (s', o)) : Returns Result.silent o := by
  have failed : ∀ c, Returns Result.silent (s.uploadFailed P c).2 := fun c => by
    unfold Store.uploadFailed
    split <;> exact .await
  obtain ⟨c, -, h⟩ := Option.bind_eq_some_iff.mp h
  split at h
  · split at h
    · exact .of_some h (failed c)
    · exact .of_some h .await
  · split at h
    · exact .of_some h (failed c)
    · split at h
      · exact .of_some h (failed c)
      · exact .of_some h .await
  · exact .of_some h (failed c)
  · cases h

theorem settle_returns {key : ℕ} (h : s.settle key = some (s', o)) : Returns Result.silent o := by
  obtain ⟨c, -, h⟩ := Option.bind_eq_some_iff.mp h
  split at h
  · exact .of_some h (.done trivial)
  · cases h

theorem renewalCreated_returns {r : StoredTunnel} {params : CertificateWorkflowParams} {accepted : Bool} {a : Answer}
    (h : s.renewalCreated r params accepted a = some (s', o)) : Returns Result.silent o := by
  unfold Store.renewalCreated at h
  split at h
  · split at h
    · cases h
    · obtain ⟨d, -, hx⟩ := Option.map_eq_some_iff.mp h
      exact .of_eq hx .await
  · split at h
    · exact .of_some h (.done trivial)
    · cases h
  · exact .of_some h (.done trivial)
  · cases h

theorem ensureThrown_returns (s : Store) (e : Ensure) (reason : String) :
    Returns Result.ofBind (s.ensureThrown e reason).2 := by
  unfold Store.ensureThrown
  split <;> exact .done trivial

theorem ensureWorkflow_returns (s : Store) (e : Ensure) :
    Returns Result.ofBind (s.ensureCertificateWorkflow e).2 := by
  unfold Store.ensureCertificateWorkflow
  split
  · exact ensureThrown_returns s e _
  · exact .await

theorem ensureGot_returns {e : Ensure} {a : Answer} (h : s.ensureGot e a = some (s', o)) :
    Returns Result.ofBind o := by
  unfold Store.ensureGot at h
  split at h
  · exact .of_some h .await
  · split at h
    · split at h
      · exact .of_some h .await
      · cases h
    · exact .of_some h (ensureThrown_returns s e _)
  · cases h

theorem ensureStatus_returns {e : Ensure} {a : Answer} (h : s.ensureStatus e a = some (s', o)) :
    Returns Result.ofBind o := by
  unfold Store.ensureStatus at h
  split at h
  · split at h
    · split at h
      · exact .of_some h .await
      · exact .of_some h .await
      · exact .of_some h .await
      · exact .of_some h (.done trivial)
    · cases h
  · exact .of_some h (ensureThrown_returns s e _)
  · cases h

theorem ensureCreated_returns {e : Ensure} {accepted : Bool} {a : Answer}
    (h : s.ensureCreated e accepted a = some (s', o)) : Returns Result.ofBind o := by
  unfold Store.ensureCreated at h
  split at h
  · split at h
    · cases h
    · obtain ⟨d, -, hx⟩ := Option.map_eq_some_iff.mp h
      exact .of_eq hx .await
  · split at h
    · exact .of_some h (.done trivial)
    · cases h
  · exact .of_some h (ensureThrown_returns s e _)
  · cases h

theorem ensureRestarted_returns {e : Ensure} {accepted : Bool} {a : Answer}
    (h : s.ensureRestarted e accepted a = some (s', o)) : Returns Result.ofBind o := by
  unfold Store.ensureRestarted at h
  split at h
  · split at h
    · cases h
    · obtain ⟨d, -, hx⟩ := Option.map_eq_some_iff.mp h
      exact .of_eq hx .await
  · split at h
    · exact .of_some h (.done trivial)
    · cases h
  · exact .of_some h (ensureThrown_returns s e _)
  · cases h

theorem bindIssue_returns {csr uuid : String} {ids : List String} {r : StoredTunnel}
    (h : s.bindIssue csr ids r uuid = some (s', o)) : Returns Result.ofBind o := by
  obtain ⟨⟨d, id⟩, -, hx⟩ := Option.map_eq_some_iff.mp h
  exact .of_eq hx (ensureWorkflow_returns _ _)

theorem bindVerified_returns {csr uuid : String} {req : CertificateRequest} {r : StoredTunnel}
    (h : s.bindVerified csr req r uuid = some (s', o)) : Returns Result.ofBind o := by
  unfold Store.bindVerified at h
  split at h
  · exact .of_some h (.done trivial)
  split at h
  · exact .of_some h (.done trivial)
  split at h
  · exact .of_some h (.done trivial)
  split at h
  · exact .of_some h (.done trivial)
  split at h
  · split at h
    · exact .of_some h (ensureWorkflow_returns _ _)
    · split at h
      · exact .of_some h (.done trivial)
      · exact bindIssue_returns h
  · exact bindIssue_returns h

end Segments

end ShuvTunnel
