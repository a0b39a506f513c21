/-
# Where a record comes from

`Effect` says what each segment writes. What becomes of the certificate and of
the renewal is less: they stay, or are new, or are those of the record the
handler carried (`Wrote`); and what a handler carries on was stored before or
after the segment, or carried before (`Effect.carries`). Statements about the
history of a record need no more.

Key definitions: `held`, `Wrote`.
Key theorems: `Effect.wrote`, `Effect.carries`.
-/
import ShuvTunnel.Segments

namespace ShuvTunnel

open Coop

/-- The stored certificate. -/
def held (s : Store) : Option CertificateInfo := s.durable.record.bind (·.certificate)

theorem held_of_record {s : Store} {r : StoredTunnel} (h : s.durable.record = some r) : held s = r.certificate := by
  rw [held, h]
  rfl

/-- How a segment came by the certificate and the renewal of the record `r'`
that is stored after it. -/
inductive Wrote (P : Platform) (s : Store) (c : Cause) (r' : StoredTunnel) : Prop
  | kept {r : StoredTunnel} : s.durable.record = some r → r'.certificate = r.certificate →
      r'.renewal = r.renewal → Wrote P s c r'
  /-- The alarm starts a renewal. -/
  | renewing {r : StoredTunnel} {x : Renewal} : s.durable.record = some r → r.ready = true →
      r'.certificate = r.certificate → r'.renewal = some x → Fresh s.durable x.certificateID → Wrote P s c r'
  | created {id hostname tokenHash : String} : c = .call (.initialized id hostname tokenHash) →
      s.durable.live = none → r'.certificate = none → r'.renewal = none → Wrote P s c r'
  /-- `bindCertificate` stores the certificate it issues. -/
  | issued {csr uuid session id : String} {req : CertificateRequest} {r : StoredTunnel} :
      c = .resumed (.bindVerify csr req r) (.drawn uuid session) → bindStores csr req r = true →
      r'.certificate = some ⟨id, .issuing⟩ → r'.renewal = none → Wrote P s c r'
  /-- `bindCertificate` stores the failure. -/
  | failed {t : Task} {a : Answer} {e : Ensure} {reason : String} : c = .resumed t a → t.ensure = some e →
      writesBack P s t a = true → r'.certificate = some ⟨e.certificate.id, .failed reason⟩ →
      r'.renewal = e.record.renewal → Wrote P s c r'
  /-- The record that was carried is written back. -/
  | back {t : Task} {a : Answer} {r : StoredTunnel} : c = .resumed t a → t.snapshot = some r →
      writesBack P s t a = true → t.binds = false → r'.certificate = r.certificate →
      r'.renewal = r.renewal ∨ r'.renewal = none → Wrote P s c r'
  /-- It is written back with a new renewal. -/
  | backRenewing {t : Task} {a : Answer} {r : StoredTunnel} {x : Renewal} : c = .resumed t a →
      t.snapshot = some r → writesBack P s t a = true → t.binds = false → r.ready = true →
      r'.certificate = r.certificate → r'.renewal = some x → Fresh s.durable x.certificateID → Wrote P s c r'

theorem Effect.wrote {P : Platform} {s s' : Store} {c : Cause} {o : Outcome Task Result} {r' : StoredTunnel}
    (h : Effect P s c s' o) (hr : s'.durable.record = some r') : Wrote P s c r' := by
  cases h with
  | quiet _ _ _ => exact .kept hr rfl rfl
  | opened _ _ _ _ _ => exact .kept hr rfl rfl
  | created hl hc _ _ hx _ =>
    obtain rfl := Option.some.inj hr
    exact .created rfl hl hc hx
  | closed hl _ =>
    obtain rfl := Option.some.inj hr
    exact .kept (Durable.live_eq_some.mp hl).1 rfl rfl
  | alarmed _ => exact .kept hr rfl rfl
  | renewing hl hready hf _ _ =>
    obtain rfl := Option.some.inj hr
    exact .renewing (Durable.live_eq_some.mp hl).1 hready rfl rfl hf
  | issued hb _ =>
    obtain rfl := Option.some.inj hr
    exact .issued rfl hb rfl rfl
  | issueFailed he _ hw =>
    obtain rfl := Option.some.inj hr
    exact .failed rfl he hw rfl rfl
  | requested _ _ => exact .kept hr rfl rfl
  | taken _ hw =>
    rw [createWorkflow_frame hw] at hr
    exact .kept hr rfl rfl
  | restarted hw =>
    rw [restartWorkflow_frame hw] at hr
    exact .kept hr rfl rfl
  | removed ht =>
    obtain rfl := Option.some.inj hr
    exact .back rfl rfl (by simpa [writesBack] using ht) rfl rfl (.inl rfl)
  | attachThrown ha _ =>
    obtain rfl := Option.some.inj hr
    exact .back rfl rfl ha rfl rfl (.inl rfl)
  | attached ha _ _ _ =>
    obtain rfl := Option.some.inj hr
    exact .back rfl rfl ha rfl rfl (.inl rfl)
  | attachedRenewing ha _ _ hf _ _ =>
    obtain rfl := Option.some.inj hr
    exact .backRenewing rfl rfl ha rfl (attachAccepts_ready ha) rfl rfl hf
  | renewFailed =>
    obtain rfl := Option.some.inj hr
    exact .back rfl rfl rfl rfl rfl (.inr rfl)

/-- No segment of a handler posts a state, or forgets an id. -/
theorem Effect.deliveries {P : Platform} {s s' : Store} {c : Cause} {o : Outcome Task Result}
    (h : Effect P s c s' o) :
    s'.durable.deliveries ⊆ s.durable.deliveries ∧ s.durable.minted ⊆ s'.durable.minted := by
  cases h with
  | taken _ hw => rw [createWorkflow_frame hw]; exact ⟨fun _ h => h, fun _ h => h⟩
  | restarted hw => rw [restartWorkflow_frame hw]; exact ⟨fun _ h => h, fun _ h => h⟩
  | renewing _ _ _ _ _ => exact ⟨fun _ h => h, List.subset_append_left _ _⟩
  | issued _ _ => exact ⟨fun _ h => h, List.subset_append_left _ _⟩
  | attachedRenewing _ _ _ _ _ _ => exact ⟨fun _ h => h, List.subset_append_left _ _⟩
  | _ => exact ⟨fun _ h => h, fun _ h => h⟩

theorem Update.deliveries {d d' : Durable} {id : String} {st : CertificateState} {ok : Bool}
    (h : Update d id st d' ok) : d'.deliveries ⊆ d.deliveries ∧ d.minted ⊆ d'.minted := by
  cases h <;> exact ⟨fun _ h => h, fun _ h => h⟩

/-- No segment leaves the storage without a record. -/
theorem Effect.record_some {P : Platform} {s s' : Store} {c : Cause} {o : Outcome Task Result} {r : StoredTunnel}
    (h : Effect P s c s' o) (hr : s.durable.record = some r) : ∃ r', s'.durable.record = some r' := by
  cases h with
  | taken _ hw => rw [createWorkflow_frame hw]; exact ⟨r, hr⟩
  | restarted hw => rw [restartWorkflow_frame hw]; exact ⟨r, hr⟩
  | quiet _ _ _ => exact ⟨r, hr⟩
  | opened _ _ _ _ _ => exact ⟨r, hr⟩
  | alarmed _ => exact ⟨r, hr⟩
  | requested _ _ => exact ⟨r, hr⟩
  | _ => exact ⟨_, rfl⟩

theorem Task.snapshot_taken (t : Task) : t.taken.snapshot = t.snapshot := by cases t <;> rfl

/-- The record a handler carries on. -/
inductive Carries (P : Platform) (s s' : Store) (c : Cause) (r : StoredTunnel) : Prop
  | read : s.durable.record = some r → Carries P s s' c r
  | stored : s'.durable.record = some r → Carries P s s' c r
  | carried {t : Task} {a : Answer} : c = .resumed t a → t.snapshot = some r → Carries P s s' c r
  /-- An accepted attach message went on to a renewal of the record it wrote. -/
  | written {t : Task} {a : Answer} {r₀ : StoredTunnel} : c = .resumed t a → t.snapshot = some r₀ →
      writesBack P s t a = true → t.binds = false → r.certificate = r₀.certificate →
      r.renewal = r₀.renewal → Carries P s s' c r

theorem Follows.carries {P : Platform} {s s' : Store} {c : Cause} {u : Task} {r : StoredTunnel}
    (h : Follows P s.durable c u) (hr : u.snapshot = some r) : Carries P s s' c r := by
  have live : ∀ {r' : StoredTunnel}, s.durable.live = some r' → some r' = some r → Carries P s s' c r :=
    fun hl h => .read (h ▸ (Durable.live_eq_some.mp hl).1)
  cases h with
  | info hl => exact live hl hr
  | certificate hl => exact live hl hr
  | remove hl => exact live hl hr
  | bind hl => exact live hl hr
  | attach => cases hr
  | connect => exact .read hr
  | attachRead hl => exact live hl hr
  | bindHash _ _ => exact .carried rfl hr
  | resubmit _ _ => exact .carried rfl hr
  | ensureStatus => exact .carried rfl hr
  | ensureRestart => exact .carried rfl hr
  | upload => cases hr
  | settling => cases hr

theorem Effect.carries {P : Platform} {s s' : Store} {c : Cause} {u : Task} {r : StoredTunnel}
    (h : Effect P s c s' (.await u)) (hr : u.snapshot = some r) : Carries P s s' c r := by
  generalize ho : Outcome.await u = o at h
  cases h with
  | quiet _ hu _ => exact (hu u ho.symm).carries hr
  | opened _ _ _ _ hu =>
    obtain ⟨k, rfl⟩ := hu u ho.symm
    cases hr
  | renewing hl _ _ _ _ =>
    cases ho
    cases hr
    exact .read (Durable.live_eq_some.mp hl).1
  | issued _ _ =>
    cases ho
    exact .stored hr
  | requested he _ =>
    cases ho
    exact .carried rfl ((Task.snapshot_of_ensure he).trans hr)
  | taken _ _ =>
    cases ho
    exact .carried rfl ((Task.snapshot_taken _).symm.trans hr)
  | restarted _ =>
    cases ho
    exact .carried rfl hr
  | attachedRenewing ha _ _ _ _ _ =>
    cases ho
    cases hr
    exact .written rfl rfl ha rfl rfl rfl
  | _ => cases ho

end ShuvTunnel
