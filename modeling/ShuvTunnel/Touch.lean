/-
# What a segment does to the bridges

`Effect` says what a segment makes of the record; `Touch` says what it does to
the sockets and the channels, and to what end. Each constructor is one way of
touching them: most segments leave them alone, the others close a socket, send
one message, mark or enter something. The channel tasks (`upload`, `settling`)
are left only by the segments of the same channel.

Key definitions: `Task.key`, `Touch`.
Key theorems: `start_touch`, `resume_touch`.
-/
import ShuvTunnel.Connect

namespace ShuvTunnel

open Coop

/-- The channel a suspended `connect` holds. -/
def Task.key : Task → Option ℕ
  | .upload key | .settling key => some key
  | _ => none

/-- The channel whose `connect` the segment resumes. -/
def Cause.key : Cause → Option ℕ
  | .resumed t _ => t.key
  | .call _ => none

/-- The segment does not end with a channel's task. -/
def Keyless (o : Outcome Task Result) : Prop := ∀ u, o = .await u → u.key = none

theorem keyless_done (r : Result) : Keyless (.done r) := fun _ h => by cases h

theorem keyless_await {t : Task} (h : t.key = none) : Keyless (.await t) := fun _ he => by cases he; exact h

/-- The message is `end`, or with an error `reset`, of the connection `conn`. -/
def Message.Finishes (m : Message) (conn : ℚ) (error : Bool) : Prop :=
  ∃ value control, m = .text value ∧ parseControl value = some control ∧
    (control.field "type").bind Json.string? = some (if error then "reset" else "end") ∧
    (control.field "conn").bind Json.number? = some conn

/-- A segment that works for one socket: its message, its error, or its attach
message later on. -/
inductive Cause.For (w : ℕ) : Cause → Prop
  | message {m : Message} : Cause.For w (.call (.webSocketMessage w m))
  | error : Cause.For w (.call (.webSocketError w))
  | record {token : String} {routes : Option Json} {a : Answer} :
      Cause.For w (.resumed (.attachRecord w token routes) a)
  | hash {token : String} {routes : Option Json} {r : StoredTunnel} {a : Answer} :
      Cause.For w (.resumed (.attachHash w token routes r) a)

/-- What the upload's failure is for: an error of the reader, a full bridge, or
a send that throws. -/
def UploadFails (P : Platform) (b : Bridges) (c : Channel) : Answer → Prop
  | .eof => b.send P c.bridge (.endConn c.conn) = none
  | .chunk value bufferedAmount =>
    bufferedAmount > 16 * 1024 * 1024 ∨ b.send P c.bridge (.dataFrame c.conn value) = none
  | .error _ => True
  | _ => False

/-- What a segment does to the bridges, and how it ends. -/
inductive Touch (P : Platform) (b : Bridges) : Cause → Bridges → Outcome Task Result → Prop
  | still {c : Cause} {o : Outcome Task Result} : c.key = none → Keyless o → Touch P b c b o
  /-- `fetch` accepts a socket. -/
  | accepted {upgrade protocols : Option String} {position : ℕ} :
      Touch P b (.call (.fetch upgrade protocols position)) (Store.acceptWebSocket b position) (.done (.response 101))
  /-- The socket is closed. -/
  | closed {c : Cause} {w : ℕ} : c.For w → Touch P b c (b.close w) (.done .void)
  /-- The socket is told why it cannot attach, and closed. -/
  | refused {c : Cause} {w : ℕ} {code : String} {b₁ : Bridges} : c.For w →
      b.send P w (.attachError code) = some b₁ → Touch P b c (b₁.close w) (.done .void)
  /-- An attach message is accepted, and answered unless the reply throws. -/
  | attached {w : ℕ} {token uuid session : String} {routes : Option Json} {r : StoredTunnel} {b₁ b' : Bridges}
      {o : Outcome Task Result} : attachAccepts P b w token routes r = true →
      b₁ = b.serializeAttachment w
        { attached := true, session := some ("sess_" ++ session),
          routes := some (Store.requestedRoutes routes) } →
      (b' = b₁ ∨ b₁.send P w (.attached ("sess_" ++ session) (Store.requestedRoutes routes) HEARTBEAT_MS
        IDLE_TIMEOUT_MS) = some b') → Keyless o →
      Touch P b (.resumed (.attachHash w token routes r) (.drawn uuid session)) b' o
  | ponged {w : ℕ} {m : Message} {time_sent : ℚ} {b₁ : Bridges} : b.send P w (.pong time_sent) = some b₁ →
      Touch P b (.call (.webSocketMessage w m)) b₁ (.done .void)
  /-- `end` or `reset` of a channel of this socket. -/
  | finished {w : ℕ} {m : Message} {conn : ℚ} {key : ℕ} {error : Bool} : m.Finishes conn error →
      Store.ownChannel b w conn = some key →
      Touch P b (.call (.webSocketMessage w m)) (b.finish key error) (.done .void)
  /-- A data frame of a channel of this socket. -/
  | written {w : ℕ} {data payload : Bytes} {conn : ℕ} {c : Channel} :
      parseDataFrame data = some (conn, payload) → b.channel conn = some c → c.bridge = w →
      Touch P b (.call (.webSocketMessage w (.binary data))) (b.write c.key payload) (.done .void)
  /-- The close event of a socket, which did attach when it has a session. -/
  | closeHandled {w : ℕ} {x : Socket} {b₁ b' : Bridges} : b.socket w = some x → x.isOpen = false →
      x.closeHandled = false → b₁ = b.updateSocket w (fun w => { w with closeHandled := true }) →
      (b' = b₁ ∧ x.attachment.bind (·.session) = none ∨
        b' = b₁.finishAll (fun c => c.bridge = w) true ∧ x.attachment.bind (·.session) ≠ none) →
      Touch P b (.call (.webSocketClose w)) b' (.done .void)
  /-- The tunnel is removed. -/
  | shutDown {token : String} {r : StoredTunnel} :
      Touch P b (.resumed (.removeHash token r) .ok) (Store.shutDown b) (.done (.remove .ok))
  /-- A channel is entered, and the bridge is told. -/
  | opened {record : Option StoredTunnel} {r : StoredTunnel} {hello : Hello} {route : String} {bridge : Socket}
      {conn sequence : ℕ} {b' : Bridges} : record = some r → r.deletedAt = none → r.ready = true →
      Store.routeOf record hello.sni = some route →
      b.sockets.find? (fun w => w.claims route) = some bridge →
      Store.allocate (b.channels.map (·.1)) (b.channels.length + 2) b.sequence = some (conn, sequence) →
      Store.sendAll P (enterChannel b bridge.id conn sequence) bridge.id
        (openMessage conn hello :: hello.initial.map (.dataFrame conn)) = some b' →
      Touch P b (.resumed (.connectRead record) (.hello hello)) b' (.await (.upload b.nextConnection))
  /-- A channel is entered, and telling the bridge throws. -/
  | openThrown {record : Option StoredTunnel} {hello : Hello} {route : String} {bridge : Socket}
      {conn sequence : ℕ} : b.sockets.find? (fun w => w.claims route) = some bridge →
      Store.allocate (b.channels.map (·.1)) (b.channels.length + 2) b.sequence = some (conn, sequence) →
      Store.sendAll P (enterChannel b bridge.id conn sequence) bridge.id
        (openMessage conn hello :: hello.initial.map (.dataFrame conn)) = none →
      Touch P b (.resumed (.connectRead record) (.hello hello)) (enterChannel b bridge.id conn sequence)
        (.done (.thrown "send"))
  | uploaded {key : ℕ} {c : Channel} {value : Bytes} {bufferedAmount : ℕ} {b' : Bridges} :
      b.connection key = some c → b.send P c.bridge (.dataFrame c.conn value) = some b' →
      Touch P b (.resumed (.upload key) (.chunk value bufferedAmount)) b' (.await (.upload key))
  | uploadEnded {key : ℕ} {c : Channel} {b' : Bridges} : b.connection key = some c →
      b.send P c.bridge (.endConn c.conn) = some b' →
      Touch P b (.resumed (.upload key) .eof) b' (.await (.settling key))
  | uploadFailed {key : ℕ} {c : Channel} {a : Answer} {b' : Bridges} : b.connection key = some c →
      UploadFails P b c a →
      (b' = b ∧ b.send P c.bridge (.resetConn c.conn "client_io_error") = none ∨
        ∃ b₁, b.send P c.bridge (.resetConn c.conn "client_io_error") = some b₁ ∧ b' = b₁.finish key true) →
      Touch P b (.resumed (.upload key) a) b' (.await (.settling key))
  | settled {key : ℕ} {c : Channel} : b.connection key = some c → c.finished = true →
      Touch P b (.resumed (.settling key) .ok) b (.done .void)

/-! ### The first segments -/

theorem message_touch {P : Platform} {s s' : Store} {w : ℕ} {m : Message} {o : Outcome Task Result}
    (h : s.webSocketMessage P w m = some (s', o)) :
    Touch P s.bridges (.call (.webSocketMessage w m)) s'.bridges o := by
  obtain ⟨x, -, hm⟩ := Option.map_eq_some_iff.mp h
  clear h
  have same : ∀ {r : Result}, (s, Outcome.done r) = (s', o) →
      Touch P s.bridges (.call (.webSocketMessage w m)) s'.bridges o := fun h => by
    obtain ⟨rfl, rfl⟩ := Prod.mk.inj h
    exact .still rfl (keyless_done _)
  have close : s.closing w = (s', o) → Touch P s.bridges (.call (.webSocketMessage w m)) s'.bridges o := fun h => by
    obtain ⟨rfl, rfl⟩ := Prod.mk.inj h
    exact .closed .message
  split at hm
  · exact close hm
  · rename_i att _
    split at hm
    · rename_i data
      split at hm
      · exact close hm
      · unfold Store.dataFrame at hm
        split at hm
        · exact same hm
        · rename_i conn payload hp
          split at hm
          · rename_i c hc
            split at hm
            · rename_i hw
              obtain ⟨rfl, rfl⟩ := Prod.mk.inj hm
              exact .written hp hc hw
            · exact same hm
          · exact same hm
    · rename_i value
      split at hm
      · exact close hm
      · rename_i type control hparsed
        obtain ⟨control', hcontrol, hmap⟩ := Option.bind_eq_some_iff.mp hparsed
        obtain ⟨type', htype, heq⟩ := Option.map_eq_some_iff.mp hmap
        obtain ⟨rfl, rfl⟩ := Prod.mk.inj heq
        split at hm
        · unfold Store.unattachedControl at hm
          split at hm
          · split at hm
            · exact close hm
            · obtain ⟨rfl, rfl⟩ := Prod.mk.inj hm
              exact .still rfl (keyless_await rfl)
          · exact close hm
        · unfold Store.attachedControl at hm
          split at hm
          · split at hm
            · exact same hm
            · rename_i b hs
              obtain ⟨rfl, rfl⟩ := Prod.mk.inj hm
              exact .ponged hs
          · rename_i conn hconn
            split at hm
            · rename_i key hown
              obtain ⟨rfl, rfl⟩ := Prod.mk.inj hm
              exact .finished ⟨value, control', rfl, hcontrol, htype, hconn⟩ hown
            · exact same hm
          · rename_i conn hconn
            split at hm
            · rename_i key hown
              obtain ⟨rfl, rfl⟩ := Prod.mk.inj hm
              exact .finished ⟨value, control', rfl, hcontrol, htype, hconn⟩ hown
            · exact same hm
          · exact same hm

theorem close_touch {P : Platform} {s s' : Store} {w : ℕ} {o : Outcome Task Result}
    (h : s.webSocketClose w = some (s', o)) : Touch P s.bridges (.call (.webSocketClose w)) s'.bridges o := by
  obtain ⟨x, hx, h⟩ := Option.bind_eq_some_iff.mp h
  split at h
  · cases h
  · rename_i hguard
    simp only [Bool.or_eq_true, not_or, Bool.not_eq_true] at hguard
    simp only at h
    have hdone : ∀ {b : Bridges}, some (s.withBridges b, Outcome.done Result.void) = some (s', o) →
        s'.bridges = b ∧ o = .done .void := fun h => by
      obtain ⟨rfl, rfl⟩ := Prod.mk.inj (Option.some.inj h)
      exact ⟨rfl, rfl⟩
    split at h
    · rename_i hsession
      obtain ⟨hb, rfl⟩ := hdone h
      rw [hb]
      exact .closeHandled hx hguard.1 hguard.2 rfl (.inl ⟨rfl, Option.isNone_iff_eq_none.mp hsession⟩)
    · rename_i hsession
      have hsession : x.attachment.bind (·.session) ≠ none := fun he => hsession (by rw [he]; rfl)
      have hfinish : s'.bridges = (s.bridges.updateSocket w fun w => { w with closeHandled := true }).finishAll
          (fun c => c.bridge = w) true ∧ o = .done .void := by
        split at h
        · split at h
          · exact hdone h
          · obtain ⟨rfl, rfl⟩ := Prod.mk.inj (Option.some.inj h)
            exact ⟨rfl, rfl⟩
        · exact hdone h
      obtain ⟨hb, rfl⟩ := hfinish
      rw [hb]
      exact .closeHandled hx hguard.1 hguard.2 rfl (.inr ⟨rfl, hsession⟩)

/-- Starting a renewal leaves the bridges alone. -/
theorem startRenewal_bridges {s s' : Store} {r : StoredTunnel} {uuid : String} {o : Outcome Task Result}
    (h : s.startRenewal r uuid = some (s', o)) : s'.bridges = s.bridges ∧ Keyless o := by
  rcases startRenewal_cases h with ⟨-, rfl, rfl⟩ | ⟨csr, id, -, -, -, rfl, rfl⟩
  · exact ⟨rfl, keyless_done _⟩
  · exact ⟨rfl, keyless_await rfl⟩

theorem alarm_bridges {s s' : Store} {uuid : String} {o : Outcome Task Result} (h : s.alarm uuid = some (s', o)) :
    s'.bridges = s.bridges ∧ Keyless o := by
  have done : ∀ {x : Store}, some (x, Outcome.done Result.void) = some (s', o) → x.bridges = s.bridges →
      s'.bridges = s.bridges ∧ Keyless o := fun h hx => by
    obtain ⟨rfl, rfl⟩ := Prod.mk.inj (Option.some.inj h)
    exact ⟨hx, keyless_done _⟩
  unfold Store.alarm at h
  split at h
  · simp only at h
    split at h
    · exact done h rfl
    · split at h
      · split at h
        · exact done h rfl
        · split at h
          · exact done h rfl
          · split at h
            · exact done h rfl
            · have hr := startRenewal_bridges h
              exact hr
      · exact done h rfl
  · cases h

/-- What a call's first segment does to the bridges. -/
theorem start_touch {P : Platform} {s s' : Store} {c : Call} {o : Outcome Task Result}
    (h : start P s c = some (s', o)) : Touch P s.bridges (.call c) s'.bridges o := by
  have done : ∀ {r : Result}, (s, Outcome.done r) = (s', o) → Touch P s.bridges (.call c) s'.bridges o := fun h => by
    obtain ⟨rfl, rfl⟩ := Prod.mk.inj h
    exact .still rfl (keyless_done _)
  have await : ∀ {t : Task}, t.key = none → (s, Outcome.await t) = (s', o) →
      Touch P s.bridges (.call c) s'.bridges o := fun ht h => by
    obtain ⟨rfl, rfl⟩ := Prod.mk.inj h
    exact .still rfl (keyless_await ht)
  cases c with
  | initialized id hostname tokenHash =>
    obtain ⟨rfl, rfl⟩ := Prod.mk.inj (Option.some.inj h)
    exact .still rfl (keyless_done _)
  | info token =>
    have h := Option.some.inj h
    unfold Store.info at h
    split at h
    · exact done h
    · exact await rfl h
  | certificate token =>
    have h := Option.some.inj h
    unfold Store.certificate at h
    split at h
    · exact done h
    · exact await rfl h
  | bindCertificate token csr =>
    have h := Option.some.inj h
    unfold Store.bindCertificate at h
    split at h
    · exact done h
    · exact await rfl h
  | remove token =>
    have h := Option.some.inj h
    unfold Store.remove at h
    split at h
    · exact done h
    · exact await rfl h
  | alarm uuid =>
    obtain ⟨hb, ho⟩ := alarm_bridges h
    rw [hb]
    exact .still rfl ho
  | fetch upgrade protocols position =>
    have h := Option.some.inj h
    unfold Store.fetch at h
    split at h
    · exact done h
    · split at h
      · exact done h
      · split at h
        · exact done h
        · obtain ⟨rfl, rfl⟩ := Prod.mk.inj h
          exact .accepted
  | webSocketMessage socket message => exact message_touch h
  | webSocketClose socket => exact close_touch h
  | webSocketError socket =>
    obtain ⟨x, -, h⟩ := Option.map_eq_some_iff.mp h
    obtain ⟨rfl, rfl⟩ := Prod.mk.inj h
    exact .closed .error
  | connect => exact await rfl (Option.some.inj h)

/-! ### The later segments -/

/-- A handler of a certificate leaves the bridges alone. -/
structure Aside (s : Store) (p : Store × Outcome Task Result) : Prop where
  bridges : p.1.bridges = s.bridges
  keyless : Keyless p.2

theorem Aside.done {s x : Store} (r : Result) (h : x.bridges = s.bridges) : Aside s (x, .done r) :=
  ⟨h, keyless_done r⟩

theorem Aside.await {s x : Store} {t : Task} (ht : t.key = none) (h : x.bridges = s.bridges) :
    Aside s (x, .await t) :=
  ⟨h, keyless_await ht⟩

theorem ensureThrown_aside (s : Store) (e : Ensure) (reason : String) : Aside s (s.ensureThrown e reason) := by
  unfold Store.ensureThrown
  split
  · exact .done _ rfl
  · exact .done _ rfl

theorem ensureWorkflow_aside (s : Store) (e : Ensure) : Aside s (s.ensureCertificateWorkflow e) := by
  unfold Store.ensureCertificateWorkflow
  split
  · exact ensureThrown_aside _ _ _
  · exact .await rfl rfl

theorem ensureGot_aside {s : Store} {e : Ensure} {a : Answer} {p : Store × Outcome Task Result}
    (h : s.ensureGot e a = some p) : Aside s p := by
  unfold Store.ensureGot at h
  split at h
  · obtain rfl := Option.some.inj h
    exact .await rfl rfl
  · split at h
    · split at h
      · obtain rfl := Option.some.inj h
        exact .await rfl rfl
      · cases h
    · obtain rfl := Option.some.inj h
      exact ensureThrown_aside _ _ _
  · cases h

theorem ensureStatus_aside {s : Store} {e : Ensure} {a : Answer} {p : Store × Outcome Task Result}
    (h : s.ensureStatus e a = some p) : Aside s p := by
  unfold Store.ensureStatus at h
  split at h
  · split at h
    · split at h
      · obtain rfl := Option.some.inj h
        exact .await rfl rfl
      · obtain rfl := Option.some.inj h
        exact .await rfl rfl
      · obtain rfl := Option.some.inj h
        exact .await rfl rfl
      · obtain rfl := Option.some.inj h
        exact .done _ rfl
    · cases h
  · obtain rfl := Option.some.inj h
    exact ensureThrown_aside _ _ _
  · cases h

theorem ensureCreated_aside {s : Store} {e : Ensure} {accepted : Bool} {a : Answer}
    {p : Store × Outcome Task Result} (h : s.ensureCreated e accepted a = some p) : Aside s p := by
  unfold Store.ensureCreated at h
  split at h
  · split at h
    · cases h
    · obtain ⟨d, -, rfl⟩ := Option.map_eq_some_iff.mp h
      exact .await rfl rfl
  · split at h
    · obtain rfl := Option.some.inj h
      exact .done _ rfl
    · cases h
  · obtain rfl := Option.some.inj h
    exact ensureThrown_aside _ _ _
  · cases h

theorem ensureRestarted_aside {s : Store} {e : Ensure} {accepted : Bool} {a : Answer}
    {p : Store × Outcome Task Result} (h : s.ensureRestarted e accepted a = some p) : Aside s p := by
  unfold Store.ensureRestarted at h
  split at h
  · split at h
    · cases h
    · obtain ⟨d, -, rfl⟩ := Option.map_eq_some_iff.mp h
      exact .await rfl rfl
  · split at h
    · obtain rfl := Option.some.inj h
      exact .done _ rfl
    · cases h
  · obtain rfl := Option.some.inj h
    exact ensureThrown_aside _ _ _
  · cases h

theorem renewalCreated_aside {s : Store} {r : StoredTunnel} {params : CertificateWorkflowParams} {accepted : Bool}
    {a : Answer} {p : Store × Outcome Task Result} (h : s.renewalCreated r params accepted a = some p) :
    Aside s p := by
  unfold Store.renewalCreated at h
  split at h
  · split at h
    · cases h
    · obtain ⟨d, -, rfl⟩ := Option.map_eq_some_iff.mp h
      exact .await rfl rfl
  · split at h
    · obtain rfl := Option.some.inj h
      exact .done _ rfl
    · cases h
  · obtain rfl := Option.some.inj h
    exact .done _ rfl
  · cases h

theorem bindIssue_aside {s : Store} {csr uuid : String} {identifiers : List String} {r : StoredTunnel}
    {p : Store × Outcome Task Result} (h : s.bindIssue csr identifiers r uuid = some p) : Aside s p := by
  obtain ⟨⟨d, id⟩, -, rfl⟩ := Option.map_eq_some_iff.mp h
  have he := ensureWorkflow_aside (({ s with durable := d } : Store).save (issuingRecord r csr identifiers id))
    (issueEnsure r csr identifiers id)
  exact ⟨he.bridges, he.keyless⟩

theorem bindVerified_aside {s : Store} {csr uuid : String} {req : CertificateRequest} {r : StoredTunnel}
    {p : Store × Outcome Task Result} (h : s.bindVerified csr req r uuid = some p) : Aside s p := by
  have done : ∀ {x : Result}, some (s, Outcome.done x) = some p → Aside s p := fun h => by
    obtain rfl := Option.some.inj h
    exact .done _ rfl
  unfold Store.bindVerified at h
  split at h
  · exact done h
  · split at h
    · exact done h
    · split at h
      · exact done h
      · split at h
        · exact done h
        · split at h
          · split at h
            · obtain rfl := Option.some.inj h
              exact ensureWorkflow_aside _ _
            · split at h
              · exact done h
              · exact bindIssue_aside h
          · exact bindIssue_aside h

/-- What they do to the bridges is nothing. -/
theorem Aside.touch {P : Platform} {s s' : Store} {t : Task} {a : Answer} {o : Outcome Task Result}
    (h : Aside s (s', o)) (ht : t.key = none) : Touch P s.bridges (.resumed t a) s'.bridges o := by
  have hb : s'.bridges = s.bridges := h.bridges
  rw [hb]
  exact .still ht h.keyless

theorem attachError_touch {P : Platform} {s s' : Store} {w : ℕ} {code : String} {c : Cause}
    {o : Outcome Task Result} (hc : c.For w) (hk : c.key = none) (h : s.attachError P w code = (s', o)) :
    Touch P s.bridges c s'.bridges o := by
  unfold Store.attachError at h
  split at h
  · obtain ⟨rfl, rfl⟩ := Prod.mk.inj h
    exact .still hk (keyless_done _)
  · rename_i b hb
    obtain ⟨rfl, rfl⟩ := Prod.mk.inj h
    exact .refused hc hb

/-- `onAttached` leaves the bridges alone. -/
theorem onAttached_bridges {s s' : Store} {r : StoredTunnel} {uuid : String} {o : Outcome Task Result}
    (h : s.onAttached r uuid = some (s', o)) : s'.bridges = s.bridges ∧ Keyless o := by
  have done : ∀ {x : Store}, some (x, Outcome.done Result.void) = some (s', o) → x.bridges = s.bridges →
      s'.bridges = s.bridges ∧ Keyless o := fun h hx => by
    obtain ⟨rfl, rfl⟩ := Prod.mk.inj (Option.some.inj h)
    exact ⟨hx, keyless_done _⟩
  unfold Store.onAttached at h
  split at h
  · simp only at h
    split at h
    · exact startRenewal_bridges h
    · split at h
      · exact done h rfl
      · exact done h rfl
  · exact done h rfl

theorem attachHashed_touch {P : Platform} {s s' : Store} {w : ℕ} {token uuid session : String}
    {routes : Option Json} {r : StoredTunnel} {o : Outcome Task Result}
    (h : s.attachHashed P w token routes r uuid session = some (s', o)) :
    Touch P s.bridges (.resumed (.attachHash w token routes r) (.drawn uuid session)) s'.bridges o := by
  rcases attachHashed_cases h with ⟨-, code, h⟩ | ⟨b₁, ha, hb₁, ⟨-, rfl, rfl⟩ | ⟨b, hs, h⟩⟩
  · exact attachError_touch .hash rfl h
  · exact .attached ha hb₁ (.inl rfl) (keyless_done _)
  · obtain ⟨hb, ho⟩ := onAttached_bridges h
    rw [hb]
    exact .attached ha hb₁ (.inr hs) ho

theorem connectHello_touch {P : Platform} {s s' : Store} {record : Option StoredTunnel} {hello : Hello}
    {o : Outcome Task Result} (h : s.connectHello P record hello = some (s', o)) :
    Touch P s.bridges (.resumed (.connectRead record) (.hello hello)) s'.bridges o := by
  have still : some (s, Outcome.done Result.void) = some (s', o) →
      Touch P s.bridges (.resumed (.connectRead record) (.hello hello)) s'.bridges o := fun h => by
    obtain ⟨rfl, rfl⟩ := Prod.mk.inj (Option.some.inj h)
    exact .still rfl (keyless_done _)
  unfold Store.connectHello at h
  simp only at h
  split at h
  · rename_i r route bridge hr hb
    split at h
    · exact still h
    · rename_i hok
      simp only [Bool.or_eq_true, not_or, Bool.not_eq_true', Bool.not_eq_true, Bool.not_eq_false] at hok
      obtain ⟨⟨hdeleted, hready⟩, -⟩ := hok
      have hroute := (truthy_eq_some.mp hr).1
      have hfind : s.bridges.sockets.find? (fun w => w.claims route) = some bridge := by
        unfold Store.findBridge at hb
        rwa [hroute] at hb
      obtain ⟨⟨conn, n⟩, ha, h⟩ := Option.map_eq_some_iff.mp h
      simp only at h
      split at h
      · rename_i hs
        obtain ⟨rfl, rfl⟩ := Prod.mk.inj h
        exact .openThrown hfind ha hs
      · rename_i b hs
        obtain ⟨rfl, rfl⟩ := Prod.mk.inj h
        exact .opened rfl (by simpa using hdeleted) hready hroute hfind ha hs
  · exact still h

theorem connection_key {b : Bridges} {key : ℕ} {c : Channel} (h : b.connection key = some c) : c.key = key := by
  simpa using List.find?_some h

theorem upload_touch {P : Platform} {s s' : Store} {key : ℕ} {a : Answer} {o : Outcome Task Result}
    (h : s.upload P key a = some (s', o)) : Touch P s.bridges (.resumed (.upload key) a) s'.bridges o := by
  obtain ⟨c, hc, h⟩ := Option.bind_eq_some_iff.mp h
  have hkey := connection_key hc
  have failed : UploadFails P s.bridges c a → some (s.uploadFailed P c) = some (s', o) →
      Touch P s.bridges (.resumed (.upload key) a) s'.bridges o := fun hf h => by
    unfold Store.uploadFailed at h
    rw [hkey] at h
    split at h
    · rename_i hs
      obtain ⟨rfl, rfl⟩ := Prod.mk.inj (Option.some.inj h)
      exact .uploadFailed hc hf (.inl ⟨rfl, hs⟩)
    · rename_i b hs
      obtain ⟨rfl, rfl⟩ := Prod.mk.inj (Option.some.inj h)
      exact .uploadFailed hc hf (.inr ⟨b, hs, rfl⟩)
  split at h
  · split at h
    · rename_i hs
      exact failed hs h
    · rename_i b hs
      obtain ⟨rfl, rfl⟩ := Prod.mk.inj (Option.some.inj h)
      exact .uploadEnded hc hs
  · split at h
    · rename_i hfull
      exact failed (.inl hfull) h
    · split at h
      · rename_i hs
        exact failed (.inr hs) h
      · rename_i b hs
        obtain ⟨rfl, rfl⟩ := Prod.mk.inj (Option.some.inj h)
        exact .uploaded hc hs
  · exact failed trivial h
  · cases h

/-- A finished channel is not finished again. -/
theorem finish_finished {b : Bridges} {key : ℕ} {c : Channel} {error : Bool} (hc : b.connection key = some c)
    (hf : c.finished = true) : b.finish key error = b := by
  unfold Bridges.finish
  rw [hc]
  exact if_pos hf

/-- What a resumed segment does to the bridges. -/
theorem resume_touch {P : Platform} {s s' : Store} {t : Task} {a : Answer} {o : Outcome Task Result}
    (h : resume P s t a = some (s', o)) : Touch P s.bridges (.resumed t a) s'.bridges o := by
  have done : ∀ {r : Result}, t.key = none → (s, Outcome.done r) = (s', o) →
      Touch P s.bridges (.resumed t a) s'.bridges o := fun ht h => by
    obtain ⟨rfl, rfl⟩ := Prod.mk.inj h
    exact .still ht (keyless_done _)
  unfold resume at h
  split at h
  · have h := Option.some.inj h
    unfold Store.infoHashed at h
    split at h
    · exact done rfl h
    · exact done rfl h
  · have h := Option.some.inj h
    unfold Store.certificateHashed at h
    split at h
    · exact done rfl h
    · split at h
      · exact done rfl h
      · exact done rfl h
  · have h := Option.some.inj h
    unfold Store.removeHashed at h
    split at h
    · exact done rfl h
    · obtain ⟨rfl, rfl⟩ := Prod.mk.inj h
      exact .shutDown
  · have h := Option.some.inj h
    unfold Store.bindHashed at h
    split at h
    · exact done rfl h
    · split at h
      · exact done rfl h
      · obtain ⟨rfl, rfl⟩ := Prod.mk.inj h
        exact .still rfl (keyless_await rfl)
  · exact (bindVerified_aside h).touch rfl
  · exact (ensureGot_aside h).touch rfl
  · exact (ensureStatus_aside h).touch rfl
  · exact (ensureCreated_aside h).touch rfl
  · exact (ensureRestarted_aside h).touch rfl
  · exact (renewalCreated_aside h).touch rfl
  · have h := Option.some.inj h
    unfold Store.attachRead at h
    split at h
    · exact attachError_touch .record rfl h
    · obtain ⟨rfl, rfl⟩ := Prod.mk.inj h
      exact .still rfl (keyless_await rfl)
  · exact attachHashed_touch h
  · exact connectHello_touch h
  · exact upload_touch h
  · obtain ⟨c, hc, h⟩ := Option.bind_eq_some_iff.mp h
    split at h
    · rename_i hfinished
      obtain ⟨rfl, rfl⟩ := Prod.mk.inj (Option.some.inj h)
      have hsame : (s.withBridges (s.bridges.finish _ false)).bridges = s.bridges := finish_finished hc hfinished
      rw [hsame]
      exact .settled hc hfinished
    · cases h
  · cases h

end ShuvTunnel
