/-
# What is sent of a public stream

The object reads a public stream in chunks and sends each as one data frame;
the end is sent once the stream has ended and all of it was sent, and nothing
about the connection is sent behind the end or a reset. This holds of every
connection of a bridge while the others' frames go between; and the client
hands the TLS side a beginning of what it was sent. A connection that the Worker
breaks off looks to the object like one that ends, and the end is sent though
bytes were lost.

Key definitions: `Sealed`, `Carried`, `Network.Fidelity`.
Key theorems: `Carried.turn`, `Carried.begin`, `Network.Fidelity.step`,
`upload_fidelity`, `not_upload_fidelity`.
-/
import ShuvTunnel.Owners
import ShuvTunnel.RustSession

namespace ShuvTunnel

open Coop

/-! ### The messages about one connection -/

/-- The connection whose upload the message ends. -/
def ServerMessage.closes? : ServerMessage → Option ℕ
  | endConn conn => some conn
  | resetConn conn _ => some conn
  | _ => none

theorem ServerMessage.conn?_of_closes {m : ServerMessage} {n : ℕ} (h : m.closes? = some n) : m.conn? = some n := by
  cases m <;> simp_all [closes?, conn?]

/-- Nothing is sent about a connection behind its end or reset. -/
def Sealed (log : List ServerMessage) : Prop :=
  log.Pairwise fun m m' => ∀ k, m.closes? = some k → m'.conn? ≠ some k

theorem Sealed.append {log ms : List ServerMessage} (h : Sealed log) (hms : Sealed ms)
    (hnew : ∀ m ∈ ms, ∀ k, m.conn? = some k → ∀ m' ∈ log, m'.closes? ≠ some k) : Sealed (log ++ ms) :=
  List.pairwise_append.mpr ⟨h, hms, fun m' hm' m hm k hc hk => hnew m hm k hk m' hm' hc⟩

/-- What is about no connection may be sent at any time. -/
theorem Sealed.silent {log ms : List ServerMessage} (h : Sealed log) (hms : ∀ m ∈ ms, m.conn? = none) :
    Sealed (log ++ ms) := by
  have about : ∀ {m : ServerMessage} {k : ℕ}, m ∈ ms → m.conn? ≠ some k := fun hm hk => by
    rw [hms _ hm] at hk
    cases hk
  exact h.append (List.pairwise_of_forall_mem_list fun _ _ _ hm' _ _ => about hm') fun m hm k hk => absurd hk (about hm)

/-- Messages that end nothing may follow each other. -/
theorem sealed_of_closes {ms : List ServerMessage} (h : ∀ m ∈ ms, m.closes? = none) : Sealed ms :=
  List.pairwise_of_forall_mem_list fun m hm _ _ k hc => by
    rw [h m hm] at hc
    cases hc

/-- The open message and the first data frames bring the first chunks. -/
theorem payloads_opening (conn : ℕ) (hello : Hello) :
    payloads conn (openMessage conn hello :: hello.initial.map (.dataFrame conn)) = hello.initial.flatten := by
  have hframes : payloads conn (hello.initial.map (.dataFrame conn)) = hello.initial.flatten := by
    induction hello.initial with
    | nil => rfl
    | cons chunk chunks ih =>
      have hcons := payloads_append conn [.dataFrame conn chunk] (chunks.map (.dataFrame conn))
      rw [payloads_dataFrame, if_pos rfl, ih] at hcons
      exact hcons
  have hopen : payloads conn [openMessage conn hello] = [] := rfl
  have hcons := payloads_append conn [openMessage conn hello] (hello.initial.map (.dataFrame conn))
  rw [hopen, hframes] at hcons
  exact hcons

theorem closes?_opening {conn : ℕ} {hello : Hello} :
    ∀ m ∈ openMessage conn hello :: hello.initial.map (.dataFrame conn), m.closes? = none := by
  intro m hm
  rcases List.mem_cons.mp hm with rfl | hm
  · rfl
  · obtain ⟨chunk, -, rfl⟩ := List.mem_map.mp hm
    rfl

/-! ### One connection -/

/-- What was sent of a connection, beside what the object has read of its
stream; as long as the upload is `live`, that is all of it. -/
structure Carried (log : List ServerMessage) (conn : ℕ) (p : Public) (live : Prop) : Prop where
  isPrefix : payloads conn log <+: p.taken
  whole : live → payloads conn log = p.taken ∧ ∀ m ∈ log, m.closes? ≠ some conn
  ended : p.writable ≠ .aborted → .endConn conn ∈ log → p.shut = true ∧ payloads conn log = p.stream

namespace Carried

variable {log ms : List ServerMessage} {conn : ℕ} {p p' : Public} {live live' : Prop}

/-- An end that was sent stays sent, and nothing else is. -/
theorem ended_append (h : Carried log conn p live) (hms : ∀ m ∈ ms, m.conn? ≠ some conn)
    (hkeeps : p.Keeps p') (hends : p'.writable ≠ .aborted)
    (hmem : .endConn conn ∈ log ++ ms) : p'.shut = true ∧ payloads conn (log ++ ms) = p'.stream := by
  rcases List.mem_append.mp hmem with hmem | hmem
  · obtain ⟨hs, he⟩ := h.ended (fun ha => hends (hkeeps.aborted ha)) hmem
    obtain ⟨hs', hstream⟩ := hkeeps.shut hs
    refine ⟨hs', ?_⟩
    rw [payloads_append, payloads_eq_nil hms, List.append_nil, hstream, he]
  · exact absurd rfl (hms _ hmem)

/-- Other messages are sent, and the object reads nothing of this stream. -/
theorem silent (h : Carried log conn p live) (hms : ∀ m ∈ ms, m.conn? ≠ some conn) (hlive : live' → live)
    (ht : p'.taken = p.taken) (hkeeps : p.Keeps p') :
    Carried (log ++ ms) conn p' live' := by
  have hsame : payloads conn (log ++ ms) = payloads conn log := by
    rw [payloads_append, payloads_eq_nil hms, List.append_nil]
  refine ⟨?_, fun hl => ?_, h.ended_append hms hkeeps⟩
  · rw [hsame, ht]
    exact h.isPrefix
  · obtain ⟨he, hno⟩ := h.whole (hlive hl)
    rw [hsame, ht]
    refine ⟨he, fun m hm hc => ?_⟩
    rcases List.mem_append.mp hm with hm | hm
    · exact hno m hm hc
    · exact hms m hm (ServerMessage.conn?_of_closes hc)

/-- The upload is over, and what is read is not sent. -/
theorem stop (h : Carried log conn p live) (hms : ∀ m ∈ ms, m.conn? ≠ some conn) (hover : ¬ live')
    (ht : p.taken <+: p'.taken) (hkeeps : p.Keeps p') :
    Carried (log ++ ms) conn p' live' := by
  refine ⟨?_, fun hl => absurd hl hover, h.ended_append hms hkeeps⟩
  rw [payloads_append, payloads_eq_nil hms, List.append_nil]
  exact h.isPrefix.trans ht

/-- The upload begins with what was read before. -/
theorem begin {hello : Hello} (hno : ∀ m ∈ log, m.conn? ≠ some conn) (ht : p.taken = hello.initial.flatten) :
    Carried (log ++ (openMessage conn hello :: hello.initial.map (.dataFrame conn))) conn p live := by
  have hsent : payloads conn (log ++ (openMessage conn hello :: hello.initial.map (.dataFrame conn))) = p.taken := by
    rw [payloads_append, payloads_eq_nil hno, payloads_opening, ht]
    rfl
  have hopen : ∀ m ∈ log ++ (openMessage conn hello :: hello.initial.map (.dataFrame conn)),
      m.closes? ≠ some conn := fun m hm hc => by
    rcases List.mem_append.mp hm with hm | hm
    · exact hno m hm (ServerMessage.conn?_of_closes hc)
    · rw [closes?_opening m hm] at hc
      cases hc
  exact ⟨by rw [hsent], fun _ => ⟨hsent, hopen⟩, fun _ hmem => absurd rfl (hopen _ hmem)⟩

/-- Nothing was sent about the connection. -/
theorem unsent (hno : ∀ m ∈ log, m.conn? ≠ some conn) (hover : ¬ live) : Carried log conn p live := by
  refine ⟨?_, fun hl => absurd hl hover, fun _ hmem => absurd rfl (hno _ hmem)⟩
  rw [payloads_eq_nil hno]
  exact List.nil_prefix

/-- A turn of a live upload: the chunk that was read is sent, the end, or a
reset in place of either. -/
theorem turn {S : Site} {s : State} {k : ℕ} {a : Answer} {o : Outcome Task Result}
    (h : Carried log conn p live) (hl : live) (hu : UploadSends conn a o ms)
    (hg : Public.Goes S s p p' (some (.resume k a))) (hlive : live' → ∃ key, o = .await (.upload key)) :
    Carried (log ++ ms) conn p' live' := by
  obtain ⟨he, hno⟩ := h.whole hl
  have hended : .endConn conn ∉ log := fun hmem => hno _ hmem rfl
  have hreads := hg.reads
  cases hu with
  | @chunk value _ _ =>
    cases hreads with
    | chunk _ _ ht =>
      have hsent : payloads conn (log ++ [.dataFrame conn value]) = p'.taken := by
        rw [payloads_append, payloads_dataFrame, if_pos rfl, he, ht]
      have hopen : ∀ m ∈ log ++ [.dataFrame conn value], m.closes? ≠ some conn := fun m hm hc => by
        rcases List.mem_append.mp hm with hm | hm
        · exact hno m hm hc
        · rw [List.mem_singleton.mp hm] at hc
          cases hc
      exact ⟨by rw [hsent], fun _ => ⟨hsent, hopen⟩, fun _ hmem => absurd rfl (hopen _ hmem)⟩
    | other _ _ ha =>
      rcases ha with ha | ⟨message, ha⟩
      · cases ha
      · cases ha
  | ended =>
    have hsent : payloads conn (log ++ [.endConn conn]) = p.taken := by
      rw [payloads_append, he]
      exact List.append_nil _
    have hover : ¬ live' := fun hl' => by
      obtain ⟨key, ho⟩ := hlive hl'
      cases ho
    cases hreads with
    | eof _ hp hends =>
      rw [hp]
      refine ⟨by rw [hsent], fun hl' => absurd hl' hover, fun hc _ => ?_⟩
      obtain ⟨ht, hshut⟩ := hends hc
      exact ⟨hshut, hsent.trans ht⟩
    | other _ _ ha =>
      rcases ha with ha | ⟨message, ha⟩
      · cases ha
      · cases ha
  | failed =>
    have hsent : payloads conn (log ++ [.resetConn conn "client_io_error"]) = p.taken := by
      rw [payloads_append, he]
      exact List.append_nil _
    have hover : ¬ live' := fun hl' => by
      obtain ⟨key, ho⟩ := hlive hl'
      cases ho
    refine ⟨by rw [hsent]; exact hg.taken, fun hl' => absurd hl' hover, fun _ hmem => ?_⟩
    rcases List.mem_append.mp hmem with hmem | hmem
    · exact absurd hmem hended
    · cases List.mem_singleton.mp hmem

end Carried

/-! ### The connections of the bridge -/

/-- The upload of the public connection goes on, on an open bridge. -/
def Live (S : Site) (s : State) (p : Public) (key : ℕ) : Prop :=
  s.store.bridges.isOpen S.bridge = true ∧ ∃ k, p.call = some k ∧ (k, .upload key) ∈ s.tasks

namespace Network

variable {C : Peer} {S : Site} {n n' : Network C}

/-- The public connection is the bridge's connection `k`. -/
def Serves (S : Site) (n : Network C) (p : Public) (k : ℕ) : Prop :=
  ∃ key x, p.channel = some key ∧ n.object.store.bridges.connection key = some x ∧ x.bridge = S.bridge ∧ x.conn = k

/-- What a step is to the public connections: they go on unseen by the object;
the object goes on without them; or it reads of one of them. -/
inductive Turn (S : Site) (n n' : Network C) : Prop
  | unseen : n'.object = n.object → n'.log = n.log →
      (∀ (j : ℕ) (p' : Public), n'.publics[j]? = some p' → p'.channel = none ∨ ∃ p, n.publics[j]? = some p ∧
        p'.channel = p.channel ∧ p'.call = p.call ∧ p'.taken = p.taken ∧ p.Keeps p') → Turn S n n'
  | aside {a : Action} : (tunnelObject S.P).step n.object a = some n'.object →
      n'.log = ((n'.object.store.bridges.socket S.bridge).map (·.sent)).getD n.log →
      (∀ k ans t, a = .resume k ans → n.object.task k = some t → t.connects = false) →
      (∀ (j : ℕ) (p' : Public), n'.publics[j]? = some p' → p'.channel = none ∨ n.publics[j]? = some p') → Turn S n n'
  | own {i k : ℕ} {p q : Public} {ans : Answer} : n.publics[i]? = some p → p.call = some k → q.call = some k →
      Public.Goes S n.object p q (some (.resume k ans)) →
      (tunnelObject S.P).step n.object (.resume k ans) = some n'.object →
      n'.log = ((n'.object.store.bridges.socket S.bridge).map (·.sent)).getD n.log →
      n'.publics = n.publics.set i (q.follow n'.object) → Turn S n n'

theorem turn_of_step {μ : NetworkMove C} (hb : n.Base S) (hl : Links n.object n.publics) (hs : n.step S μ = some n') :
    Turn S n n' := by
  have still : ∀ {m : Network C}, m.object = n.object → m.log = n.log → m.publics = n.publics → Turn S n m :=
    fun ho hlog hp => .unseen ho hlog fun j p' hp' => .inr ⟨p', by rw [← hp]; exact hp', rfl, rfl, rfl, .refl _⟩
  cases μ with
  | object a =>
    simp only [step] at hs
    split at hs
    · rename_i hfree
      obtain ⟨s, ha, rfl⟩ := Option.map_eq_some_iff.mp hs
      refine .aside ha rfl (fun k ans t he ht => ?_) fun j p' hp' => .inr hp'
      rw [he] at hfree
      simpa [free, ht] using hfree
    · cases hs
  | accept =>
    obtain rfl := Option.some.inj hs
    refine .unseen rfl rfl fun j p' hp' => ?_
    rcases concat_was hp' with hp | ⟨-, rfl⟩
    · exact .inr ⟨p', hp, rfl, rfl, rfl, .refl _⟩
    · exact .inl rfl
  | peer i μ =>
    obtain ⟨p, hp, hs⟩ := Option.bind_eq_some_iff.mp hs
    obtain ⟨⟨q, a⟩, hq, hs⟩ := Option.bind_eq_some_iff.mp hs
    have hgoes := (hb.flows p (List.mem_of_getElem? hp)).step hq
    have hreads := hgoes.reads
    cases a with
    | none =>
      obtain rfl := Option.some.inj hs
      cases hreads with
      | unseen ht hc =>
        refine .unseen rfl rfl fun j p' hp' => .inr ?_
        rcases (becomes_set hp q).was hp' with ⟨rfl, rfl⟩ | ⟨-, hp'⟩
        · exact ⟨p, hp, hgoes.channel, hc, ht, hgoes.keeps⟩
        · exact ⟨p', hp', rfl, rfl, rfl, .refl _⟩
    | some a =>
      obtain ⟨s, ha, rfl⟩ := Option.map_eq_some_iff.mp hs
      cases hreads with
      | calls hnone ht hc =>
        refine .aside ha rfl (fun _ _ _ he => by cases he) fun j p' hp' => ?_
        rcases (becomes_set hp _).was hp' with ⟨-, rfl⟩ | ⟨-, hp'⟩
        · exact .inl ((hl.link p (List.mem_of_getElem? hp)).called hb.object ha hnone hc hgoes.channel).2
        · exact .inr hp'
      | hello hk hk' _ => exact .own hp hk hk' hgoes ha rfl rfl
      | chunk hk hk' _ => exact .own hp hk hk' hgoes ha rfl rfl
      | eof hk he _ => exact .own hp hk (he ▸ hk) hgoes ha rfl rfl
      | other hk he _ => exact .own hp hk (he ▸ hk) hgoes ha rfl rfl
  | take stalled =>
    obtain ⟨m, -, hs⟩ := Option.bind_eq_some_iff.mp hs
    obtain ⟨p, -, rfl⟩ := Option.map_eq_some_iff.mp hs
    exact still rfl rfl rfl
  | client μ =>
    obtain ⟨p, -, rfl⟩ := Option.map_eq_some_iff.mp hs
    exact still rfl rfl rfl
  | deliver =>
    simp only [step] at hs
    split at hs
    · cases hs
    · obtain ⟨s, ha, rfl⟩ := Option.map_eq_some_iff.mp hs
      exact .aside ha rfl (fun _ _ _ he => by cases he) fun j p' hp' => .inr hp'
  | sever j =>
    obtain rfl := Option.some.inj hs
    exact still rfl rfl rfl

/-- A public connection keeps its channel. -/
theorem channel_kept {μ : NetworkMove C} (hb : n.Base S) (hs : n.step S μ = some n') {p : Public} (hp : p ∈ n.publics)
    {key : ℕ} (hkey : p.channel = some key) : ∃ p' ∈ n'.publics, p'.channel = some key := by
  cases μ with
  | object a =>
    simp only [step] at hs
    split at hs
    · obtain ⟨s, -, rfl⟩ := Option.map_eq_some_iff.mp hs
      exact ⟨p, hp, hkey⟩
    · cases hs
  | accept =>
    obtain rfl := Option.some.inj hs
    exact ⟨p, List.mem_append_left _ hp, hkey⟩
  | peer i μ =>
    obtain ⟨x, hx, hs⟩ := Option.bind_eq_some_iff.mp hs
    obtain ⟨⟨q, a⟩, hq, hs⟩ := Option.bind_eq_some_iff.mp hs
    have hchannel := ((hb.flows x (List.mem_of_getElem? hx)).step hq).channel
    -- whatever follows in its place, it has the channel
    have kept : ∀ y : Public, (x.channel = some key → y.channel = some key) →
        ∃ p' ∈ n.publics.set i y, p'.channel = some key := fun y hy => by
      obtain ⟨j, hj⟩ := List.mem_iff_getElem?.mp hp
      have hset := (becomes_set hx y).after j
      split at hset
      · rename_i hji
        obtain rfl := Option.some.inj (hx.symm.trans (hji ▸ hj))
        exact ⟨y, List.mem_of_getElem? hset, hy hkey⟩
      · exact ⟨p, List.mem_of_getElem? (hset.trans hj), hkey⟩
    split at hs
    · obtain rfl := Option.some.inj hs
      exact kept q fun h => hchannel.trans h
    · obtain ⟨s, -, rfl⟩ := Option.map_eq_some_iff.mp hs
      refine kept _ fun h => ?_
      show q.channel.or _ = some key
      have hchannel : q.channel = x.channel := hchannel
      rw [hchannel, h]
      rfl
  | take stalled =>
    obtain ⟨m, -, hs⟩ := Option.bind_eq_some_iff.mp hs
    obtain ⟨q, -, rfl⟩ := Option.map_eq_some_iff.mp hs
    exact ⟨p, hp, hkey⟩
  | client μ =>
    obtain ⟨q, -, rfl⟩ := Option.map_eq_some_iff.mp hs
    exact ⟨p, hp, hkey⟩
  | deliver =>
    simp only [step] at hs
    split at hs
    · cases hs
    · obtain ⟨s, -, rfl⟩ := Option.map_eq_some_iff.mp hs
      exact ⟨p, hp, hkey⟩
  | sever j =>
    obtain rfl := Option.some.inj hs
    exact ⟨p, hp, hkey⟩

/-- What holds of the messages sent. -/
structure Fidelity (S : Site) (n : Network C) : Prop where
  carried : ∀ p ∈ n.publics, ∀ key x, p.channel = some key → n.object.store.bridges.connection key = some x →
    x.bridge = S.bridge → Carried n.log x.conn p (Live S n.object p key)
  owned : ∀ m ∈ n.log, ∀ k, m.conn? = some k → ∃ p ∈ n.publics, Serves S n p k
  isSealed : Sealed n.log

variable {s : State} {a : Action} {ms : List ServerMessage}

/-- An upload that is live was so before, unless the step resumes it. -/
theorem live_was (hb : n.Base S) (hl : Links n.object n.publics) (ha : (tunnelObject S.P).step n.object a = some s)
    {p : Public} (hp : p ∈ n.publics) (hno : ∀ k ans, a = .resume k ans → p.call ≠ some k) {key : ℕ} {x : Channel}
    (hx : n.object.store.bridges.connection key = some x) (hw : x.bridge = S.bridge) (h : Live S s p key) :
    Live S n.object p key := by
  obtain ⟨ho, k, hk, ht⟩ := h
  have hlt := ((uploads_of_reachable hb.object).served key x hx).1
  rw [hw] at hlt
  refine ⟨(step_moves ha).isOpen hlt ho, k, hk, ?_⟩
  rcases task_cases ha ht with ⟨ht, -⟩ | ⟨c, z, -, hnext, -⟩ | ⟨ans, t, z, he, -⟩
  · exact ht
  · exact absurd hnext (Nat.ne_of_lt ((hl.link p hp).lt k hk))
  · exact absurd hk (hno k ans he)

/-- Of a public connection that the object does not read of, nothing is said. -/
theorem Fidelity.other (h : n.Fidelity S) (hb : n.Base S) (hl : Links n.object n.publics)
    (ha : (tunnelObject S.P).step n.object a = some s) (hsaid : Says S.P S.bridge n.object s a ms)
    (hu : s.store.bridges.Unreused S.bridge) {j : ℕ} {p : Public} (hp : n.publics[j]? = some p)
    (hown : ∀ k ans t, a = .resume k ans → n.object.task k = some t → t.connects = true →
      ∃ (i : ℕ) (q : Public), n.publics[i]? = some q ∧ q.call = some k ∧ i ≠ j) {key : ℕ} {x' : Channel}
    (hkey : p.channel = some key) (hx' : s.store.bridges.connection key = some x') (hw : x'.bridge = S.bridge) :
    Carried (n.log ++ ms) x'.conn p (Live S s p key) := by
  have hmem := List.mem_of_getElem? hp
  have hlink := hl.link p hmem
  obtain ⟨x, hx, hxx⟩ := connection_was ha (hlink.keys key hkey) hx'
  have hwx : x.bridge = S.bridge := hxx.bridge.symm.trans hw
  have hno : ∀ k ans, a = .resume k ans → p.call ≠ some k := fun k ans he hk => by
    obtain ⟨t, z, o, ht, -⟩ := resume_cases (he ▸ ha)
    obtain ⟨i, q, hq, hqk, hne⟩ := hown k ans t he ht (hlink.connects k t hk (task_mem ht))
    exact hne (hl.one i j q p k hq hp hqk hk)
  rw [hxx.conn]
  refine (h.carried p hmem key x hkey hx hwx).silent (fun m hm hconn => ?_) (live_was hb hl ha hmem hno hx hwx) rfl
    (.refl _)
  rw [← hxx.conn] at hconn
  rcases hsaid.cause with hnone | ⟨k, ans, t, z, o, he, ht, h1, rfl, hsends⟩
  · rw [hnone m hm] at hconn
    cases hconn
  · rw [settle_store] at hx' hu
    cases hsends with
    | other hnone =>
      rw [hnone m hm] at hconn
      cases hconn
    | opened _ _ _ hnew =>
      -- the new connection has another number
      have hc := Option.some.inj ((opening_about m hm).symm.trans hconn)
      have hkk := hu key _ x' _ hx' hnew hw rfl hc.symm
      exact absurd hkk (Nat.ne_of_lt (hlink.keys key hkey))
    | @uploaded key₀ y _ _ hc hy hyw hsent =>
      obtain ⟨rfl, -⟩ := Cause.resumed.inj hc
      obtain ⟨i, q, hq, hqk, hne⟩ := hown k ans _ he ht rfl
      have hchannel := (hl.link q (List.mem_of_getElem? hq)).channel k _ key₀ hqk (task_mem ht) rfl
      obtain ⟨y', hy', hyy⟩ := (resume_touch h1).moves.connection key₀ y hy
      have hc := Option.some.inj ((hsent.about m hm).symm.trans hconn)
      have hkk := hu key key₀ x' y' hx' hy' hw (hyy.bridge.trans hyw) (hc.symm.trans hyy.conn.symm)
      exact hne (hl.apart i j q p key hq hp (hkk ▸ hchannel) hkey)

/-- A call that goes on waits for what its segment ended with. -/
theorem settled_task {k : ℕ} {x : Store} {o : Outcome Task Result} {u : Task}
    (h : (k, u) ∈ ((n.object.wake k).settle k x o).tasks) : o = .await u := by
  rcases mem_settle_tasks h with h | ⟨-, ho⟩
  · have hne := (List.mem_filter.mp h).2
    simp at hne
  · exact ho

/-- The upload of a public connection begins. -/
theorem Fidelity.begins (hb : n.Base S) {k : ℕ} {r : Option StoredTunnel} {ans : Answer} {x : Store}
    {o : Outcome Task Result} {u : Task} {p q : Public} {key : ℕ} {c : Channel}
    (ha : (tunnelObject S.P).step n.object (.resume k ans) = some s) (hs : s = (n.object.wake k).settle k x o)
    (h1 : resume S.P n.object.store (.connectRead r) ans = some (x, o)) (ho : o = .await u) (hkey : u.key = some key)
    (hlog : ((s.store.bridges.socket S.bridge).map (·.sent)).getD n.log = n.log ++ ms)
    (hsaid : Says S.P S.bridge n.object s (.resume k ans) ms) (hu : s.store.bridges.Unreused S.bridge)
    (hg : Public.Goes S n.object p q (some (.resume k ans))) (htaken : p.taken = [])
    (hc : s.store.bridges.connection key = some c) (hw : c.bridge = S.bridge) :
    Carried (n.log ++ ms) c.conn q (Live S s q key) := by
  subst ho
  have htouch := resume_touch h1
  obtain ⟨⟨hello, rfl⟩, rfl⟩ := htouch.opens hkey
  obtain ⟨rfl, c', hc', hbegins⟩ := htouch.begins (owned_of_reachable hb.object)
  have hx : s.store.bridges = x.bridges := by rw [hs, settle_store]
  rw [← hx] at hc' hbegins
  obtain rfl := Option.some.inj (hc.symm.trans hc')
  have hno := unspoken hb ha hu hc hw
  by_cases hopen : n.object.store.bridges.isOpen S.bridge = true
  · obtain ⟨w, hsocket, hwo⟩ := (Option.any_eq_true _ _).mp hopen
    obtain ⟨w', hw', hsent⟩ := hbegins w (by rw [hw]; exact hsocket) hwo
    rw [hw] at hw'
    rw [hw', Option.map_some, Option.getD_some, hsent, hb.noted.sent w hsocket] at hlog
    rw [hb.noted.sent w hsocket, ← hlog, ← hb.noted.sent w hsocket]
    refine .begin hno ?_
    have hreads := hg.reads
    cases hreads with
    | hello _ _ ht => rw [ht, htaken, List.nil_append]
    | other _ _ ha =>
      rcases ha with ha | ⟨message, ha⟩
      · cases ha
      · cases ha
  · have hms : ms = [] := by
      by_contra hne
      exact hopen (hsaid.isOpen hne)
    rw [hms, List.append_nil]
    refine .unsent hno fun hlive => hopen ?_
    rcases step_entered ha hc with ⟨y, hy, -⟩ | ⟨_, _, _, _, _, henters⟩
    · exact absurd ((owned_of_reachable hb.object).lt _ y hy) (lt_irrefl _)
    · obtain ⟨w, hwm, hid⟩ := henters.listed
      have hlt := (exclusive_of_reachable hb.object).numbered.lt _ (List.mem_map.mpr ⟨w, hwm, rfl⟩)
      rw [hid, hw] at hlt
      exact (step_moves ha).isOpen hlt hlive.1

/-- A turn of the upload of a public connection. -/
theorem Fidelity.goesOn (h : n.Fidelity S) (hb : n.Base S) {k : ℕ} {ans : Answer} {x : Store}
    {o : Outcome Task Result} {p q : Public} {key : ℕ} {y : Channel}
    (ha : (tunnelObject S.P).step n.object (.resume k ans) = some s) (hs : s = (n.object.wake k).settle k x o)
    (ht : n.object.task k = some (.upload key)) (h1 : resume S.P n.object.store (.upload key) ans = some (x, o))
    (hlog : ((s.store.bridges.socket S.bridge).map (·.sent)).getD n.log = n.log ++ ms)
    (hsaid : Says S.P S.bridge n.object s (.resume k ans) ms)
    (hg : Public.Goes S n.object p q (some (.resume k ans))) (hp : p ∈ n.publics) (hpk : p.call = some k)
    (hqk : q.call = some k) (hkey : p.channel = some key) (hy : n.object.store.bridges.connection key = some y)
    (hw : y.bridge = S.bridge) : Carried (n.log ++ ms) y.conn q (Live S s q key) := by
  have hcarried := h.carried p hp key y hkey hy hw
  have awaits : Live S s q key → o = .await (.upload key) := fun hlive => by
    obtain ⟨-, j, hj, hu⟩ := hlive
    obtain rfl := Option.some.inj (hqk.symm.trans hj)
    exact settled_task (n := n) (hs ▸ hu)
  by_cases hopen : n.object.store.bridges.isOpen S.bridge = true
  · obtain ⟨w, hsocket, hwo⟩ := (Option.any_eq_true _ _).mp hopen
    obtain ⟨w', m, hw', hsent, hsends⟩ := (resume_touch h1).turn hy (by rw [hw]; exact hsocket) hwo
    have hx : s.store.bridges = x.bridges := by rw [hs, settle_store]
    rw [← hx, hw] at hw'
    rw [hw', Option.map_some, Option.getD_some, hsent, hb.noted.sent w hsocket] at hlog
    obtain rfl := List.append_cancel_left hlog
    exact hcarried.turn ⟨hopen, k, hpk, task_mem ht⟩ hsends hg fun hlive => ⟨key, awaits hlive⟩
  · have hms : ms = [] := by
      by_contra hne
      exact hopen (hsaid.isOpen hne)
    have hlt := ((uploads_of_reachable hb.object).served key y hy).1
    rw [hw] at hlt
    refine hcarried.stop (fun m hm => ?_) (fun hlive => hopen ((step_moves ha).isOpen hlt hlive.1)) hg.taken hg.keeps
    rw [hms] at hm
    cases hm

/-- The public connection that the object reads of. -/
theorem Fidelity.own (h : n.Fidelity S) (hb : n.Base S) (hl : Links n.object n.publics) {i k : ℕ} {p q : Public}
    {ans : Answer} (hp : n.publics[i]? = some p) (hpk : p.call = some k) (hqk : q.call = some k)
    (hg : Public.Goes S n.object p q (some (.resume k ans)))
    (ha : (tunnelObject S.P).step n.object (.resume k ans) = some s)
    (hlog : ((s.store.bridges.socket S.bridge).map (·.sent)).getD n.log = n.log ++ ms)
    (hsaid : Says S.P S.bridge n.object s (.resume k ans) ms) (hu : s.store.bridges.Unreused S.bridge) {key : ℕ}
    {x' : Channel} (hkey : (q.follow s).channel = some key) (hx' : s.store.bridges.connection key = some x')
    (hw : x'.bridge = S.bridge) : Carried (n.log ++ ms) x'.conn q (Live S s q key) := by
  have hmem := List.mem_of_getElem? hp
  have hlink := hl.link p hmem
  obtain ⟨t, x, o, ht, h1, hs⟩ := resume_cases ha
  have hconnects := hlink.connects k t hpk (task_mem ht)
  -- the channel it has, or the one of the task it waits on
  have followed : p.channel = some key ∨ p.channel = none ∧ ∃ u, o = .await u ∧ u.key = some key := by
    have hkey : q.channel.or ((q.call.bind s.task).bind Task.key) = some key := hkey
    rw [hg.channel, hqk] at hkey
    rcases Option.or_eq_some_iff.mp hkey with hold | ⟨hnone, hkey⟩
    · exact .inl hold
    · obtain ⟨u, hu, hkey⟩ := Option.bind_eq_some_iff.mp hkey
      have hu : s.task k = some u := hu
      exact .inr ⟨hnone, u, settled_task (n := n) (hs ▸ task_mem hu), hkey⟩
  have held : ∀ {key' : ℕ}, t.key = some key' → key' = key := fun {key'} hk => by
    have hchannel := hlink.channel k t key' hpk (task_mem ht) hk
    rcases followed with hold | ⟨hnone, -⟩
    · exact Option.some.inj (hchannel.symm.trans hold)
    · rw [hnone] at hchannel
      cases hchannel
  cases t with
  | connectRead r =>
    obtain ⟨hnone, htaken⟩ := hlink.reading k r hpk (task_mem ht)
    rcases followed with hold | ⟨-, u, ho, hukey⟩
    · rw [hnone] at hold
      cases hold
    · exact Fidelity.begins hb ha hs h1 ho hukey hlog hsaid hu hg htaken hx' hw
  | upload key' =>
    obtain rfl := held rfl
    have hchannel := hlink.channel k _ key' hpk (task_mem ht) rfl
    obtain ⟨y, hy, hyy⟩ := connection_was ha (hlink.keys key' hchannel) hx'
    rw [hyy.conn]
    exact h.goesOn hb ha hs ht h1 hlog hsaid hg hmem hpk hqk hchannel hy (hyy.bridge.symm.trans hw)
  | settling key' =>
    obtain rfl := held rfl
    have hchannel := hlink.channel k _ key' hpk (task_mem ht) rfl
    obtain ⟨y, hy, hyy⟩ := connection_was ha (hlink.keys key' hchannel) hx'
    rw [hyy.conn]
    refine (h.carried p hmem key' y hchannel hy (hyy.bridge.symm.trans hw)).stop (fun m hm hconn => ?_)
      (fun hlive => ?_) hg.taken hg.keeps
    · rcases hsaid.cause with hnone | ⟨j, ans', t, z, o', he, htask, -, -, hsends⟩
      · rw [hnone m hm] at hconn
        cases hconn
      · obtain ⟨rfl, -⟩ := Label.resume.inj he
        obtain rfl := Option.some.inj (ht.symm.trans htask)
        cases hsends with
        | other hnone =>
          rw [hnone m hm] at hconn
          cases hconn
        | opened hc _ _ _ => cases hc
        | uploaded hc _ _ _ => cases hc
    · obtain ⟨-, j, hj, hu⟩ := hlive
      obtain rfl := Option.some.inj (hqk.symm.trans hj)
      have htouch := resume_touch h1
      have ho : o = _ := settled_task (n := n) (hs ▸ hu)
      rw [ho] at htouch
      generalize x.bridges = b' at htouch
      cases htouch with
      | still hk _ => cases hk
  | _ => cases hconnects

/-- A public connection that serves a number goes on to. -/
theorem Serves.kept {μ : NetworkMove C} (hb : n.Base S) (hs : n.step S μ = some n') {p : Public} {k : ℕ}
    (hp : p ∈ n.publics) (h : Serves S n p k) : ∃ p' ∈ n'.publics, Serves S n' p' k := by
  obtain ⟨key, x, hkey, hx, hw, hc⟩ := h
  obtain ⟨p', hp', hkey'⟩ := channel_kept hb hs hp hkey
  obtain ⟨x', hx', hxx⟩ := (moves_of_step hs).connection key x hx
  exact ⟨p', hp', key, x', hkey', hx', hxx.bridge.trans hw, hxx.conn.trans hc⟩

/-- Who the messages are about that a call of `connect` sends. -/
theorem Fidelity.speaks (h : n.Fidelity S) (hb : n.Base S) (hl : Links n.object n.publics) {i k : ℕ} {p q : Public}
    {ans : Answer} (hp : n.publics[i]? = some p) (hpk : p.call = some k) (hqk : q.call = some k)
    (hch : q.channel = p.channel) (ha : (tunnelObject S.P).step n.object (.resume k ans) = some n'.object)
    (hsaid : Says S.P S.bridge n.object n'.object (.resume k ans) ms) (hu : n'.object.store.bridges.Unreused S.bridge)
    (hpublics : n'.publics = n.publics.set i (q.follow n'.object)) :
    Sealed (n.log ++ ms) ∧ ∀ m ∈ ms, ∀ j, m.conn? = some j → ∃ p' ∈ n'.publics, Serves S n' p' j := by
  have hmem := List.mem_of_getElem? hp
  have hlt := (List.getElem?_eq_some_iff.mp hp).1
  have hset : q.follow n'.object ∈ n'.publics := by
    rw [hpublics]
    exact List.mem_of_getElem? (List.getElem?_set_self hlt)
  have silent : (∀ m ∈ ms, m.conn? = none) → Sealed (n.log ++ ms) ∧ ∀ m ∈ ms, ∀ j, m.conn? = some j →
      ∃ p' ∈ n'.publics, Serves S n' p' j := fun hnone => by
    refine ⟨h.isSealed.silent hnone, fun m hm j hj => ?_⟩
    rw [hnone m hm] at hj
    cases hj
  rcases hsaid.cause with hnone | ⟨k', ans', t, x, o, he, ht, h1, hs, hsends⟩
  · exact silent hnone
  · obtain ⟨rfl, rfl⟩ := Label.resume.inj he
    have hx : n'.object.store.bridges = x.bridges := by rw [hs, settle_store]
    cases hsends with
    | other hnone => exact silent hnone
    | @opened r hello conn hc ho _ hnew =>
      obtain ⟨rfl, rfl⟩ := Cause.resumed.inj hc
      rw [← hx] at hnew
      refine ⟨h.isSealed.append (sealed_of_closes closes?_opening) fun m hm j hj m' hm' hclose => ?_, fun m hm j hj => ?_⟩
      · obtain rfl := Option.some.inj ((opening_about m hm).symm.trans hj)
        exact unspoken hb ha hu hnew rfl m' hm' (ServerMessage.conn?_of_closes hclose)
      · obtain rfl := Option.some.inj ((opening_about m hm).symm.trans hj)
        refine ⟨_, hset, _, _, ?_, hnew, rfl, rfl⟩
        -- the call had no channel, and now waits for its upload
        obtain ⟨hnone, -⟩ := (hl.link p hmem).reading k r hpk (task_mem ht)
        have htask : (k, Task.upload n.object.store.bridges.nextConnection) ∈ n'.object.tasks := by
          rw [hs, ho]
          exact List.mem_append_right _ (List.mem_singleton.mpr rfl)
        show q.channel.or ((q.call.bind n'.object.task).bind Task.key) = _
        rw [hch, hnone, hqk, Option.none_or, Option.bind_some, task_of_mem (tasks_nodup (hb.object.step ha)) htask]
        rfl
    | @uploaded key y _ _ hc hy hyw hsent =>
      obtain ⟨rfl, rfl⟩ := Cause.resumed.inj hc
      have hchannel := (hl.link p hmem).channel k _ key hpk (task_mem ht) rfl
      have hne : ms ≠ [] := by
        cases hsent <;> exact List.cons_ne_nil _ _
      have hlive : Live S n.object p key := ⟨hsaid.isOpen hne, k, hpk, task_mem ht⟩
      obtain ⟨-, hopen⟩ := (h.carried p hmem key y hchannel hy hyw).whole hlive
      have hone : Sealed ms := by
        cases hsent <;> exact List.pairwise_singleton _ _
      refine ⟨h.isSealed.append hone fun m hm j hj m' hm' hclose => ?_, fun m hm j hj => ?_⟩
      · obtain rfl := Option.some.inj ((hsent.about m hm).symm.trans hj)
        exact hopen m' hm' hclose
      · obtain rfl := Option.some.inj ((hsent.about m hm).symm.trans hj)
        obtain ⟨y', hy', hyy⟩ := (step_moves ha).connection key y hy
        refine ⟨_, hset, key, y', ?_, hy', hyy.bridge.trans hyw, hyy.conn⟩
        show q.channel.or _ = _
        rw [hch, hchannel]
        rfl

/-- A step of the network keeps it all. -/
theorem Fidelity.step {μ : NetworkMove C} (h : n.Fidelity S) (hb : n.Base S) (hl : Links n.object n.publics)
    (hu : n'.object.store.bridges.Unreused S.bridge) (hs : n.step S μ = some n') : n'.Fidelity S := by
  have kept : ∀ m ∈ n.log, ∀ k, m.conn? = some k → ∃ p ∈ n'.publics, Serves S n' p k := fun m hm k hk => by
    obtain ⟨p, hp, hserves⟩ := h.owned m hm k hk
    exact hserves.kept hb hs hp
  cases turn_of_step hb hl hs with
  | unseen ho hlog hwas =>
    refine ⟨fun p' hp' key x hkey hx hw => ?_, by rw [hlog]; exact kept, by rw [hlog]; exact h.isSealed⟩
    obtain ⟨j, hj⟩ := List.mem_iff_getElem?.mp hp'
    rcases hwas j p' hj with hnone | ⟨p, hp, hch, hcall, ht, hkeeps⟩
    · rw [hnone] at hkey
      cases hkey
    · rw [ho] at hx ⊢
      rw [hlog]
      have hold := h.carried p (List.mem_of_getElem? hp) key x (hch.symm.trans hkey) hx hw
      have hnext : Carried (n.log ++ []) x.conn p' (Live S n.object p' key) :=
        hold.silent (fun _ hm => nomatch hm) (fun hlive => by unfold Live at hlive; rwa [hcall] at hlive) ht hkeeps
      rwa [List.append_nil] at hnext
  | aside ha hlog hno hwas =>
    obtain ⟨ms, he, hsaid⟩ := hb.says ha
    rw [he] at hlog
    have hnone : ∀ m ∈ ms, m.conn? = none := by
      rcases hsaid.cause with hnone | ⟨k, ans, t, x, o, rfl, ht, -, -, hsends⟩
      · exact hnone
      · have hconnects := hno k ans t rfl ht
        cases hsends with
        | other hnone => exact hnone
        | opened hc _ _ _ =>
          obtain ⟨rfl, -⟩ := Cause.resumed.inj hc
          cases hconnects
        | uploaded hc _ _ _ =>
          obtain ⟨rfl, -⟩ := Cause.resumed.inj hc
          cases hconnects
    refine ⟨fun p' hp' key x hkey hx hw => ?_, fun m hm k hk => ?_, ?_⟩
    · obtain ⟨j, hj⟩ := List.mem_iff_getElem?.mp hp'
      rcases hwas j p' hj with hnone | hp
      · rw [hnone] at hkey
        cases hkey
      · rw [hlog]
        refine h.other hb hl ha hsaid hu hp (fun k ans t he ht hconnects => ?_) hkey hx hw
        rw [hno k ans t he ht] at hconnects
        cases hconnects
    · rw [hlog] at hm
      rcases List.mem_append.mp hm with hm | hm
      · exact kept m hm k hk
      · rw [hnone m hm] at hk
        cases hk
    · rw [hlog]
      exact h.isSealed.silent hnone
  | @own i k p q ans hp hpk hqk hg ha hlog hpublics =>
    obtain ⟨ms, he, hsaid⟩ := hb.says ha
    rw [he] at hlog
    obtain ⟨hfinal, howned⟩ := h.speaks hb hl hp hpk hqk hg.channel ha hsaid hu hpublics
    refine ⟨fun p' hp' key x hkey hx hw => ?_, fun m hm j hj => ?_, by rw [hlog]; exact hfinal⟩
    · obtain ⟨j, hj⟩ := List.mem_iff_getElem?.mp hp'
      rw [hpublics] at hj
      rw [hlog]
      rcases (becomes_set hp _).was hj with ⟨-, rfl⟩ | ⟨hne, hj⟩
      · have hown := h.own hb hl hp hpk hqk hg ha he hsaid hu hkey hx hw
        exact ⟨hown.isPrefix, hown.whole, hown.ended⟩
      · refine h.other hb hl ha hsaid hu hj (fun k' ans' t he _ _ => ?_) hkey hx hw
        obtain ⟨rfl, -⟩ := Label.resume.inj he
        exact ⟨i, p, hp, hpk, hne.symm⟩
    · rw [hlog] at hm
      rcases List.mem_append.mp hm with hm | hm
      · exact kept m hm j hj
      · exact howned m hm j hj

theorem fidelity_of_reached (h : n.Reached S) (hu : n.object.store.bridges.Unreused S.bridge) : n.Fidelity S := by
  refine (h.invariant (I := fun n => n.Base S ∧ Links n.object n.publics ∧
    (n.object.store.bridges.Unreused S.bridge → n.Fidelity S)) ?_ fun n μ n' hn hs => ?_).2.2 hu
  · rintro n ⟨now, rfl⟩
    refine ⟨base_initial now, links_nil _, fun _ => ⟨fun _ hp => (nomatch hp), fun _ hm => (nomatch hm), .nil⟩⟩
  · obtain ⟨hb, hl, hf⟩ := hn
    refine ⟨hb.step hs, links_step hb hl hs, fun hu => ?_⟩
    exact (hf (hu.of_moves (moves_of_step hs))).step hb hl hu hs

end Network

/-! ### Up to the TLS side -/

/-- Where no number is used twice: every message about a connection is about
one of the public connections. What the data frames bring is a beginning of its
stream, and all of it where the end is sent, unless the Worker broke the
connection off before it had passed on all of it; the client hands the TLS side
a beginning of that. And behind the end or the reset of a connection nothing is
sent about it. -/
theorem upload_fidelity {S : Site} {o : Options} {n : Network (Rust.peer o)} (h : n.Reached S)
    (hu : n.object.store.bridges.Unreused S.bridge) :
    (∀ m ∈ n.log, ∀ k, m.conn? = some k → ∃ p ∈ n.publics, Network.Serves S n p k) ∧
      (∀ p ∈ n.publics, ∀ k, Network.Serves S n p k → payloads k n.log <+: p.stream ∧
        (p.writable ≠ .aborted → .endConn k ∈ n.log → p.shut = true ∧ payloads k n.log = p.stream) ∧
        ((Rust.peer o).channel n.client k).handed <+: payloads k n.log) ∧
      n.log.Pairwise fun m m' => ∀ k, m.closes? = some k → m'.conn? ≠ some k := by
  have hf := Network.fidelity_of_reached h hu
  have hb := Network.base_of_reached h
  have hheard : n.Heard (Rust.faithful o) := Network.heard_of_reached h hu
  refine ⟨hf.owned, fun p hp k ⟨key, x, hkey, hx, hw, hc⟩ => ?_, hf.isSealed⟩
  obtain rfl := hc
  have hcarried := hf.carried p hp key x hkey hx hw
  refine ⟨hcarried.isPrefix.trans (hb.flows p hp).taken_of_stream, hcarried.ended, ?_⟩
  exact ((Rust.faithful o).handed (hheard.receives x.conn)).trans (payloads_mono (List.take_prefix _ _))

/-- The client has attached, and two connections are routed to the object. -/
def routedRun : List (NetworkMove (Rust.peer plainOptions)) :=
  (provisioned "csr" ++ [fetching]).map .object ++
    [.client .attach, .deliver, .object (.resume 3 .ok), .object (.resume 3 (.drawn "" "1")), .take false,
      .accept, .accept, .peer 0 (.arrive (tunnelHello ++ [23, 1])), .peer 1 (.arrive tunnelHello),
      .peer 0 (.route [tunnelHello ++ [23]]), .peer 1 (.route [tunnelHello]), .peer 0 .replay, .peer 1 .replay,
      .peer 0 (.hello ⟨some "t.d", "", [tunnelHello], none⟩), .peer 1 (.hello ⟨some "t.d", "", [tunnelHello], none⟩),
      .peer 0 .replay]

/-- The first of them ends. -/
def uploadRun : List (NetworkMove (Rust.peer plainOptions)) :=
  routedRun ++ [.peer 0 (.pipe 1), .peer 0 (.chunk 5 0), .peer 0 .shut, .peer 0 .close, .peer 0 .eof,
    .take false, .take false, .client (.channel 0 .recv), .client (.channel 0 (.write 10))]

theorem uploadRun_ends : ((network plainSite (Rust.peer plainOptions)).exec (.initial _ 0) uploadRun).any (fun n =>
    (n.publics[0]?).any (fun p => p.channel = some 0 ∧ p.stream = tunnelHello ++ [23, 1] ∧ p.writable = .closed) &&
      (n.object.store.bridges.connection 0).any (fun x => x.bridge = 0 ∧ x.conn = 1) &&
      decide (.endConn 1 ∈ n.log ∧ (n.object.store.bridges.connections.map (·.conn)).Nodup)) = true := by
  decide

theorem upload_fidelity_two : ∃ n : Network (Rust.peer plainOptions), n.Reached plainSite ∧
    payloads 1 n.log = tunnelHello ++ [23, 1] := by
  obtain ⟨n, hn, hends⟩ := (Option.any_eq_true _ _).mp uploadRun_ends
  simp only [Bool.and_eq_true, Option.any_eq_true, decide_eq_true_eq] at hends
  obtain ⟨⟨⟨p, hp, hchannel, hstream, hclosed⟩, x, hx, hw, hc⟩, hmem, hnodup⟩ := hends
  have hr := Network.reached_of_exec hn
  obtain ⟨-, hsent, -⟩ := upload_fidelity hr (Bridges.unreused_of_nodup hnodup _)
  obtain ⟨-, hended, -⟩ := hsent p (List.mem_of_getElem? hp) 1 ⟨0, x, hchannel, hx, hw, hc⟩
  exact ⟨n, hr, (hended (by rw [hclosed]; decide) hmem).2.trans hstream⟩

/-- A pipe of the first fails while two bytes of it are under way. -/
def brokenOffRun : List (NetworkMove (Rust.peer plainOptions)) := routedRun ++ [.peer 0 .fail, .peer 0 .eof]

theorem brokenOffRun_ends :
    ((network plainSite (Rust.peer plainOptions)).exec (.initial _ 0) brokenOffRun).any (fun n =>
      (n.publics[0]?).any (fun p => p.channel = some 0 ∧ p.stream = tunnelHello ++ [23, 1]) &&
        (n.object.store.bridges.connection 0).any (fun x => x.bridge = 0 ∧ x.conn = 1) &&
        decide (.endConn 1 ∈ n.log ∧ payloads 1 n.log = tunnelHello ∧
          (n.object.store.bridges.connections.map (·.conn)).Nodup)) = true := by
  decide

/-- The end is sent, and two bytes of the stream are not. -/
theorem not_upload_fidelity : ¬ ∀ n : Network (Rust.peer plainOptions), n.Reached plainSite →
    n.object.store.bridges.Unreused plainSite.bridge → ∀ p ∈ n.publics, ∀ k, Network.Serves plainSite n p k →
      .endConn k ∈ n.log → payloads k n.log = p.stream := by
  intro hall
  obtain ⟨n, hn, hends⟩ := (Option.any_eq_true _ _).mp brokenOffRun_ends
  simp only [Bool.and_eq_true, Option.any_eq_true, decide_eq_true_eq] at hends
  obtain ⟨⟨⟨p, hp, hchannel, hstream⟩, x, hx, hw, hc⟩, hmem, hsent, hnodup⟩ := hends
  have hlost := hall n (Network.reached_of_exec hn) (Bridges.unreused_of_nodup hnodup _) p (List.mem_of_getElem? hp) 1
    ⟨0, x, hchannel, hx, hw, hc⟩ hmem
  rw [hsent, hstream] at hlost
  exact absurd hlost (by decide)

end ShuvTunnel
