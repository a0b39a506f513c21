/-
# Whose call, whose channel

Each public connection has at most one call of `connect`, and the call at most
one channel; no two public connections share either. So what the object sends
about a connection, it has read from one public stream.

Key definitions: `Links`.
Key theorems: `task_cases`, `Links.away`, `Link.called`, `Links.call`,
`Links.resumed`, `Network.links_of_reached`.
-/
import ShuvTunnel.Network

namespace ShuvTunnel

open Coop

/-- A task after a step was there before, or the step ended with it. -/
theorem task_cases {P : Platform} {s s' : State} {a : Action} {p : ℕ × Task} (hs : (tunnelObject P).step s a = some s')
    (hp : p ∈ s'.tasks) : (p ∈ s.tasks ∧ ∀ ans, a ≠ .resume p.1 ans) ∨
      (∃ c x, a = .call c ∧ p.1 = s.next ∧ start P s.store c = some (x, .await p.2) ∧ s'.store = x) ∨
      ∃ ans t x, a = .resume p.1 ans ∧ s.task p.1 = some t ∧ resume P s.store t ans = some (x, .await p.2) ∧
        s'.store = x := by
  obtain ⟨c, x, o, rfl, h1, rfl⟩ | ⟨k, ans, t, x, o, rfl, ht, h1, rfl⟩ | ⟨e, x, rfl, -, rfl⟩ := step_cases hs
  · rcases mem_settle_tasks hp with hp | ⟨hk, rfl⟩
    · exact .inl ⟨hp, fun _ he => nomatch he⟩
    · exact .inr (.inl ⟨c, x, rfl, hk, h1, rfl⟩)
  · rcases mem_settle_tasks hp with hp | ⟨rfl, rfl⟩
    · refine .inl ⟨mem_wake_tasks hp, fun ans' he => ?_⟩
      obtain ⟨rfl, -⟩ := Label.resume.inj he
      have hne := (List.mem_filter.mp hp).2
      simp at hne
    · exact .inr (.inr ⟨ans, t, x, rfl, ht, h1, rfl⟩)
  · exact .inl ⟨hp, fun _ he => nomatch he⟩

/-- A call that is resumed runs its next segment. -/
theorem resume_cases {P : Platform} {s s' : State} {k : ℕ} {ans : Answer}
    (hs : (tunnelObject P).step s (.resume k ans) = some s') : ∃ t x o, s.task k = some t ∧
      resume P s.store t ans = some (x, o) ∧ s' = (s.wake k).settle k x o := by
  obtain ⟨t, ht, hs⟩ := Option.bind_eq_some_iff.mp hs
  obtain ⟨⟨x, o⟩, h1, rfl⟩ := Option.map_eq_some_iff.mp hs
  exact ⟨t, x, o, ht, h1, rfl⟩

/-- A call takes the next number, all else leaves it. -/
theorem next_grows {P : Platform} {s s' : State} {a : Action} (hs : (tunnelObject P).step s a = some s') :
    s.next ≤ s'.next ∧ ∀ c, a = .call c → s.next < s'.next := by
  refine ⟨next_le hs, fun c ha => ?_⟩
  obtain ⟨c, x, o, -, -, rfl⟩ | ⟨k, ans, t, x, o, rfl, -⟩ | ⟨e, x, rfl, -⟩ := step_cases hs
  · rw [settle_next]
    exact Nat.lt_succ_self _
  · cases ha
  · cases ha

/-- `connect` goes on as `connect`, with a channel. -/
theorem connects_next {P : Platform} {s x : Store} {t u : Task} {a : Answer} (ht : t.connects = true)
    (h : resume P s t a = some (x, .await u)) : u.connects = true ∧ ∃ key, u.key = some key := by
  have keyed : ∀ {v : Task}, v.key ≠ none → v.connects = true ∧ ∃ key, v.key = some key := fun {v} hv => by
    cases v with
    | upload key => exact ⟨rfl, key, rfl⟩
    | settling key => exact ⟨rfl, key, rfl⟩
    | _ => exact absurd rfl hv
  cases t with
  | connectRead record =>
    cases a with
    | hello hello =>
      have h : s.connectHello P record hello = some (x, .await u) := h
      unfold Store.connectHello at h
      simp only at h
      split at h
      · split at h
        · cases h
        · obtain ⟨⟨conn, n⟩, -, h⟩ := Option.map_eq_some_iff.mp h
          simp only at h
          split at h
          · cases h
          · obtain ⟨-, ho⟩ := Prod.mk.inj h
            obtain rfl := Outcome.await.inj ho
            exact keyed (by simp [Task.key])
      · cases h
    | _ => cases h
  | upload key =>
    have htouch := resume_touch h
    generalize x.bridges = b' at htouch
    cases htouch with
    | still hk _ => cases hk
    | uploaded _ _ => exact keyed (by simp [Task.key])
    | uploadEnded _ _ => exact keyed (by simp [Task.key])
    | uploadFailed _ _ _ => exact keyed (by simp [Task.key])
  | settling key =>
    have htouch := resume_touch h
    generalize x.bridges = b' at htouch
    cases htouch with
    | still hk _ => cases hk
  | _ => cases ht

/-! ### The public connections and their calls -/

/-- A public connection's call waits for its channel only, and for none before
the object has read of the stream. -/
structure Link (s : State) (p : Public) : Prop where
  lt : ∀ k, p.call = some k → k < s.next
  connects : ∀ k t, p.call = some k → (k, t) ∈ s.tasks → t.connects = true
  uncalled : p.call = none → p.channel = none ∧ p.taken = []
  reading : ∀ k r, p.call = some k → (k, .connectRead r) ∈ s.tasks → p.channel = none ∧ p.taken = []
  channel : ∀ k t key, p.call = some k → (k, t) ∈ s.tasks → t.key = some key → p.channel = some key
  keys : ∀ key, p.channel = some key → key < s.store.bridges.nextConnection

/-- And no two share a call or a channel. -/
structure Links (s : State) (ps : List Public) : Prop where
  link : ∀ p ∈ ps, Link s p
  one : ∀ (i j : ℕ) (p q : Public) k, ps[i]? = some p → ps[j]? = some q → p.call = some k → q.call = some k → i = j
  apart : ∀ (i j : ℕ) (p q : Public) key, ps[i]? = some p → ps[j]? = some q → p.channel = some key →
    q.channel = some key → i = j

theorem links_nil (s : State) : Links s [] :=
  ⟨fun _ hp => (nomatch hp), fun _ _ _ _ _ hp => (nomatch hp), fun _ _ _ _ _ hp => (nomatch hp)⟩

variable {P : Platform} {s s' : State} {ps : List Public} {p q : Public} {i : ℕ} {a : Action}

theorem link_accepted (s : State) : Link s .accepted :=
  ⟨fun _ hk => (nomatch hk), fun _ _ hk => (nomatch hk), fun _ => ⟨rfl, rfl⟩, fun _ _ hk => (nomatch hk),
    fun _ _ _ hk => (nomatch hk), fun _ hk => (nomatch hk)⟩

/-- A connection is accepted. -/
theorem Links.accept (h : Links s ps) : Links s (ps ++ [.accepted]) := by
  refine ⟨fun p hp => ?_, fun i j p q k hp hq hpk hqk => ?_, fun i j p q key hp hq hpk hqk => ?_⟩
  · rcases List.mem_append.mp hp with hp | hp
    · exact h.link p hp
    · rw [List.mem_singleton.mp hp]
      exact link_accepted s
  · rcases concat_was hp with hp' | ⟨-, rfl⟩
    · rcases concat_was hq with hq' | ⟨-, rfl⟩
      · exact h.one i j p q k hp' hq' hpk hqk
      · cases hqk
    · cases hpk
  · rcases concat_was hp with hp' | ⟨-, rfl⟩
    · rcases concat_was hq with hq' | ⟨-, rfl⟩
      · exact h.apart i j p q key hp' hq' hpk hqk
      · cases hqk
    · cases hpk

/-- The object goes on without the connection's call. -/
theorem Link.away (h : Link s p) (hs : (tunnelObject P).step s a = some s')
    (ha : ∀ k ans t, p.call = some k → a = .resume k ans → s.task k = some t → t.connects = false) : Link s' p := by
  have old : ∀ {k : ℕ} {t : Task}, p.call = some k → (k, t) ∈ s'.tasks → (k, t) ∈ s.tasks := fun {k t} hk ht => by
    rcases task_cases hs ht with ⟨ht, -⟩ | ⟨c, x, -, hnext, -⟩ | ⟨ans, u, x, he, hu, -⟩
    · exact ht
    · exact absurd hnext (Nat.ne_of_lt (h.lt k hk))
    · have hno := ha k ans u hk he hu
      rw [h.connects k u hk (task_mem hu)] at hno
      cases hno
  exact ⟨fun k hk => lt_of_lt_of_le (h.lt k hk) (next_le hs), fun k t hk ht => h.connects k t hk (old hk ht), h.uncalled,
    fun k r hk ht => h.reading k r hk (old hk ht), fun k t key hk ht => h.channel k t key hk (old hk ht),
    fun key hk => lt_of_lt_of_le (h.keys key hk) (step_moves hs).nextConnection⟩

/-- And without any of their calls. -/
theorem Links.away (h : Links s ps) (hs : (tunnelObject P).step s a = some s')
    (ha : ∀ k ans t, a = .resume k ans → s.task k = some t → t.connects = false) : Links s' ps :=
  ⟨fun p hp => (h.link p hp).away hs fun k ans t _ => ha k ans t, h.one, h.apart⟩

/-- One public connection goes on, and the others have nothing to do with it. -/
theorem Links.set (h : Links s ps) (hi : ps[i]? = some p) (hq : Link s' q)
    (hlink : ∀ x ∈ ps, (∀ k, x.call = some k → p.call ≠ some k) → Link s' x)
    (hcall : ∀ k, q.call = some k → p.call = some k ∨ ∀ x ∈ ps, x.call ≠ some k)
    (hchannel : ∀ key, q.channel = some key → p.channel = some key ∨ ∀ x ∈ ps, x.channel ≠ some key) :
    Links s' (ps.set i q) := by
  have was : ∀ {j : ℕ} {x : Public}, (ps.set i q)[j]? = some x → j = i ∧ x = q ∨ j ≠ i ∧ ps[j]? = some x :=
    (becomes_set hi q).was
  refine ⟨fun x hx => ?_, fun j j' x y k hx hy hxk hyk => ?_, fun j j' x y key hx hy hxk hyk => ?_⟩
  · obtain ⟨j, hj⟩ := List.mem_iff_getElem?.mp hx
    rcases was hj with ⟨-, rfl⟩ | ⟨hne, hj'⟩
    · exact hq
    · exact hlink x (List.mem_of_getElem? hj') fun k hk hpk => hne (h.one j i x p k hj' hi hk hpk)
  · rcases was hx with ⟨rfl, rfl⟩ | ⟨-, hx'⟩
    · rcases was hy with ⟨rfl, -⟩ | ⟨-, hy'⟩
      · rfl
      · rcases hcall k hxk with hpk | hno
        · exact h.one _ _ p y k hi hy' hpk hyk
        · exact absurd hyk (hno y (List.mem_of_getElem? hy'))
    · rcases was hy with ⟨rfl, rfl⟩ | ⟨-, hy'⟩
      · rcases hcall k hyk with hpk | hno
        · exact h.one _ _ x p k hx' hi hxk hpk
        · exact absurd hxk (hno x (List.mem_of_getElem? hx'))
      · exact h.one _ _ x y k hx' hy' hxk hyk
  · rcases was hx with ⟨rfl, rfl⟩ | ⟨-, hx'⟩
    · rcases was hy with ⟨rfl, -⟩ | ⟨-, hy'⟩
      · rfl
      · rcases hchannel key hxk with hpk | hno
        · exact h.apart _ _ p y key hi hy' hpk hyk
        · exact absurd hyk (hno y (List.mem_of_getElem? hy'))
    · rcases was hy with ⟨rfl, rfl⟩ | ⟨-, hy'⟩
      · rcases hchannel key hyk with hpk | hno
        · exact h.apart _ _ x p key hx' hi hxk hpk
        · exact absurd hxk (hno x (List.mem_of_getElem? hx'))
      · exact h.apart _ _ x y key hx' hy' hxk hyk

/-- What the object does not see changes neither call nor channel. -/
theorem Links.unseen (h : Links s ps) (hi : ps[i]? = some p) (ht : q.taken = p.taken) (hc : q.call = p.call)
    (hch : q.channel = p.channel) : Links s (ps.set i q) := by
  have hlink := h.link p (List.mem_of_getElem? hi)
  refine h.set hi ⟨?_, ?_, ?_, ?_, ?_, ?_⟩ (fun x hx _ => h.link x hx) (fun k hk => .inl (hc ▸ hk))
    fun key hk => .inl (hch ▸ hk)
  · rw [hc]
    exact hlink.lt
  · rw [hc]
    exact hlink.connects
  · rw [hc, hch, ht]
    exact hlink.uncalled
  · rw [hc, hch, ht]
    exact hlink.reading
  · rw [hc, hch]
    exact hlink.channel
  · rw [hch]
    exact hlink.keys

/-- A new call waits to read of the stream, and has no channel. -/
theorem Link.called (h : Link s p) (hr : Reachable P s) (hs : (tunnelObject P).step s (.call .connect) = some s')
    (hp : p.call = none) (hcall : q.call = some s.next) (hch : q.channel = p.channel) :
    (∀ t, (s.next, t) ∈ s'.tasks → ∃ r, t = .connectRead r) ∧ (q.follow s').channel = none := by
  have hreads : ∀ t, (s.next, t) ∈ s'.tasks → ∃ r, t = .connectRead r := fun t ht => by
    rcases task_cases hs ht with ⟨ht, -⟩ | ⟨c, x, hc, -, h1, -⟩ | ⟨ans, u, x, he, -⟩
    · exact absurd ((ShuvTunnel.called hr).tasks _ ht) (lt_irrefl _)
    · obtain rfl := Label.call.inj hc
      obtain ⟨-, ho⟩ := Prod.mk.inj (Option.some.inj h1)
      exact ⟨_, (Outcome.await.inj ho).symm⟩
    · cases he
  refine ⟨hreads, ?_⟩
  show q.channel.or ((q.call.bind s'.task).bind Task.key) = none
  rw [hch, (h.uncalled hp).1, hcall, Option.none_or, Option.bind_some]
  cases htask : s'.task s.next with
  | none => rfl
  | some t =>
    obtain ⟨r, rfl⟩ := hreads t (task_mem htask)
    rfl

/-- The object is called for a public connection. -/
theorem Links.call (h : Links s ps) (hr : Reachable P s) (hi : ps[i]? = some p)
    (hs : (tunnelObject P).step s (.call .connect) = some s') (hp : p.call = none) (hcall : q.call = some s.next)
    (hch : q.channel = p.channel) (ht : q.taken = p.taken) : Links s' (ps.set i (q.follow s')) := by
  have hlink := h.link p (List.mem_of_getElem? hi)
  obtain ⟨hreads, hchannel⟩ := hlink.called hr hs hp hcall hch
  have called : ∀ {k : ℕ}, (q.follow s').call = some k → k = s.next := fun hk =>
    (Option.some.inj (hcall.symm.trans hk)).symm
  refine h.set hi ⟨fun k hk => ?_, fun k t hk htask => ?_, fun hno => ?_, fun k r hk _ => ?_, fun k t key hk htask hkey =>
    ?_, fun key hk => ?_⟩ (fun x hx _ => ?_) (fun k hk => .inr fun x hx hxk => ?_) fun key hk => ?_
  · rw [called hk]
    exact (next_grows hs).2 _ rfl
  · obtain rfl := called hk
    obtain ⟨r, rfl⟩ := hreads t htask
    rfl
  · have hno : q.call = none := hno
    rw [hcall] at hno
    cases hno
  · exact ⟨hchannel, ht.trans (hlink.uncalled hp).2⟩
  · obtain rfl := called hk
    obtain ⟨r, rfl⟩ := hreads t htask
    cases hkey
  · rw [hchannel] at hk
    cases hk
  · exact (h.link x hx).away hs fun _ _ _ _ he => nomatch he
  · obtain rfl := called hk
    exact absurd ((h.link x hx).lt _ hxk) (lt_irrefl _)
  · rw [hchannel] at hk
    cases hk

/-- `connect` without a channel has yet to read. -/
theorem Task.reading_of_connects {t : Task} (ht : t.connects = true) (hk : t.key = none) : ∃ r, t = .connectRead r := by
  cases t with
  | connectRead r => exact ⟨r, rfl⟩
  | upload key => cases hk
  | settling key => cases hk
  | _ => cases ht

/-- The call of a public connection goes on. -/
theorem Links.resumed (h : Links s ps) (hr : Reachable P s) (hi : ps[i]? = some p) {k : ℕ} {ans : Answer}
    (hs : (tunnelObject P).step s (.resume k ans) = some s') (hp : p.call = some k) (hcall : q.call = some k)
    (hch : q.channel = p.channel) : Links s' (ps.set i (q.follow s')) := by
  have hlink := h.link p (List.mem_of_getElem? hi)
  have hr' := hr.step hs
  -- the call goes on with the channel it has, or with a new one
  have goesOn : ∀ {u : Task}, (k, u) ∈ s'.tasks → u.connects = true ∧ ∃ key, u.key = some key ∧
      (p.channel = some key ∨ p.channel = none ∧ key = s.store.bridges.nextConnection) := fun {u} hu => by
    rcases task_cases hs hu with ⟨-, hne⟩ | ⟨c, x, hc, -⟩ | ⟨ans', t, x, he, ht, h1, -⟩
    · exact absurd rfl (hne ans)
    · cases hc
    · have hconnects := hlink.connects k t hp (task_mem ht)
      obtain ⟨hu', key, hkey⟩ := connects_next hconnects h1
      refine ⟨hu', key, hkey, ?_⟩
      rcases (resume_touch h1).holds hkey with ⟨htk, -⟩ | ⟨htk, hnew, -⟩
      · exact .inl (hlink.channel k t key hp (task_mem ht) htk)
      · obtain ⟨r, rfl⟩ := Task.reading_of_connects hconnects htk
        exact .inr ⟨(hlink.reading k r hp (task_mem ht)).1, hnew⟩
  have hchannel : (q.follow s').channel = p.channel.or ((s'.task k).bind Task.key) := by
    show q.channel.or ((q.call.bind s'.task).bind Task.key) = _
    rw [hch, hcall]
    rfl
  have followed : ∀ {u : Task} {key : ℕ}, (k, u) ∈ s'.tasks → u.key = some key → (q.follow s').channel = some key :=
    fun {u key} hu hkey => by
      rw [hchannel, task_of_mem (tasks_nodup hr') hu, Option.bind_some, hkey]
      obtain ⟨-, key', hkey', hold | ⟨hnone, -⟩⟩ := goesOn hu
      · obtain rfl := Option.some.inj (hkey.symm.trans hkey')
        rw [hold]
        rfl
      · rw [hnone]
        rfl
  have had : ∀ {key : ℕ}, (q.follow s').channel = some key → p.channel = some key ∨
      p.channel = none ∧ key = s.store.bridges.nextConnection ∧ ∃ u, (k, u) ∈ s'.tasks ∧ u.key = some key :=
    fun {key} hkey => by
      rw [hchannel] at hkey
      rcases Option.or_eq_some_iff.mp hkey with hold | ⟨hnone, hkey⟩
      · exact .inl hold
      · obtain ⟨u, hu, hkey⟩ := Option.bind_eq_some_iff.mp hkey
        obtain ⟨-, key', hkey', hold | ⟨-, hnew⟩⟩ := goesOn (task_mem hu)
        · rw [hnone] at hold
          cases hold
        · obtain rfl := Option.some.inj (hkey.symm.trans hkey')
          exact .inr ⟨hnone, hnew, u, task_mem hu, hkey⟩
  have called : ∀ {j : ℕ}, (q.follow s').call = some j → j = k := fun hj =>
    (Option.some.inj (hcall.symm.trans hj)).symm
  refine h.set hi ⟨fun j hj => ?_, fun j u hj hu => ?_, fun hno => ?_, fun j r hj hu => ?_, fun j u key hj hu hkey => ?_,
    fun key hkey => ?_⟩ (fun x hx hno => ?_) (fun j hj => .inl ?_) fun key hkey => ?_
  · rw [called hj]
    exact lt_of_lt_of_le (hlink.lt k hp) (next_grows hs).1
  · obtain rfl := called hj
    exact (goesOn hu).1
  · have hno : q.call = none := hno
    rw [hcall] at hno
    cases hno
  · obtain rfl := called hj
    obtain ⟨-, key, hkey, -⟩ := goesOn hu
    cases hkey
  · obtain rfl := called hj
    exact followed hu hkey
  · rcases had hkey with hold | ⟨-, -, u, hu, hkey⟩
    · exact lt_of_lt_of_le (hlink.keys key hold) (step_moves hs).nextConnection
    · exact (uploads_of_reachable hr').lt _ hu key hkey
  · exact (h.link x hx).away hs fun j ans' t hj he _ => by
      obtain ⟨rfl, -⟩ := Label.resume.inj he
      exact absurd hp (hno _ hj)
  · rw [called hj]
    exact hp
  · rcases had hkey with hold | ⟨-, rfl, -⟩
    · exact .inl hold
    · exact .inr fun x hx hxk => absurd ((h.link x hx).keys _ hxk) (lt_irrefl _)

namespace Network

variable {C : Peer} {S : Site} {n n' : Network C}

theorem links_step {μ : NetworkMove C} (hb : n.Base S) (h : Links n.object n.publics) (hs : n.step S μ = some n') :
    Links n'.object n'.publics := by
  cases μ with
  | object a =>
    simp only [step] at hs
    split at hs
    · rename_i hfree
      obtain ⟨s, ha, rfl⟩ := Option.map_eq_some_iff.mp hs
      refine h.away ha fun k ans t he ht => ?_
      rw [he] at hfree
      simpa [free, ht] using hfree
    · cases hs
  | accept =>
    obtain rfl := Option.some.inj hs
    exact h.accept
  | peer i μ =>
    obtain ⟨p, hp, hs⟩ := Option.bind_eq_some_iff.mp hs
    obtain ⟨⟨q, a⟩, hq, hs⟩ := Option.bind_eq_some_iff.mp hs
    have hgoes := (hb.flows p (List.mem_of_getElem? hp)).step hq
    have hreads := hgoes.reads
    cases a with
    | none =>
      obtain rfl := Option.some.inj hs
      cases hreads with
      | unseen ht hc => exact h.unseen hp ht hc hgoes.channel
    | some a =>
      obtain ⟨s, ha, rfl⟩ := Option.map_eq_some_iff.mp hs
      cases hreads with
      | calls hnone ht hc => exact h.call hb.object hp ha hnone hc hgoes.channel ht
      | hello hk hk' _ => exact h.resumed hb.object hp ha hk hk' hgoes.channel
      | chunk hk hk' _ => exact h.resumed hb.object hp ha hk hk' hgoes.channel
      | eof hk he _ => exact h.resumed hb.object hp ha hk (he ▸ hk) hgoes.channel
      | other hk he _ => exact h.resumed hb.object hp ha hk (he ▸ hk) hgoes.channel
  | take stalled =>
    obtain ⟨m, -, hs⟩ := Option.bind_eq_some_iff.mp hs
    obtain ⟨p, -, rfl⟩ := Option.map_eq_some_iff.mp hs
    exact h
  | client μ =>
    obtain ⟨p, -, rfl⟩ := Option.map_eq_some_iff.mp hs
    exact h
  | deliver =>
    simp only [step] at hs
    split at hs
    · cases hs
    · obtain ⟨s, ha, rfl⟩ := Option.map_eq_some_iff.mp hs
      exact h.away ha fun _ _ _ he _ => by cases he
  | sever j =>
    obtain rfl := Option.some.inj hs
    exact h

theorem links_of_reached (h : n.Reached S) : Links n.object n.publics := by
  refine (h.invariant (I := fun n => n.Base S ∧ Links n.object n.publics) ?_
    fun n μ n' hn hs => ⟨hn.1.step hs, links_step hn.1 hn.2 hs⟩).2
  rintro n ⟨now, rfl⟩
  exact ⟨base_initial now, links_nil _⟩

end Network

end ShuvTunnel
