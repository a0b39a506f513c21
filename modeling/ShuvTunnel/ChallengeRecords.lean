/-
# The challenge records of an issuance

`CertificateWorkflow.issue` publishes the answer to each ACME challenge as a TXT
record. The records are created all at once, and the issuance goes on when every
request has succeeded; what follows is in a `try` whose `finally` asks for the
deletion of each of them. Where one creation fails the `await` throws outside of
the `try`, and the records of the others stay.

The requests and their answers are the labels of a system; `creations` are the
requests for records in order, each with what has come of it. What comes before
them is one step.

Key definitions: `Creation`, `Order.next`, `Issue`, `issueSystem`, `Issue.Clean`.
Key theorems: `Issue.sound_of_reachable`, `no_challenge_record_leaks_iff`.
-/
import ShuvTunnel.Lib.Lts

namespace ShuvTunnel

/-! ### The requests -/

/-- What comes of a `POST` of a record. A request that throws may have made one. -/
inductive Creation
  | created (id : String)
  | refused (reason : String)
  | throws (reason : String) (made : Bool)
  deriving DecidableEq

/-- `dns.result.id`. -/
def Creation.id? : Creation → Option String
  | created id => some id
  | refused _ | throws .. => none

/-- A record is in the zone. -/
def Creation.made : Creation → Bool
  | created _ => true
  | refused _ => false
  | throws _ made => made

/-- A DNS challenge of an authorization, with the name its record is made for. -/
structure Challenge where
  authorizationUrl : String
  url : String
  token : String
  key : String
  hostname : String

/-- An ACME order, with the challenges of its authorizations. -/
structure Order where
  finalize : Option String
  location : Option String
  challenges : List Challenge

/-- Where the `try` is. -/
inductive Work
  -- `waitForDns`
  | dns
  | challenge (current : Challenge) (left : List Challenge)
  | authorization (current : Challenge) (left : List Challenge) (attempt : ℕ)
  | finalize
  | order (attempt : ℕ)
  | certificate
  | update (certificate chain expiry : String)

/-- What is awaited gives a value, or throws. -/
inductive AcmeAnswer
  | throws (reason : String)
  | done
  | status (value : String) (certificate : Option String)
  | certificates (pems : List String) (notAfter : Except String String)

/-- The state that is returned: a certificate, its chain and its expiry. -/
abbrev IssueResult := Except String (String × String × String)

/-- Where the ACME client is behind an answer: it goes on, or returns. -/
inductive AcmeTurn
  | goes (work : Work)
  | ends (result : IssueResult)

namespace Order

/-- The next challenge, or the end of the loop over them. -/
def enter (order : Order) : List Challenge → AcmeTurn
  | current :: left => .goes (.challenge current left)
  | [] =>
    match order.finalize with
    | some _ => .goes .finalize
    | none => .ends (.error "ACME order has no finalize URL")

/-- What follows an answer; none where the answer is not to what is awaited. -/
def next (order : Order) : Work → AcmeAnswer → Option AcmeTurn
  | _, .throws reason => some (.ends (.error reason))
  | .dns, .done => some (order.enter order.challenges)
  | .challenge current left, .done => some (.goes (.authorization current left 0))
  | .authorization current left attempt, .status value _ =>
    if value = "pending" ∧ attempt < 30 then some (.goes (.authorization current left (attempt + 1)))
    else if value = "valid" then some (order.enter left)
    else some (.ends (.error ("ACME authorization ended in " ++ value)))
  | .finalize, .done =>
    match order.location with
    | some _ => some (.goes (.order 0))
    | none => some (.ends (.error "ACME order has no location URL"))
  | .order attempt, .status value certificate =>
    if value = "processing" ∧ attempt < 30 then some (.goes (.order (attempt + 1)))
    else if value = "valid" ∧ certificate.isSome then some (.goes .certificate)
    else some (.ends (.error ("ACME order ended in " ++ value)))
  | .certificate, .certificates pems notAfter =>
    match pems, notAfter with
    | [], _ => some (.ends (.error "ACME response did not contain a certificate"))
    | _ :: _, .error reason => some (.ends (.error reason))
    | certificate :: chain, .ok expiry => some (.goes (.update certificate ("\n".intercalate chain) expiry))
  | .update certificate chain expiry, .done => some (.ends (.ok (certificate, chain, expiry)))
  | _, _ => none

end Order

/-! ### A call of `issue` -/

/-- Where a call of `issue` is. -/
inductive IssueStage
  | preparing
  | creating (order : Order)
  | working (order : Order) (work : Work)
  -- the `finally`
  | deleting (result : IssueResult)
  | ended (result : IssueResult)

/-- `deletes` are the records whose deletion is requested, each with whether that
request has completed. -/
structure Issue where
  stage : IssueStage
  creations : List (Option Creation)
  deletes : List (String × Bool)

/-- What a call of `issue` waits for. -/
inductive IssueEvent
  -- the account, the order, its authorizations and the first `update`
  | prepareThrows (reason : String)
  | prepared (order : Order)
  | created (i : ℕ) (creation : Creation)
  | answered (answer : AcmeAnswer)
  | deleted (i : ℕ)
  -- `Promise.all` of the deletions
  | ends

namespace Issue

/-- The results of `Promise.all`. -/
def recordIDs (creations : List (Option Creation)) : List String := creations.filterMap fun c => c.bind Creation.id?

/-- A creation has completed: the first that fails ends the call, the last that
succeeds lets it go on. A call that has ended does not wait for the others. -/
def settle (stage : IssueStage) (creations : List (Option Creation)) (c : Creation) : IssueStage :=
  match stage with
  | .creating order =>
    match c with
    | .created _ => if creations.all Option.isSome then .working order .dns else .creating order
    | .refused reason | .throws reason _ => .ended (.error reason)
  | stage => stage

/-- What comes behind an event; the records are created and deleted at the same
time. -/
def step (s : Issue) : IssueEvent → Option Issue
  | .prepareThrows reason =>
    match s.stage with
    | .preparing => some { s with stage := .ended (.error reason) }
    | _ => none
  | .prepared order =>
    match s.stage with
    | .preparing =>
      -- `challenges[0]!.challenge` throws where there is no challenge
      if order.challenges = [] then some { s with stage := .ended (.error "undefined") }
      else some { s with stage := .creating order, creations := order.challenges.map fun _ => none }
    | _ => none
  | .created i creation =>
    if s.creations[i]? = some none then
      let creations := s.creations.set i (some creation)
      some { s with stage := settle s.stage creations creation, creations }
    else none
  | .answered answer =>
    match s.stage with
    | .working order work =>
      (order.next work answer).map fun turn =>
        match turn with
        | .goes work => { s with stage := .working order work }
        | .ends result =>
          { s with stage := .deleting result, deletes := (recordIDs s.creations).map fun id => (id, false) }
    | _ => none
  | .deleted i => (s.deletes[i]?).map fun d => { s with deletes := s.deletes.set i (d.1, true) }
  | .ends =>
    match s.stage with
    | .deleting result => if s.deletes.all (·.2) then some { s with stage := .ended result } else none
    | _ => none

end Issue

/-- A call of `issue`, as a system. -/
def issueSystem : Lts.System Issue IssueEvent := ⟨Issue.step⟩

/-- The call begins. -/
def Issue.fresh : Issue := ⟨.preparing, [], []⟩

/-! ### What is to be left -/

/-- The call has ended and all its requests have completed. -/
structure Issue.Over (s : Issue) : Prop where
  ended : ∃ result, s.stage = .ended result
  created : ∀ c ∈ s.creations, c.isSome = true
  deleted : ∀ d ∈ s.deletes, d.2 = true

/-- The deletion of every record that was made is requested. -/
def Issue.Clean (s : Issue) : Prop :=
  ∀ c, some c ∈ s.creations → c.made = true → ∃ id, c = .created id ∧ id ∈ s.deletes.map Prod.fst

/-! ### What holds while it runs -/

namespace Issue

/-- Every creation has given a record. -/
def AllCreated (creations : List (Option Creation)) : Prop := ∀ c ∈ creations, ∃ id, c = some (.created id)

/-- The deletions are those of all records, or some creation has failed and none
is requested. -/
inductive Sound : Issue → Prop
  | preparing : Sound ⟨.preparing, [], []⟩
  | creating {order : Order} {creations : List (Option Creation)}
      (h : ∀ c, some c ∈ creations → ∃ id, c = .created id) : Sound ⟨.creating order, creations, []⟩
  | working {order : Order} {work : Work} {creations : List (Option Creation)} (h : AllCreated creations) :
      Sound ⟨.working order work, creations, []⟩
  | deleting {result : IssueResult} {creations : List (Option Creation)} {deletes : List (String × Bool)}
      (h : AllCreated creations) (hdeletes : deletes.map Prod.fst = recordIDs creations) :
      Sound ⟨.deleting result, creations, deletes⟩
  | ended {result : IssueResult} {creations : List (Option Creation)} {deletes : List (String × Bool)}
      (h : AllCreated creations) (hdeletes : deletes.map Prod.fst = recordIDs creations) :
      Sound ⟨.ended result, creations, deletes⟩
  | failed {result : IssueResult} {creations : List (Option Creation)} {c : Creation} (hc : some c ∈ creations)
      (h : c.id? = none) : Sound ⟨.ended result, creations, []⟩

variable {s s' : Issue} {creations : List (Option Creation)}

theorem AllCreated.ne_none (h : AllCreated creations) {i : ℕ} : creations[i]? ≠ some none := by
  intro hi
  obtain ⟨id, hid⟩ := h none (List.mem_of_getElem? hi)
  cases hid

/-- What a completed request was is kept when another completes. -/
theorem mem_set_of_pending {c : Creation} {i : ℕ} (hc : some c ∈ creations) (hi : creations[i]? = some none)
    (x : Option Creation) : some c ∈ creations.set i x := by
  obtain ⟨j, hj⟩ := List.getElem?_of_mem hc
  have hne : i ≠ j := by
    rintro rfl
    rw [hi] at hj
    cases hj
  exact List.mem_of_getElem? ((List.getElem?_set_ne hne).trans hj)

theorem mem_recordIDs {id : String} : id ∈ recordIDs creations ↔ some (.created id) ∈ creations := by
  unfold recordIDs
  rw [List.mem_filterMap]
  constructor
  · rintro ⟨c, hc, hid⟩
    obtain ⟨creation, rfl, hid⟩ := Option.bind_eq_some_iff.mp hid
    cases creation with
    | created id' =>
      obtain rfl := Option.some.inj hid
      exact hc
    | refused reason => cases hid
    | throws reason made => cases hid
  · exact fun h => ⟨_, h, rfl⟩

/-- A creation completes while the call waits for all of them. -/
theorem sound_settle {order : Order} {i : ℕ} {creation : Creation} (h : ∀ c, some c ∈ creations → ∃ id, c = .created id)
    (hi : creations[i]? = some none) :
    Sound ⟨settle (.creating order) (creations.set i (some creation)) creation,
      creations.set i (some creation), []⟩ := by
  have hmem : some creation ∈ creations.set i (some creation) :=
    List.mem_set (List.getElem?_eq_some_iff.mp hi).1 _
  cases creation with
  | refused reason => exact .failed hmem rfl
  | throws reason made => exact .failed hmem rfl
  | created id =>
    have hcreated : ∀ c, some c ∈ creations.set i (some (.created id)) → ∃ id', c = .created id' := by
      intro c hc
      rcases List.mem_or_eq_of_mem_set hc with hc | hc
      · exact h c hc
      · exact ⟨id, Option.some.inj hc⟩
    unfold settle
    dsimp only
    split
    · rename_i hall
      refine .working fun c hc => ?_
      obtain ⟨creation, rfl⟩ := Option.isSome_iff_exists.mp (List.all_eq_true.mp hall c hc)
      obtain ⟨id', rfl⟩ := hcreated creation hc
      exact ⟨id', rfl⟩
    · exact .creating hcreated

theorem Sound.step (h : s.Sound) {e : IssueEvent} (hstep : s.step e = some s') : s'.Sound := by
  cases e with
  | prepareThrows reason =>
    cases h with
    | preparing =>
      obtain rfl := Option.some.inj hstep
      exact .ended (fun c hc => (by cases hc)) rfl
    | _ => cases hstep
  | prepared order =>
    cases h with
    | preparing =>
      dsimp only [Issue.step] at hstep
      split at hstep
      · obtain rfl := Option.some.inj hstep
        exact .ended (fun c hc => (by cases hc)) rfl
      · obtain rfl := Option.some.inj hstep
        exact .creating fun c hc => (by simp at hc)
    | _ => cases hstep
  | created i creation =>
    obtain ⟨hi, hstep⟩ := Option.ite_none_right_eq_some.mp hstep
    obtain rfl := Option.some.inj hstep
    cases h with
    | preparing => cases hi
    | creating h => exact sound_settle h hi
    | working h => exact absurd hi h.ne_none
    | deleting h => exact absurd hi h.ne_none
    | ended h => exact absurd hi h.ne_none
    | failed hc h => exact .failed (mem_set_of_pending hc hi _) h
  | answered answer =>
    cases h with
    | working h =>
      obtain ⟨turn, -, rfl⟩ := Option.map_eq_some_iff.mp hstep
      cases turn with
      | goes work => exact .working h
      | ends result => exact .deleting h (by rw [List.map_map]; exact List.map_id _)
    | _ => cases hstep
  | deleted i =>
    obtain ⟨d, hd, rfl⟩ := Option.map_eq_some_iff.mp hstep
    have hsame : (s.deletes.set i (d.1, true)).map Prod.fst = s.deletes.map Prod.fst := by
      apply List.ext_getElem?
      intro j
      rw [List.getElem?_map, List.getElem?_map, List.getElem?_set]
      by_cases hij : i = j
      · rw [if_pos hij, if_pos (List.getElem?_eq_some_iff.mp hd).1, ← hij, hd]
        rfl
      · rw [if_neg hij]
    cases h with
    | deleting h hdeletes => exact .deleting h (hsame.trans hdeletes)
    | ended h hdeletes => exact .ended h (hsame.trans hdeletes)
    | _ => cases hd
  | ends =>
    cases h with
    | deleting h hdeletes =>
      obtain ⟨-, hstep⟩ := Option.ite_none_right_eq_some.mp hstep
      obtain rfl := Option.some.inj hstep
      exact .ended h hdeletes
    | _ => cases hstep

theorem sound_of_reachable (h : Lts.Reachable issueSystem (· = Issue.fresh) s) : s.Sound :=
  h.invariant (fun _ hs => hs ▸ .preparing) fun _ _ _ hs hstep => hs.step hstep

end Issue

/-- When a call is over, the deletion of every record is requested exactly when
every creation has succeeded or none has made a record. -/
theorem no_challenge_record_leaks_iff {s : Issue} (hreach : Lts.Reachable issueSystem (· = Issue.fresh) s)
    (hover : s.Over) : s.Clean ↔
      (∀ c ∈ s.creations, ∃ id, c = some (.created id)) ∨ ∀ c, some c ∈ s.creations → c.made = false := by
  obtain ⟨result, hended⟩ := hover.ended
  have hsound := Issue.sound_of_reachable hreach
  cases hsound with
  | ended h hdeletes =>
    refine iff_of_true (fun c hc _ => ?_) (.inl h)
    obtain ⟨id, hid⟩ := h (some c) hc
    obtain rfl := Option.some.inj hid
    exact ⟨id, rfl, by rw [hdeletes]; exact Issue.mem_recordIDs.mpr hc⟩
  | failed hc h =>
    constructor
    · intro hclean
      refine .inr fun c hc => ?_
      cases hmade : c.made with
      | false => rfl
      | true =>
        obtain ⟨id, -, hid⟩ := hclean c hc hmade
        cases hid
    · rintro (hall | hnone)
      · obtain ⟨id, hid⟩ := hall _ hc
        obtain rfl := Option.some.inj hid
        cases h
      · intro c hc hmade
        rw [hnone c hc] at hmade
        cases hmade
  | _ => cases hended

/-! ### A tunnel and its wildcard -/

/-- The order of a tunnel's host name and its wildcard. -/
def tunnelOrder : Order where
  finalize := some "https://acme/finalize"
  location := some "https://acme/order"
  challenges :=
    [⟨"https://acme/authz/1", "https://acme/chall/1", "T1", "K1", "demo.shuv.zip"⟩,
     ⟨"https://acme/authz/2", "https://acme/chall/2", "T2", "K2", "demo.shuv.zip"⟩]

/-- The second record is refused. -/
def leakRun : List IssueEvent :=
  [.prepared tunnelOrder, .created 0 (.created "rec1"), .created 1 (.refused "rate limited")]

/-- What the run leaves. -/
def leaked : Issue :=
  ⟨.ended (.error "rate limited"), [some (.created "rec1"), some (.refused "rate limited")], []⟩

/-- The first record stays in the zone. -/
theorem not_no_challenge_record_leaks :
    ¬ ∀ s : Issue, Lts.Reachable issueSystem (· = Issue.fresh) s → s.Over → s.Clean := by
  intro h
  have hreach : Lts.Reachable issueSystem (· = Issue.fresh) leaked :=
    .of_exec rfl (show issueSystem.exec Issue.fresh leakRun = some leaked from rfl)
  have hclean := h leaked hreach ⟨⟨_, rfl⟩, by decide, by decide⟩
  obtain ⟨id, -, hid⟩ := hclean (.created "rec1") (by decide) rfl
  cases hid

/-- Both records are created, the wait for the DNS throws, and both are deleted. -/
def cleanRun : List IssueEvent :=
  [.prepared tunnelOrder, .created 1 (.created "rec2"), .created 0 (.created "rec1"), .answered (.throws "timeout"),
   .deleted 0, .deleted 1, .ends]

/-- What that run leaves. -/
def cleaned : Issue :=
  ⟨.ended (.error "timeout"), [some (.created "rec1"), some (.created "rec2")], [("rec1", true), ("rec2", true)]⟩

theorem no_challenge_record_leaks_cleaned : Lts.Reachable issueSystem (· = Issue.fresh) cleaned ∧ cleaned.Clean := by
  have hreach : Lts.Reachable issueSystem (· = Issue.fresh) cleaned :=
    .of_exec rfl (show issueSystem.exec Issue.fresh cleanRun = some cleaned from rfl)
  refine ⟨hreach, (no_challenge_record_leaks_iff hreach ⟨⟨_, rfl⟩, by decide, by decide⟩).mpr (.inl fun c hc => ?_)⟩
  simp only [cleaned, List.mem_cons, List.not_mem_nil, or_false] at hc
  rcases hc with rfl | rfl
  · exact ⟨"rec1", rfl⟩
  · exact ⟨"rec2", rfl⟩

end ShuvTunnel
