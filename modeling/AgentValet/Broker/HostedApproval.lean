import AgentValet.Base.Deadline
import AgentValet.Base.Polling
import AgentValet.Broker.HostedClient
import Mathlib.Data.Rat.Floor

namespace AgentValet.Broker
open Base Lang

/-- `client` names what the collaborators answer in each request: the first creates the approval,
the others are the polls.  `sleep(pollMs)` shows in the readings of `now` only. -/
structure AgentvaletApprovalProvider where
  client : ℕ → HostedClient
  timeoutMs : ℚ
  pollMs : ℚ
  now : ℕ → ℚ
  encodeURIComponent : Json → Except Thrown String

/-- What a status decides, `none` while it decides nothing. -/
def statusVerdict (status : Json) : Option ApprovalResult :=
  let text := textOf (Json.field? "status" status)
  if text = some "approved" then some ⟨true, none⟩
  else if text = some "denied" then some ⟨false, some "declined"⟩
  else if text = some "expired" then some ⟨false, some "timeout"⟩
  else none

/-- One turn of the loop; nothing in it catches what the request throws. -/
def pollVerdict : Except Thrown Json → Option (Except Thrown ApprovalResult)
  | .error err => some (.error err)
  | .ok .null => some (.error (readError "null" "status"))
  | .ok status => (statusVerdict status).map .ok

def decides : Except Thrown Json → Option ApprovalResult
  | .ok status => statusVerdict status
  | .error _ => none

/-- The request throws, or its answer has no properties to read. -/
def failed : Except Thrown Json → Bool
  | .error _ => true
  | .ok .null => true
  | .ok _ => false

theorem pollVerdict_eq_ok_iff {answer : Except Thrown Json} {result : ApprovalResult} :
    pollVerdict answer = some (.ok result) ↔ decides answer = some result := by
  have hnull : statusVerdict .null = none := rfl
  cases answer with
  | error err => simp [pollVerdict, decides]
  | ok status => cases status <;> simp [pollVerdict, decides, hnull]

theorem pollVerdict_eq_error_iff {answer : Except Thrown Json} :
    (∃ err, pollVerdict answer = some (.error err)) ↔ failed answer = true := by
  cases answer with
  | error err => simp [pollVerdict, failed]
  | ok status => cases status <;> simp [pollVerdict, failed]

/-- A poll that neither decides nor fails is followed by another. -/
theorem pollVerdict_eq_none_iff {answer : Except Thrown Json} :
    pollVerdict answer = none ↔ decides answer = none ∧ failed answer = false := by
  cases answer with
  | error err => simp [pollVerdict, failed]
  | ok status =>
    cases status <;> simp [pollVerdict, decides, failed, statusVerdict, textOf, Json.field?]

def subjectJson (subject : Subject) : Json :=
  let spiffeId := subject.spiffeId.map fun id => ("spiffeId", Json.str id)
  .obj ([("id", .str subject.id), ("sessionId", .str subject.sessionId)] ++ spiffeId.toList)

def createBody (req : AccessRequest) (decision : Decision) : Json :=
  .obj
    [("server", .str req.resource.server),
      ("tool", .str req.resource.tool),
      ("subject", subjectJson req.subject),
      ("argsFingerprint", .str req.context.argsFingerprint),
      ("policyId", .str decision.policyId),
      ("policyVersion", .str decision.version)]

namespace AgentvaletApprovalProvider
variable (provider : AgentvaletApprovalProvider) (req : AccessRequest) (decision : Decision)
  (statusPath : String)

/-- The path of the status of the approval, once it has been created. -/
def create : Except Thrown String := do
  let created ← (provider.client 0).request "POST" "/v1/broker/approvals"
    (some (createBody req decision))
  match (Json.field? "id" created).filter fun id => JavaScript.truthy (some id) with
  | none => .error (.error "hosted approval create returned no id")
  | some id => do
    let segment ← provider.encodeURIComponent id
    pure s!"/v1/broker/approvals/{segment}"

/-- The answer to poll `k`. -/
def answer (k : ℕ) : Except Thrown Json := (provider.client (k + 1)).request "GET" statusPath none

def deadline : ℚ := provider.now 0 + provider.timeoutMs

def loop : PollLoop (Except Thrown ApprovalResult) Unit where
  running k := decide (provider.now (k + 1) < provider.deadline)
  poll k := pollVerdict (provider.answer statusPath k)
  advance _ s := s
  late := .ok ⟨false, some "timeout"⟩

/-- `request`, for at most `fuel` turns of its loop. -/
def request (fuel : ℕ) : Option (Except Thrown ApprovalResult) :=
  match provider.create req decision with
  | .error err => some (.error err)
  | .ok statusPath => ((provider.loop statusPath).run fuel 0 ()).map Stopped.verdict

def maxPolls : ℕ := ⌈provider.timeoutMs / provider.pollMs⌉₊

def BeforeDeadline (k : ℕ) : Prop := provider.now (k + 1) < provider.deadline

/-- The first decisive poll before the deadline decides, and the deadline if there is none. -/
def DecidedBy (result : ApprovalResult) : Prop :=
  (∃ k, provider.BeforeDeadline k ∧ decides (provider.answer statusPath k) = some result ∧
      ∀ j < k, decides (provider.answer statusPath j) = none) ∨
    (∀ k, provider.BeforeDeadline k → decides (provider.answer statusPath k) = none) ∧
      result = ⟨false, some "timeout"⟩

/-- No more polls than fit into the timeout, and then a result that no failed poll has part in. -/
def Resilient : Prop :=
  (∀ k, (provider.loop statusPath).Reaches k → k < provider.maxPolls) ∧
    ∃ result, provider.request req decision (provider.maxPolls + 1) = some (.ok result) ∧
      provider.DecidedBy statusPath result

/-- Before the deadline, no poll fails up to the first that decides. -/
def NoneFails : Prop :=
  ∀ k, provider.BeforeDeadline k → (∀ j < k, decides (provider.answer statusPath j) = none) →
    failed (provider.answer statusPath k) = false

variable {provider req decision statusPath}

theorem running_iff {k : ℕ} :
    (provider.loop statusPath).running k = true ↔ provider.BeforeDeadline k := decide_eq_true_iff

theorem reaches_of_before {k : ℕ} (hpaced : Paced provider.now provider.pollMs)
    (hpoll : 0 < provider.pollMs) (hk : provider.BeforeDeadline k)
    (hundecided : ∀ j < k, (provider.loop statusPath).poll j = none) :
    (provider.loop statusPath).Reaches k := by
  refine ⟨fun j hj => running_iff.2 ?_, hundecided⟩
  exact lt_of_le_of_lt (hpaced.mono hpoll.le hj) hk

theorem lt_maxPolls_of_reaches {k : ℕ} (hpaced : Paced provider.now provider.pollMs)
    (hpoll : 0 < provider.pollMs) (hk : (provider.loop statusPath).Reaches k) :
    k < provider.maxPolls :=
  hpaced.lt_ceil hpoll (running_iff.1 (hk.1 k (le_refl k)))

/-- The loop ends within its polls: a poll has decided, or the deadline has passed. -/
theorem run_ends (hpaced : Paced provider.now provider.pollMs) (hpoll : 0 < provider.pollMs) :
    ∃ x, (provider.loop statusPath).run (provider.maxPolls + 1) 0 () = some x ∧
      ((∃ k, (provider.loop statusPath).Reaches k ∧
          (provider.loop statusPath).poll k = some x.verdict) ∨
        (provider.loop statusPath).RunsOut ∧ x.verdict = .ok ⟨false, some "timeout"⟩) := by
  have hlate : (provider.loop statusPath).running provider.maxPolls = false :=
    decide_eq_false (hpaced.not_lt_at_ceil hpoll)
  obtain ⟨x, hx⟩ :=
    Option.isSome_iff_exists.1 ((provider.loop statusPath).run_start_isSome hlate ())
  refine ⟨x, hx, ?_⟩
  refine ((provider.loop statusPath).forall_verdict_iff (P := fun v =>
    (∃ k, (provider.loop statusPath).Reaches k ∧ (provider.loop statusPath).poll k = some v) ∨
      (provider.loop statusPath).RunsOut ∧ v = .ok ⟨false, some "timeout"⟩) ()).2 ⟨?_, ?_⟩ _ x hx
  · exact fun k hk v hv => .inl ⟨k, hk, hv⟩
  · exact fun hout => .inr ⟨hout, rfl⟩

theorem decides_of_poll_none {j : ℕ} (h : (provider.loop statusPath).poll j = none) :
    decides (provider.answer statusPath j) = none := (pollVerdict_eq_none_iff.1 h).1

theorem request_eq {fuel : ℕ} (hcreated : provider.create req decision = .ok statusPath) :
    provider.request req decision fuel =
      ((provider.loop statusPath).run fuel 0 ()).map Stopped.verdict := by
  rw [request, hcreated]

/-- A poll that fails before any has decided is what the request ends with. -/
theorem request_of_failed {k : ℕ} (hcreated : provider.create req decision = .ok statusPath)
    (hpaced : Paced provider.now provider.pollMs) (hpoll : 0 < provider.pollMs)
    (hk : (provider.loop statusPath).Reaches k)
    (hfailed : failed (provider.answer statusPath k) = true) :
    ∃ err, provider.request req decision (provider.maxPolls + 1) = some (.error err) := by
  obtain ⟨err, herr⟩ := pollVerdict_eq_error_iff.2 hfailed
  have hlt := lt_maxPolls_of_reaches hpaced hpoll hk
  obtain ⟨n, hn⟩ : ∃ n, provider.maxPolls + 1 = k + (n + 1) := ⟨provider.maxPolls - k, by omega⟩
  obtain ⟨s, hs⟩ := (provider.loop statusPath).run_of_reaches hk (n + 1) ()
  refine ⟨err, ?_⟩
  rw [request_eq hcreated, hn, hs, PollLoop.run_of_decided _ (hk.1 k (le_refl k)) herr]
  rfl

theorem noneFails_of_resilient (hcreated : provider.create req decision = .ok statusPath)
    (hpoll : 0 < provider.pollMs) (hpaced : Paced provider.now provider.pollMs)
    (h : provider.Resilient req decision statusPath) : provider.NoneFails statusPath := by
  obtain ⟨-, result, hresult, -⟩ := h
  intro k
  -- the polls before `k` have not failed either, so that the loop does get to it
  induction k using Nat.strongRecOn with
  | ind k ih =>
    intro hbefore hundecided
    by_contra hfails
    have hpolls : ∀ j < k, (provider.loop statusPath).poll j = none := by
      intro j hj
      refine pollVerdict_eq_none_iff.2 ⟨hundecided j hj, ih j hj ?_ fun i hi => ?_⟩
      · exact lt_of_le_of_lt (hpaced.mono hpoll.le (le_of_lt hj)) hbefore
      · exact hundecided i (lt_trans hi hj)
    have hreaches := reaches_of_before hpaced hpoll hbefore hpolls
    obtain ⟨err, herr⟩ := request_of_failed hcreated hpaced hpoll hreaches
      (Bool.eq_true_of_not_eq_false hfails)
    rw [herr] at hresult
    cases hresult

theorem decidedBy_of_reaches {k : ℕ} {verdict : Except Thrown ApprovalResult}
    (hnone : provider.NoneFails statusPath) (hk : (provider.loop statusPath).Reaches k)
    (hverdict : (provider.loop statusPath).poll k = some verdict) :
    ∃ result, verdict = .ok result ∧ provider.DecidedBy statusPath result := by
  have hbefore : provider.BeforeDeadline k := running_iff.1 (hk.1 k (le_refl k))
  have hundecided : ∀ j < k, decides (provider.answer statusPath j) = none := by
    intro j hj
    exact decides_of_poll_none (hk.2 j hj)
  cases verdict with
  | error err =>
    have hfailed := pollVerdict_eq_error_iff.1 ⟨err, hverdict⟩
    rw [hnone k hbefore hundecided] at hfailed
    cases hfailed
  | ok result =>
    exact ⟨result, rfl, .inl ⟨k, hbefore, pollVerdict_eq_ok_iff.1 hverdict, hundecided⟩⟩

theorem decidedBy_of_runsOut (hpaced : Paced provider.now provider.pollMs)
    (hpoll : 0 < provider.pollMs) (h : (provider.loop statusPath).RunsOut) :
    provider.DecidedBy statusPath ⟨false, some "timeout"⟩ := by
  obtain ⟨k, hpasses, hlate⟩ := h
  refine .inr ⟨fun j hj => ?_, rfl⟩
  -- the clock stands past the deadline from poll `k` on
  have hlt : j < k := by
    by_contra hge
    have hmono := hpaced.mono hpoll.le (not_lt.1 hge)
    have hrunning : (provider.loop statusPath).running k = true :=
      running_iff.2 (lt_of_le_of_lt hmono hj)
    rw [hlate] at hrunning
    cases hrunning
  exact decides_of_poll_none (hpasses j hlt).2

/-- The provider is as resilient as its comment says exactly when no poll fails before one
decides. -/
theorem resilient_iff (hcreated : provider.create req decision = .ok statusPath)
    (hpoll : 0 < provider.pollMs) (hpaced : Paced provider.now provider.pollMs) :
    provider.Resilient req decision statusPath ↔ provider.NoneFails statusPath := by
  refine ⟨noneFails_of_resilient hcreated hpoll hpaced, fun hnone => ?_⟩
  refine ⟨fun k => lt_maxPolls_of_reaches hpaced hpoll, ?_⟩
  obtain ⟨x, hx, hends⟩ := @run_ends provider statusPath hpaced hpoll
  have hrequest : provider.request req decision (provider.maxPolls + 1) = some x.verdict := by
    rw [request_eq hcreated, hx, Option.map_some]
  obtain ⟨k, hk, hverdict⟩ | ⟨hout, hverdict⟩ := hends
  · obtain ⟨result, hok, hdecided⟩ := decidedBy_of_reaches hnone hk hverdict
    exact ⟨result, hok ▸ hrequest, hdecided⟩
  · exact ⟨_, hverdict ▸ hrequest, decidedBy_of_runsOut hpaced hpoll hout⟩

def jsonReply (body : Json) : Except Thrown FetchReply := .ok ⟨true, 200, .ok body⟩

def scripted (polls : ℕ → Except Thrown FetchReply) : AgentvaletApprovalProvider where
  client
    | 0 => ⟨"https://api.agentvalet.ai", .ok "t",
        fun _ _ => jsonReply (.obj [("id", .str "apr_1")]), fun _ => none⟩
    | k + 1 => ⟨"https://api.agentvalet.ai", .ok "t", fun _ _ => polls k, fun _ => none⟩
  timeoutMs := 30
  pollMs := 10
  now
    | 0 => 0
    | k + 1 => 10 * k
  encodeURIComponent
    | .str s => .ok s
    | _ => .error (.error "no string")

def issueRequest : AccessRequest where
  subject := ⟨"agent", none, "session"⟩
  action := ⟨"create_issue"⟩
  resource := ⟨"github-tools", "create_issue"⟩
  context := ⟨"fp", "stdio", "now"⟩

def issueDecision : Decision := ⟨.requireApproval, none, "p", "1"⟩

theorem scripted_paced (polls : ℕ → Except Thrown FetchReply) :
    Paced (scripted polls).now (scripted polls).pollMs where
  start := by simp [scripted]
  pace k := by
    simp only [scripted]
    push_cast
    linarith

theorem scripted_create (polls : ℕ → Except Thrown FetchReply) :
    (scripted polls).create issueRequest issueDecision = .ok "/v1/broker/approvals/apr_1" := rfl

theorem resilient_iff_approved :
    (scripted fun _ => jsonReply (.obj [("status", .str "approved")])).Resilient
        issueRequest issueDecision "/v1/broker/approvals/apr_1" ↔
      (scripted fun _ => jsonReply (.obj [("status", .str "approved")])).NoneFails
        "/v1/broker/approvals/apr_1" :=
  resilient_iff (scripted_create _) (by norm_num [scripted]) (scripted_paced _)

/-- One poll fails, and the next one, well before the deadline, would find the approval. -/
def oneFailure : ℕ → Except Thrown FetchReply
  | 0 => .error (.error "ECONNRESET")
  | _ + 1 => jsonReply (.obj [("status", .str "approved")])

theorem oneFailure_denied :
    (scripted oneFailure).DecidedBy "/v1/broker/approvals/apr_1" ⟨true, none⟩ ∧
      ¬ (scripted oneFailure).Resilient issueRequest issueDecision
        "/v1/broker/approvals/apr_1" := by
  constructor
  · refine .inl ⟨1, ?_, rfl, ?_⟩
    · norm_num [BeforeDeadline, deadline, scripted]
    · intro j hj
      obtain rfl : j = 0 := by omega
      rfl
  · rintro ⟨-, result, hresult, -⟩
    have hreaches : ((scripted oneFailure).loop "/v1/broker/approvals/apr_1").Reaches 0 := by
      refine ⟨fun j hj => running_iff.2 ?_, fun j hj => absurd hj (Nat.not_lt_zero j)⟩
      obtain rfl : j = 0 := by omega
      norm_num [BeforeDeadline, deadline, scripted]
    obtain ⟨err, herr⟩ := request_of_failed (scripted_create oneFailure) (scripted_paced oneFailure)
      (by norm_num [scripted]) hreaches rfl
    rw [herr] at hresult
    cases hresult

end AgentvaletApprovalProvider
end AgentValet.Broker
