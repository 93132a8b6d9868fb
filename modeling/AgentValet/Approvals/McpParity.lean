import AgentValet.Approvals.Client
import AgentValet.Approvals.McpServer

namespace AgentValet.Approvals
open Base Lang

inductive ApprovalStatus where
  | pending
  | approved
  | denied
  | expired
  deriving DecidableEq, Repr

def ApprovalStatus.text : ApprovalStatus → String
  | .pending => "pending"
  | .approved => "approved"
  | .denied => "denied"
  | .expired => "expired"

structure UpstreamResult where
  status : JsonNumber
  data : Json

structure ApprovalStatusResponse where
  status : ApprovalStatus
  result : Option UpstreamResult
  executionError : Option String
  executedAt : Option String

def UpstreamResult.toJson (r : UpstreamResult) : Json :=
  .obj [("status", .num r.status), ("data", r.data)]

namespace ApprovalStatusResponse

def optional (key : String) (v : Option Json) : Payload := (v.map fun v => (key, v)).toList

/-- The answer as it stands in the body; only `executed_at` is sent as null. -/
def payload (r : ApprovalStatusResponse) : Payload :=
  [("status", .str r.status.text), ("executed_at", (r.executedAt.map Json.str).getD .null)] ++
    optional "result" (r.result.map UpstreamResult.toJson) ++
    optional "execution_error" (r.executionError.map Json.str)

def executed (r : ApprovalStatusResponse) : Bool :=
  r.status = .approved && (r.executedAt.filter (· ≠ "")).isSome && r.result.isSome

def failed (r : ApprovalStatusResponse) : Bool := (r.executionError.filter (· ≠ "")).isSome

def undecided (r : ApprovalStatusResponse) : Bool :=
  r.status ≠ .denied && r.status ≠ .expired && !r.failed && !r.executed

theorem lookup_status (r : ApprovalStatusResponse) :
    Json.lookup r.payload "status" = some (.str r.status.text) := by
  obtain ⟨status, result, executionError, executedAt⟩ := r
  cases result <;> cases executionError <;> rfl

theorem lookup_executed_at (r : ApprovalStatusResponse) :
    Json.lookup r.payload "executed_at" = some ((r.executedAt.map Json.str).getD .null) := by
  obtain ⟨status, result, executionError, executedAt⟩ := r
  cases result <;> cases executionError <;> rfl

theorem lookup_result (r : ApprovalStatusResponse) :
    Json.lookup r.payload "result" = r.result.map UpstreamResult.toJson := by
  obtain ⟨status, result, executionError, executedAt⟩ := r
  cases result <;> cases executionError <;> rfl

theorem lookup_execution_error (r : ApprovalStatusResponse) :
    Json.lookup r.payload "execution_error" = r.executionError.map Json.str := by
  obtain ⟨status, result, executionError, executedAt⟩ := r
  cases result <;> cases executionError <;> rfl

theorem isStr_status (r : ApprovalStatusResponse) (status : ApprovalStatus) :
    isStr (Json.lookup r.payload "status") status.text = decide (r.status = status) := by
  rw [lookup_status]
  cases r.status <;> cases status <;> decide

theorem isStr_status_texts (r : ApprovalStatusResponse) :
    isStr (Json.lookup r.payload "status") "denied" = decide (r.status = .denied) ∧
      isStr (Json.lookup r.payload "status") "expired" = decide (r.status = .expired) ∧
      isStr (Json.lookup r.payload "status") "approved" = decide (r.status = .approved) :=
  ⟨isStr_status r .denied, isStr_status r .expired, isStr_status r .approved⟩

theorem truthy_executed_at (r : ApprovalStatusResponse) :
    JavaScript.truthy (Json.lookup r.payload "executed_at") =
      (r.executedAt.filter (· ≠ "")).isSome := by
  rw [lookup_executed_at]
  cases r.executedAt with
  | none => rfl
  | some time => by_cases h : time = "" <;> simp [JavaScript.truthy, Option.filter, h]

theorem truthy_result (r : ApprovalStatusResponse) :
    JavaScript.truthy (Json.lookup r.payload "result") = r.result.isSome := by
  rw [lookup_result]
  cases r.result <;> rfl

theorem truthy_execution_error (r : ApprovalStatusResponse) :
    JavaScript.truthy (Json.lookup r.payload "execution_error") = r.failed := by
  rw [lookup_execution_error, failed]
  cases r.executionError with
  | none => rfl
  | some err => by_cases h : err = "" <;> simp [JavaScript.truthy, Option.filter, h]

theorem quoting_execution_error (r : ApprovalStatusResponse) (verdict : Verdict) :
    quoting (Json.lookup r.payload "execution_error") verdict = verdict := by
  rw [lookup_execution_error, quoting]
  cases r.executionError <;> simp [JavaScript.stringable]

def plainVerdict (r : ApprovalStatusResponse) : Option Verdict :=
  if r.status = .denied then some (.denied (r.executionError.map Json.str))
  else if r.status = .expired then some .expired
  else if r.failed then some (.reexecutionFailed (r.executionError.map Json.str))
  else none

theorem client_interpret (r : ApprovalStatusResponse) :
    Client.interpret r.payload =
      if r.plainVerdict = none ∧ r.executed = true then
        some (resultVerdict id (r.result.map UpstreamResult.toJson))
      else r.plainVerdict := by
  obtain ⟨hdenied, hexpired, happroved⟩ := r.isStr_status_texts
  simp only [Client.interpret, hdenied, hexpired, happroved, truthy_executed_at, truthy_result,
    truthy_execution_error, quoting_execution_error]
  cases hs : r.status <;> cases hf : r.failed <;>
    simp [plainVerdict, executed, hs, hf, lookup_execution_error, lookup_result]

theorem mcp_interpret (r : ApprovalStatusResponse) :
    McpServer.interpret r.payload =
      if r.executed = true then
        some (resultVerdict McpServer.orNull (r.result.map UpstreamResult.toJson))
      else r.plainVerdict := by
  obtain ⟨hdenied, hexpired, happroved⟩ := r.isStr_status_texts
  simp only [McpServer.interpret, hdenied, hexpired, happroved, truthy_executed_at, truthy_result,
    truthy_execution_error, quoting_execution_error]
  cases hs : r.status <;> cases hf : r.failed <;>
    simp [plainVerdict, executed, hs, hf, lookup_execution_error, lookup_result]

theorem resultVerdict_toJson (hand : Option Json → Option Json) (r : UpstreamResult) :
    resultVerdict hand (some r.toJson) =
      match outOfRange (some (.num r.status)) with
      | none => .typeError
      | some true => .upstreamError (some (.num r.status)) (some r.data)
      | some false => .returned (hand (some r.data)) := by
  have hstatus : (some r.toJson).bind (Json.field? "status") = some (.num r.status) := rfl
  have hdata : (some r.toJson).bind (Json.field? "data") = some r.data := rfl
  unfold resultVerdict
  dsimp only
  rewrite [hstatus, hdata]
  cases outOfRange (some (.num r.status)) with
  | none => rfl
  | some far => cases far <;> rfl

/-- A result that is there carries its data, so nothing is left to fill in. -/
theorem resultVerdict_orNull (r : UpstreamResult) :
    resultVerdict McpServer.orNull (some r.toJson) = resultVerdict id (some r.toJson) := by
  have hdata : McpServer.orNull (some r.data) = id (some r.data) := rfl
  rw [resultVerdict_toJson, resultVerdict_toJson, hdata]

theorem resultVerdict_ne_reexecutionFailed (hand : Option Json → Option Json) (r : Option Json)
    (err : Option Json) : resultVerdict hand r ≠ .reexecutionFailed err := by
  unfold resultVerdict
  intro h
  dsimp only at h
  split at h
  · cases h
  · cases h
  · cases h

theorem plainVerdict_eq_none_iff {r : ApprovalStatusResponse} :
    r.plainVerdict = none ↔ r.status ≠ .denied ∧ r.status ≠ .expired ∧ r.failed = false := by
  cases hs : r.status <;> cases hf : r.failed <;> simp [plainVerdict, hs, hf]

theorem client_undecided_iff (r : ApprovalStatusResponse) :
    Client.interpret r.payload = none ↔ r.undecided = true := by
  rw [client_interpret]
  by_cases hplain : r.plainVerdict = none
  · cases he : r.executed <;>
      simp [hplain, he, undecided, plainVerdict_eq_none_iff.1 hplain]
  · simp only [hplain, false_and, if_false, false_iff]
    intro hundecided
    apply hplain
    rw [plainVerdict_eq_none_iff]
    simp only [undecided, Bool.and_eq_true, Bool.not_eq_true', decide_eq_true_eq] at hundecided
    exact ⟨hundecided.1.1.1, hundecided.1.1.2, hundecided.1.2⟩

/-- The packages part ways on a result that comes with an error. -/
theorem interpret_eq_iff (r : ApprovalStatusResponse) :
    McpServer.interpret r.payload = Client.interpret r.payload ↔
      ¬ (r.executed = true ∧ r.failed = true) := by
  rw [mcp_interpret, client_interpret]
  cases he : r.executed with
  | false => simp
  | true =>
    have happroved : r.status = .approved := by
      simp only [executed, Bool.and_eq_true, decide_eq_true_eq] at he
      exact he.1.1
    obtain ⟨result, hresult⟩ : ∃ result, r.result = some result := by
      simp only [executed, Bool.and_eq_true] at he
      exact Option.isSome_iff_exists.1 he.2
    cases hf : r.failed with
    | false => simp [plainVerdict, happroved, hf, hresult, resultVerdict_orNull]
    | true =>
      simp [plainVerdict, happroved, hf, resultVerdict_ne_reexecutionFailed]

end ApprovalStatusResponse

def Undecided (x : Exchange ApprovalStatusResponse) : Prop :=
  match authedFetch x with
  | .transportFailure => True
  | .response r => r.ok = true ∧ r.body.undecided = true

def ExecutedWithError (x : Exchange ApprovalStatusResponse) : Prop :=
  match authedFetch x with
  | .transportFailure => False
  | .response r => r.ok = true ∧ r.body.executed = true ∧ r.body.failed = true

def onWire (x : Exchange ApprovalStatusResponse) : Attempt Payload :=
  authedFetch (x.map ApprovalStatusResponse.payload)

theorem client_pollVerdict_eq_none_iff (x : Exchange ApprovalStatusResponse) :
    pollVerdict Client.interpret (onWire x) = none ↔ Undecided x := by
  rw [onWire, authedFetch_map, Undecided]
  cases authedFetch x with
  | transportFailure => simp [pollVerdict, Attempt.map]
  | response r =>
    cases h : r.ok with
    | false => simp [pollVerdict, Attempt.map, h]
    | true =>
      simpa [pollVerdict, Attempt.map, h] using
        ApprovalStatusResponse.client_undecided_iff r.body

theorem pollVerdict_eq_iff (x : Exchange ApprovalStatusResponse) :
    pollVerdict Client.interpret (onWire x) = pollVerdict McpServer.interpret (onWire x) ↔
      ¬ ExecutedWithError x := by
  rw [onWire, authedFetch_map, ExecutedWithError]
  cases authedFetch x with
  | transportFailure => simp [pollVerdict, Attempt.map]
  | response r =>
    cases h : r.ok with
    | false => simp [pollVerdict, Attempt.map, h]
    | true =>
      have hbody := ApprovalStatusResponse.interpret_eq_iff r.body
      rw [eq_comm] at hbody
      simpa [pollVerdict, Attempt.map, h] using hbody

/-- The waits of the client and of the MCP server on the same well-typed polls: both end once the
budget is spent, and they end at one poll with one verdict exactly if no poll they get to carries
an executed result together with an execution error. -/
theorem mcpServer_client_parity (clock : Clock) (approvalTimeoutMs : ℚ)
    (polls : ℕ → Exchange ApprovalStatusResponse) (approvalId : String) (ctx : Client.WaitContext)
    (originalCall : McpServer.OriginalCall) (progressToken : Option Json) :
    let budget := ctx.timeoutMs.getD approvalTimeoutMs
    let wire := fun k => (polls k).map ApprovalStatusResponse.payload
    let client := Client.waitForApproval ⟨true, approvalTimeoutMs⟩ clock wire approvalId ctx
    let mcp := McpServer.waitForApproval clock budget wire progressToken
    let told := McpServer.told budget originalCall progressToken
    ((∀ fuel, PollLoop.Agree Eq (client.run fuel 0 []) (mcp.run fuel 0 told)) ↔
      ∀ k, (∀ j ≤ k, clock.head j - clock.started < budget) → (∀ j < k, Undecided (polls j)) →
        ¬ ExecutedWithError (polls k)) ∧
    (∀ n, budget ≤ clock.head n - clock.started →
      (client.run (n + 1) 0 []).isSome = true ∧ (mcp.run (n + 1) 0 told).isSome = true) := by
  intro budget wire client mcp told
  have hrunning (k : ℕ) : client.running k = mcp.running k := rfl
  have hwithin (k : ℕ) : client.running k = true ↔ clock.head k - clock.started < budget :=
    clock.within_iff budget k
  constructor
  · rw [PollLoop.agree_iff_polls hrunning rfl]
    -- the polls reached are those within the budget that follow undecided ones
    have hreaches (k : ℕ) : client.Reaches k ↔
        (∀ j ≤ k, clock.head j - clock.started < budget) ∧ ∀ j < k, Undecided (polls j) := by
      unfold PollLoop.Reaches
      simp only [hwithin]
      exact and_congr_right' (forall₂_congr fun j _ => client_pollVerdict_eq_none_iff (polls j))
    have hpoll (k : ℕ) : Option.Rel Eq (client.poll k) (mcp.poll k) ↔
        ¬ ExecutedWithError (polls k) :=
      PollLoop.rel_eq_iff.trans (pollVerdict_eq_iff (polls k))
    simp only [hreaches, hpoll, and_imp]
  · intro n hn
    have hlate : client.running n = false := Clock.not_within hn
    exact ⟨client.run_start_isSome hlate [], mcp.run_start_isSome hlate told⟩

def executedWithError : Exchange ApprovalStatusResponse :=
  let answer : Attempt ApprovalStatusResponse := .response
    ⟨200, "", ⟨.approved, some ⟨.int 200, .str "done"⟩, some "agent revoked",
      some "2025-01-01T00:00:00.000Z"⟩⟩
  ⟨answer, answer⟩

theorem executedWithError_splits :
    let wire := fun _ : ℕ => executedWithError.map ApprovalStatusResponse.payload
    let client := Client.waitForApproval ⟨true, 50000⟩ steadyClock wire "a1"
      ⟨none, none, none, none⟩
    let mcp := McpServer.waitForApproval steadyClock 50000 wire none
    let told := McpServer.told 50000 ⟨"github", "repo:write", "/repos"⟩ none
    (client.run 1 0 []).map Stopped.verdict =
        some (.reexecutionFailed (some (.str "agent revoked"))) ∧
      (mcp.run 1 0 told).map Stopped.verdict = some (.returned (some (.str "done"))) ∧
      ¬ ∀ fuel, PollLoop.Agree Eq (client.run fuel 0 []) (mcp.run fuel 0 told) := by
  intro wire client mcp told
  have hrunning : client.running 0 = true := by
    simp [client, Client.waitForApproval, Clock.within, steadyClock]
  have hclient : client.poll 0 = some (.reexecutionFailed (some (.str "agent revoked"))) := rfl
  have hmcp : mcp.poll 0 = some (.returned (some (.str "done"))) := by
    have h200 : (JsonNumber.int 200).toDouble = .finite (200 : ℤ) :=
      JsonNumber.toDouble_int (by norm_num)
    have hok : outOfRange (some (.num (.int 200))) = some false := by
      rw [outOfRange_of_toDouble h200]
      rfl
    change some (resultVerdict McpServer.orNull
      (some (UpstreamResult.toJson ⟨.int 200, .str "done"⟩))) = _
    rw [ApprovalStatusResponse.resultVerdict_toJson, hok]
    rfl
  have hclientRun := client.run_of_decided hrunning hclient 0 []
  have hmcpRun := mcp.run_of_decided hrunning hmcp 0 told
  refine ⟨by rw [hclientRun]; rfl, by rw [hmcpRun]; rfl, ?_⟩
  intro h
  have hone := h 1
  rw [hclientRun, hmcpRun] at hone
  cases hone with
  | some hsame => cases hsame.2

end AgentValet.Approvals
