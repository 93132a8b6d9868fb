import AgentValet.Lang.JavaScript

namespace AgentValet.Mcp
open Lang

inductive GateOutcome where
  | allowed (status : ℕ) (data : Json)
  | denied (status : ℕ) (reason correlationId : Option String) (raw : Json)
  | pendingApproval (status : ℕ) (approvalId message : Option String) (raw : Json)
  | error (status : ℕ) (code correlationId : Option String) (raw : Json)
  | suspended (status : ℕ) (reason : String) (raw : Json)

def suspendedReasons : List String := ["agent_suspended", "circuit_breaker_open"]

def readField (body : Json) (key : String) : Option String :=
  match Json.field? key body with
  | some (.str s) => some s
  | _ => none

def classifyGateResponse (status : ℕ) (body : Json) : GateOutcome :=
  if status = 202 then
    .pendingApproval status (readField body "approval_id") (readField body "message") body
  else if 200 ≤ status ∧ status < 300 then .allowed status body
  else
    match (readField body "reason").filter fun reason => status = 403 ∧ reason ∈ suspendedReasons
    with
    | some reason => .suspended status reason body
    | none =>
      if status = 401 ∨ 500 ≤ status then
        .error status
          ((readField body "code").or (if status = 401 then some "unauthorized" else none))
          (readField body "correlation_id") body
      else
        .denied status ((readField body "reason").or (readField body "error"))
          (readField body "correlation_id") body

/-- A body that does not parse stands for its text. -/
def parseBody (parse : String → Option Json) (text : String) : Json :=
  (parse text).getD (.str text)

def GateOutcome.isAllowed : GateOutcome → Bool
  | .allowed _ _ => true
  | _ => false

def GateOutcome.isPending : GateOutcome → Bool
  | .pendingApproval _ _ _ _ => true
  | _ => false

theorem classifyGateResponse_isPending (status : ℕ) (body : Json) :
    (classifyGateResponse status body).isPending = decide (status = 202) := by
  unfold classifyGateResponse
  split_ifs with h202 hok h401
  · rw [decide_eq_true h202]
    rfl
  · rw [decide_eq_false h202]
    rfl
  all_goals rw [decide_eq_false h202]; split <;> rfl

theorem classifyGateResponse_isAllowed (status : ℕ) (body : Json) :
    (classifyGateResponse status body).isAllowed =
      decide (status ≠ 202 ∧ 200 ≤ status ∧ status < 300) := by
  unfold classifyGateResponse
  split_ifs with h202 hok
  · simp [h202, GateOutcome.isAllowed]
  · simp [h202, hok, GateOutcome.isAllowed]
  all_goals
    rw [decide_eq_false fun h => hok h.2]
    split <;> rfl

end AgentValet.Mcp
