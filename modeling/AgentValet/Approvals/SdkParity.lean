import AgentValet.Approvals.PythonClient

namespace AgentValet.Approvals
open Base Lang

mutual

/-- Every number in the value is the same number in both languages: an integer literal that is no
double is exact in Python and rounded in JavaScript. -/
def ReadsAlike : Json → Prop
  | .num n => n.toDouble = Python.number n
  | .arr items => ItemsReadAlike items
  | .obj fields => FieldsReadAlike fields
  | .null => True
  | .bool _ => True
  | .str _ => True

def ItemsReadAlike : List Json → Prop
  | [] => True
  | v :: rest => ReadsAlike v ∧ ItemsReadAlike rest

def FieldsReadAlike : List (String × Json) → Prop
  | [] => True
  | (_, v) :: rest => ReadsAlike v ∧ FieldsReadAlike rest

end

/-- The clients return one value; JavaScript's `undefined` and Python's `None` both stand for data
that is not there. -/
def SameData (js py : Option Json) : Prop :=
  js.getD .null = py.getD .null ∧ ReadsAlike (js.getD .null)

def SameStatus (js : Option Json) (py : ℤ) : Prop :=
  ∃ n, js = some (.num n) ∧ n.toDouble = .finite py

def SameEnd : PythonClient.Ended → Except Client.Thrown (Option Json) → Prop
  | .ok py, .ok js => SameData js py
  | .error (.proxyError s _), .error (.proxyError s' _) => s = s'
  | .error (.approvalDenied _), .error (.approvalDenied _) => True
  | .error .approvalExpired, .error .approvalExpired => True
  | .error (.upstreamError n _), .error (.upstreamError status _) => SameStatus status n
  | _, _ => False

def EndsAlike (py : PythonClient.Ended) (js : Verdict) : Prop := SameEnd py (Client.settle js)

def InRange (status : Option Json) : Prop :=
  ∃ x, JavaScript.toNumber status = some x ∧ Double.lt x (.finite 200) = false ∧
    Double.le (.finite 300) x = false

/-- A result is an object whose status `int` converts, to a status in range that JavaScript finds
in range too, with data that reads alike, or to the very number that stands there. -/
def ResultReadsAlike (result : Option Json) : Prop :=
  ∃ fields n, result = some (.obj fields) ∧
    Python.int (PythonClient.upstreamStatus fields) = some n ∧
    if 200 ≤ n ∧ n < 300 then
      InRange (Json.lookup fields "status") ∧ ReadsAlike ((Json.lookup fields "data").getD .null)
    else SameStatus (Json.lookup fields "status") n

def TruthAlike (v : Option Json) : Prop := JavaScript.truthy v = Python.truthy v

def Quotable (v : Option Json) : Prop :=
  JavaScript.truthy v = true → (v.map JavaScript.stringable).getD true = true

/-- An executed result is there, in JavaScript's eyes and in Python's. -/
def jsExecuted (payload : Payload) : Bool :=
  JavaScript.truthy (Json.lookup payload "executed_at") &&
    JavaScript.truthy (Json.lookup payload "result")

def pyExecuted (payload : Payload) : Bool :=
  Python.truthy (Json.lookup payload "executed_at") && Python.truthy (Json.lookup payload "result")

def AnswerReadsAlike (payload : Payload) : Prop :=
  let status := Json.lookup payload "status"
  let executionError := Json.lookup payload "execution_error"
  if isStr status "denied" then Quotable executionError
  else if isStr status "expired" then True
  else
    TruthAlike executionError ∧ Quotable executionError ∧
      (Python.truthy executionError = false → isStr status "approved" = true →
        jsExecuted payload = pyExecuted payload ∧
          (pyExecuted payload = true → ResultReadsAlike (Json.lookup payload "result")))

def Pending (payload : Payload) : Prop :=
  let status := Json.lookup payload "status"
  isStr status "denied" = false ∧ isStr status "expired" = false ∧
    Python.truthy (Json.lookup payload "execution_error") = false ∧
    ¬ (isStr status "approved" = true ∧ pyExecuted payload = true)

theorem quoting_of_quotable {v : Option Json} (h : Quotable v) (verdict : Verdict) :
    quoting v verdict = verdict := by
  unfold quoting
  cases ht : JavaScript.truthy v with
  | false => simp
  | true => simp [h ht]

theorem quoting_of_not_quotable {v : Option Json} (h : ¬ Quotable v) (verdict : Verdict) :
    quoting v verdict = .typeError := by
  unfold Quotable at h
  rw [Classical.not_imp, Bool.not_eq_true] at h
  simp [quoting, h.1, h.2]

theorem not_endsAlike_typeError (py : PythonClient.Ended) : ¬ EndsAlike py .typeError := by
  unfold EndsAlike Client.settle
  rcases py with err | data
  · cases err <;> exact id
  · exact id

theorem outOfRange_eq_false_iff (status : Option Json) :
    outOfRange status = some false ↔ InRange status := by
  unfold outOfRange InRange
  simp only [Option.map_eq_some_iff, Bool.or_eq_false_iff]

/-- A number out of range is found out of range. -/
theorem outOfRange_of_sameStatus {status : Option Json} {n : ℤ} (h : SameStatus status n)
    (hn : ¬ (200 ≤ n ∧ n < 300)) : outOfRange status = some true := by
  obtain ⟨num, rfl, hnum⟩ := h
  rw [outOfRange_of_toDouble hnum, decide_eq_true hn]

/-- What Python makes of a status in range, and what it makes of one out of range. -/
theorem endsAlike_object_iff {fields : List (String × Json)} {n : ℤ}
    (hint : Python.int (PythonClient.upstreamStatus fields) = some n) :
    EndsAlike (PythonClient.resultEnded (some (.obj fields)))
        (resultVerdict id (some (.obj fields))) ↔
      if 200 ≤ n ∧ n < 300 then
        InRange (Json.lookup fields "status") ∧ ReadsAlike ((Json.lookup fields "data").getD .null)
      else SameStatus (Json.lookup fields "status") n := by
  have hstatus : (some (Json.obj fields)).bind (Json.field? "status") =
      Json.lookup fields "status" := rfl
  have hdata : (some (Json.obj fields)).bind (Json.field? "data") =
      Json.lookup fields "data" := rfl
  simp only [PythonClient.resultEnded, hint, resultVerdict, hstatus, hdata, id]
  rw [← outOfRange_eq_false_iff]
  by_cases hn : 200 ≤ n ∧ n < 300
  -- Python returns the data
  · rw [if_pos hn, if_pos hn]
    cases hout : outOfRange (Json.lookup fields "status") with
    | none => simp [not_endsAlike_typeError]
    | some out => cases out <;> simp [EndsAlike, Client.settle, SameEnd, SameData]
  -- Python throws, and JavaScript throws the same error only of the same number
  · rw [if_neg hn, if_neg hn]
    cases hout : outOfRange (Json.lookup fields "status") with
    | none =>
      simp only [not_endsAlike_typeError, false_iff]
      intro hsame
      simp [outOfRange_of_sameStatus hsame hn] at hout
    | some out =>
      cases out with
      | true => simp [EndsAlike, Client.settle, SameEnd]
      | false =>
        simp only [EndsAlike, Client.settle, SameEnd, false_iff]
        intro hsame
        simp [outOfRange_of_sameStatus hsame hn] at hout

theorem endsAlike_result_iff (result : Option Json) :
    EndsAlike (PythonClient.resultEnded result) (resultVerdict id result) ↔
      ResultReadsAlike result := by
  have huncaught (v : Verdict) : ¬ EndsAlike (.error .uncaught) v := by
    unfold EndsAlike
    cases v <;> exact id
  constructor
  · intro h
    rcases result with _ | v
    · exact absurd h (huncaught _)
    · cases v with
      | obj fields =>
        cases hint : Python.int (PythonClient.upstreamStatus fields) with
        | some n => exact ⟨fields, n, rfl, hint, (endsAlike_object_iff hint).1 h⟩
        | none =>
          simp only [PythonClient.resultEnded, hint] at h
          exact absurd h (huncaught _)
      | null => exact absurd h (huncaught _)
      | bool b => exact absurd h (huncaught _)
      | num n => exact absurd h (huncaught _)
      | str s => exact absurd h (huncaught _)
      | arr items => exact absurd h (huncaught _)
  · rintro ⟨fields, n, rfl, hint, h⟩
    exact (endsAlike_object_iff hint).2 h

abbrev PollsAlike (py : Option PythonClient.Ended) (js : Option Verdict) : Prop :=
  Option.Rel EndsAlike py js

/-- A text that quotes the detail is all that may go wrong with an error both clients throw. -/
theorem endsAlike_quoting_iff {py : PythonClient.Ended} {verdict : Verdict}
    (h : EndsAlike py verdict) (detail : Option Json) :
    EndsAlike py (quoting detail verdict) ↔ Quotable detail := by
  by_cases hq : Quotable detail
  · rw [quoting_of_quotable hq]
    exact iff_of_true h hq
  · rw [quoting_of_not_quotable hq]
    exact iff_of_false (not_endsAlike_typeError py) hq

theorem not_endsAlike_proxyError_result (status : ℕ) (body : Client.ErrorBody)
    (hand : Option Json → Option Json) (result : Option Json) :
    ¬ EndsAlike (.error (.proxyError status body)) (resultVerdict hand result) := by
  unfold EndsAlike resultVerdict
  dsimp only
  split <;> exact id

theorem not_endsAlike_result_reexecutionFailed (result err detail : Option Json) :
    ¬ EndsAlike (PythonClient.resultEnded result) (quoting detail (.reexecutionFailed err)) := by
  by_cases hq : Quotable detail
  · rw [quoting_of_quotable hq]
    unfold EndsAlike PythonClient.resultEnded
    split
    · dsimp only
      split
      · exact id
      · split <;> exact id
    · exact id
  · rw [quoting_of_not_quotable hq]
    exact not_endsAlike_typeError _

/-- Past the errors, an approved answer is left. -/
theorem executed_alike_iff (payload : Payload) (approved : Bool) :
    PollsAlike
        (if approved && pyExecuted payload then
          some (PythonClient.resultEnded (Json.lookup payload "result")) else none)
        (if approved && jsExecuted payload then
          some (resultVerdict id (Json.lookup payload "result")) else none) ↔
      (approved = true → jsExecuted payload = pyExecuted payload ∧
        (pyExecuted payload = true → ResultReadsAlike (Json.lookup payload "result"))) := by
  cases approved with
  | false => simp
  | true =>
    cases hpy : pyExecuted payload with
    | false => cases hjs : jsExecuted payload <;> simp
    | true => cases hjs : jsExecuted payload <;> simp [endsAlike_result_iff]

theorem client_interpret_eq (payload : Payload) :
    Client.interpret payload =
      let status := Json.lookup payload "status"
      let executionError := Json.lookup payload "execution_error"
      if isStr status "denied" then some (quoting executionError (.denied executionError))
      else if isStr status "expired" then some .expired
      else if JavaScript.truthy executionError then
        some (quoting executionError (.reexecutionFailed executionError))
      else if isStr status "approved" && jsExecuted payload then
        some (resultVerdict id (Json.lookup payload "result"))
      else none := by
  simp only [Client.interpret, Bool.and_assoc, jsExecuted]
  rfl

theorem interpretApprovalStatus_eq (payload : Payload) :
    PythonClient.interpretApprovalStatus payload =
      let status := Json.lookup payload "status"
      let executionError := Json.lookup payload "execution_error"
      if isStr status "denied" then
        some (.error (.approvalDenied (PythonClient.asStr executionError)))
      else if isStr status "expired" then some (.error .approvalExpired)
      else if Python.truthy executionError then
        some (.error (.proxyError 502 (.reexecutionFailed executionError)))
      else if isStr status "approved" && pyExecuted payload then
        some (PythonClient.resultEnded (Json.lookup payload "result"))
      else none := by
  simp only [PythonClient.interpretApprovalStatus, Bool.and_assoc, pyExecuted]
  rfl

/-- The clients read an answer alike exactly if each test on the way does. -/
theorem interpret_alike_iff (payload : Payload) :
    PollsAlike (PythonClient.interpretApprovalStatus payload) (Client.interpret payload) ↔
      AnswerReadsAlike payload := by
  rw [interpretApprovalStatus_eq, client_interpret_eq]
  unfold AnswerReadsAlike
  generalize Json.lookup payload "execution_error" = err
  dsimp only
  by_cases hdenied : isStr (Json.lookup payload "status") "denied" = true
  · have hends : EndsAlike (.error (.approvalDenied (PythonClient.asStr err))) (.denied err) :=
      trivial
    simp only [hdenied, if_true, Option.rel_some_some]
    exact endsAlike_quoting_iff hends err
  simp only [hdenied, Bool.false_eq_true, if_false]
  by_cases hexpired : isStr (Json.lookup payload "status") "expired" = true
  · simp only [hexpired, if_true, iff_true, Option.rel_some_some]
    trivial
  simp only [hexpired, Bool.false_eq_true, if_false, TruthAlike]
  cases hpy : Python.truthy err with
  | true =>
    cases hjs : JavaScript.truthy err with
    | true =>
      have hends : EndsAlike (.error (.proxyError 502 (.reexecutionFailed err)))
          (.reexecutionFailed err) := rfl
      simp [endsAlike_quoting_iff hends err]
    | false =>
      -- Python throws, and JavaScript at most finds a result
      simp only [if_true, Bool.false_eq_true, if_false, false_and, iff_false]
      split
      · simpa using not_endsAlike_proxyError_result 502 _ id _
      · simp
  | false =>
    cases hjs : JavaScript.truthy err with
    | true =>
      -- JavaScript throws, and Python at most finds a result
      simp only [if_true, Bool.false_eq_true, if_false]
      split
      · simpa using not_endsAlike_result_reexecutionFailed _ err err
      · simp
    | false =>
      have hquotable : Quotable err := by simp [Quotable, hjs]
      simpa [hquotable] using
        executed_alike_iff payload (isStr (Json.lookup payload "status") "approved")

theorem pending_iff (payload : Payload) :
    PythonClient.interpretApprovalStatus payload = none ↔ Pending payload := by
  rw [interpretApprovalStatus_eq]
  unfold Pending
  dsimp only
  cases isStr (Json.lookup payload "status") "denied" <;>
    cases isStr (Json.lookup payload "status") "expired" <;>
    cases Python.truthy (Json.lookup payload "execution_error") <;> simp

end AgentValet.Approvals
