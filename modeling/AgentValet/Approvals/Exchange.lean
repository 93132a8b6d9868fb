import AgentValet.Lang.JavaScript
import Mathlib.Data.Rat.Defs
import Mathlib.Algebra.Order.Ring.Unbundled.Rat

namespace AgentValet.Approvals
open Lang

/-- An answer of the proxy; `body` is what the text holds when the status is ok. -/
structure Response (β : Type) where
  status : ℕ
  text : String
  body : β

def Response.ok {β : Type} (r : Response β) : Bool := 200 ≤ r.status && r.status ≤ 299

inductive Attempt (β : Type) where
  | transportFailure
  | response (r : Response β)

/-- What a poll gets: the first attempt, and the second in case it is made. -/
structure Exchange (β : Type) where
  first : Attempt β
  retry : Attempt β

section Map
variable {β γ : Type} (f : β → γ)

def Response.map (r : Response β) : Response γ := ⟨r.status, r.text, f r.body⟩

def Attempt.map : Attempt β → Attempt γ
  | .transportFailure => .transportFailure
  | .response r => .response (r.map f)

def Exchange.map (x : Exchange β) : Exchange γ := ⟨x.first.map f, x.retry.map f⟩

@[simp] theorem Response.map_ok (r : Response β) : (r.map f).ok = r.ok := rfl

@[simp] theorem Response.map_body (r : Response β) : (r.map f).body = f r.body := rfl

end Map

/-- The one-shot retry on 401, the same in all three packages. -/
def authedFetch {β : Type} (x : Exchange β) : Attempt β :=
  match x.first with
  | .transportFailure => .transportFailure
  | .response r => if r.status = 401 then x.retry else .response r

theorem authedFetch_map {β γ : Type} (f : β → γ) (x : Exchange β) :
    authedFetch (x.map f) = (authedFetch x).map f := by
  obtain ⟨first, retry⟩ := x
  cases first with
  | transportFailure => rfl
  | response r =>
    by_cases h : r.status = 401
    · simp only [authedFetch, Exchange.map, Attempt.map, Response.map, h, if_true]
    · simp only [authedFetch, Exchange.map, Attempt.map, Response.map, h, if_false]

/-- The body of an approval's status: the fields of a JSON object. -/
abbrev Payload := List (String × Json)

structure Clock where
  started : ℚ
  /-- at the test of the loop, before poll `k` -/
  head : ℕ → ℚ
  /-- after the sleep that precedes poll `k` -/
  woke : ℕ → ℚ
  /-- when progress on poll `k` is considered, and after it was sent -/
  considered : ℕ → ℚ
  sent : ℕ → ℚ

namespace Clock

def elapsed (clock : Clock) (k : ℕ) : ℚ := clock.woke k - clock.started

def within (clock : Clock) (budget : ℚ) (k : ℕ) : Bool := clock.head k - clock.started < budget

theorem within_iff (clock : Clock) (budget : ℚ) (k : ℕ) :
    clock.within budget k = true ↔ clock.head k - clock.started < budget := decide_eq_true_iff

theorem not_within {clock : Clock} {budget : ℚ} {k : ℕ}
    (h : budget ≤ clock.head k - clock.started) : clock.within budget k = false := by
  rwa [← Bool.not_eq_true, within_iff, not_lt]

end Clock

def steadyClock : Clock where
  started := 0
  head k := 2000 * k
  woke k := 2000 * (k + 1)
  considered k := 2000 * (k + 1)
  sent k := 2000 * (k + 1)

def isStr (v : Option Json) (s : String) : Bool :=
  match v with
  | some (.str t) => t == s
  | _ => false

inductive Verdict where
  | returned (data : Option Json)
  | upstreamError (status data : Option Json)
  | denied (detail : Option Json)
  | expired
  | reexecutionFailed (executionError : Option Json)
  | statusError (status : ℕ) (text : String)
  | timedOut
  | typeError

/-- A text that quotes `detail` unless it is falsy is built; where it cannot be, that throws. -/
def quoting (detail : Option Json) (verdict : Verdict) : Verdict :=
  if JavaScript.truthy detail && !(detail.map JavaScript.stringable).getD true then .typeError
  else verdict

/-- `r.status < 200 || r.status >= 300` -/
def outOfRange (status : Option Json) : Option Bool :=
  (JavaScript.toNumber status).map fun x => Double.lt x (.finite 200) || Double.le (.finite 300) x

/-- A status that is an integer is compared as one. -/
theorem outOfRange_of_toDouble {num : JsonNumber} {n : ℤ} (h : num.toDouble = .finite n) :
    outOfRange (some (.num num)) = some (decide (¬ (200 ≤ n ∧ n < 300))) := by
  have hlow : ((n : ℚ) < 200) ↔ n < 200 := by exact_mod_cast Iff.rfl
  have hhigh : ((n : ℚ) < 300) ↔ n < 300 := by exact_mod_cast Iff.rfl
  simp only [outOfRange, JavaScript.toNumber, h, Option.map_some, Double.lt, Double.le, hlow,
    hhigh]
  by_cases h₁ : n < 200
  · simp [h₁]
  · by_cases h₂ : n < 300 <;> simp [h₁, h₂, not_lt.1]

/-- What an executed result ends the wait with; `hand` prepares its data for the caller. -/
def resultVerdict (hand : Option Json → Option Json) (r : Option Json) : Verdict :=
  let status := r.bind (Json.field? "status")
  let data := r.bind (Json.field? "data")
  match outOfRange status with
  | none => .typeError
  | some true => .upstreamError status data
  | some false => .returned (hand data)

/-- A poll that got no answer decides nothing, and one that is not ok ends the wait. -/
def pollVerdict (interpret : Payload → Option Verdict) : Attempt Payload → Option Verdict
  | .transportFailure => none
  | .response r => if r.ok then interpret r.body else some (.statusError r.status r.text)

end AgentValet.Approvals
