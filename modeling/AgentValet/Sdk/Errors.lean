import AgentValet.Approvals.Client
import AgentValet.Base.Fallible
import AgentValet.Base.Polling
import AgentValet.Lang.Http

namespace AgentValet.Sdk
open Base Lang Approvals

/-- The errors of the packages, which all derive from this class. -/
inductive AgentValetError where
  | config
  | network
  | proxy (status : ℕ) (body : Client.ErrorBody)
  | accessDenied (status : ℕ) (body platform scope : String)
  | approvalDenied (detail : Option Json)
  | approvalExpired
  | approvalTimeout
  | upstream (status data : Option Json)

/-- Exceptions of the languages and libraries below. -/
inductive Foreign where
  | signing
  | text
  | reading
  | json
  | type
  | recursion
  | range
  | request
  | sleep
  | rounding

inductive Thrown where
  | typed (e : AgentValetError)
  | foreign (e : Foreign)
  /-- What code of the caller's throws, an error of the package or another. -/
  | caller (ofPackage : Bool)

abbrev Ended (α : Type) := Except Thrown α

/-- The method returned, or it threw an error of the package. -/
def Typed {α : Type} : Ended α → Prop
  | .error (.foreign _) => False
  | .error (.caller ofPackage) => ofPackage = true
  | _ => True

/-- What is left to do once a part of a method has ended well. -/
def andThen {α β : Type} (x : Ended α) (rest : α → Option (Ended β)) : Option (Ended β) :=
  match x with
  | .error e => some (.error e)
  | .ok a => rest a

@[simp] theorem andThen_error {α β : Type} (e : Thrown) (rest : α → Option (Ended β)) :
    andThen (.error e) rest = some (.error e) := rfl

@[simp] theorem andThen_ok {α β : Type} (a : α) (rest : α → Option (Ended β)) :
    andThen (.ok a) rest = rest a := rfl

/-- How a request ends, and a second one in case it is made. -/
structure Exchange where
  first : Except Lang.Thrown Reply
  retry : Except Lang.Thrown Reply

inductive KeyState where
  | malformed
  | unfit
  | fit
  deriving DecidableEq

/-- What the private key is good for: `jose` may read it and still refuse to sign with it, and
`jwt.encode` signs with it or not. -/
structure PrivateKey where
  jose : KeyState
  pyJwt : Bool

structure Options where
  key : PrivateKey
  proxyUrl : String
  timeout : Double
  approvalTimeout : Double
  approvalPoll : Double

/-- A body in the hands of the caller: parsed, or else the text itself. -/
inductive Value where
  | parsed (v : Json)
  | text (t : String)

/-- What a reply to an action leads to. -/
inductive Reading (ι : Type) where
  | wait (approvalId : ι)
  | value (v : Value)

structure PendingInfo where
  approvalId : Json
  elapsed : ℚ
  platform : String
  scope : String
  endpoint : String

inductive Output where
  | value (v : Value)
  | waited (data : Option Json)
  | access (status : String) (requestToken : Json)

/-- A value is handed on, an approval waited for. -/
def Reading.await {ι : Type} (wait : ι → Option (Ended Output)) : Reading ι → Option (Ended Output)
  | .wait approvalId => wait approvalId
  | .value v => some (.ok (.value v))

/-- The end of a loop run with `fuel` rounds at most. -/
def finish {V σ : Type} (loop : PollLoop (Ended V) σ) (hand : V → Output) (fuel : ℕ) (s : σ) :
    Option (Ended Output) :=
  (loop.run fuel 0 s).map fun stopped => stopped.verdict.map hand

/-- The surroundings of one method: the clock, how its requests end, and what the callback throws
when it is told of poll `k`, an error of the package or another. -/
structure World where
  clock : Clock
  submit : Exchange
  polls : ℕ → Exchange
  told : ℕ → Option Bool

/-- `now - started < budget`, where no time is within a budget that is no number. -/
def within (clock : Clock) (budget : Double) (k : ℕ) : Bool :=
  Double.lt (.finite (clock.head k - clock.started)) budget

/-- A poll that decides nothing is told of, and that may throw. -/
def orTell {α : Type} (told : Option Bool) (verdict : Option (Ended α)) : Option (Ended α) :=
  match verdict with
  | some ended => some ended
  | none => told.map fun ofPackage => .error (.caller ofPackage)

/-- The data of an action as it is serialised, or what that throws. -/
abbrev Data := Option (Ended Json)

/-- The body of an action; what is falsy is left out. -/
def actionBody (platform endpoint method scope : String) (data : Data)
    (connectionId reason : Option String) : Ended Json := do
  let given ← match data with
    | none => pure []
    | some v => do pure [("data", ← v)]
  let text (key : String) (v : Option String) : List (String × Json) :=
    ((v.filter (· ≠ "")).map fun s => (key, Json.str s)).toList
  pure <| .obj <|
    [("platform", .str platform), ("endpoint", .str endpoint), ("method", .str method),
      ("scope", .str scope)] ++ given ++ text "connection_id" connectionId ++ text "reason" reason

theorem actionBody_typed_iff (platform endpoint method scope : String) (data : Data)
    (connectionId reason : Option String) :
    Typed (actionBody platform endpoint method scope data connectionId reason) ↔
      ∀ ended, data = some ended → Typed ended := by
  rcases data with _ | (e | v)
  · exact iff_of_true trivial fun _ h => by cases h
  · constructor
    · intro h ended hended
      cases hended
      cases e <;> exact h
    · intro h
      have he := h _ rfl
      cases e <;> exact he
  · refine iff_of_true trivial fun ended h => ?_
    cases h
    trivial

theorem actionBody_ok_iff (platform endpoint method scope : String) (data : Data)
    (connectionId reason : Option String) :
    (∃ body, actionBody platform endpoint method scope data connectionId reason = .ok body) ↔
      ∀ ended, data = some ended → ∃ v, ended = .ok v := by
  rcases data with _ | (e | v)
  · exact iff_of_true ⟨_, rfl⟩ fun _ h => by cases h
  · refine iff_of_false (fun h => ?_) fun h => ?_
    · obtain ⟨body, hbody⟩ := h
      cases hbody
    · obtain ⟨v, hv⟩ := h _ rfl
      cases hv
  · refine iff_of_true ⟨_, rfl⟩ fun ended h => ?_
    cases h
    exact ⟨v, rfl⟩

end AgentValet.Sdk
