import AgentValet.Base.Fallible
import AgentValet.Broker.Types

namespace AgentValet.Broker
open Base Lang

structure FetchInit where
  method : String
  headers : List (String × String)
  body : Option Json

structure FetchReply where
  ok : Bool
  status : ℕ
  json : Except Thrown Json

/-- `bearer` and `fetch` stand for what the token provider and the network answer. -/
structure HostedClient where
  baseUrl : String
  bearer : Except Thrown String
  fetch : String → FetchInit → Except Thrown FetchReply
  /-- The payload of a token, decoded and parsed, where that succeeds. -/
  decodePayload : String → Option Json

namespace HostedClient

def agentIdFromToken (decodePayload : String → Option Json) (token : String) : Option String :=
  match token.splitOn "." with
  | [_, payload, _] =>
    match (decodePayload payload).bind (Json.field? "agent_id") with
    | some (.str id) => some id
    | _ => none
  | _ => none

def subjectId (client : HostedClient) (explicit : Option String) : Except Thrown String :=
  match explicit.filter (· ≠ "") with
  | some id => .ok id
  | none => do
    let token ← client.bearer
    match (agentIdFromToken client.decodePayload token).filter (· ≠ "") with
    | some derived => .ok derived
    | none => .error (.error
        "could not determine AgentValet agent id (pass \x7b agentId \x7d or use an agent JWT)")

def exchange (client : HostedClient) (method path : String) (body : Option Json) :
    Except Thrown FetchReply := do
  let token ← client.bearer
  client.fetch (client.baseUrl ++ path)
    { method := method
      headers := [("authorization", s!"Bearer {token}"), ("content-type", "application/json"),
        ("accept", "application/json")]
      body := body }

def request (client : HostedClient) (method path : String) (body : Option Json) :
    Except Thrown Json := do
  let res ← client.exchange method path body
  let status := res.status
  if res.ok then res.json else .error (.error s!"{method} {path} -> HTTP {status}")

theorem request_eq_ok_iff {client : HostedClient} {method path : String} {body : Option Json}
    {value : Json} :
    client.request method path body = .ok value ↔
      ∃ res, client.exchange method path body = .ok res ∧ res.ok = true ∧ res.json = .ok value := by
  rw [request, Fallible.bind_eq_ok]
  refine exists_congr fun res => and_congr_right fun _ => ?_
  cases res.ok <;> simp

end HostedClient

def textOf : Option Json → Option String
  | some (.str s) => some s
  | _ => none

/-- What reading a property of null or undefined throws. -/
def readError (value : String) (key : String) : Thrown :=
  .error s!"Cannot read properties of {value} (reading '{key}')"

end AgentValet.Broker
