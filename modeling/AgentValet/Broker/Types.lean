import AgentValet.Lang.JavaScript

namespace AgentValet.Broker
open Lang

structure AuthInfo where
  clientId : Option String
  extra : Option (List (String × Json))
  deriving Repr

/-- The slice of the per-request context the broker reads. -/
structure McpHandlerExtra where
  sessionId : Option String
  requestId : Option String
  authInfo : Option AuthInfo
  requestInfo : Option Json
  deriving Repr

structure Subject where
  id : String
  spiffeId : Option String
  sessionId : String
  deriving DecidableEq, Repr

structure Action where
  name : String
  deriving DecidableEq, Repr

structure Resource where
  server : String
  tool : String
  deriving DecidableEq, Repr

structure Context where
  argsFingerprint : String
  transport : String
  ts : String
  deriving DecidableEq, Repr

structure AccessRequest where
  subject : Subject
  action : Action
  resource : Resource
  context : Context
  deriving DecidableEq, Repr

inductive Effect where
  | allow
  | deny
  | requireApproval
  deriving DecidableEq, Repr

/-- An obligation of any type; `fields` holds what stands beside the type. -/
structure Obligation where
  type : String
  fields : List (String × Json)
  deriving Repr

structure Decision where
  effect : Effect
  obligations : Option (List Obligation)
  policyId : String
  version : String
  deriving Repr

/-- `ref` and `scope` are read off an obligation without a check, so both can be any value. -/
structure CredentialRef where
  id : Option Json
  scope : Option Json
  deriving Repr

structure Credential where
  token : String
  expiresAt : Option ℤ
  scope : Option (List String)
  deriving DecidableEq, Repr

structure ApprovalResult where
  approved : Bool
  reason : Option String
  deriving DecidableEq, Repr

inductive Outcome where
  | allowed
  | denied
  | approvalTimeout
  | approvalDenied
  | handlerError
  deriving DecidableEq, Repr

structure AuditDecision where
  effect : Effect
  policyId : String
  version : String
  deriving DecidableEq, Repr

structure AuditEvent where
  schemaVersion : ℕ
  ts : String
  subject : Subject
  resource : Resource
  action : String
  argsFingerprint : String
  decision : AuditDecision
  credentialScope : Option (List String)
  transport : String
  latencyMs : ℤ
  outcome : Outcome
  warnings : Option (List String)
  error : Option String
  deriving DecidableEq, Repr

end AgentValet.Broker
