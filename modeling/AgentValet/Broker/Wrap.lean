import AgentValet.Base.Runs
import AgentValet.Broker.PipelineGate

namespace AgentValet.Broker
open Base Lang

variable {Args Res : Type}

/-- The `credential` field of each context object, `none` where it is absent. -/
abbrev Contexts := ℕ → Option Credential

structure ToolContext where
  extra : McpHandlerExtra
  credential : Option Credential

structure WrappedCall (Args Res : Type) where
  deps : PipelineDeps Res
  toolName : String
  /-- `undefined` for a tool that is called with its context only. -/
  args : Option Args
  context : ℕ
  extra : McpHandlerExtra
  origCb : Option Args → ToolContext → Except Thrown Res

inductive ToolResult (Res : Type) where
  | result (result : Res)
  | error (text : String)

def toolError (reason : String) : ToolResult Res := .error s!"blocked by policy: {reason}"

/-- `if (credential) extra.credential = credential` -/
def inject (contexts : Contexts) (context : ℕ) : Option Credential → Contexts
  | some credential => Function.update contexts context (some credential)
  | none => contexts

structure WrapRun (Res : Type) where
  result : Except Thrown (ToolResult Res)
  /-- The contexts that the handler has been called with. -/
  seen : List ToolContext
  contexts : Contexts

variable (argsFingerprint : Option Args → String)

def WrappedCall.params (call : WrappedCall Args Res) : PipelineParams (Option Args) :=
  ⟨call.toolName, call.args, call.extra⟩

def WrappedCall.request (call : WrappedCall Args Res) : AccessRequest :=
  accessRequest argsFingerprint call.deps call.params

def WrappedCall.toolContext (call : WrappedCall Args Res) (contexts : Contexts)
    (credential : Option Credential) : ToolContext :=
  ⟨call.extra, inject contexts call.context credential call.context⟩

def wrap (contexts : Contexts) (call : WrappedCall Args Res) : WrapRun Res :=
  let run := runPipeline argsFingerprint call.deps call.params fun credential =>
    call.origCb call.args (call.toolContext contexts credential)
  { result := run.result.map fun
      | .ok result => .result result
      | .blocked _ reason => toolError reason
    seen := (invocations run).map (call.toolContext contexts)
    contexts := (invocations run).foldl (fun s credential => inject s call.context credential)
      contexts }

/-- A wrapped tool is called, or someone who holds a context object writes its field. -/
inductive Event (Args Res : Type) where
  | call (call : WrappedCall Args Res)
  | assign (context : ℕ) (credential : Option Credential)

def afterEvent (contexts : Contexts) : Event Args Res → Contexts
  | .call call => (wrap argsFingerprint contexts call).contexts
  | .assign context credential => Function.update contexts context credential

def SeesOwn (contexts : Contexts) : Event Args Res → Prop
  | .call call => ∀ context ∈ (wrap argsFingerprint contexts call).seen,
      HandsOver call.deps (call.request argsFingerprint) context.credential
  | .assign _ _ => True

/-- A call that is let through without a credential finds none on its context object. -/
def Unstained (contexts : Contexts) : Event Args Res → Prop
  | .call call => Admitted call.deps (call.request argsFingerprint) →
      (∀ decision, call.deps.policy (call.request argsFingerprint) = .ok decision →
        credentialObligation decision = none) →
      contexts call.context = none
  | .assign _ _ => True

variable {argsFingerprint} {call : WrappedCall Args Res}

theorem inject_self (contexts : Contexts) (context : ℕ) (credential : Option Credential) :
    inject contexts context credential context = credential.or (contexts context) := by
  cases credential with
  | none => rfl
  | some credential => exact Function.update_self context _ contexts

/-- What the handler finds is the credential that the pipeline hands over, or what is left over. -/
theorem mem_seen_iff {contexts : Contexts} {context : ToolContext} :
    context ∈ (wrap argsFingerprint contexts call).seen ↔
      ∃ credential, Admitted call.deps (call.request argsFingerprint) ∧
        HandsOver call.deps (call.request argsFingerprint) credential ∧
        context = ⟨call.extra, credential.or (contexts call.context)⟩ := by
  simp only [wrap, List.mem_map, mem_invocations_iff, WrappedCall.toolContext, inject_self,
    WrappedCall.request, and_assoc, eq_comm]

/-- One call: what is left over is seen by a call without a credential only. -/
theorem seesOwn_iff (contexts : Contexts) (event : Event Args Res) :
    SeesOwn argsFingerprint contexts event ↔ Unstained argsFingerprint contexts event := by
  cases event with
  | assign context credential => exact Iff.rfl
  | call call =>
    simp only [SeesOwn, Unstained, mem_seen_iff]
    constructor
    · intro h hadmitted hnames
      have hown := h _ ⟨none, hadmitted, handsOver_none_iff.2 hnames, rfl⟩
      exact hown.2 hnames
    · rintro h context ⟨credential, hadmitted, hover, rfl⟩
      cases credential with
      | some credential => exact hover
      | none =>
        rw [Option.none_or, h hadmitted (handsOver_none_iff.1 hover)]
        exact hover

/-- In a run of calls, each handler finds the credential of its own call exactly when no call
without a credential is let through on a context object that carries one. -/
theorem along_seesOwn_iff (argsFingerprint : Option Args → String) (contexts : Contexts)
    (events : List (Event Args Res)) :
    Along (afterEvent argsFingerprint) (SeesOwn argsFingerprint) contexts events ↔
      Along (afterEvent argsFingerprint) (Unstained argsFingerprint) contexts events :=
  Along.congr seesOwn_iff contexts events

def tokenDecision : Decision :=
  ⟨.allow, some [⟨"credential", [("ref", .str "github")]⟩], "local", "1"⟩

def noTokenDecision : Decision := ⟨.allow, none, "local", "1"⟩

def callOf (toolName : String) (context : ℕ) : WrappedCall Unit String where
  deps :=
    { serverName := "mcp-server"
      policy := fun req =>
        .ok (if req.resource.tool = "push" then tokenDecision else noTokenDecision)
      secrets := fun _ _ => .ok ⟨"ghp_1", none, none⟩
      audit := fun _ => .ok ()
      identity := fun _ => ⟨"agent", none, "session"⟩
      approval := none
      redact := none
      failMode := .closed
      warn := fun _ => .ok ()
      now := fun _ => 0
      clock := fun _ => "now" }
  toolName := toolName
  args := none
  context := context
  extra := ⟨none, none, none, none⟩
  origCb := fun _ _ => .ok "done"

/-- The second call names no credential, and its handler finds the one of the first. -/
theorem shared_context_not_own :
    ¬ Along (afterEvent fun _ => "fp") (SeesOwn fun _ => "fp") (fun _ => none)
      [.call (callOf "push" 0), .call (callOf "list" 0)] := by
  intro h
  have hown := h.2.1 ⟨⟨none, none, none, none⟩, some ⟨"ghp_1", none, none⟩⟩
    (List.mem_singleton.2 rfl)
  have hnone := hown.2 fun decision hdecision => by
    cases hdecision
    rfl
  cases hnone

end AgentValet.Broker
