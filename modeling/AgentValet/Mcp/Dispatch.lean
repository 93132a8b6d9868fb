import AgentValet.Base.Exchanges
import AgentValet.Mcp.Credentials

namespace AgentValet.Mcp
open Base Lang Approvals

inductive JsonType where
  | string
  | object
  | array
  deriving DecidableEq

structure Property where
  name : String
  type : JsonType
  enum : Option (List String)

/-- A tool with the schema of its input; what only the host reads is left out. -/
structure Tool where
  name : String
  properties : List Property
  required : List String

def ALLOWED_METHODS : List String := ["GET", "POST", "PUT", "PATCH", "DELETE"]

def LIST_PLATFORMS_TOOL : Tool := ⟨"list_platforms", [], []⟩

def USE_PLATFORM_TOOL : Tool where
  name := "use_platform"
  properties := [⟨"platform", .string, none⟩, ⟨"endpoint", .string, none⟩,
    ⟨"method", .string, some ["GET", "POST", "PUT", "PATCH", "DELETE"]⟩, ⟨"scope", .string, none⟩,
    ⟨"body", .object, none⟩, ⟨"data", .object, none⟩, ⟨"connection_id", .string, none⟩]
  required := ["platform", "endpoint", "method", "scope"]

def AGENT_REGISTER_TOOL : Tool where
  name := "agent_register"
  properties := [⟨"owner_id", .string, none⟩, ⟨"agent_name", .string, none⟩,
    ⟨"requested_scopes", .array, none⟩]
  required := ["owner_id", "agent_name", "requested_scopes"]

def AGENT_STATUS_TOOL : Tool := ⟨"agent_status", [⟨"token", .string, none⟩], ["token"]⟩

def AUTHZEN_EVALUATE_TOOL : Tool where
  name := "authzen_evaluate"
  properties := [⟨"platform_id", .string, none⟩, ⟨"scope", .string, none⟩]
  required := ["platform_id", "scope"]

def REPORT_SELF_DIAGNOSTIC_TOOL : Tool where
  name := "report_self_diagnostic"
  properties := [⟨"severity", .string, some ["debug", "info", "warn", "error", "critical"]⟩,
    ⟨"message", .string, none⟩, ⟨"code", .string, none⟩, ⟨"platform", .string, none⟩,
    ⟨"endpoint", .string, none⟩, ⟨"correlation_id", .string, none⟩, ⟨"context", .object, none⟩]
  required := ["severity", "message"]

def LIST_MY_PENDING_ACTIONS_TOOL : Tool := ⟨"list_my_pending_actions", [], []⟩

def REQUEST_PLATFORM_ACCESS_TOOL : Tool where
  name := "request_platform_access"
  properties := [⟨"platform", .string, none⟩, ⟨"scope", .string, none⟩, ⟨"reason", .string, none⟩]
  required := ["platform"]

def ALL_TOOLS : List Tool :=
  [LIST_PLATFORMS_TOOL, USE_PLATFORM_TOOL, AGENT_REGISTER_TOOL, AGENT_STATUS_TOOL,
    AUTHZEN_EVALUATE_TOOL, REPORT_SELF_DIAGNOSTIC_TOOL, LIST_MY_PENDING_ACTIONS_TOOL,
    REQUEST_PLATFORM_ACCESS_TOOL]

structure CallToolParams where
  name : String
  arguments : Option Payload
  progressToken : Option Json

inductive Handler where
  | tool (call : ToolCall)
  | agentRegister (args : Payload)
  | agentStatus (token : String)

/-- `args.body ?? args.data` -/
def bodyArg (args : Payload) : Option Json :=
  (Json.lookup args "body").filter (fun v => match v with | .null => false | _ => true) <|>
    Json.lookup args "data"

def isArray (args : Payload) (key : String) : Bool :=
  match Json.lookup args key with
  | some (.arr _) => true
  | _ => false

def usePlatformHandler (args : Payload) (progressToken : Option Json) : Except ToolResult Handler :=
  match stringArg args "platform", stringArg args "endpoint", stringArg args "method",
    stringArg args "scope" with
  | some platform, some endpoint, some method, some scope =>
    if method ∈ ALLOWED_METHODS then
      .ok (.tool (.usePlatform ⟨platform, endpoint, method, scope, bodyArg args,
        stringArg args "connection_id"⟩ progressToken))
    else .error (errorContent s!"Invalid method: {method}")
  | _, _, _, _ => .error (errorContent "Invalid or missing tool arguments")

def agentRegisterHandler (args : Payload) : Except ToolResult Handler :=
  match stringArg args "owner_id", stringArg args "agent_name", isArray args "requested_scopes" with
  | some _, some _, true => .ok (.agentRegister args)
  | _, _, _ => .error (errorContent
    "Invalid or missing arguments: owner_id, agent_name, requested_scopes are required")

def agentStatusHandler (args : Payload) : Except ToolResult Handler :=
  match stringArg args "token" with
  | some token => .ok (.agentStatus token)
  | none => .error (errorContent "Invalid or missing argument: token is required")

def authzenEvaluateHandler (args : Payload) : Except ToolResult Handler :=
  match stringArg args "platform_id", stringArg args "scope" with
  | some platformId, some scope => .ok (.tool (.authzenEvaluate platformId scope))
  | _, _ => .error (errorContent "Invalid or missing arguments: platform_id and scope are required")

def reportSelfDiagnosticHandler (args : Payload) : Except ToolResult Handler :=
  match stringArg args "severity", stringArg args "message" with
  | some _, some _ => .ok (.tool (.reportSelfDiagnostic args))
  | _, _ => .error (errorContent
    "Invalid or missing arguments: severity and message are required")

def requestPlatformAccessHandler (args : Payload) : Except ToolResult Handler :=
  match stringArg args "platform" with
  | some _ => .ok (.tool (.requestPlatformAccess args))
  | none => .error (errorContent "Invalid or missing argument: platform is required")

/-- The checks of a call.  Without arguments no argument is a string, so a tool that needs some
refuses alike. -/
def handlerOf (params : CallToolParams) : Except ToolResult Handler :=
  let args := params.arguments.getD []
  match params.name with
  | "list_platforms" => .ok (.tool .listPlatforms)
  | "use_platform" => usePlatformHandler args params.progressToken
  | "agent_register" => agentRegisterHandler args
  | "agent_status" => agentStatusHandler args
  | "authzen_evaluate" => authzenEvaluateHandler args
  | "list_my_pending_actions" => .ok (.tool .listMyPendingActions)
  | "report_self_diagnostic" => reportSelfDiagnosticHandler args
  | "request_platform_access" => requestPlatformAccessHandler args
  | name => .error (errorContent s!"Unknown tool: {name}")

section
variable {Key : Type} (rt : Runtime Key) (ctx : ServerContext Key)

def registerRequest (args : Payload) : Request where
  method := "POST"
  url := s!"{ctx.PROXY_URL}/v1/register"
  headers := [("Content-Type", "application/json")]
  body := some (.obj args)

def registerStatusRequest (token : String) : Request where
  method := "GET"
  url := s!"{ctx.PROXY_URL}/v1/register/status/{rt.encodeURIComponent token}"
  headers := [("Content-Type", "application/json")]
  body := none

def openRequest (r : Request) : Prog ToolResult := do
  match ← (fetchWithTimeout r 15000).attempt with
  | .error fault => pure (networkError fault)
  | .ok response => relay rt response

def handleAgentRegister (args : Payload) : Prog ToolResult :=
  openRequest rt (registerRequest ctx args)

def handleAgentStatus (token : String) : Prog ToolResult :=
  openRequest rt (registerStatusRequest rt ctx token)

def Handler.run (fuel : ℕ) : Handler → Prog ToolResult
  | .tool call => handle rt ctx fuel call
  | .agentRegister args => handleAgentRegister rt ctx args
  | .agentStatus token => handleAgentStatus rt ctx token

def callTool (fuel : ℕ) (params : CallToolParams) : Prog ToolResult :=
  match handlerOf params with
  | .error refusal => pure refusal
  | .ok handler => handler.run rt ctx fuel

end

def JsonType.holds : JsonType → Json → Bool
  | .string, .str _ => true
  | .object, .obj _ => true
  | .array, .arr _ => true
  | _, _ => false

def Property.lists (p : Property) (v : Json) : Prop :=
  ∀ allowed, p.enum = some allowed → ∃ s ∈ allowed, v = .str s

structure Tool.Conforms (tool : Tool) (args : Payload) : Prop where
  given : ∀ key ∈ tool.required, (Json.lookup args key).isSome = true
  valid : ∀ p ∈ tool.properties, ∀ v, Json.lookup args p.name = some v →
    p.type.holds v = true ∧ p.lists v

/-- What the server checks of the schema: each required argument is there and has its type, and the
method is one of those it lists. -/
def Tool.Takes (tool : Tool) (args : Payload) : Prop :=
  ∀ p ∈ tool.properties, p.name ∈ tool.required →
    ∃ v, Json.lookup args p.name = some v ∧ p.type.holds v = true ∧ (p.name = "method" → p.lists v)

def Handler.name : Handler → String
  | .tool .listPlatforms => "list_platforms"
  | .tool (.usePlatform _ _) => "use_platform"
  | .tool (.authzenEvaluate _ _) => "authzen_evaluate"
  | .tool .listMyPendingActions => "list_my_pending_actions"
  | .tool (.requestPlatformAccess _) => "request_platform_access"
  | .tool (.reportSelfDiagnostic _) => "report_self_diagnostic"
  | .agentRegister _ => "agent_register"
  | .agentStatus _ => "agent_status"

/-- A required argument that is a text. -/
theorem taken_string_iff {args : Payload} {key : String} :
    (∃ v, Json.lookup args key = some v ∧ JsonType.string.holds v = true) ↔
      (stringArg args key).isSome = true := by
  rw [stringArg]
  cases Json.lookup args key with
  | none => simp
  | some v => cases v <;> simp [JsonType.holds]

/-- A required argument that is one of the texts a list has. -/
theorem taken_listed_iff {args : Payload} {key : String} {p : Property} {allowed : List String}
    (hp : p.enum = some allowed) :
    (∃ v, Json.lookup args key = some v ∧ JsonType.string.holds v = true ∧ p.lists v) ↔
      ∃ s ∈ allowed, stringArg args key = some s := by
  rw [stringArg]
  cases Json.lookup args key with
  | none => simp
  | some v => cases v <;> simp [JsonType.holds, Property.lists, hp]

theorem taken_array_iff {args : Payload} {key : String} :
    (∃ v, Json.lookup args key = some v ∧ JsonType.array.holds v = true) ↔
      isArray args key = true := by
  rw [isArray]
  cases Json.lookup args key with
  | none => simp
  | some v => cases v <;> simp [JsonType.holds]

section
variable {args : Payload}

/-- Each required argument is a text, and none is the method. -/
def Tool.TextsOnly (tool : Tool) : Prop :=
  (∀ key ∈ tool.required, key ∈ tool.properties.map Property.name) ∧
    ∀ p ∈ tool.properties, p.name ∈ tool.required → p.type = .string ∧ p.name ≠ "method"

instance (tool : Tool) : Decidable tool.TextsOnly := inferInstanceAs (Decidable (_ ∧ _))

/-- Checks that ask of each required argument whether it is a text are those of the schema. -/
theorem texts_taken_iff {tool : Tool} {checked : Except ToolResult Handler}
    (htexts : tool.TextsOnly)
    (hchecked : checked.isOk = tool.required.all fun key => (stringArg args key).isSome) :
    (∃ handler, checked = .ok handler) ↔ tool.Takes args := by
  have hok : (∃ handler, checked = .ok handler) ↔ checked.isOk = true := by
    cases checked <;> simp [Except.isOk, Except.toBool]
  rw [hok, hchecked, List.all_eq_true]
  constructor
  · intro h p hp hrequired
    obtain ⟨htype, hmethod⟩ := htexts.2 p hp hrequired
    obtain ⟨v, hv, hholds⟩ := taken_string_iff.2 (h p.name hrequired)
    exact ⟨v, hv, htype ▸ hholds, fun hname => absurd hname hmethod⟩
  · intro h key hkey
    obtain ⟨p, hp, rfl⟩ := List.mem_map.1 (htexts.1 key hkey)
    obtain ⟨v, hv, hholds, -⟩ := h p hp hkey
    rw [(htexts.2 p hp hkey).1] at hholds
    exact taken_string_iff.1 ⟨v, hv, hholds⟩

theorem usePlatform_taken_iff (progressToken : Option Json) :
    (∃ handler, usePlatformHandler args progressToken = .ok handler) ↔
      USE_PLATFORM_TOOL.Takes args := by
  have htakes : USE_PLATFORM_TOOL.Takes args ↔ (stringArg args "platform").isSome = true ∧
      (stringArg args "endpoint").isSome = true ∧
      (∃ s ∈ ALLOWED_METHODS, stringArg args "method" = some s) ∧
      (stringArg args "scope").isSome = true := by
    simp only [Tool.Takes, USE_PLATFORM_TOOL]
    simp [taken_string_iff, taken_listed_iff, ALLOWED_METHODS]
  rw [htakes, usePlatformHandler]
  cases stringArg args "platform" <;> cases stringArg args "endpoint" <;>
    cases stringArg args "method" <;> cases stringArg args "scope" <;> simp
  split_ifs <;> simp_all

theorem agentRegister_taken_iff :
    (∃ handler, agentRegisterHandler args = .ok handler) ↔ AGENT_REGISTER_TOOL.Takes args := by
  have htakes : AGENT_REGISTER_TOOL.Takes args ↔ (stringArg args "owner_id").isSome = true ∧
      (stringArg args "agent_name").isSome = true ∧ isArray args "requested_scopes" = true := by
    simp [Tool.Takes, AGENT_REGISTER_TOOL, taken_string_iff, taken_array_iff]
  rw [htakes, agentRegisterHandler]
  cases stringArg args "owner_id" <;> cases stringArg args "agent_name" <;>
    cases isArray args "requested_scopes" <;> simp

theorem isOk_agentStatusHandler : (agentStatusHandler args).isOk =
    AGENT_STATUS_TOOL.required.all fun key => (stringArg args key).isSome := by
  simp only [agentStatusHandler, AGENT_STATUS_TOOL, List.all_cons, List.all_nil]
  cases stringArg args "token" <;> rfl

theorem isOk_authzenEvaluateHandler : (authzenEvaluateHandler args).isOk =
    AUTHZEN_EVALUATE_TOOL.required.all fun key => (stringArg args key).isSome := by
  simp only [authzenEvaluateHandler, AUTHZEN_EVALUATE_TOOL, List.all_cons, List.all_nil]
  cases stringArg args "platform_id" <;> cases stringArg args "scope" <;> rfl

theorem isOk_reportSelfDiagnosticHandler : (reportSelfDiagnosticHandler args).isOk =
    REPORT_SELF_DIAGNOSTIC_TOOL.required.all fun key => (stringArg args key).isSome := by
  simp only [reportSelfDiagnosticHandler, REPORT_SELF_DIAGNOSTIC_TOOL, List.all_cons,
    List.all_nil]
  cases stringArg args "severity" <;> cases stringArg args "message" <;> rfl

theorem isOk_requestPlatformAccessHandler : (requestPlatformAccessHandler args).isOk =
    REQUEST_PLATFORM_ACCESS_TOOL.required.all fun key => (stringArg args key).isSome := by
  simp only [requestPlatformAccessHandler, REQUEST_PLATFORM_ACCESS_TOOL, List.all_cons,
    List.all_nil]
  cases stringArg args "platform" <;> rfl

end

theorem Tool.Conforms.takes {tool : Tool} {args : Payload} (h : tool.Conforms args) :
    tool.Takes args := by
  intro p hp hrequired
  obtain ⟨v, hv⟩ := Option.isSome_iff_exists.1 (h.given p.name hrequired)
  obtain ⟨hholds, hlists⟩ := h.valid p hp v hv
  exact ⟨v, hv, hholds, fun _ => hlists⟩

theorem takes_of_nothing_required {tool : Tool} (h : tool.required = []) (args : Payload) :
    tool.Takes args := by
  intro p _ hrequired
  rw [h] at hrequired
  cases hrequired

theorem handlerOf_unknown {params : CallToolParams} (h : params.name ∉ ALL_TOOLS.map Tool.name) :
    handlerOf params = .error (errorContent s!"Unknown tool: {params.name}") := by
  rw [handlerOf]
  split
  all_goals first
    | rfl
    | (rename_i hname; exact absurd (by rw [hname]; decide) h)

/-- A handler for the tool of this name, or an error. -/
def Checked (name : String) : Except ToolResult Handler → Prop
  | .ok handler => handler.name = name
  | .error refusal => refusal.isError = true

theorem checked_handlerOf (params : CallToolParams) : Checked params.name (handlerOf params) := by
  rw [handlerOf]
  split
  · rename_i hname
    exact hname.symm
  · rename_i hname
    rw [usePlatformHandler]
    split
    · split_ifs
      · exact hname.symm
      · exact rfl
    · exact rfl
  · rename_i hname
    rw [agentRegisterHandler]
    split
    · exact hname.symm
    · exact rfl
  · rename_i hname
    rw [agentStatusHandler]
    split
    · exact hname.symm
    · exact rfl
  · rename_i hname
    rw [authzenEvaluateHandler]
    split
    · exact hname.symm
    · exact rfl
  · rename_i hname
    exact hname.symm
  · rename_i hname
    rw [reportSelfDiagnosticHandler]
    split
    · exact hname.symm
    · exact rfl
  · rename_i hname
    rw [requestPlatformAccessHandler]
    split
    · exact hname.symm
    · exact rfl
  · exact rfl

/-- A handler is for the tool that was called. -/
theorem name_of_handlerOf {params : CallToolParams} {handler : Handler}
    (h : handlerOf params = .ok handler) : handler.name = params.name := by
  have hchecked := checked_handlerOf params
  rwa [h] at hchecked

/-- What the server refuses itself is an error. -/
theorem isError_of_refused {params : CallToolParams} {refusal : ToolResult}
    (h : handlerOf params = .error refusal) : refusal.isError = true := by
  have hchecked := checked_handlerOf params
  rwa [h] at hchecked

/-- The server hands a call on exactly if the tool takes its arguments, always to the tool that was
named, and it takes all arguments that keep to the schema it lists. -/
theorem handlerOf_spec (params : CallToolParams) :
    (params.name ∉ ALL_TOOLS.map Tool.name →
      handlerOf params = .error (errorContent s!"Unknown tool: {params.name}")) ∧
    (∀ handler, handlerOf params = .ok handler → handler.name = params.name) ∧
    ∀ tool ∈ ALL_TOOLS, params.name = tool.name →
      ((∃ handler, handlerOf params = .ok handler) ↔ tool.Takes (params.arguments.getD [])) ∧
      (tool.Conforms (params.arguments.getD []) → ∃ handler, handlerOf params = .ok handler) := by
  refine ⟨handlerOf_unknown, fun _ => name_of_handlerOf, fun tool htool hname => ?_⟩
  have htaken : (∃ handler, handlerOf params = .ok handler) ↔
      tool.Takes (params.arguments.getD []) := by
    obtain ⟨name, arguments, progressToken⟩ := params
    obtain rfl : name = tool.name := hname
    simp only [ALL_TOOLS, List.mem_cons, List.not_mem_nil, or_false] at htool
    obtain rfl | rfl | rfl | rfl | rfl | rfl | rfl | rfl := htool
    · exact iff_of_true ⟨_, rfl⟩ (takes_of_nothing_required rfl _)
    · exact usePlatform_taken_iff progressToken
    · exact agentRegister_taken_iff
    · exact texts_taken_iff (by decide) isOk_agentStatusHandler
    · exact texts_taken_iff (by decide) isOk_authzenEvaluateHandler
    · exact texts_taken_iff (by decide) isOk_reportSelfDiagnosticHandler
    · exact iff_of_true ⟨_, rfl⟩ (takes_of_nothing_required rfl _)
    · exact texts_taken_iff (by decide) isOk_requestPlatformAccessHandler
  exact ⟨htaken, fun hconforms => htaken.2 hconforms.takes⟩

variable {Key : Type} {rt : Runtime Key} {ctx : ServerContext Key}

/-- The two tools that an agent without an identity registers with. -/
def registers (name : String) : Prop := name = "agent_register" ∨ name = "agent_status"

theorem openRequest_sends {p : Request → Prop} {r : Request} (hr : p r) :
    Sends p (openRequest rt r) := by
  apply (fetchWithTimeout_asks hr 15000).attempt.bind
  intro result
  cases result with
  | error fault => exact trivial
  | ok response => exact relay_sends response

/-- Without a key a tool behind the gate sends the notice at most, and its end tells what is
missing. -/
theorem gated_refuses (tool : Prog ToolResult) (hkey : ctx.AGENT_PRIVATE_KEY_RAW = none) :
    (gated rt ctx tool).Total ∧
      (gated rt ctx tool).Sat (onRequests fun r => r = bindSecretRequest ctx)
        (fun result => result.isError = true) fun _ => False := by
  have hrequest : (fetchWithTimeout (bindSecretRequest ctx) 8000).Total :=
    fun moment => Program.total_ofExcept _
  have htotal : (notifyBindSecret ctx).Total := hrequest.attempt.bind fun _ => trivial
  have hasks : Asks (fun r => r = bindSecretRequest ctx)
      (fetchWithTimeout (bindSecretRequest ctx) 8000) :=
    @fetchWithTimeout_asks (fun r => r = bindSecretRequest ctx) _ rfl 8000
  -- the notice is within a `try`
  have hnotice : (notifyBindSecret ctx).Sat (onRequests fun r => r = bindSecretRequest ctx)
      (fun _ => True) fun _ => False :=
    Program.Sat.bind (Program.Sat.attempt hasks) fun _ _ => trivial
  have hrefuses : (requireCredentials rt ctx).Total ∧
      (requireCredentials rt ctx).Sat (onRequests fun r => r = bindSecretRequest ctx)
        (fun r => ∃ refusal, r = some refusal ∧ refusal.isError = true) fun _ => False := by
    simp only [requireCredentials, hkey, Option.isSome_none, Bool.false_eq_true, if_false]
    split_ifs
    · exact ⟨htotal.bind fun _ => trivial, hnotice.bind fun _ _ => ⟨_, rfl, rfl⟩⟩
    · exact ⟨trivial, ⟨_, rfl, rfl⟩⟩
  refine ⟨hrefuses.1.bind_of_sat hrefuses.2 ?_, hrefuses.2.bind ?_⟩
  · rintro _ ⟨refusal, rfl, -⟩
    exact trivial
  · rintro _ ⟨refusal, rfl, herror⟩
    exact herror

/-- Whatever is called, a request carries a token only for a tool that is not there to register
with, and only where a key is loaded; without one every other call ends with an error. -/
theorem callTool_signed (fuel : ℕ) (params : CallToolParams) :
    (callTool rt ctx fuel params).Sat
      (onRequests fun r => carriesJWT r →
        ctx.AGENT_PRIVATE_KEY_RAW.isSome = true ∧ ¬ registers params.name)
      (fun _ => True) (fun fault => fault ≠ .keyNotLoaded) ∧
    (ctx.AGENT_PRIVATE_KEY_RAW = none → ¬ registers params.name →
      (callTool rt ctx fuel params).Total ∧
        (callTool rt ctx fuel params).Sat (fun _ => True) (fun result => result.isError = true)
          fun _ => False) := by
  have hplain : ∀ r : Request, r.headers = [("Content-Type", "application/json")] →
      ¬ carriesJWT r := fun r hr hjwt => by simp [carriesJWT, hr] at hjwt
  rw [callTool]
  cases hhandler : handlerOf params with
  | error refusal => exact ⟨trivial, fun _ _ => ⟨trivial, isError_of_refused hhandler⟩⟩
  | ok handler =>
    have hname := name_of_handlerOf hhandler
    cases handler with
    | tool call =>
      have hregisters : ¬ registers params.name := by
        rw [registers, ← hname]
        cases call <;> simp [Handler.name]
      change (handle rt ctx fuel call).Sat _ _ _ ∧ (_ → _ → (handle rt ctx fuel call).Total ∧
        (handle rt ctx fuel call).Sat _ _ _)
      cases hkey : ctx.AGENT_PRIVATE_KEY_RAW with
      | none =>
        obtain ⟨tool, htool⟩ := handle_eq_gated rt ctx fuel call
        obtain ⟨htotal, hrefuses⟩ := @gated_refuses _ rt _ tool hkey
        rw [htool]
        refine ⟨hrefuses.mono ?_ (fun _ _ => trivial) fun _ h => h.elim, fun _ _ =>
          ⟨htotal, hrefuses.mono (fun _ _ => trivial) (fun _ h => h) fun _ h => h⟩⟩
        intro effect heffect
        cases effect with
        | fetch r timeoutMs =>
          obtain rfl : r = bindSecretRequest ctx := heffect
          exact fun hjwt => absurd hjwt (hplain _ rfl)
        | _ => trivial
      | some pem =>
        refine ⟨handle_sends (fun url method body token _ => ⟨rfl, hregisters⟩) fuel call
          (fun _ _ _ => ⟨rfl, hregisters⟩) fun params' tok _ _ => ?_, fun h => by cases h⟩
        exact requestThen_sends (fun token _ => ⟨rfl, hregisters⟩) relay_sends
    | agentRegister args =>
      have hregisters : registers params.name := Or.inl hname.symm
      exact ⟨openRequest_sends fun hjwt => absurd hjwt (hplain _ rfl),
        fun _ h => absurd hregisters h⟩
    | agentStatus token =>
      have hregisters : registers params.name := Or.inr hname.symm
      exact ⟨openRequest_sends fun hjwt => absurd hjwt (hplain _ rfl),
        fun _ h => absurd hregisters h⟩

end AgentValet.Mcp
