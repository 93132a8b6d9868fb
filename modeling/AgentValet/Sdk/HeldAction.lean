import AgentValet.Mcp.GateClient
import AgentValet.Mcp.Handlers
import AgentValet.Sdk.Python
import AgentValet.Sdk.TypeScript

namespace AgentValet.Sdk
open Base Lang Approvals Mcp

section Tool
variable {Key : Type} (rt : Mcp.Runtime Key) (ctx : ServerContext Key) (fuel : ℕ)
  (params : UsePlatform) (progressToken : Option Json)

/-- The tool returns when it has the reply, with a result that is no error and carries the body. -/
def ToolHandsBack (env : List Effect → Moment) (asked : List Effect) (body : String) : Prop :=
  ∃ structuredContent, (handleUsePlatform rt ctx fuel params progressToken).run env [] =
    (.returned ⟨body, structuredContent, false⟩, asked)

variable {rt ctx params}

/-- On the governed path a run goes on from the reply. -/
theorem handleUsePlatform_run {env : List Effect → Moment} {asked : List Effect}
    {response : Reply} (hgate : ctx.AGENT_PRIVATE_KEY_RAW.isSome = true)
    (hgoverned : observes ctx params = false)
    (hreply : (sendAction rt ctx params).run env [] = (.returned response, asked)) :
    (handleUsePlatform rt ctx fuel params progressToken).run env [] =
      (actionReply rt ctx fuel params progressToken response).run env asked := by
  have hopen : handleUsePlatform rt ctx fuel params progressToken =
      performAction rt ctx fuel params progressToken := by
    simp only [handleUsePlatform, gated, requireCredentials, hgate, hgoverned, if_true,
      Bool.false_eq_true, if_false, Program.returned_bind]
  rw [hopen]
  exact Program.run_bind_of_returned (Program.run_attempt_of_returned hreply) _

theorem toolHandsBack_iff {env : List Effect → Moment} {asked : List Effect} {status : ℕ}
    {body : String} (hgate : ctx.AGENT_PRIVATE_KEY_RAW.isSome = true)
    (hgoverned : observes ctx params = false)
    (hreply : (sendAction rt ctx params).run env [] = (.returned ⟨status, .ok body⟩, asked)) :
    ToolHandsBack rt ctx fuel params progressToken env asked body ↔
      200 ≤ status ∧ status < 300 ∧ (status = 202 → Mcp.approvalId? rt body = none) := by
  unfold ToolHandsBack
  rw [handleUsePlatform_run fuel progressToken hgate hgoverned hreply]
  cases hid : if status = 202 then Mcp.approvalId? rt body else none with
  | some approvalId =>
    obtain ⟨hstatus, hfound⟩ := Option.ite_none_right_eq_some.1 hid
    have hwait : actionReply rt ctx fuel params progressToken ⟨status, .ok body⟩ =
        Mcp.waitForApproval rt ctx fuel approvalId params progressToken := by
      simp only [actionReply, readText_ok, Program.returned_bind, hid]
    rw [hwait]
    constructor
    · rintro ⟨structuredContent, h⟩
      exact absurd h (Program.run_query_bind_ne env asked _ _ _ _)
    · rintro ⟨-, -, h⟩
      rw [h hstatus] at hfound
      cases hfound
  | none =>
    have hread : status = 202 → Mcp.approvalId? rt body = none := ite_eq_right_iff.1 hid
    by_cases hok : Reply.ok ⟨status, .ok body⟩ = true
    · have hresult : actionReply rt ctx fuel params progressToken ⟨status, .ok body⟩ =
          .returned (jsonContent rt body) := by
        simp only [actionReply, readText_ok, Program.returned_bind, hid, hok, if_true]
        rfl
      have hrange : 200 ≤ status ∧ status < 300 := Reply.ok_iff.1 hok
      rw [hresult]
      exact ⟨fun _ => ⟨hrange.1, hrange.2, hread⟩, fun _ => ⟨_, rfl⟩⟩
    · constructor
      · rintro ⟨structuredContent, h⟩
        simp only [actionReply, readText_ok, Program.returned_bind, hid, hok] at h
        have herror : true = false :=
          congrArg ToolResult.isError (Outcome.returned.inj (congrArg Prod.fst h))
        cases herror
      · rintro ⟨hlow, hhigh, -⟩
        exact absurd (Reply.ok_iff.2 ⟨hlow, hhigh⟩) hok

end Tool

/-- The TypeScript client returns the body, parsed or as it is, without waiting. -/
def ClientHandsBack (rt : TypeScript.Runtime) (opts : Options) (world : World)
    (req : TypeScript.CallRequest) (fuel : ℕ) : Prop :=
  ∃ v, TypeScript.call rt opts world req fuel = some (.ok (.value v))

/-- What a method hands back after a wait is not the body of the first reply. -/
theorem finish_ne_value {V σ : Type} (loop : PollLoop (Ended V) σ) {hand : V → Output}
    (hhand : ∀ x v, hand x ≠ .value v) (fuel : ℕ) (s : σ) (v : Value) :
    finish loop hand fuel s ≠ some (.ok (.value v)) := by
  intro h
  obtain ⟨stopped, -, hstopped⟩ := Option.map_eq_some_iff.1 h
  cases hv : stopped.verdict with
  | error e =>
    rw [hv] at hstopped
    cases hstopped
  | ok x =>
    rw [hv] at hstopped
    exact hhand x v (Except.ok.inj hstopped)

theorem clientHandsBack_iff (rt : TypeScript.Runtime) {opts : Options} {world : World}
    {req : TypeScript.CallRequest} (fuel : ℕ) {status : ℕ} {body : String}
    (hreply : TypeScript.act opts world req = .ok ⟨status, .ok body⟩) :
    ClientHandsBack rt opts world req fuel ↔
      200 ≤ status ∧ status < 300 ∧
        (status = 202 → TypeScript.approvalId? rt.parse body = none) := by
  unfold ClientHandsBack TypeScript.call
  rw [hreply, Fallible.ok_bind]
  cases hid : if status = 202 then TypeScript.approvalId? rt.parse body else none with
  | some approvalId =>
    obtain ⟨hstatus, hfound⟩ := Option.ite_none_right_eq_some.1 hid
    have hwait : TypeScript.callReply rt.parse req ⟨status, .ok body⟩ = .ok (.wait approvalId) := by
      simp only [TypeScript.callReply, TypeScript.readText_ok, Fallible.ok_bind, hid]
      rfl
    rw [hwait]
    constructor
    · rintro ⟨v, h⟩
      exact absurd h (finish_ne_value _ nofun fuel [] v)
    · rintro ⟨-, -, h⟩
      rw [h hstatus] at hfound
      cases hfound
  | none =>
    have hread : status = 202 → TypeScript.approvalId? rt.parse body = none :=
      ite_eq_right_iff.1 hid
    by_cases hok : Reply.ok ⟨status, .ok body⟩ = true
    · have hvalue : TypeScript.callReply rt.parse req ⟨status, .ok body⟩ =
          .ok (.value (TypeScript.valueOf rt.parse body)) := by
        simp only [TypeScript.callReply, TypeScript.readText_ok, Fallible.ok_bind, hid, hok,
          if_true]
        rfl
      have hrange : 200 ≤ status ∧ status < 300 := Reply.ok_iff.1 hok
      rw [hvalue]
      exact ⟨fun _ => ⟨hrange.1, hrange.2, hread⟩, fun _ => ⟨_, rfl⟩⟩
    · constructor
      · rintro ⟨v, h⟩
        rw [Bool.not_eq_true] at hok
        simp only [TypeScript.callReply, TypeScript.readText_ok, Fallible.ok_bind, hid, hok,
          Bool.false_eq_true, if_false] at h
        split_ifs at h <;> cases h
      · rintro ⟨hlow, hhigh, -⟩
        exact absurd (Reply.ok_iff.2 ⟨hlow, hhigh⟩) hok

/-- The Python client returns the body, parsed or as it is, without waiting. -/
def PythonHandsBack (rt : Python.Runtime) (opts : Options) (world : World)
    (req : Python.CallRequest) (fuel : ℕ) : Prop :=
  ∃ v, Python.call rt opts world req fuel = some (.ok (.value v))

/-- The body of a 202 is read to the end, and holds no id. -/
def NoId (rt : Python.Runtime) (body : String) : Prop :=
  ∃ id, Python.approvalIdFrom202 rt body = .ok id ∧ id.filter (· ≠ "") = none

section Python
variable {rt : Python.Runtime} {opts : Options} {world : World} {req : Python.CallRequest}
  {fuel : ℕ} {body : String}

theorem pythonHandsBack_held_iff
    (hreply : Python.act rt opts world req = .ok ⟨202, body⟩) :
    PythonHandsBack rt opts world req fuel ↔ NoId rt body := by
  unfold PythonHandsBack NoId Python.call
  rw [hreply, Fallible.ok_bind]
  cases hid : Python.approvalIdFrom202 rt body with
  | error e =>
    have hraised : Python.callReply rt req ⟨202, body⟩ = .error e := by
      simp only [Python.callReply, if_true, hid, Fallible.error_bind]
    rw [hraised]
    constructor
    · rintro ⟨v, h⟩
      cases h
    · rintro ⟨id, h, -⟩
      cases h
  | ok id =>
    cases hfilter : id.filter (· ≠ "") with
    | some approvalId =>
      have hwait : Python.callReply rt req ⟨202, body⟩ = .ok (.wait approvalId) := by
        simp only [Python.callReply, if_true, hid, Fallible.ok_bind, hfilter]
        rfl
      rw [hwait]
      constructor
      · rintro ⟨v, h⟩
        exact absurd h (finish_ne_value _ nofun fuel [] v)
      · rintro ⟨id', h, hnone⟩
        cases h
        rw [hfilter] at hnone
        cases hnone
    | none =>
      -- the id was looked for in the same parsed body
      obtain ⟨v, hv, -⟩ := Fallible.bind_eq_ok.1 hid
      have hvalue : Python.callReply rt req ⟨202, body⟩ = .ok (.value v) := by
        have hresult : Python.interpretActionResponse rt req ⟨202, body⟩ = .ok v := hv
        simp only [Python.callReply, if_true, hid, Fallible.ok_bind, hfilter, hresult]
        rfl
      rw [hvalue]
      exact ⟨fun _ => ⟨id, rfl, hfilter⟩, fun _ => ⟨v, rfl⟩⟩

theorem pythonHandsBack_ok {status : ℕ}
    (hreply : Python.act rt opts world req = .ok ⟨status, body⟩)
    (h : PythonHandsBack rt opts world req fuel) : 200 ≤ status ∧ status < 300 := by
  obtain ⟨v, h⟩ := h
  by_cases h202 : status = 202
  · omega
  · by_contra hrange
    have hraised : ∃ e, Python.callReply rt req ⟨status, body⟩ = .error e := by
      unfold Python.callReply Python.interpretActionResponse Python.proxyError
      rw [if_neg h202, if_pos hrange]
      split_ifs <;> exact ⟨_, rfl⟩
    obtain ⟨e, he⟩ := hraised
    unfold Python.call at h
    rw [hreply, Fallible.ok_bind, he] at h
    cases h

end Python

/-- The surroundings in which each of the three performs an action. -/
structure Scene (Key : Type) where
  rt : Mcp.Runtime Key
  ctx : ServerContext Key
  params : UsePlatform
  progressToken : Option Json
  env : List Effect → Moment
  asked : List Effect
  /-- how deep a value the engine gets through -/
  stringifies : Json → Bool
  joins : List Json → Bool
  opts : Options
  world : World
  js : TypeScript.CallRequest
  python : Python.Runtime
  pythonOpts : Options
  pythonWorld : World
  req : Python.CallRequest
  fuel : ℕ

namespace Scene
variable {Key : Type}

def engine (s : Scene Key) : TypeScript.Runtime where
  parse := s.rt.parse
  stringifies := s.stringifies
  joins := s.joins

@[simp] theorem engine_parse (s : Scene Key) : s.engine.parse = s.rt.parse := rfl

/-- Each of the three has got this reply to its action, the tool on the governed path. -/
structure Replied (s : Scene Key) (status : ℕ) (body : String) : Prop where
  gate : s.ctx.AGENT_PRIVATE_KEY_RAW.isSome = true
  governed : observes s.ctx s.params = false
  tool : (sendAction s.rt s.ctx s.params).run s.env [] = (.returned ⟨status, .ok body⟩, s.asked)
  client : TypeScript.act s.opts s.world s.js = .ok ⟨status, .ok body⟩
  sdk : Python.act s.python s.pythonOpts s.pythonWorld s.req = .ok ⟨status, body⟩

/-- One of the three hands the body back as the result. -/
def HandsBack (s : Scene Key) (body : String) : Prop :=
  ToolHandsBack s.rt s.ctx s.fuel s.params s.progressToken s.env s.asked body ∨
    ClientHandsBack s.engine s.opts s.world s.js s.fuel ∨
    PythonHandsBack s.python s.pythonOpts s.pythonWorld s.req s.fuel

/-- What is handed back was allowed, and nothing is handed back while an approval is pending. -/
def HeldNeverExecuted (s : Scene Key) (status : ℕ) (body : String) : Prop :=
  let outcome := classifyGateResponse status (parseBody s.rt.parse body)
  (s.HandsBack body → outcome.isAllowed = true) ∧
    (outcome.isPending = true → ¬ s.HandsBack body)

variable {s : Scene Key} {status : ℕ} {body : String}

theorem handsBack_ok (h : s.Replied status body) (hback : s.HandsBack body) :
    200 ≤ status ∧ status < 300 := by
  rcases hback with htool | hclient | hpython
  · obtain ⟨hlow, hhigh, -⟩ :=
      (toolHandsBack_iff s.fuel s.progressToken h.gate h.governed h.tool).1 htool
    exact ⟨hlow, hhigh⟩
  · obtain ⟨hlow, hhigh, -⟩ := (clientHandsBack_iff s.engine s.fuel h.client).1 hclient
    exact ⟨hlow, hhigh⟩
  · exact pythonHandsBack_ok h.sdk hpython

/-- Of a 202 nothing is handed back exactly if each reader finds the id. -/
theorem not_handsBack_held_iff (h : s.Replied 202 body) :
    ¬ s.HandsBack body ↔ Mcp.approvalId? s.rt body ≠ none ∧
      TypeScript.approvalId? s.rt.parse body ≠ none ∧ ¬ NoId s.python body := by
  have htool := toolHandsBack_iff s.fuel s.progressToken h.gate h.governed h.tool
  have hclient := clientHandsBack_iff s.engine s.fuel h.client
  have hpython : PythonHandsBack s.python s.pythonOpts s.pythonWorld s.req s.fuel ↔
      NoId s.python body := pythonHandsBack_held_iff h.sdk
  unfold HandsBack
  rw [htool, hclient, hpython, not_or, not_or]
  simp

/-- A held action is never reported as executed exactly if each reader finds its approval id. -/
theorem heldNeverExecuted_iff (h : s.Replied status body) :
    s.HeldNeverExecuted status body ↔
      (status = 202 → Mcp.approvalId? s.rt body ≠ none ∧
        TypeScript.approvalId? s.rt.parse body ≠ none ∧ ¬ NoId s.python body) := by
  unfold HeldNeverExecuted
  simp only [classifyGateResponse_isAllowed, classifyGateResponse_isPending, decide_eq_true_eq]
  constructor
  · rintro ⟨-, hpending⟩ rfl
    exact (not_handsBack_held_iff h).1 (hpending rfl)
  · intro hread
    have hnone : status = 202 → ¬ s.HandsBack body := by
      rintro rfl
      exact (not_handsBack_held_iff h).2 (hread rfl)
    exact ⟨fun hback => ⟨fun h202 => hnone h202 hback, handsBack_ok h hback⟩, hnone⟩

def emptyObject : Mcp.Runtime Unit where
  sign _ _ _ _ := .ok "token"
  parse _ := some (.obj [])
  stringify _ := "\x7b\x7d"
  toText _ := "[object Object]"
  encodeURIComponent text := text

def signedContext : ServerContext Unit where
  AGENT_ID := .str "agent"
  OWNER_ID := .str "owner"
  PROXY_URL := "https://proxy"
  AGENT_PRIVATE_KEY_RAW := some "pem"
  privateKey := some ()
  OBSERVE_PLATFORM := ""
  OBSERVE_CREDENTIAL := ""

def emptyObjectWorld : World where
  clock := steadyClock
  submit := ⟨.ok ⟨202, .ok "\x7b\x7d"⟩, .error (.error "")⟩
  polls _ := ⟨.error (.error ""), .error (.error "")⟩
  told _ := none

def createIssue : UsePlatform where
  platform := "github"
  endpoint := "/issues"
  method := "POST"
  scope := "write"
  data := none
  connectionId := none

def createIssueAsked : List Effect := (sendAction emptyObject signedContext createIssue).run
  (fun _ => ⟨0, .ok ⟨202, .ok "\x7b\x7d"⟩⟩) [] |>.2

def signedOptions : Options where
  key := ⟨.fit, true⟩
  proxyUrl := "https://proxy"
  timeout := .finite 15000
  approvalTimeout := .finite 50000
  approvalPoll := .finite 2000

def emptyObjectRuntime : Python.Runtime where
  loads _ := .value (.obj [])
  json _ := .value (.obj [])
  str _ := "\x7b\x7d"
  acceptsUrl _ := true
  sends _ := true
  sleeps _ := true

def emptyHeld : Scene Unit where
  rt := emptyObject
  ctx := signedContext
  params := createIssue
  progressToken := none
  env _ := ⟨0, .ok ⟨202, .ok "\x7b\x7d"⟩⟩
  asked := createIssueAsked
  stringifies _ := true
  joins _ := true
  opts := signedOptions
  world := emptyObjectWorld
  js := ⟨"github", "/issues", some "POST", "write", none, none, none, none⟩
  python := emptyObjectRuntime
  pythonOpts := { signedOptions with
    timeout := .finite 15, approvalTimeout := .finite 50, approvalPoll := .finite 2 }
  pythonWorld := emptyObjectWorld
  req := ⟨"github", "/issues", "POST", "write", none, none, none, none⟩
  fuel := 30

theorem emptyHeld_replied : emptyHeld.Replied 202 "\x7b\x7d" := ⟨rfl, rfl, rfl, rfl, rfl⟩

/-- The body of a 202 without an id is taken for the answer of the platform. -/
theorem empty_202_reported_as_executed :
    ¬ emptyHeld.HeldNeverExecuted 202 "\x7b\x7d" := by
  rintro ⟨-, hpending⟩
  apply hpending rfl
  left
  exact ⟨_, rfl⟩

theorem heldNeverExecuted_iff_of_empty :
    emptyHeld.HeldNeverExecuted 202 "\x7b\x7d" ↔
      (202 = 202 → Mcp.approvalId? emptyHeld.rt "\x7b\x7d" ≠ none ∧
        TypeScript.approvalId? emptyHeld.rt.parse "\x7b\x7d" ≠ none ∧
        ¬ NoId emptyHeld.python "\x7b\x7d") :=
  heldNeverExecuted_iff emptyHeld_replied

end Scene

end AgentValet.Sdk
