import AgentValet.Mcp.Sends

namespace AgentValet.Mcp
open Base Lang Approvals

def observeHeader : String := "X-AV-Observe-Credential"

variable {Key : Type}

/-- The header stands only on a post to the observe relay, for a platform it is meant for. -/
def Confined (ctx : ServerContext Key) (params : UsePlatform) (r : Request) : Prop :=
  ∀ header ∈ r.headers, header.1 = observeHeader →
    r.method = "POST" ∧ r.url = s!"{ctx.PROXY_URL}/v1/observe/actions" ∧
      (ctx.OBSERVE_PLATFORM = "" ∨ ctx.OBSERVE_PLATFORM = params.platform)

theorem confined_plain (ctx : ServerContext Key) (params : UsePlatform) (url method : String)
    (body : Option Json) (token : String) :
    Confined ctx params (authRequest url ⟨method, [], body⟩ token) := by
  have hauthorization : "Authorization" ≠ observeHeader := by decide
  have hcontentType : "Content-Type" ≠ observeHeader := by decide
  intro header hmem hname
  simp only [authRequest, List.append_nil, List.mem_cons, List.not_mem_nil, or_false] at hmem
  rcases hmem with rfl | rfl
  · exact absurd hname hauthorization
  · exact absurd hname hcontentType

theorem handleUsePlatform_confined (rt : Runtime Key) (ctx : ServerContext Key) (fuel : ℕ)
    (params : UsePlatform) (progressToken : Option Json) :
    Sends (Confined ctx params) (handleUsePlatform rt ctx fuel params progressToken) := by
  apply handle_sends (confined_plain ctx params) fuel (.usePlatform params progressToken)
  · intro _ _ header hmem hname
    rw [bindSecretRequest, List.mem_singleton] at hmem
    rw [hmem] at hname
    exact absurd hname (by decide)
  · intro params' tok hcall hobserves
    obtain rfl : params = params' := by
      injection hcall
    have hplatform : ctx.OBSERVE_PLATFORM = "" ∨ ctx.OBSERVE_PLATFORM = params.platform := by
      simp only [observes, Bool.and_eq_true, Bool.or_eq_true, beq_iff_eq] at hobserves
      exact hobserves.2
    apply requestThen_sends _ relay_sends
    intro token header hmem hname
    exact ⟨rfl, rfl, hplatform⟩

def hideCredential : Effect → Effect
  | .fetch r timeoutMs =>
    .fetch { r with headers := r.headers.map fun header =>
      if header.1 = observeHeader then (header.1, "") else header } timeoutMs
  | effect => effect

def withCredential (ctx : ServerContext Key) (credential : String) : ServerContext Key :=
  { ctx with OBSERVE_CREDENTIAL := credential }

variable (rt : Runtime Key) (ctx : ServerContext Key)

theorem pollApprovals_withCredential (credential : String) (approvalId : Json)
    (progressToken : Option Json) (startedAt : ℚ) (fuel : ℕ) (lastProgressAt : ℚ) :
    pollApprovals rt (withCredential ctx credential) approvalId progressToken startedAt fuel
        lastProgressAt =
      pollApprovals rt ctx approvalId progressToken startedAt fuel lastProgressAt := by
  have hpoll : pollApproval rt (withCredential ctx credential) approvalId =
      pollApproval rt ctx approvalId := rfl
  induction fuel generalizing lastProgressAt with
  | zero => rfl
  | succ fuel ih => simp only [pollApprovals, ih, hpoll]

/-- The governed path does not know of the credential. -/
theorem performAction_withCredential (credential : String) (fuel : ℕ) (params : UsePlatform)
    (progressToken : Option Json) :
    performAction rt (withCredential ctx credential) fuel params progressToken =
      performAction rt ctx fuel params progressToken := by
  have hreply : actionReply rt (withCredential ctx credential) fuel params progressToken =
      actionReply rt ctx fuel params progressToken := by
    funext response
    simp only [actionReply, waitForApproval, pollApprovals_withCredential]
  unfold performAction
  rw [hreply]
  rfl

theorem fetchWithAuth_agree {url method : String} {body : Option Json} (c c' : String) :
    Program.Agree hideCredential
      (fetchWithAuth rt ctx url ⟨method, [(observeHeader, c)], body⟩)
      (fetchWithAuth rt ctx url ⟨method, [(observeHeader, c')], body⟩) := by
  have hmake : Program.Agree hideCredential
      (makeRequest rt ctx url ⟨method, [(observeHeader, c)], body⟩)
      (makeRequest rt ctx url ⟨method, [(observeHeader, c')], body⟩) := by
    apply Program.Agree.bind (.refl _)
    intro token
    exact Program.Agree.bind (Program.Agree.query rfl _) fun _ => .refl _
  apply hmake.bind
  intro response
  split
  · exact hmake
  · exact .refl _

theorem observeAction_agree (params : UsePlatform) (c c' : String) :
    Program.Agree hideCredential (observeAction rt (withCredential ctx c) params)
      (observeAction rt (withCredential ctx c') params) := by
  apply Program.Agree.bind
  · exact (fetchWithAuth_agree rt ctx c c').attempt
  · intro r
    exact .refl _

theorem handleUsePlatform_agree (fuel : ℕ) (params : UsePlatform) (progressToken : Option Json)
    {c c' : String} (hc : c ≠ "") (hc' : c' ≠ "") :
    Program.Agree hideCredential
      (handleUsePlatform rt (withCredential ctx c) fuel params progressToken)
      (handleUsePlatform rt (withCredential ctx c') fuel params progressToken) := by
  have hobserves : ∀ d : String, d ≠ "" → observes (withCredential ctx d) params =
      (ctx.OBSERVE_PLATFORM == "" || ctx.OBSERVE_PLATFORM == params.platform) := by
    intro d hd
    simp only [observes, withCredential, bne_iff_ne.2 hd, Bool.true_and]
  unfold handleUsePlatform gated
  apply Program.Agree.bind
  · exact .refl _
  · intro r
    cases r with
    | some refusal => exact .refl _
    | none =>
      dsimp only
      rw [hobserves c hc, hobserves c' hc', performAction_withCredential,
        performAction_withCredential]
      split
      · exact observeAction_agree rt ctx params c c'
      · exact .refl _

/-- The credential is confined to its header and platform, and nothing else depends on it. -/
theorem observe_credential_confined (fuel : ℕ) (params : UsePlatform)
    (progressToken : Option Json) (env : List Effect → Moment)
    (henv : ∀ asked asked', asked.map hideCredential = asked'.map hideCredential →
      env asked = env asked') :
    (∀ r timeoutMs, Effect.fetch r timeoutMs ∈
        ((handleUsePlatform rt ctx fuel params progressToken).run env []).2 →
      Confined ctx params r) ∧
    ∀ c c', c ≠ "" → c' ≠ "" →
      ((handleUsePlatform rt (withCredential ctx c) fuel params progressToken).run env []).1 =
        ((handleUsePlatform rt (withCredential ctx c') fuel params progressToken).run env []).1 ∧
      ((handleUsePlatform rt (withCredential ctx c) fuel params progressToken).run env
          []).2.map hideCredential =
        ((handleUsePlatform rt (withCredential ctx c') fuel params progressToken).run env
          []).2.map hideCredential := by
  constructor
  · intro r timeoutMs hmem
    have hsent := handleUsePlatform_confined rt ctx fuel params progressToken
    exact (hsent.run env (by simp)).2 _ hmem
  · intro c c' hc hc'
    exact (handleUsePlatform_agree rt ctx fuel params progressToken hc hc').run henv rfl

def plainRuntime : Runtime Unit where
  sign _ _ _ _ := .ok "token"
  parse text := if text = "\x7b\x7d" then some (.obj []) else none
  stringify _ := "\x7b\x7d"
  toText _ := ""
  encodeURIComponent text := text

def observeContext (credential : String) : ServerContext Unit where
  AGENT_ID := .str "agent"
  OWNER_ID := .str "owner"
  PROXY_URL := "https://proxy"
  AGENT_PRIVATE_KEY_RAW := some "pem"
  privateKey := some ()
  OBSERVE_PLATFORM := "github"
  OBSERVE_CREDENTIAL := credential

def listIssues : UsePlatform where
  platform := "github"
  endpoint := "/issues"
  method := "GET"
  scope := "read"
  data := none
  connectionId := none

def observedRun (credential : String) : Outcome Fault ToolResult × List Effect :=
  (handleUsePlatform plainRuntime (observeContext credential) 30 listIssues none).run
    (fun _ => ⟨0, .ok ⟨200, .ok "\x7b\x7d"⟩⟩) []

theorem observe_credential_confined_of_listIssues :
    (∀ r timeoutMs, Effect.fetch r timeoutMs ∈ (observedRun "one").2 →
        Confined (observeContext "one") listIssues r) ∧
      ∀ c c', c ≠ "" → c' ≠ "" → (observedRun c).1 = (observedRun c').1 ∧
        (observedRun c).2.map hideCredential = (observedRun c').2.map hideCredential :=
  observe_credential_confined plainRuntime (observeContext "one") 30 listIssues none _
    fun _ _ _ => rfl

end AgentValet.Mcp
