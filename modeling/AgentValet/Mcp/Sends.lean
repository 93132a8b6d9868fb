import AgentValet.Mcp.Handlers

namespace AgentValet.Mcp
open Base Lang Approvals

def onRequests (p : Request → Prop) : Effect → Prop
  | .fetch r _ => p r
  | _ => True

variable {α β : Type}

/-- Every request satisfies `p`, whatever the answers are and however it ends. -/
def Asks (p : Request → Prop) (x : Prog α) : Prop :=
  x.Sat (onRequests p) (fun _ => True) fun _ => True

def Sends (p : Request → Prop) (x : Prog α) : Prop :=
  x.Sat (onRequests p) (fun _ => True) fun fault => fault ≠ .keyNotLoaded

variable {p : Request → Prop} {Key : Type} {rt : Runtime Key} {ctx : ServerContext Key}

theorem Sends.bind {x : Prog α} {f : α → Prog β} (hx : Sends p x) (hf : ∀ a, Sends p (f a)) :
    Sends p (x >>= f) :=
  Program.Sat.bind hx fun a _ => hf a

theorem Asks.bind {x : Prog α} {f : α → Prog β} (hx : Asks p x) (hf : ∀ a, Asks p (f a)) :
    Asks p (x >>= f) :=
  Program.Sat.bind hx fun a _ => hf a

theorem Sends.returned (a : α) : Sends p (.returned a) := trivial

theorem Sends.typeError : Sends p (.threw .typeError : Prog α) := nofun

/-- A `try` stops every fault. -/
theorem Asks.attempt {x : Prog α} (hx : Asks p x) : Sends p x.attempt := by
  have h : x.attempt.Sat (onRequests p) _ fun fault => fault ≠ .keyNotLoaded :=
    Program.Sat.attempt hx
  exact h.mono (fun _ h => h) (fun _ _ => trivial) fun _ h => h

theorem now_sends : Sends p now := ⟨trivial, fun _ => trivial⟩

theorem sleep_sends (ms : ℕ) : Sends p (sleep ms) := ⟨trivial, fun _ => trivial⟩

theorem sendProgress_sends (token : Option Json) (progress : McpServer.Progress) :
    Sends p (sendProgress token progress) := by
  cases token with
  | none => exact trivial
  | some _ => exact ⟨trivial, fun _ => trivial⟩

theorem readText_sends (r : Reply) : Sends p (readText r) := by
  unfold readText
  cases r.text with
  | ok text => exact trivial
  | error message => exact nofun

theorem json_sends (r : Reply) : Sends p (readJson rt r) := by
  apply Sends.bind (readText_sends r)
  intro text
  cases rt.parse text with
  | none => exact nofun
  | some v => exact trivial

theorem ofExcept_asks (r : Except Fault α) : Asks p (.ofExcept r) := by
  cases r <;> exact trivial

theorem fetchWithTimeout_asks {r : Request} (hr : p r) (timeoutMs : ℕ) :
    Asks p (fetchWithTimeout r timeoutMs) :=
  ⟨hr, fun moment => ofExcept_asks (moment.fetched.mapError .network)⟩

theorem signJWT_asks : Asks p (signJWT rt ctx) := by
  unfold signJWT
  cases ctx.privateKey with
  | none => exact trivial
  | some key => exact ⟨trivial, fun _ => ⟨trivial, fun _ => ofExcept_asks _⟩⟩

theorem fetchWithAuth_asks {url : String} {init : RequestInit}
    (hp : ∀ token, p (authRequest url init token)) : Asks p (fetchWithAuth rt ctx url init) := by
  have hmake : Asks p (makeRequest rt ctx url init) :=
    signJWT_asks.bind fun token => fetchWithTimeout_asks (hp token) 15000
  apply hmake.bind
  intro response
  split
  · exact hmake
  · exact trivial

theorem requestThen_sends {url : String} {init : RequestInit} {failed : Fault → ToolResult}
    {k : Reply → Prog ToolResult} (hp : ∀ token, p (authRequest url init token))
    (hk : ∀ r, Sends p (k r)) : Sends p (requestThen rt ctx url init failed k) := by
  apply (fetchWithAuth_asks hp).attempt.bind
  intro r
  cases r with
  | error fault => exact trivial
  | ok response => exact hk response

theorem relay_sends (r : Reply) : Sends p (relay rt r) := by
  apply (readText_sends r).bind
  intro text
  split <;> exact trivial

/-- Behind the gate runs the tool; before it, at most the bind secret is sent. -/
theorem gated_sends {tool : Prog ToolResult}
    (hbind : ctx.AGENT_PRIVATE_KEY_RAW = none → identified ctx = true → p (bindSecretRequest ctx))
    (htool : ctx.AGENT_PRIVATE_KEY_RAW.isSome = true → Sends p tool) :
    Sends p (gated rt ctx tool) := by
  unfold gated requireCredentials
  split_ifs with hkey hid
  · exact htool hkey
  · rw [Bool.not_eq_true, Option.isSome_eq_false_iff, Option.isNone_iff_eq_none] at hkey
    have hnotify : Sends p (notifyBindSecret ctx) :=
      (fetchWithTimeout_asks (hbind hkey hid) 8000).attempt.bind fun _ => trivial
    have hrefusal : Program.Sat (onRequests p) (fun r => r ≠ none)
        (fun fault => fault ≠ .keyNotLoaded) (notifyBindSecret ctx >>= fun _ =>
          (pure (some (pendingFirstCallResponse rt)) : Prog (Option ToolResult))) :=
      Program.Sat.bind hnotify fun _ _ => nofun
    apply Program.Sat.bind hrefusal
    intro r hr
    cases r with
    | none => exact (hr rfl).elim
    | some refusal => exact trivial
  · exact trivial

theorem settle_sends (approvalId : Json) (elapsed : ℚ) (verdict : Verdict) :
    Sends p (settle rt approvalId elapsed verdict) := by
  cases verdict with
  | returned data =>
    unfold settle
    dsimp only
    split <;> exact trivial
  | typeError => exact Sends.typeError
  | _ => exact trivial

section
variable (hp : ∀ url method body token, p (authRequest url ⟨method, [], body⟩ token))
include hp

theorem pollApproval_asks (approvalId : Json) : Asks p (pollApproval rt ctx approvalId) := by
  have htemplate : Asks p (template rt approvalId) := by
    unfold template
    split <;> exact trivial
  exact htemplate.bind fun id => fetchWithAuth_asks fun token => hp _ _ _ token

theorem pollApprovals_sends (approvalId : Json) (progressToken : Option Json) (startedAt : ℚ)
    (fuel : ℕ) (lastProgressAt : ℚ) :
    Sends p (pollApprovals rt ctx approvalId progressToken startedAt fuel lastProgressAt) := by
  induction fuel generalizing lastProgressAt with
  | zero => exact trivial
  | succ fuel ih =>
    apply now_sends.bind
    intro head
    split
    · apply (sleep_sends approvalPollIntervalMs).bind
      intro _
      apply now_sends.bind
      intro woke
      apply (pollApproval_asks hp approvalId).attempt.bind
      intro r
      cases r with
      | error _ => exact ih lastProgressAt
      | ok response =>
        dsimp only
        split
        · apply (json_sends response).bind
          intro status
          cases JavaScript.properties status with
          | none => exact Sends.typeError
          | some body =>
            dsimp only
            split
            · exact settle_sends approvalId _ _
            · apply now_sends.bind
              intro considered
              split
              · exact (sendProgress_sends _ _).bind fun _ => now_sends.bind fun _ => ih _
              · exact ih lastProgressAt
        · exact (readText_sends response).bind fun _ => trivial
    · exact trivial

theorem actionReply_sends (fuel : ℕ) (params : UsePlatform) (progressToken : Option Json)
    (response : Reply) : Sends p (actionReply rt ctx fuel params progressToken response) := by
  apply (readText_sends response).bind
  intro body
  split
  · apply now_sends.bind
    intro startedAt
    exact (sendProgress_sends _ _).bind fun _ => pollApprovals_sends hp _ _ _ fuel 0
  · split <;> exact trivial

theorem performAction_sends (fuel : ℕ) (params : UsePlatform) (progressToken : Option Json) :
    Sends p (performAction rt ctx fuel params progressToken) :=
  requestThen_sends (fun token => hp _ _ _ token) (actionReply_sends hp fuel params progressToken)

theorem pollAccessRequests_sends (token : Json) (deadline : ℚ) (fuel : ℕ) :
    Sends p (pollAccessRequests rt ctx token deadline fuel) := by
  have hpoll : Asks p (pollAccessRequest rt ctx token) := by
    have htemplate : Asks p (template rt token) := by
      unfold template
      split <;> exact trivial
    exact htemplate.bind fun text => fetchWithAuth_asks fun jwt => hp _ _ _ jwt
  induction fuel with
  | zero => exact trivial
  | succ fuel ih =>
    apply now_sends.bind
    intro head
    split
    · apply (sleep_sends 2000).bind
      intro _
      apply hpoll.attempt.bind
      intro r
      cases r with
      | error _ => exact ih
      | ok statusRes =>
        dsimp only
        split
        · apply (json_sends statusRes).bind
          intro s
          cases JavaScript.properties s with
          | none => exact Sends.typeError
          | some body =>
            dsimp only
            split_ifs
            · exact trivial
            · exact trivial
            · exact ih
        · exact ih
    · exact trivial

theorem accessReply_sends (fuel : ℕ) (submit : Reply) :
    Sends p (accessReply rt ctx fuel submit) := by
  unfold accessReply
  split_ifs
  · exact (readText_sends submit).bind fun _ => trivial
  · apply (json_sends submit).bind
    intro submitted
    cases JavaScript.properties submitted with
    | none => exact Sends.typeError
    | some body =>
      dsimp only
      split
      · exact trivial
      · exact now_sends.bind fun _ => pollAccessRequests_sends hp _ _ fuel

/-- Every tool, from what holds of its requests and, for one that observes, of that request. -/
theorem handle_sends (fuel : ℕ) (call : ToolCall)
    (hbind : ctx.AGENT_PRIVATE_KEY_RAW = none → identified ctx = true → p (bindSecretRequest ctx))
    (hobserve : ∀ params tok, call = .usePlatform params tok → observes ctx params = true →
      Sends p (observeAction rt ctx params)) : Sends p (handle rt ctx fuel call) := by
  cases call with
  | usePlatform params progressToken =>
    apply gated_sends hbind
    intro _
    split_ifs with h
    · exact hobserve params progressToken rfl h
    · exact performAction_sends hp fuel params progressToken
  | listPlatforms =>
    apply gated_sends hbind
    intro _
    apply requestThen_sends fun token => hp _ _ _ token
    intro response
    apply (readText_sends response).bind
    intro body
    split
    · split <;> exact trivial
    · exact trivial
  | requestPlatformAccess args =>
    apply gated_sends hbind
    intro _
    dsimp only
    split_ifs
    · exact trivial
    · exact requestThen_sends (fun token => hp _ _ _ token) (accessReply_sends hp fuel)
  | _ =>
    apply gated_sends hbind
    intro _
    exact requestThen_sends (fun token => hp _ _ _ token) relay_sends

end

end AgentValet.Mcp
