import AgentValet.Mcp.Boot
import AgentValet.Mcp.Sends

namespace AgentValet.Mcp
open Base Lang Approvals Identity

variable {Key : Type} {rt : Runtime Key} {ctx : ServerContext Key}

def carriesJWT (r : Request) : Prop := "Authorization" ∈ r.headers.map Prod.fst

/-- One call of a tool sends nothing signed without credentials, and says what is missing. -/
structure Gated (rt : Runtime Key) (ctx : ServerContext Key) (fuel : ℕ) (call : ToolCall)
    (env : List Effect → Moment) : Prop where
  signed : ∀ r timeoutMs, .fetch r timeoutMs ∈ ((handle rt ctx fuel call).run env []).2 →
    carriesJWT r → identified ctx = true ∧ ctx.privateKey.isSome = true
  unidentified : identified ctx = false →
    ((handle rt ctx fuel call).run env []).1 = .returned credentialsNotConfiguredResponse ∧
      ∀ r timeoutMs, .fetch r timeoutMs ∉ ((handle rt ctx fuel call).run env []).2
  pending : identified ctx = true → ctx.privateKey = none →
    ((handle rt ctx fuel call).run env []).1 = .returned (pendingFirstCallResponse rt)
  keyed : ((handle rt ctx fuel call).run env []).1 ≠ .threw .keyNotLoaded

def ToolsGated (w : Host Key) (m : Machine) : Prop :=
  ∀ ctx, server w m = some ctx → ∀ fuel call env, Gated w.toRuntime ctx fuel call env

theorem handle_eq_gated (rt : Runtime Key) (ctx : ServerContext Key) (fuel : ℕ) (call : ToolCall) :
    ∃ tool, handle rt ctx fuel call = gated rt ctx tool := by
  cases call <;> exact ⟨_, rfl⟩

theorem run_of_no_credentials (fuel : ℕ) (call : ToolCall) (env : List Effect → Moment)
    (hkey : ctx.AGENT_PRIVATE_KEY_RAW = none) (hid : identified ctx = false) :
    (handle rt ctx fuel call).run env [] = (.returned credentialsNotConfiguredResponse, []) := by
  obtain ⟨tool, htool⟩ := handle_eq_gated rt ctx fuel call
  rw [htool]
  simp only [gated, requireCredentials, hkey, hid, Option.isSome_none, Bool.false_eq_true, if_false]
  rfl

/-- Before the refusal goes out the pending secret is asked for, whatever comes of that. -/
theorem run_of_pending (fuel : ℕ) (call : ToolCall) (env : List Effect → Moment)
    (hkey : ctx.AGENT_PRIVATE_KEY_RAW = none) (hid : identified ctx = true) :
    (handle rt ctx fuel call).run env [] =
      (.returned (pendingFirstCallResponse rt), [.fetch (bindSecretRequest ctx) 8000]) := by
  have hnotify : (notifyBindSecret ctx).run env [] =
      (.returned (), [.fetch (bindSecretRequest ctx) 8000]) := by
    simp only [notifyBindSecret, fetchWithTimeout, Program.query, Program.ask_bind,
      Program.attempt, Program.run, List.nil_append]
    cases (env [.fetch (bindSecretRequest ctx) 8000]).fetched <;> rfl
  obtain ⟨tool, htool⟩ := handle_eq_gated rt ctx fuel call
  rw [htool]
  simp only [gated, requireCredentials, hkey, hid, Option.isSome_none, Bool.false_eq_true, if_false,
    if_true]
  have hrefusal := Program.run_bind_of_returned hnotify fun _ =>
    (pure (some (pendingFirstCallResponse rt)) : Prog (Option ToolResult))
  rw [Program.run_bind_of_returned hrefusal]
  rfl

theorem networkError_ne_credentials (fault : Fault) :
    networkError fault ≠ credentialsNotConfiguredResponse := by
  intro h
  have htext := congrArg (fun r => r.text.toList.head?) h
  have hfault : (toString "Network error: ").toList.head? = some 'N' := rfl
  simp only [networkError, errorContent, credentialsNotConfiguredResponse, String.toList_append,
    List.head?_append, hfault, Option.some_or] at htext
  cases htext

/-- A request that nothing answers ends with a fault, whether or not it could be signed. -/
theorem makeRequest_threw (url : String) (init : RequestInit) (env : List Effect → Moment)
    (henv : ∀ asked, (env asked).fetched = .error "") (asked : List Effect) :
    ∃ fault asked', (makeRequest rt ctx url init).run env asked = (.threw fault, asked') := by
  have hsign : (∃ fault asked', (signJWT rt ctx).run env asked = (.threw fault, asked')) ∨
      ∃ token asked', (signJWT rt ctx).run env asked = (.returned token, asked') := by
    unfold signJWT
    cases ctx.privateKey with
    | none => exact .inl ⟨_, _, rfl⟩
    | some key =>
      simp only [now, Program.query, Program.ask_bind, Program.returned_bind, Program.run]
      cases rt.sign key (identityClaims ctx) _ _ with
      | error message => exact .inl ⟨_, _, rfl⟩
      | ok token => exact .inr ⟨_, _, rfl⟩
  rcases hsign with ⟨fault, asked', hsign⟩ | ⟨token, asked', hsign⟩
  · exact ⟨fault, asked', Program.run_bind_of_threw hsign _⟩
  · refine ⟨.network "", asked' ++ [.fetch (authRequest url init token) 15000], ?_⟩
    have hfetch := Program.run_bind_of_returned hsign fun token =>
      fetchWithTimeout (authRequest url init token) 15000
    refine hfetch.trans ?_
    simp only [fetchWithTimeout, Program.query, Program.ask_bind, Program.returned_bind,
      Program.run, henv]
    rfl

theorem requestThen_failed (rt : Runtime Key) (ctx : ServerContext Key) (url : String)
    (init : RequestInit) (failed : Fault → ToolResult) (k : Reply → Prog ToolResult)
    (env : List Effect → Moment)
    (henv : ∀ asked, (env asked).fetched = .error "") (asked : List Effect) :
    ∃ fault asked', (requestThen rt ctx url init failed k).run env asked =
      (.returned (failed fault), asked') := by
  obtain ⟨fault, asked', hmake⟩ := makeRequest_threw url init env henv asked
  have hfetch : (fetchWithAuth rt ctx url init).run env asked = (.threw fault, asked') :=
    Program.run_bind_of_threw hmake _
  refine ⟨fault, asked', ?_⟩
  unfold requestThen
  rw [Program.run_bind_of_returned (Program.run_attempt_of_threw hfetch)]
  rfl

def silent (_ : List Effect) : Moment := ⟨0, .error ""⟩

/-- With a key but without an identity, the pending actions are asked for all the same. -/
theorem not_gated_of_unidentified (hkey : ctx.AGENT_PRIVATE_KEY_RAW.isSome = true)
    (hid : identified ctx = false) : ¬ Gated rt ctx 0 .listMyPendingActions silent := by
  intro h
  have hopen : handle rt ctx 0 .listMyPendingActions =
      requestThen rt ctx s!"{ctx.PROXY_URL}/v1/agents/me/pending-actions" ⟨"GET", [], none⟩
        networkError (relay rt) := by
    simp only [handle, handleListMyPendingActions, gated, requireCredentials, hkey, if_true,
      Program.returned_bind]
  obtain ⟨fault, asked', hrun⟩ := requestThen_failed rt ctx
    s!"{ctx.PROXY_URL}/v1/agents/me/pending-actions" ⟨"GET", [], none⟩ networkError (relay rt)
    silent (fun _ => rfl) []
  have hreturned := (h.unidentified hid).1
  rw [hopen, hrun] at hreturned
  exact networkError_ne_credentials fault (Outcome.returned.inj hreturned)

/-- With a key that comes with an identity, no tool ends with a fault. -/
theorem gated_of_identified (hkey : ctx.privateKey.isSome = true) (hid : identified ctx = true)
    (fuel : ℕ) (call : ToolCall) (env : List Effect → Moment) : Gated rt ctx fuel call env := by
  have hsends : Sends (fun _ => True) (handle rt ctx fuel call) := by
    apply handle_sends (fun _ _ _ _ => trivial) fuel call fun _ _ => trivial
    intro params tok _ _
    exact requestThen_sends (fun _ => trivial) relay_sends
  have hend := (Program.Sat.run hsends env fun _ hq => absurd hq List.not_mem_nil).1
  refine ⟨fun _ _ _ _ => ⟨hid, hkey⟩, fun hnot => ?_, fun _ hnone => ?_, fun hfault => ?_⟩
  · rw [hid] at hnot
    cases hnot
  · rw [hnone] at hkey
    cases hkey
  · rw [hfault] at hend
    exact hend rfl

/-- Without a key, each tool ends at the gate. -/
theorem gated_of_no_key (hnone : ctx.AGENT_PRIVATE_KEY_RAW = none) (fuel : ℕ) (call : ToolCall)
    (env : List Effect → Moment) : Gated rt ctx fuel call env := by
  cases hid : identified ctx with
  | false =>
    have hrun : (handle rt ctx fuel call).run env [] = _ :=
      run_of_no_credentials fuel call env hnone hid
    refine ⟨fun r timeoutMs hr => ?_, fun _ => ?_, fun h => ?_, ?_⟩
    · rw [hrun] at hr
      cases hr
    · rw [hrun]
      exact ⟨rfl, fun _ _ => List.not_mem_nil⟩
    · rw [hid] at h
      cases h
    · rw [hrun]
      exact nofun
  | true =>
    have hrun : (handle rt ctx fuel call).run env [] = _ :=
      run_of_pending fuel call env hnone hid
    refine ⟨fun r timeoutMs hr hjwt => ?_, fun h => ?_, fun _ _ => ?_, ?_⟩
    · rw [hrun] at hr
      cases List.mem_singleton.1 hr
      simp [carriesJWT, bindSecretRequest] at hjwt
    · rw [hid] at h
      cases h
    · rw [hrun]
    · rw [hrun]
      exact nofun

/-- The tools are gated exactly if a key comes with an identity. -/
theorem gated_iff (hpaired : ctx.AGENT_PRIVATE_KEY_RAW.isSome = ctx.privateKey.isSome) :
    (∀ fuel call env, Gated rt ctx fuel call env) ↔
      (ctx.privateKey.isSome = true → identified ctx = true) := by
  constructor
  · intro h hkey
    by_contra hid
    exact not_gated_of_unidentified (hpaired.trans hkey) (Bool.not_eq_true _ ▸ hid)
      (h 0 .listMyPendingActions silent)
  · intro hident fuel call env
    by_cases hkey : ctx.privateKey.isSome = true
    · exact gated_of_identified hkey (hident hkey) fuel call env
    · rw [← hpaired] at hkey
      exact gated_of_no_key (by simpa using hkey) fuel call env

def KeyImports (w : Host Key) (m : Machine) : Prop :=
  ∃ pem key, readPrivateKeyFromEnv w m = some pem ∧ w.importPKCS8 pem = some key

def IdentityGiven (w : Host Key) (m : Machine) : Prop :=
  match foundIdentity w m with
  | some found => found.agentId ≠ "" ∧ found.ownerId ≠ ""
  | none => envOrNull m "INVITE_BIND_SECRET" ≠ none

variable {w : Host Key} {m : Machine}

theorem buildConfig_paired (agentId ownerId : Json) (proxyUrl : String) :
    (buildConfig w m agentId ownerId proxyUrl).privateKeyPem.isSome =
      (buildConfig w m agentId ownerId proxyUrl).privateKey.isSome := by
  unfold buildConfig
  simp only [Option.isSome_map]

theorem buildConfig_key_iff (agentId ownerId : Json) (proxyUrl : String) :
    (buildConfig w m agentId ownerId proxyUrl).privateKey.isSome = true ↔ KeyImports w m := by
  unfold buildConfig KeyImports
  simp only [Option.isSome_map]
  cases readPrivateKeyFromEnv w m with
  | none => simp
  | some pem => cases h : w.importPKCS8 pem <;> simp [h]

theorem identified_iff (agentId ownerId proxyUrl : String) :
    identified (serverContext m (buildConfig w m (.str agentId) (.str ownerId) proxyUrl)) = true ↔
      agentId ≠ "" ∧ ownerId ≠ "" := by
  simp [identified, serverContext, buildConfig, JavaScript.truthy]

/-- A bind that ends well gives both ids, and a key that is paired with its text. -/
theorem attemptInviteBind_config {bindSecret proxyUrl : String} {config : Config Key}
    (h : (attemptInviteBind w m bindSecret proxyUrl).config = some config) :
    identified (serverContext m config) = true ∧
      config.privateKeyPem.isSome = config.privateKey.isSome := by
  unfold attemptInviteBind at h
  simp only [bind, pure, Option.bind_eq_some_iff, Option.some.injEq] at h
  obtain ⟨identity, hbound, url, -, rfl⟩ := h
  obtain ⟨res, hres⟩ := bindAt_identity hbound
  obtain ⟨hagent, howner⟩ := boundIdentity_truthy hres
  refine ⟨?_, buildConfig_paired _ _ _⟩
  simp only [identified, serverContext, buildConfig, hagent, howner, Bool.and_self]

/-- A server that started without a bind is gated exactly if its key comes with both ids. -/
theorem toolsGated_of_read {agentId ownerId proxyUrl : String}
    (h : (validateConfig w m).config =
      some (buildConfig w m (.str agentId) (.str ownerId) proxyUrl)) :
    ToolsGated w m ↔ (KeyImports w m → agentId ≠ "" ∧ ownerId ≠ "") := by
  have hserver : server w m =
      some (serverContext m (buildConfig w m (.str agentId) (.str ownerId) proxyUrl)) := by
    rw [server, h]
    rfl
  unfold ToolsGated
  rw [hserver]
  simp only [Option.some.injEq, forall_eq']
  rw [gated_iff (buildConfig_paired (.str agentId) (.str ownerId) proxyUrl), identified_iff]
  exact imp_congr_left (buildConfig_key_iff (.str agentId) (.str ownerId) proxyUrl)

/-- The tools of a server are gated exactly if a key that imports comes with an identity. -/
theorem tools_gated_iff (w : Host Key) (m : Machine) :
    ToolsGated w m ↔ (KeyImports w m → IdentityGiven w m) := by
  unfold IdentityGiven
  cases hfound : foundIdentity w m with
  | some found =>
    apply toolsGated_of_read
    rw [validateConfig, hfound]
  | none =>
    dsimp only
    cases hinvite : envOrNull m "INVITE_BIND_SECRET" with
    | none =>
      have hread : ToolsGated w m ↔ (KeyImports w m → "" ≠ "" ∧ "" ≠ "") := by
        apply toolsGated_of_read
        rw [validateConfig, hfound, hinvite]
      simpa using hread
    | some bindSecret =>
      refine iff_of_true (fun ctx hctx => ?_) fun _ => Option.some_ne_none bindSecret
      have hvalidate : validateConfig w m = attemptInviteBind w m bindSecret
          (dropSlash ((envOrNull m "PROXY_URL").getD DEFAULT_PROXY_URL)) := by
        rw [validateConfig, hfound]
        simp only [hinvite]
      rw [server, hvalidate] at hctx
      obtain ⟨config, hconfig, rfl⟩ := Option.map_eq_some_iff.1 hctx
      obtain ⟨hident, hpaired⟩ := attemptInviteBind_config hconfig
      exact (gated_iff hpaired).2 fun _ => hident

def keyHost : Host Unit where
  sign _ _ _ _ := .ok "token"
  parse _ := none
  stringify _ := ""
  toText _ := ""
  encodeURIComponent text := text
  decodeBase64 text := text
  importPKCS8 _ := some ()
  stringifyIndented _ := ""
  publicKey := ""
  privateKey := ""
  send _ := .error ""
  boundAt := ""
  writes _ := true

def keyOnly : Machine where
  env _ := none
  home := "/root"
  files path := if path = "/root/.agentvalet/agent.key" then some "pem" else none

/-- The server of a machine that holds a key and no identity sends under empty ids. -/
theorem key_without_identity_sends : ¬ ToolsGated keyHost keyOnly := by
  have hkey : KeyImports keyHost keyOnly := ⟨"pem", (), by rfl, rfl⟩
  have hread : ToolsGated keyHost keyOnly ↔ (KeyImports keyHost keyOnly → "" ≠ "" ∧ "" ≠ "") :=
    toolsGated_of_read rfl
  rw [hread]
  intro h
  exact (h hkey).1 rfl

end AgentValet.Mcp
