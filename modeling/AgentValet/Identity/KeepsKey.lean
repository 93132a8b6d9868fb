import AgentValet.Identity.Writers
import AgentValet.Mcp.Boot

namespace AgentValet.Identity
open Lang

/-- A file that is not blank: what it holds may be the only copy of a key. -/
def HoldsKey (files : Files) (path : String) : Prop :=
  ∃ text, files path = some text ∧ Mcp.trimmed text ≠ ""

/-- Over a key nothing is sent, and the file stays as it is. -/
def KeepsKey (files : Files) (path : String) (requests : List Request) (files' : Files) : Prop :=
  HoldsKey files path → requests = [] ∧ files' path = files path

theorem keepsKey_of_unchanged (files : Files) (path : String) : KeepsKey files path [] files :=
  fun _ => ⟨rfl, rfl⟩

/-- A request that is sent is already too much. -/
theorem keepsKey_of_sent {files files' : Files} {path : String} {requests : List Request}
    (hsent : requests ≠ []) : KeepsKey files path requests files' ↔ ¬ HoldsKey files path := by
  constructor
  · intro hkeeps hkey
    exact hsent (hkeeps hkey).1
  · intro hnone hkey
    exact absurd hkey hnone

theorem diskKey_isSome_iff (m : Mcp.Machine) :
    (Mcp.diskKey m).isSome = true ↔ HoldsKey m.files (Mcp.keyPath m) := by
  simp only [Mcp.diskKey, Mcp.readBoundPrivateKey, HoldsKey]
  cases m.files (Mcp.keyPath m) with
  | none => simp
  | some text => by_cases htext : Mcp.trimmed text = "" <;> simp [htext]

section
variable {Key : Type} (w : Mcp.Host Key) (m : Mcp.Machine)

def NamedByEnv : Prop :=
  (Mcp.envOrNull m "AGENT_ID").isSome ∧ (Mcp.envOrNull m "OWNER_ID").isSome ∧
    (Mcp.envOrNull m "PROXY_URL").isSome

theorem foundIdentity_isSome_iff :
    (Mcp.foundIdentity w m).isSome = true ↔
      NamedByEnv m ∨ ((Mcp.readBoundIdentity w m).isSome ∧ (Mcp.diskKey m).isSome) := by
  simp only [Mcp.foundIdentity, NamedByEnv]
  cases Mcp.envOrNull m "AGENT_ID" <;> cases Mcp.envOrNull m "OWNER_ID" <;>
    cases Mcp.envOrNull m "PROXY_URL" <;> cases Mcp.readBoundIdentity w m <;>
    cases Mcp.diskKey m <;> simp

/-- A start sends something only where it has found no identity and has a secret to bind. -/
theorem validateConfig_sent_iff :
    (Mcp.validateConfig w m).requests ≠ [] ↔
      Mcp.foundIdentity w m = none ∧ Mcp.envOrNull m "INVITE_BIND_SECRET" ≠ none := by
  unfold Mcp.validateConfig
  cases Mcp.foundIdentity w m with
  | some found => simp
  | none =>
    cases Mcp.envOrNull m "INVITE_BIND_SECRET" with
    | none => simp
    | some bindSecret => simp [Mcp.attemptInviteBind, bindAt_requests]

theorem validateConfig_unchanged (hsilent : (Mcp.validateConfig w m).requests = []) :
    (Mcp.validateConfig w m).files = m.files := by
  unfold Mcp.validateConfig at hsilent ⊢
  cases hfound : Mcp.foundIdentity w m with
  | some found => rfl
  | none =>
    rw [hfound] at hsilent
    cases hsecret : Mcp.envOrNull m "INVITE_BIND_SECRET" with
    | none => rfl
    | some bindSecret =>
      rw [hsecret] at hsilent
      simp [Mcp.attemptInviteBind, bindAt_requests] at hsilent

/-- The start of the server looks for a key only where `agent.json` is in order. -/
theorem validateConfig_keepsKey_iff :
    KeepsKey m.files (Mcp.keyPath m) (Mcp.validateConfig w m).requests
        (Mcp.validateConfig w m).files ↔
      (HoldsKey m.files (Mcp.keyPath m) → NamedByEnv m ∨ (Mcp.readBoundIdentity w m).isSome ∨
        Mcp.envOrNull m "INVITE_BIND_SECRET" = none) := by
  have hfound := foundIdentity_isSome_iff w m
  have hsent := validateConfig_sent_iff w m
  rw [diskKey_isSome_iff] at hfound
  by_cases hsilent : (Mcp.validateConfig w m).requests = []
  · have hkeeps : KeepsKey m.files (Mcp.keyPath m) (Mcp.validateConfig w m).requests
        (Mcp.validateConfig w m).files := by
      rw [validateConfig_unchanged w m hsilent, hsilent]
      exact keepsKey_of_unchanged m.files (Mcp.keyPath m)
    refine iff_of_true hkeeps fun hkey => ?_
    by_contra hnot
    simp only [not_or] at hnot
    obtain ⟨hnamed, hdisk, hsecret⟩ := hnot
    refine hsent.2 ⟨?_, hsecret⟩ hsilent
    apply Option.not_isSome_iff_eq_none.1
    intro hsome
    obtain hnamed' | ⟨hdisk', -⟩ := hfound.1 hsome
    · exact hnamed hnamed'
    · exact hdisk hdisk'
  · rw [keepsKey_of_sent hsilent]
    obtain ⟨hnone, hsecret⟩ := hsent.1 hsilent
    have hmissing : ¬ (NamedByEnv m ∨ ((Mcp.readBoundIdentity w m).isSome ∧
        HoldsKey m.files (Mcp.keyPath m))) := by
      rw [← hfound, hnone]
      simp
    tauto

end

theorem claimCommand_keepsKey (m : Machine) (w : BindHost) (opts : ClaimOptions) :
    KeepsKey m.files (placeIn (resolveAgentDir m opts.label?)).keyPath
      (claimCommand m w opts).requests (claimCommand m w opts).machine.files := by
  rintro ⟨text, htext, -⟩
  have hthere : (m.files (placeIn (resolveAgentDir m opts.label?)).keyPath).isSome = true := by
    rw [htext]
    rfl
  have hrefused : claimBind m w opts = none := by
    unfold claimBind
    dsimp only
    rw [if_pos hthere, ite_self]
  rw [claimCommand, hrefused]
  exact ⟨rfl, rfl⟩

theorem pythonRegister_requests (m : Machine) (w : BindHost) (code proxyUrl : String) :
    (pythonRegister m w code proxyUrl).requests.length = 1 := by
  unfold pythonRegister
  dsimp only
  split
  · rfl
  · split_ifs <;> rfl

/-- The register command of the Python package never looks for a key. -/
theorem pythonRegister_keepsKey_iff (m : Machine) (w : BindHost) (code proxyUrl : String) :
    KeepsKey m.files (AGENT_KEY_PATH m.home) (pythonRegister m w code proxyUrl).requests
        (pythonRegister m w code proxyUrl).machine.files ↔
      ¬ HoldsKey m.files (AGENT_KEY_PATH m.home) := by
  apply keepsKey_of_sent
  intro hnone
  have hlength := pythonRegister_requests m w code proxyUrl
  rw [hnone] at hlength
  cases hlength

/-- Only the claim command keeps every key: the server needs an identity beside the key, and the
Python package keeps none. -/
theorem bind_keepsKey_iff {Key : Type} (server : Mcp.Host Key) (w : BindHost)
    (started : Mcp.Machine)
    (m : Machine) (opts : ClaimOptions) (code proxyUrl : String) :
    (KeepsKey started.files (Mcp.keyPath started) (Mcp.validateConfig server started).requests
        (Mcp.validateConfig server started).files ↔
      (HoldsKey started.files (Mcp.keyPath started) → NamedByEnv started ∨
        (Mcp.readBoundIdentity server started).isSome ∨
        Mcp.envOrNull started "INVITE_BIND_SECRET" = none)) ∧
    KeepsKey m.files (placeIn (resolveAgentDir m opts.label?)).keyPath
      (claimCommand m w opts).requests (claimCommand m w opts).machine.files ∧
    (KeepsKey m.files (AGENT_KEY_PATH m.home) (pythonRegister m w code proxyUrl).requests
        (pythonRegister m w code proxyUrl).machine.files ↔
      ¬ HoldsKey m.files (AGENT_KEY_PATH m.home)) :=
  ⟨validateConfig_keepsKey_iff server started, claimCommand_keepsKey m w opts,
    pythonRegister_keepsKey_iff m w code proxyUrl⟩

def granting : Mcp.Host Unit where
  sign _ _ _ _ := .ok "token"
  parse _ := some (.obj [("agent_id", .str "a"), ("owner_id", .str "o"), ("proxy_url", .str "p")])
  stringify _ := ""
  toText _ := ""
  encodeURIComponent text := text
  decodeBase64 text := text
  importPKCS8 _ := some ()
  stringifyIndented _ := ""
  publicKey := "public"
  privateKey := "new"
  send _ := .ok ⟨200, .ok ""⟩
  boundAt := ""
  writes _ := true

def invited : Mcp.Machine where
  env name := if name = "INVITE_BIND_SECRET" then some "bsec_1" else none
  home := "/root"
  files path := if path = "/root/.agentvalet/agent.key" then some "old" else none

/-- A start with an invite puts a new key over the one that is there. -/
theorem invite_overwrites_key :
    (Mcp.validateConfig granting invited).files (Mcp.keyPath invited) = some "new" ∧
      ¬ KeepsKey invited.files (Mcp.keyPath invited) (Mcp.validateConfig granting invited).requests
        (Mcp.validateConfig granting invited).files := by
  have hkey : HoldsKey invited.files (Mcp.keyPath invited) := ⟨"old", by rfl, by decide⟩
  have hsent : (Mcp.validateConfig granting invited).requests ≠ [] := by
    rw [validateConfig_sent_iff]
    exact ⟨rfl, by decide⟩
  refine ⟨by rfl, ?_⟩
  rw [keepsKey_of_sent hsent, not_not]
  exact hkey

end AgentValet.Identity
