import AgentValet.Lang.Files
import AgentValet.Lang.Http

namespace AgentValet.Identity
open Lang

/-- The library functions of a bind, and what the world outside answers to it. -/
structure BindHost where
  /-- `JSON.parse` -/
  parse : String → Option Json
  /-- `JSON.stringify(v, null, 2)` -/
  stringifyIndented : Json → String
  /-- the pair of `generateKeyPairSync` -/
  publicKey : String
  privateKey : String
  send : Request → Except String Reply
  boundAt : String
  /-- A file can be written, or a directory made. -/
  writes : String → Bool

/-- `url.replace(/\/$/, "")` -/
def dropSlash (url : String) : String :=
  if url.toList.getLast? = some '/' then String.ofList url.toList.dropLast else url

def bindRequest (proxyUrl bindSecret publicKey : String) : Request where
  method := "POST"
  url := dropSlash proxyUrl ++ "/v1/invites/bind"
  headers := [("Content-Type", "application/json")]
  body := some (.obj [("bind_secret", .str bindSecret), ("public_key_pem", .str publicKey)])

structure BoundIdentity where
  agent_id : Json
  owner_id : Json
  proxy_url : Json
  bound_at : String

def truthyField (body : List (String × Json)) (key : String) : Option Json :=
  (Json.lookup body key).filter fun v => JavaScript.truthy (some v)

def boundIdentity (w : BindHost) (res : Reply) : Option BoundIdentity :=
  if !res.ok then none
  else do
    let text ← res.text.toOption
    let payload ← w.parse text
    let body ← JavaScript.properties payload
    let agent_id ← truthyField body "agent_id"
    let owner_id ← truthyField body "owner_id"
    let proxy_url ← truthyField body "proxy_url"
    pure ⟨agent_id, owner_id, proxy_url, w.boundAt⟩

theorem boundIdentity_truthy {w : BindHost} {res : Reply} {identity : BoundIdentity}
    (h : boundIdentity w res = some identity) :
    JavaScript.truthy (some identity.agent_id) = true ∧
      JavaScript.truthy (some identity.owner_id) = true := by
  have hfield : ∀ {body key v}, truthyField body key = some v → JavaScript.truthy (some v) = true :=
    fun hv => (Option.filter_eq_some_iff.1 hv).2
  unfold boundIdentity at h
  split at h
  · cases h
  simp only [bind, Option.bind_eq_some_iff, pure, Option.some.injEq] at h
  obtain ⟨text, -, payload, -, body, -, agentId, hagent, ownerId, howner, proxyUrl, -, rfl⟩ := h
  exact ⟨hfield hagent, hfield howner⟩

structure Place where
  dir : String
  keyPath : String
  identityPath : String

def placeIn (dir : String) : Place := ⟨dir, dir ++ "/agent.key", dir ++ "/agent.json"⟩

structure Bind where
  requests : List Request
  files : Files
  identity : Option BoundIdentity

/-- A bind that is granted writes the key first, then the identity; a write that fails ends it. -/
def bindAt (w : BindHost) (files : Files) (request : Request) (place : Place)
    (toJson : BoundIdentity → Json) : Bind :=
  match (w.send request).toOption.bind (boundIdentity w) with
  | none => ⟨[request], files, none⟩
  | some identity =>
    if !w.writes place.dir || !w.writes place.keyPath then ⟨[request], files, none⟩
    else
      let files := files.write place.keyPath w.privateKey
      if !w.writes place.identityPath then ⟨[request], files, none⟩
      else
        ⟨[request], files.write place.identityPath (w.stringifyIndented (toJson identity)),
          some identity⟩

theorem bindAt_requests (w : BindHost) (files : Files) (request : Request) (place : Place)
    (toJson : BoundIdentity → Json) :
    (bindAt w files request place toJson).requests = [request] := by
  unfold bindAt
  dsimp only
  split
  · rfl
  · split_ifs <;> rfl

/-- An identity that is bound is the one of the answer. -/
theorem bindAt_identity {w : BindHost} {files : Files} {request : Request} {place : Place}
    {toJson : BoundIdentity → Json} {identity : BoundIdentity}
    (h : (bindAt w files request place toJson).identity = some identity) :
    ∃ res, boundIdentity w res = some identity := by
  unfold bindAt at h
  dsimp only at h
  split at h
  · cases h
  · rename_i found hfound
    obtain ⟨res, -, hres⟩ := Option.bind_eq_some_iff.1 hfound
    split_ifs at h
    cases h
    exact ⟨res, hres⟩

theorem identityPath_ne_keyPath (dir dir' : String) :
    (placeIn dir).identityPath ≠ (placeIn dir').keyPath := by
  intro h
  have hlast := congrArg (fun s => s.toList.getLast?) h
  simp [placeIn] at hlast

/-- A bind touches no files but its own. -/
theorem bindAt_files_of_ne (w : BindHost) (files : Files) (request : Request) (place : Place)
    (toJson : BoundIdentity → Json) {p : String} (hkey : p ≠ place.keyPath)
    (hidentity : p ≠ place.identityPath) :
    (bindAt w files request place toJson).files p = files p := by
  unfold bindAt
  dsimp only
  split
  · rfl
  · split_ifs
    · rfl
    · exact files.write_of_ne hkey w.privateKey
    · exact ((files.write _ _).write_of_ne hidentity _).trans (files.write_of_ne hkey w.privateKey)

theorem bindAt_written {w : BindHost} {files : Files} {request : Request} {place : Place}
    {toJson : BoundIdentity → Json} {identity : BoundIdentity}
    (hne : place.identityPath ≠ place.keyPath)
    (h : (bindAt w files request place toJson).identity = some identity) :
    (bindAt w files request place toJson).files place.keyPath = some w.privateKey ∧
      (bindAt w files request place toJson).files place.identityPath =
        some (w.stringifyIndented (toJson identity)) := by
  unfold bindAt at h ⊢
  dsimp only at h ⊢
  split at h
  · cases h
  · split_ifs at h ⊢ with hdir hid
    cases h
    refine ⟨?_, (files.write _ _).write_self _ _⟩
    exact ((files.write _ _).write_of_ne hne.symm _).trans (files.write_self _ _)

end AgentValet.Identity
