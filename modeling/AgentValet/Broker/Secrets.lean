import AgentValet.Base.Fallible
import AgentValet.Broker.Types

namespace AgentValet.Broker
open Base Lang

/-- The credential as a source returns it: the type of its scope is not checked, and its expiry is
the value that a `Date` is made from. -/
structure SourceCredential where
  token : String
  scope : Option Json
  expiresAt : Option Json

def ofType (decision : Decision) (type : String) : Option Obligation :=
  (decision.obligations.getD []).find? (·.type == type)

def Obligation.scope? (o : Obligation) : Option (List Json) :=
  match Json.lookup o.fields "scope" with
  | some (.arr items) => some items
  | _ => none

def narrowedScope (ref : CredentialRef) (decision : Decision) : Option Json :=
  match (ofType decision "narrow_scope").bind Obligation.scope? with
  | some items => some (.arr items)
  | none =>
    match (ofType decision "credential").bind Obligation.scope? with
    | some items => some (.arr items)
    | none => ref.scope

/-- A scope that is put on a credential only when it is true. -/
def stamped (scope : Option Json) : Option Json := if JavaScript.truthy scope then scope else none

/-- `toUpperCase` of a character, up to letters that are none of A to Z. -/
def upperCase : Char → List Char
  | 'ß' => ['S', 'S']
  | 'ı' => ['I']
  | 'ŉ' => ['ʼ', 'N']
  | 'ſ' => ['S']
  | 'ǰ' => ['J', '\u030c']
  | 'ẖ' => ['H', '\u0331']
  | 'ẗ' => ['T', '\u0308']
  | 'ẘ' => ['W', '\u030a']
  | 'ẙ' => ['Y', '\u030a']
  | 'ẚ' => ['A', 'ʾ']
  | 'ﬀ' => ['F', 'F']
  | 'ﬁ' => ['F', 'I']
  | 'ﬂ' => ['F', 'L']
  | 'ﬃ' => ['F', 'F', 'I']
  | 'ﬄ' => ['F', 'F', 'L']
  | 'ﬅ' => ['S', 'T']
  | 'ﬆ' => ['S', 'T']
  | c => [c.toUpper]

/-- `replace(/[^A-Z0-9]+/g, "_")`; `within` tells whether the run of others has begun before. -/
def foldOthers (within : Bool) : List Char → List Char
  | [] => []
  | c :: rest =>
    if ('A' ≤ c && c ≤ 'Z') || ('0' ≤ c && c ≤ '9') then c :: foldOthers false rest
    else if within then foldOthers true rest
    else '_' :: foldOthers true rest

def envVarName (ref namePrefix : String) : String :=
  let norm := ((foldOthers false (ref.toList.flatMap upperCase)).dropWhile (· == '_')).rdropWhile
    (· == '_')
  namePrefix ++ String.ofList norm

structure EnvSecretSource where
  namePrefix : String
  env : String → Option String

/-- What `toUpperCase` throws on an id that is no string. -/
def upperCaseError : Option Json → Thrown
  | none => .error "Cannot read properties of undefined (reading 'toUpperCase')"
  | some .null => .error "Cannot read properties of null (reading 'toUpperCase')"
  | some _ => .error "ref.toUpperCase is not a function"

def EnvSecretSource.resolve (source : EnvSecretSource) (ref : CredentialRef)
    (decision : Decision) : Except Thrown SourceCredential :=
  match ref.id with
  | some (.str id) =>
    let name := envVarName id source.namePrefix
    match (source.env name).filter (· ≠ "") with
    | none => .error (.error s!"env secret not found: {name} (for credential \"{id}\")")
    | some token => .ok ⟨token, stamped (narrowedScope ref decision), none⟩
  | id => .error (upperCaseError id)

structure FileSecretSource where
  /-- The map that an earlier call has loaded. -/
  map : Option (List (String × Json))
  /-- `readFile(path, "utf8")` -/
  readFile : Except Thrown String
  keyRaw : Option String
  /-- `decryptSecretsFile(raw, decodeKey(keyRaw))` -/
  decrypt : String → String → Except Thrown String
  /-- `JSON.parse` -/
  parse : String → Except Thrown Json
  /-- The property key that an id stands for that is no string. -/
  propertyKey : Option Json → Except Thrown String

namespace FileSecretSource

def load (source : FileSecretSource) : Except Thrown (List (String × Json)) :=
  match source.map with
  | some fields => .ok fields
  | none => do
    let raw ← source.readFile
    let json ← match source.keyRaw.filter (· ≠ "") with
      | some keyRaw => source.decrypt raw keyRaw
      | none => pure raw
    match ← source.parse json with
    | .obj fields => .ok fields
    | _ => .error (.error "secrets file must be a JSON object of ref -> token")

def keyOf (source : FileSecretSource) : Option Json → Except Thrown String
  | some (.str id) => .ok id
  | id => source.propertyKey id

/-- `scope ?? stored.scope` -/
def orDeclared (scope declared : Option Json) : Option Json :=
  match scope with
  | none => declared
  | some .null => declared
  | some v => some v

def fromEntry (ref : CredentialRef) (decision : Decision) (id : String) :
    Json → Except Thrown SourceCredential
  | .str token => .ok ⟨token, stamped (narrowedScope ref decision), none⟩
  | .obj fields =>
    match Json.lookup fields "token" with
    | some (.str token) => .ok
        { token := token
          scope := stamped (orDeclared (narrowedScope ref decision) (Json.lookup fields "scope"))
          expiresAt := stamped (Json.lookup fields "expiresAt") }
    | _ => .error (.error s!"malformed secret entry for \"{id}\"")
  | _ => .error (.error s!"malformed secret entry for \"{id}\"")

def resolve (source : FileSecretSource) (ref : CredentialRef) (decision : Decision) :
    Except Thrown SourceCredential := do
  let fields ← source.load
  let id ← source.keyOf ref.id
  match Json.lookup fields id with
  | none => .error (.error s!"secret not found in file: \"{id}\"")
  | some stored => fromEntry ref decision id stored

end FileSecretSource

inductive LocalSource where
  | env (source : EnvSecretSource)
  | file (source : FileSecretSource)

def LocalSource.resolve : LocalSource → CredentialRef → Decision → Except Thrown SourceCredential
  | .env source => source.resolve
  | .file source => source.resolve

def narrowScopes (decision : Decision) : List (List Json) :=
  ((decision.obligations.getD []).filter (·.type == "narrow_scope")).filterMap Obligation.scope?

def Allowed (decision : Decision) (items : List Json) : Prop :=
  ∀ scope ∈ narrowScopes decision, items ⊆ scope

def SourceCredential.Honours (credential : SourceCredential) (decision : Decision) : Prop :=
  ∃ items, credential.scope = some (.arr items) ∧ Allowed decision items

def LocalSource.declared : LocalSource → CredentialRef → Option Json
  | .env _, _ => none
  | .file source, ref =>
    match source.load, source.keyOf ref.id with
    | .ok fields, .ok id => (Json.lookup fields id).bind (Json.field? "scope")
    | _, _ => none

/-- What stands in when the first narrowing obligation has no array: the scope of the credential
obligation, else the one of the ref, else the one of the entry. -/
def standIn (ref : CredentialRef) (decision : Decision) (declared : Option Json) : Option Json :=
  match (ofType decision "credential").bind Obligation.scope? with
  | some items => some (.arr items)
  | none => FileSecretSource.orDeclared ref.scope declared

/-- The first narrowing obligation, or what stands in for it, is within all of them. -/
def FirstWithinAll (ref : CredentialRef) (decision : Decision) (declared : Option Json) : Prop :=
  (∃ items, (ofType decision "narrow_scope").bind Obligation.scope? = some items ∧
      Allowed decision items) ∨
    (ofType decision "narrow_scope").bind Obligation.scope? = none ∧
      ∃ items, standIn ref decision declared = some (.arr items) ∧ Allowed decision items

theorem stamped_eq_arr_iff {scope : Option Json} {items : List Json} :
    stamped scope = some (.arr items) ↔ scope = some (.arr items) := by
  unfold stamped
  constructor
  · intro h
    split_ifs at h
    exact h
  · intro h
    rw [h]
    rfl

theorem stamped_orDeclared_none (scope : Option Json) :
    stamped (FileSecretSource.orDeclared scope none) = stamped scope := by
  cases scope with
  | none => rfl
  | some v => cases v <;> rfl

theorem orDeclared_narrowedScope (ref : CredentialRef) (decision : Decision)
    (declared : Option Json) :
    FileSecretSource.orDeclared (narrowedScope ref decision) declared =
      match (ofType decision "narrow_scope").bind Obligation.scope? with
      | some items => some (.arr items)
      | none => standIn ref decision declared := by
  unfold narrowedScope standIn
  cases (ofType decision "narrow_scope").bind Obligation.scope? with
  | some items => rfl
  | none => cases (ofType decision "credential").bind Obligation.scope? <;> rfl

theorem EnvSecretSource.resolve_scope {source : EnvSecretSource} {ref : CredentialRef}
    {decision : Decision} {credential : SourceCredential}
    (h : source.resolve ref decision = .ok credential) :
    credential.scope = stamped (narrowedScope ref decision) := by
  unfold EnvSecretSource.resolve at h
  split at h
  · simp only at h
    split at h
    · cases h
    · cases h
      rfl
  · cases h

theorem FileSecretSource.fromEntry_scope {ref : CredentialRef} {decision : Decision} {id : String}
    {stored : Json} {credential : SourceCredential}
    (h : fromEntry ref decision id stored = .ok credential) :
    credential.scope =
      stamped (orDeclared (narrowedScope ref decision) (stored.field? "scope")) := by
  cases stored with
  | str token =>
    cases h
    exact (stamped_orDeclared_none _).symm
  | obj entry =>
    simp only [fromEntry] at h
    split at h
    · cases h
      rfl
    · cases h
  | _ => cases h

/-- The scope of a credential is the narrowed one, or the one that is declared. -/
theorem resolve_scope {source : LocalSource} {ref : CredentialRef} {decision : Decision}
    {credential : SourceCredential} (h : source.resolve ref decision = .ok credential) :
    credential.scope =
      stamped (FileSecretSource.orDeclared (narrowedScope ref decision) (source.declared ref)) := by
  cases source with
  | env source =>
    rw [LocalSource.declared, stamped_orDeclared_none]
    exact EnvSecretSource.resolve_scope h
  | file source =>
    rw [LocalSource.resolve, FileSecretSource.resolve] at h
    obtain ⟨fields, hload, h⟩ := Fallible.bind_eq_ok.1 h
    obtain ⟨id, hid, h⟩ := Fallible.bind_eq_ok.1 h
    rw [LocalSource.declared, hload, hid]
    cases hstored : Json.lookup fields id with
    | none =>
      rw [hstored] at h
      cases h
    | some stored =>
      rw [hstored] at h
      simp only [hstored, Option.bind_some]
      exact FileSecretSource.fromEntry_scope h

/-- A credential honours the narrowing obligations of its decision when, and only when, the first
of them is within all. -/
theorem honours_iff {source : LocalSource} {ref : CredentialRef} {decision : Decision}
    {credential : SourceCredential} (h : source.resolve ref decision = .ok credential) :
    credential.Honours decision ↔ FirstWithinAll ref decision (source.declared ref) := by
  rw [SourceCredential.Honours, resolve_scope h]
  simp only [stamped_eq_arr_iff, orDeclared_narrowedScope, FirstWithinAll]
  cases (ofType decision "narrow_scope").bind Obligation.scope? with
  | some items => simp
  | none => simp

def twoNarrows : Decision where
  effect := .allow
  obligations := some
    [⟨"narrow_scope", [("scope", .arr [.str "repo:read", .str "repo:write"])]⟩,
      ⟨"narrow_scope", [("scope", .arr [.str "repo:read"])]⟩]
  policyId := "authzen"
  version := "1"

def oneVariable : LocalSource :=
  .env ⟨"", fun name => if name = "GITHUB" then some "ghp_x" else none⟩

theorem honours_iff_twoNarrows :
    SourceCredential.Honours ⟨"ghp_x", some (.arr [.str "repo:read", .str "repo:write"]), none⟩
        twoNarrows ↔
      FirstWithinAll ⟨some (.str "github"), none⟩ twoNarrows none :=
  @honours_iff oneVariable ⟨some (.str "github"), none⟩ twoNarrows _ rfl

/-- The second obligation takes `repo:write` away, and the credential is returned with it. -/
theorem twoNarrows_not_honoured :
    oneVariable.resolve ⟨some (.str "github"), none⟩ twoNarrows =
        .ok ⟨"ghp_x", some (.arr [.str "repo:read", .str "repo:write"]), none⟩ ∧
      narrowScopes twoNarrows ≠ [] ∧
      ¬ SourceCredential.Honours ⟨"ghp_x", some (.arr [.str "repo:read", .str "repo:write"]), none⟩
        twoNarrows := by
  refine ⟨rfl, by decide, ?_⟩
  rintro ⟨items, hitems, hallowed⟩
  cases hitems
  have hsecond : [Json.str "repo:read"] ∈ narrowScopes twoNarrows :=
    List.mem_cons_of_mem _ List.mem_cons_self
  have hsub := hallowed _ hsecond
  simp at hsub

end AgentValet.Broker
