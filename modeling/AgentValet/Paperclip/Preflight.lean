import AgentValet.Paperclip.Sessions

namespace AgentValet.Paperclip
open Base Lang JsString

inductive Level where
  | info
  | warn
  | error
  deriving DecidableEq

structure AdapterTestResult where
  level : Level
  message : JsString

inductive Probe where
  /-- Import the key as RS256. -/
  | importPKCS8 (pem : JsString)
  /-- A request that is given up after five seconds. -/
  | fetch (url : String)

/-- What the surroundings answer; an exception counts by its message. -/
structure Finding where
  imported : Except String Unit
  status : Except String ℕ

abbrev Test (α : Type) := Program Probe Finding Thrown α

def text (s : String) : JsString := ofChars s.toList

/-- `results.push` -/
def report (level : Level) (message : JsString) : List AdapterTestResult := [⟨level, message⟩]

def urlResults (proxyUrl : String) : List AdapterTestResult :=
  if proxyUrl = "" then report .error (text ("AGENTVALET_PROXY_URL is not set. " ++
    "Add it to your Paperclip instance environment variables."))
  else report .info (text ("Proxy URL: " ++ proxyUrl))

def ownerResults (ownerId : String) : List AdapterTestResult :=
  if ownerId = "" then report .error (text ("AGENTVALET_OWNER_ID is not set. " ++
    "Find your Owner ID in AgentValet → Settings."))
  else report .info (text ("Owner ID: " ++ ownerId))

def notImported (message : String) : List AdapterTestResult :=
  report .error (text ("AGENTVALET_COMPANY_KEY is set but could not be imported as RS256: " ++
    message ++ "\nEnsure it is an RSA-2048 private key in PKCS8 or traditional PEM format."))

/-- Nothing but an error about the key is thrown before the import. -/
def keyResults (node : Runtime) (env : String → Option String) : Test (List AdapterTestResult) :=
  match companyKey node env with
  | .error (.companyKey err) => pure (report .error err.message)
  | .error .other => pure (notImported "")
  | .ok pem => do
    match ← Program.query (.importPKCS8 pem) Finding.imported with
    | .ok () => pure (report .info
        (text "Company key: valid RS256 private key found and verified ✓"))
    | .error message => pure (notImported message)

def reachResults (proxyUrl : String) : Test (List AdapterTestResult) :=
  if proxyUrl = "" then pure []
  else do
    match ← Program.query (.fetch (proxyUrl ++ "/health")) Finding.status with
    | .ok status =>
      if 200 ≤ status && status ≤ 299 then
        pure (report .info (text ("AgentValet reachable at " ++ proxyUrl ++ " ✓")))
      else pure (report .warn
        (text (s!"AgentValet returned {status} at " ++ proxyUrl ++ "/health")))
    | .error message => pure (report .error
        (text ("Cannot reach AgentValet at " ++ proxyUrl ++ ": " ++ message)))

def validUnderlying : List String := ["claude_local", "process", "http"]

/-- The texts of values, for which arrays may be nested too deep. -/
structure Texts where
  string : Json → String
  joins : List Json → Bool

/-- `String(v)` returns. -/
def Texts.has (texts : Texts) (v : Json) : Bool :=
  JavaScript.stringable v && match v with | .arr items => texts.joins items | _ => true

/-- `String(v)`; an object with a `toString` of its own has no text. -/
def Texts.shown (texts : Texts) (v : Json) : Ended String :=
  if texts.has v then .ok (texts.string v) else .error .other

/-- What `join` writes for an item. -/
def Texts.item (texts : Texts) : Json → Ended String
  | .null => .ok ""
  | v => texts.shown v

def Texts.joined (texts : Texts) (items : List Json) : Ended String :=
  (items.mapM texts.item).map (", ".intercalate ·)

def unknownAdapter (adapter : String) : List AdapterTestResult :=
  report .warn (text ("underlyingAdapter \"" ++ adapter ++
    "\" is not a known option. Valid: " ++ ", ".intercalate validUnderlying))

def adapterResults (texts : Texts) (config : Fields) : Ended (List AdapterTestResult) :=
  match ((Json.lookup config "underlyingAdapter").filter fun v => !(v matches .null)).getD
    (.str "claude_local") with
  | .str adapter =>
    if adapter ∈ validUnderlying then .ok (report .info (text ("Underlying adapter: " ++ adapter)))
    else .ok (unknownAdapter adapter)
  | v => (texts.shown v).map unknownAdapter

def scopeHints (hints : String) : List AdapterTestResult :=
  report .info (text ("Scope hints: " ++ hints ++
    " (hint only — owner sets final permissions in AgentValet dashboard)"))

def scopeResults (texts : Texts) (config : Fields) : Ended (List AdapterTestResult) :=
  match Json.lookup config "agentvaletScopes" with
  | none => .ok []
  | some (.arr scopes) =>
    if scopes.isEmpty then .ok [] else (texts.joined scopes).map scopeHints
  | some _ => .ok (report .warn (text ("agentvaletScopes must be an array of strings " ++
      "e.g. [\"slack:read\", \"stripe:read\"]. Ignoring.")))

def unusedResults (config : Fields) : List AdapterTestResult :=
  if (Json.lookup config "agentvaletAgentId").isSome ||
      (Json.lookup config "agentvaletPrivateKeyEnv").isSome then
    report .warn (text ("agentvaletAgentId and agentvaletPrivateKeyEnv are no longer used. " ++
      "The adapter now uses company-level env vars (AGENTVALET_COMPANY_KEY, " ++
      "AGENTVALET_OWNER_ID) and auto-registers agents on first heartbeat. " ++
      "Remove these fields from adapterConfig."))
  else []

def testEnvironment (node : Runtime) (texts : Texts) (env : String → Option String)
    (config : Fields) : Test (List AdapterTestResult) := do
  let proxyUrl := withoutSlash ((env "AGENTVALET_PROXY_URL").getD "")
  let ownerId := (env "AGENTVALET_OWNER_ID").getD ""
  let key ← keyResults node env
  let reach ← reachResults proxyUrl
  let adapter ← Program.ofExcept (adapterResults texts config)
  let scopes ← Program.ofExcept (scopeResults texts config)
  pure (urlResults proxyUrl ++ ownerResults ownerId ++ key ++ reach ++ adapter ++ scopes ++
    unusedResults config)

def Passes (results : List AdapterTestResult) : Prop := ∀ r ∈ results, r.level ≠ .error

theorem passes_append {results results' : List AdapterTestResult} :
    Passes (results ++ results') ↔ Passes results ∧ Passes results' := by
  simp only [Passes, List.mem_append, or_imp, forall_and]

theorem passes_report {level : Level} {message : JsString} :
    Passes (report level message) ↔ level ≠ .error := by
  simp [Passes, report]

theorem passes_unusedResults (config : Fields) : Passes (unusedResults config) := by
  rw [unusedResults]
  split
  · exact passes_report.2 (by decide)
  · simp [Passes]

theorem passes_urlResults {proxyUrl : String} : Passes (urlResults proxyUrl) ↔ proxyUrl ≠ "" := by
  rw [urlResults]
  split
  · rename_i hempty
    simp [passes_report, hempty]
  · rename_i hurl
    simp [passes_report, hurl]

theorem passes_ownerResults {ownerId : String} : Passes (ownerResults ownerId) ↔ ownerId ≠ "" := by
  rw [ownerResults]
  split
  · rename_i hempty
    simp [passes_report, hempty]
  · rename_i howner
    simp [passes_report, howner]

structure Showable (texts : Texts) (config : Fields) : Prop where
  adapter : ∀ v, Json.lookup config "underlyingAdapter" = some v → texts.has v = true
  scopes : ∀ items, Json.lookup config "agentvaletScopes" = some (.arr items) →
    ∀ v ∈ items, texts.has v = true

section
variable {texts : Texts} {config : Fields}

theorem Texts.shown_ends (v : Json) :
    (∃ written, texts.shown v = .ok written ∧ texts.has v = true) ∨
      texts.shown v = .error .other ∧ texts.has v = false := by
  rw [Texts.shown]
  cases texts.has v with
  | true => exact Or.inl ⟨_, rfl, rfl⟩
  | false => exact Or.inr ⟨rfl, rfl⟩

/-- Of the adapter nothing counts as an error, but its name may have no text. -/
theorem adapterResults_ends :
    (∃ results, adapterResults texts config = .ok results ∧ Passes results ∧
        ∀ v, Json.lookup config "underlyingAdapter" = some v → texts.has v = true) ∨
      adapterResults texts config = .error .other ∧
        ∃ v, Json.lookup config "underlyingAdapter" = some v ∧ texts.has v = false := by
  have hinfo : ∀ adapter, Passes (report .info (text ("Underlying adapter: " ++ adapter))) :=
    fun _ => passes_report.2 (fun h => by cases h)
  have hwarn : ∀ adapter, Passes (unknownAdapter adapter) :=
    fun _ => passes_report.2 (fun h => by cases h)
  rw [adapterResults]
  cases hlookup : Json.lookup config "underlyingAdapter" with
  | none => exact Or.inl ⟨_, rfl, hinfo _, fun v hv => by cases hv⟩
  | some v =>
    have honly : texts.has v = true → ∀ w, some v = some w → texts.has w = true := by
      intro h w hw
      rwa [← Option.some.inj hw]
    have hshown : (∃ results, (texts.shown v).map unknownAdapter = .ok results ∧ Passes results ∧
          ∀ w, some v = some w → texts.has w = true) ∨
        (texts.shown v).map unknownAdapter = .error .other ∧
          ∃ w, some v = some w ∧ texts.has w = false := by
      obtain ⟨written, hwritten, hhas⟩ | ⟨hthrown, hnot⟩ := texts.shown_ends v
      · rw [hwritten]
        exact Or.inl ⟨_, rfl, hwarn _, honly hhas⟩
      · rw [hthrown]
        exact Or.inr ⟨rfl, v, rfl, hnot⟩
    cases v with
    | null => exact Or.inl ⟨_, rfl, hinfo _, honly rfl⟩
    | str adapter =>
      left
      by_cases hvalid : adapter ∈ validUnderlying
      · exact ⟨_, if_pos hvalid, hinfo _, honly rfl⟩
      · exact ⟨_, if_neg hvalid, hwarn _, honly rfl⟩
    | _ => exact hshown

theorem Texts.item_ends (v : Json) :
    (∃ written, texts.item v = .ok written ∧ texts.has v = true) ∨
      texts.item v = .error .other ∧ texts.has v = false := by
  cases v with
  | null => exact Or.inl ⟨_, rfl, rfl⟩
  | _ => exact texts.shown_ends _

theorem Texts.items_end (items : List Json) :
    (∃ written, items.mapM texts.item = .ok written ∧ ∀ v ∈ items, texts.has v = true) ∨
      items.mapM texts.item = .error .other ∧ ∃ v ∈ items, texts.has v = false := by
  induction items with
  | nil => exact Or.inl ⟨[], rfl, by simp⟩
  | cons v rest ih =>
    rw [List.mapM_cons]
    obtain ⟨written, hv, hhas⟩ | ⟨hv, hhas⟩ := texts.item_ends v
    · rw [hv]
      obtain ⟨more, hrest, hall⟩ | ⟨hrest, w, hw, hnot⟩ := ih
      · rw [hrest]
        exact Or.inl ⟨written :: more, rfl, List.forall_mem_cons.2 ⟨hhas, hall⟩⟩
      · rw [hrest]
        exact Or.inr ⟨rfl, w, List.mem_cons_of_mem v hw, hnot⟩
    · rw [hv]
      exact Or.inr ⟨rfl, v, List.mem_cons_self, hhas⟩

/-- Of the scope hints nothing counts as an error, but an item may have no text. -/
theorem scopeResults_ends :
    (∃ results, scopeResults texts config = .ok results ∧ Passes results ∧
        ∀ items, Json.lookup config "agentvaletScopes" = some (.arr items) →
          ∀ v ∈ items, texts.has v = true) ∨
      scopeResults texts config = .error .other ∧
        ∃ items, Json.lookup config "agentvaletScopes" = some (.arr items) ∧
          ∃ v ∈ items, texts.has v = false := by
  rw [scopeResults]
  split
  · rename_i hlookup
    exact Or.inl ⟨[], rfl, by simp [Passes], fun items h => by rw [hlookup] at h; cases h⟩
  · rename_i scopes hlookup
    rw [hlookup]
    split
    · rename_i hempty
      refine Or.inl ⟨[], rfl, by simp [Passes], ?_⟩
      rintro items ⟨⟩ v hv
      rw [List.isEmpty_iff.1 hempty] at hv
      cases hv
    · rw [Texts.joined]
      obtain ⟨written, hwritten, hall⟩ | ⟨hthrown, v, hv, hnot⟩ := texts.items_end scopes
      · rw [hwritten]
        refine Or.inl ⟨_, rfl, passes_report.2 (fun h => by cases h), ?_⟩
        rintro items ⟨⟩
        exact hall
      · rw [hthrown]
        exact Or.inr ⟨rfl, scopes, rfl, v, hv, hnot⟩
  · rename_i v hnot hlookup
    refine Or.inl ⟨_, rfl, passes_report.2 (fun h => by cases h), ?_⟩
    intro items h
    rw [hlookup] at h
    exact absurd (Option.some.inj h) (hnot items)

theorem config_ends :
    (Showable texts config ∧ ∃ adapter scopes, adapterResults texts config = .ok adapter ∧
        scopeResults texts config = .ok scopes ∧ Passes adapter ∧ Passes scopes) ∨
      ¬ Showable texts config ∧ (adapterResults texts config = .error .other ∨
        ∃ adapter, adapterResults texts config = .ok adapter ∧
          scopeResults texts config = .error .other) := by
  obtain ⟨adapter, hadapter, hpasses, hhas⟩ | ⟨hadapter, v, hv, hnot⟩ :=
    @adapterResults_ends texts config
  · obtain ⟨scopes, hscopes, hpasses', hall⟩ | ⟨hscopes, items, hitems, v, hv, hnot⟩ :=
      @scopeResults_ends texts config
    · exact Or.inl ⟨⟨hhas, hall⟩, adapter, scopes, hadapter, hscopes, hpasses, hpasses'⟩
    · refine Or.inr ⟨fun h => ?_, Or.inr ⟨adapter, hadapter, hscopes⟩⟩
      have hhas' := h.scopes items hitems v hv
      rw [hnot] at hhas'
      cases hhas'
  · refine Or.inr ⟨fun h => ?_, Or.inl hadapter⟩
    have hhas := h.adapter v hv
    rw [hnot] at hhas
    cases hhas

end

def Imported (node : Runtime) (env : String → Option String) (log : List (Probe × Finding)) :
    Prop :=
  ∃ pem a, companyKey node env = .ok pem ∧ (.importPKCS8 pem, a) ∈ log ∧ a.imported = .ok ()

def Reached (proxyUrl : String) (log : List (Probe × Finding)) : Prop :=
  ∃ a status, (.fetch (proxyUrl ++ "/health"), a) ∈ log ∧ a.status = .ok status

variable {node : Runtime} {texts : Texts} {env : String → Option String} {config : Fields}

theorem runs_keyResults {log : List (Probe × Finding)}
    {o : Outcome Thrown (List AdapterTestResult)}
    (hrun : Program.Runs (keyResults node env) log o) :
    ∃ results, o = .returned results ∧ (Passes results ↔ Imported node env log) ∧
      ∀ x ∈ log, ∀ url, x.1 ≠ .fetch url := by
  have hunread : ∀ {t : Thrown}, companyKey node env = .error t →
      ∀ log, ¬ Imported node env log := by
    rintro t ht log ⟨pem, a, hpem, -⟩
    rw [ht] at hpem
    cases hpem
  rw [keyResults] at hrun
  split at hrun
  · rename_i hkey
    cases hrun
    exact ⟨_, rfl, by simp [passes_report, hunread hkey], by simp⟩
  · rename_i hkey
    cases hrun
    exact ⟨_, rfl, by simp [notImported, passes_report, hunread hkey], by simp⟩
  · rename_i pem hkey
    obtain ⟨a, log, rfl, hrest⟩ := Program.runs_query_bind hrun
    have himported : Imported node env [(.importPKCS8 pem, a)] ↔ a.imported = .ok () := by
      constructor
      · rintro ⟨pem', a', -, hmem, hok⟩
        obtain ⟨-, rfl⟩ := Prod.mk.inj (List.mem_singleton.1 hmem)
        exact hok
      · exact fun hok => ⟨pem, a, hkey, List.mem_singleton.2 rfl, hok⟩
    split at hrest
    · rename_i hok
      cases hrest
      exact ⟨_, rfl, by simp [passes_report, himported, hok], by simp⟩
    · rename_i message herr
      cases hrest
      exact ⟨_, rfl, by simp [notImported, passes_report, himported, herr], by simp⟩

theorem runs_reachResults {proxyUrl : String} {log : List (Probe × Finding)}
    {o : Outcome Thrown (List AdapterTestResult)}
    (hrun : Program.Runs (reachResults proxyUrl) log o) :
    ∃ results, o = .returned results ∧
      (proxyUrl ≠ "" → (Passes results ↔ Reached proxyUrl log)) ∧
      ∀ x ∈ log, ∀ pem, x.1 ≠ .importPKCS8 pem := by
  rw [reachResults] at hrun
  split at hrun
  · rename_i hempty
    cases hrun
    exact ⟨_, rfl, fun h => absurd hempty h, by simp⟩
  · obtain ⟨a, log, rfl, hrest⟩ := Program.runs_query_bind hrun
    have hreached : Reached proxyUrl [(.fetch (proxyUrl ++ "/health"), a)] ↔
        ∃ status, a.status = .ok status := by
      constructor
      · rintro ⟨a', status, hmem, hok⟩
        obtain ⟨-, rfl⟩ := Prod.mk.inj (List.mem_singleton.1 hmem)
        exact ⟨status, hok⟩
      · exact fun ⟨status, hok⟩ => ⟨a, status, List.mem_singleton.2 rfl, hok⟩
    split at hrest
    · rename_i status hok
      split at hrest
      · cases hrest
        exact ⟨_, rfl, fun _ => by simp [passes_report, hreached, hok], by simp⟩
      · cases hrest
        exact ⟨_, rfl, fun _ => by simp [passes_report, hreached, hok], by simp⟩
    · rename_i message herr
      cases hrest
      exact ⟨_, rfl, fun _ => by simp [passes_report, hreached, herr], by simp⟩

theorem readCompanyEnv_eq_ok_iff {e : CompanyEnv} :
    readCompanyEnv node env = .ok e ↔
      withoutSlash ((env "AGENTVALET_PROXY_URL").getD "") = e.proxyUrl ∧ e.proxyUrl ≠ "" ∧
        (env "AGENTVALET_OWNER_ID").getD "" = e.ownerId ∧ e.ownerId ≠ "" ∧
          companyKey node env = .ok e.companyKeyPem := by
  obtain ⟨proxyUrl, ownerId, pem⟩ := e
  simp only [readCompanyEnv]
  split
  · rename_i hurl
    refine iff_of_false (fun h => by cases h) ?_
    rintro ⟨hurl', hne, -⟩
    exact hne (hurl'.symm.trans hurl)
  · split
    · rename_i howner
      refine iff_of_false (fun h => by cases h) ?_
      rintro ⟨-, -, howner', hne, -⟩
      exact hne (howner'.symm.trans howner)
    · rename_i hurl howner
      cases companyKey node env with
      | error t =>
        refine iff_of_false (fun h => by cases h) ?_
        rintro ⟨-, -, -, -, hkey⟩
        cases hkey
      | ok key =>
        constructor
        · intro h
          obtain ⟨rfl, rfl, rfl⟩ := CompanyEnv.mk.inj (Except.ok.inj h)
          exact ⟨rfl, hurl, rfl, howner, rfl⟩
        · rintro ⟨rfl, -, rfl, -, hkey⟩
          obtain rfl := Except.ok.inj hkey
          rfl

/-- The test ends with a report, which has no error exactly if the heartbeat finds the company's
environment, its key can be imported and the service answers.  Only a value of the configuration
that has no text keeps it from reporting. -/
theorem passes_testEnvironment {log : List (Probe × Finding)}
    {o : Outcome Thrown (List AdapterTestResult)}
    (hrun : Program.Runs (testEnvironment node texts env config) log o) :
    (Showable texts config → ∃ results, o = .returned results ∧ (Passes results ↔
      ∃ e, readCompanyEnv node env = .ok e ∧ Imported node env log ∧ Reached e.proxyUrl log)) ∧
      (¬ Showable texts config → o = .threw .other) := by
  obtain ⟨key, before, rest, rfl, hkey, hrest⟩ | ⟨err, -, hlog⟩ | ⟨-, hlog⟩ :=
    Program.runs_bind hrun
  · obtain ⟨reach, after, last, rfl, hreach, hlast⟩ | ⟨err, -, hlog⟩ | ⟨-, hlog⟩ :=
      Program.runs_bind hrest
    · obtain ⟨key', hkey', hkeyPasses, hkeyLog⟩ := runs_keyResults hkey
      obtain ⟨reach', hreach', hreachPasses, hreachLog⟩ := runs_reachResults hreach
      obtain rfl := Outcome.returned.inj hkey'
      obtain rfl := Outcome.returned.inj hreach'
      obtain ⟨hshow, adapter, scopes, hadapter, hscopes, hpasses, hpasses'⟩ |
        ⟨hshow, hthrown⟩ := @config_ends texts config
      · rw [hadapter, hscopes] at hlast
        cases hlast
        refine ⟨fun _ => ⟨_, rfl, ?_⟩, fun h => absurd hshow h⟩
        rw [List.append_nil]
        have himported : Imported node env (before ++ after) ↔ Imported node env before := by
          refine exists_congr fun pem => exists_congr fun a => and_congr_right fun _ => ?_
          rw [List.mem_append, or_iff_left fun hmem => hreachLog _ hmem pem rfl]
        have hreached : ∀ url, Reached url (before ++ after) ↔ Reached url after := by
          refine fun url => exists_congr fun a => exists_congr fun status => ?_
          rw [List.mem_append, or_iff_right fun hmem => hkeyLog _ hmem _ rfl]
        simp only [passes_append, passes_urlResults, passes_ownerResults, hpasses, hpasses',
          passes_unusedResults, and_true, hkeyPasses, himported, hreached,
          readCompanyEnv_eq_ok_iff]
        constructor
        · rintro ⟨⟨⟨hurl, howner⟩, himported'⟩, hreached'⟩
          have hread := himported'
          obtain ⟨pem, a, hpem, -⟩ := hread
          exact ⟨⟨_, _, pem⟩, ⟨rfl, hurl, rfl, howner, hpem⟩, himported',
            (hreachPasses hurl).1 hreached'⟩
        · rintro ⟨e, ⟨hurl, hne, howner, hne', -⟩, himported', hreached'⟩
          rw [← hurl] at hne hreached'
          rw [← howner] at hne'
          exact ⟨⟨⟨hne, hne'⟩, himported'⟩, (hreachPasses hne).2 hreached'⟩
      · refine ⟨fun h => absurd h hshow, fun _ => ?_⟩
        obtain hadapter | ⟨adapter, hadapter, hscopes⟩ := hthrown
        · rw [hadapter] at hlast
          cases hlast
          rfl
        · rw [hadapter, hscopes] at hlast
          cases hlast
          rfl
    · obtain ⟨_, h, -⟩ := runs_reachResults hlog
      cases h
    · obtain ⟨_, h, -⟩ := runs_reachResults hlog
      cases h
  · obtain ⟨_, h, -⟩ := runs_keyResults hlog
    cases h
  · obtain ⟨_, h, -⟩ := runs_keyResults hlog
    cases h

def sampleTexts : Texts where
  string _ := ""
  joins _ := true

/-- An adapter whose name has a `toString` that cannot be called. -/
def sampleConfig : Fields := [("underlyingAdapter", .obj [("toString", .bool true)])]

theorem passes_testEnvironment_sample :
    (∃ results, ((testEnvironment sampleNode sampleTexts
        (sampleEnv samplePem) []).talk fun _ => ⟨.ok (), .ok 200⟩).2 = .returned results ∧
      (Passes results ↔ ∃ e, readCompanyEnv sampleNode (sampleEnv samplePem) = .ok e ∧
        Imported sampleNode (sampleEnv samplePem) ((testEnvironment sampleNode sampleTexts
          (sampleEnv samplePem) []).talk fun _ => ⟨.ok (), .ok 200⟩).1 ∧
        Reached e.proxyUrl ((testEnvironment sampleNode sampleTexts
          (sampleEnv samplePem) []).talk fun _ => ⟨.ok (), .ok 200⟩).1)) ∧
      ((testEnvironment sampleNode sampleTexts (sampleEnv samplePem) sampleConfig).talk
        fun _ => ⟨.ok (), .ok 200⟩).2 = .threw .other := by
  refine ⟨(passes_testEnvironment (Program.runs_talk _ _)).1
    ⟨fun _ h => (by cases h), fun _ h => (by cases h)⟩,
    (passes_testEnvironment (Program.runs_talk _ _)).2 fun h => ?_⟩
  have hhas := h.adapter (.obj [("toString", .bool true)]) rfl
  cases hhas

end AgentValet.Paperclip
