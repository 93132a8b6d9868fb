import AgentValet.Sdk.Python
import AgentValet.Sdk.TypeScript

namespace AgentValet.Sdk.Parity
open Base Lang Approvals

/-- What `json.loads` does with what `JSON.parse` makes of a text. -/
def loaded : Option Json → Python.Loaded
  | some v => .value v
  | none => .valueError

variable (js : TypeScript.Runtime) (rt : Python.Runtime) (opts : Options)

structure TextAlike (text : String) : Prop where
  whole : rt.json text = loaded (js.parse text)
  trim : JavaScript.trim text.toList = Lang.Python.strip text.toList
  trimmed : rt.loads (String.ofList (Lang.Python.strip text.toList)) =
    loaded (js.parse (String.ofList (Lang.Python.strip text.toList)))

/-- A reply that arrives whole, and is ok or an error. -/
structure ReplyAlike (r : Reply) : Prop where
  status : r.ok = true ∨ 400 ≤ r.status
  arrives : ∃ text, r.text = .ok text ∧ TextAlike js rt text

/-- Whatever comes of a request fails with what has a text, or is such a reply. -/
structure ExchangeAlike (x : Exchange) : Prop where
  first : ∀ r, x.first = .ok r → ReplyAlike js rt r
  retry : ∀ r, x.retry = .ok r → ReplyAlike js rt r
  fails : ∀ err, x.first = .error err ∨ x.retry = .error err → ¬ err.Textless

/-- The body is null, or an object for which `p` holds. -/
def BodyIs (p : List (String × Json) → Prop) (x : Exchange) : Prop :=
  ∀ r, x.first = .ok r ∨ x.retry = .ok r → r.ok = true → ∀ text v, r.text = .ok text →
    js.parse text = some v → v = .null ∨ ∃ fields, v = .obj fields ∧ p fields

/-- A token that both clients find there or not, and can ask for. -/
def TokenAlike (fields : List (String × Json)) : Prop :=
  JavaScript.truthy (Json.lookup fields "request_token") =
      Lang.Python.truthy (Json.lookup fields "request_token") ∧
    ∀ token, Json.lookup fields "request_token" = some token →
      TypeScript.hasText js token = true ∧
        rt.acceptsUrl (opts.proxyUrl ++ Python.statusPath rt token) = true

def KeyAlike : Prop :=
  opts.key.jose = .fit ∧ opts.key.pyJwt = true ∨
    opts.key.jose = .malformed ∧ opts.key.pyJwt = false

def Takes (path : String) : Prop :=
  rt.acceptsUrl (opts.proxyUrl ++ path) = true ∧ rt.sends opts.timeout = true

variable {js rt opts} {path : String} {x : Exchange}

theorem once_alike (hjose : opts.key.jose = .fit) (hpyJwt : opts.key.pyJwt = true)
    (htakes : Takes rt opts path) {sent : Except Lang.Thrown Reply}
    (hsent : ∀ r, sent = .ok r → ReplyAlike js rt r)
    (hfails : ∀ err, sent = .error err → ¬ err.Textless) :
    (TypeScript.once opts sent = .error (.typed .network) ∧
      Python.once rt opts path (.ok ()) sent = .error (.typed .network)) ∨
    ∃ status text, sent = .ok ⟨status, .ok text⟩ ∧
      TypeScript.once opts sent = .ok ⟨status, .ok text⟩ ∧
      Python.once rt opts path (.ok ()) sent = .ok ⟨status, text⟩ := by
  simp only [TypeScript.once, Python.once, hjose, hpyJwt, htakes.1, htakes.2, Bool.not_true,
    Bool.false_eq_true, if_false]
  cases sent with
  | error err =>
    obtain ⟨text, htext⟩ := Lang.Thrown.not_textless_iff.1 (hfails err rfl)
    refine Or.inl ⟨?_, rfl⟩
    rw [Except.mapError, TypeScript.diagnoseNetworkError, htext]
  | ok r =>
    obtain ⟨text, htext, -⟩ := (hsent r rfl).arrives
    obtain ⟨status, body⟩ := r
    obtain rfl : body = .ok text := htext
    exact Or.inr ⟨status, text, rfl, rfl, rfl⟩

/-- A request fails in both clients with one error, or gives both one reply. -/
theorem fetched_alike (hkey : KeyAlike opts) (htakes : Takes rt opts path)
    (hx : ExchangeAlike js rt x) :
    (∃ e, (opts.key.jose = .fit → e = .network) ∧
      TypeScript.authedFetch opts x = .error (.typed e) ∧
      Python.authedRequest rt opts path (.ok ()) x = .error (.typed e)) ∨
    ∃ status text, (x.first = .ok ⟨status, .ok text⟩ ∨ x.retry = .ok ⟨status, .ok text⟩) ∧
      opts.key.jose = .fit ∧
      TypeScript.authedFetch opts x = .ok ⟨status, .ok text⟩ ∧
      Python.authedRequest rt opts path (.ok ()) x = .ok ⟨status, text⟩ := by
  obtain ⟨hjose, hpyJwt⟩ | ⟨hjose, hpyJwt⟩ := hkey
  · obtain ⟨hjs, hpy⟩ | ⟨status, text, hfirst, hjs, hpy⟩ :=
      once_alike hjose hpyJwt htakes hx.first fun err h => hx.fails err (.inl h)
    · refine Or.inl ⟨.network, fun _ => rfl, ?_, ?_⟩
      · rw [TypeScript.authedFetch, hjs]
        rfl
      · rw [Python.authedRequest, hpy]
        rfl
    · by_cases h401 : status = 401
      -- the second attempt counts
      · have hsecond : TypeScript.authedFetch opts x = TypeScript.once opts x.retry ∧
            Python.authedRequest rt opts path (.ok ()) x =
              Python.once rt opts path (.ok ()) x.retry := by
          rw [TypeScript.authedFetch, Python.authedRequest, hjs, hpy]
          subst h401
          exact ⟨rfl, rfl⟩
        rw [hsecond.1, hsecond.2]
        obtain ⟨hjs', hpy'⟩ | ⟨status', text', hretry, hjs', hpy'⟩ :=
          once_alike hjose hpyJwt htakes hx.retry fun err h => hx.fails err (.inr h)
        · exact Or.inl ⟨.network, fun _ => rfl, hjs', hpy'⟩
        · exact Or.inr ⟨status', text', Or.inr hretry, hjose, hjs', hpy'⟩
      · refine Or.inr ⟨status, text, Or.inl hfirst, hjose, ?_, ?_⟩
        · rw [TypeScript.authedFetch, hjs]
          exact if_neg h401
        · rw [Python.authedRequest, hpy]
          exact if_neg h401
  · refine Or.inl ⟨.config, ?_, ?_, ?_⟩
    · rw [hjose]
      exact nofun
    · simp only [TypeScript.authedFetch, TypeScript.once, hjose]
      rfl
    · simp only [Python.authedRequest, Python.once, hpyJwt]
      rfl

theorem tryParse_alike {text : String} (h : TextAlike js rt text) :
    Python.tryParseJson rt text = .ok (TypeScript.valueOf js.parse text) := by
  simp only [Python.tryParseJson, TypeScript.valueOf, TypeScript.tryParseJson,
    JavaScript.structured?, h.trim]
  split_ifs
  · rw [h.trimmed, Option.bind_some]
    cases js.parse (String.ofList (Lang.Python.strip text.toList)) <;> rfl
  · rfl

/-- A reply is ok in both clients, or an error in both. -/
theorem ReplyAlike.cases {status : ℕ} {text : String}
    (h : ReplyAlike js rt ⟨status, .ok text⟩) :
    (Reply.mk status (.ok text)).ok = true ∧ ¬ 400 ≤ status ∨
      (Reply.mk status (.ok text)).ok = false ∧ 400 ≤ status := by
  have hiff : (Reply.mk status (.ok text)).ok = true ↔ 200 ≤ status ∧ status < 300 := Reply.ok_iff
  obtain hok | herror := h.status
  · have := hiff.1 hok
    exact Or.inl ⟨hok, by omega⟩
  · refine Or.inr ⟨Bool.eq_false_iff.2 fun hok => ?_, herror⟩
    have := hiff.1 hok
    have : 400 ≤ status := herror
    omega

theorem ReplyAlike.text {status : ℕ} {text : String}
    (h : ReplyAlike js rt ⟨status, .ok text⟩) : TextAlike js rt text := by
  obtain ⟨text', htext, hread⟩ := h.arrives
  obtain rfl : text = text' := Except.ok.inj htext
  exact hread

theorem answer_alike (hkey : KeyAlike opts) (htakes : Takes rt opts path)
    (hx : ExchangeAlike js rt x) :
    TypeScript.answer js.parse opts x = Python.answer rt opts path x := by
  obtain ⟨e, -, hjs, hpy⟩ | ⟨status, text, hreply, -, hjs, hpy⟩ := fetched_alike hkey htakes hx
  · rw [TypeScript.answer, Python.answer, hjs, hpy]
    rfl
  · have halike : ReplyAlike js rt ⟨status, .ok text⟩ := hreply.elim (hx.first _) (hx.retry _)
    rw [TypeScript.answer, Python.answer, hjs, hpy]
    simp only [Fallible.ok_bind, TypeScript.readText_ok, Python.proxyError]
    obtain ⟨hok, hlow⟩ | ⟨hok, herror⟩ := halike.cases
    · rw [if_pos hok, if_neg hlow, tryParse_alike halike.text]
      rfl
    · rw [hok, if_pos herror]
      rfl

/-- A body is no JSON in both clients, or null, or an object with the same fields. -/
theorem body_alike {p : List (String × Json) → Prop} {status : ℕ} {text : String}
    (hread : TextAlike js rt text)
    (hbody : ∀ v, js.parse text = some v → v = .null ∨ ∃ fields, v = .obj fields ∧ p fields) :
    (TypeScript.readBody js.parse ⟨status, .ok text⟩ = .error (.foreign .json) ∧
        Python.loadJson rt text = .error (.foreign .json)) ∨
      (TypeScript.readBody js.parse ⟨status, .ok text⟩ = .error (.foreign .type) ∧
        Python.loadJson rt text = .ok .null) ∨
      ∃ fields, TypeScript.readBody js.parse ⟨status, .ok text⟩ = .ok fields ∧
        Python.loadJson rt text = .ok (.obj fields) ∧ p fields := by
  simp only [TypeScript.readBody, TypeScript.readJson, TypeScript.readText_ok, Fallible.ok_bind,
    Python.loadJson, hread.whole]
  cases hparse : js.parse text with
  | none => exact Or.inl ⟨rfl, rfl⟩
  | some v =>
    obtain rfl | ⟨fields, rfl, hp⟩ := hbody v hparse
    · exact Or.inr (Or.inl ⟨rfl, rfl⟩)
    · exact Or.inr (Or.inr ⟨fields, rfl, rfl, hp⟩)

/-- Both clients take the same token of a reply, and can ask for it. -/
theorem accessReply_alike {status : ℕ} {text : String}
    (halike : ReplyAlike js rt ⟨status, .ok text⟩)
    (hbody : (Reply.mk status (.ok text)).ok = true → ∀ v, js.parse text = some v →
      v = .null ∨ ∃ fields, v = .obj fields ∧ TokenAlike js rt opts fields) :
    TypeScript.accessReply js.parse ⟨status, .ok text⟩ = Python.accessReply rt ⟨status, text⟩ ∧
      ∀ token, Python.accessReply rt ⟨status, text⟩ = .ok token →
        TypeScript.hasText js token = true ∧
          rt.acceptsUrl (opts.proxyUrl ++ Python.statusPath rt token) = true := by
  unfold TypeScript.accessReply Python.accessReply
  obtain ⟨hok, hlow⟩ | ⟨hok, herror⟩ := halike.cases
  · rw [if_neg (by simp [hok]), if_neg hlow]
    obtain ⟨hjs, hpy⟩ | ⟨hjs, hpy⟩ | ⟨fields, hjs, hpy, htruthy, htoken⟩ :=
      @body_alike js rt _ status _ halike.text (hbody hok)
    · rw [hjs, hpy]
      exact ⟨rfl, fun _ h => by cases h⟩
    · rw [hjs, hpy]
      exact ⟨rfl, fun _ h => by cases h⟩
    · rw [hjs, hpy]
      simp only [Fallible.ok_bind, Python.get]
      cases hlookup : Json.lookup fields "request_token" with
      | none => exact ⟨rfl, fun _ h => by cases h⟩
      | some token =>
        rw [hlookup] at htruthy
        rw [Option.filter_some, Option.filter_some, htruthy]
        cases Lang.Python.truthy (some token) with
        | false => exact ⟨rfl, fun _ h => by cases h⟩
        | true =>
          refine ⟨rfl, fun token' h => ?_⟩
          obtain rfl : token = token' := Except.ok.inj h
          exact htoken token hlookup
  · -- the error carries the text
    have hnot : (!(Reply.mk status (.ok text)).ok && status != 202) = true := by
      have : status ≠ 202 := by omega
      simp [hok, this]
    rw [if_pos hnot, if_pos herror]
    exact ⟨rfl, fun _ h => by cases h⟩

theorem submitted_alike (hkey : KeyAlike opts) (htakes : Takes rt opts "/v1/access-request")
    (hx : ExchangeAlike js rt x) (hbody : BodyIs js (TokenAlike js rt opts) x) :
    TypeScript.submitted js.parse opts x = Python.submitted rt opts x ∧
      ∀ token, Python.submitted rt opts x = .ok token → opts.key.jose = .fit ∧
        TypeScript.hasText js token = true ∧
          rt.acceptsUrl (opts.proxyUrl ++ Python.statusPath rt token) = true := by
  unfold TypeScript.submitted Python.submitted
  obtain ⟨e, -, hjs, hpy⟩ | ⟨status, text, hreply, hfit, hjs, hpy⟩ := fetched_alike hkey htakes hx
  · rw [hjs, hpy]
    exact ⟨rfl, fun _ h => by cases h⟩
  · rw [hjs, hpy]
    obtain ⟨heq, htoken⟩ := accessReply_alike (hreply.elim (hx.first _) (hx.retry _))
      fun hok v hparse => hbody _ hreply hok text v rfl hparse
    exact ⟨heq, fun token h => ⟨hfit, htoken token h⟩⟩

/-- A look at the request decides alike, or lets both clients look again. -/
theorem accessPoll_alike {token : Json} (hkey : KeyAlike opts) (hfit : opts.key.jose = .fit)
    (htext : TypeScript.hasText js token = true)
    (htakes : Takes rt opts (Python.statusPath rt token))
    (hx : ExchangeAlike js rt x) (hbody : BodyIs js (fun _ => True) x) :
    TypeScript.accessPoll js opts token x = Python.accessPoll rt opts token x := by
  rw [TypeScript.accessPoll, TypeScript.pollFetch, if_pos htext, Python.accessPoll]
  obtain ⟨e, hnetwork, hjs, hpy⟩ | ⟨status, text, hreply, -, hjs, hpy⟩ :=
    fetched_alike hkey htakes hx
  · obtain rfl := hnetwork hfit
    rw [hjs, hpy]
    rfl
  · have halike : ReplyAlike js rt ⟨status, .ok text⟩ := hreply.elim (hx.first _) (hx.retry _)
    rw [hjs, hpy]
    simp only [Python.transient]
    obtain ⟨hok, hlow⟩ | ⟨hok, herror⟩ := halike.cases
    · rw [if_neg (by simp [hok]), if_neg hlow]
      obtain ⟨hjs, hpy⟩ | ⟨hjs, hpy⟩ | ⟨fields, hjs, hpy, -⟩ :=
        @body_alike js rt _ status _ halike.text fun v => hbody _ hreply hok text v rfl
      · rw [hjs, hpy]
        rfl
      · rw [hjs, hpy]
        rfl
      · rw [hjs, hpy]
        rfl
    · rw [if_pos (by simp [hok]), if_pos herror]

def paths : List String :=
  ["/v1/agent/permissions", "/v1/agents/me/pending-actions", "/v1/authzen/access",
    "/v1/access-request"]

variable (js rt opts)

/-- Surroundings in which both packages can ask, and tell a reply from an error alike. -/
structure WorldAlike (world : World) : Prop where
  key : KeyAlike opts
  urls : ∀ path ∈ paths, rt.acceptsUrl (opts.proxyUrl ++ path) = true
  sends : rt.sends opts.timeout = true
  submit : ExchangeAlike js rt world.submit

/-- Python sleeps between its looks at a request, and an ok reply to one is JSON null or an object,
if it is JSON at all. -/
structure AccessAlike (world : World) : Prop where
  sleeps : rt.sleeps opts.approvalPoll = true
  issued : BodyIs js (TokenAlike js rt opts) world.submit
  polls : ∀ k, ExchangeAlike js rt (world.polls k)
  looks : ∀ k, BodyIs js (fun _ => True) (world.polls k)

variable {js rt opts}

theorem WorldAlike.takes {world : World} (h : WorldAlike js rt opts world) {path : String}
    (hpath : path ∈ paths) : Takes rt opts path := ⟨h.urls path hpath, h.sends⟩

theorem requestAccess_alike {world : World} (h : WorldAlike js rt opts world)
    (haccess : AccessAlike js rt opts world) (timeout : Option Double) (fuel : ℕ) :
    TypeScript.requestAccess js opts world timeout fuel =
      Python.requestAccess rt opts world timeout fuel := by
  obtain ⟨heq, htoken⟩ :=
    submitted_alike h.key (h.takes (by simp [paths])) h.submit haccess.issued
  unfold TypeScript.requestAccess Python.requestAccess
  rw [heq]
  cases hsubmitted : Python.submitted rt opts world.submit with
  | error e => rfl
  | ok token =>
    obtain ⟨hfit, htext, haccepts⟩ := htoken token hsubmitted
    have hloop : TypeScript.accessLoop js opts world token timeout =
        Python.accessLoop rt opts world token timeout := by
      unfold TypeScript.accessLoop Python.accessLoop
      congr 1
      funext k
      rw [Python.slept, if_pos haccess.sleeps]
      exact accessPoll_alike h.key hfit htext ⟨haccepts, h.sends⟩ (haccess.polls k)
        (haccess.looks k)
    rw [andThen_ok, andThen_ok, hloop]

/-- The packages answer alike, and wait for access to the same end, however long they wait. -/
theorem methods_alike {world : World} (h : WorldAlike js rt opts world) :
    TypeScript.listPlatforms js opts world = Python.listPlatforms rt opts world ∧
      TypeScript.pendingActions js opts world = Python.pendingActions rt opts world ∧
      TypeScript.evaluate js opts world = Python.evaluate rt opts world ∧
      (AccessAlike js rt opts world → ∀ timeout fuel,
        TypeScript.requestAccess js opts world timeout fuel =
          Python.requestAccess rt opts world timeout fuel) := by
  refine ⟨?_, ?_, ?_, fun haccess timeout fuel => requestAccess_alike h haccess timeout fuel⟩
  · exact answer_alike h.key (h.takes (by simp [paths])) h.submit
  · exact answer_alike h.key (h.takes (by simp [paths])) h.submit
  · exact answer_alike h.key (h.takes (by simp [paths])) h.submit

theorem exchangeAlike_twice {r : Reply} (h : ReplyAlike js rt r) :
    ExchangeAlike js rt ⟨.ok r, .ok r⟩ := by
  refine ⟨fun _ heq => Except.ok.inj heq ▸ h, fun _ heq => Except.ok.inj heq ▸ h, ?_⟩
  rintro err (herr | herr)
  · cases herr
  · cases herr

theorem bodyIs_twice {p : List (String × Json) → Prop} {status : ℕ} {text : String}
    {fields : List (String × Json)} (hparse : js.parse text = some (.obj fields)) (hp : p fields) :
    BodyIs js p ⟨.ok ⟨status, .ok text⟩, .ok ⟨status, .ok text⟩⟩ := by
  intro r hr _ text' v htext hv
  obtain rfl : Reply.mk status (.ok text) = r := hr.elim Except.ok.inj Except.ok.inj
  obtain rfl : text = text' := Except.ok.inj htext
  exact Or.inr ⟨fields, Option.some.inj (hv.symm.trans hparse), hp⟩

def issuedText : String := "\x7b\"request_token\":\"t1\"\x7d"

def approvedText : String := "\x7b\"status\":\"approved\"\x7d"

def twoTexts : TypeScript.Runtime where
  parse text :=
    if text = issuedText then some (.obj [("request_token", .str "t1")])
    else if text = approvedText then some (.obj [("status", .str "approved")])
    else none
  stringifies _ := true
  joins _ := true

def twoTextsRuntime : Python.Runtime where
  loads text := loaded (twoTexts.parse text)
  json text := loaded (twoTexts.parse text)
  str
    | .str s => s
    | _ => ""
  acceptsUrl _ := true
  sends _ := true
  sleeps _ := true

def grantedWorld : World where
  clock := steadyClock
  submit := ⟨.ok ⟨202, .ok issuedText⟩, .ok ⟨202, .ok issuedText⟩⟩
  polls
    | 0 => ⟨.error (.error "ETIMEDOUT"), .error (.error "ETIMEDOUT")⟩
    | _ => ⟨.ok ⟨200, .ok approvedText⟩, .ok ⟨200, .ok approvedText⟩⟩
  told _ := none

theorem twoTexts_textAlike {text : String}
    (htrim : JavaScript.trim text.toList = Lang.Python.strip text.toList) :
    TextAlike twoTexts twoTextsRuntime text := ⟨rfl, htrim, rfl⟩

theorem issued_replyAlike : ReplyAlike twoTexts twoTextsRuntime ⟨202, .ok issuedText⟩ :=
  ⟨Or.inl (by decide), issuedText, rfl, twoTexts_textAlike (by decide +kernel)⟩

theorem approved_replyAlike : ReplyAlike twoTexts twoTextsRuntime ⟨200, .ok approvedText⟩ :=
  ⟨Or.inl (by decide), approvedText, rfl, twoTexts_textAlike (by decide +kernel)⟩

theorem timedOut_alike : ExchangeAlike twoTexts twoTextsRuntime
    ⟨.error (.error "ETIMEDOUT"), .error (.error "ETIMEDOUT")⟩ := by
  refine ⟨fun _ h => (by cases h), fun _ h => (by cases h), ?_⟩
  rintro err (herr | herr)
  · cases herr
    exact Lang.Thrown.not_textless_iff.2 ⟨_, rfl⟩
  · cases herr
    exact Lang.Thrown.not_textless_iff.2 ⟨_, rfl⟩

def clientOptions : Options where
  key := ⟨.fit, true⟩
  proxyUrl := "https://api.agentvalet.ai"
  timeout := .finite 15000
  approvalTimeout := .finite 50000
  approvalPoll := .finite 2000

theorem grantedWorld_alike : WorldAlike twoTexts twoTextsRuntime clientOptions grantedWorld where
  key := Or.inl ⟨rfl, rfl⟩
  urls _ _ := rfl
  sends := rfl
  submit := exchangeAlike_twice issued_replyAlike

theorem grantedWorld_access : AccessAlike twoTexts twoTextsRuntime clientOptions grantedWorld where
  sleeps := rfl
  issued := by
    refine bodyIs_twice rfl ⟨rfl, fun token htoken => ?_⟩
    obtain rfl : Json.str "t1" = token := Option.some.inj htoken
    exact ⟨rfl, rfl⟩
  polls
    | 0 => timedOut_alike
    | _ + 1 => exchangeAlike_twice approved_replyAlike
  looks
    | 0 => by
      rintro r (h | h)
      · cases h
      · cases h
    | _ + 1 => bodyIs_twice rfl trivial

theorem steadyClock_within {k : ℕ} (hk : k < 25) :
    within steadyClock (.finite 50000) k = true := by
  have hq : (k : ℚ) < 25 := by exact_mod_cast hk
  have hlt : 2000 * (k : ℚ) - 0 < 50000 := by linarith
  exact decide_eq_true hlt

theorem methods_alike_granted :
    TypeScript.requestAccess twoTexts clientOptions grantedWorld none 2 =
        some (.ok (.access "approved" (.str "t1"))) ∧
      TypeScript.requestAccess twoTexts clientOptions grantedWorld none 2 =
        Python.requestAccess twoTextsRuntime clientOptions grantedWorld none 2 := by
  refine ⟨?_, (methods_alike grantedWorld_alike).2.2.2 grantedWorld_access none 2⟩
  let loop := TypeScript.accessLoop twoTexts clientOptions grantedWorld (.str "t1") none
  have hfirst : loop.run 2 0 () = loop.run 1 1 () :=
    loop.run_of_undecided (steadyClock_within (by norm_num)) rfl 1 ()
  have hsecond : loop.run 1 1 () = some ⟨1, .ok "approved", ()⟩ :=
    loop.run_of_decided (steadyClock_within (by norm_num)) rfl 0 ()
  change finish loop (.access · (.str "t1")) 2 () = _
  rw [finish, hfirst, hsecond]
  rfl

end AgentValet.Sdk.Parity
