import AgentValet.Sdk.PythonFailures
import AgentValet.Sdk.TypeScriptFailures

namespace AgentValet.Sdk
open Base Lang Approvals

/-- Errors of one class, with the same status. -/
def SameError : AgentValetError → AgentValetError → Prop
  | .config, .config => True
  | .network, .network => True
  | .proxy s _, .proxy s' _ => s = s'
  | .approvalDenied _, .approvalDenied _ => True
  | .approvalExpired, .approvalExpired => True
  | .approvalTimeout, .approvalTimeout => True
  | .upstream py _, .upstream js _ => ∃ n, py = some (.num (.int n)) ∧ SameStatus js n
  | _, _ => False

/-- Python's wait and JavaScript's return the same data, throw the same error, or hand on what the
callback threw. -/
def SameOutcome : Ended (Option Json) → Ended (Option Json) → Prop
  | .ok py, .ok js => SameData js py
  | .error (.typed e), .error (.typed e') => SameError e e'
  | .error (.caller ofPackage), .error (.caller ofPackage') => ofPackage = ofPackage'
  | _, _ => False

/-- The answers on which the clients are compared have a status from 200 to 299 or from 400 to 599;
an ok one is a JSON object, and Python reads no other value from it. -/
def InDomain (js : TypeScript.Runtime) (py : Python.Runtime) (x : Exchange) : Prop :=
  ∀ r, x.first = .ok r ∨ x.retry = .ok r →
    (200 ≤ r.status ∧ r.status ≤ 299 ∨ 400 ≤ r.status ∧ r.status ≤ 599) ∧
    (r.ok = true → ∀ text, r.text = .ok text → ∃ body, js.parse text = some (.obj body) ∧
      ∀ v, py.json text = .value v → v = .obj body)

/-- Python receives a reply whole. -/
def Arrives (x : Exchange) : Prop :=
  ∃ response,
    Gives Python.Response.status (Python.received x.first) (Python.received x.retry) response

variable (js : TypeScript.Runtime) (py : Python.Runtime) (opts : Options)

/-- Python reads the object too, JavaScript can present what it leads to, and the tests on the way
come out alike. -/
def TextReadsAlike (text : String) : Prop :=
  ∀ body, js.parse text = some (.obj body) → py.json text = .value (.obj body) ∧
    TypeScript.Presentable js body ∧ AnswerReadsAlike body

/-- Python sleeps and sends its request.  With a key JavaScript cannot sign with, its wait never
ends early, and Python's may not either; else what arrives reads alike, and a reply whose body does
not arrive, which Python takes for a failure on the way, has to let JavaScript wait on. -/
def PollReadsAlike (approvalId : String) (x : Exchange) (told : Option Bool) : Prop :=
  py.sleeps opts.approvalPoll = true ∧
    Python.Sent py opts (Python.approvalPath approvalId) (.ok ()) ∧
    if opts.key.jose = .fit then
      ∀ res, Gives Reply.status x.first x.retry res →
        (Arrives x → res.ok = true → ∀ text, res.text = .ok text → TextReadsAlike js py text) ∧
        (¬ Arrives x → TypeScript.SaysPending js told res)
    else Python.PollPending py opts approvalId x told

variable {js py opts}

theorem not_sameOutcome_of_foreign (ended : Ended (Option Json)) (e : Foreign) :
    ¬ SameOutcome ended (.error (.foreign e)) := by
  rcases ended with (_ | _ | _) | _ <;> exact id

theorem not_rel_foreign (e : Foreign) (verdict : Option (Ended (Option Json))) :
    ¬ Option.Rel SameOutcome (some (.error (.foreign e))) verdict := by
  intro h
  cases h with
  | @some _ ended hsame => rcases ended with (_ | _ | _) | _ <;> exact hsame

theorem not_rel_of_foreign (verdict : Option (Ended (Option Json))) (e : Foreign) :
    ¬ Option.Rel SameOutcome verdict (some (.error (.foreign e))) := by
  intro h
  cases h with
  | some hsame => exact not_sameOutcome_of_foreign _ e hsame

theorem sameOutcome_iff (ended : PythonClient.Ended) (verdict : Verdict) :
    SameOutcome (Python.ofEnded ended) (TypeScript.ofVerdict js verdict) ↔
      EndsAlike ended verdict ∧ Typed (TypeScript.ofVerdict js verdict) := by
  cases verdict with
  | upstreamError status data =>
    simp only [TypeScript.ofVerdict, TypeScript.upstreamError]
    split
    · rw [and_iff_left (typed_error _)]
      rcases ended with (_ | _ | _ | _ | _) | _ <;>
        simp [Python.ofEnded, SameOutcome, SameError, EndsAlike, SameEnd, Client.settle]
    · exact iff_of_false (not_sameOutcome_of_foreign _ _) fun h => h.2
  | typeError =>
    exact iff_of_false (not_sameOutcome_of_foreign _ _) fun h => h.2
  | _ =>
    rcases ended with (_ | _ | _ | _ | _) | _ <;>
      simp [Python.ofEnded, TypeScript.ofVerdict, SameOutcome, SameError, EndsAlike, SameEnd,
        Client.settle, pure, Except.pure]

theorem interpretations_alike_iff (payload : Payload) :
    Option.Rel SameOutcome (Python.interpret payload) (TypeScript.interpret js payload) ↔
      TypeScript.Presentable js payload ∧ AnswerReadsAlike payload := by
  rw [← TypeScript.interpret_typed_iff, ← Approvals.interpret_alike_iff]
  unfold Python.interpret TypeScript.interpret
  split_ifs
  · exact iff_of_false (not_rel_of_foreign _ _) fun h => allTyped_some.1 h.1
  · cases PythonClient.interpretApprovalStatus payload <;>
      cases Client.interpret payload <;>
        simp [sameOutcome_iff, and_comm]

/-- No answer is read as an error of the caller's. -/
def NotCaller (verdict : Option (Ended (Option Json))) : Prop :=
  ∀ ofPackage, verdict ≠ some (.error (.caller ofPackage))

theorem python_interpret_notCaller (payload : Payload) : NotCaller (Python.interpret payload) := by
  intro ofPackage h
  obtain ⟨ended, -, hended⟩ := Option.map_eq_some_iff.1 h
  rcases ended with (_ | _ | _ | _ | _) | _ <;> cases hended

theorem ofVerdict_ne_caller (verdict : Verdict) (ofPackage : Bool) :
    TypeScript.ofVerdict js verdict ≠ .error (.caller ofPackage) := by
  cases verdict with
  | upstreamError status data =>
    simp only [TypeScript.ofVerdict, TypeScript.upstreamError]
    split <;> simp
  | _ => exact fun h => by cases h

theorem typeScript_interpret_notCaller (payload : Payload) :
    NotCaller (TypeScript.interpret js payload) := by
  intro ofPackage h
  unfold TypeScript.interpret at h
  split_ifs at h
  · cases h
  · obtain ⟨verdict, -, hverdict⟩ := Option.map_eq_some_iff.1 h
    exact ofVerdict_ne_caller verdict ofPackage hverdict

/-- The callback is told alike of what neither client decides. -/
theorem orTell_alike_iff {ended ended' : Option (Ended (Option Json))} (h : NotCaller ended)
    (h' : NotCaller ended') (told : Option Bool) :
    Option.Rel SameOutcome (orTell told ended) (orTell told ended') ↔
      Option.Rel SameOutcome ended ended' := by
  cases ended with
  | some e =>
    cases ended' with
    | some e' => exact Iff.rfl
    | none =>
      refine iff_of_false (fun hrel => ?_) fun hrel => by cases hrel
      cases told with
      | none => cases hrel
      | some ofPackage =>
        cases hrel with
        | some hsame =>
          rcases e with (_ | _ | ofPackage') | _
          · exact hsame
          · exact hsame
          · exact h ofPackage' rfl
          · exact hsame
  | none =>
    cases ended' with
    | some e' =>
      refine iff_of_false (fun hrel => ?_) fun hrel => by cases hrel
      cases told with
      | none => cases hrel
      | some ofPackage =>
        cases hrel with
        | some hsame =>
          rcases e' with (_ | _ | ofPackage') | _
          · exact hsame
          · exact hsame
          · exact h' ofPackage' rfl
          · exact hsame
    | none =>
      refine iff_of_true ?_ .none
      cases told with
      | none => exact .none
      | some ofPackage => exact .some rfl

theorem Gives.unique {ε ρ : Type} {status : ρ → ℕ} {first retry : Except ε ρ} {r r' : ρ}
    (h : Gives status first retry r) (h' : Gives status first retry r') : r = r' := by
  obtain ⟨s, hs, hr⟩ := h
  obtain ⟨s', hs', hr'⟩ := h'
  obtain rfl : s = s' := Except.ok.inj (hs.symm.trans hs')
  split_ifs at hr hr'
  · exact Except.ok.inj (hr.symm.trans hr')
  · exact hr.trans hr'.symm

theorem received_eq_ok_iff {sent : Except Lang.Thrown Reply} {response : Python.Response} :
    Python.received sent = .ok response ↔ sent = .ok ⟨response.status, .ok response.text⟩ := by
  unfold Python.received
  rcases sent with _ | ⟨status, _ | text⟩
  · exact iff_of_false nofun nofun
  · exact iff_of_false nofun nofun
  · constructor
    · intro h
      cases h
      rfl
    · intro h
      cases h
      rfl

/-- What Python receives is the reply that JavaScript gets. -/
theorem gives_of_received {x : Exchange} {response : Python.Response}
    (h : Gives Python.Response.status (Python.received x.first) (Python.received x.retry)
      response) :
    Gives Reply.status x.first x.retry ⟨response.status, .ok response.text⟩ := by
  obtain ⟨r, hr, hresponse⟩ := h
  refine ⟨⟨r.status, .ok r.text⟩, received_eq_ok_iff.1 hr, ?_⟩
  dsimp only
  split_ifs at hresponse ⊢
  · exact received_eq_ok_iff.1 hresponse
  · rw [hresponse]

theorem python_refused {path : String} (h : ¬ Python.Sent py opts path (.ok ())) (x : Exchange) :
    Python.authedRequest py opts path (.ok ()) x = .error (.typed .config) ∨
      Python.authedRequest py opts path (.ok ()) x = .error (.foreign .request) := by
  unfold Python.authedRequest Python.once
  cases hkey : opts.key.pyJwt with
  | false => exact .inl rfl
  | true =>
    cases hurl : py.acceptsUrl (opts.proxyUrl ++ path) with
    | false => exact .inr rfl
    | true =>
      cases hsends : py.sends opts.timeout with
      | false => exact .inr rfl
      | true => exact absurd ⟨hkey, hurl, rfl, hsends⟩ h

/-- A poll of JavaScript's never ends the wait with an error of the configuration. -/
theorem typeScript_poll_ne_config (approvalId : Json) (x : Exchange) (told : Option Bool) :
    TypeScript.poll js opts approvalId x told ≠ some (.error (.typed .config)) := by
  unfold TypeScript.poll
  cases TypeScript.pollFetch js opts approvalId x with
  | error e => exact fun h => by cases h
  | ok res =>
    dsimp only
    split_ifs
    · cases hread : TypeScript.readBody js.parse res with
      | error e =>
        obtain ⟨f, rfl⟩ := TypeScript.readBody_error hread
        exact fun h => by cases h
      | ok body =>
        rw [andThen_ok]
        cases hinterpret : TypeScript.interpret js body with
        | none =>
          cases told with
          | none => exact fun h => by cases h
          | some ofPackage => exact fun h => by cases h
        | some ended =>
          intro h
          unfold TypeScript.interpret at hinterpret
          split_ifs at hinterpret
          · cases hinterpret
            cases h
          · obtain ⟨verdict, -, rfl⟩ := Option.map_eq_some_iff.1 hinterpret
            cases verdict with
            | upstreamError status data =>
              simp only [orTell, TypeScript.ofVerdict, TypeScript.upstreamError] at h
              split_ifs at h <;> cases h
            | _ => cases h
    · unfold TypeScript.proxyError TypeScript.readText
      cases res.text <;> exact fun h => by cases h

theorem not_sameOutcome_config {ended : Ended (Option Json)}
    (h : ended ≠ .error (.typed .config)) : ¬ SameOutcome (.error (.typed .config)) ended := by
  rcases ended with (e | _ | _) | _
  · cases e <;> first | exact absurd rfl h | exact id
  · exact id
  · exact id
  · exact id

/-- A reply whose body arrives reads alike. -/
theorem arrived_alike_iff {status : ℕ} {text : String} (told : Option Bool)
    (hstatus : 200 ≤ status ∧ status ≤ 299 ∨ 400 ≤ status ∧ status ≤ 599)
    (hbody : (Reply.mk status (.ok text)).ok = true → ∃ body, js.parse text = some (.obj body) ∧
      ∀ v, py.json text = .value v → v = .obj body) :
    Option.Rel SameOutcome
        (if 400 ≤ status then some (Python.proxyError ⟨status, text⟩)
          else andThen (Python.loadJson py text) (Python.pollBody told))
        (if (Reply.mk status (.ok text)).ok then
            andThen (TypeScript.readBody js.parse ⟨status, .ok text⟩) fun body =>
              orTell told (TypeScript.interpret js body)
          else some (TypeScript.proxyError ⟨status, .ok text⟩)) ↔
      ((Reply.mk status (.ok text)).ok = true → TextReadsAlike js py text) := by
  have hok : (Reply.mk status (.ok text)).ok = true ↔ 200 ≤ status ∧ status < 300 := Reply.ok_iff
  rcases hstatus with ⟨hlow, hhigh⟩ | ⟨hlow, -⟩
  · have hrange : (Reply.mk status (.ok text)).ok = true := hok.2 (by omega)
    obtain ⟨body, hparse, hvalue⟩ := hbody hrange
    have hread : TypeScript.readBody js.parse ⟨status, .ok text⟩ = .ok body :=
      TypeScript.readBody_eq_ok_iff.2 ⟨text, .obj body, rfl, hparse, rfl⟩
    have halike : TextReadsAlike js py text ↔ py.json text = .value (.obj body) ∧
        TypeScript.Presentable js body ∧ AnswerReadsAlike body := by
      constructor
      · exact fun h => h body hparse
      · intro h body' hparse'
        obtain rfl : body = body' := by
          have hsame := hparse.symm.trans hparse'
          cases hsame
          rfl
        exact h
    rw [if_pos hrange, if_neg (by omega), hread, andThen_ok, forall_prop_of_true hrange, halike]
    unfold Python.loadJson
    cases hjson : py.json text with
    | value v =>
      obtain rfl := hvalue v hjson
      rw [andThen_ok, and_iff_right rfl, ← interpretations_alike_iff]
      exact orTell_alike_iff (python_interpret_notCaller body)
        (typeScript_interpret_notCaller body) told
    | valueError => exact iff_of_false (not_rel_foreign _ _) fun h => by cases h.1
    | recursionError => exact iff_of_false (not_rel_foreign _ _) fun h => by cases h.1
  · have hrange : (Reply.mk status (.ok text)).ok = false := by
      rw [← Bool.not_eq_true, hok]
      omega
    rw [if_pos hlow, hrange]
    exact iff_of_true (.some rfl) fun h => by cases h

theorem rel_none_iff {verdict : Option (Ended (Option Json))} :
    Option.Rel SameOutcome none verdict ↔ verdict = none := by
  constructor
  · intro h
    cases h
    rfl
  · rintro rfl
    exact .none

theorem rel_none_iff' {verdict : Option (Ended (Option Json))} :
    Option.Rel SameOutcome verdict none ↔ verdict = none := by
  constructor
  · intro h
    cases h
    rfl
  · rintro rfl
    exact .none

theorem not_alike_of_not_sent {x : Exchange} {approvalId : String}
    (h : ¬ Python.Sent py opts (Python.approvalPath approvalId) (.ok ())) (told : Option Bool) :
    ¬ Option.Rel SameOutcome (Python.poll py opts approvalId x told)
      (TypeScript.poll js opts (.str approvalId) x told) := by
  intro hrel
  unfold Python.poll at hrel
  rcases python_refused h x with herror | herror
  · rw [herror] at hrel
    cases hpoll : TypeScript.poll js opts (.str approvalId) x told with
    | none =>
      rw [hpoll] at hrel
      cases hrel
    | some ended =>
      rw [hpoll] at hrel
      cases hrel with
      | some hsame =>
        refine not_sameOutcome_config (fun hconfig => ?_) hsame
        rw [hconfig] at hpoll
        exact typeScript_poll_ne_config _ x told hpoll
  · rw [herror] at hrel
    exact not_rel_foreign _ _ hrel

/-- With keys that sign, a poll reads alike if the reply that JavaScript gets does. -/
theorem sent_alike_iff {x : Exchange} (hx : InDomain js py x) {approvalId : String}
    (hsent : Python.Sent py opts (Python.approvalPath approvalId) (.ok ()))
    (hfit : opts.key.jose = .fit) (told : Option Bool) :
    Option.Rel SameOutcome (Python.poll py opts approvalId x told)
        (TypeScript.poll js opts (.str approvalId) x told) ↔
      ∀ res, Gives Reply.status x.first x.retry res →
        (Arrives x → res.ok = true → ∀ text, res.text = .ok text → TextReadsAlike js py text) ∧
        (¬ Arrives x → TypeScript.SaysPending js told res) := by
  have hreplies : ∀ res, TypeScript.RepliesAbout js opts (.str approvalId) x res ↔
      Gives Reply.status x.first x.retry res :=
    fun res => ⟨fun h => h.2.2, fun h => ⟨rfl, hfit, h⟩⟩
  by_cases harrives : Arrives x
  · obtain ⟨response, hresponse⟩ := harrives
    have hgives := gives_of_received hresponse
    have hpy : Python.authedRequest py opts (Python.approvalPath approvalId) (.ok ()) x =
        .ok response := Python.authedRequest_eq_ok_iff.2 ⟨hsent, hresponse⟩
    have hjs : TypeScript.pollFetch js opts (.str approvalId) x =
        .ok ⟨response.status, .ok response.text⟩ :=
      TypeScript.pollFetch_eq_ok_iff.2 ((hreplies _).2 hgives)
    have hreply : x.first = .ok ⟨response.status, .ok response.text⟩ ∨
        x.retry = .ok ⟨response.status, .ok response.text⟩ := by
      obtain ⟨r, hr, hres⟩ := hgives
      split_ifs at hres
      · exact .inr hres
      · exact .inl (hres ▸ hr)
    obtain ⟨hstatus, hbody⟩ := hx _ hreply
    unfold Python.poll TypeScript.poll
    rw [hpy, hjs]
    refine (arrived_alike_iff told hstatus fun hok => hbody hok _ rfl).trans ?_
    constructor
    · intro h res hres
      obtain rfl := hgives.unique hres
      refine ⟨fun _ hok text htext => ?_, fun hnot => absurd ⟨response, hresponse⟩ hnot⟩
      obtain rfl : response.text = text := Except.ok.inj htext
      exact h hok
    · exact fun h hok => (h _ hgives).1 ⟨response, hresponse⟩ hok _ rfl
  · have hnone : Python.poll py opts approvalId x told = none := by
      have hnetwork : Python.authedRequest py opts (Python.approvalPath approvalId) (.ok ()) x =
          .error (.typed .network) := by
        rcases Python.authedRequest_of_sent hsent x with herror | ⟨response, hok⟩
        · exact herror
        · exact absurd ⟨response, (Python.authedRequest_eq_ok_iff.1 hok).2⟩ harrives
      rw [Python.poll, hnetwork]
      rfl
    rw [hnone, rel_none_iff, TypeScript.poll_eq_none_iff]
    unfold TypeScript.PollPending
    refine forall_congr' fun res => ?_
    rw [hreplies]
    exact imp_congr_right fun _ =>
      ⟨fun h => ⟨fun harrives' => absurd harrives' harrives, fun _ => h⟩, fun h => h.2 harrives⟩

/-- A poll ends both waits alike, or neither, exactly if it reads alike. -/
theorem poll_alike_iff {x : Exchange} (hx : InDomain js py x) (approvalId : String)
    (told : Option Bool) :
    Option.Rel SameOutcome (Python.slept py opts (Python.poll py opts approvalId x told))
        (TypeScript.poll js opts (.str approvalId) x told) ↔
      PollReadsAlike js py opts approvalId x told := by
  unfold PollReadsAlike
  by_cases hsleeps : py.sleeps opts.approvalPoll = true
  swap
  · rw [Python.slept, if_neg hsleeps]
    exact iff_of_false (not_rel_foreign _ _) fun h => hsleeps h.1
  rw [and_iff_right hsleeps]
  have hslept : Python.slept py opts (Python.poll py opts approvalId x told) =
      Python.poll py opts approvalId x told := if_pos hsleeps
  by_cases hsent : Python.Sent py opts (Python.approvalPath approvalId) (.ok ())
  swap
  · rw [hslept]
    exact iff_of_false (not_alike_of_not_sent hsent told) fun h => hsent h.1
  rw [and_iff_right hsent]
  by_cases hfit : opts.key.jose = .fit
  · rw [if_pos hfit, hslept]
    exact sent_alike_iff hx hsent hfit told
  -- JavaScript waits on whatever comes, so Python has to as well
  · have hnone : TypeScript.poll js opts (.str approvalId) x told = none := by
      rw [TypeScript.poll_eq_none_iff]
      exact fun res hres => absurd hres.2.1 hfit
    rw [if_neg hfit, hnone, rel_none_iff', Python.poll_eq_none_iff]

/-- The waits of the two clients on the same answers: both end once the budget is spent, and they
end at one poll and alike exactly if every poll they get to reads alike, and a budget that is spent
is finite. -/
theorem python_client_parity (js : TypeScript.Runtime) (py : Python.Runtime) (opts : Options)
    (world : World) (hpolls : ∀ k, InDomain js py (world.polls k)) (approvalId : String)
    (ctx : TypeScript.WaitContext) (platform scope endpoint : String) :
    let budget := ctx.timeoutMs.getD opts.approvalTimeout
    let python := Python.waitForApproval py opts world approvalId
      ⟨platform, scope, endpoint, ctx.timeoutMs⟩
    let client := TypeScript.waitForApproval js opts world (.str approvalId) ctx
    let pending := fun k =>
      Python.PollPending py opts approvalId (world.polls k) (world.told k)
    ((∀ fuel, PollLoop.Agree SameOutcome (python.run fuel 0 []) (client.run fuel 0 [])) ↔
      PollsTame (within world.clock budget) pending
        (fun k => PollReadsAlike js py opts approvalId (world.polls k) (world.told k)) ∧
      (Lasts (within world.clock budget) pending → Python.Finite budget)) ∧
    (∀ n, within world.clock budget n = false →
      (python.run (n + 1) 0 []).isSome = true ∧ (client.run (n + 1) 0 []).isSome = true) := by
  intro budget python client pending
  have hrunning (k : ℕ) : python.running k = client.running k := rfl
  have hnone (k : ℕ) : python.poll k = none ↔ pending k :=
    Python.poll_eq_none_iff approvalId (world.polls k) (world.told k)
  have hpoll (k : ℕ) : Option.Rel SameOutcome (python.poll k) (client.poll k) ↔
      PollReadsAlike js py opts approvalId (world.polls k) (world.told k) :=
    poll_alike_iff (hpolls k) approvalId (world.told k)
  have hlate : SameOutcome python.late client.late ↔ Python.Finite budget := by
    change SameOutcome (Python.timedOut budget) (TypeScript.timedOut js (.str approvalId)) ↔ _
    have htext : TypeScript.hasText js (.str approvalId) = true := rfl
    rw [TypeScript.timedOut, if_pos htext]
    unfold Python.timedOut Python.Finite
    cases budget <;> simp [SameOutcome, SameError]
  constructor
  · rw [PollLoop.agree_iff hrunning]
    unfold PollLoop.Reaches PollLoop.RunsOut PollLoop.Passes PollsTame Lasts
    simp only [hnone, hpoll, hlate, and_imp]
    exact Iff.rfl
  · intro n hn
    exact ⟨python.run_start_isSome hn [], client.run_start_isSome hn []⟩

def waiting : Payload := [("status", .str "pending"), ("executed_at", .null)]

def done : Payload :=
  [("status", .str "approved"), ("executed_at", .str "2025-01-01T00:00:00.000Z"),
    ("result", .obj [("status", .num (.int 200)), ("data", .str "done")])]

/-- An engine that knows the two answers, and whose stack is never used up. -/
def approvalTexts : TypeScript.Runtime where
  parse text :=
    if text = "waiting" then some (.obj waiting)
    else if text = "done" then some (.obj done)
    else none
  stringifies _ := true
  joins _ := true

theorem parse_waiting : approvalTexts.parse "waiting" = some (.obj waiting) := by
  unfold approvalTexts
  simp

theorem parse_done : approvalTexts.parse "done" = some (.obj done) := by
  unfold approvalTexts
  simp

def approvalRuntime : Python.Runtime where
  loads _ := .valueError
  json text := ((approvalTexts.parse text).map Python.Loaded.value).getD .valueError
  str _ := ""
  acceptsUrl _ := true
  sends _ := true
  sleeps _ := true

def answered (text : String) : Exchange := ⟨.ok ⟨200, .ok text⟩, .ok ⟨200, .ok text⟩⟩

/-- An approval that is granted and executed between the first poll and the second. -/
def executedWorld : World where
  clock := steadyClock
  submit := answered "waiting"
  polls
    | 0 => answered "waiting"
    | _ + 1 => answered "done"
  told _ := none

def pollingOptions (jose : KeyState) (pyJwt : Bool) (budget : ℚ) : Options where
  key := ⟨jose, pyJwt⟩
  proxyUrl := "https://api.agentvalet.ai"
  timeout := .finite 15000
  approvalTimeout := .finite budget
  approvalPoll := .finite 2000

theorem waiting_readsAlike :
    TypeScript.Presentable approvalTexts waiting ∧ AnswerReadsAlike waiting := by
  refine ⟨⟨rfl, ?_, fun _ h => by cases h⟩, rfl, ?_, fun _ h => by cases h⟩
  · intro h
    cases h
  · intro h
    cases h

theorem done_readsAlike : TypeScript.Presentable approvalTexts done ∧ AnswerReadsAlike done := by
  have h200 : (JsonNumber.int 200).toDouble = .finite (200 : ℤ) :=
    JsonNumber.toDouble_int (by norm_num)
  have hout : outOfRange (some (.num (.int 200))) = some false := outOfRange_of_toDouble h200
  refine ⟨⟨rfl, ?_, fun _ _ _ => ⟨false, hout, fun h => by cases h⟩⟩, rfl, ?_, fun _ _ => ?_⟩
  · intro h
    cases h
  · intro h
    cases h
  · refine ⟨rfl, fun _ => ?_⟩
    refine ⟨[("status", .num (.int 200)), ("data", .str "done")], 200, rfl, rfl, ?_⟩
    rw [if_pos (by norm_num), ← outOfRange_eq_false_iff]
    exact ⟨hout, trivial⟩

theorem answered_inDomain {text : String} {body : Payload}
    (hparse : approvalTexts.parse text = some (.obj body)) :
    InDomain approvalTexts approvalRuntime (answered text) := by
  intro r hr
  obtain rfl : Reply.mk 200 (.ok text) = r := hr.elim Except.ok.inj Except.ok.inj
  refine ⟨.inl ⟨Nat.le_refl 200, by norm_num⟩, fun _ text' htext => ?_⟩
  obtain rfl : text = text' := Except.ok.inj htext
  refine ⟨body, hparse, fun v hv => ?_⟩
  change ((approvalTexts.parse text).map Python.Loaded.value).getD .valueError = .value v at hv
  rw [hparse] at hv
  exact (Python.Loaded.value.inj hv).symm

theorem answered_readsAlike {text : String} {body : Payload} {budget : ℚ}
    (hparse : approvalTexts.parse text = some (.obj body))
    (hreads : TypeScript.Presentable approvalTexts body ∧ AnswerReadsAlike body) :
    PollReadsAlike approvalTexts approvalRuntime (pollingOptions .fit true budget) "a1"
      (answered text) none := by
  have hfit : (pollingOptions .fit true budget).key.jose = .fit := rfl
  refine ⟨rfl, ⟨rfl, rfl, rfl, rfl⟩, ?_⟩
  rw [if_pos hfit]
  intro res hres
  have hgives : Gives Reply.status (answered text).first (answered text).retry
      ⟨200, .ok text⟩ := ⟨_, rfl, rfl⟩
  obtain rfl := hgives.unique hres
  refine ⟨fun _ _ text' htext => ?_, fun hnot => absurd ⟨⟨200, text⟩, _, rfl, rfl⟩ hnot⟩
  obtain rfl : text = text' := Except.ok.inj htext
  intro body' hparse'
  obtain rfl : body = body' := by
    have hsame := hparse.symm.trans hparse'
    cases hsame
    rfl
  refine ⟨?_, hreads⟩
  change ((approvalTexts.parse text).map Python.Loaded.value).getD .valueError = _
  rw [hparse]
  rfl

theorem granted_ends_alike :
    let opts := pollingOptions .fit true 50000
    let python := Python.waitForApproval approvalRuntime opts executedWorld "a1" ⟨"", "", "", none⟩
    let client := TypeScript.waitForApproval approvalTexts opts executedWorld (.str "a1")
      ⟨none, none, none, none⟩
    ∀ fuel, PollLoop.Agree SameOutcome (python.run fuel 0 []) (client.run fuel 0 []) := by
  have hdomain (k : ℕ) : InDomain approvalTexts approvalRuntime (executedWorld.polls k) := by
    cases k with
    | zero => exact answered_inDomain parse_waiting
    | succ k => exact answered_inDomain parse_done
  refine (python_client_parity approvalTexts approvalRuntime (pollingOptions .fit true 50000)
    executedWorld hdomain "a1" ⟨none, none, none, none⟩ "" "" "").1.2 ⟨?_, fun _ => ⟨_, rfl⟩⟩
  intro k _ _
  cases k with
  | zero => exact answered_readsAlike parse_waiting waiting_readsAlike
  | succ k => exact answered_readsAlike parse_done done_readsAlike

def unreachableWorld : World where
  clock := steadyClock
  submit := ⟨.error (.error "ECONNREFUSED"), .error (.error "ECONNREFUSED")⟩
  polls _ := ⟨.error (.error "ECONNREFUSED"), .error (.error "ECONNREFUSED")⟩
  told _ := none

theorem bad_key_ends_apart :
    let opts := pollingOptions .malformed false 2000
    let python := Python.waitForApproval approvalRuntime opts unreachableWorld "a1"
      ⟨"", "", "", none⟩
    let client := TypeScript.waitForApproval approvalTexts opts unreachableWorld (.str "a1")
      ⟨none, none, none, none⟩
    python.run 2 0 [] = some ⟨0, .error (.typed .config), []⟩ ∧
      client.run 2 0 [] = some ⟨1, .error (.typed .approvalTimeout), []⟩ ∧
      ¬ ∀ fuel, PollLoop.Agree SameOutcome (python.run fuel 0 []) (client.run fuel 0 []) := by
  intro opts python client
  have hhead (k : ℕ) : client.running k = decide ((2000 : ℚ) * k - 0 < 2000) := rfl
  have hrunning : client.running 0 = true := by simp [hhead]
  have hlate : client.running 1 = false := by simp [hhead]
  have hpy : python.run 2 0 [] = some ⟨0, .error (.typed .config), []⟩ :=
    python.run_of_decided hrunning rfl 1 []
  have hjs : client.run 2 0 [] = some ⟨1, .error (.typed .approvalTimeout), []⟩ := by
    rw [client.run_of_undecided hrunning rfl]
    exact client.run_of_late hlate 0 []
  refine ⟨hpy, hjs, fun h => ?_⟩
  have htwo := h 2
  rw [hpy, hjs] at htwo
  cases htwo with
  | some hsame => cases hsame.1

end AgentValet.Sdk
