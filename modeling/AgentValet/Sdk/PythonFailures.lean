import AgentValet.Sdk.Failures
import AgentValet.Sdk.Python

namespace AgentValet.Sdk.Python
open Base Lang Approvals

variable (rt : Runtime) (opts : Options)

/-- With a key that signs, the transport takes the address and, once the body is encoded, the
request; and the body is encoded, or throws an error of the package. -/
def Sendable (path : String) (encoded : Ended Unit) : Prop :=
  opts.key.pyJwt = true → rt.acceptsUrl (opts.proxyUrl ++ path) = true ∧ Typed encoded ∧
    (encoded = .ok () → rt.sends opts.timeout = true)

def Sent (path : String) (encoded : Ended Unit) : Prop :=
  opts.key.pyJwt = true ∧ rt.acceptsUrl (opts.proxyUrl ++ path) = true ∧ encoded = .ok () ∧
    rt.sends opts.timeout = true

def Replies (path : String) (encoded : Ended Unit) (x : Exchange) (response : Response) : Prop :=
  Sent rt opts path encoded ∧
    Gives Response.status (received x.first) (received x.retry) response

/-- What looks structured is not nested too deep. -/
def Parses (text : String) : Prop :=
  let trimmed := Lang.Python.strip text.toList
  trimmed.head? = some '\x7b' ∨ trimmed.head? = some '[' →
    rt.loads (String.ofList trimmed) ≠ .recursionError

def HasFields (text : String) (p : Payload → Prop) : Prop :=
  ∃ fields, rt.json text = .value (.obj fields) ∧ p fields

def AnswerTame (path : String) (x : Exchange) : Prop :=
  Sendable rt opts path (.ok ()) ∧ ∀ response, Replies rt opts path (.ok ()) x response →
    response.status < 400 → Parses rt response.text

/-- An executed result is an object, with a status that `int` takes. -/
def Presentable (payload : Payload) : Prop :=
  let status := Json.lookup payload "status"
  isStr status "denied" = false → isStr status "expired" = false →
    Lang.Python.truthy (Json.lookup payload "execution_error") = false →
    isStr status "approved" = true → pyExecuted payload = true →
      ∃ fields, Json.lookup payload "result" = some (.obj fields) ∧
        Lang.Python.int (PythonClient.upstreamStatus fields) ≠ none

/-- The response says that nothing is decided, and the callback returns. -/
def SaysPending (told : Option Bool) (response : Response) : Prop :=
  response.status < 400 ∧ HasFields rt response.text fun fields => Pending fields ∧ told = none

def PollPending (approvalId : String) (x : Exchange) (told : Option Bool) : Prop :=
  rt.sleeps opts.approvalPoll = true ∧ Sent rt opts (approvalPath approvalId) (.ok ()) ∧
    ∀ response, Replies rt opts (approvalPath approvalId) (.ok ()) x response →
      SaysPending rt told response

def PollTame (approvalId : String) (x : Exchange) (told : Option Bool) : Prop :=
  rt.sleeps opts.approvalPoll = true ∧ Sendable rt opts (approvalPath approvalId) (.ok ()) ∧
    ∀ response, Replies rt opts (approvalPath approvalId) (.ok ()) x response →
      response.status < 400 → HasFields rt response.text fun fields =>
        Presentable fields ∧ (Pending fields → CallbackTame told)

def Finite (budget : Double) : Prop := ∃ q, budget = .finite q

/-- Each poll that the wait comes to is tame, and a timeout can name the budget. -/
def WaitTame (world : World) (approvalId : String) (timeout : Double) : Prop :=
  PollsTame (within world.clock timeout)
    (fun k => PollPending rt opts approvalId (world.polls k) (world.told k))
    (fun k => PollTame rt opts approvalId (world.polls k) (world.told k)) ∧
  (Lasts (within world.clock timeout)
    (fun k => PollPending rt opts approvalId (world.polls k) (world.told k)) → Finite timeout)

def Names (text approvalId : String) : Prop :=
  approvalIdFrom202 rt text = .ok (some approvalId) ∧ approvalId ≠ ""

def encoded (data : Data) : Ended Unit :=
  match data with
  | none => .ok ()
  | some v => v.map fun _ => ()

def CallTame (world : World) (data : Data) (timeout : Double) : Prop :=
  Sendable rt opts "/v1/actions" (encoded data) ∧
    ∀ response, Replies rt opts "/v1/actions" (encoded data) world.submit response →
      (200 ≤ response.status ∧ response.status < 300 → Parses rt response.text) ∧
      ∀ approvalId, response.status = 202 → Names rt response.text approvalId →
        WaitTame rt opts world approvalId timeout

def Undecided (fields : Payload) : Prop :=
  isStr (Json.lookup fields "status") "approved" = false ∧
    isStr (Json.lookup fields "status") "denied" = false

def LookPending (token : Json) (x : Exchange) : Prop :=
  rt.sleeps opts.approvalPoll = true ∧ Sent rt opts (statusPath rt token) (.ok ()) ∧
    ∀ response, Replies rt opts (statusPath rt token) (.ok ()) x response →
      response.status < 400 → HasFields rt response.text Undecided

def LookTame (token : Json) (x : Exchange) : Prop :=
  rt.sleeps opts.approvalPoll = true ∧ Sendable rt opts (statusPath rt token) (.ok ()) ∧
    ∀ response, Replies rt opts (statusPath rt token) (.ok ()) x response →
      response.status < 400 → HasFields rt response.text fun _ => True

def Issues (response : Response) (token : Json) : Prop :=
  response.status < 400 ∧ HasFields rt response.text fun fields =>
    Json.lookup fields "request_token" = some token ∧ Lang.Python.truthy (some token) = true

/-- The reply is an object unless it is refused, and so is each look at the request after it. -/
def AccessTame (world : World) (timeout : Double) : Prop :=
  Sendable rt opts "/v1/access-request" (.ok ()) ∧
    ∀ response, Replies rt opts "/v1/access-request" (.ok ()) world.submit response →
      (response.status < 400 → HasFields rt response.text fun _ => True) ∧
      ∀ token, Issues rt response token →
        PollsTame (within world.clock timeout)
          (fun k => LookPending rt opts token (world.polls k))
          (fun k => LookTame rt opts token (world.polls k))

def budget : Method → Double
  | .call req => req.approvalTimeout.getD opts.approvalTimeout
  | .waitForApproval _ ctx => ctx.timeout.getD opts.approvalTimeout
  | .requestAccess timeout => timeout.getD opts.approvalTimeout
  | .evaluate => .finite 0
  | .listPlatforms => .finite 0
  | .pendingActions => .finite 0

/-- The exchanges on which a method throws nothing but errors of the package. -/
def Tame (world : World) (m : Method) : Prop :=
  match m with
  | .call req => CallTame rt opts world req.data (budget opts m)
  | .waitForApproval approvalId _ => WaitTame rt opts world approvalId (budget opts m)
  | .requestAccess _ => AccessTame rt opts world (budget opts m)
  | .evaluate => AnswerTame rt opts "/v1/authzen/access" world.submit
  | .listPlatforms => AnswerTame rt opts "/v1/agent/permissions" world.submit
  | .pendingActions => AnswerTame rt opts "/v1/agents/me/pending-actions" world.submit

variable {rt opts}

theorem once_eq_received {path : String} {encoded : Ended Unit} (h : Sent rt opts path encoded)
    (sent : Except Lang.Thrown Reply) : once rt opts path encoded sent = received sent := by
  obtain ⟨hkey, hurl, rfl, hsends⟩ := h
  simp [once, hkey, hurl, hsends]

theorem Sent.sendable {path : String} {encoded : Ended Unit} (h : Sent rt opts path encoded) :
    Sendable rt opts path encoded := by
  obtain ⟨-, hurl, rfl, hsends⟩ := h
  exact fun _ => ⟨hurl, trivial, fun _ => hsends⟩

/-- A request that is not sent fails at once, and not for the network unless its body does. -/
theorem once_of_not_sent {path : String} {encoded : Ended Unit} (h : ¬ Sent rt opts path encoded) :
    ∃ e, (∀ sent, once rt opts path encoded sent = .error e) ∧
      (Typed (.error e : Ended Response) ↔ Sendable rt opts path encoded) ∧
      (encoded = .ok () → e ≠ .typed .network) := by
  unfold once Sendable
  cases hkey : opts.key.pyJwt with
  | false => exact ⟨.typed .config, fun _ => rfl, by simp, fun _ => by simp⟩
  | true =>
    cases hurl : rt.acceptsUrl (opts.proxyUrl ++ path) with
    | false => exact ⟨.foreign .request, fun _ => rfl, by simp, fun _ => by simp⟩
    | true =>
      cases hencoded : encoded with
      | error e =>
        refine ⟨e, fun _ => rfl, ?_, fun h => by cases h⟩
        exact typed_error_iff.trans ⟨fun h _ => ⟨rfl, h, fun h => by cases h⟩, fun h => (h rfl).2.1⟩
      | ok _ =>
        cases hsends : rt.sends opts.timeout with
        | false => exact ⟨.foreign .request, fun _ => rfl, by simp, fun _ => by simp⟩
        | true => exact absurd ⟨hkey, hurl, hencoded, hsends⟩ h

theorem authedRequest_of_not_sent {path : String} {encoded : Ended Unit}
    (h : ¬ Sent rt opts path encoded) (x : Exchange) :
    ∃ e, authedRequest rt opts path encoded x = .error e ∧
      (Typed (.error e : Ended Response) ↔ Sendable rt opts path encoded) ∧
      (encoded = .ok () → e ≠ .typed .network) := by
  obtain ⟨e, honce, htyped, hnetwork⟩ := once_of_not_sent h
  refine ⟨e, ?_, htyped, hnetwork⟩
  rw [authedRequest, honce, Fallible.error_bind]

theorem received_error {sent : Except Lang.Thrown Reply} {e : Thrown}
    (h : received sent = .error e) : e = .typed .network := by
  unfold received at h
  rcases sent with message | ⟨status, message | text⟩
  · exact (Except.error.inj h).symm
  · exact (Except.error.inj h).symm
  · cases h

/-- A request that is sent gives a reply, or else fails on the way. -/
theorem authedRequest_of_sent {path : String} {encoded : Ended Unit}
    (h : Sent rt opts path encoded) (x : Exchange) :
    authedRequest rt opts path encoded x = .error (.typed .network) ∨
      ∃ response, authedRequest rt opts path encoded x = .ok response := by
  unfold authedRequest
  simp only [once_eq_received h]
  cases hfirst : received x.first with
  | error e =>
    rw [received_error hfirst]
    exact .inl rfl
  | ok response =>
    rw [Fallible.ok_bind]
    split_ifs
    · cases hretry : received x.retry with
      | error e =>
        rw [received_error hretry]
        exact .inl rfl
      | ok response' => exact .inr ⟨response', rfl⟩
    · exact .inr ⟨response, rfl⟩

theorem authedRequest_eq_ok_iff {path : String} {encoded : Ended Unit} {x : Exchange}
    {response : Response} :
    authedRequest rt opts path encoded x = .ok response ↔
      Replies rt opts path encoded x response := by
  unfold Replies Gives
  by_cases h : Sent rt opts path encoded
  · rw [and_iff_right h]
    unfold authedRequest
    simp only [once_eq_received h]
    rw [Fallible.bind_eq_ok]
    refine exists_congr fun r => and_congr_right fun _ => ?_
    by_cases h401 : r.status = 401
    · rw [if_pos h401, if_pos h401]
    · rw [if_neg h401, if_neg h401]
      exact Fallible.pure_eq_ok.trans eq_comm
  · refine iff_of_false (fun hok => ?_) fun hreplies => h hreplies.1
    obtain ⟨e, herror, -⟩ := authedRequest_of_not_sent h x
    cases herror.symm.trans hok

/-- What is made of a request is in order if its error is typed, or what is made of its reply is. -/
theorem authedRequest_iff (Q : Ended Response → Prop)
    (hQ : ∀ e, Q (.error e) ↔ Typed (.error e : Ended Response)) (path : String)
    (encoded : Ended Unit) (x : Exchange) :
    Q (authedRequest rt opts path encoded x) ↔ Sendable rt opts path encoded ∧
      ∀ response, Replies rt opts path encoded x response → Q (.ok response) := by
  simp only [← authedRequest_eq_ok_iff]
  by_cases h : Sent rt opts path encoded
  · rcases authedRequest_of_sent h x with herror | ⟨response, hok⟩
    · rw [herror]
      exact iff_of_true ((hQ _).2 trivial) ⟨h.sendable, nofun⟩
    · rw [hok]
      constructor
      · intro hresponse
        refine ⟨h.sendable, fun response' hresponse' => ?_⟩
        cases hresponse'
        exact hresponse
      · exact fun hall => hall.2 response rfl
  · obtain ⟨e, herror, htyped, -⟩ := authedRequest_of_not_sent h x
    rw [herror, hQ, htyped]
    exact ⟨fun hsendable => ⟨hsendable, nofun⟩, fun hall => hall.1⟩

theorem authedRequest_bind_typed_iff {α : Type} (path : String) (encoded : Ended Unit)
    (x : Exchange) (f : Response → Ended α) :
    Typed (authedRequest rt opts path encoded x >>= f) ↔ Sendable rt opts path encoded ∧
      ∀ response, Replies rt opts path encoded x response → Typed (f response) :=
  authedRequest_iff (fun r => Typed (r >>= f)) (fun _ => typed_error_iff) path encoded x

theorem transient_eq_none_iff {α : Type} (path : String) (x : Exchange)
    (k : Response → Option (Ended α)) :
    transient (authedRequest rt opts path (.ok ()) x) k = none ↔ Sent rt opts path (.ok ()) ∧
      ∀ response, Replies rt opts path (.ok ()) x response → k response = none := by
  simp only [← authedRequest_eq_ok_iff]
  by_cases h : Sent rt opts path (.ok ())
  · rw [and_iff_right h]
    rcases authedRequest_of_sent h x with herror | ⟨response, hok⟩
    · rw [herror]
      exact iff_of_true rfl nofun
    · rw [hok]
      constructor
      · intro hnone response' hresponse'
        cases hresponse'
        exact hnone
      · exact fun hnone => hnone response rfl
  · refine iff_of_false (fun hnone => ?_) fun hsent => h hsent.1
    obtain ⟨e, herror, -, hnetwork⟩ := authedRequest_of_not_sent h x
    rw [herror] at hnone
    unfold transient at hnone
    split at hnone
    · exact hnetwork rfl (Except.error.inj ‹_›)
    · cases hnone
    · cases ‹Except.error e = Except.ok _›

theorem transient_error_typed_iff {α : Type} (e : Thrown) (k : Response → Option (Ended α)) :
    AllTyped (transient (.error e) k) ↔ Typed (.error e : Ended Response) := by
  unfold transient
  split
  · cases ‹Except.error e = _›
    exact iff_of_true allTyped_none trivial
  · cases ‹Except.error e = _›
    exact allTyped_some.trans typed_error_iff
  · cases ‹Except.error e = _›

theorem transient_typed_iff {α : Type} (path : String) (x : Exchange)
    (k : Response → Option (Ended α)) :
    AllTyped (transient (authedRequest rt opts path (.ok ()) x) k) ↔
      Sendable rt opts path (.ok ()) ∧
        ∀ response, Replies rt opts path (.ok ()) x response → AllTyped (k response) :=
  authedRequest_iff (fun r => AllTyped (transient r k)) (fun e => transient_error_typed_iff e k)
    path (.ok ()) x

theorem slept_eq_none_iff {α : Type} {poll : Option (Ended α)} :
    slept rt opts poll = none ↔ rt.sleeps opts.approvalPoll = true ∧ poll = none := by
  unfold slept
  split <;> simp [*]

theorem slept_typed_iff {α : Type} {poll : Option (Ended α)} :
    AllTyped (slept rt opts poll) ↔ rt.sleeps opts.approvalPoll = true ∧ AllTyped poll := by
  unfold slept
  split <;> simp [*]

theorem tryParseJson_typed_iff (text : String) : Typed (tryParseJson rt text) ↔ Parses rt text := by
  unfold tryParseJson Parses
  dsimp only
  by_cases hstructured : (Lang.Python.strip text.toList).head? = some '\x7b' ∨
      (Lang.Python.strip text.toList).head? = some '['
  · rw [if_pos (by simpa using hstructured)]
    cases hloads : rt.loads (String.ofList (Lang.Python.strip text.toList)) with
    | value v => exact iff_of_true trivial fun _ => nofun
    | valueError => exact iff_of_true trivial fun _ => nofun
    | recursionError => exact iff_of_false id fun h => h hstructured rfl
  · rw [if_neg (by simpa using hstructured)]
    exact iff_of_true trivial fun h => absurd h hstructured

theorem answer_typed_iff (path : String) (x : Exchange) :
    Typed (answer rt opts path x) ↔ AnswerTame rt opts path x := by
  have hreply : ∀ response : Response,
      Typed (if 400 ≤ response.status then proxyError response
        else tryParseJson rt response.text) ↔
      (response.status < 400 → Parses rt response.text) := by
    intro response
    by_cases h : 400 ≤ response.status
    · rw [if_pos h]
      exact iff_of_true trivial fun hlow => absurd h (by omega)
    · have hlow : response.status < 400 := by omega
      rw [if_neg h, tryParseJson_typed_iff]
      exact ⟨fun hparses _ => hparses, fun hparses => hparses hlow⟩
  refine (authedRequest_bind_typed_iff path (.ok ()) x _).trans ?_
  simp only [hreply]
  exact Iff.rfl

theorem loadJson_eq_ok_iff {text : String} {v : Json} :
    loadJson rt text = .ok v ↔ rt.json text = .value v := by
  unfold loadJson
  cases rt.json text <;> simp

/-- What is asked of a text that has to be an object is asked of its fields. -/
theorem loadJson_andThen_iff {α : Type} (Q : Option (Ended α) → Prop)
    (hQ : ∀ e, ¬ Q (some (.error (.foreign e)))) {text : String} {g : Json → Option (Ended α)}
    (hg : ∀ v, (∀ fields, v ≠ .obj fields) → g v = some (.error (.foreign .type))) :
    Q (andThen (loadJson rt text) g) ↔ HasFields rt text fun fields => Q (g (.obj fields)) := by
  unfold loadJson HasFields
  cases hloads : rt.json text with
  | value v =>
    by_cases hobj : ∃ fields, v = .obj fields
    · obtain ⟨fields, rfl⟩ := hobj
      constructor
      · exact fun h => ⟨fields, rfl, h⟩
      · rintro ⟨fields', heq, h⟩
        cases heq
        exact h
    · rw [andThen_ok, hg v fun fields h => hobj ⟨fields, h⟩]
      refine iff_of_false (hQ _) ?_
      rintro ⟨fields, heq, -⟩
      exact hobj ⟨fields, Python.Loaded.value.inj heq⟩
  | valueError => exact iff_of_false (hQ _) nofun
  | recursionError => exact iff_of_false (hQ _) nofun

theorem typed_resultEnded_iff (result : Option Json) :
    Typed (ofEnded (PythonClient.resultEnded result)) ↔
      ∃ fields, result = some (.obj fields) ∧
        Lang.Python.int (PythonClient.upstreamStatus fields) ≠ none := by
  by_cases hobj : ∃ fields, result = some (.obj fields)
  · obtain ⟨fields, rfl⟩ := hobj
    cases hstatus : Lang.Python.int (PythonClient.upstreamStatus fields) with
    | none =>
      apply iff_of_false
      · simp [PythonClient.resultEnded, hstatus, ofEnded]
      · rintro ⟨fields', heq, hint⟩
        cases heq
        exact hint hstatus
    | some n =>
      refine iff_of_true ?_ ⟨fields, rfl, by simp [hstatus]⟩
      simp only [PythonClient.resultEnded, hstatus]
      split_ifs <;> exact trivial
  · apply iff_of_false
    · cases result with
      | none => exact id
      | some v =>
        cases v with
        | obj fields => exact absurd ⟨fields, rfl⟩ hobj
        | _ => exact id
    · rintro ⟨fields, heq, -⟩
      exact hobj ⟨fields, heq⟩

theorem interpretApprovalStatus_typed_iff (payload : Payload) :
    AllTyped (interpret payload) ↔ Presentable payload := by
  have hresult := typed_resultEnded_iff (Json.lookup payload "result")
  unfold interpret Presentable
  rw [interpretApprovalStatus_eq]
  dsimp only
  split_ifs with hdenied hexpired herror hexecuted
  · exact iff_of_true (allTyped_some.2 trivial) fun h => absurd hdenied (by simp [h])
  · exact iff_of_true (allTyped_some.2 trivial) fun _ h => absurd hexpired (by simp [h])
  · exact iff_of_true (allTyped_some.2 trivial) fun _ _ h => absurd herror (by simp [h])
  · rw [Bool.and_eq_true] at hexecuted
    refine (allTyped_some.trans hresult).trans ⟨fun h _ _ _ _ _ => h, fun h => ?_⟩
    exact h (by simpa using hdenied) (by simpa using hexpired) (by simpa using herror)
      hexecuted.1 hexecuted.2
  · refine iff_of_true allTyped_none fun _ _ _ happroved hpy => ?_
    rw [happroved, hpy] at hexecuted
    exact absurd rfl hexecuted

theorem interpret_eq_none_iff (payload : Payload) : interpret payload = none ↔ Pending payload :=
  Option.map_eq_none_iff.trans (pending_iff payload)

theorem pollBody_of_not_object (told : Option Bool) (v : Json) (h : ∀ fields, v ≠ .obj fields) :
    pollBody told v = some (.error (.foreign .type)) := by
  cases v with
  | obj fields => exact absurd rfl (h fields)
  | null => rfl
  | bool b => rfl
  | num n => rfl
  | str s => rfl
  | arr items => rfl

theorem poll_eq_none_iff (approvalId : String) (x : Exchange) (told : Option Bool) :
    slept rt opts (poll rt opts approvalId x told) = none ↔
      PollPending rt opts approvalId x told := by
  refine slept_eq_none_iff.trans (and_congr_right fun _ => ?_)
  refine (transient_eq_none_iff (approvalPath approvalId) x _).trans (and_congr_right fun _ => ?_)
  refine forall_congr' fun response => imp_congr_right fun _ => ?_
  have hbody : andThen (loadJson rt response.text) (pollBody told) = none ↔
      HasFields rt response.text fun fields => Pending fields ∧ told = none := by
    simp only [← interpret_eq_none_iff, ← orTell_eq_none_iff]
    exact loadJson_andThen_iff (fun y => y = none) (fun _ => Option.some_ne_none _)
      (pollBody_of_not_object told)
  unfold SaysPending
  by_cases h : 400 ≤ response.status
  · rw [if_pos h]
    exact iff_of_false (Option.some_ne_none _) fun hpending => by omega
  · rw [if_neg h, hbody]
    exact (and_iff_right (by omega)).symm

theorem poll_typed_iff (approvalId : String) (x : Exchange) (told : Option Bool) :
    AllTyped (slept rt opts (poll rt opts approvalId x told)) ↔
      PollTame rt opts approvalId x told := by
  refine slept_typed_iff.trans (and_congr_right fun _ => ?_)
  refine (transient_typed_iff (approvalPath approvalId) x _).trans (and_congr_right fun _ => ?_)
  refine forall_congr' fun response => imp_congr_right fun _ => ?_
  have hbody : AllTyped (andThen (loadJson rt response.text) (pollBody told)) ↔
      HasFields rt response.text fun fields =>
        Presentable fields ∧ (Pending fields → CallbackTame told) := by
    simp only [← interpretApprovalStatus_typed_iff, ← interpret_eq_none_iff,
      ← allTyped_orTell_iff]
    exact loadJson_andThen_iff AllTyped (fun _ h => allTyped_some.1 h) (pollBody_of_not_object told)
  by_cases h : 400 ≤ response.status
  · rw [if_pos h]
    exact iff_of_true (allTyped_some.2 trivial) fun hlow => absurd h (by omega)
  · have hlow : response.status < 400 := by omega
    rw [if_neg h]
    exact hbody.trans ⟨fun hfields _ => hfields, fun hfields => hfields hlow⟩

theorem get_of_not_object {v : Json} (h : ∀ fields, v ≠ .obj fields) (key : String) :
    get v key = .error (.foreign .type) := by
  cases v with
  | obj fields => exact absurd rfl (h fields)
  | null => rfl
  | bool b => rfl
  | num n => rfl
  | str s => rfl
  | arr items => rfl

theorem accessStatus_of_not_object (v : Json) (h : ∀ fields, v ≠ .obj fields) :
    accessStatus v = some (.error (.foreign .type)) := by
  rw [accessStatus, get_of_not_object h, andThen_error]

theorem accessPoll_eq_none_iff (token : Json) (x : Exchange) :
    slept rt opts (accessPoll rt opts token x) = none ↔ LookPending rt opts token x := by
  refine slept_eq_none_iff.trans (and_congr_right fun _ => ?_)
  refine (transient_eq_none_iff (statusPath rt token) x _).trans (and_congr_right fun _ => ?_)
  refine forall_congr' fun response => imp_congr_right fun _ => ?_
  have hundecided : ∀ fields, accessStatus (.obj fields) = none ↔ Undecided fields := by
    intro fields
    unfold accessStatus Undecided
    simp only [get, andThen_ok]
    cases isStr (Json.lookup fields "status") "approved" <;>
      cases isStr (Json.lookup fields "status") "denied" <;> simp
  have hbody : andThen (loadJson rt response.text) accessStatus = none ↔
      HasFields rt response.text Undecided := by
    rw [show Undecided = fun fields => accessStatus (.obj fields) = none from
      funext fun fields => propext (hundecided fields).symm]
    exact loadJson_andThen_iff (fun y => y = none) (fun _ => Option.some_ne_none _)
      accessStatus_of_not_object
  by_cases h : 400 ≤ response.status
  · rw [if_pos h]
    exact iff_of_true rfl fun hlow => absurd h (by omega)
  · have hlow : response.status < 400 := by omega
    rw [if_neg h]
    exact hbody.trans ⟨fun hfields _ => hfields, fun hfields => hfields hlow⟩

theorem accessPoll_typed_iff (token : Json) (x : Exchange) :
    AllTyped (slept rt opts (accessPoll rt opts token x)) ↔ LookTame rt opts token x := by
  refine slept_typed_iff.trans (and_congr_right fun _ => ?_)
  refine (transient_typed_iff (statusPath rt token) x _).trans (and_congr_right fun _ => ?_)
  refine forall_congr' fun response => imp_congr_right fun _ => ?_
  have htyped : ∀ fields, AllTyped (accessStatus (.obj fields)) ↔ True := by
    intro fields
    unfold accessStatus
    simp only [get, andThen_ok]
    split_ifs <;> simp
  have hbody : AllTyped (andThen (loadJson rt response.text) accessStatus) ↔
      HasFields rt response.text fun _ => True := by
    rw [show (fun _ : Payload => True) = fun fields => AllTyped (accessStatus (.obj fields)) from
      funext fun fields => propext (htyped fields).symm]
    exact loadJson_andThen_iff AllTyped (fun _ h => allTyped_some.1 h) accessStatus_of_not_object
  by_cases h : 400 ≤ response.status
  · rw [if_pos h]
    exact iff_of_true allTyped_none fun hlow => absurd h (by omega)
  · have hlow : response.status < 400 := by omega
    rw [if_neg h]
    exact hbody.trans ⟨fun hfields _ => hfields, fun hfields => hfields hlow⟩

theorem timedOut_typed_iff (budget : Double) : Typed (timedOut budget) ↔ Finite budget := by
  unfold timedOut Finite
  cases budget <;> simp

theorem waitForApproval_typed_iff (world : World) (approvalId : String) (ctx : WaitContext) :
    FailsTyped (within world.clock (ctx.timeout.getD opts.approvalTimeout))
        (fun fuel => finish (waitForApproval rt opts world approvalId ctx) .waited fuel []) ↔
      WaitTame rt opts world approvalId (ctx.timeout.getD opts.approvalTimeout) := by
  refine (failsTyped_finish_iff
    (fun k => poll_eq_none_iff approvalId (world.polls k) (world.told k))
    (fun k => poll_typed_iff approvalId (world.polls k) (world.told k)) .waited []).trans ?_
  exact and_congr_right fun _ => imp_congr_right fun _ => timedOut_typed_iff _

theorem approvalIdFrom202_typed_iff (text : String) :
    Typed (approvalIdFrom202 rt text) ↔ Parses rt text := by
  rw [← tryParseJson_typed_iff]
  unfold approvalIdFrom202
  cases tryParseJson rt text with
  | error e => exact typed_error_iff
  | ok v =>
    rw [Fallible.ok_bind]
    split <;> exact Iff.rfl

theorem callReply_typed_iff (req : CallRequest) (response : Response) :
    Typed (callReply rt req response) ↔
      (200 ≤ response.status ∧ response.status < 300 → Parses rt response.text) := by
  have hvalue : Typed (interpretActionResponse rt req response) ↔
      (200 ≤ response.status ∧ response.status < 300 → Parses rt response.text) := by
    unfold interpretActionResponse
    split_ifs with h403 hrange
    · exact iff_of_true trivial fun h => by omega
    · rw [tryParseJson_typed_iff]
      exact ⟨fun h _ => h, fun h => h hrange⟩
    · exact iff_of_true trivial fun h => absurd h hrange
  have hread : Typed (interpretActionResponse rt req response >>= fun v =>
      pure (Reading.value v) : Ended (Reading String)) ↔
      Typed (interpretActionResponse rt req response) := by
    cases interpretActionResponse rt req response with
    | error e => exact typed_error_iff
    | ok v => exact Iff.rfl
  unfold callReply
  by_cases h202 : response.status = 202
  · have hparses : (200 ≤ response.status ∧ response.status < 300 → Parses rt response.text) ↔
        Typed (approvalIdFrom202 rt response.text) := by
      rw [approvalIdFrom202_typed_iff]
      exact ⟨fun h => h (by omega), fun h _ => h⟩
    rw [if_pos h202]
    cases hid : approvalIdFrom202 rt response.text with
    | error e =>
      rw [hid] at hparses
      exact typed_error_iff.trans hparses.symm
    | ok id =>
      rw [hid] at hparses
      rw [Fallible.ok_bind]
      dsimp only
      split
      · exact iff_of_true trivial (hparses.2 trivial)
      · exact hread.trans hvalue
  · rw [if_neg h202]
    exact hread.trans hvalue

theorem callReply_eq_wait_iff {req : CallRequest} {response : Response} {approvalId : String} :
    callReply rt req response = .ok (.wait approvalId) ↔
      response.status = 202 ∧ Names rt response.text approvalId := by
  have hvalue : (interpretActionResponse rt req response >>= fun v =>
      pure (Reading.value v) : Ended (Reading String)) ≠ .ok (.wait approvalId) := by
    cases interpretActionResponse rt req response <;> exact nofun
  unfold callReply Names
  by_cases h202 : response.status = 202
  · rw [if_pos h202, and_iff_right h202]
    cases hid : approvalIdFrom202 rt response.text with
    | error e => exact iff_of_false nofun nofun
    | ok id =>
      rw [Fallible.ok_bind]
      dsimp only
      cases hfilter : id.filter (· ≠ "") with
      | some id' =>
        rw [Option.filter_eq_some_iff, decide_eq_true_eq] at hfilter
        obtain ⟨rfl, hne⟩ := hfilter
        constructor
        · intro h
          cases h
          exact ⟨rfl, hne⟩
        · rintro ⟨h, -⟩
          cases h
          rfl
      | none =>
        refine iff_of_false hvalue ?_
        rintro ⟨h, hne⟩
        cases h
        rw [Option.filter_some, if_pos (decide_eq_true hne)] at hfilter
        cases hfilter
  · rw [if_neg h202]
    exact iff_of_false hvalue fun h => h202 h.1

theorem CallRequest.body_encoded (req : CallRequest) :
    (req.body.map fun _ => ()) = encoded req.data := by
  unfold CallRequest.body encoded actionBody
  rcases req.data with _ | (e | v) <;> rfl

theorem call_typed_iff (world : World) (req : CallRequest) :
    FailsTyped (within world.clock (req.approvalTimeout.getD opts.approvalTimeout))
        (call rt opts world req) ↔
      CallTame rt opts world req.data (req.approvalTimeout.getD opts.approvalTimeout) := by
  have hloop : ∀ approvalId, _ ↔ WaitTame rt opts world approvalId _ := fun approvalId =>
    waitForApproval_typed_iff world approvalId (waitContext req)
  refine (failsTyped_reading _ _ fun fuel approvalId =>
    finish (waitForApproval rt opts world approvalId (waitContext req)) .waited fuel []).trans ?_
  unfold act
  rw [req.body_encoded, authedRequest_bind_typed_iff]
  simp only [callReply_typed_iff, Fallible.bind_eq_ok, authedRequest_eq_ok_iff,
    callReply_eq_wait_iff]
  unfold CallTame
  constructor
  · rintro ⟨⟨hsendable, hreply⟩, hwait⟩
    refine ⟨hsendable, fun response hresponse => ⟨hreply response hresponse, ?_⟩⟩
    intro approvalId h202 hnames
    exact (hloop approvalId).1 (hwait approvalId ⟨response, hresponse, h202, hnames⟩)
  · rintro ⟨hsendable, h⟩
    refine ⟨⟨hsendable, fun response hresponse => (h response hresponse).1⟩, ?_⟩
    rintro approvalId ⟨response, hresponse, h202, hnames⟩
    exact (hloop approvalId).2 ((h response hresponse).2 approvalId h202 hnames)

/-- A reply that is not refused has to be an object, which then names the token or not. -/
theorem accessReply_typed_iff (response : Response) :
    Typed (accessReply rt response) ↔
      (response.status < 400 → HasFields rt response.text fun _ => True) := by
  unfold accessReply
  by_cases h : 400 ≤ response.status
  · rw [if_pos h]
    exact iff_of_true trivial fun hlow => absurd h (by omega)
  · have hlow : response.status < 400 := by omega
    rw [if_neg h]
    unfold loadJson HasFields
    cases hloads : rt.json response.text with
    | value v =>
      by_cases hobj : ∃ fields, v = .obj fields
      · obtain ⟨fields, rfl⟩ := hobj
        refine iff_of_true ?_ fun _ => ⟨fields, rfl, trivial⟩
        simp only [get, Fallible.ok_bind]
        split <;> simp [pure, Except.pure]
      · rw [Fallible.ok_bind, get_of_not_object fun fields h => hobj ⟨fields, h⟩]
        refine iff_of_false id fun hfields => ?_
        obtain ⟨fields, heq, -⟩ := hfields hlow
        exact hobj ⟨fields, Python.Loaded.value.inj heq⟩
    | valueError =>
      refine iff_of_false id fun hfields => ?_
      obtain ⟨fields, heq, -⟩ := hfields hlow
      cases heq
    | recursionError =>
      refine iff_of_false id fun hfields => ?_
      obtain ⟨fields, heq, -⟩ := hfields hlow
      cases heq

theorem accessReply_eq_ok_iff {response : Response} {token : Json} :
    accessReply rt response = .ok token ↔ Issues rt response token := by
  unfold accessReply Issues
  by_cases h : 400 ≤ response.status
  · rw [if_pos h]
    exact iff_of_false nofun fun hissues => by omega
  · have hlow : response.status < 400 := by omega
    rw [if_neg h, and_iff_right hlow, Fallible.bind_eq_ok]
    unfold HasFields
    constructor
    · rintro ⟨v, hload, hrest⟩
      obtain ⟨found, hget, htoken⟩ := Fallible.bind_eq_ok.1 hrest
      by_cases hobj : ∃ fields, v = .obj fields
      · obtain ⟨fields, rfl⟩ := hobj
        cases hget
        refine ⟨fields, loadJson_eq_ok_iff.1 hload, ?_⟩
        cases hfilter : (Json.lookup fields "request_token").filter fun t =>
            Lang.Python.truthy (some t) with
        | none =>
          rw [hfilter] at htoken
          cases htoken
        | some t =>
          rw [hfilter] at htoken
          cases htoken
          exact Option.filter_eq_some_iff.1 hfilter
      · rw [get_of_not_object fun fields h => hobj ⟨fields, h⟩] at hget
        cases hget
    · rintro ⟨fields, hloads, hlookup, htruthy⟩
      refine ⟨.obj fields, by rw [loadJson, hloads], ?_⟩
      rw [get, Fallible.ok_bind, hlookup, Option.filter_some, if_pos htruthy]
      rfl

theorem requestAccess_typed_iff (world : World) (timeout : Option Double) :
    FailsTyped (within world.clock (timeout.getD opts.approvalTimeout))
        (requestAccess rt opts world timeout) ↔
      AccessTame rt opts world (timeout.getD opts.approvalTimeout) := by
  have hloop : ∀ token, FailsTyped (within world.clock (timeout.getD opts.approvalTimeout))
      (fun fuel => finish (accessLoop rt opts world token timeout) (.access · token) fuel ()) ↔
      PollsTame (within world.clock (timeout.getD opts.approvalTimeout))
        (fun k => LookPending rt opts token (world.polls k))
        (fun k => LookTame rt opts token (world.polls k)) := by
    intro token
    refine (failsTyped_finish_iff (fun k => accessPoll_eq_none_iff token (world.polls k))
      (fun k => accessPoll_typed_iff token (world.polls k)) (.access · token) ()).trans ?_
    exact and_iff_left fun _ => trivial
  have hsubmit : Typed (submitted rt opts world.submit) ↔
      Sendable rt opts "/v1/access-request" (.ok ()) ∧
      ∀ response, Replies rt opts "/v1/access-request" (.ok ()) world.submit response →
        response.status < 400 → HasFields rt response.text fun _ => True := by
    refine (authedRequest_bind_typed_iff _ _ _ _).trans ?_
    simp only [accessReply_typed_iff]
  have htoken : ∀ token, submitted rt opts world.submit = .ok token ↔
      ∃ response, Replies rt opts "/v1/access-request" (.ok ()) world.submit response ∧
        Issues rt response token := by
    intro token
    unfold submitted
    rw [Fallible.bind_eq_ok]
    simp only [authedRequest_eq_ok_iff, accessReply_eq_ok_iff]
  refine (failsTyped_andThen _ (submitted rt opts world.submit) fun token fuel =>
    finish (accessLoop rt opts world token timeout) (.access · token) fuel ()).trans ?_
  rw [hsubmit]
  simp only [htoken, hloop]
  unfold AccessTame
  constructor
  · rintro ⟨⟨hsendable, hreply⟩, hpolls⟩
    refine ⟨hsendable, fun response hresponse => ⟨hreply response hresponse, ?_⟩⟩
    exact fun token hissues => hpolls token ⟨response, hresponse, hissues⟩
  · rintro ⟨hsendable, h⟩
    refine ⟨⟨hsendable, fun response hresponse => (h response hresponse).1⟩, ?_⟩
    rintro token ⟨response, hresponse, hissues⟩
    exact (h response hresponse).2 token hissues

/-- A method fails typed exactly on tame exchanges. -/
theorem run_typed_iff (world : World) (m : Method) :
    FailsTyped (within world.clock (budget opts m)) (fun fuel => run rt opts world fuel m) ↔
      Tame rt opts world m := by
  have hanswer : ∀ path, FailsTyped (within world.clock (.finite 0))
      (fun _ => some ((answer rt opts path world.submit).map Output.value)) ↔
      AnswerTame rt opts path world.submit := by
    intro path
    rw [failsTyped_const, typed_map, answer_typed_iff]
  cases m with
  | call req => exact call_typed_iff world req
  | waitForApproval approvalId ctx => exact waitForApproval_typed_iff world approvalId ctx
  | requestAccess timeout => exact requestAccess_typed_iff world timeout
  | evaluate => exact hanswer "/v1/authzen/access"
  | listPlatforms => exact hanswer "/v1/agent/permissions"
  | pendingActions => exact hanswer "/v1/agents/me/pending-actions"

end AgentValet.Sdk.Python
