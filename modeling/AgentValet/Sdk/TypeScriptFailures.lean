import AgentValet.Sdk.Failures
import AgentValet.Sdk.TypeScript

namespace AgentValet.Sdk.TypeScript
open Base Lang Approvals

variable (rt : Runtime) (parse : String → Option Json) (opts : Options)

/-- The key signs, and the exchange comes to the reply. -/
def Replies (x : Exchange) (res : Reply) : Prop :=
  opts.key.jose = .fit ∧ Gives Reply.status x.first x.retry res

/-- The key does not fail to sign, and what a request fails with has a text. -/
def Asks (x : Exchange) : Prop :=
  opts.key.jose ≠ .unfit ∧
    (opts.key.jose = .fit → ∀ err, Fails Reply.status x.first x.retry err → ¬ err.Textless)

def Readable (res : Reply) : Prop := ∃ text, res.text = .ok text

/-- The body arrives, is JSON other than null, and its properties satisfy `p`. -/
def HasProperties (res : Reply) (p : Payload → Prop) : Prop :=
  ∃ text v body, res.text = .ok text ∧ parse text = some v ∧
    JavaScript.properties v = some body ∧ p body

def AnswerTame (x : Exchange) : Prop :=
  Asks opts x ∧ ∀ res, Replies opts x res → Readable res

/-- A status that can be compared, and where it is out of range data that can be serialised. -/
def ResultPresentable (result : Option Json) : Prop :=
  ∃ out, outOfRange (result.bind (Json.field? "status")) = some out ∧
    (out = true → (result.bind (Json.field? "data")).all rt.stringifies = true)

/-- The texts that an approval's status leads to can be built, and its result's status compared. -/
def Presentable (payload : Payload) : Prop :=
  let status := Json.lookup payload "status"
  let executionError := Json.lookup payload "execution_error"
  overflows rt (converted payload) = false ∧
    if isStr status "denied" then Quotable executionError
    else if isStr status "expired" then True
    else
      Quotable executionError ∧
        (JavaScript.truthy executionError = false → isStr status "approved" = true →
          jsExecuted payload = true → ResultPresentable rt (Json.lookup payload "result"))

def Pending (payload : Payload) : Prop :=
  let status := Json.lookup payload "status"
  isStr status "denied" = false ∧ isStr status "expired" = false ∧
    JavaScript.truthy (Json.lookup payload "execution_error") = false ∧
    ¬ (isStr status "approved" = true ∧ jsExecuted payload = true)

def RepliesAbout (v : Json) (x : Exchange) (res : Reply) : Prop :=
  hasText rt v = true ∧ Replies opts x res

/-- The reply says that nothing is decided, and the callback returns. -/
def SaysPending (told : Option Bool) (res : Reply) : Prop :=
  res.ok = true ∧ HasProperties rt.parse res fun body => Pending body ∧ told = none

def PollPending (approvalId : Json) (x : Exchange) (told : Option Bool) : Prop :=
  ∀ res, RepliesAbout rt opts approvalId x res → SaysPending rt told res

def PollTame (approvalId : Json) (x : Exchange) (told : Option Bool) : Prop :=
  ∀ res, RepliesAbout rt opts approvalId x res →
    if res.ok then
      HasProperties rt.parse res fun body =>
        Presentable rt body ∧ (Pending body → CallbackTame told)
    else Readable res

/-- Each poll that the wait comes to is tame, and a timeout can name the id. -/
def WaitTame (world : World) (approvalId : Json) (timeout : Double) : Prop :=
  PollsTame (within world.clock timeout)
    (fun k => PollPending rt opts approvalId (world.polls k) (world.told k))
    (fun k => PollTame rt opts approvalId (world.polls k) (world.told k)) ∧
  (Lasts (within world.clock timeout)
    (fun k => PollPending rt opts approvalId (world.polls k) (world.told k)) →
      hasText rt approvalId = true)

def Undecided (body : Payload) : Prop :=
  isStr (Json.lookup body "status") "approved" = false ∧
    isStr (Json.lookup body "status") "denied" = false

def LookPending (token : Json) (x : Exchange) : Prop :=
  ∀ res, RepliesAbout rt opts token x res → res.ok = true → HasProperties rt.parse res Undecided

def LookTame (token : Json) (x : Exchange) : Prop :=
  ∀ res, RepliesAbout rt opts token x res → res.ok = true →
    HasProperties rt.parse res fun _ => True

def Accepted (res : Reply) : Prop := res.ok = true ∨ res.status = 202

def Issues (res : Reply) (token : Json) : Prop :=
  Accepted res ∧ HasProperties parse res fun body =>
    Json.lookup body "request_token" = some token ∧ JavaScript.truthy (some token) = true

/-- An accepted reply has properties to read, any other a body, and so has each look after it. -/
def AccessTame (world : World) (timeout : Double) : Prop :=
  Asks opts world.submit ∧ ∀ res, Replies opts world.submit res →
    (Accepted res → HasProperties rt.parse res fun _ => True) ∧ (¬ Accepted res → Readable res) ∧
    ∀ token, Issues rt.parse res token →
      PollsTame (within world.clock timeout)
        (fun k => LookPending rt opts token (world.polls k))
        (fun k => LookTame rt opts token (world.polls k))

/-- The data can be serialised, or throws an error of the package; and so does what an action's
reply leads to a wait for. -/
def CallTame (world : World) (data : Data) (timeout : Double) : Prop :=
  (∀ ended, data = some ended → Typed ended) ∧
    ((∀ ended, data = some ended → ∃ v, ended = .ok v) →
      AnswerTame opts world.submit ∧ ∀ text approvalId,
        Replies opts world.submit ⟨202, .ok text⟩ → approvalId? rt.parse text = some approvalId →
          WaitTame rt opts world approvalId timeout)

def budget : Method → Double
  | .call req => req.approvalTimeoutMs.getD opts.approvalTimeout
  | .waitForApproval _ ctx => ctx.timeoutMs.getD opts.approvalTimeout
  | .requestAccess timeoutMs => timeoutMs.getD opts.approvalTimeout
  | .evaluate => .finite 0
  | .listPlatforms => .finite 0
  | .pendingActions => .finite 0

/-- The exchanges on which a method throws nothing but errors of the package. -/
def Tame (world : World) (m : Method) : Prop :=
  match m with
  | .call req => CallTame rt opts world req.data (budget opts m)
  | .waitForApproval approvalId _ => WaitTame rt opts world (.str approvalId) (budget opts m)
  | .requestAccess _ => AccessTame rt opts world (budget opts m)
  | .evaluate => AnswerTame opts world.submit
  | .listPlatforms => AnswerTame opts world.submit
  | .pendingActions => AnswerTame opts world.submit

variable {rt parse opts}

theorem once_eq_ok_iff {sent : Except Lang.Thrown Reply} {res : Reply} :
    once opts sent = .ok res ↔ opts.key.jose = .fit ∧ sent = .ok res := by
  unfold once
  cases opts.key.jose <;> cases sent <;> simp [Except.mapError]

theorem authedFetch_eq_ok_iff {x : Exchange} {res : Reply} :
    authedFetch opts x = .ok res ↔ Replies opts x res := by
  unfold authedFetch Replies Gives
  rw [Fallible.bind_eq_ok]
  constructor
  · rintro ⟨r, hr, hres⟩
    obtain ⟨hfit, hfirst⟩ := once_eq_ok_iff.1 hr
    refine ⟨hfit, r, hfirst, ?_⟩
    by_cases h401 : r.status = 401
    · rw [if_pos h401] at hres ⊢
      exact (once_eq_ok_iff.1 hres).2
    · rw [if_neg h401] at hres ⊢
      exact (Except.ok.inj hres).symm
  · rintro ⟨hfit, r, hfirst, hres⟩
    refine ⟨r, once_eq_ok_iff.2 ⟨hfit, hfirst⟩, ?_⟩
    by_cases h401 : r.status = 401
    · rw [if_pos h401] at hres ⊢
      exact once_eq_ok_iff.2 ⟨hfit, hres⟩
    · rw [if_neg h401] at hres ⊢
      rw [hres]
      rfl

theorem diagnosed_typed_iff {α : Type} (err : Lang.Thrown) :
    Typed (.error (diagnoseNetworkError err) : Ended α) ↔ ¬ err.Textless := by
  unfold diagnoseNetworkError Lang.Thrown.Textless
  cases err.text <;> simp

/-- Of what goes wrong before a reply, a key that does not sign and a failure without a text are
foreign. -/
theorem once_error_typed_iff {sent : Except Lang.Thrown Reply} {e : Thrown}
    (h : once opts sent = .error e) :
    Typed (.error e : Ended Reply) ↔ opts.key.jose ≠ .unfit ∧
      (opts.key.jose = .fit → ∀ err, sent = .error err → ¬ err.Textless) := by
  unfold once at h
  cases hkey : opts.key.jose with
  | malformed =>
    rw [hkey] at h
    cases h
    simp
  | unfit =>
    rw [hkey] at h
    cases h
    simp
  | fit =>
    rw [hkey] at h
    cases sent with
    | ok res => cases h
    | error err =>
      cases h
      simp [diagnosed_typed_iff]

theorem authedFetch_error_typed_iff {x : Exchange} {e : Thrown}
    (h : authedFetch opts x = .error e) : Typed (.error e : Ended Reply) ↔ Asks opts x := by
  unfold authedFetch at h
  unfold Asks
  cases hfirst : once opts x.first with
  | error e' =>
    rw [hfirst] at h
    cases h
    refine (once_error_typed_iff hfirst).trans (and_congr_right fun _ => ?_)
    refine imp_congr_right fun hfit => forall_congr' fun err => imp_congr_left ?_
    refine ⟨Or.inl, ?_⟩
    rintro (herror | ⟨r, hr, -⟩)
    · exact herror
    · cases (once_eq_ok_iff.2 ⟨hfit, hr⟩).symm.trans hfirst
  | ok r =>
    rw [hfirst, Fallible.ok_bind] at h
    obtain ⟨hfit, hr⟩ := once_eq_ok_iff.1 hfirst
    by_cases h401 : r.status = 401
    · rw [if_pos h401] at h
      refine (once_error_typed_iff h).trans (and_congr_right fun _ => ?_)
      refine imp_congr_right fun _ => forall_congr' fun err => imp_congr_left ?_
      constructor
      · exact fun hretry => .inr ⟨r, hr, h401, hretry⟩
      · rintro (herror | ⟨r', hr', -, hretry⟩)
        · cases hr.symm.trans herror
        · exact hretry
    · rw [if_neg h401] at h
      cases h

theorem Replies.asks {x : Exchange} {res : Reply} (h : Replies opts x res) : Asks opts x := by
  refine ⟨?_, fun _ err hfails => absurd hfails (h.2.not_fails err)⟩
  rw [h.1]
  decide

theorem authedFetch_bind_typed_iff {α : Type} (x : Exchange) (f : Reply → Ended α) :
    Typed (authedFetch opts x >>= f) ↔
      Asks opts x ∧ ∀ res, Replies opts x res → Typed (f res) := by
  simp only [← authedFetch_eq_ok_iff]
  cases hx : authedFetch opts x with
  | error e =>
    have herror : Typed (.error e : Ended α) ↔ Asks opts x :=
      typed_error_iff.trans (authedFetch_error_typed_iff hx)
    rw [Fallible.error_bind, herror]
    exact ⟨fun h => ⟨h, nofun⟩, fun h => h.1⟩
  | ok res =>
    have hasks : Asks opts x := (authedFetch_eq_ok_iff.1 hx).asks
    rw [Fallible.ok_bind]
    constructor
    · intro h
      refine ⟨hasks, fun res' hres' => ?_⟩
      cases hres'
      exact h
    · exact fun h => h.2 res rfl

theorem readText_bind_typed_iff {α : Type} (res : Reply) {f : String → Ended α}
    (hf : ∀ text, Typed (f text)) : Typed (readText res >>= f) ↔ Readable res := by
  unfold readText Readable
  cases res.text with
  | ok text => exact iff_of_true (hf text) ⟨text, rfl⟩
  | error e => exact iff_of_false id nofun

theorem answer_typed_iff (x : Exchange) : Typed (answer parse opts x) ↔ AnswerTame opts x := by
  have hreply : ∀ res : Reply, Typed (readText res >>= fun text =>
      if res.ok then pure (valueOf parse text)
      else .error (.typed (.proxy res.status (.text text)))) ↔ Readable res := by
    intro res
    apply readText_bind_typed_iff
    intro text
    split <;> exact trivial
  unfold answer AnswerTame
  rw [authedFetch_bind_typed_iff]
  simp only [hreply]

theorem readBody_eq_ok_iff {res : Reply} {body : Payload} :
    readBody parse res = .ok body ↔ ∃ text v, res.text = .ok text ∧ parse text = some v ∧
      JavaScript.properties v = some body := by
  unfold readBody readJson readText
  cases res.text with
  | error e => simp [Except.mapError]
  | ok text =>
    cases hparse : parse text with
    | none => simp [Except.mapError, hparse]
    | some v =>
      cases hproperties : JavaScript.properties v <;>
        simp [Except.mapError, hparse, hproperties, pure, Except.pure]

theorem readBody_error {res : Reply} {e : Thrown} (h : readBody parse res = .error e) :
    ∃ f, e = .foreign f := by
  unfold readBody readJson readText at h
  cases htext : res.text with
  | error e =>
    rw [htext] at h
    exact ⟨.reading, (Except.error.inj h).symm⟩
  | ok text =>
    simp only [htext, Except.mapError, Fallible.ok_bind] at h
    cases hparse : parse text with
    | none =>
      simp only [hparse, Fallible.error_bind] at h
      exact ⟨.json, (Except.error.inj h).symm⟩
    | some v =>
      cases hproperties : JavaScript.properties v with
      | none =>
        simp only [hparse, pure, Except.pure, Fallible.ok_bind, hproperties] at h
        exact ⟨.type, (Except.error.inj h).symm⟩
      | some body =>
        simp only [hparse, pure, Except.pure, Fallible.ok_bind, hproperties] at h
        cases h

theorem hasProperties_iff {res : Reply} {p : Payload → Prop} :
    HasProperties parse res p ↔ ∃ body, readBody parse res = .ok body ∧ p body := by
  unfold HasProperties
  constructor
  · rintro ⟨text, v, body, htext, hparse, hbody, h⟩
    exact ⟨body, readBody_eq_ok_iff.2 ⟨text, v, htext, hparse, hbody⟩, h⟩
  · rintro ⟨body, hread, h⟩
    obtain ⟨text, v, htext, hparse, hbody⟩ := readBody_eq_ok_iff.1 hread
    exact ⟨text, v, body, htext, hparse, hbody, h⟩

/-- What is asked of a body that has to be there is asked of its properties. -/
theorem readBody_andThen_iff {α : Type} (Q : Option (Ended α) → Prop)
    (hQ : ∀ e, ¬ Q (some (.error (.foreign e)))) (res : Reply) (g : Payload → Option (Ended α)) :
    Q (andThen (readBody parse res) g) ↔ HasProperties parse res fun body => Q (g body) := by
  rw [hasProperties_iff]
  cases hread : readBody parse res with
  | error e =>
    obtain ⟨f, rfl⟩ := readBody_error hread
    exact iff_of_false (hQ f) nofun
  | ok body =>
    rw [andThen_ok]
    constructor
    · exact fun h => ⟨body, rfl, h⟩
    · rintro ⟨body', hbody, h⟩
      rwa [Except.ok.inj hbody]

theorem pollFetch_eq_ok_iff {v : Json} {x : Exchange} {res : Reply} :
    pollFetch rt opts v x = .ok res ↔ RepliesAbout rt opts v x res := by
  unfold pollFetch RepliesAbout
  rw [← authedFetch_eq_ok_iff]
  split <;> simp [*]

/-- A request of a loop: what is asked of it is asked of its reply. -/
theorem pollFetch_iff {α : Type} (Q : Option α → Prop) (hQ : Q none) (v : Json) (x : Exchange)
    (g : Reply → Option α) :
    Q (match pollFetch rt opts v x with
      | .error _ => none
      | .ok res => g res) ↔ ∀ res, RepliesAbout rt opts v x res → Q (g res) := by
  simp only [← pollFetch_eq_ok_iff]
  cases pollFetch rt opts v x with
  | error e => exact iff_of_true hQ nofun
  | ok res =>
    constructor
    · intro h res' hres'
      cases hres'
      exact h
    · exact fun h => h res rfl

theorem quoting_typed_iff {err : Option Json} {verdict : Verdict}
    (h : Typed (ofVerdict rt verdict)) :
    Typed (ofVerdict rt (quoting err verdict)) ↔ Quotable err := by
  by_cases hq : Quotable err
  · rw [quoting_of_quotable hq]
    exact iff_of_true h hq
  · rw [quoting_of_not_quotable hq]
    exact iff_of_false id hq

theorem result_typed_iff (result : Option Json) :
    Typed (ofVerdict rt (resultVerdict id result)) ↔ ResultPresentable rt result := by
  unfold resultVerdict ResultPresentable
  dsimp only
  cases outOfRange (result.bind (Json.field? "status")) with
  | none => exact iff_of_false id fun h => by cases h.choose_spec.1
  | some out =>
    cases out with
    | false =>
      refine iff_of_true trivial ⟨false, rfl, fun h => by cases h⟩
    | true =>
      simp only [ofVerdict, upstreamError, Option.some.injEq, exists_eq_left', true_implies]
      split <;> simp [*]

theorem interpret_typed_iff (payload : Payload) :
    AllTyped (interpret rt payload) ↔ Presentable rt payload := by
  unfold interpret Presentable
  dsimp only
  cases overflows rt (converted payload) with
  | true => exact iff_of_false (fun h => allTyped_some.1 h) fun h => by cases h.1
  | false =>
    simp only [Bool.false_eq_true, if_false, true_and]
    rw [client_interpret_eq]
    dsimp only
    split_ifs with hdenied hexpired herror hexecuted
    · exact allTyped_some.trans (quoting_typed_iff trivial)
    · exact iff_of_true (allTyped_some.2 trivial) trivial
    · have hiff : Typed (ofVerdict rt (quoting (Json.lookup payload "execution_error")
          (.reexecutionFailed (Json.lookup payload "execution_error")))) ↔
          Quotable (Json.lookup payload "execution_error") := quoting_typed_iff trivial
      refine (allTyped_some.trans hiff).trans ⟨fun h => ⟨h, ?_⟩, fun h => h.1⟩
      intro hfalse
      rw [herror] at hfalse
      cases hfalse
    · rw [Bool.and_eq_true] at hexecuted
      have hquotable : Quotable (Json.lookup payload "execution_error") :=
        fun h => absurd h herror
      refine (allTyped_some.trans (result_typed_iff _)).trans
        ⟨fun h => ⟨hquotable, fun _ _ _ => h⟩, ?_⟩
      exact fun h => h.2 (Bool.not_eq_true _ ▸ herror) hexecuted.1 hexecuted.2
    · refine iff_of_true allTyped_none ⟨fun h => absurd h herror, fun _ happroved hjs => ?_⟩
      rw [happroved, hjs] at hexecuted
      exact absurd rfl hexecuted

theorem client_interpret_eq_none_iff (payload : Payload) :
    Client.interpret payload = none ↔ Pending payload := by
  rw [client_interpret_eq]
  unfold Pending
  dsimp only
  cases isStr (Json.lookup payload "status") "denied" <;>
    cases isStr (Json.lookup payload "status") "expired" <;>
    cases JavaScript.truthy (Json.lookup payload "execution_error") <;> simp

/-- An answer that decides nothing is not converted. -/
theorem Pending.converted_eq_none {payload : Payload} (h : Pending payload) :
    converted payload = none := by
  obtain ⟨hdenied, hexpired, herror, hexecuted⟩ := h
  have hnot : (isStr (Json.lookup payload "status") "approved" &&
      JavaScript.truthy (Json.lookup payload "executed_at") &&
      JavaScript.truthy (Json.lookup payload "result")) = false := by
    rw [Bool.and_assoc, ← Bool.not_eq_true, Bool.and_eq_true]
    exact hexecuted
  unfold converted
  dsimp only
  rw [hdenied, hexpired, herror, hnot]
  rfl

theorem interpret_eq_none_iff (payload : Payload) :
    interpret rt payload = none ↔ Pending payload := by
  rw [← client_interpret_eq_none_iff]
  unfold interpret
  constructor
  · intro h
    split_ifs at h
    exact Option.map_eq_none_iff.1 h
  · intro h
    rw [((client_interpret_eq_none_iff payload).1 h).converted_eq_none, h]
    rfl

theorem poll_eq_none_iff (approvalId : Json) (x : Exchange) (told : Option Bool) :
    poll rt opts approvalId x told = none ↔ PollPending rt opts approvalId x told := by
  unfold PollPending SaysPending
  refine (pollFetch_iff (fun y => y = none) rfl approvalId x _).trans ?_
  refine forall_congr' fun res => imp_congr_right fun _ => ?_
  have hbody : andThen (readBody rt.parse res) (fun body => orTell told (interpret rt body)) =
      none ↔
      HasProperties rt.parse res fun body => Pending body ∧ told = none := by
    simp only [← @interpret_eq_none_iff rt, ← orTell_eq_none_iff]
    exact readBody_andThen_iff (fun y => y = none) (fun _ => Option.some_ne_none _) res _
  by_cases hok : res.ok = true
  · rw [if_pos hok, hbody]
    exact (and_iff_right hok).symm
  · rw [if_neg hok]
    exact iff_of_false (Option.some_ne_none _) fun h => hok h.1

theorem poll_typed_iff (approvalId : Json) (x : Exchange) (told : Option Bool) :
    AllTyped (poll rt opts approvalId x told) ↔ PollTame rt opts approvalId x told := by
  unfold PollTame
  refine (pollFetch_iff AllTyped allTyped_none approvalId x _).trans ?_
  refine forall_congr' fun res => imp_congr_right fun _ => ?_
  have hbody : AllTyped (andThen (readBody rt.parse res)
      fun body => orTell told (interpret rt body)) ↔
      HasProperties rt.parse res fun body =>
        Presentable rt body ∧ (Pending body → CallbackTame told) := by
    simp only [← interpret_typed_iff, ← @interpret_eq_none_iff rt, ← allTyped_orTell_iff]
    exact readBody_andThen_iff AllTyped (fun _ h => allTyped_some.1 h) res _
  by_cases hok : res.ok = true
  · rw [if_pos hok, if_pos hok]
    exact hbody
  · rw [if_neg hok, if_neg hok, allTyped_some]
    exact readText_bind_typed_iff res fun _ => trivial

/-- What is asked of one look at a request is asked of the status it finds. -/
theorem accessPoll_iff (Q : Option (Ended String) → Prop) (hnone : Q none)
    (hQ : ∀ e, ¬ Q (some (.error (.foreign e)))) (token : Json) (x : Exchange) :
    Q (accessPoll rt opts token x) ↔
      ∀ res, RepliesAbout rt opts token x res → res.ok = true →
        HasProperties rt.parse res fun body =>
          Q (if isStr (Json.lookup body "status") "approved" then some (.ok "approved")
            else if isStr (Json.lookup body "status") "denied" then some (.ok "denied")
            else none) := by
  refine (pollFetch_iff Q hnone token x _).trans ?_
  refine forall_congr' fun res => imp_congr_right fun _ => ?_
  by_cases hok : res.ok = true
  · simp only [hok, Bool.not_true, Bool.false_eq_true, if_false, true_implies]
    exact readBody_andThen_iff Q hQ res _
  · simp only [hok, Bool.not_false, if_true, Bool.false_eq_true, false_implies, iff_true]
    exact hnone

theorem accessPoll_eq_none_iff (token : Json) (x : Exchange) :
    accessPoll rt opts token x = none ↔ LookPending rt opts token x := by
  have hundecided : ∀ body : Payload,
      (if isStr (Json.lookup body "status") "approved" then some (.ok "approved")
        else if isStr (Json.lookup body "status") "denied" then some (.ok "denied")
        else none : Option (Ended String)) = none ↔ Undecided body := by
    intro body
    unfold Undecided
    cases isStr (Json.lookup body "status") "approved" <;>
      cases isStr (Json.lookup body "status") "denied" <;> simp
  refine (accessPoll_iff (fun y => y = none) rfl (fun _ => Option.some_ne_none _) token x).trans ?_
  simp only [hundecided]
  exact Iff.rfl

theorem accessPoll_typed_iff (token : Json) (x : Exchange) :
    AllTyped (accessPoll rt opts token x) ↔ LookTame rt opts token x := by
  have htyped : ∀ body : Payload,
      AllTyped (if isStr (Json.lookup body "status") "approved" then some (.ok "approved")
        else if isStr (Json.lookup body "status") "denied" then some (.ok "denied")
        else none : Option (Ended String)) ↔ True := by
    intro body
    split_ifs <;> simp
  refine (accessPoll_iff AllTyped allTyped_none (fun _ h => allTyped_some.1 h) token x).trans ?_
  simp only [htyped]
  exact Iff.rfl

theorem waitForApproval_typed_iff (world : World) (approvalId : Json) (ctx : WaitContext) :
    FailsTyped (within world.clock (ctx.timeoutMs.getD opts.approvalTimeout))
        (fun fuel => finish (waitForApproval rt opts world approvalId ctx) .waited fuel []) ↔
      WaitTame rt opts world approvalId (ctx.timeoutMs.getD opts.approvalTimeout) := by
  have hlate : Typed (timedOut rt approvalId) ↔ hasText rt approvalId = true := by
    unfold timedOut
    split <;> simp [*]
  refine (failsTyped_finish_iff
    (fun k => poll_eq_none_iff approvalId (world.polls k) (world.told k))
    (fun k => poll_typed_iff approvalId (world.polls k) (world.told k)) .waited []).trans ?_
  exact and_congr_right fun _ => imp_congr_right fun _ => hlate

theorem callReply_typed_iff (req : CallRequest) (res : Reply) :
    Typed (callReply parse req res) ↔ Readable res := by
  apply readText_bind_typed_iff
  intro text
  split
  · exact trivial
  · split_ifs <;> exact trivial

theorem callReply_eq_wait_iff {req : CallRequest} {res : Reply} {approvalId : Json} :
    callReply parse req res = .ok (.wait approvalId) ↔
      ∃ text, res = ⟨202, .ok text⟩ ∧ approvalId? parse text = some approvalId := by
  obtain ⟨status, body⟩ := res
  cases body with
  | error e =>
    refine iff_of_false (fun h => nomatch h) ?_
    rintro ⟨text, h, -⟩
    cases h
  | ok text =>
    simp only [callReply, readText_ok, Fallible.ok_bind]
    cases hid : if status = 202 then approvalId? parse text else none with
    | some id =>
      have h202 : status = 202 := by
        by_contra h
        rw [if_neg h] at hid
        cases hid
      rw [if_pos h202] at hid
      constructor
      · intro h
        cases h
        exact ⟨text, by rw [h202], hid⟩
      · rintro ⟨text', hres, hid'⟩
        cases hres
        cases hid.symm.trans hid'
        rfl
    | none =>
      constructor
      · intro h
        dsimp only at h
        split_ifs at h
        cases h
      · rintro ⟨text', hres, hid'⟩
        cases hres
        rw [if_pos rfl, hid'] at hid
        cases hid

/-- The reply to an action is come to through its body. -/
theorem act_eq_ok_iff {world : World} {req : CallRequest} {res : Reply} :
    act opts world req = .ok res ↔
      (∀ ended, req.data = some ended → ∃ v, ended = .ok v) ∧ Replies opts world.submit res := by
  unfold act CallRequest.body
  rw [Fallible.bind_eq_ok, exists_and_right, actionBody_ok_iff, authedFetch_eq_ok_iff]

theorem act_bind_typed_iff {α : Type} (world : World) (req : CallRequest) (f : Reply → Ended α) :
    Typed (act opts world req >>= f) ↔
      (∀ ended, req.data = some ended → Typed ended) ∧
        ((∀ ended, req.data = some ended → ∃ v, ended = .ok v) →
          Asks opts world.submit ∧ ∀ res, Replies opts world.submit res → Typed (f res)) := by
  rw [← actionBody_typed_iff req.platform req.endpoint (req.method.getD "GET") req.scope req.data
    req.connectionId req.reason, ← actionBody_ok_iff req.platform req.endpoint
    (req.method.getD "GET") req.scope req.data req.connectionId req.reason]
  change Typed (req.body >>= (fun _ => authedFetch opts world.submit) >>= f) ↔
    Typed req.body ∧ ((∃ body, req.body = .ok body) → _)
  cases req.body with
  | error e =>
    rw [Fallible.error_bind, Fallible.error_bind, typed_error_iff]
    exact ⟨fun h => ⟨h, nofun⟩, fun h => h.1⟩
  | ok body =>
    rw [Fallible.ok_bind, authedFetch_bind_typed_iff]
    exact ⟨fun h => ⟨trivial, fun _ => h⟩, fun h => h.2 ⟨body, rfl⟩⟩

theorem call_typed_iff (world : World) (req : CallRequest) :
    FailsTyped (within world.clock (req.approvalTimeoutMs.getD opts.approvalTimeout))
        (call rt opts world req) ↔
      CallTame rt opts world req.data (req.approvalTimeoutMs.getD opts.approvalTimeout) := by
  have hreply : Typed (act opts world req >>= callReply rt.parse req) ↔
      (∀ ended, req.data = some ended → Typed ended) ∧
        ((∀ ended, req.data = some ended → ∃ v, ended = .ok v) → AnswerTame opts world.submit) := by
    rw [act_bind_typed_iff]
    simp only [callReply_typed_iff]
    exact Iff.rfl
  have hwait : ∀ approvalId,
      (act opts world req >>= callReply rt.parse req = .ok (.wait approvalId)) ↔
      (∀ ended, req.data = some ended → ∃ v, ended = .ok v) ∧
      ∃ text, Replies opts world.submit ⟨202, .ok text⟩ ∧
        approvalId? rt.parse text = some approvalId := by
    intro approvalId
    rw [Fallible.bind_eq_ok]
    simp only [act_eq_ok_iff, callReply_eq_wait_iff]
    constructor
    · rintro ⟨res, ⟨hdata, hres⟩, text, rfl, hid⟩
      exact ⟨hdata, text, hres, hid⟩
    · rintro ⟨hdata, text, hres, hid⟩
      exact ⟨_, ⟨hdata, hres⟩, text, rfl, hid⟩
  have hloop : ∀ approvalId, _ ↔ WaitTame rt opts world approvalId _ := fun approvalId =>
    waitForApproval_typed_iff world approvalId (waitContext opts req)
  refine (failsTyped_reading _ _ fun fuel approvalId =>
    finish (waitForApproval rt opts world approvalId (waitContext opts req)) .waited fuel
      []).trans ?_
  unfold CallTame
  rw [hreply, and_assoc]
  refine and_congr_right fun _ => ?_
  constructor
  · rintro ⟨hanswer, h⟩ hdata
    refine ⟨hanswer hdata, fun text approvalId hres hid => ?_⟩
    exact (hloop approvalId).1 (h approvalId ((hwait approvalId).2 ⟨hdata, text, hres, hid⟩))
  · intro h
    refine ⟨fun hdata => (h hdata).1, fun approvalId hok => ?_⟩
    obtain ⟨hdata, text, hres, hid⟩ := (hwait approvalId).1 hok
    exact (hloop approvalId).2 ((h hdata).2 text approvalId hres hid)

theorem accepted_iff {res : Reply} :
    Accepted res ↔ ¬ (!res.ok && res.status != 202) = true := by
  unfold Accepted
  simp [or_iff_not_imp_left]

theorem accessReply_typed_iff (res : Reply) :
    Typed (accessReply parse res) ↔
      (Accepted res → HasProperties parse res fun _ => True) ∧ (¬ Accepted res → Readable res) := by
  unfold accessReply
  by_cases h : Accepted res
  · rw [if_neg (accepted_iff.1 h), hasProperties_iff]
    cases hread : readBody parse res with
    | error e =>
      obtain ⟨f, rfl⟩ := readBody_error hread
      refine iff_of_false id fun hread' => ?_
      obtain ⟨body, hbody, -⟩ := hread'.1 h
      cases hbody
    | ok body =>
      refine iff_of_true ?_ ⟨fun _ => ⟨body, rfl, trivial⟩, fun hnot => absurd h hnot⟩
      rw [Fallible.ok_bind]
      split <;> simp [pure, Except.pure]
  · rw [if_pos (not_not.1 fun hno => h (accepted_iff.2 hno))]
    have hproxy : Typed (proxyError res : Ended Json) ↔ Readable res :=
      readText_bind_typed_iff res fun _ => trivial
    refine hproxy.trans ?_
    exact ⟨fun hread => ⟨fun hacc => absurd hacc h, fun _ => hread⟩, fun hread => hread.2 h⟩

theorem accessReply_eq_ok_iff {res : Reply} {token : Json} :
    accessReply parse res = .ok token ↔ Issues parse res token := by
  unfold accessReply Issues
  by_cases h : Accepted res
  · rw [if_neg (accepted_iff.1 h), hasProperties_iff, Fallible.bind_eq_ok]
    rw [and_iff_right h]
    refine exists_congr fun body => and_congr_right fun _ => ?_
    cases htoken : (Json.lookup body "request_token").filter fun t =>
        JavaScript.truthy (some t) with
    | none =>
      refine iff_of_false nofun ?_
      rintro ⟨hlookup, htruthy⟩
      rw [hlookup, Option.filter_some, if_pos htruthy] at htoken
      cases htoken
    | some t =>
      rw [Option.filter_eq_some_iff] at htoken
      constructor
      · intro heq
        cases heq
        exact htoken
      · rintro ⟨hlookup, -⟩
        cases htoken.1.symm.trans hlookup
        rfl
  · rw [if_pos (not_not.1 fun hno => h (accepted_iff.2 hno))]
    refine iff_of_false ?_ fun hissues => h hissues.1
    unfold proxyError readText
    cases res.text <;> exact nofun

theorem requestAccess_typed_iff (world : World) (timeoutMs : Option Double) :
    FailsTyped (within world.clock (timeoutMs.getD opts.approvalTimeout))
        (requestAccess rt opts world timeoutMs) ↔
      AccessTame rt opts world (timeoutMs.getD opts.approvalTimeout) := by
  have hloop : ∀ token, FailsTyped (within world.clock (timeoutMs.getD opts.approvalTimeout))
      (fun fuel => finish (accessLoop rt opts world token timeoutMs) (.access · token) fuel ()) ↔
      PollsTame (within world.clock (timeoutMs.getD opts.approvalTimeout))
        (fun k => LookPending rt opts token (world.polls k))
        (fun k => LookTame rt opts token (world.polls k)) := by
    intro token
    refine (failsTyped_finish_iff (fun k => accessPoll_eq_none_iff token (world.polls k))
      (fun k => accessPoll_typed_iff token (world.polls k)) (.access · token) ()).trans ?_
    exact and_iff_left fun _ => trivial
  have hsubmit : Typed (submitted rt.parse opts world.submit) ↔ Asks opts world.submit ∧
      ∀ res, Replies opts world.submit res →
        (Accepted res → HasProperties rt.parse res fun _ => True) ∧
          (¬ Accepted res → Readable res) := by
    refine (authedFetch_bind_typed_iff _ _).trans ?_
    simp only [accessReply_typed_iff]
  have htoken : ∀ token, submitted rt.parse opts world.submit = .ok token ↔
      ∃ res, Replies opts world.submit res ∧ Issues rt.parse res token := by
    intro token
    unfold submitted
    rw [Fallible.bind_eq_ok]
    simp only [authedFetch_eq_ok_iff, accessReply_eq_ok_iff]
  refine (failsTyped_andThen _ (submitted rt.parse opts world.submit) fun token fuel =>
    finish (accessLoop rt opts world token timeoutMs) (.access · token) fuel ()).trans ?_
  rw [hsubmit]
  simp only [htoken, hloop]
  constructor
  · rintro ⟨⟨hkey, hreply⟩, hpolls⟩
    refine ⟨hkey, fun res hres => ⟨(hreply res hres).1, (hreply res hres).2, ?_⟩⟩
    exact fun token hissues => hpolls token ⟨res, hres, hissues⟩
  · rintro ⟨hkey, h⟩
    refine ⟨⟨hkey, fun res hres => ⟨(h res hres).1, (h res hres).2.1⟩⟩, ?_⟩
    rintro token ⟨res, hres, hissues⟩
    exact (h res hres).2.2 token hissues

/-- A method fails typed exactly on tame exchanges. -/
theorem run_typed_iff (world : World) (m : Method) :
    FailsTyped (within world.clock (budget opts m)) (fun fuel => run rt opts world fuel m) ↔
      Tame rt opts world m := by
  have hanswer : FailsTyped (within world.clock (.finite 0))
      (fun _ => some ((answer rt.parse opts world.submit).map Output.value)) ↔
      AnswerTame opts world.submit := by
    rw [failsTyped_const, typed_map, answer_typed_iff]
  cases m with
  | call req => exact call_typed_iff world req
  | waitForApproval approvalId ctx => exact waitForApproval_typed_iff world (.str approvalId) ctx
  | requestAccess timeoutMs => exact requestAccess_typed_iff world timeoutMs
  | evaluate => exact hanswer
  | listPlatforms => exact hanswer
  | pendingActions => exact hanswer

end AgentValet.Sdk.TypeScript
