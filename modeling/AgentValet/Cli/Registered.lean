import AgentValet.Base.Fallible
import AgentValet.Cli.Approval

namespace AgentValet.Cli
open Base Lang JavaScript Approvals Approvals.EventStreams
open Identity (AGENT_KEY_PATH)

variable {node : Runtime} {env : String → Option String} {opts : Options} {fuel : ℕ} {h : Log}

def Question.logs : Question → Prop
  | .log _ => True
  | _ => False

def Question.prepares : Question → Prop
  | .log _ | .error _ | .readStore | .prompts _ => True
  | _ => False

def Question.waits : Question → Prop
  | .now | .sleep _ | .stream _ _ | .fetch _ => True
  | _ => False

def issued (reply : Except String RegisterReply) : Option Json :=
  match reply with
  | .error _ => none
  | .ok reply =>
    if !reply.ok then none
    else
      match reply.json with
      | .error _ => none
      | .ok json =>
        (((given json "data").getD json).field? "registration_token").filter fun v =>
          truthy (some v)

/-- The registration `body` was submitted, the first request there was, and got the token. -/
def Submitted (opts : Options) (h : Log) (body : RegisterBody) (token : Json) : Prop :=
  ∃ before a after, h = before ++ (.fetch (registerRequest opts.apiUrl body), a) :: after ∧
    (∀ x ∈ before, x.1.prepares) ∧ issued a.reply = some token ∧ ∀ x ∈ after, x.1.logs

/-- The wait for a registration that was submitted: `h` before it, and `wait` of it so far. -/
def Waiting (opts : Options) (h : Log) (body : RegisterBody) (token : Json) (wait : Log) : Prop :=
  ∃ before, h = before ++ wait ∧ Submitted opts before body token ∧ ∀ x ∈ wait, x.1.waits

/-- The owner of the identity: the one the approval names, if any. -/
def resolvedOwner (body : RegisterBody) (owner : Json) : Json :=
  if truthy (some owner) then owner else .str body.owner_id

/-- After the exchanges `h`: one registration is submitted, before anything else is requested, and
waited for if the options let it; an identity is saved where the wait for it ended with an approval
and a key, as these have it; and permissions are written for what was saved. -/
def MayAct (node : Runtime) (opts : Options) (h : Log) : Question → Prop
  | .fetch r =>
    (∀ x ∈ h, x.1.prepares) ∧ (∃ body, r = registerRequest opts.apiUrl body) ∨
    opts.wait = true ∧ ∃ body token wait, Waiting opts h body token wait ∧
      MayWait node opts.apiUrl (node.string token) (milliseconds opts.timeout) wait (.fetch r)
  | .saveOutput agentId ownerId privateKey apiUrl =>
    opts.wait = true ∧ truthy (some privateKey) = true ∧ apiUrl = opts.apiUrl ∧
    ∃ body token wait owner grantedPlatforms, Waiting opts h body token wait ∧
      Concluded node opts.apiUrl (node.string token) (milliseconds opts.timeout) wait
        (.approved agentId owner privateKey grantedPlatforms) ∧
      ownerId = resolvedOwner body owner
  | .writePermissionsFromEvent agentId ownerId _ =>
    ∃ before a privateKey after,
      h = before ++ (.saveOutput agentId ownerId privateKey opts.apiUrl, a) :: after ∧
      a.saved = .ok () ∧ ∀ x ∈ after, x.1.logs
  | .runRefresh _ =>
    ∃ before a agentId ownerId privateKey after,
      h = before ++ (.saveOutput agentId ownerId privateKey opts.apiUrl, a) :: after ∧
      a.saved = .ok () ∧ ∀ x ∈ after, x.1.logs
  | .runOnboard _ _ => ∀ x ∈ h, x.1.prepares
  | .prompts _ => ∀ x ∈ h, x.1.prepares
  | .readStore => ∀ x ∈ h, x.1.prepares
  | .log _ => True
  | .error _ => True
  | q => opts.wait = true ∧ ∃ body token wait, Waiting opts h body token wait ∧
      MayWait node opts.apiUrl (node.string token) (milliseconds opts.timeout) wait q

theorem mayAct_of_prepares {q : Question} (hq : q.prepares) (hh : ∀ x ∈ h, x.1.prepares) :
    MayAct node opts h q := by
  cases q with
  | readStore => exact hh
  | prompts questions => exact hh
  | log line => trivial
  | error line => trivial
  | _ => exact hq.elim

theorem mayAct_of_mayWait {q : Question} {body : RegisterBody} {token : Json} {wait : Log}
    (hopts : opts.wait = true) (hwait : Waiting opts h body token wait)
    (hq : MayWait node opts.apiUrl (node.string token) (milliseconds opts.timeout) wait q) :
    MayAct node opts h q := by
  cases q with
  | now => exact ⟨hopts, body, token, wait, hwait, hq⟩
  | sleep ms => exact ⟨hopts, body, token, wait, hwait, hq⟩
  | stream r windowMs => exact ⟨hopts, body, token, wait, hwait, hq⟩
  | fetch r => exact Or.inr ⟨hopts, body, token, wait, hwait, hq⟩
  | _ => exact hq.elim

theorem waits_of_mayWait {apiUrl token : String} {timeoutMs : Double} {q : Question}
    (hq : MayWait node apiUrl token timeoutMs h q) : q.waits := by
  cases q with
  | now | sleep ms | stream r windowMs | fetch r => trivial
  | _ => exact hq.elim

theorem sat_onboards (ownerId : String) :
    (onboards ownerId).Sat Question.prepares (fun _ => True) fun _ => True := by
  rw [onboards]
  split
  · trivial
  · refine Program.Sat.call_bind trivial fun _ stored _ => ?_
    split
    · trivial
    · refine Program.Sat.call_bind trivial fun _ stored _ => ?_
      split
      · trivial
      · exact Program.Sat.call_bind trivial fun _ stored _ => trivial

theorem sat_complete (isJson : Bool) (input : WizardInput) :
    (complete isJson input).Sat Question.prepares (fun _ => True) fun _ => True := by
  rw [complete]
  split
  · trivial
  · split
    · exact ⟨trivial, fun _ => trivial⟩
    · refine ⟨trivial, fun _ => ⟨trivial, fun a => ?_⟩⟩
      change (readAnswers input a.answers).Sat _ _ _
      cases a.answers with
      | none => exact ⟨trivial, fun _ => trivial⟩
      | some answers => trivial

section
variable {may : Log → Question → Prop} {exc : Stop → Log → Prop}

theorem follows_registerAgent {apiUrl : String} {body : RegisterBody}
    {ret : Json → Log → Prop}
    (hmay : may h (.fetch (registerRequest apiUrl body)))
    (hret : ∀ a token, issued a.reply = some token →
      ret token (h ++ [(.fetch (registerRequest apiUrl body), a)]))
    (hexc : ∀ a msg, exc (.thrown msg) (h ++ [(.fetch (registerRequest apiUrl body), a)])) :
    (registerAgent node apiUrl body).Follows may ret exc h := by
  rw [registerAgent, Program.follows_bind_iff, Program.follows_call_iff]
  refine ⟨hmay, fun a => ⟨fun reply hreply => ?_, fun stop hstop => ?_⟩⟩
  · have hreply : a.reply = .ok reply := Fallible.mapError_eq_ok.1 hreply
    rw [Program.follows_bind_iff, Program.follows_ofExcept_iff]
    refine ⟨fun json hjson => ?_, fun stop hstop => ?_⟩
    · have hjson : reply.json = .ok json := Fallible.mapError_eq_ok.1 hjson
      split
      · exact hexc a _
      · split
        · exact hexc a _
        · rename_i hok
          simp only
          split
          · rename_i token htoken
            refine hret a token ?_
            simp only [issued, hreply, hjson]
            rw [if_neg hok, htoken]
          · exact hexc a _
    · obtain ⟨msg, -, rfl⟩ := Fallible.mapError_eq_error.1 hstop
      exact hexc a msg
  · obtain ⟨msg, -, rfl⟩ := Fallible.mapError_eq_error.1 hstop
    exact hexc a msg

@[simp] theorem follows_fail_iff {α : Type} {ret : α → Log → Prop} {isJson : Bool}
    {machine reader : String} :
    (fail isJson machine reader : Action α).Follows may ret exc h ↔
      may h (.error (if isJson then .json (.obj [("error", .str machine)]) else .text reader)) ∧
        ∀ a, exc (.exit 3) (h ++ [(.error (if isJson then .json (.obj [("error", .str machine)])
          else .text reader), a)]) := Iff.rfl

theorem follows_says {ret : Unit → Log → Prop} (hmay : ∀ h line, may h (.log line))
    {lines : List String}
    (hret : ∀ logs : Log, (∀ x ∈ logs, x.1.logs) → ret () (h ++ logs)) :
    (lines.forM fun s => tell (.log (.text s)) : Action Unit).Follows may ret exc h := by
  induction lines generalizing h with
  | nil => simpa using hret [] (by simp)
  | cons s lines ih =>
    change (tell (.log (.text s)) >>= fun _ => lines.forM fun s => tell (.log (.text s))).Follows
      may ret exc h
    rw [Program.follows_bind_iff, follows_tell_iff]
    refine ⟨hmay h _, fun a => ih fun logs hlogs => ?_⟩
    rw [List.append_assoc]
    refine hret _ fun x hx => ?_
    obtain rfl | hx := List.mem_cons.1 hx
    · trivial
    · exact hlogs x hx

theorem follows_say {ret : Unit → Log → Prop} (hmay : ∀ h line, may h (.log line))
    {isJson : Bool} {machine : Json} {reader : List String}
    (hret : ∀ logs : Log, (∀ x ∈ logs, x.1.logs) → ret () (h ++ logs)) :
    (say isJson machine reader).Follows may ret exc h := by
  rw [say]
  split
  · refine ⟨hmay h _, fun a => hret _ fun x hx => ?_⟩
    rw [List.mem_singleton.1 hx]
    trivial
  · exact follows_says hmay hret

theorem follows_remark {ret : Unit → Log → Prop} (hmay : ∀ h line, may h (.log line))
    {isJson : Bool} {s : String}
    (hret : ∀ logs : Log, (∀ x ∈ logs, x.1.logs) → ret () (h ++ logs)) :
    (remark isJson s).Follows may ret exc h := by
  rw [remark]
  split
  · simpa using hret [] (by simp)
  · refine ⟨hmay h _, fun a => hret _ fun x hx => ?_⟩
    rw [List.mem_singleton.1 hx]
    trivial

end

abbrev Anyhow : Stop → Log → Prop := fun _ _ => True

theorem follows_submit {input : WizardInput} (hh : ∀ x ∈ h, x.1.prepares) :
    (submit node opts input).Follows (MayAct node opts)
      (fun token h => ∃ body, Submitted opts h body token ∧ body.owner_id = input.ownerId)
      Anyhow h := by
  rw [submit]
  split
  · exact ⟨trivial, fun _ => trivial⟩
  · split
    · exact ⟨trivial, fun _ => trivial⟩
    · rename_i requestedScopes hgroups
      rw [follows_catching_iff]
      refine follows_registerAgent (Or.inl ⟨hh, _, rfl⟩) (fun a token htoken => ?_) fun a msg =>
        ⟨trivial, fun _ => trivial⟩
      exact ⟨_, ⟨h, a, [], rfl, hh, htoken, by simp⟩, rfl⟩

theorem submitted_append {body : RegisterBody} {token : Json} {logs : Log}
    (hh : Submitted opts h body token) (hlogs : ∀ x ∈ logs, x.1.logs) :
    Submitted opts (h ++ logs) body token := by
  obtain ⟨before, a, after, rfl, hbefore, htoken, hafter⟩ := hh
  refine ⟨before, a, after ++ logs, by simp, hbefore, htoken, fun x hx => ?_⟩
  obtain hx | hx := List.mem_append.1 hx
  · exact hafter x hx
  · exact hlogs x hx

/-- The wait that follows a registration, as part of the command. -/
theorem follows_wait {body : RegisterBody} {token : Json} (hopts : opts.wait = true)
    (hh : Submitted opts h body token) :
    (waitForApproval node opts.apiUrl (node.string token) (milliseconds opts.timeout)
        fuel).Follows (MayAct node opts)
      (fun result h' => ∃ wait, h' = h ++ wait ∧ (∀ x ∈ wait, x.1.waits) ∧
        Concluded node opts.apiUrl (node.string token) (milliseconds opts.timeout) wait result)
      (fun _ _ => False) h := by
  have hwait := (@follows_waitForApproval node opts.apiUrl (node.string token)
    (milliseconds opts.timeout) fuel).among (fun _ _ => waits_of_mayWait) (by simp)
  have hafter := hwait.after h
  rw [List.append_nil] at hafter
  refine hafter.mono ?_ ?_ ?_
  · rintro h' q ⟨wait, rfl, hq, hasked⟩
    exact mayAct_of_mayWait hopts ⟨h, rfl, hh, hasked⟩ hq
  · rintro result h' ⟨wait, rfl, hresult, hasked⟩
    exact ⟨wait, rfl, hasked, hresult⟩
  · rintro stop h' ⟨wait, -, hfalse, -⟩
    exact hfalse.elim

theorem mayAct_log (h : Log) (line : Line) : MayAct node opts h (.log line) := trivial

theorem follows_permissions {before : Log} {a : Answer} {logs : Log}
    {agentId ownerId privateKey grantedPlatforms : Json} (hsaved : a.saved = .ok ())
    (hlogs : ∀ x ∈ logs, x.1.logs)
    (hh : h = before ++ (.saveOutput agentId ownerId privateKey opts.apiUrl, a) :: logs) :
    (permissions opts.json agentId ownerId grantedPlatforms).Follows (MayAct node opts)
      (fun _ _ => True) Anyhow h := by
  rw [permissions, follows_catching_iff, Program.follows_bind_iff, writePermissions]
  split
  · exact follows_remark mayAct_log fun _ _ => trivial
  · refine Program.follows_call_iff.2 ⟨⟨before, a, privateKey, logs, hh, hsaved, hlogs⟩, fun a₂ =>
      ⟨fun _ _ => follows_remark mayAct_log fun _ _ => trivial, fun stop hstop => ?_⟩⟩
    obtain ⟨msg, -, rfl⟩ := Fallible.mapError_eq_error.1 hstop
    exact follows_remark mayAct_log fun _ _ => trivial
  · refine Program.follows_call_iff.2
      ⟨⟨before, a, agentId, ownerId, privateKey, logs, hh, hsaved, hlogs⟩, fun a₂ =>
      ⟨fun _ _ => follows_remark mayAct_log fun _ _ => trivial, fun stop hstop => ?_⟩⟩
    cases stop with
    | thrown msg => exact follows_remark mayAct_log fun _ _ => trivial
    | exit code => trivial

theorem follows_conclude {body : RegisterBody} {token : Json} {wait : Log} {result : WaitResult}
    {ownerId : String} (hopts : opts.wait = true) (hbody : body.owner_id = ownerId)
    (hh : Waiting opts h body token wait)
    (hresult : Concluded node opts.apiUrl (node.string token) (milliseconds opts.timeout) wait
      result) :
    (conclude node opts ownerId result).Follows (MayAct node opts) (fun _ _ => True) Anyhow h := by
  cases result with
  | rejected => exact Program.follows_bind_iff.2 (follows_say mayAct_log fun _ _ => trivial)
  | timeout => exact Program.follows_bind_iff.2 (follows_say mayAct_log fun _ _ => trivial)
  | expired => exact Program.follows_bind_iff.2 (follows_say mayAct_log fun _ _ => trivial)
  | approved agentId owner privateKey grantedPlatforms =>
    simp only [conclude, approved]
    split
    · rename_i hkey
      rw [Program.follows_bind_iff, follows_catching_iff, Program.follows_call_iff]
      refine ⟨⟨hopts, hkey, rfl, body, token, wait, owner, grantedPlatforms, hh, hresult, ?_⟩,
        fun a => ⟨fun _ hsaved => ?_, fun stop hstop => ?_⟩⟩
      · rw [resolvedOwner, hbody]
      · rw [Program.follows_bind_iff]
        refine follows_say mayAct_log fun logs hlogs => Program.follows_bind_iff.2 ?_
        exact (follows_permissions (Fallible.mapError_eq_ok.1 hsaved) hlogs
          (List.append_assoc _ _ _)).mono (fun _ _ h => h) (fun _ _ _ => trivial) fun _ _ h => h
      · obtain ⟨msg, -, rfl⟩ := Fallible.mapError_eq_error.1 hstop
        exact ⟨trivial, fun _ => trivial⟩
    · exact Program.follows_bind_iff.2 (follows_say mayAct_log fun _ _ => trivial)

theorem follows_of_prepares {α : Type} {p : Action α} {ret : α → Log → Prop}
    (hp : p.Sat Question.prepares (fun _ => True) fun _ => True) (hh : ∀ x ∈ h, x.1.prepares)
    (hret : ∀ a h, (∀ x ∈ h, x.1.prepares) → ret a h) :
    p.Follows (MayAct node opts) ret Anyhow h :=
  ((hp.follows h).among (fun _ _ hq => hq) hh).mono
    (fun _ _ hq => mayAct_of_prepares hq.1 hq.2) (fun a h ha => hret a h ha.2) fun _ _ _ => trivial

theorem follows_action :
    (action node env opts fuel).Follows (MayAct node opts) (fun _ _ => True) Anyhow [] := by
  simp only [action]
  rw [Program.follows_bind_iff]
  refine follows_of_prepares (sat_onboards _) (by simp) fun onboard h hh => ?_
  split
  · exact Program.follows_call_iff.2 ⟨hh, fun _ => ⟨fun _ _ => trivial, fun _ _ => trivial⟩⟩
  · rw [Program.follows_bind_iff]
    refine follows_of_prepares (sat_complete _ _) hh fun input h hh => ?_
    rw [Program.follows_bind_iff]
    refine (follows_submit hh).mono (fun _ _ h => h) ?_ fun _ _ h => h
    rintro token h ⟨body, hsubmitted, hbody⟩
    rw [Program.follows_bind_iff]
    refine follows_remark mayAct_log fun logs hlogs => ?_
    have hsubmitted := submitted_append hsubmitted hlogs
    split
    · exact Program.follows_bind_iff.2 (follows_say mayAct_log fun _ _ => trivial)
    · rename_i hwait
      have hopts : opts.wait = true := by simpa using hwait
      rw [Program.follows_bind_iff, follows_catching_iff]
      refine (follows_wait hopts hsubmitted).mono (fun _ _ h => h) ?_ fun _ _ h => h.elim
      rintro result h' ⟨wait, rfl, hasked, hresult⟩
      exact follows_conclude hopts hbody ⟨_, rfl, hsubmitted, hasked⟩ hresult

/-- The command registers once, waits only if it is to, and saves an identity only as the owner's
approval and the key that came with it have it. -/
theorem acts_process {log : Log} {o : Outcome Stop ℕ}
    (hrun : Program.Runs (process node env opts fuel) log o) :
    Program.Always (MayAct node opts) log := by
  have hfollows : (process node env opts fuel).Follows (MayAct node opts) (fun _ _ => True)
      Anyhow [] := by
    rw [process, Program.follows_bind_iff, Program.follows_attempt_iff]
    refine follows_action.mono (fun _ _ h => h) (fun _ _ _ => trivial) fun stop h _ => ?_
    cases stop with
    | exit code => trivial
    | thrown msg => exact ⟨trivial, fun _ => trivial⟩
  exact (hfollows.runs hrun).2

def sampleOptions : Options where
  owner := some "owner-1"
  name := some "agent"
  description := none
  scope := ["slack:chat:write", "gmail:send", "slack:users:read"]
  apiUrl := "https://api.agentvalet.ai"
  json := true
  wait := true
  timeout := "300"
  project := false

def sampleProcess : Log × Outcome Stop ℕ :=
  (process sampleNode (fun _ => none) sampleOptions 61).talk sampleAnswer

theorem acts_process_sample : Program.Always (MayAct sampleNode sampleOptions) sampleProcess.1 :=
  acts_process (Program.runs_talk _ _)

def printed (log : Log) : List Line :=
  log.filterMap fun x => match x.1 with
    | .log line => some line
    | _ => none

def complained (log : Log) : List Line :=
  log.filterMap fun x => match x.1 with
    | .error line => some line
    | _ => none

def report (node : Runtime) : WaitResult → Json × ℕ
  | .rejected => (.obj [("status", .str "rejected")], 1)
  | .timeout => (.obj [("status", .str "timeout")], 2)
  | .expired => (.obj [("status", .str "timeout")], 2)
  | .approved agentId _ privateKey _ =>
    (.obj [("status", .str "approved"), ("agentId", agentId),
      ("keyPath", if truthy (some privateKey) then .str (AGENT_KEY_PATH node.home) else .null)], 0)

/-- The command prints one line, and that line and the exit code say how it went: an error, a
registration not waited for, or what came of the wait.  Only where it refreshes the permissions
after an approval can the code be that of the refresh. -/
inductive Reported (node : Runtime) (opts : Options) (log : Log) : ℕ → Prop where
  | failed {msg : String} : printed log = [] →
    complained log = [.json (.obj [("error", .str msg)])] → Reported node opts log 3
  | pending {before after : Log} {body : RegisterBody} {token : Json} : opts.wait = false →
    log = before ++ after → Submitted opts before body token →
    printed log = [.json (.obj [("status", .str "pending"), ("token", token)])] →
    complained log = [] → Reported node opts log 0
  | decided {before after wait : Log} {body : RegisterBody} {token : Json} {result : WaitResult}
    {code : ℕ} : log = before ++ after → Waiting opts before body token wait →
    Concluded node opts.apiUrl (node.string token) (milliseconds opts.timeout) wait result →
    printed log = [.json (report node result).1] → complained log = [] →
    code = (report node result).2 ∨
      (∃ x ∈ after, x.1 = .runRefresh true ∧ x.2.refreshed = .error (.exit code)) →
    Reported node opts log code

def Question.quiet : Question → Prop
  | .log _ | .error _ => False
  | _ => True

theorem printed_append (h h' : Log) : printed (h ++ h') = printed h ++ printed h' :=
  List.filterMap_append

theorem complained_append (h h' : Log) : complained (h ++ h') = complained h ++ complained h' :=
  List.filterMap_append

theorem printed_of_quiet (hh : ∀ x ∈ h, x.1.quiet) : printed h = [] := by
  refine List.filterMap_eq_nil_iff.2 fun x hx => ?_
  have hq := hh x hx
  cases hx1 : x.1 with
  | log line =>
    rw [hx1] at hq
    exact hq.elim
  | _ => rfl

theorem complained_of_quiet (hh : ∀ x ∈ h, x.1.quiet) : complained h = [] := by
  refine List.filterMap_eq_nil_iff.2 fun x hx => ?_
  have hq := hh x hx
  cases hx1 : x.1 with
  | error line =>
    rw [hx1] at hq
    exact hq.elim
  | _ => rfl

theorem quiet_of_waits {q : Question} (hq : q.waits) : q.quiet := by
  cases q with
  | log line => exact hq.elim
  | error line => exact hq.elim
  | _ => trivial

theorem quiet_concat {q : Question} {a : Answer} (hh : ∀ x ∈ h, x.1.quiet) (hq : q.quiet) :
    ∀ x ∈ h ++ [(q, a)], x.1.quiet := by
  intro x hx
  obtain hx | hx := List.mem_append.1 hx
  · exact hh x hx
  · rw [List.mem_singleton.1 hx]
    exact hq

def Ends (node : Runtime) (opts : Options) (stop : Stop) (h : Log) : Prop :=
  ∃ code, stop = .exit code ∧ Reported node opts h code

abbrev Freely : Log → Question → Prop := fun _ _ => True

theorem follows_fail_json {α : Type} {ret : α → Log → Prop} {machine reader : String}
    (hh : ∀ x ∈ h, x.1.quiet) :
    (fail true machine reader : Action α).Follows Freely ret (Ends node opts) h := by
  refine ⟨trivial, fun a => ⟨3, rfl, @Reported.failed _ _ _ machine ?_ ?_⟩⟩
  · rw [printed_append, printed_of_quiet hh]
    rfl
  · rw [complained_append, complained_of_quiet hh]
    rfl

section
variable {body : RegisterBody} {token : Json} {wait : Log} {result : WaitResult} {ownerId : String}

theorem reported_decided {after : Log} {code : ℕ} (hquiet : ∀ x ∈ h, x.1.quiet)
    (hh : Waiting opts h body token wait)
    (hresult : Concluded node opts.apiUrl (node.string token) (milliseconds opts.timeout) wait
      result)
    (hprinted : printed after = [.json (report node result).1])
    (hcomplained : complained after = [])
    (hcode : code = (report node result).2 ∨
      (∃ x ∈ after, x.1 = .runRefresh true ∧ x.2.refreshed = .error (.exit code))) :
    Reported node opts (h ++ after) code := by
  refine .decided rfl hh hresult ?_ ?_ hcode
  · rw [printed_append, printed_of_quiet hquiet, hprinted, List.nil_append]
  · rw [complained_append, complained_of_quiet hquiet, hcomplained, List.nil_append]

theorem follows_permissions_json {agentId owner grantedPlatforms : Json} {exc : Stop → Log → Prop}
    {ret : Unit → Log → Prop}
    (hret : ∀ logs : Log, (∀ x ∈ logs, x.1.quiet) → ret () (h ++ logs))
    (hexc : ∀ a code, a.refreshed = .error (.exit code) →
      exc (.exit code) (h ++ [(.runRefresh true, a)])) :
    (permissions true agentId owner grantedPlatforms).Follows Freely ret exc h := by
  have hone : ∀ q a, Question.quiet q → ret () (h ++ [(q, a)]) := fun q a hq =>
    hret [(q, a)] (by simpa using hq)
  rw [permissions, follows_catching_iff, Program.follows_bind_iff, writePermissions]
  split
  · have hnone := hret [] (by simp)
    rwa [List.append_nil] at hnone
  · refine Program.follows_call_iff.2 ⟨trivial, fun a =>
      ⟨fun _ _ => hone _ a trivial, fun stop hstop => ?_⟩⟩
    obtain ⟨msg, -, rfl⟩ := Fallible.mapError_eq_error.1 hstop
    exact hone _ a trivial
  · refine Program.follows_call_iff.2 ⟨trivial, fun a =>
      ⟨fun _ _ => hone _ a trivial, fun stop hstop => ?_⟩⟩
    cases stop with
    | thrown msg => exact hone _ a trivial
    | exit code => exact hexc a code hstop

theorem follows_conclude_json (hjson : opts.json = true) (hquiet : ∀ x ∈ h, x.1.quiet)
    (hh : Waiting opts h body token wait)
    (hresult : Concluded node opts.apiUrl (node.string token) (milliseconds opts.timeout) wait
      result) :
    (conclude node opts ownerId result).Follows Freely (fun _ _ => False) (Ends node opts) h := by
  have hends : ∀ (after : Log) code, printed after = [.json (report node result).1] →
      complained after = [] → (code = (report node result).2 ∨
        (∃ x ∈ after, x.1 = .runRefresh true ∧ x.2.refreshed = .error (.exit code))) →
      Ends node opts (.exit code) (h ++ after) := fun after code hprinted hcomplained hcode =>
    ⟨code, rfl, reported_decided hquiet hh hresult hprinted hcomplained hcode⟩
  cases result with
  | rejected =>
    simp only [conclude, say, hjson, if_true]
    exact ⟨trivial, fun a => hends [(_, a)] 1 rfl rfl (Or.inl rfl)⟩
  | timeout =>
    simp only [conclude, say, hjson, if_true]
    exact ⟨trivial, fun a => hends [(_, a)] 2 rfl rfl (Or.inl rfl)⟩
  | expired =>
    simp only [conclude, say, hjson, if_true]
    exact ⟨trivial, fun a => hends [(_, a)] 2 rfl rfl (Or.inl rfl)⟩
  | approved agentId owner privateKey grantedPlatforms =>
    simp only [conclude, approved, say, hjson, if_true]
    split
    · rename_i hkey
      rw [Program.follows_bind_iff, follows_catching_iff, Program.follows_call_iff]
      refine ⟨trivial, fun a => ⟨fun _ _ => ?_, fun stop hstop => ?_⟩⟩
      · rw [Program.follows_bind_iff, follows_tell_iff]
        refine ⟨trivial, fun a₂ => Program.follows_bind_iff.2 ?_⟩
        have hreport : (report node (.approved agentId owner privateKey grantedPlatforms)).1 =
            .obj [("status", .str "approved"), ("agentId", agentId),
              ("keyPath", .str (AGENT_KEY_PATH node.home))] := by
          simp only [report, if_pos hkey]
        refine follows_permissions_json (fun logs htail => ?_) fun a₃ code hcode => ?_
        · rw [follows_exit_iff, List.append_assoc, List.append_assoc]
          refine hends _ 0 ?_ ?_ (Or.inl rfl)
          · rw [hreport, printed_append, printed_append, printed_of_quiet htail]
            rfl
          · rw [complained_append, complained_append, complained_of_quiet htail]
            rfl
        · rw [List.append_assoc, List.append_assoc]
          refine hends _ code ?_ rfl (Or.inr ⟨(.runRefresh true, a₃), by simp, rfl, hcode⟩)
          rw [hreport]
          rfl
      · obtain ⟨msg, -, rfl⟩ := Fallible.mapError_eq_error.1 hstop
        exact follows_fail_json (quiet_concat hquiet trivial)
    · rename_i hkey
      refine ⟨trivial, fun a => hends [(_, a)] 0 ?_ rfl (Or.inl rfl)⟩
      simp only [report, if_neg hkey]
      rfl

end

theorem follows_submit_json {input : WizardInput} (hjson : opts.json = true)
    (hh : ∀ x ∈ h, x.1.prepares ∧ x.1.quiet) :
    (submit node opts input).Follows Freely
      (fun token h => (∃ body, Submitted opts h body token) ∧ ∀ x ∈ h, x.1.quiet)
      (Ends node opts) h := by
  have hquiet : ∀ x ∈ h, x.1.quiet := fun x hx => (hh x hx).2
  rw [submit, hjson]
  split
  · exact follows_fail_json hquiet
  · split
    · exact follows_fail_json hquiet
    · rw [follows_catching_iff]
      refine follows_registerAgent trivial (fun a token htoken => ⟨?_, quiet_concat hquiet trivial⟩)
        fun a msg => follows_fail_json (quiet_concat hquiet trivial)
      exact ⟨_, h, a, [], rfl, fun x hx => (hh x hx).1, htoken, by simp⟩

theorem follows_action_json (hjson : opts.json = true)
    (howner : (opts.owner <|> env "AGENTVALET_OWNER").getD "" ≠ "") :
    (action node env opts fuel).Follows Freely (fun _ _ => False) (Ends node opts) [] := by
  have honboards : onboards ((opts.owner <|> env "AGENTVALET_OWNER").getD "") = pure false :=
    if_pos howner
  simp only [action, honboards]
  change (complete _ _ >>= _).Follows _ _ _ _
  rw [Program.follows_bind_iff, complete, hjson]
  by_cases hname : opts.name.getD "" ≠ ""
  · rw [if_pos hname, Program.follows_pure_iff, Program.follows_bind_iff]
    refine (follows_submit_json hjson (by simp)).mono (fun _ _ h => h) ?_ fun _ _ h => h
    rintro token h ⟨⟨body, hsubmitted⟩, hquiet⟩
    simp only [remark, say, if_true]
    change (ite _ _ _ : Action Unit).Follows _ _ _ _
    split
    · rename_i hwait
      refine ⟨trivial, fun a => ⟨0, rfl, .pending (by simpa using hwait) rfl hsubmitted ?_ ?_⟩⟩
      · rw [printed_append, printed_of_quiet hquiet]
        rfl
      · rw [complained_append, complained_of_quiet hquiet]
        rfl
    · rename_i hwait
      have hopts : opts.wait = true := by simpa using hwait
      rw [Program.follows_bind_iff, follows_catching_iff]
      refine (follows_wait hopts hsubmitted).mono (fun _ _ _ => trivial) ?_ fun _ _ h => h.elim
      rintro result h' ⟨wait, rfl, hasked, hresult⟩
      refine follows_conclude_json hjson ?_ ⟨_, rfl, hsubmitted, hasked⟩ hresult
      intro x hx
      obtain hx | hx := List.mem_append.1 hx
      · exact hquiet x hx
      · exact quiet_of_waits (hasked x hx)
  · rw [if_neg hname, if_pos rfl]
    exact follows_fail_json (by simp)

/-- A caller that gives an owner and asks for JSON reads one line of JSON, and the exit code agrees
with it. -/
theorem reported_process (hjson : opts.json = true)
    (howner : (opts.owner <|> env "AGENTVALET_OWNER").getD "" ≠ "") {log : Log}
    {o : Outcome Stop ℕ} (hrun : Program.Runs (process node env opts fuel) log o) :
    o.Sat (Reported node opts log) fun _ => False := by
  have hfollows : (process node env opts fuel).Follows Freely
      (fun code h => Reported node opts h code) (fun _ _ => False) [] := by
    rw [process, Program.follows_bind_iff, Program.follows_attempt_iff]
    refine (follows_action_json hjson howner).mono (fun _ _ h => h) (fun _ _ h => h.elim) ?_
    rintro stop h ⟨code, rfl, hreported⟩
    exact hreported
  exact (hfollows.runs hrun).1

theorem returned_sampleProcess : sampleProcess.2 = .returned 0 := by
  decide +kernel

theorem reported_process_sample : Reported sampleNode sampleOptions sampleProcess.1 0 := by
  have hreported := @reported_process sampleNode (fun _ => none) sampleOptions 61 rfl
    (by decide) _ _ (Program.runs_talk sampleAnswer _)
  change sampleProcess.2.Sat _ _ at hreported
  rw [returned_sampleProcess] at hreported
  exact hreported

end AgentValet.Cli
