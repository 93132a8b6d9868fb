import AgentValet.Base.Deadline
import AgentValet.Cli.Register

namespace AgentValet.Cli
open Base Lang JavaScript Approvals Approvals.EventStreams

variable {node : Runtime} {env : String → Option String} {opts : Options} {apiUrl token : String}
  {timeoutMs : Double} {fuel : ℕ}

abbrev Log := List (Question × Answer)

section
variable {α : Type} {may : Log → Question → Prop} {ret : α → Log → Prop} {exc : Stop → Log → Prop}
  {h : Log}

@[simp] theorem follows_tell_iff {q : Question} {ret : Unit → Log → Prop} :
    (tell q).Follows may ret exc h ↔ may h q ∧ ∀ a, ret () (h ++ [(q, a)]) := Iff.rfl

@[simp] theorem follows_exit_iff {code : ℕ} :
    (exit code : Action α).Follows may ret exc h ↔ exc (.exit code) h := Iff.rfl

@[simp] theorem follows_catching_iff {p : Action α} {handler : String → Action α} :
    (catching p handler).Follows may ret exc h ↔
      p.Follows may ret (fun stop h => match stop with
        | .thrown msg => (handler msg).Follows may ret exc h
        | .exit code => exc (.exit code) h) h := by
  rw [catching, Program.follows_bind_iff, Program.follows_attempt_iff]
  refine iff_of_eq (congrArg (fun e => Program.Follows may ret e h p) ?_)
  funext stop h
  cases stop <;> rfl

end

/-- What an exchange tells of the owner's decision. -/
def heard (node : Runtime) (apiUrl token : String) : Question × Answer → Option WaitResult
  | (.stream _ _, a) => (trySSE node.parse a.connection).result
  | (.fetch r, a) => if r.url = (statusRequest apiUrl token).url then polled a.reply else none
  | _ => none

def Undecided (node : Runtime) (apiUrl token : String) (h : Log) : Prop :=
  ∀ x ∈ h, heard node apiUrl token x = none

def deadlineOf (timeoutMs : Double) : Log → Double
  | (_, a) :: _ => deadline a.time timeoutMs
  | [] => .nan

/-- The last look at the clock found time left, or none. -/
def ClockReads (timeoutMs : Double) (left : Bool) (h : Log) : Prop :=
  ∃ before a, h = before ++ [(.now, a)] ∧
    Double.lt (.finite a.time) (deadlineOf timeoutMs h) = left

def DecidedLast (node : Runtime) (apiUrl token : String) (h : Log) (result : WaitResult) : Prop :=
  ∃ before x, h = before ++ [x] ∧ Undecided node apiUrl token before ∧
    heard node apiUrl token x = some result

/-- What may be asked while waiting: the stream once, a poll only after five seconds that were
started before the deadline, nothing more after a decision but for the key, and the key only after
an approval. -/
def MayWait (node : Runtime) (apiUrl token : String) (timeoutMs : Double) (h : Log) :
    Question → Prop
  | .now => Undecided node apiUrl token h
  | .stream r windowMs => r = streamRequest apiUrl token ∧ windowMs = timeoutMs ∧
    ∃ a, h = [(.now, a)]
  | .sleep ms => ms = 5000 ∧ Undecided node apiUrl token h ∧ ClockReads timeoutMs true h
  | .fetch r => r = statusRequest apiUrl token ∧ Undecided node apiUrl token h ∧
      (∃ before a, h = before ++ [(.sleep 5000, a)] ∧ ClockReads timeoutMs true before) ∨
    r = claimKeyRequest apiUrl token ∧ ∃ agentId ownerId grantedPlatforms,
      DecidedLast node apiUrl token h (.approved agentId ownerId (.str "") grantedPlatforms)
  | _ => False

/-- How a wait ends: at the first look at the clock after the deadline, or with the first decision,
to which an approval adds the key it is given then, if any. -/
inductive Concluded (node : Runtime) (apiUrl token : String) (timeoutMs : Double) :
    Log → WaitResult → Prop where
  | late {h : Log} : Undecided node apiUrl token h → ClockReads timeoutMs false h →
    Concluded node apiUrl token timeoutMs h .timeout
  | rejected {h : Log} : DecidedLast node apiUrl token h .rejected →
    Concluded node apiUrl token timeoutMs h .rejected
  | expired {h : Log} : DecidedLast node apiUrl token h .expired →
    Concluded node apiUrl token timeoutMs h .expired
  | approved {h : Log} {a : Answer} {agentId ownerId grantedPlatforms : Json} :
    DecidedLast node apiUrl token h (.approved agentId ownerId (.str "") grantedPlatforms) →
    Concluded node apiUrl token timeoutMs (h ++ [(.fetch (claimKeyRequest apiUrl token), a)])
      (.approved agentId ownerId ((claimed a.reply).getD (.str "")) grantedPlatforms)

/-- What an event can decide for: an approval brings no key, and no event times out. -/
def Announced : WaitResult → Prop
  | .approved _ _ privateKey _ => privateKey = .str ""
  | .timeout => False
  | _ => True

theorem announced_of_parseEvent {data : Json} {result : WaitResult}
    (h : parseEvent data = some result) : Announced result := by
  simp only [parseEvent] at h
  split_ifs at h
  · split at h
    · cases h
    · cases h
      rfl
  · cases h
    trivial
  · cases h
    trivial

theorem announced_of_decisive {parse : Text → Option Json} {line : Text} {result : WaitResult}
    (h : decisive parse line = some result) : Announced result := by
  simp only [decisive] at h
  split_ifs at h
  obtain ⟨data, -, hdata⟩ := Option.bind_eq_some_iff.1 h
  exact announced_of_parseEvent hdata

theorem announced_of_trySSE {parse : Text → Option Json} {connection : Connection}
    {result : WaitResult} (h : (trySSE parse connection).result = some result) :
    Announced result := by
  cases connection with
  | unanswered => cases h
  | refused => cases h
  | stream chunks ending =>
    rw [trySSE_stream] at h
    obtain ⟨line, -, hline⟩ := List.exists_of_findSome?_eq_some h
    exact announced_of_decisive hline

theorem announced_of_polled {reply : Except String RegisterReply} {result : WaitResult}
    (h : polled reply = some result) : Announced result := by
  rw [polled.eq_def] at h
  split at h
  · cases h
  · split_ifs at h
    split at h
    · cases h
    · exact announced_of_parseEvent h

theorem announced_of_heard {x : Question × Answer} {result : WaitResult}
    (h : heard node apiUrl token x = some result) : Announced result := by
  rw [heard.eq_def] at h
  split at h
  · exact announced_of_trySSE h
  · split_ifs at h
    exact announced_of_polled h
  · cases h

theorem undecided_concat {h : Log} {x : Question × Answer} (hh : Undecided node apiUrl token h)
    (hx : heard node apiUrl token x = none) : Undecided node apiUrl token (h ++ [x]) := by
  intro y hy
  obtain hy | hy := List.mem_append.1 hy
  · exact hh y hy
  · rw [List.mem_singleton.1 hy, hx]

theorem deadlineOf_append {h : Log} (hne : h ≠ []) (h' : Log) :
    deadlineOf timeoutMs (h ++ h') = deadlineOf timeoutMs h := by
  cases h with
  | nil => exact absurd rfl hne
  | cons x h => rfl

def PollEnds (node : Runtime) (apiUrl token : String) (timeoutMs : Double) (result : WaitResult)
    (h : Log) : Prop :=
  DecidedLast node apiUrl token h result ∨
    result = .timeout ∧ Undecided node apiUrl token h ∧ ClockReads timeoutMs false h

theorem follows_poll {h : Log} (hne : h ≠ []) (hh : Undecided node apiUrl token h) :
    (poll apiUrl token (deadlineOf timeoutMs h) fuel).Follows
      (MayWait node apiUrl token timeoutMs) (PollEnds node apiUrl token timeoutMs)
      (fun _ _ => False) h := by
  induction fuel generalizing h with
  | zero => trivial
  | succ fuel ih =>
    simp only [poll, Program.follows_bind_iff, Program.follows_query_iff]
    refine ⟨hh, fun a => ?_⟩
    have hclock := undecided_concat hh (x := (.now, a)) rfl
    have hreads : ∀ left, Double.lt (.finite a.time) (deadlineOf timeoutMs h) = left →
        ClockReads timeoutMs left (h ++ [(.now, a)]) := fun left hleft =>
      ⟨h, a, rfl, by rw [deadlineOf_append hne, hleft]⟩
    split
    · rename_i hlt
      simp only [Program.follows_bind_iff, follows_tell_iff, Program.follows_query_iff]
      refine ⟨⟨rfl, hclock, hreads true hlt⟩, fun a₂ => ?_⟩
      have hslept := undecided_concat hclock (x := (.sleep 5000, a₂)) rfl
      refine ⟨Or.inl ⟨rfl, hslept, _, a₂, rfl, hreads true hlt⟩, fun a₃ => ?_⟩
      have hpoll : heard node apiUrl token (.fetch (statusRequest apiUrl token), a₃) =
          polled a₃.reply := if_pos rfl
      split
      · rename_i result hresult
        exact Or.inl ⟨_, _, rfl, hslept, hpoll.trans hresult⟩
      · rename_i hresult
        have hrest := ih (by simp) (undecided_concat hslept (hpoll.trans hresult))
        rwa [deadlineOf_append (by simp), deadlineOf_append (by simp),
          deadlineOf_append hne] at hrest
    · rename_i hlt
      exact Or.inr ⟨rfl, hclock, hreads false (by simpa using hlt)⟩

theorem follows_enrichWithKey {h : Log} {result : WaitResult}
    (hh : PollEnds node apiUrl token timeoutMs result h) :
    (enrichWithKey apiUrl token result).Follows (MayWait node apiUrl token timeoutMs)
      (fun result h => Concluded node apiUrl token timeoutMs h result) (fun _ _ => False) h := by
  obtain hdecided | ⟨rfl, hundecided, hlate⟩ := hh
  · obtain ⟨before, x, hx, hbefore, hheard⟩ := id hdecided
    have hannounced := announced_of_heard hheard
    cases result with
    | approved agentId ownerId privateKey grantedPlatforms =>
      obtain rfl : privateKey = .str "" := hannounced
      exact ⟨Or.inr ⟨rfl, _, _, _, hdecided⟩, fun a => .approved hdecided⟩
    | rejected => exact .rejected hdecided
    | timeout => exact hannounced.elim
    | expired => exact .expired hdecided
  · exact .late hundecided hlate

theorem follows_waitForApproval :
    (waitForApproval node apiUrl token timeoutMs fuel).Follows
      (MayWait node apiUrl token timeoutMs)
      (fun result h => Concluded node apiUrl token timeoutMs h result) (fun _ _ => False) [] := by
  simp only [waitForApproval, Program.follows_bind_iff, Program.follows_query_iff]
  refine ⟨by simp [MayWait, Undecided], fun a => ⟨⟨rfl, rfl, a, rfl⟩, fun a₂ => ?_⟩⟩
  have hclock : Undecided node apiUrl token [(.now, a)] :=
    undecided_concat (h := []) (by simp [Undecided]) rfl
  split
  · rename_i result hresult
    exact follows_enrichWithKey (Or.inl ⟨_, _, rfl, hclock, hresult⟩)
  · rename_i hresult
    have hsilent := undecided_concat (x := (.stream (streamRequest apiUrl token) timeoutMs, a₂))
      hclock hresult
    have hpoll := @follows_poll node apiUrl token timeoutMs fuel _ (by simp) hsilent
    exact Program.follows_bind_iff.2 (hpoll.mono (fun _ _ h => h)
      (fun result h hends => follows_enrichWithKey hends) fun _ _ h => h)

/-- After the look at the clock that sets the deadline the stream is asked for, and never again. -/
def Opened (apiUrl token : String) (timeoutMs : Double) (log : Log) : Prop :=
  ∃ a a₂ rest, log = (.now, a) :: (.stream (streamRequest apiUrl token) timeoutMs, a₂) :: rest ∧
    ∀ x ∈ rest, ∀ r windowMs, x.1 ≠ .stream r windowMs

/-- The clock does not run back, and a timer takes its time. -/
def Timed : ℚ → Log → Prop
  | _, [] => True
  | t, (.now, a) :: log => t ≤ a.time ∧ Timed a.time log
  | t, (.sleep ms, _) :: log => Timed (t + ms) log
  | t, _ :: log => Timed t log

def rounds (now : ℚ) : Double → ℕ
  | .finite deadline => ⌈(deadline - now) / 5000⌉₊
  | _ => 0

/-- The clock is as it should be, and the timeout is finite and leaves time for fewer rounds. -/
def InTime (timeoutMs : Double) (fuel : ℕ) : Log → Prop
  | (.now, a) :: log => Timed a.time log ∧ deadline a.time timeoutMs ≠ .inf false ∧
    rounds a.time (deadline a.time timeoutMs) < fuel
  | _ => False

/-- One round of the loop: it decides, or goes on after a timer and a poll. -/
theorem runs_poll_succ {deadline : Double} {log : Log} {o : Outcome Stop WaitResult}
    (hrun : Program.Runs (poll apiUrl token deadline (fuel + 1)) log o) :
    ∃ a log', log = (.now, a) :: log' ∧ (log' = [] ∧ o ≠ .unfinished ∨
      Double.lt (.finite a.time) deadline = true ∧ ∃ a₂ a₃ log'',
        log' = (.sleep 5000, a₂) :: (.fetch (statusRequest apiUrl token), a₃) :: log'' ∧
          (log'' = [] ∧ o ≠ .unfinished ∨
            Program.Runs (poll apiUrl token deadline fuel) log'' o)) := by
  obtain ⟨a, log', rfl, hrest⟩ := Program.runs_query_bind hrun
  refine ⟨a, log', rfl, ?_⟩
  split at hrest
  · rename_i hlt
    obtain ⟨a₂, log', rfl, hpoll⟩ := Program.runs_query_bind hrest
    obtain ⟨a₃, log', rfl, hdecides⟩ := Program.runs_query_bind hpoll
    refine Or.inr ⟨hlt, a₂, a₃, log', rfl, ?_⟩
    split at hdecides
    · cases hdecides
      exact Or.inl ⟨rfl, fun h => by cases h⟩
    · exact Or.inr hdecides
  · cases hrest
    exact Or.inl ⟨rfl, fun h => by cases h⟩

theorem rounds_of_unfinished_poll {deadline : Double} {t : ℚ} {log : Log}
    (hdeadline : deadline ≠ .inf false)
    (hrun : Program.Runs (poll apiUrl token deadline fuel) log .unfinished)
    (htimed : Timed t log) : fuel ≤ rounds t deadline := by
  induction fuel generalizing t log with
  | zero => exact Nat.zero_le _
  | succ fuel ih =>
    obtain ⟨a, log, rfl, ⟨-, ho⟩ | ⟨hlt, a₂, a₃, log, rfl, hrest⟩⟩ := runs_poll_succ hrun
    · exact absurd rfl ho
    · cases deadline with
      | finite deadline =>
        have hnow : a.time < deadline := by simpa [Double.lt] using hlt
        have hceil := ceil_after_step (by norm_num : (0 : ℚ) < 5000) htimed.1 hnow
        obtain ⟨-, ho⟩ | hrun := hrest
        · exact absurd rfl ho
        · have hless := ih hrun (by simpa [Timed] using htimed.2 : Timed (a.time + 5000) log)
          simp only [rounds] at hless ⊢
          omega
      | inf negative =>
        cases negative with
        | true => cases hlt
        | false => exact absurd rfl hdeadline
      | nan => cases hlt

theorem total_enrichWithKey (result : WaitResult) :
    (enrichWithKey apiUrl token result).Total := by
  cases result with
  | approved agentId ownerId privateKey grantedPlatforms => exact fun _ => trivial
  | rejected | timeout | expired => trivial

/-- The two questions that every wait begins with. -/
theorem runs_waitForApproval {log : Log} {o : Outcome Stop WaitResult}
    (hrun : Program.Runs (waitForApproval node apiUrl token timeoutMs fuel) log o) :
    ∃ a a₂ rest, log = (.now, a) :: (.stream (streamRequest apiUrl token) timeoutMs, a₂) :: rest ∧
      (o = .unfinished →
        Program.Runs (poll apiUrl token (deadline a.time timeoutMs) fuel) rest .unfinished) := by
  obtain ⟨a, log, rfl, hopen⟩ := Program.runs_query_bind hrun
  obtain ⟨a₂, rest, rfl, hrest⟩ := Program.runs_query_bind hopen
  refine ⟨a, a₂, rest, rfl, ?_⟩
  rintro rfl
  split at hrest
  · exact absurd rfl ((total_enrichWithKey _).runs hrest)
  · obtain ⟨result, before, after, -, -, hafter⟩ | ⟨err, h, -⟩ | ⟨-, hpoll⟩ :=
      Program.runs_bind hrest
    · exact absurd rfl ((total_enrichWithKey _).runs hafter)
    · cases h
    · exact hpoll

/-- A wait opens the stream once and first, asks only what may be asked while waiting, throws
nothing, and ends at the first look at the clock after its deadline or with the first decision,
whatever is said of the key; and it does end, if the clock goes on. -/
theorem concluded_waitForApproval {log : Log} {o : Outcome Stop WaitResult}
    (hrun : Program.Runs (waitForApproval node apiUrl token timeoutMs fuel) log o) :
    Opened apiUrl token timeoutMs log ∧ Program.Always (MayWait node apiUrl token timeoutMs) log ∧
      o.Sat (Concluded node apiUrl token timeoutMs log) (fun _ => False) ∧
      (InTime timeoutMs fuel log → o ≠ .unfinished) := by
  obtain ⟨hout, hmay⟩ := follows_waitForApproval.runs hrun
  obtain ⟨a, a₂, rest, rfl, hpoll⟩ := runs_waitForApproval hrun
  refine ⟨⟨a, a₂, rest, rfl, ?_⟩, hmay, hout, ?_⟩
  · rintro x hx r windowMs hq
    obtain ⟨before, after, rfl⟩ := List.append_of_mem hx
    have hfirst := hmay
      ((.now, a) :: (.stream (streamRequest apiUrl token) timeoutMs, a₂) :: before)
      x.1 x.2 after rfl
    rw [hq] at hfirst
    obtain ⟨-, -, b, hbefore⟩ := hfirst
    cases hbefore
  · rintro ⟨htimed, hfinite, hrounds⟩ rfl
    exact absurd (rounds_of_unfinished_poll hfinite (hpoll rfl) htimed)
      (Nat.not_le_of_lt hrounds)

def sampleNode : Runtime where
  parse _ := some (.obj [("status", .str "approved"), ("agent_id", .str "agent-1")])
  string
    | .str s => s
    | _ => ""
  home := "/home/user"

def sampleAnswer : Question → Answer
  | q =>
    let reply : RegisterReply :=
      { status := 200
        json := .ok (.obj [match q with
          | .fetch r =>
            if r.method = "POST" then ("registration_token", .str "token-1")
            else ("private_key", .str "key-1")
          | _ => ("", .null)]) }
    { time := 0
      stored := .ok []
      onboarded := .ok ()
      answers := none
      reply := .ok reply
      connection := .stream ["data: now\n".toList] .closed
      saved := .ok ()
      written := .ok ()
      refreshed := .ok () }

def sampleWait : Log × Outcome Stop WaitResult :=
  (waitForApproval sampleNode "https://api.agentvalet.ai" "token-1" (.finite 300000) 61).talk
    sampleAnswer

theorem concluded_waitForApproval_sample :
    Opened "https://api.agentvalet.ai" "token-1" (.finite 300000) sampleWait.1 ∧
      Program.Always (MayWait sampleNode "https://api.agentvalet.ai" "token-1" (.finite 300000))
        sampleWait.1 ∧
      sampleWait.2.Sat (Concluded sampleNode "https://api.agentvalet.ai" "token-1"
        (.finite 300000) sampleWait.1) (fun _ => False) ∧
      sampleWait.2 ≠ .unfinished := by
  obtain ⟨hopened, hmay, hout, hends⟩ := @concluded_waitForApproval sampleNode
    "https://api.agentvalet.ai" "token-1" (.finite 300000) 61 _ _ (Program.runs_talk sampleAnswer _)
  have hdeadline : deadline 0 (.finite 300000) = .finite 300000 := by
    have hcast := @Double.ofRat_intCast 300000 (by norm_num)
    simpa [deadline] using hcast
  refine ⟨hopened, hmay, hout, hends ⟨trivial, ?_, ?_⟩⟩
  · change deadline 0 (.finite 300000) ≠ _
    rw [hdeadline]
    exact fun h => by cases h
  · change rounds 0 (deadline 0 (.finite 300000)) < 61
    rw [hdeadline, rounds]
    norm_num

end AgentValet.Cli
