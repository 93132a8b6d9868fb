import AgentValet.Base.Exchanges
import AgentValet.Mcp.Handlers

namespace AgentValet.Mcp
open Base Lang Approvals

/-- How far things are: the time in milliseconds, and the requests that were made. -/
structure Course where
  time : ℕ
  fetches : ℕ

structure Network where
  took : ℕ → ℕ
  inTime : ∀ n, took n ≤ 15000
  fetched : ℕ → Except String Reply

def Network.answer (net : Network) : Effect → Course → Moment × Course
  | .fetch _ _, c =>
    (⟨(c.time + net.took c.fetches : ℕ), net.fetched c.fetches⟩,
      ⟨c.time + net.took c.fetches, c.fetches + 1⟩)
  | .sleep ms, c => (⟨(c.time + ms : ℕ), net.fetched c.fetches⟩, { c with time := c.time + ms })
  | .now, c => (⟨c.time, net.fetched c.fetches⟩, c)
  | .notification _, c => (⟨c.time, net.fetched c.fetches⟩, c)

variable {Key : Type} (rt : Runtime Key) (ctx : ServerContext Key) (net : Network)
  (approvalId : Json)

def pollRound : Prog (Except Fault Reply) := do
  sleep approvalPollIntervalMs
  (pollApproval rt ctx approvalId).attempt

def pending (response : Reply) : Bool :=
  response.ok && match (response.text.toOption.bind rt.parse).bind JavaScript.properties with
    | none => false
    | some body => (McpServer.interpret body).isNone

/-- A poll that fails leaves the approval pending, too. -/
def goesOn : Outcome Fault (Except Fault Reply) → Bool
  | .returned (.error _) => true
  | .returned (.ok response) => pending rt response
  | .threw _ => false
  | .unfinished => false

def entered (start : Course) : ℕ → Course
  | 0 => start
  | k + 1 => ((pollRound rt ctx approvalId).exec net.answer (entered start k)).2

/-- The wait as a loop of polls within the budget, with whether a poll decides. -/
def polls (start : Course) : PollLoop Bool Unit where
  running k := (entered rt ctx net approvalId start k).time < start.time + approvalPollBudgetMs
  poll k :=
    if goesOn rt ((pollRound rt ctx approvalId).exec net.answer
      (entered rt ctx net approvalId start k)).1 then none else some true
  advance _ s := s
  late := false

/-- How many rounds the wait has taken where it stops. -/
def roundsTaken (x : Stopped Bool Unit) : ℕ := if x.verdict then x.poll + 1 else x.poll

def hostTimeoutMs : ℕ := 60000

def PollsInTime (start : Course) (limitMs : ℕ) : Prop :=
  ∀ k, (polls rt ctx net approvalId start).Reaches k →
    (entered rt ctx net approvalId start (k + 1)).time < start.time + limitMs

def Costs {α : Type} (net : Network) (p : Prog α) (ms : ℕ) : Prop :=
  ∀ c : Course, (p.exec net.answer c).2.time ≤ c.time + ms

section
variable {net : Network} {α β : Type} {p : Prog α} {f : α → Prog β} {a b ms : ℕ}

theorem Costs.bind (hp : Costs net p a) (hf : ∀ x, Costs net (f x) b) :
    Costs net (p >>= f) (a + b) := by
  intro c
  have hfirst := hp c
  rw [Program.exec_bind]
  cases h : p.exec net.answer c with
  | mk outcome c' =>
    rw [h] at hfirst
    simp only at hfirst
    cases outcome with
    | returned x =>
      have hsecond := hf x c'
      simp only [Program.andThen]
      omega
    | threw e =>
      simp only [Program.andThen]
      omega
    | unfinished =>
      simp only [Program.andThen]
      omega

theorem costs_free {e : Except Fault α} : Costs net (Program.ofExcept e) 0 := by
  intro c
  cases e <;> exact Nat.le_refl _

theorem costs_now : Costs net now 0 := fun _ => Nat.le_refl _

theorem costs_sleep (ms : ℕ) : Costs net (sleep ms) ms := fun _ => Nat.le_refl _

theorem costs_fetchWithTimeout (hms : ∀ n, net.took n ≤ ms) (r : Request) (timeoutMs : ℕ) :
    Costs net (fetchWithTimeout r timeoutMs) ms := by
  have hfetch : Costs net (Program.query (.fetch r timeoutMs) Moment.fetched) ms :=
    fun c => Nat.add_le_add_left (hms c.fetches) c.time
  exact hfetch.bind fun _ => costs_free

theorem costs_signJWT (rt : Runtime Key) (ctx : ServerContext Key) :
    Costs net (signJWT rt ctx) 0 := by
  unfold signJWT
  cases ctx.privateKey with
  | none => exact fun _ => Nat.le_refl _
  | some key => exact costs_now.bind fun _ => costs_now.bind fun _ => costs_free

/-- A poll is one request or two. -/
theorem costs_fetchWithAuth (hms : ∀ n, net.took n ≤ ms) (url : String) (init : RequestInit) :
    Costs net (fetchWithAuth rt ctx url init) (ms + ms) := by
  have hrequest : Costs net (makeRequest rt ctx url init) ms := by
    have hsign : Costs net (signJWT rt ctx) 0 := costs_signJWT rt ctx
    have h := hsign.bind fun token => costs_fetchWithTimeout hms (authRequest url init token) 15000
    rwa [Nat.zero_add] at h
  apply hrequest.bind
  intro response
  split
  · exact hrequest
  · exact fun c => Nat.le_add_right _ _

theorem costs_pollApproval (hms : ∀ n, net.took n ≤ ms) :
    Costs net (pollApproval rt ctx approvalId) (ms + ms) := by
  have htemplate : Costs net (template rt approvalId) 0 := by
    intro c
    unfold template
    split <;> exact Nat.le_refl _
  have h := htemplate.bind fun id =>
    costs_fetchWithAuth rt ctx hms s!"{ctx.PROXY_URL}/v1/approvals/{id}" ⟨"GET", [], none⟩
  rwa [Nat.zero_add] at h

end

theorem total_fetchWithAuth (url : String) (init : RequestInit) :
    (fetchWithAuth rt ctx url init).Total := by
  have hsign : (signJWT rt ctx).Total := by
    unfold signJWT
    cases ctx.privateKey with
    | none => trivial
    | some key => exact fun issuedAt expires => Program.total_ofExcept _
  have hrequest : (makeRequest rt ctx url init).Total :=
    hsign.bind fun token moment => Program.total_ofExcept _
  apply hrequest.bind
  intro response
  split
  · exact hrequest
  · trivial

theorem total_pollApproval : (pollApproval rt ctx approvalId).Total := by
  have htemplate : (template rt approvalId).Total := by
    unfold template
    split <;> trivial
  exact htemplate.bind fun id => total_fetchWithAuth rt ctx _ _

variable (start c : Course)

theorem time_le_exec {α : Type} (p : Prog α) : c.time ≤ (p.exec net.answer c).2.time := by
  apply Program.exec_rel net.answer (R := fun c c' => c.time ≤ c'.time) (fun _ => Nat.le_refl _)
    fun h h' => h.trans h'
  intro q c
  cases q with
  | fetch r timeoutMs => exact Nat.le_add_right _ _
  | sleep ms => exact Nat.le_add_right _ _
  | now => exact Nat.le_refl _
  | notification p => exact Nat.le_refl _

/-- A round ends, at least two seconds later. -/
theorem exec_pollRound :
    ∃ polled, (pollRound rt ctx approvalId).exec net.answer c =
        (.returned polled, ((pollRound rt ctx approvalId).exec net.answer c).2) ∧
      c.time + 2000 ≤ ((pollRound rt ctx approvalId).exec net.answer c).2.time := by
  obtain ⟨polled, hpolled⟩ := (total_pollApproval rt ctx approvalId).exec_attempt net.answer
    { c with time := c.time + 2000 }
  have hround : (pollRound rt ctx approvalId).exec net.answer c =
      (.returned polled, ((pollApproval rt ctx approvalId).exec net.answer
        { c with time := c.time + 2000 }).2) := hpolled
  refine ⟨polled, by rw [hround], ?_⟩
  rw [hround]
  exact time_le_exec net { c with time := c.time + 2000 } _

theorem entered_ge (k : ℕ) :
    start.time + 2000 * k ≤ (entered rt ctx net approvalId start k).time := by
  induction k with
  | zero => exact Nat.le_refl _
  | succ k ih =>
    obtain ⟨polled, -, hround⟩ := exec_pollRound rt ctx net approvalId
      (entered rt ctx net approvalId start k)
    have hnext : entered rt ctx net approvalId start (k + 1) =
        ((pollRound rt ctx approvalId).exec net.answer
          (entered rt ctx net approvalId start k)).2 := rfl
    rw [hnext, Nat.mul_succ, ← Nat.add_assoc]
    exact (Nat.add_le_add_right ih 2000).trans hround

def EndsAt {α : Type} (net : Network) (p : Prog α) (c c' : Course) : Prop :=
  (p.exec net.answer c).1 ≠ .unfinished ∧ (p.exec net.answer c).2 = c'

theorem endsAt_returned {α : Type} (a : α) : EndsAt net (.returned a) c c := ⟨nofun, rfl⟩

theorem endsAt_threw {α : Type} (fault : Fault) : EndsAt net (.threw fault : Prog α) c c :=
  ⟨nofun, rfl⟩

theorem endsAt_settle (elapsed : ℚ) (verdict : Verdict) :
    EndsAt net (settle rt approvalId elapsed verdict) c c := by
  cases verdict with
  | returned data =>
    simp only [settle]
    split <;> exact endsAt_returned net c _
  | typeError => exact endsAt_threw net c _
  | _ => exact endsAt_returned net c _

variable (progressToken : Option Json) (fuel : ℕ) (lastProgressAt : ℚ)

/-- The test of the loop, as time stands. -/
theorem budget_left_iff : (net.answer .now c).1.time - start.time < approvalPollBudgetMs ↔
    c.time < start.time + approvalPollBudgetMs := by
  have h : (c.time : ℚ) - start.time < approvalPollBudgetMs ↔
      c.time < start.time + approvalPollBudgetMs := by
    rw [sub_lt_iff_lt_add']
    exact_mod_cast Iff.rfl
  exact h

theorem goesOn_of_not_ok {response : Reply} (h : response.ok = false) :
    goesOn rt (.returned (.ok response)) = false := by
  rw [goesOn, pending, h, Bool.false_and]

theorem goesOn_of_unread (status : ℕ) (message : String) :
    goesOn rt (.returned (.ok ⟨status, .error message⟩)) = false := by
  rw [goesOn, pending]
  exact Bool.and_false _

theorem goesOn_of_text {status : ℕ} {text : String} (h : Reply.ok ⟨status, .ok text⟩ = true) :
    goesOn rt (.returned (.ok ⟨status, .ok text⟩)) =
      match (rt.parse text).bind JavaScript.properties with
      | none => false
      | some body => (McpServer.interpret body).isNone := by
  rw [goesOn, pending, h, Bool.true_and]
  rfl

/-- After a round the program goes on with the next one, or it ends. -/
theorem exec_pollApprovals (hwithin : c.time < start.time + approvalPollBudgetMs)
    {polled : Except Fault Reply} {c' : Course}
    (hpolled : (pollRound rt ctx approvalId).exec net.answer c = (.returned polled, c')) :
    (goesOn rt (.returned polled) = true → ∃ told,
      (pollApprovals rt ctx approvalId progressToken start.time (fuel + 1) lastProgressAt).exec
          net.answer c =
        (pollApprovals rt ctx approvalId progressToken start.time fuel told).exec net.answer c') ∧
    (goesOn rt (.returned polled) = false → EndsAt net
      (pollApprovals rt ctx approvalId progressToken start.time (fuel + 1)
        lastProgressAt) c c') := by
  have hpolled' : (pollApproval rt ctx approvalId).attempt.exec net.answer
      (net.answer .now (net.answer (.sleep approvalPollIntervalMs) (net.answer .now c).2).2).2 =
        (.returned polled, c') := hpolled
  have hnot : ∀ {p : Prop}, true = false → p := by
    intro p h
    cases h
  unfold EndsAt
  simp only [pollApprovals, now, sleep, Program.query, Program.ask_bind, Program.returned_bind,
    Program.exec]
  rw [if_pos ((budget_left_iff net start c).2 hwithin)]
  simp only [Program.exec, Program.exec_bind, hpolled', Program.andThen]
  cases polled with
  | error fault => exact ⟨fun _ => ⟨_, rfl⟩, hnot⟩
  | ok response =>
    obtain ⟨status, text⟩ := response
    dsimp only
    cases hok : Reply.ok ⟨status, text⟩ with
    | false =>
      rw [goesOn_of_not_ok rt hok, if_neg Bool.false_ne_true]
      refine ⟨fun h => hnot h.symm, fun _ => ?_⟩
      cases text with
      | error message => exact endsAt_threw net c' _
      | ok text =>
        simp only [readText_ok, Program.returned_bind]
        exact endsAt_settle rt net approvalId c' _ _
    | true =>
      rw [if_pos rfl]
      cases text with
      | error message =>
        rw [goesOn_of_unread]
        exact ⟨fun h => hnot h.symm, fun _ => endsAt_threw net c' _⟩
      | ok text =>
        rw [goesOn_of_text rt hok]
        simp only [readJson, readText_ok, Program.returned_bind]
        cases rt.parse text with
        | none => exact ⟨fun h => hnot h.symm, fun _ => endsAt_threw net c' _⟩
        | some v =>
          simp only [Program.returned_bind, Option.bind_some]
          cases JavaScript.properties v with
          | none => exact ⟨fun h => hnot h.symm, fun _ => endsAt_threw net c' _⟩
          | some body =>
            dsimp only
            cases McpServer.interpret body with
            | some verdict =>
              exact ⟨fun h => hnot h.symm, fun _ => endsAt_settle rt net approvalId c' _ verdict⟩
            | none =>
              refine ⟨fun _ => ?_, hnot⟩
              dsimp only [Program.exec]
              split_ifs
              · cases progressToken <;> exact ⟨_, rfl⟩
              · exact ⟨_, rfl⟩

/-- The program stops where the loop of polls stops. -/
theorem endsAt_pollApprovals (k : ℕ) {x : Stopped Bool Unit}
    (hx : (polls rt ctx net approvalId start).run fuel k () = some x) :
    EndsAt net (pollApprovals rt ctx approvalId progressToken start.time fuel lastProgressAt)
      (entered rt ctx net approvalId start k)
      (entered rt ctx net approvalId start (roundsTaken x)) := by
  induction fuel generalizing k lastProgressAt with
  | zero => cases hx
  | succ fuel ih =>
    cases hrunning : (polls rt ctx net approvalId start).running k with
    | false =>
      rw [PollLoop.run_of_late _ hrunning] at hx
      cases hx
      have hlate := (budget_left_iff net start (entered rt ctx net approvalId start k)).not.2
        (of_decide_eq_false hrunning)
      unfold EndsAt
      simp only [pollApprovals, now, Program.query, Program.ask_bind, Program.returned_bind,
        Program.exec]
      rw [if_neg hlate]
      exact endsAt_settle rt net approvalId _ _ _
    | true =>
      have hwithin := of_decide_eq_true hrunning
      obtain ⟨polled, hpolled, -⟩ := exec_pollRound rt ctx net approvalId
        (entered rt ctx net approvalId start k)
      obtain ⟨hagain, hends⟩ := exec_pollApprovals rt ctx net approvalId start _ progressToken fuel
        lastProgressAt hwithin hpolled
      cases hgoes : goesOn rt (.returned polled) with
      | true =>
        have hpoll : (polls rt ctx net approvalId start).poll k = none := by
          rw [polls]
          dsimp only
          rw [hpolled, hgoes, if_pos rfl]
        rw [PollLoop.run_of_undecided _ hrunning hpoll] at hx
        obtain ⟨told, htold⟩ := hagain hgoes
        unfold EndsAt
        rw [htold]
        exact ih told (k + 1) hx
      | false =>
        have hpoll : (polls rt ctx net approvalId start).poll k = some true := by
          rw [polls]
          dsimp only
          rw [hpolled, hgoes, if_neg Bool.false_ne_true]
        rw [PollLoop.run_of_decided _ hrunning hpoll] at hx
        cases hx
        exact hends hgoes

theorem entered_mono {j k : ℕ} (h : j ≤ k) :
    (entered rt ctx net approvalId start j).time ≤ (entered rt ctx net approvalId start k).time :=
  monotone_nat_of_le_succ (f := fun k => (entered rt ctx net approvalId start k).time)
    (fun _ => time_le_exec net _ _) h

theorem lt_of_running {k : ℕ} (h : (polls rt ctx net approvalId start).running k = true) :
    k < 25 := by
  have hwithin := of_decide_eq_true h
  have hge := entered_ge rt ctx net approvalId start k
  simp only [approvalPollBudgetMs] at hwithin
  omega

theorem exists_stopped :
    ∃ x, (polls rt ctx net approvalId start).run (fuel + 26) 0 () = some x := by
  have hlate : (polls rt ctx net approvalId start).running (fuel + 25) = false := by
    rw [← Bool.not_eq_true]
    intro h
    have hlt := lt_of_running rt ctx net approvalId start h
    omega
  exact Option.isSome_iff_exists.1 (PollLoop.run_start_isSome _ hlate ())

/-- The rounds that are taken are over in time, when those that are come to are. -/
theorem roundsTaken_inTime_iff {x : Stopped Bool Unit} {limitMs : ℕ} (hlimit : 0 < limitMs)
    (hx : (polls rt ctx net approvalId start).run fuel 0 () = some x) :
    (entered rt ctx net approvalId start (roundsTaken x)).time < start.time + limitMs ↔
      PollsInTime rt ctx net approvalId start limitMs := by
  have htrue : ∀ {k v}, (polls rt ctx net approvalId start).poll k = some v → v = true := by
    intro k v h
    simp only [polls] at h
    split_ifs at h
    exact (Option.some.inj h).symm
  obtain ⟨-, hpasses, hstop⟩ := PollLoop.run_spec _ (PollLoop.passes_zero _) hx
  constructor
  · intro hend k hk
    have htaken : k + 1 ≤ roundsTaken x := by
      unfold roundsTaken
      rcases Nat.lt_or_ge k x.poll with hlt | hge
      · split_ifs <;> omega
      · obtain ⟨-, hpoll⟩ | ⟨hstopped, -⟩ := hstop
        · rcases Nat.lt_or_eq_of_le hge with hlt | heq
          · rw [hk.2 x.poll hlt] at hpoll
            cases hpoll
          · rw [if_pos (htrue hpoll), heq]
        · rw [hk.1 x.poll hge] at hstopped
          cases hstopped
    exact (entered_mono rt ctx net approvalId start htaken).trans_lt hend
  · intro h
    obtain ⟨hrunning, hpoll⟩ | ⟨-, hverdict⟩ := hstop
    · rw [roundsTaken, if_pos (htrue hpoll)]
      exact h x.poll (hpasses.reaches hrunning)
    · have hlate : x.verdict = false := hverdict
      rw [roundsTaken, hlate, if_neg Bool.false_ne_true]
      cases hpoll : x.poll with
      | zero => exact Nat.lt_add_of_pos_right hlimit
      | succ k =>
        rw [hpoll] at hpasses
        exact h k ⟨fun j hj => (hpasses j (by omega)).1, fun j hj => (hpasses j (by omega)).2⟩

theorem waitForApproval_endsAt (params : UsePlatform) :
    ∃ x, (polls rt ctx net approvalId start).run (fuel + 26) 0 () = some x ∧
      EndsAt net (waitForApproval rt ctx (fuel + 26) approvalId params progressToken) start
        (entered rt ctx net approvalId start (roundsTaken x)) := by
  obtain ⟨x, hx⟩ := exists_stopped rt ctx net approvalId start fuel
  refine ⟨x, hx, ?_⟩
  have hends := endsAt_pollApprovals rt ctx net approvalId start progressToken (fuel + 26) 0 0 hx
  cases progressToken <;> exact hends

/-- The wait returns before the host stops it exactly when every poll it comes to is over in time:
it is only before a poll that the budget is looked at. -/
theorem waitForApproval_underHostTimeout_iff (params : UsePlatform) :
    ((waitForApproval rt ctx (fuel + 26) approvalId params progressToken).exec net.answer start).1 ≠
        .unfinished ∧
      (((waitForApproval rt ctx (fuel + 26) approvalId params progressToken).exec net.answer
          start).2.time < start.time + hostTimeoutMs ↔
        PollsInTime rt ctx net approvalId start hostTimeoutMs) := by
  obtain ⟨x, hx, hreturns, hend⟩ :=
    waitForApproval_endsAt rt ctx net approvalId start progressToken fuel params
  refine ⟨hreturns, ?_⟩
  rw [hend]
  exact roundsTaken_inTime_iff rt ctx net approvalId start _ (by decide) hx

/-- A poll that the wait comes to is over after the budget and its own two requests. -/
theorem entered_succ_lt {ms k : ℕ} (hms : ∀ n, net.took n ≤ ms)
    (hk : (polls rt ctx net approvalId start).Reaches k) :
    (entered rt ctx net approvalId start (k + 1)).time < start.time + (52000 + (ms + ms)) := by
  have hround : Costs net (pollRound rt ctx approvalId) (2000 + (ms + ms)) := by
    apply (costs_sleep 2000).bind
    intro _ c
    obtain ⟨polled, hpolled⟩ := (total_pollApproval rt ctx approvalId).exec_attempt net.answer c
    rw [hpolled]
    exact costs_pollApproval rt ctx approvalId hms c
  have hwithin := of_decide_eq_true (hk.1 k (Nat.le_refl k))
  have hcost := hround (entered rt ctx net approvalId start k)
  simp only [approvalPollBudgetMs] at hwithin
  rw [entered]
  omega

/-- Requests of at most four seconds each are quick enough. -/
theorem pollsInTime_of_quick (hquick : ∀ n, net.took n ≤ 4000) :
    PollsInTime rt ctx net approvalId start hostTimeoutMs :=
  fun _ hk => entered_succ_lt rt ctx net approvalId start hquick hk

/-- The wait never takes longer than 82 seconds. -/
theorem waitForApproval_bound (params : UsePlatform) :
    ((waitForApproval rt ctx (fuel + 26) approvalId params progressToken).exec net.answer
      start).2.time < start.time + 82000 := by
  obtain ⟨x, hx, -, hend⟩ :=
    waitForApproval_endsAt rt ctx net approvalId start progressToken fuel params
  rw [hend, roundsTaken_inTime_iff rt ctx net approvalId start _ (by decide) hx]
  exact fun _ hk => entered_succ_lt rt ctx net approvalId start net.inTime hk

/-- Each request takes as long as it may: of every two the first is refused, the second is lost. -/
def slowNetwork : Network where
  took _ := 15000
  inTime _ := Nat.le_refl _
  fetched n := if n % 2 = 0 then .ok ⟨401, .ok ""⟩ else .error "This operation was aborted"

def signingRuntime : Runtime Unit where
  sign _ _ _ _ := .ok "token"
  parse _ := none
  stringify _ := ""
  toText _ := "apr_1"
  encodeURIComponent text := text

def waitingContext : ServerContext Unit where
  AGENT_ID := .str "agent"
  OWNER_ID := .str "owner"
  PROXY_URL := "https://proxy"
  AGENT_PRIVATE_KEY_RAW := some "pem"
  privateKey := some ()
  OBSERVE_PLATFORM := ""
  OBSERVE_CREDENTIAL := ""

def postMessage : UsePlatform where
  platform := "slack"
  endpoint := "/api/chat.postMessage"
  method := "POST"
  scope := "slack:write"
  data := none
  connectionId := none

/-- Two polls are enough to come to 64 seconds. -/
theorem slow_polls_overrun :
    ¬ (((waitForApproval signingRuntime waitingContext 26 (.str "apr_1") postMessage none).exec
      slowNetwork.answer ⟨0, 0⟩).2.time < hostTimeoutMs) := by
  decide +kernel

end AgentValet.Mcp
