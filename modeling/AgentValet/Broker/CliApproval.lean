import AgentValet.Base.Attribution
import AgentValet.Broker.Types

namespace AgentValet.Broker.CliApproval
open Base Lang

/-- What `request` keeps of one call. -/
structure Pending where
  settled : Bool
  timer : Bool
  rlOpen : Bool
  /-- The callback of `rl.question` waits for a line. -/
  question : Bool
  /-- The results `resolve` was called with. -/
  resolved : List ApprovalResult
  deriving DecidableEq, Repr

structure State where
  requests : List Pending
  output : List String
  deriving DecidableEq, Repr

inductive Event where
  | request (req : AccessRequest) (decision : Decision)
  | line (answer : String)
  | timeout (r : ℕ)
  | inputEnd

def prompt (req : AccessRequest) (decision : Decision) : String :=
  let server := req.resource.server
  let tool := req.resource.tool
  let id := req.subject.id
  let session := req.subject.sessionId
  let args := req.context.argsFingerprint
  let policyId := decision.policyId
  let version := decision.version
  s!"\nApproval required: {server}/{tool}\n  subject:  {id} (session {session})\n" ++
    s!"  args:     {args}\n  policy:   {policyId} v{version}\nApprove this call? [y/N] "

/-- `/^\s*y(es)?\s*$/i`, whose letters are ASCII. -/
def isYes (answer : String) : Bool :=
  let word := (JavaScript.trim answer.toList).map Char.toLower
  word == ['y'] || word == ['y', 'e', 's']

def approval : ApprovalResult := ⟨true, none⟩

def declined : ApprovalResult := ⟨false, some "declined"⟩

def timedOut : ApprovalResult := ⟨false, some "timeout"⟩

namespace Pending

def opened : Pending := ⟨false, true, true, true, []⟩

def finish (p : Pending) (result : ApprovalResult) : Pending :=
  if p.settled then p
  else
    { p with
      settled := true
      timer := false
      rlOpen := false
      resolved := p.resolved ++ [result] }

/-- A line is the answer to the question, if the interface is open and the question stands. -/
def onLine (answer : String) (p : Pending) : Pending :=
  if p.rlOpen && p.question then
    { p with question := false }.finish (if isYes answer then approval else declined)
  else p

def onTimeout (p : Pending) : Pending :=
  if p.timer then { p with timer := false }.finish timedOut else p

def onInputEnd (p : Pending) : Pending := { p with rlOpen := false }

end Pending

def step (s : State) : Event → State
  | .request req decision =>
    { requests := s.requests ++ [.opened], output := s.output ++ [prompt req decision] }
  | .line answer => { s with requests := s.requests.map (Pending.onLine answer) }
  | .timeout r => { s with requests := s.requests.modify r Pending.onTimeout }
  | .inputEnd => { s with requests := s.requests.map Pending.onInputEnd }

def State.initial : State := ⟨[], []⟩

def run (events : List Event) : State := events.foldl step .initial

namespace Pending

def waiting (p : Pending) : Bool := !p.settled && p.rlOpen

def approved (p : Pending) : Bool := p.resolved.contains approval

/-- A request is unresolved with its timer running, or was resolved once and has let go of
everything. -/
inductive Sound : Pending → Prop
  | unresolved (rlOpen : Bool) : Sound ⟨false, true, rlOpen, true, []⟩
  | resolved (question : Bool) (result : ApprovalResult) :
    Sound ⟨true, false, false, question, [result]⟩

variable {p : Pending}

theorem sound_opened : opened.Sound := .unresolved true

theorem Sound.onLine (h : p.Sound) (answer : String) : (p.onLine answer).Sound := by
  rcases h with ⟨_ | _⟩ | ⟨question, result⟩
  · exact .unresolved false
  · exact .resolved false _
  · exact .resolved question result

theorem Sound.onTimeout (h : p.Sound) : p.onTimeout.Sound := by
  rcases h with ⟨rlOpen⟩ | ⟨question, result⟩
  · exact .resolved true timedOut
  · exact .resolved question result

theorem Sound.onInputEnd (h : p.Sound) : p.onInputEnd.Sound := by
  rcases h with ⟨rlOpen⟩ | ⟨question, result⟩
  · exact .unresolved false
  · exact .resolved question result

theorem Sound.approved_onLine (h : p.Sound) (answer : String) :
    (p.onLine answer).approved = true ↔
      p.approved = true ∨ isYes answer = true ∧ p.waiting = true := by
  -- the input has ended for the request, it waits, or it is resolved
  rcases h with ⟨_ | _⟩ | ⟨question, result⟩
  · simp [Pending.onLine, approved, waiting]
  · cases hyes : isYes answer <;>
      simp [Pending.onLine, finish, approved, waiting, hyes, approval, declined]
  · simp [Pending.onLine, approved, waiting]

theorem Sound.approved_onTimeout (h : p.Sound) : p.onTimeout.approved = p.approved := by
  rcases h with ⟨rlOpen⟩ | ⟨question, result⟩
  · rfl
  · rfl

theorem Sound.not_approved_of_waiting (h : p.Sound) (hwaiting : p.waiting = true) :
    p.approved = false := by
  rcases h with ⟨rlOpen⟩ | ⟨question, result⟩
  · rfl
  · cases hwaiting

/-- Nothing that happens later changes a settled request. -/
theorem Sound.settled_stable (h : p.Sound) (hsettled : p.settled = true) (answer : String) :
    p.onLine answer = p ∧ p.onTimeout = p ∧ p.onInputEnd = p := by
  rcases h with ⟨rlOpen⟩ | ⟨question, result⟩
  · cases hsettled
  · exact ⟨rfl, rfl, rfl⟩

theorem Sound.settled_of_mem (h : p.Sound) {result : ApprovalResult}
    (hresult : result ∈ p.resolved) : p.settled = true ∧ p.resolved = [result] := by
  rcases h with ⟨rlOpen⟩ | ⟨question, result'⟩
  · cases hresult
  · exact ⟨rfl, by rw [List.mem_singleton.1 hresult]⟩

theorem Sound.resolved_once (h : p.Sound) :
    p.resolved.length ≤ 1 ∧ (p.timer = false → p.resolved.length = 1) := by
  rcases h with ⟨rlOpen⟩ | ⟨question, result⟩
  · exact ⟨Nat.zero_le 1, fun htimer => by cases htimer⟩
  · exact ⟨Nat.le_refl 1, fun _ => rfl⟩

end Pending

def State.Sound (s : State) : Prop := ∀ (r : ℕ) (p : Pending), s.requests[r]? = some p → p.Sound

def State.waiting (s : State) (r : ℕ) : Bool := s.requests[r]?.any Pending.waiting

def State.approved (s : State) (r : ℕ) : Bool := s.requests[r]?.any Pending.approved

def State.timedOut (s : State) (r : ℕ) : Bool :=
  s.requests[r]?.any fun p => p.resolved.contains CliApproval.timedOut

def Event.approving : Event → Bool
  | .line answer => isYes answer
  | _ => false

/-- What an event makes of the request with number `r`. -/
def Event.effect (e : Event) (r : ℕ) (p : Pending) : Pending :=
  match e with
  | .request _ _ => p
  | .line answer => p.onLine answer
  | .timeout r' => if r' = r then p.onTimeout else p
  | .inputEnd => p.onInputEnd

theorem step_of_some {s : State} (e : Event) {r : ℕ} {p : Pending}
    (hp : s.requests[r]? = some p) : (step s e).requests[r]? = some (e.effect r p) := by
  cases e with
  | request req decision =>
    have hr : r < s.requests.length := (List.getElem?_eq_some_iff.1 hp).1
    simpa only [step, Event.effect, List.getElem?_append_left hr] using hp
  | line answer => simp only [step, Event.effect, List.getElem?_map, hp, Option.map_some]
  | timeout r' =>
    simp only [step, Event.effect, List.getElem?_modify, hp]
    by_cases hr : r' = r <;> simp [hr]
  | inputEnd => simp only [step, Event.effect, List.getElem?_map, hp, Option.map_some]

theorem step_of_none {s : State} {e : Event} {r : ℕ} {p : Pending}
    (hnone : s.requests[r]? = none) (hp : (step s e).requests[r]? = some p) : p = .opened := by
  have hlen := List.getElem?_eq_none_iff.1 hnone
  cases e with
  | request req decision =>
    simp only [step, List.getElem?_append_right hlen] at hp
    exact List.mem_singleton.1 (List.mem_of_getElem? hp)
  | line answer => simp [step, List.getElem?_map, hnone] at hp
  | timeout r' => simp [step, List.getElem?_modify, hnone] at hp
  | inputEnd => simp [step, List.getElem?_map, hnone] at hp

theorem Event.effect_sound (e : Event) (r : ℕ) {p : Pending} (h : p.Sound) :
    (e.effect r p).Sound := by
  cases e with
  | request req decision => exact h
  | line answer => exact h.onLine answer
  | timeout r' =>
    unfold Event.effect
    by_cases hr : r' = r
    · simpa only [hr, if_true] using h.onTimeout
    · simpa only [hr, if_false] using h
  | inputEnd => exact h.onInputEnd

theorem sound_step (s : State) (e : Event) (h : s.Sound) : (step s e).Sound := by
  intro r p' hp'
  cases hp : s.requests[r]? with
  | none =>
    rw [step_of_none hp hp']
    exact Pending.sound_opened
  | some p =>
    rw [step_of_some e hp] at hp'
    cases hp'
    exact e.effect_sound r (h r p hp)

/-- Only an approving line approves, and it approves each request that waits. -/
theorem approved_step (s : State) (e : Event) (r : ℕ) (h : s.Sound) :
    (step s e).approved r = true ↔
      s.approved r = true ∨ e.approving = true ∧ s.waiting r = true := by
  unfold State.approved State.waiting
  cases hp : s.requests[r]? with
  | none =>
    cases hp' : (step s e).requests[r]? with
    | none => simp
    | some p' => simp [step_of_none hp hp', Pending.approved, Pending.opened]
  | some p =>
    have hsound := h r p hp
    rw [step_of_some e hp]
    cases e with
    | request req decision => simp [Event.effect, Event.approving]
    | line answer =>
      simpa [Event.effect, Event.approving] using hsound.approved_onLine answer
    | timeout r' =>
      by_cases hr : r' = r <;>
        simp [Event.effect, Event.approving, hr, hsound.approved_onTimeout]
    | inputEnd => simp [Event.effect, Event.approving, Pending.onInputEnd, Pending.approved]

theorem settled_step {s : State} (e : Event) {r : ℕ} {p : Pending} (h : s.Sound)
    (hp : s.requests[r]? = some p) (hsettled : p.settled = true) :
    (step s e).requests[r]? = some p := by
  have hsound := h r p hp
  rw [step_of_some e hp]
  cases e with
  | request req decision => rfl
  | line answer => exact congrArg some (hsound.settled_stable hsettled answer).1
  | timeout r' =>
    by_cases hr : r' = r
    · simpa [Event.effect, hr] using (hsound.settled_stable hsettled "").2.1
    · simp [Event.effect, hr]
  | inputEnd => exact congrArg some (hsound.settled_stable hsettled "").2.2

/-- The provider as a machine whose lines give approvals. -/
def machine : GrantMachine State Event ℕ where
  initial := .initial
  step := step
  Inv := State.Sound
  Holds s r := s.approved r = true
  Gives s e r := e.approving = true ∧ s.waiting r = true
  inv_initial := by
    intro r p hp
    cases hp
  inv_step := sound_step
  not_holds_initial := by
    intro r h
    cases h
  holds_step := approved_step
  not_holds_of_gives := by
    rintro s e r h ⟨-, hwaiting⟩ happroved
    unfold State.waiting at hwaiting
    unfold State.approved at happroved
    cases hp : s.requests[r]? with
    | none => simp [hp] at hwaiting
    | some p =>
      rw [hp] at hwaiting happroved
      have hnot := (h r p hp).not_approved_of_waiting hwaiting
      rw [Option.any_some, hnot] at happroved
      cases happroved

theorem sound_run (events : List Event) : (run events).Sound := machine.inv_run events

theorem run_concat (events : List Event) (e : Event) :
    run (events ++ [e]) = step (run events) e := machine.run_concat events e

/-- A settled request stays as it is for the rest of the run. -/
theorem settled_run {events : List Event} {r : ℕ} {p : Pending}
    (hp : (run events).requests[r]? = some p) (hsettled : p.settled = true)
    (later : List Event) : (run (events ++ later)).requests[r]? = some p := by
  induction later using List.reverseRecOn with
  | nil => simpa using hp
  | append_singleton later e ih =>
    rw [← List.append_assoc, run_concat]
    exact settled_step e (sound_run _) ih hsettled

theorem not_approved_of_timedOut {events : List Event} {r : ℕ}
    (h : (run events).timedOut r = true) (later : List Event) :
    (run (events ++ later)).approved r = false := by
  unfold State.timedOut at h
  cases hp : (run events).requests[r]? with
  | none => simp [hp] at h
  | some p =>
    have hmem : timedOut ∈ p.resolved := by simpa [hp] using h
    obtain ⟨hsettled, hresolved⟩ := (sound_run events r p hp).settled_of_mem hmem
    unfold State.approved
    rw [settled_run hp hsettled later, Option.any_some, Pending.approved, hresolved]
    decide

def State.approvals (s : State) : Finset ℕ :=
  (Finset.range s.requests.length).filter fun r => s.approved r = true

def approvingLines (events : List Event) : Finset ℕ :=
  (Finset.range events.length).filter fun k => events[k]?.any Event.approving = true

/-- One answer approves one call, each request is resolved once by the time its timer is done or
cleared, and a request that timed out is not approved later. -/
structure OneAnswerOneCall (events : List Event) : Prop where
  attributed : ∃ line : ℕ → ℕ,
    (∀ r, (run events).approved r = true → ∃ answer, events[line r]? = some (.line answer) ∧
      isYes answer = true ∧ (run (events.take (line r))).waiting r = true) ∧
    Set.InjOn line {r | (run events).approved r = true}
  counted : (run events).approvals.card ≤ (approvingLines events).card
  resolvedOnce : ∀ p ∈ (run events).requests,
    p.resolved.length ≤ 1 ∧ (p.timer = false → p.resolved.length = 1)
  timedOutForGood : ∀ n r, (run (events.take n)).timedOut r = true →
    (run events).approved r = false

/-- Every approving line arrives while at most one request waits for it. -/
def PromptsOneAtATime (events : List Event) : Prop :=
  ∀ k answer, events[k]? = some (.line answer) → isYes answer = true →
    ∀ r r', (run (events.take k)).waiting r = true → (run (events.take k)).waiting r' = true →
      r = r'

theorem givenAt_iff (events : List Event) (k r : ℕ) :
    machine.GivenAt events k r ↔ ∃ answer, events[k]? = some (.line answer) ∧
      isYes answer = true ∧ (run (events.take k)).waiting r = true := by
  constructor
  · rintro ⟨e, he, happroving, hwaiting⟩
    cases e with
    | line answer => exact ⟨answer, he, happroving, hwaiting⟩
    | request req decision => cases happroving
    | timeout r' => cases happroving
    | inputEnd => cases happroving
  · rintro ⟨answer, he, hyes, hwaiting⟩
    exact ⟨.line answer, he, hyes, hwaiting⟩

theorem attributable_iff (events : List Event) :
    machine.Attributable events ↔ ∃ line : ℕ → ℕ,
      (∀ r, (run events).approved r = true → ∃ answer, events[line r]? = some (.line answer) ∧
        isYes answer = true ∧ (run (events.take (line r))).waiting r = true) ∧
      Set.InjOn line {r | (run events).approved r = true} := by
  unfold GrantMachine.Attributable
  simp only [givenAt_iff]
  rfl

theorem oneAtATime_iff (events : List Event) :
    machine.OneAtATime events ↔ PromptsOneAtATime events := by
  unfold GrantMachine.OneAtATime PromptsOneAtATime
  simp only [givenAt_iff]
  constructor
  · intro h k answer he hyes r r' hr hr'
    exact h k r r' ⟨answer, he, hyes, hr⟩ ⟨answer, he, hyes, hr'⟩
  · rintro h k r r' ⟨answer, he, hyes, hr⟩ ⟨-, -, -, hr'⟩
    exact h k answer he hyes r r' hr hr'

/-- The provider keeps to one call for one answer exactly in the runs in which no approving line
finds two requests waiting. -/
theorem oneAnswerOneCall_iff (events : List Event) :
    OneAnswerOneCall events ↔ PromptsOneAtATime events := by
  rw [← oneAtATime_iff, ← GrantMachine.attributable_iff_oneAtATime]
  constructor
  · intro h
    exact (attributable_iff events).2 h.attributed
  · intro h
    -- the count follows from the attribution, and the rest holds in every run
    refine ⟨(attributable_iff events).1 h, ?_, ?_, ?_⟩
    · apply machine.card_le_of_attributable h
      · intro r hr
        exact (Finset.mem_filter.1 hr).2
      · intro k r hk
        have hlt := machine.lt_length_of_givenAt hk
        obtain ⟨answer, he, hyes, -⟩ := (givenAt_iff events k r).1 hk
        refine Finset.mem_filter.2 ⟨Finset.mem_range.2 hlt, ?_⟩
        simp [he, Event.approving, hyes]
    · intro p hp
      obtain ⟨r, hr⟩ := List.mem_iff_getElem?.1 hp
      exact (sound_run events r p hr).resolved_once
    · intro n r hr
      have hlater := not_approved_of_timedOut hr (events.drop n)
      rwa [List.take_append_drop] at hlater

def deleteRepo : Event :=
  .request ⟨⟨"a", none, "s"⟩, ⟨"delete_repo"⟩, ⟨"github-tools", "delete_repo"⟩,
    ⟨"sha256:0", "stdio", "2026-07-04T00:00:00.000Z"⟩⟩ ⟨.requireApproval, none, "local", "1"⟩

theorem one_answer_approves_two_calls :
    (run [deleteRepo, deleteRepo, .line "y"]).approvals.card = 2 ∧
      ¬ OneAnswerOneCall [deleteRepo, deleteRepo, .line "y"] := by
  refine ⟨by decide, ?_⟩
  intro h
  have hcounted := h.counted
  revert hcounted
  decide

end AgentValet.Broker.CliApproval
