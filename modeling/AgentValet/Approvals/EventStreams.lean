import AgentValet.Approvals.Exchange
import AgentValet.Base.LineReader
import AgentValet.Lang.Replace

namespace AgentValet.Approvals.EventStreams
open Base Lang JavaScript

/-- How a stream ends: the server closes it, or reading it throws. -/
inductive Ending where
  | closed
  | failed

/-- What a request for a stream comes to; the chunks are already decoded. -/
inductive Connection where
  | unanswered
  | refused
  | stream (chunks : List Text) (ending : Ending)

inductive WaitResult where
  | approved (agentId ownerId privateKey grantedPlatforms : Json)
  | rejected
  | timeout
  | expired

inductive Revocation where
  | approved
  | rejected
  | timeout

section
variable (parse : Text → Option Json)

/-- `data[key]`, where null counts as not there. -/
def given (data : Json) (key : String) : Option Json :=
  (data.field? key).filter fun v => match v with | .null => false | _ => true

/-- Of null no property can be read; the exception is ignored like an event that decides nothing. -/
def parseEvent (data : Json) : Option WaitResult :=
  let status := data.field? "status"
  if isStr status "approved" then
    let agentId := given data "agent_id" <|> data.field? "agentId"
    match agentId.filter fun v => truthy (some v) with
    | none => none
    | some agentId =>
      let ownerId := (given data "owner_id" <|> given data "ownerId").getD (.str "")
      let grantedPlatforms := (given data "granted_platforms").getD (.arr [])
      some (.approved agentId ownerId (.str "") grantedPlatforms)
  else if isStr status "rejected" then some .rejected
  else if isStr status "timeout" || isStr status "expired" then some .expired
  else none

/-- A line of the registration stream; the state counts the calls of `onTick`. -/
def registrationLine (ticks : ℕ) (line : Text) : Except (ℕ × WaitResult) ℕ :=
  if ":".toList.isPrefixOf line then .ok (ticks + 1)
  else if "data:".toList.isPrefixOf line then
    let dataStr := trim (line.drop 5)
    if dataStr.isEmpty then .ok ticks
    else
      match (parse dataStr).bind parseEvent with
      | some parsed => .error (ticks, parsed)
      | none => .ok ticks
  else .ok ticks

structure Waited where
  result : Option WaitResult
  ticks : ℕ

def trySSE : Connection → Waited
  | .unanswered => ⟨none, 0⟩
  | .refused => ⟨none, 0⟩
  | .stream chunks ending =>
    match readLines '\n' (registrationLine parse) 0 [] chunks with
    | .error (ticks, parsed) => ⟨some parsed, ticks⟩
    | .ok (ticks, _) =>
      match ending with
      | .closed => ⟨none, ticks⟩
      | .failed => ⟨none, ticks⟩

def revocationEvent (evt : Json) : Option Revocation :=
  let status := evt.field? "status"
  if isStr status "approved" then some .approved
  else if isStr status "rejected" then some .rejected
  else if isStr status "timeout" then some .timeout
  else none

def revocationLine (_ : Unit) (line : Text) : Except (Unit × Revocation) Unit :=
  if ":".toList.isPrefixOf line then .ok ()
  else if !"data: ".toList.isPrefixOf line then .ok ()
  else
    match (parse (line.drop 6)).bind revocationEvent with
    | some result => .error ((), result)
    | none => .ok ()

def done (settled : Option Revocation) (result : Revocation) : Option Revocation :=
  settled <|> some result

structure Wait where
  settled : Option Revocation
  reconnectIn : Option ℕ

def reconnect (settled : Option Revocation) (ms : ℕ) : Wait :=
  ⟨settled, if settled.isNone then some ms else none⟩

/-- One connection of `pollForApproval`; the timer may have settled the wait before. -/
def pollForApproval (settled : Option Revocation) : Connection → Wait
  | .unanswered => reconnect settled 1000
  | .refused => reconnect settled 3000
  | .stream chunks ending =>
    match readLines '\n' (revocationLine parse) () [] chunks with
    | .error (_, result) => ⟨done settled result, none⟩
    | .ok _ =>
      match ending with
      | .closed => reconnect settled 1000
      | .failed => reconnect settled 1000

def decisive (line : Text) : Option WaitResult :=
  if "data:".toList.isPrefixOf line then
    let dataStr := trim (line.drop 5)
    if dataStr.isEmpty then none else (parse dataStr).bind parseEvent
  else none

def heartbeat (line : Text) : Bool := ":".toList.isPrefixOf line

def settling (line : Text) : Option Revocation :=
  if "data: ".toList.isPrefixOf line then (parse (line.drop 6)).bind revocationEvent else none

def registrationReader : LineReader Char ℕ WaitResult where
  verdict := decisive parse
  note ticks line := if heartbeat line then ticks + 1 else ticks

def revocationReader : LineReader Char Unit Revocation where
  verdict := settling parse
  note _ _ := ()

def registration (text : Text) : Waited :=
  let lines := endedLines '\n' text
  ⟨lines.findSome? (decisive parse), ((registrationReader parse).passed lines).countP heartbeat⟩

def revocation (settled : Option Revocation) (text : Text) : Wait :=
  match (endedLines '\n' text).findSome? (settling parse) with
  | some result => ⟨done settled result, none⟩
  | none => reconnect settled 1000

theorem heartbeat_iff {line : Text} : heartbeat line = true ↔ ∃ rest, line = ':' :: rest := by
  rw [heartbeat, List.isPrefixOf_iff_prefix]
  constructor
  · rintro ⟨rest, rfl⟩
    exact ⟨rest, rfl⟩
  · rintro ⟨rest, rfl⟩
    exact ⟨rest, rfl⟩

theorem not_data_of_heartbeat {line : Text} (h : heartbeat line = true) (data : Text) :
    ('d' :: data).isPrefixOf line = false := by
  obtain ⟨rest, rfl⟩ := heartbeat_iff.1 h
  rfl

theorem registrationLine_eq : registrationLine parse = (registrationReader parse).onLine := by
  funext ticks line
  rw [LineReader.onLine]
  simp only [registrationReader, registrationLine, decisive]
  cases hbeat : heartbeat line with
  | true =>
    have hdata : "data:".toList.isPrefixOf line = false := not_data_of_heartbeat hbeat _
    rw [heartbeat] at hbeat
    rw [hbeat, hdata]
    rfl
  | false =>
    rw [heartbeat] at hbeat
    rw [hbeat]
    cases "data:".toList.isPrefixOf line with
    | false => rfl
    | true =>
      cases (trim (line.drop 5)).isEmpty with
      | true => rfl
      | false =>
        simp only [Bool.false_eq_true, if_false, if_true]
        cases (parse (trim (line.drop 5))).bind parseEvent <;> rfl

theorem revocationLine_eq : revocationLine parse = (revocationReader parse).onLine := by
  funext s line
  rw [LineReader.onLine]
  simp only [revocationReader, revocationLine, settling]
  cases hbeat : heartbeat line with
  | true =>
    have hdata : "data: ".toList.isPrefixOf line = false := not_data_of_heartbeat hbeat _
    rw [heartbeat] at hbeat
    rw [hbeat, hdata]
    rfl
  | false =>
    rw [heartbeat] at hbeat
    rw [hbeat]
    cases "data: ".toList.isPrefixOf line with
    | false => rfl
    | true =>
      simp only [Bool.false_eq_true, if_false, if_true, Bool.not_true]
      cases (parse (line.drop 6)).bind revocationEvent <;> rfl

theorem foldl_note (ticks : ℕ) (lines : List Text) :
    lines.foldl (registrationReader parse).note ticks = ticks + lines.countP heartbeat := by
  induction lines generalizing ticks with
  | nil => rfl
  | cons line lines ih =>
    rw [List.foldl_cons, ih, List.countP_cons]
    simp only [registrationReader]
    split_ifs <;> omega

theorem trySSE_stream (chunks : List Text) (ending : Ending) :
    trySSE parse (.stream chunks ending) = registration parse chunks.flatten := by
  rw [trySSE, registrationLine_eq, readLines_eq '\n' _ List.not_mem_nil, List.nil_append,
    LineReader.foldlM_onLine, foldl_note, Nat.zero_add, registration]
  simp only [registrationReader]
  cases (endedLines '\n' chunks.flatten).findSome? (decisive parse) with
  | some result => rfl
  | none => cases ending <;> rfl

theorem pollForApproval_stream (settled : Option Revocation) (chunks : List Text)
    (ending : Ending) :
    pollForApproval parse settled (.stream chunks ending) =
      revocation parse settled chunks.flatten := by
  rw [pollForApproval.eq_def]
  dsimp only
  rw [revocationLine_eq, readLines_eq '\n' _ List.not_mem_nil, List.nil_append,
    LineReader.foldlM_onLine, revocation]
  simp only [revocationReader]
  cases (endedLines '\n' chunks.flatten).findSome? (settling parse) with
  | some result => rfl
  | none => cases ending <;> rfl

/-- A payload that is no JSON decides nothing. -/
theorem undecided_of_malformed {line : Text} :
    (parse (trim (line.drop 5)) = none → decisive parse line = none) ∧
      (parse (line.drop 6) = none → settling parse line = none) := by
  constructor
  · intro hpayload
    simp only [decisive, hpayload, Option.bind_none, ite_self]
  · intro hpayload
    rw [settling, hpayload]
    exact ite_self none

/-- Both loops come to what the whole text says, and a malformed payload ends neither. -/
theorem streams_read_as_texts (chunks : List Text) (ending : Ending) :
    trySSE parse (.stream chunks ending) = registration parse chunks.flatten ∧
      (∀ settled, pollForApproval parse settled (.stream chunks ending) =
        revocation parse settled chunks.flatten) ∧
      ∀ line, (parse (trim (line.drop 5)) = none → decisive parse line = none) ∧
        (parse (line.drop 6) = none → settling parse line = none) :=
  ⟨trySSE_stream parse chunks ending,
    fun settled => pollForApproval_stream parse settled chunks ending,
    fun _ => undecided_of_malformed parse⟩

end
end AgentValet.Approvals.EventStreams
