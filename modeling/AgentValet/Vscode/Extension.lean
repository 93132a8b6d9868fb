import Mathlib.Data.List.Infix
import AgentValet.Base.Routines

namespace AgentValet.Vscode
open Base

structure Settings where
  autoRegister : Bool
  showStatusBar : Bool

/-- `Partial<AgentValetState>` -/
structure AgentValetState where
  ownerId : Option String
  orgId : Option String
  agentId : Option String
  agentName : Option String
  proxyUrl : Option String
  email : Option String
  githubUsername : Option String
  registeredAt : Option String
  pendingApproval : Option Bool
  deriving DecidableEq

def AgentValetState.empty : AgentValetState :=
  ⟨none, none, none, none, none, none, none, none, none⟩

/-- `{ ...existing, ...state }` -/
def AgentValetState.merge (existing state : AgentValetState) : AgentValetState where
  ownerId := state.ownerId <|> existing.ownerId
  orgId := state.orgId <|> existing.orgId
  agentId := state.agentId <|> existing.agentId
  agentName := state.agentName <|> existing.agentName
  proxyUrl := state.proxyUrl <|> existing.proxyUrl
  email := state.email <|> existing.email
  githubUsername := state.githubUsername <|> existing.githubUsername
  registeredAt := state.registeredAt <|> existing.registeredAt
  pendingApproval := state.pendingApproval <|> existing.pendingApproval

structure StatusBar where
  text : String
  tooltip : String
  command : String
  visible : Bool

/-- What a handler does without waiting for it. -/
inductive Aside where
  | openExternal (url : String)
  | executeCommand (name : String)
  | information (message : String)
  | warning (message : String)
  | error (message : String)

/-- What is in the secret storage under a key, and whether the call that brought it there has been
answered. -/
inductive Slot where
  | empty
  | holds (value : String) (answered : Bool)
  | deleted (answered : Bool)
  deriving DecidableEq

def Slot.ofOption : Option String → Slot
  | none => .empty
  | some value => .holds value true

def Slot.value : Slot → Option String
  | .holds value _ => some value
  | _ => none

def Slot.answered : Slot → Bool
  | .empty => true
  | .holds _ answered => answered
  | .deleted answered => answered

def Slot.confirm : Slot → Slot
  | .empty => .empty
  | .holds value _ => .holds value true
  | .deleted _ => .deleted true

/-- What the handlers share; nothing stored reads as the empty state. -/
structure Window where
  settings : Settings
  stored : AgentValetState
  secrets : String → Slot
  bar : StatusBar
  asides : List Aside

def Window.put (w : Window) (key : String) (slot : Slot) : Window :=
  { w with secrets := fun k => if k = key then slot else w.secrets k }

def Window.confirm (w : Window) (key : String) : Window := w.put key (w.secrets key).confirm

structure GitHubSession where
  token : String
  accountName : String

structure Email where
  email : String
  primary : Bool
  verified : Bool

structure CreateAccountResult where
  owner_id : String
  org_id : String
  proxy_url : String
  is_new_account : Bool

structure RegisterAgentResult where
  agent_id : String
  agent_name : String
  private_key_pem : String

inductive Question where
  | getSession (createIfNone : Bool)
  | fetchEmails (token : String)
  | createOrFindAccount (github_token github_username email display_name : String)
  | registerAgent (owner_id name description apiKey : String)
  | storeSecret (key value : String)
  | deleteSecret (key : String)
  /-- The answer to a call that the secret storage has carried out. -/
  | secretAnswer
  | message (text : String) (items : List String)
  | quickPick (items : List String)
  | writeText (text : String)

/-- What the surroundings answer at one moment, to whichever question was put.  The list of emails
is absent where the reply is not ok. -/
structure Moment where
  session : Except String (Option GitHubSession)
  emails : Except String (Option (List Email))
  account : Except String CreateAccountResult
  agent : Except String RegisterAgentResult
  /-- The secret storage does what it was asked to, or rejects it. -/
  carriedOut : Except String Unit
  kept : Except String Unit
  chosen : Except String (Option String)
  time : String

abbrev Prog (α : Type) := Routine Window Question Moment String α

def call {α : Type} (q : Question) (read : Moment → Except String α) : Prog α := do
  let answer ← Routine.query q read
  Routine.ofExcept answer

def aside (a : Aside) : Prog Unit := Routine.modify fun w => { w with asides := w.asides ++ [a] }

def isRegistered (s : AgentValetState) : Bool := (s.agentId.filter (· ≠ "")).isSome

def isPendingApproval (s : AgentValetState) : Bool := s.pendingApproval == some true

def set (state : AgentValetState) : Prog Unit :=
  Routine.modify fun w => { w with stored := w.stored.merge state }

def clear : Prog Unit := Routine.modify fun w => { w with stored := .empty }

def secretKey (agentId : String) : String := "agentvalet.privateKey." ++ agentId

/-- A call to the secret storage, which has its effect some time before it is answered; also the
time of the answer. -/
def callSecrets (q : Question) (key : String) (effect : Slot) : Prog String := do
  call q Moment.carriedOut
  Routine.modify fun w => w.put key effect
  let time ← call .secretAnswer fun m => m.kept.map fun _ => m.time
  Routine.modify fun w => w.confirm key
  pure time

def storeSecret (key value : String) : Prog String :=
  callSecrets (.storeSecret key value) key (.holds value false)

def deleteSecret (key : String) : Prog Unit := do
  let _ ← callSecrets (.deleteSecret key) key (.deleted false)
  pure ()

def shown (v : Option String) : String := v.getD "undefined"

def notRegisteredBar : StatusBar where
  text := "$(shield) AgentValet"
  tooltip := "AgentValet: Not registered. Click to set up."
  command := "agentvalet.register"
  visible := true

def pendingBar (s : AgentValetState) : StatusBar where
  text := "$(clock) AgentValet: Pending approval"
  tooltip := s!"Agent: {shown s.agentName}\n" ++ "Waiting for your approval in the dashboard.\n" ++
    "Click to open dashboard."
  command := "agentvalet.openDashboard"
  visible := true

def activeBar (s : AgentValetState) : StatusBar where
  text := "$(shield-check) AgentValet"
  tooltip := s!"Agent: {shown s.agentName}\n" ++ s!"ID: {shown s.agentId}\n" ++
    "Status: Active\n" ++ "Click to open dashboard"
  command := "agentvalet.openDashboard"
  visible := true

def updated (w : Window) : StatusBar :=
  if !w.settings.showStatusBar then { w.bar with visible := false }
  else if !isRegistered w.stored then notRegisteredBar
  else if isPendingApproval w.stored then pendingBar w.stored
  else activeBar w.stored

def updateStatusBar : Prog Unit := Routine.modify fun w => { w with bar := updated w }

/-- A rejected request for a session counts as none. -/
def getSession (createIfNone : Bool) : Prog (Option GitHubSession) :=
  Routine.query (.getSession createIfNone) fun m => m.session.toOption.join

def includes (text part : String) : Bool := part.toList <:+: text.toList

def detectEditor (appName : String) : String :=
  let appName := appName.toLower
  if includes appName "cursor" then "cursor"
  else if includes appName "windsurf" then "windsurf"
  else if includes appName "gitpod" then "gitpod"
  else "vscode"

def accountEmail (session : GitHubSession) (emails : List Email) : String :=
  ((emails.find? fun e => e.primary && e.verified).map Email.email).getD
    (session.accountName ++ "@users.noreply.github.com")

def registeredState (session : GitHubSession) (email : String) (account : CreateAccountResult)
    (agent : RegisterAgentResult) (time : String) : AgentValetState where
  ownerId := some account.owner_id
  orgId := some account.org_id
  agentId := some agent.agent_id
  agentName := some agent.agent_name
  proxyUrl := some account.proxy_url
  email := some email
  githubUsername := some session.accountName
  registeredAt := some time
  pendingApproval := some true

/-- What the command and the automatic registration have in common. -/
def registerAccount (appName : String) (session : GitHubSession) :
    Prog (CreateAccountResult × RegisterAgentResult) := do
  let emails ← call (.fetchEmails session.token) Moment.emails
  let email := accountEmail session (emails.getD [])
  let account ← call (.createOrFindAccount session.token session.accountName email
    session.accountName) Moment.account
  let editor := detectEditor appName
  let agent ← call (.registerAgent account.owner_id (session.accountName ++ " — " ++ editor)
    ("Registered via AgentValet VSCode extension (" ++ editor ++ ")") account.owner_id) Moment.agent
  let time ← storeSecret (secretKey agent.agent_id) agent.private_key_pem
  set (registeredState session email account agent time)
  pure (account, agent)

def offerApproval (message : String) : Prog Unit := do
  let action ← call (.message message ["Approve now", "Dismiss"]) Moment.chosen
  if action = some "Approve now" then aside (.openExternal "https://app.agentvalet.ai/agents")
  else pure ()

def settingUp (bar : StatusBar) : StatusBar :=
  { bar with text := "$(sync~spin) AgentValet: Setting up...", visible := true }

/-- A failure only hides the status bar. -/
def attemptAutoRegistration (appName : String) : Prog Unit := do
  let w ← Routine.get
  if isRegistered w.stored || !w.settings.autoRegister then pure ()
  else
    match ← getSession false with
    | none => pure ()
    | some session => do
      Routine.modify fun w => { w with bar := settingUp w.bar }
      let attempt : Prog Unit := do
        let (account, agent) ← registerAccount appName session
        offerApproval <|
          if account.is_new_account then "AgentValet: Account created for @" ++
            session.accountName ++ ". Agent \"" ++ agent.agent_name ++ "\" is pending approval."
          else "AgentValet: Agent \"" ++ agent.agent_name ++
            "\" registered. Pending your approval in the dashboard."
        updateStatusBar
      attempt.orElse fun _ =>
        Routine.modify fun w => { w with bar := { w.bar with visible := false } }

/-- Whether the command goes on; of the three answers only the last ends it. -/
def askRegistered (s : AgentValetState) : Prog Bool := do
  let action ← call (.message ("Already registered as \"" ++ shown s.agentName ++ "\" (" ++
    shown s.agentId ++ ").") ["Open dashboard", "Re-register", "Cancel"]) Moment.chosen
  if action = some "Open dashboard" then do
    aside (.openExternal "https://app.agentvalet.ai")
    pure true
  else if action = some "Re-register" then do
    clear
    pure true
  else pure false

def registerSession (appName : String) : Prog Unit := do
  match ← getSession true with
  | none => aside (.warning ("AgentValet: GitHub sign-in cancelled. Previous registration was " ++
      "cleared — run the command again to re-register."))
  | some session => do
    let registration : Prog Unit := do
      let (_, agent) ← registerAccount appName session
      updateStatusBar
      offerApproval ("Agent \"" ++ agent.agent_name ++
        "\" registered. Approve it in the dashboard to activate.")
    registration.orElse fun err => aside (.error ("AgentValet: Registration failed — " ++ err))

def registerCommand (appName : String) : Prog Unit := do
  let w ← Routine.get
  let goesOn ← if isRegistered w.stored then askRegistered w.stored else pure true
  if goesOn then registerSession appName else pure ()

def statusItems (s : AgentValetState) : List String :=
  ["Agent: " ++ shown s.agentName, "ID: " ++ shown s.agentId,
    "Status: " ++ (if s.pendingApproval = some true then "Pending approval" else "Active"),
    "Proxy: " ++ shown s.proxyUrl, "Open dashboard →", "Copy proxy URL", "Sign out"]

def showStatus : Prog Unit := do
  let w ← Routine.get
  if !isRegistered w.stored then do
    let action ← call (.message "AgentValet: Not registered." ["Register now", "Cancel"])
      Moment.chosen
    if action = some "Register now" then aside (.executeCommand "agentvalet.register") else pure ()
  else do
    let selected ← call (.quickPick (statusItems w.stored)) Moment.chosen
    if selected = some "Open dashboard →" then aside (.executeCommand "agentvalet.openDashboard")
    else if selected = some "Copy proxy URL" then aside (.executeCommand "agentvalet.copyProxyUrl")
    else if selected = some "Sign out" then aside (.executeCommand "agentvalet.signOut")
    else pure ()

def copyProxyUrl : Prog Unit := do
  let w ← Routine.get
  match w.stored.proxyUrl.filter (· ≠ "") with
  | none => aside (.warning "AgentValet: Not registered yet.")
  | some url => do
    call (.writeText url) Moment.kept
    aside (.information "AgentValet: Proxy URL copied to clipboard.")

def signOut : Prog Unit := do
  let confirm ← call (.message ("AgentValet: Sign out? Your agent will remain registered in the " ++
    "dashboard.") ["Sign out"]) Moment.chosen
  if confirm = some "Sign out" then do
    let w ← Routine.get
    match w.stored.agentId.filter (· ≠ "") with
    | none => pure ()
    | some agentId => deleteSecret (secretKey agentId)
    clear
    updateStatusBar
    aside (.information "AgentValet: Signed out.")
  else pure ()

inductive Handler where
  | timer
  | sessionsChanged (providerId : String)
  | register
  | openDashboard
  | showStatus
  | copyProxyUrl
  | signOut
  /-- The user edits the settings. -/
  | configure (settings : Settings)

def handler (appName : String) : Handler → Prog Unit
  | .timer => do
    attemptAutoRegistration appName
    updateStatusBar
  | .sessionsChanged providerId => do
    let w ← Routine.get
    if providerId = "github" && !isRegistered w.stored then do
      attemptAutoRegistration appName
      updateStatusBar
    else pure ()
  | .register => registerCommand appName
  | .openDashboard => aside (.openExternal "https://app.agentvalet.ai")
  | .showStatus => Vscode.showStatus
  | .copyProxyUrl => Vscode.copyProxyUrl
  | .signOut => Vscode.signOut
  | .configure settings => Routine.modify fun w => { w with settings := settings }

def createStatusBar : StatusBar := ⟨"", "", "agentvalet.showStatus", false⟩

/-- `activate`, with what an earlier window has left. -/
def activate (settings : Settings) (stored : AgentValetState) (secrets : String → Option String) :
    Window :=
  let w : Window := ⟨settings, stored, fun k => .ofOption (secrets k), createStatusBar, []⟩
  { w with bar := updated w }

end AgentValet.Vscode
