import AgentValet.Vscode.Extension

namespace AgentValet.Vscode
open Base

def keyStored (w : Window) (agent : RegisterAgentResult) : Window :=
  w.put (secretKey agent.agent_id) (.holds agent.private_key_pem false)

def recorded (w : Window) (session : GitHubSession) (email : String) (account : CreateAccountResult)
    (agent : RegisterAgentResult) (time : String) : Window :=
  { w.confirm (secretKey agent.agent_id) with
    stored := registeredState session email account agent time }

def refreshed (w : Window) : Window := { w with bar := updated w }

def Question.registers : Question → Prop
  | .registerAgent _ _ _ _ => True
  | _ => False

section
variable {answers : Question → Moment → Prop} {rely guar : Window → Window → Prop}
  {exc : String → Window → Window → Prop} {w₀ w : Window}

theorem sat_call_iff {α : Type} {ret : α → Window → Window → Prop} {q : Question}
    {read : Moment → Except String α} :
    (call q read).Sat answers rely guar ret exc w₀ w ↔
      guar w₀ w ∧ ∀ m, answers q m → ∀ w', rely w w' →
        (∀ a, read m = .ok a → ret a w' w') ∧ ∀ e, read m = .error e → exc e w' w' := by
  simp only [call, Routine.sat_bind_iff, Routine.sat_query_iff, Routine.sat_ofExcept_iff]

/-- Others take their turns before the storage carries the call out, and again before it answers. -/
theorem sat_callSecrets {ret : String → Window → Window → Prop} {q : Question} {key : String}
    {effect : Slot} (hfirst : guar w₀ w) (hexc : ∀ e w', exc e w' w')
    (hput : ∀ w', rely w w' → guar w' (w'.put key effect))
    (hret : ∀ time w' w'', rely w w' → rely (w'.put key effect) w'' →
      ret time w'' (w''.confirm key)) :
    (callSecrets q key effect).Sat answers rely guar ret exc w₀ w := by
  simp only [callSecrets, Routine.sat_bind_iff, sat_call_iff, Routine.sat_modify_iff,
    Routine.sat_pure_iff]
  refine ⟨hfirst, fun m _ w' h' => ⟨fun _ _ => ⟨hput w' h', fun m' _ w'' h'' => ?_⟩, ?_⟩⟩
  · exact ⟨fun time _ => hret time w' w'' h' h'', fun e _ => hexc e w''⟩
  · exact fun e _ => hexc e w'

/-- Only the storage of the key and the turn that records the registration change the window. -/
theorem sat_registerAccount {appName : String} {session : GitHubSession}
    {ret : CreateAccountResult × RegisterAgentResult → Window → Window → Prop}
    (hfirst : guar w₀ w) (hguar : ∀ w, guar w w)
    (htrans : ∀ w w' w'', rely w w' → rely w' w'' → rely w w'') (hexc : ∀ e w', exc e w' w')
    (hstore : ∀ q m agent w', q.registers → answers q m → m.agent = .ok agent → rely w w' →
      guar w' (keyStored w' agent))
    (hret : ∀ q m email account agent time w' w'', q.registers → answers q m →
      m.agent = .ok agent → rely w w' → rely (keyStored w' agent) w'' →
      ret (account, agent) w'' (recorded w'' session email account agent time)) :
    (registerAccount appName session).Sat answers rely guar ret exc w₀ w := by
  simp only [registerAccount, storeSecret, Vscode.set, Routine.sat_bind_iff, sat_call_iff,
    Routine.sat_modify_iff, Routine.sat_pure_iff]
  refine ⟨hfirst, fun m₁ _ w₁ h₁ => ⟨fun emails _ => ⟨hguar w₁, fun m₂ _ w₂ h₂ => ⟨?_, ?_⟩⟩, ?_⟩⟩
  · intro account _
    have h₂' := htrans _ _ _ h₁ h₂
    refine ⟨hguar w₂, fun m₃ ha₃ w₃ h₃ => ⟨fun agent hagent => ?_, fun e _ => hexc e w₃⟩⟩
    have h₃' := htrans _ _ _ h₂' h₃
    refine sat_callSecrets (hguar w₃) hexc ?_ ?_
    · exact fun w' h' => hstore _ m₃ agent w' (by trivial) ha₃ hagent (htrans _ _ _ h₃' h')
    · exact fun time w' w'' h' h'' =>
        hret _ m₃ _ account agent time w' w'' (by trivial) ha₃ hagent (htrans _ _ _ h₃' h') h''
  · exact fun e _ => hexc e w₂
  · exact fun e _ => hexc e w₁

theorem sat_offerApproval {ret : Unit → Window → Window → Prop} {message : String}
    (hfirst : guar w₀ w) (hret : ∀ w, ret () w w)
    (hopen : ∀ w url, ret () w { w with asides := w.asides ++ [.openExternal url] })
    (hexc : ∀ e w, exc e w w) :
    (offerApproval message).Sat answers rely guar ret exc w₀ w := by
  simp only [offerApproval, Routine.sat_bind_iff, sat_call_iff]
  refine ⟨hfirst, fun m _ w' _ => ⟨fun action _ => ?_, fun e _ => hexc e w'⟩⟩
  split
  · exact hopen w' _
  · exact hret w'

/-- The commands that only ask and show. -/
theorem sat_reader (hrefl : ∀ w, guar w w)
    (haside : ∀ w a, guar w { w with asides := w.asides ++ [a] }) (appName : String) {h : Handler}
    (hreader : h = .openDashboard ∨ h = .showStatus ∨ h = .copyProxyUrl) :
    (handler appName h).Sat answers rely guar (fun _ => guar) (fun _ => guar) w w := by
  obtain rfl | rfl | rfl := hreader
  · exact haside w _
  · simp only [handler, showStatus, Routine.sat_bind_iff, Routine.sat_get_iff]
    split
    · simp only [Routine.sat_bind_iff, sat_call_iff]
      refine ⟨hrefl w, fun m _ w' _ => ⟨fun action _ => ?_, fun e _ => hrefl w'⟩⟩
      split
      · exact haside w' _
      · exact hrefl w'
    · simp only [Routine.sat_bind_iff, sat_call_iff]
      refine ⟨hrefl w, fun m _ w' _ => ⟨fun selected _ => ?_, fun e _ => hrefl w'⟩⟩
      repeat' split
      all_goals first | exact haside w' _ | exact hrefl w'
  · simp only [handler, copyProxyUrl, Routine.sat_bind_iff, Routine.sat_get_iff]
    split
    · exact haside w _
    · simp only [Routine.sat_bind_iff, sat_call_iff]
      exact ⟨hrefl w, fun m _ w' _ => ⟨fun _ _ => haside w' _, fun e _ => hrefl w'⟩⟩

end

/-- What each turn of a command does is within the guarantee. -/
structure CommandTerms (answers : Question → Moment → Prop) (rely guar : Window → Window → Prop) :
    Prop where
  refl : ∀ w, guar w w
  trans : ∀ w w' w'', guar w w' → guar w' w'' → guar w w''
  rely_trans : ∀ w w' w'', rely w w' → rely w' w'' → rely w w''
  aside : ∀ w a, guar w { w with asides := w.asides ++ [a] }
  clear : ∀ w, guar w { w with stored := .empty }
  keyStored : ∀ q m agent w, q.registers → answers q m → m.agent = .ok agent →
    guar w (keyStored w agent)
  recorded : ∀ q m session email account agent time w w', q.registers → answers q m →
    m.agent = .ok agent → rely (Vscode.keyStored w agent) w' →
      guar w' (refreshed (recorded w' session email account agent time))
  deleted : ∀ w key, guar w (w.put key (.deleted false))
  confirmed : ∀ w key, guar w (w.confirm key)
  signedOut : ∀ w, guar w (refreshed { w with stored := .empty })

/-- So is what each turn of an automatic registration does. -/
structure AttemptTerms (answers : Question → Moment → Prop) (rely guar : Window → Window → Prop) :
    Prop where
  settingUp : ∀ w, guar w { w with bar := settingUp w.bar }
  recorded : ∀ q m session email account agent time w w', q.registers → answers q m →
    m.agent = .ok agent → rely (keyStored w agent) w' →
      guar w' (recorded w' session email account agent time)
  hide : ∀ w, guar w { w with bar := { w.bar with visible := false } }
  refresh : ∀ w, guar w (refreshed w)

/-- What each turn of a command does keeps `P`, whatever the answers are. -/
structure KeptByCommands (P : Window → Prop) : Prop where
  aside : ∀ w a, P w → P { w with asides := w.asides ++ [a] }
  clear : ∀ w, P w → P { w with stored := .empty }
  secrets : ∀ w secrets, P w → P { w with secrets := secrets }
  recorded : ∀ w session email account agent time, P w →
    P (refreshed (recorded w session email account agent time))
  signedOut : ∀ w, P w → P (refreshed { w with stored := .empty })

theorem KeptByCommands.terms {P : Window → Prop} (hP : KeptByCommands P) :
    CommandTerms (fun _ _ => True) (fun _ _ => True) fun w w' => P w → P w' where
  refl _ := id
  trans _ _ _ h h' hw := h' (h hw)
  rely_trans _ _ _ _ _ := trivial
  aside := hP.aside
  clear := hP.clear
  keyStored _ _ _ w _ _ _ := hP.secrets w _
  recorded _ _ _ _ _ _ _ _ w' _ _ _ _ := hP.recorded w' _ _ _ _ _
  deleted w _ := hP.secrets w _
  confirmed w _ := hP.secrets w _
  signedOut := hP.signedOut

section
variable {answers : Question → Moment → Prop} {rely guar : Window → Window → Prop} {w₀ w : Window}

theorem sat_aside (hT : CommandTerms answers rely guar) (a : Aside) (h : guar w₀ w) :
    (aside a).Sat answers rely guar (fun _ => guar) (fun _ => guar) w₀ w :=
  hT.trans _ _ _ h (hT.aside w a)

theorem sat_offerApproval_terms (hT : CommandTerms answers rely guar) {message : String}
    (h : guar w₀ w) :
    (offerApproval message).Sat answers rely guar (fun _ => guar) (fun _ => guar) w₀ w :=
  sat_offerApproval h (fun _ => hT.refl _) (fun w _ => hT.aside w _) fun _ _ => hT.refl _

theorem sat_registerSession (hT : CommandTerms answers rely guar) (appName : String)
    (h : guar w₀ w) :
    (registerSession appName).Sat answers rely guar (fun _ => guar) (fun _ => guar) w₀ w := by
  simp only [registerSession, getSession, Routine.sat_bind_iff, Routine.sat_query_iff]
  refine ⟨h, fun m _ w' _ => ?_⟩
  cases m.session.toOption.join with
  | none => exact sat_aside hT _ (hT.refl w')
  | some session =>
    simp only [Routine.sat_orElse_iff, Routine.sat_bind_iff, updateStatusBar,
      Routine.sat_modify_iff]
    refine sat_registerAccount (hT.refl w') hT.refl hT.rely_trans ?_ ?_ ?_
    · exact fun err w'' => sat_aside hT _ (hT.refl w'')
    · exact fun q m agent w'' hq ha hagent _ => hT.keyStored q m agent w'' hq ha hagent
    · intro q m email account agent time w₁ w₂ hq ha hagent _ hrely
      have hoffer := hT.recorded q m session email account agent time w₁ w₂ hq ha hagent hrely
      exact (sat_offerApproval_terms hT hoffer).mono (fun _ _ => id) (fun _ _ => id)
        (fun _ _ _ => id) fun err w₀ w h => sat_aside hT _ h

theorem sat_registerCommand (hT : CommandTerms answers rely guar) (appName : String) :
    (registerCommand appName).Sat answers rely guar (fun _ => guar) (fun _ => guar) w w := by
  simp only [registerCommand, askRegistered, Routine.sat_bind_iff, Routine.sat_get_iff]
  have hgoes : ∀ w₀ w, guar w₀ w → ∀ goesOn : Bool,
      (if goesOn then registerSession appName else pure ()).Sat answers rely guar
        (fun _ => guar) (fun _ => guar) w₀ w := by
    intro w₀ w h goesOn
    cases goesOn with
    | true => exact sat_registerSession hT appName h
    | false => exact h
  split
  · simp only [Routine.sat_bind_iff, sat_call_iff]
    refine ⟨hT.refl w, fun m _ w' _ => ⟨fun action _ => ?_, fun e _ => hT.refl w'⟩⟩
    split
    · exact hgoes _ _ (hT.aside w' _) true
    · split
      · exact hgoes _ _ (hT.clear w') true
      · exact hgoes _ _ (hT.refl w') false
  · exact hgoes _ _ (hT.refl w) true

theorem sat_signOut (hT : CommandTerms answers rely guar) :
    signOut.Sat answers rely guar (fun _ => guar) (fun _ => guar) w w := by
  simp only [signOut, Routine.sat_bind_iff, sat_call_iff]
  refine ⟨hT.refl w, fun m _ w' _ => ⟨fun confirm _ => ?_, fun e _ => hT.refl w'⟩⟩
  have hout : ∀ w₀ w, guar w₀ w →
      guar w₀ { refreshed { w with stored := .empty } with
        asides := w.asides ++ [.information "AgentValet: Signed out."] } :=
    fun w₀ w h => hT.trans _ _ _ (hT.trans _ _ _ h (hT.signedOut w)) (hT.aside _ _)
  split
  · simp only [Routine.sat_bind_iff, Routine.sat_get_iff]
    split
    · exact hout w' w' (hT.refl w')
    · simp only [deleteSecret, Routine.sat_bind_iff]
      refine sat_callSecrets (hT.refl w') (fun _ w'' => hT.refl w'') ?_ ?_
      · exact fun w'' _ => hT.deleted w'' _
      · exact fun _ _ w'' _ _ => hout w'' _ (hT.confirmed w'' _)
  · exact hT.refl w'

/-- It throws nothing. -/
theorem sat_attempt (hT : CommandTerms answers rely guar) (hT' : AttemptTerms answers rely guar)
    (appName : String) :
    (attemptAutoRegistration appName).Sat answers rely guar (fun _ => guar) (fun _ _ _ => False)
      w w := by
  simp only [attemptAutoRegistration, getSession, Routine.sat_bind_iff, Routine.sat_get_iff]
  split
  · exact hT.refl w
  · simp only [Routine.sat_bind_iff, Routine.sat_query_iff]
    refine ⟨hT.refl w, fun m _ w' _ => ?_⟩
    cases m.session.toOption.join with
    | none => exact hT.refl w'
    | some session =>
      simp only [Routine.sat_bind_iff, Routine.sat_modify_iff, Routine.sat_orElse_iff,
        updateStatusBar]
      refine sat_registerAccount (hT'.settingUp w') hT.refl hT.rely_trans ?_ ?_ ?_
      · exact fun _ w'' => hT'.hide w''
      · exact fun q m agent w'' hq ha hagent _ => hT.keyStored q m agent w'' hq ha hagent
      · intro q m email account agent time w₁ w₂ hq ha hagent _ hrely
        have hrecorded := hT'.recorded q m session email account agent time w₁ w₂ hq ha hagent hrely
        refine (sat_offerApproval_terms hT hrecorded).mono (fun _ _ => id) (fun _ _ => id) ?_ ?_
        · exact fun _ w₀ w h => hT.trans _ _ _ h (hT'.refresh w)
        · exact fun _ w₀ w h => hT.trans _ _ _ h (hT'.hide w)

end

def Handler.isCommand : Handler → Bool
  | .timer | .sessionsChanged _ | .configure _ => false
  | _ => true

section
variable {answers : Question → Moment → Prop} {rely guar : Window → Window → Prop} {w : Window}

theorem sat_command (hT : CommandTerms answers rely guar) (appName : String) {h : Handler}
    (hcommand : h.isCommand = true) :
    (handler appName h).Sat answers rely guar (fun _ => guar) (fun _ => guar) w w := by
  cases h with
  | timer | sessionsChanged | configure => exact absurd hcommand Bool.false_ne_true
  | register => exact sat_registerCommand hT appName
  | signOut => exact sat_signOut hT
  | openDashboard | showStatus | copyProxyUrl =>
    exact sat_reader hT.refl hT.aside appName (by simp)

theorem sat_handler (hT : CommandTerms answers rely guar) (hT' : AttemptTerms answers rely guar)
    (hsettings : ∀ w settings, guar w { w with settings := settings }) (appName : String)
    (h : Handler) :
    (handler appName h).Sat answers rely guar (fun _ => guar) (fun _ => guar) w w := by
  have hrefresh : ∀ w, (attemptAutoRegistration appName >>= fun _ => updateStatusBar).Sat answers
      rely guar (fun _ => guar) (fun _ => guar) w w :=
    fun w => Routine.sat_bind_iff.2 ((sat_attempt hT hT' appName).mono (fun _ _ => id)
      (fun _ _ => id) (fun _ w₀ w h => hT.trans _ _ _ h (hT'.refresh w)) fun _ _ _ h => h.elim)
  cases h with
  | timer => exact hrefresh w
  | sessionsChanged providerId =>
    simp only [handler, Routine.sat_bind_iff, Routine.sat_get_iff]
    split
    · exact hrefresh w
    · exact hT.refl w
  | configure settings => exact hsettings w settings
  | _ => exact sat_command hT appName rfl

end

end AgentValet.Vscode
