import AgentValet.Vscode.Turns

namespace AgentValet.Vscode
open Base

/-- Nothing is recorded, or one registration from its first field to its last, pending. -/
def Recorded (s : AgentValetState) : Prop :=
  s = .empty ∨ ∃ session email account agent time,
    s = registeredState session email account agent time

def Unapproved (w : Window) : Prop := w.bar.text ≠ "$(shield-check) AgentValet"

theorem pending_of_recorded {s : AgentValetState} (h : Recorded s)
    (hregistered : isRegistered s = true) : isPendingApproval s = true := by
  obtain rfl | ⟨session, email, account, agent, time, rfl⟩ := h
  · exact absurd hregistered Bool.false_ne_true
  · rfl

theorem unapproved_refreshed {w : Window} (hrecorded : Recorded w.stored) (h : Unapproved w) :
    Unapproved (refreshed w) := by
  simp only [Unapproved, refreshed, updated]
  split
  · exact h
  · split
    · simp [notRegisteredBar]
    · rename_i hregistered
      rw [if_pos (pending_of_recorded hrecorded (by simpa using hregistered))]
      simp [pendingBar]

theorem keptByCommands_recorded : KeptByCommands fun w => Recorded w.stored ∧ Unapproved w where
  aside _ _ h := h
  clear _ h := ⟨Or.inl rfl, h.2⟩
  secrets _ _ h := h
  recorded _ session email account agent time h :=
    have hrecorded := Or.inr ⟨session, email, account, agent, time, rfl⟩
    ⟨hrecorded, unapproved_refreshed hrecorded h.2⟩
  signedOut _ h := ⟨Or.inl rfl, unapproved_refreshed (Or.inl rfl) h.2⟩

theorem attemptTerms_recorded : AttemptTerms (fun _ _ => True) (fun _ _ => True) fun w w' =>
    Recorded w.stored ∧ Unapproved w → Recorded w'.stored ∧ Unapproved w' where
  settingUp _ h := ⟨h.1, by simp [Unapproved, settingUp]⟩
  recorded _ _ session email account agent time _ _ _ _ _ _ h :=
    ⟨Or.inr ⟨session, email, account, agent, time, rfl⟩, h.2⟩
  hide _ h := h
  refresh _ h := ⟨h.1, unapproved_refreshed h.1 h.2⟩

theorem unapproved_activate {settings : Settings} {stored : AgentValetState}
    {secrets : String → Option String} (h : Recorded stored) :
    Unapproved (activate settings stored secrets) :=
  @unapproved_refreshed ⟨settings, stored, fun k => .ofOption (secrets k), createStatusBar, []⟩ h
    (by simp [Unapproved, createStatusBar])

theorem keeps_recorded (appName : String) (h : Handler) (w : Window) :
    (handler appName h).Keeps (fun w => Recorded w.stored ∧ Unapproved w) w w :=
  sat_handler keptByCommands_recorded.terms attemptTerms_recorded (fun _ _ h => h) appName h

/-- However the turns of the handlers interleave, what is recorded is nothing or one whole
registration, and the status bar never says that the agent is active. -/
theorem recorded_throughout (appName : String) {settings : Settings} {stored : AgentValetState}
    {secrets : String → Option String} (h : Recorded stored) (moves : List (Move Handler Moment)) :
    Throughout (Pool.step (handler appName))
      (fun p => Recorded p.shared.stored ∧ Unapproved p.shared)
      ⟨activate settings stored secrets, []⟩ moves :=
  Pool.throughout_of_keeps (keeps_recorded appName) ⟨h, unapproved_activate h⟩ moves

/-- An issued key was put there, and is there unless it was deleted. -/
def Slot.Written (issued : String → Prop) : Slot → Prop
  | .empty => False
  | .holds value _ => issued value
  | .deleted _ => True

def Written (Issued : String → String → Prop) (w : Window) (id : String) : Prop :=
  (w.secrets (secretKey id)).Written (Issued id)

/-- The key of a recorded agent was issued for it, and is there unless it was deleted. -/
def KeyKept (Issued : String → String → Prop) (w : Window) : Prop :=
  ∀ id, w.stored.agentId = some id → Written Issued w id

def Whole (Issued : String → String → Prop) (w : Window) : Prop :=
  Recorded w.stored ∧ KeyKept Issued w

section
variable {Issued : String → String → Prop} {w : Window} {id : String}

end

def granting (agentId : String) : Moment where
  session := .ok (some ⟨"gho_1", "octocat"⟩)
  emails := .ok none
  account := .ok ⟨"owner-1", "org-1", "https://proxy.agentvalet.ai", true⟩
  agent := .ok ⟨agentId, "octocat — vscode", "PEM of " ++ agentId⟩
  carriedOut := .ok ()
  kept := .ok ()
  chosen := .ok none
  time := "2026-01-01T00:00:00.000Z"

def samplePem (id pem : String) : Prop := pem = "PEM of " ++ id

def Shown (w : Window) : Prop := isRegistered w.stored = true → w.bar = updated w

theorem updated_refreshed (w : Window) : updated (refreshed w) = updated w := by
  simp only [refreshed, updated]
  split
  · rfl
  · rfl

theorem updated_of_pending {w : Window} (hregistered : isRegistered w.stored = true)
    (hpending : isPendingApproval w.stored = true) :
    updated w = pendingBar w.stored ∨
      w.settings.showStatusBar = false ∧ (updated w).visible = false := by
  cases hsetting : w.settings.showStatusBar with
  | false => exact Or.inr ⟨rfl, by simp [updated, hsetting]⟩
  | true => exact Or.inl (by simp [updated, hsetting, hregistered, hpending])

theorem shown_refreshed (w : Window) : Shown (refreshed w) := fun _ => (updated_refreshed w).symm

theorem keptByCommands_shown : KeptByCommands Shown where
  aside _ _ h := h
  clear _ _ h := absurd h Bool.false_ne_true
  secrets _ _ h := h
  recorded _ _ _ _ _ _ _ := shown_refreshed _
  signedOut _ _ := shown_refreshed _

/-- An automatic registration throws nothing, so the status bar is brought up to date after it. -/
theorem ends_attempt (appName : String) (w : Window) :
    (attemptAutoRegistration appName >>= fun _ => updateStatusBar).Ends Shown w w := by
  have hcommands : KeptByCommands fun _ => True := ⟨fun _ _ => id, fun _ => id, fun _ _ => id,
    fun _ _ _ _ _ _ => id, fun _ => id⟩
  have hattempts : AttemptTerms (fun _ _ => True) (fun _ _ => True) fun _ _ => True → True :=
    ⟨fun _ => id, fun _ _ _ _ _ _ _ _ _ _ _ _ _ => id, fun _ => id, fun _ => id⟩
  refine Routine.ends_bind ?_ fun _ _ w => shown_refreshed w
  exact (sat_attempt hcommands.terms hattempts appName).mono (fun _ _ _ => trivial)
    (fun _ _ _ => trivial) (fun _ _ _ _ => trivial) fun _ _ _ => id

def Handler.ofExtension : Handler → Prop
  | .configure _ => False
  | _ => True

theorem ends_or_keeps (appName : String) {h : Handler} (hext : h.ofExtension) (w : Window) :
    (handler appName h).Ends Shown w w ∨ (handler appName h).Keeps Shown w w := by
  cases h with
  | timer => exact Or.inl (ends_attempt appName w)
  | sessionsChanged providerId =>
    simp only [handler, Routine.Ends, Routine.Keeps, Routine.sat_bind_iff, Routine.sat_get_iff]
    split
    · exact Or.inl (ends_attempt appName w)
    · exact Or.inr id
  | configure => exact hext.elim
  | _ => exact Or.inr (sat_command keptByCommands_shown.terms appName rfl)

theorem shown_activate (settings : Settings) (stored : AgentValetState)
    (secrets : String → Option String) : Shown (activate settings stored secrets) :=
  shown_refreshed ⟨settings, stored, fun k => .ofOption (secrets k), createStatusBar, []⟩

/-- Whenever no handler waits, a registered agent is what the status bar shows as pending, or the
status bar is hidden by the settings. -/
theorem shown_at_rest (appName : String) {settings : Settings} {stored : AgentValetState}
    {secrets : String → Option String} (h : Recorded stored)
    {moves : List (Move Handler Moment)}
    (hrun : Along (Pool.step (handler appName))
      (fun _ m => ∀ h, m = .start h → h.ofExtension) ⟨activate settings stored secrets, []⟩ moves) :
    Throughout (Pool.step (handler appName))
      (fun p => p.AtRest → isRegistered p.shared.stored = true →
        p.shared.bar = pendingBar p.shared.stored ∨
          p.shared.settings.showStatusBar = false ∧ p.shared.bar.visible = false)
      ⟨activate settings stored secrets, []⟩ moves := by
  intro n hrest hregistered
  have hshown := Pool.holds_at_rest (fun h hext => ends_or_keeps appName hext)
    (shown_activate settings stored secrets) hrun n hrest hregistered
  have hpending := pending_of_recorded (recorded_throughout appName h moves n).1 hregistered
  exact hshown.symm ▸ updated_of_pending hregistered hpending

theorem shown_at_rest_timer :
    Throughout (Pool.step (handler "Code"))
      (fun p => p.AtRest → isRegistered p.shared.stored = true →
        p.shared.bar = pendingBar p.shared.stored ∨
          p.shared.settings.showStatusBar = false ∧ p.shared.bar.visible = false)
      ⟨activate ⟨true, true⟩ .empty fun _ => none, []⟩
      [.start .timer, .start .register, .answer 0 (granting "a1"), .answer 1 (granting "a2")] :=
  @shown_at_rest "Code" ⟨true, true⟩ .empty (fun _ => none) (Or.inl rfl) _
    ⟨fun _ h => by cases h; trivial, fun _ h => by cases h; trivial, fun _ h => (by cases h),
      fun _ h => (by cases h), trivial⟩

end AgentValet.Vscode
