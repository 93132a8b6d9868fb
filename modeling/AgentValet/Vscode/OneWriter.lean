import AgentValet.Vscode.Registration

namespace AgentValet.Vscode
open Base

def Registers (s : AgentValetState) (id : String) : Prop := s.agentId = some id ∧ id ≠ ""

/-- But for calls that are not answered, there is a key in the secret storage exactly for the
registered agent, and it is one that was issued for it. -/
structure ExactKeys (Issued : String → String → Prop) (s : AgentValetState)
    (secrets : String → Slot) : Prop where
  keys : ∀ k, (secrets k).answered = true →
    ((secrets k).value.isSome = true ↔ ∃ id, Registers s id ∧ k = secretKey id)
  issued : ∀ id pem, Registers s id → (secrets (secretKey id)).value = some pem → Issued id pem

def Exact (Issued : String → String → Prop) (w : Window) : Prop :=
  ExactKeys Issued w.stored w.secrets

def SameRecord (w w' : Window) : Prop := w'.stored = w.stored ∧ w'.secrets = w.secrets

def Handler.writes : Handler → Bool
  | .timer | .sessionsChanged _ | .register | .signOut => true
  | _ => false

/-- Agents get an id and a key that is issued for it, and who is registered stays so when asked. -/
def Agreed (Issued : String → String → Prop) (q : Question) (m : Moment) : Prop :=
  (q.registers → ∀ agent, m.agent = .ok agent →
    agent.agent_id ≠ "" ∧ Issued agent.agent_id agent.private_key_pem) ∧
    ∀ text, q = .message text ["Open dashboard", "Re-register", "Cancel"] →
      m.chosen ≠ .ok (some "Open dashboard") ∧ m.chosen ≠ .ok (some "Re-register")

/-- No two handlers that register or sign out wait side by side. -/
def oneWriter (Issued : String → String → Prop) : Contract Handler Window Question Moment where
  answers := Agreed Issued
  rely h w w' := h.writes = true → SameRecord w w'
  guar h w w' := if h.writes then Exact Issued w → Exact Issued w' else SameRecord w w'
  compat h h' := h.writes = false ∨ h'.writes = false
  rely_refl _ _ _ := ⟨rfl, rfl⟩
  rely_trans _ _ _ _ h h' hw := ⟨(h' hw).1.trans (h hw).1, (h' hw).2.trans (h hw).2⟩
  compat_symm _ _ := Or.symm
  rely_of_guar h h' w w' hcompat hguar hwrites := by
    have hreads : h'.writes = false := hcompat.resolve_left (by simp [hwrites])
    simpa [hreads] using hguar

section
variable {Issued : String → String → Prop} {w w' : Window} {agent : RegisterAgentResult}

theorem isRegistered_iff {s : AgentValetState} :
    isRegistered s = true ↔ ∃ id, Registers s id := by
  simp only [isRegistered, Registers]
  cases s.agentId with
  | none => simp
  | some id => simp [Option.filter]

theorem not_registers {s : AgentValetState} (hfree : isRegistered s = false) (id : String) :
    ¬ Registers s id := by
  intro h
  rw [isRegistered_iff.2 ⟨id, h⟩] at hfree
  cases hfree

theorem not_registers_empty (id : String) : ¬ Registers .empty id := by
  rintro ⟨h, -⟩
  cases h

theorem exact_of_same (hsame : SameRecord w w') (h : Exact Issued w) : Exact Issued w' := by
  rw [Exact, hsame.1, hsame.2]
  exact h

theorem exact_keyStored (hfree : isRegistered w.stored = false) (h : Exact Issued w) :
    Exact Issued (keyStored w agent) where
  keys k hk := by
    by_cases hkey : k = secretKey agent.agent_id
    · simp [keyStored, Window.put, hkey, Slot.answered] at hk
    · have hslot : (keyStored w agent).secrets k = w.secrets k := if_neg hkey
      rw [hslot] at hk ⊢
      exact h.keys k hk
  issued id _ hid := absurd hid (not_registers hfree id)

theorem exact_recorded (hsame : SameRecord (keyStored w agent) w')
    (hfree : isRegistered w.stored = false) (hid : agent.agent_id ≠ "")
    (hissued : Issued agent.agent_id agent.private_key_pem) {session : GitHubSession}
    {email : String} {account : CreateAccountResult} {time : String} (h : Exact Issued w') :
    Exact Issued (recorded w' session email account agent time) := by
  have hfree' : isRegistered w'.stored = false := by rw [hsame.1]; exact hfree
  have hregisters : ∀ id, Registers (registeredState session email account agent time) id ↔
      id = agent.agent_id := by
    intro id
    constructor
    · rintro ⟨heq, -⟩
      exact (Option.some.inj heq).symm
    · rintro rfl
      exact ⟨rfl, hid⟩
  have hslot : (recorded w' session email account agent time).secrets (secretKey agent.agent_id) =
      .holds agent.private_key_pem true := by
    simp [recorded, Window.confirm, Window.put, hsame.2, keyStored, Slot.confirm]
  constructor
  · intro k hk
    by_cases hkey : k = secretKey agent.agent_id
    · rw [hkey, hslot]
      exact iff_of_true rfl ⟨agent.agent_id, (hregisters _).2 rfl, rfl⟩
    · have hother : (recorded w' session email account agent time).secrets k = w'.secrets k :=
        if_neg hkey
      rw [hother] at hk ⊢
      rw [h.keys k hk]
      refine iff_of_false ?_ ?_
      · rintro ⟨id, hid', -⟩
        exact not_registers hfree' id hid'
      · rintro ⟨id, hid', rfl⟩
        exact hkey (by rw [(hregisters id).1 hid'])
  · intro id pem hid' hpem
    obtain rfl := (hregisters id).1 hid'
    rw [hslot] at hpem
    obtain rfl := Option.some.inj hpem
    exact hissued

theorem exact_cleared (hfree : isRegistered w.stored = false) (h : Exact Issued w) :
    Exact Issued { w with stored := .empty } where
  keys k hk := by
    refine (h.keys k hk).trans (iff_of_false ?_ ?_)
    · exact fun ⟨id, hid, _⟩ => not_registers hfree id hid
    · exact fun ⟨id, hid, _⟩ => not_registers_empty id hid
  issued id _ hid := absurd hid (not_registers_empty id)

theorem exact_deleted {id : String} (hid : Registers w.stored id) (h : Exact Issued w) :
    Exact Issued (w.put (secretKey id) (.deleted false)) where
  keys k hk := by
    by_cases hkey : k = secretKey id
    · simp [Window.put, hkey, Slot.answered] at hk
    · have hslot : (w.put (secretKey id) (.deleted false)).secrets k = w.secrets k := if_neg hkey
      rw [hslot] at hk ⊢
      exact h.keys k hk
  issued id' pem hid' hpem := by
    obtain rfl := Option.some.inj (hid'.1.symm.trans hid.1)
    simp [Window.put, Slot.value] at hpem

theorem exact_signedOut {id : String} (hid : Registers w.stored id)
    (hsame : SameRecord (w.put (secretKey id) (.deleted false)) w') (h : Exact Issued w') :
    Exact Issued { w'.confirm (secretKey id) with stored := .empty } where
  keys k hk := by
    refine iff_of_false ?_ fun ⟨id', hid', _⟩ => not_registers_empty id' hid'
    by_cases hkey : k = secretKey id
    · simp [hkey, Window.confirm, Window.put, hsame.2, Slot.confirm, Slot.value]
    · have hother : (w'.confirm (secretKey id)).secrets k = w'.secrets k := if_neg hkey
      simp only [hother] at hk ⊢
      rw [h.keys k hk]
      rintro ⟨id', hid', rfl⟩
      have hstored : w'.stored.agentId = some id := by rw [hsame.1]; exact hid.1
      obtain rfl := Option.some.inj (hid'.1.symm.trans hstored)
      exact hkey rfl
  issued id' _ hid' := absurd hid' (not_registers_empty id')

end

/-- On the terms of a handler that registers or signs out. -/
def SatWriter {α : Type} (Issued : String → String → Prop) (ret : α → Window → Window → Prop)
    (p : Prog α) (w₀ w : Window) : Prop :=
  p.Sat (Agreed Issued) SameRecord (fun w w' => Exact Issued w → Exact Issued w') ret
    (fun _ w w' => Exact Issued w → Exact Issued w') w₀ w

section
variable {Issued : String → String → Prop} {w₀ w : Window}

theorem satWriter_registerAccount (appName : String) (session : GitHubSession)
    (hfirst : Exact Issued w₀ → Exact Issued w) (hfree : isRegistered w.stored = false) :
    SatWriter Issued (fun _ w w' => Exact Issued w → Exact Issued w')
      (registerAccount appName session) w₀ w := by
  refine sat_registerAccount hfirst (fun _ => id)
    (fun _ _ _ h h' => ⟨h'.1.trans h.1, h'.2.trans h.2⟩) (fun _ _ => id) ?_ ?_
  · intro q m agent w' _ _ _ hsame
    have hfree' : isRegistered w'.stored = false := by rw [hsame.1, hfree]
    exact exact_keyStored hfree'
  · intro q m email account agent time w' w'' hq hagreed hagent hsame hsame'
    obtain ⟨hid, hissued⟩ := hagreed.1 hq agent hagent
    have hfree' : isRegistered w'.stored = false := by rw [hsame.1, hfree]
    exact exact_recorded hsame' hfree' hid hissued

theorem satWriter_refreshing (appName : String) :
    SatWriter Issued (fun _ w w' => Exact Issued w → Exact Issued w')
      (handler appName .timer) w w := by
  simp only [handler, attemptAutoRegistration, getSession, SatWriter, Routine.sat_bind_iff,
    Routine.sat_get_iff]
  split
  · exact id
  · rename_i hgo
    have hfree : isRegistered w.stored = false := by
      cases hr : isRegistered w.stored with
      | false => rfl
      | true => simp [hr] at hgo
    simp only [Routine.sat_bind_iff, Routine.sat_query_iff]
    refine ⟨id, fun m _ w' hsame => ?_⟩
    cases m.session.toOption.join with
    | none => exact id
    | some session =>
      simp only [Routine.sat_bind_iff, Routine.sat_modify_iff, Routine.sat_orElse_iff,
        updateStatusBar]
      have hfree' : isRegistered w'.stored = false := by rw [hsame.1, hfree]
      refine (satWriter_registerAccount appName session (fun h => h) hfree').mono (fun _ _ => id)
        (fun _ _ => id) ?_ fun _ _ _ h => h
      exact fun _ w₀ w h => sat_offerApproval h (fun _ => id) (fun _ _ => id) fun _ _ => id

theorem satWriter_registerSession (appName : String) (h : Exact Issued w₀ → Exact Issued w)
    (hfree : isRegistered w.stored = false) :
    SatWriter Issued (fun _ w w' => Exact Issued w → Exact Issued w')
      (registerSession appName) w₀ w := by
  simp only [registerSession, getSession, SatWriter, Routine.sat_bind_iff, Routine.sat_query_iff]
  refine ⟨h, fun m _ w' hsame => ?_⟩
  cases m.session.toOption.join with
  | none => exact id
  | some session =>
    have hfree' : isRegistered w'.stored = false := by rw [hsame.1, hfree]
    simp only [Routine.sat_orElse_iff, Routine.sat_bind_iff, updateStatusBar,
      Routine.sat_modify_iff]
    refine (satWriter_registerAccount appName session id hfree').mono (fun _ _ => id)
      (fun _ _ => id) ?_ fun _ _ _ h => h
    exact fun _ w₀ w h => sat_offerApproval h (fun _ => id) (fun _ _ => id) fun _ _ => id

theorem satWriter_registerCommand (appName : String) :
    SatWriter Issued (fun _ w w' => Exact Issued w → Exact Issued w')
      (registerCommand appName) w w := by
  simp only [registerCommand, askRegistered, SatWriter, Routine.sat_bind_iff, Routine.sat_get_iff]
  split
  · simp only [Routine.sat_bind_iff, sat_call_iff]
    refine ⟨id, fun m hagreed w' _ => ⟨fun action haction => ?_, fun e _ => id⟩⟩
    obtain ⟨hopen, hagain⟩ := hagreed.2 _ rfl
    rw [haction] at hopen hagain
    rw [if_neg fun h => hopen (by rw [h]), if_neg fun h => hagain (by rw [h])]
    exact id
  · rename_i hfree
    exact satWriter_registerSession appName id (by simpa using hfree)

theorem satWriter_signOut :
    SatWriter Issued (fun _ w w' => Exact Issued w → Exact Issued w') signOut w w := by
  simp only [signOut, SatWriter, Routine.sat_bind_iff, sat_call_iff]
  refine ⟨id, fun m _ w' _ => ⟨fun confirm _ => ?_, fun e _ => id⟩⟩
  split
  · simp only [Routine.sat_bind_iff, Routine.sat_get_iff]
    split
    · rename_i hnone
      have hfree : isRegistered w'.stored = false := by rw [isRegistered, hnone]; rfl
      exact exact_cleared hfree
    · rename_i agentId hid
      obtain ⟨hstored, hne⟩ := Option.filter_eq_some_iff.1 hid
      have hregisters : Registers w'.stored agentId := ⟨hstored, by simpa using hne⟩
      simp only [deleteSecret, Routine.sat_bind_iff]
      refine sat_callSecrets id (fun _ _ => id) ?_ ?_
      · intro w'' hsame
        exact exact_deleted (hsame.1 ▸ hregisters)
      · intro time w₁ w₂ hsame hsame'
        exact exact_signedOut (hsame.1 ▸ hregisters) hsame'
  · exact id

theorem meets_oneWriter (appName : String) : Pool.Meets (oneWriter Issued) (handler appName) := by
  intro h w
  have hwriter : ∀ {p : Prog Unit} {h : Handler}, h.writes = true →
      SatWriter Issued (fun _ w w' => Exact Issued w → Exact Issued w') p w w →
        p.Sat (oneWriter Issued).answers ((oneWriter Issued).rely h) ((oneWriter Issued).guar h)
          (fun _ => (oneWriter Issued).guar h) (fun _ => (oneWriter Issued).guar h) w w := by
    intro p h hw hp
    simp only [oneWriter, hw, if_true, true_implies]
    exact hp
  cases h with
  | timer => exact hwriter rfl (satWriter_refreshing appName)
  | sessionsChanged providerId =>
    refine hwriter rfl ?_
    simp only [handler, SatWriter, Routine.sat_bind_iff, Routine.sat_get_iff]
    split
    · exact satWriter_refreshing appName
    · exact id
  | register => exact hwriter rfl (satWriter_registerCommand appName)
  | signOut => exact hwriter rfl satWriter_signOut
  | configure settings => exact ⟨rfl, rfl⟩
  | openDashboard | showStatus | copyProxyUrl =>
    exact sat_reader (fun _ => ⟨rfl, rfl⟩) (fun _ _ => ⟨rfl, rfl⟩) appName (by simp)

/-- While no two handlers that register or sign out wait side by side, agents get an id and a
registered user is not registered again, the secret storage holds the key that was issued for the
registered agent and nothing else, but for what it has not answered. -/
theorem exact_throughout (appName : String) {settings : Settings} {stored : AgentValetState}
    {secrets : String → Option String} (h : Exact Issued (activate settings stored secrets))
    {moves : List (Move Handler Moment)}
    (hrun : Along (Pool.step (handler appName)) (Pool.Allows (oneWriter Issued))
      ⟨activate settings stored secrets, []⟩ moves) :
    Throughout (Pool.step (handler appName)) (fun p => Exact Issued p.shared)
      ⟨activate settings stored secrets, []⟩ moves := by
  intro n
  refine (Pool.throughout_of_guar (meets_oneWriter appName) ?_ h hrun n).2
  intro h w w' hguar hexact
  cases hw : h.writes with
  | false => exact exact_of_same (by simpa [oneWriter, hw] using hguar) hexact
  | true => exact (by simpa [oneWriter, hw] using hguar : Exact Issued w → Exact Issued w') hexact

end

theorem agreed_granting (q : Question) : Agreed samplePem q (granting "a1") := by
  refine ⟨?_, fun _ _ => ⟨by simp [granting], by simp [granting]⟩⟩
  rintro - agent ⟨⟩
  exact ⟨by decide, rfl⟩

theorem exact_empty (settings : Settings) :
    Exact samplePem (activate settings .empty fun _ => none) where
  keys _ _ := iff_of_false Bool.false_ne_true fun ⟨id, hid, _⟩ => not_registers_empty id hid
  issued id _ hid := absurd hid (not_registers_empty id)

theorem exact_throughout_timer :
    Throughout (Pool.step (handler "Code")) (fun p => Exact samplePem p.shared)
      ⟨activate ⟨true, true⟩ .empty fun _ => none, []⟩
      (.start .timer :: .start .showStatus :: List.replicate 6 (.answer 0 (granting "a1"))) :=
  @exact_throughout samplePem "Code" ⟨true, true⟩ .empty (fun _ => none) (exact_empty _) _
    ⟨fun _ h => (by cases h), fun _ _ _ => Or.inl rfl,
      along_of_mem (fun _ _ hm => (List.eq_of_mem_replicate hm) ▸ fun _ q _ _ => agreed_granting q)
        _⟩

def overlapping : List (Move Handler Moment) :=
  [.start .timer, .start (.sessionsChanged "github")] ++
    List.replicate 6 (.answer 0 (granting "a1")) ++ List.replicate 6 (.answer 1 (granting "a2"))

/-- The key of the first is left behind. -/
theorem key_left_by_overlap :
    let w := (overlapping.foldl (Pool.step (handler "Code"))
      ⟨activate ⟨true, true⟩ .empty fun _ => none, []⟩).shared
    w.stored.agentId = some "a2" ∧ w.secrets (secretKey "a1") = .holds "PEM of a1" true := by
  decide +kernel

end AgentValet.Vscode
