import AgentValet.Identity.OneIdentity
import AgentValet.Identity.Uninstall

namespace AgentValet.Identity
open Base Lang

/-- An agent that was claimed under a label, with what was written for it. -/
structure Claimed where
  label : String
  key : String
  identity : String

def claimedBy (m : Machine) (w : BindHost) (opts : ClaimOptions) : Option Claimed := do
  let bound ← claimBind m w opts
  let identity ← bound.identity
  let label ← opts.label?.filter (· ≠ "")
  pure ⟨label, w.privateKey, w.stringifyIndented (opts.identityJson identity)⟩

/-- A machine with a history: what was issued to it, and which agents were claimed under labels. -/
structure Household where
  world : World
  claimed : List Claimed

inductive Act where
  | run (c : Command)
  | claim (w : BindHost) (opts : ClaimOptions)

def Household.machine (h : Household) : Machine := h.world.machine

def Household.step (h : Household) : Act → Household
  | .run c => { h with world := h.world.step c }
  | .claim w opts =>
    { world := { h.world with machine := (claimCommand h.machine w opts).machine }
      claimed := (claimedBy h.machine w opts).toList ++ h.claimed }

def Household.start (home : String) (files : Files) : Household := ⟨World.start home files, []⟩

def Household.run (home : String) (files : Files) (acts : List Act) : Household :=
  acts.foldl Household.step (Household.start home files)

def labelDir (home label : String) : String := AGENT_DIR home ++ "/" ++ label

/-- The key and the identity are there as they were written. -/
def Kept (home : String) (files : Files) (a : Claimed) : Prop :=
  files (placeIn (labelDir home a.label)).keyPath = some a.key ∧
    files (placeIn (labelDir home a.label)).identityPath = some a.identity

theorem cleanLocally_none (strips : Strips) (m : Machine) (cwd rest : String) :
    (cleanLocally strips m cwd).files (AGENT_DIR m.home ++ "/" ++ rest) = none := by
  have hremoved : ∀ (paths : List String) (files : Files) (p : String), files p = none →
      paths.foldl (fun files path => files.remove (cwd ++ "/" ++ path)) files p = none := by
    intro paths
    induction paths with
    | nil => exact fun files p h => h
    | cons path paths ih => exact fun files p h => ih _ p (files.remove_eq_none h _)
  have hrewritten : ∀ (paths : List (String × (String → Option String))) (files : Files)
      (p : String), files p = none →
      paths.foldl (fun files p => files.rewrite p.1 p.2) files p = none := by
    intro paths
    induction paths with
    | nil => exact fun files p h => h
    | cons path paths ih => exact fun files p h => ih _ p (files.rewrite_eq_none h _ _)
  unfold cleanLocally
  apply hrewritten
  apply removeGenerated_eq_none
  apply removeGenerated_eq_none
  apply hremoved
  exact m.files.remove_under (AGENT_DIR m.home) rest

theorem not_kept_of_clean (strips : Strips) (m : Machine) (cwd : String) (a : Claimed) :
    ¬ Kept m.home (cleanLocally strips m cwd).files a := by
  rintro ⟨hkey, -⟩
  have hpath : (placeIn (labelDir m.home a.label)).keyPath =
      AGENT_DIR m.home ++ "/" ++ (a.label ++ "/agent.key") := by
    unfold placeIn labelDir
    dsimp only
    rw [String.append_assoc]
  rw [hpath, cleanLocally_none] at hkey
  cases hkey

theorem dashed_chars (text : List Char) : ∀ c ∈ dashed text, labelChar c = true ∨ c = '-' := by
  induction text with
  | nil => simp [dashed]
  | cons a text ih =>
    intro c hc
    unfold dashed at hc
    split_ifs at hc with ha
    · obtain rfl | hc := List.mem_cons.1 hc
      · exact Or.inl ha
      · exact ih c hc
    · split at hc
      · rename_i more hmore
        apply ih
        rwa [hmore]
      · obtain rfl | hc := List.mem_cons.1 hc
        · exact Or.inr rfl
        · exact ih c hc

theorem sanitiseLabel_chars (label : String) :
    ∀ c ∈ (sanitiseLabel label).toList, c ≠ '.' ∧ c ≠ '/' := by
  intro c hc
  rw [sanitiseLabel, String.toList_ofList] at hc
  have hdashed := dashed_chars _ c ((List.dropWhile_sublist _).subset
    ((List.rdropWhile_prefix _ _).subset hc))
  refine ⟨?_, ?_⟩ <;> rintro rfl <;> revert hdashed <;> decide

/-- What stands after the last slash. -/
theorem after_last_slash {x y l l' : List Char} (hl : '/' ∉ l) (hl' : '/' ∉ l')
    (h : x ++ '/' :: l = y ++ '/' :: l') : l = l' := by
  have hlast : ∀ {x l : List Char}, '/' ∉ l → (x ++ '/' :: l).rtakeWhile (· ≠ '/') = l := by
    intro x l hl
    have hall : ∀ c ∈ l.reverse, (c ≠ '/') = true := by
      intro c hc
      rw [List.mem_reverse] at hc
      simp only [ne_eq, eq_iff_iff, iff_true]
      rintro rfl
      exact hl hc
    rw [List.rtakeWhile, List.reverse_append, List.reverse_cons, List.append_assoc,
      List.takeWhile_append_of_pos (by simpa using hall)]
    simp
  rw [← hlast hl, h, hlast hl']

/-- The key of a label is not one that a registration in a directory writes. -/
theorem labelKey_ne_localKeyPath (home label dir : String)
    (hlabel : ∀ c ∈ label.toList, c ≠ '.' ∧ c ≠ '/') :
    (placeIn (labelDir home label)).keyPath ≠ localKeyPath dir := by
  intro h
  have hlist := congrArg String.toList h
  have hkey : (placeIn (labelDir home label)).keyPath.toList =
      ((home ++ "/.agentvalet").toList ++ '/' :: label.toList) ++ "/agent.key".toList := by
    simp [placeIn, labelDir, AGENT_DIR]
  have hlocal : (localKeyPath dir).toList =
      (dir.toList ++ '/' :: ".agentvalet".toList) ++ "/agent.key".toList := by
    simp [localKeyPath]
  rw [hkey, hlocal, List.append_left_inj] at hlist
  have hname := after_last_slash (fun hc => (hlabel '/' hc).2 rfl) (by decide) hlist
  have hdot : '.' ∈ label.toList := by
    rw [hname]
    decide
  exact (hlabel '.' hdot).1 rfl

theorem keyPath_ne_of_local {home p : String} (hp : ∀ dir, p ≠ localKeyPath dir) :
    p ≠ AGENT_KEY_PATH home := by
  rw [← localKeyPath_home]
  exact hp home

theorem registerAgentFlow_files (m : Machine) (stored : Fields) (cwd : String)
    (registered : Option Registered) {p : String} (hp : p ≠ localKeyPath cwd) :
    (registerAgentFlow m stored cwd registered).files p = m.files p := by
  cases registered with
  | none => rfl
  | some r => exact m.files.write_of_ne hp r.key

theorem runOnboard_files (m : Machine) (o : Onboarding) {p : String} (hp : p ≠ localKeyPath o.cwd) :
    (runOnboard m o).files p = m.files p := by
  unfold runOnboard
  split
  · rfl
  · rename_i stored hstored
    split_ifs
    · split
      · exact registerAgentFlow_files m stored o.cwd o.registered hp
      · rfl
      · rfl
    · split
      · rfl
      · exact registerAgentFlow_files _ _ o.cwd o.registered hp

theorem registerAgentFlow_home (m : Machine) (stored : Fields) (cwd : String)
    (registered : Option Registered) :
      (registerAgentFlow m stored cwd registered).home = m.home := by
  cases registered <;> rfl

theorem runOnboard_home (m : Machine) (o : Onboarding) : (runOnboard m o).home = m.home := by
  unfold runOnboard
  split
  · rfl
  · split_ifs
    · split
      · exact registerAgentFlow_home m _ o.cwd o.registered
      · rfl
      · rfl
    · split
      · rfl
      · exact registerAgentFlow_home _ _ o.cwd o.registered

theorem step_home (w : World) (c : Command) : (w.step c).machine.home = w.machine.home := by
  cases c with
  | onboard o => exact runOnboard_home w.machine o
  | inject i proxyUrl =>
    unfold World.step inject
    dsimp only
    split_ifs <;> rfl
  | install i proxyUrl => rfl
  | saveOutput i apiUrl => rfl
  | pythonRegister i apiUrl => rfl

/-- The commands write keys, and nothing else, in the directories that they know. -/
theorem step_files (w : World) (c : Command) {p : String} (hp : ∀ dir, p ≠ localKeyPath dir) :
    (w.step c).machine.files p = w.machine.files p := by
  have hwrite : ∀ key, w.machine.files.write (AGENT_KEY_PATH w.machine.home) key p =
      w.machine.files p := fun key => w.machine.files.write_of_ne (keyPath_ne_of_local hp) key
  cases c with
  | onboard o => exact runOnboard_files w.machine o (hp o.cwd)
  | inject i proxyUrl =>
    unfold World.step inject
    dsimp only
    split_ifs
    · rfl
    · exact hwrite i.key
  | install i proxyUrl => exact hwrite i.key
  | saveOutput i apiUrl => exact hwrite i.key
  | pythonRegister i apiUrl => exact hwrite i.key

/-- Every agent that was claimed under a label is there, and the label is one. -/
def Household.Inv (h : Household) : Prop :=
  ∀ a ∈ h.claimed, (∀ c ∈ a.label.toList, c ≠ '.' ∧ c ≠ '/') ∧ Kept h.machine.home h.machine.files a

theorem claimBind_spec {m : Machine} {w : BindHost} {opts : ClaimOptions} {bound : Bind}
    (h : claimBind m w opts = some bound) :
    m.files (placeIn (resolveAgentDir m opts.label?)).keyPath = none ∧
      bound = bindAt w m.files (bindRequest opts.apiUrl opts.bindSecret w.publicKey)
        (placeIn (resolveAgentDir m opts.label?)) opts.identityJson := by
  unfold claimBind at h
  dsimp only at h
  split_ifs at h with hsecret hkey
  refine ⟨?_, (Option.some.inj h).symm⟩
  simpa using hkey

theorem claimedBy_spec {m : Machine} {w : BindHost} {opts : ClaimOptions} {a : Claimed}
    (h : claimedBy m w opts = some a) :
    (∀ c ∈ a.label.toList, c ≠ '.' ∧ c ≠ '/') ∧
      Kept m.home (claimCommand m w opts).machine.files a := by
  simp only [claimedBy, bind, Option.bind_eq_some_iff, pure, Option.some.injEq] at h
  obtain ⟨bound, hbind, identity, hidentity, label, hlabel, rfl⟩ := h
  obtain ⟨hlabel, hnonempty⟩ := Option.filter_eq_some_iff.1 hlabel
  obtain ⟨-, rfl⟩ := claimBind_spec hbind
  have hdir : resolveAgentDir m opts.label? = labelDir m.home label := by
    rw [resolveAgentDir, hlabel, Option.filter_some, if_pos hnonempty, labelDir]
  have hwritten := bindAt_written (identityPath_ne_keyPath _ _) hidentity
  rw [claimCommand, hbind]
  rw [hdir] at hwritten ⊢
  refine ⟨?_, hwritten⟩
  unfold ClaimOptions.label? at hlabel
  dsimp only at hlabel
  split_ifs at hlabel
  rw [← Option.some.inj hlabel]
  exact sanitiseLabel_chars _

theorem claimCommand_home (m : Machine) (w : BindHost) (opts : ClaimOptions) :
    (claimCommand m w opts).machine.home = m.home := by
  unfold claimCommand
  cases claimBind m w opts <;> rfl

/-- A claim leaves the agents alone that are there. -/
theorem claimCommand_kept {m : Machine} (w : BindHost) (opts : ClaimOptions) {a : Claimed}
    (h : Kept m.home m.files a) : Kept m.home (claimCommand m w opts).machine.files a := by
  unfold claimCommand
  cases hbind : claimBind m w opts with
  | none => exact h
  | some bound =>
    obtain ⟨hfree, rfl⟩ := claimBind_spec hbind
    have hother : labelDir m.home a.label ≠ resolveAgentDir m opts.label? := by
      intro hsame
      rw [← hsame, h.1] at hfree
      cases hfree
    have hkey : (placeIn (labelDir m.home a.label)).keyPath ≠
        (placeIn (resolveAgentDir m opts.label?)).keyPath := by
      intro hsame
      have hlist := congrArg String.toList hsame
      simp only [placeIn, String.toList_append, List.append_left_inj] at hlist
      exact hother (String.toList_injective hlist)
    have hidentity : (placeIn (labelDir m.home a.label)).identityPath ≠
        (placeIn (resolveAgentDir m opts.label?)).identityPath := by
      intro hsame
      have hlist := congrArg String.toList hsame
      simp only [placeIn, String.toList_append, List.append_left_inj] at hlist
      exact hother (String.toList_injective hlist)
    refine ⟨?_, ?_⟩
    · rw [← h.1]
      exact bindAt_files_of_ne w m.files _ _ _ hkey (identityPath_ne_keyPath _ _).symm
    · rw [← h.2]
      exact bindAt_files_of_ne w m.files _ _ _ (identityPath_ne_keyPath _ _) hidentity

theorem identityPath_ne_localKeyPath (dir dir' : String) :
    (placeIn dir).identityPath ≠ localKeyPath dir' := by
  intro h
  have hlast := congrArg (fun s => s.toList.getLast?) h
  simp [placeIn, localKeyPath] at hlast

theorem Household.step_inv (h : Household) (act : Act) (hinv : h.Inv) : (h.step act).Inv := by
  intro a ha
  cases act with
  | run c =>
    obtain ⟨hlabel, hkey, hidentity⟩ := hinv a ha
    refine ⟨hlabel, ?_⟩
    have hfiles {p : String} (hp : ∀ dir, p ≠ localKeyPath dir) :
        (h.step (.run c)).machine.files p = h.machine.files p := step_files h.world c hp
    have hhome : (h.step (.run c)).machine.home = h.machine.home := step_home h.world c
    rw [hhome]
    refine ⟨?_, ?_⟩
    · rw [hfiles fun dir => labelKey_ne_localKeyPath h.machine.home a.label dir hlabel, hkey]
    · rw [hfiles fun dir => identityPath_ne_localKeyPath _ dir, hidentity]
  | claim w opts =>
    have hhome : (h.step (.claim w opts)).machine.home = h.machine.home :=
      claimCommand_home h.machine w opts
    rw [hhome]
    obtain hnew | hold := List.mem_append.1 ha
    · exact claimedBy_spec (Option.mem_toList.1 hnew)
    · exact ⟨(hinv a hold).1, claimCommand_kept w opts (hinv a hold).2⟩

theorem Household.run_inv (home : String) (files : Files) (acts : List Act) :
    (Household.run home files acts).Inv := by
  have halong : ∀ (h : Household) (acts : List Act), h.Inv → (acts.foldl Household.step h).Inv := by
    intro h acts
    induction acts generalizing h with
    | nil => exact fun hinv => hinv
    | cons act acts ih => exact fun hinv => ih (h.step act) (h.step_inv act hinv)
  apply halong
  intro a ha
  cases ha

/-- Every agent that was claimed under a label is still there. -/
def OthersKept (h : Household) (after : Machine) : Prop :=
  ∀ a ∈ h.claimed, Kept h.machine.home after.files a

theorem othersKept_iff {h : Household} (hinv : h.Inv) (cleans : Bool) (strips : Strips)
    (cwd : String) :
    OthersKept h (if cleans then cleanLocally strips h.machine cwd else h.machine) ↔
      (cleans = true → h.claimed = []) := by
  cases cleans with
  | false => exact iff_of_true (fun a ha => (hinv a ha).2) (by simp)
  | true =>
    simp only [if_true, forall_const]
    constructor
    · intro hkept
      apply List.eq_nil_iff_forall_not_mem.2
      intro a ha
      exact not_kept_of_clean strips h.machine cwd a (hkept a ha)
    · intro hnone a ha
      rw [hnone] at ha
      cases ha

/-- Whatever the history, uninstalling or revoking the agent of the machine leaves the agents that
were claimed under labels exactly if nothing is cleaned or there are none. -/
theorem uninstall_othersKept_iff (home : String) (files : Files) (acts : List Act) (strips : Strips)
    (shell : Shell) (w : UninstallHost) (localOnly : Bool) (r : Revocation) :
    (OthersKept (Household.run home files acts)
        (uninstallCommand w strips (Household.run home files acts).machine shell localOnly) ↔
      (uninstallCleans w (Household.run home files acts).machine shell localOnly = true →
        (Household.run home files acts).claimed = [])) ∧
    (OthersKept (Household.run home files acts)
        (revokeCommand strips (Household.run home files acts).machine shell r) ↔
      (revokeCleans (Household.run home files acts).machine shell r = true →
        (Household.run home files acts).claimed = [])) :=
  ⟨othersKept_iff (Household.run_inv home files acts) _ strips shell.cwd,
    othersKept_iff (Household.run_inv home files acts) _ strips shell.cwd⟩

def grantingBind : BindHost where
  parse _ := some (.obj [("agent_id", .str "agt_2"), ("owner_id", .str "own_2"),
    ("proxy_url", .str "https://api.agentvalet.ai")])
  stringifyIndented _ := "identity"
  publicKey := "public"
  privateKey := "pem of agt_2"
  send _ := .ok ⟨200, .ok ""⟩
  boundAt := ""
  writes _ := true

def workAndPersonal : Household :=
  Household.run "/root" (fun _ => none)
    [.run (.install ⟨"agt_1", "own_1", "pem of agt_1"⟩ "https://api.agentvalet.ai"),
      .claim grantingBind ⟨"bsec_1", some "Work", "https://api.agentvalet.ai"⟩]

def noStrips : Strips := ⟨fun _ => none, fun _ => none, fun _ => none, fun _ => none⟩

def offline : UninstallHost := ⟨fun _ _ => none, fun _ => .error "", fun _ => none, .timeout⟩

/-- Uninstalling the personal agent destroys the key of the one for work. -/
theorem personal_uninstall_destroys_work :
    workAndPersonal.claimed = [⟨"work", "pem of agt_2", "identity"⟩] ∧
      ¬ OthersKept workAndPersonal
        (uninstallCommand offline noStrips workAndPersonal.machine ⟨"/root", fun _ => none⟩
          true) := by
  have hclaimed : workAndPersonal.claimed = [⟨"work", "pem of agt_2", "identity"⟩] := by rfl
  refine ⟨hclaimed, fun hkept => ?_⟩
  have hnone := (othersKept_iff (Household.run_inv _ _ _) _ noStrips "/root").1 hkept
    (by rfl)
  have hclaimed' := hclaimed.symm.trans hnone
  cases hclaimed'

end AgentValet.Identity
