import AgentValet.Base.LineStore
import AgentValet.Base.PrefixCode
import AgentValet.Lang.Base64

namespace AgentValet.Cli.EnvLocal
open Base Lang Base64

abbrev Text := List Char

/-- The key is given by its bytes in UTF-8. -/
structure KeyWrite where
  agentId : Text
  privateKeyPem : Bytes

def namePrefix : Text := "AGENTVALET_PRIVATE_KEY_".toList

def commentStart : Text := "# AgentValet private key for ".toList

def commentEnd : Text := " (base64-encoded PEM)".toList

section
variable (toUpperCase : Text → Text)

def ENV_VAR_NAME (agentId : Text) : Text :=
  namePrefix ++ toUpperCase (agentId.map fun c => if c = '-' then '_' else c)

def comment (w : KeyWrite) : Text := commentStart ++ w.agentId ++ commentEnd

def assignment (w : KeyWrite) : Text :=
  ENV_VAR_NAME toUpperCase w.agentId ++ '=' :: toBase64 w.privateKeyPem

def line (w : KeyWrite) : Text :=
  '\n' :: comment w ++ '\n' :: assignment toUpperCase w ++ ['\n']

def assigns (varName l : Text) : Bool := (varName ++ ['=']).isPrefixOf l

def writeKeyToEnvLocal (existing : Text) (w : KeyWrite) : Text :=
  if ENV_VAR_NAME toUpperCase w.agentId <:+: existing then
    ['\n'].intercalate ((existing.splitOn '\n').filter
      fun l => !assigns (ENV_VAR_NAME toUpperCase w.agentId) l) ++ line toUpperCase w
  else existing ++ line toUpperCase w

/-- An import of a key; a file that is not there or cannot be read counts as empty. -/
structure Import where
  write : KeyWrite
  readable : Bool

def step (file : Text) (i : Import) : Text :=
  writeKeyToEnvLocal toUpperCase (if i.readable then file else []) i.write

def run (file : Text) (imports : List Import) : Text := imports.foldl (step toUpperCase) file

/-- The name of the variable fits on a line, before its equals sign. -/
structure Clean (w : KeyWrite) : Prop where
  agentId : '\n' ∉ w.agentId
  newline : '\n' ∉ ENV_VAR_NAME toUpperCase w.agentId
  equals : '=' ∉ ENV_VAR_NAME toUpperCase w.agentId

def varOf (w : KeyWrite) : Text := ENV_VAR_NAME toUpperCase w.agentId

def own (w : KeyWrite) : List Text := [comment w, assignment toUpperCase w]

end

variable {toUpperCase : Text → Text} {w : KeyWrite}

theorem notMem_comment (h : Clean toUpperCase w) : '\n' ∉ comment w := by
  have hstart : '\n' ∉ commentStart := by decide +kernel
  have hend : '\n' ∉ commentEnd := by decide +kernel
  simp only [comment, List.mem_append, not_or]
  exact ⟨⟨hstart, h.agentId⟩, hend⟩

theorem notMem_toBase64 (bytes : Bytes) : '\n' ∉ toBase64 bytes := by
  intro hmem
  have hletters : ∀ v < 64, letter v ≠ '\n' := by decide
  exact forall_mem_toBase64 (P := fun c => c ≠ '\n') (by decide) hletters bytes '\n' hmem rfl

theorem notMem_assignment (h : Clean toUpperCase w) : '\n' ∉ assignment toUpperCase w := by
  simp only [assignment, List.mem_append, List.mem_cons, not_or]
  exact ⟨h.newline, by decide, notMem_toBase64 _⟩

theorem filledLines_line (h : Clean toUpperCase w) (t : Text) :
    filledLines '\n' (t ++ line toUpperCase w) = filledLines '\n' t ++ own toUpperCase w := by
  have hend : commentEnd ≠ [] := by decide +kernel
  have hcomment : comment w ≠ [] := List.append_ne_nil_of_right_ne_nil _ hend
  have hassignment : assignment toUpperCase w ≠ [] :=
    List.append_ne_nil_of_right_ne_nil _ (List.cons_ne_nil _ _)
  simp only [line, List.cons_append, List.append_assoc, filledLines_append_cons,
    filledLines_of_notMem (notMem_comment h) hcomment,
    filledLines_of_notMem (notMem_assignment h) hassignment, filledLines_nil, own,
    List.append_nil]
  rfl

/-- The search for the name only saves work: where it is not found no line assigns to it. -/
theorem filledLines_write (h : Clean toUpperCase w) (existing : Text) :
    filledLines '\n' (writeKeyToEnvLocal toUpperCase existing w) =
      update assigns (varOf toUpperCase) (own toUpperCase) (filledLines '\n' existing) w := by
  rw [writeKeyToEnvLocal, update]
  split_ifs with hfound
  · rw [filledLines_line h, filledLines_drop]
    rfl
  · have hnone : ∀ l ∈ filledLines '\n' existing, assigns (varOf toUpperCase w) l = false := by
      intro l hl
      rw [Bool.eq_false_iff]
      intro hassigns
      have hprefix : varOf toUpperCase w ++ ['='] <+: l := List.isPrefixOf_iff_prefix.1 hassigns
      have hname : varOf toUpperCase w <:+: l :=
        ((List.prefix_append _ _).trans hprefix).isInfix
      exact hfound (hname.trans (infix_of_mem_splitOn (List.mem_of_mem_filter hl)))
    rw [filledLines_line h, List.filter_eq_self.2 fun l hl => by rw [hnone l hl]; rfl]

/-- A line assigns to one variable at most. -/
theorem eq_of_assigns {a b l : Text} (ha : '=' ∉ a) (hb : '=' ∉ b) (h : assigns a l = true)
    (h' : assigns b l = true) : a = b := by
  obtain ⟨r, hr⟩ := List.isPrefixOf_iff_prefix.1 h
  obtain ⟨r', hr'⟩ := List.isPrefixOf_iff_prefix.1 h'
  have htext : a ++ '=' :: r = b ++ '=' :: r' := by
    simpa only [List.append_assoc, List.singleton_append] using hr.trans hr'.symm
  have hunits : ∀ t : Text, '=' ∉ t → ∀ c ∈ t, c ≠ '=' :=
    fun t ht c hc heq => ht (heq ▸ hc)
  have hhead : ∀ t : Text, ∀ c ∈ ('=' :: t).head?, ¬ c ≠ '=' := by simp
  exact (PrefixCode.append_inj_of_tokens (hunits a ha) (hunits b hb) (hhead r) (hhead r') htext).1

theorem assigns_assignment (w : KeyWrite) :
    assigns (varOf toUpperCase w) (assignment toUpperCase w) = true := by
  rw [assigns, List.isPrefixOf_iff_prefix]
  exact ⟨toBase64 w.privateKeyPem, by simp [assignment, varOf]⟩

theorem assigns_assignment_iff (h : Clean toUpperCase w) {varName : Text} (hvar : '=' ∉ varName) :
    assigns varName (assignment toUpperCase w) = true ↔ varOf toUpperCase w = varName := by
  constructor
  · exact fun hassigns => eq_of_assigns h.equals hvar (assigns_assignment w) hassigns
  · rintro rfl
    exact assigns_assignment w

/-- A comment begins with no name of a variable of keys. -/
theorem not_assigns_comment (v w : KeyWrite) :
    assigns (varOf toUpperCase v) (comment w) = false := by
  have hstart : commentStart.head? = some '#' := by decide +kernel
  have hname : namePrefix.head? = some 'A' := by decide +kernel
  rw [Bool.eq_false_iff]
  intro hassigns
  have hprefix : varOf toUpperCase v ++ ['='] <+: comment w :=
    List.isPrefixOf_iff_prefix.1 hassigns
  obtain ⟨r, hr⟩ := hprefix
  have hhead := congrArg List.head? hr
  simp [comment, varOf, ENV_VAR_NAME, List.head?_append, hstart, hname] at hhead

/-- What was in the file when it was last found unreadable, and the imports since then. -/
def since (file : Text) (imports : List Import) : Text × List KeyWrite :=
  imports.foldl (fun s i => if i.readable then (s.1, s.2 ++ [i.write]) else ([], [i.write]))
    (file, [])

/-- The lines that a run of imports has written: of each variable only the last line is left. -/
def left (toUpperCase : Text → Text) : List KeyWrite → List Text
  | [] => []
  | w :: later =>
    comment w ::
      if later.any fun v => varOf toUpperCase v = varOf toUpperCase w then left toUpperCase later
      else assignment toUpperCase w :: left toUpperCase later

theorem leftOf_eq_left {ws : List KeyWrite} (h : ∀ w ∈ ws, Clean toUpperCase w) :
    leftOf assigns (varOf toUpperCase) (own toUpperCase) ws = left toUpperCase ws := by
  induction ws with
  | nil => rfl
  | cons w later ih =>
    obtain ⟨hw, hlater⟩ := List.forall_mem_cons.1 h
    have hcomment : (later.any fun v => assigns (varOf toUpperCase v) (comment w)) = false := by
      simp [not_assigns_comment]
    have hassignment : (later.any fun v => assigns (varOf toUpperCase v)
        (assignment toUpperCase w)) =
          later.any fun v => varOf toUpperCase v = varOf toUpperCase w := by
      rw [Bool.eq_iff_iff, List.any_eq_true, List.any_eq_true]
      refine exists_congr fun v => and_congr_right fun hv => ?_
      have hequals : '=' ∉ varOf toUpperCase v := (hlater v hv).equals
      rw [assigns_assignment_iff hw hequals, decide_eq_true_iff, eq_comm]
    rw [leftOf, left, ih hlater, own, List.filter_cons_of_pos (by simp [hcomment]),
      List.cons_append]
    congr 1
    cases hany : later.any fun v => varOf toUpperCase v = varOf toUpperCase w with
    | true => rw [List.filter_cons_of_neg (by simp [hassignment, hany])]; rfl
    | false => rw [List.filter_cons_of_pos (by simp [hassignment, hany])]; rfl

theorem since_concat (file : Text) (imports : List Import) (i : Import) :
    since file (imports ++ [i]) =
      if i.readable then ((since file imports).1, (since file imports).2 ++ [i.write])
      else ([], [i.write]) := by
  rw [since, List.foldl_concat]
  rfl

theorem clean_since {imports : List Import} (h : ∀ i ∈ imports, Clean toUpperCase i.write)
    (file : Text) : ∀ w ∈ (since file imports).2, Clean toUpperCase w := by
  induction imports using List.reverseRecOn with
  | nil => exact nofun
  | append_singleton imports i ih =>
    have hbefore := ih fun j hj => h j (List.mem_append_left _ hj)
    have hi : Clean toUpperCase i.write := h i (List.mem_append_right _ List.mem_cons_self)
    rw [since_concat]
    cases i.readable with
    | true => exact List.forall_mem_append.2 ⟨hbefore, List.forall_mem_singleton.2 hi⟩
    | false => exact List.forall_mem_singleton.2 hi

theorem filledLines_run {imports : List Import} (h : ∀ i ∈ imports, Clean toUpperCase i.write)
    (file : Text) :
    filledLines '\n' (run toUpperCase file imports) =
      (since file imports).2.foldl (update assigns (varOf toUpperCase) (own toUpperCase))
        (filledLines '\n' (since file imports).1) := by
  induction imports using List.reverseRecOn with
  | nil => rfl
  | append_singleton imports i ih =>
    have hlines := ih fun j hj => h j (List.mem_append_left _ hj)
    have hi : Clean toUpperCase i.write := h i (List.mem_append_right _ List.mem_cons_self)
    rw [run] at hlines
    rw [run, List.foldl_concat, step, filledLines_write hi, since_concat]
    cases i.readable with
    | true => simp only [if_true, List.foldl_concat, hlines]
    | false => rfl

def keysOf (varName : Text) (ls : List Text) : List Bytes :=
  (ls.filter (assigns varName)).map fun l => fromBase64 (l.drop (varName.length + 1))

theorem keysOf_append (varName : Text) (ls ls' : List Text) :
    keysOf varName (ls ++ ls') = keysOf varName ls ++ keysOf varName ls' := by
  rw [keysOf, List.filter_append, List.map_append]
  rfl

/-- The key that is written is read back. -/
theorem keysOf_own (hw : Clean toUpperCase w) {v : KeyWrite} (hv : Clean toUpperCase v) :
    keysOf (varOf toUpperCase v) (own toUpperCase w) =
      if varOf toUpperCase w = varOf toUpperCase v then [w.privateKeyPem] else [] := by
  have hequals : '=' ∉ varOf toUpperCase v := hv.equals
  rw [keysOf, own, List.filter_cons_of_neg (by simp [not_assigns_comment])]
  split_ifs with hsame
  · rw [List.filter_cons_of_pos ((assigns_assignment_iff hw hequals).2 hsame), ← hsame]
    have hdrop : (assignment toUpperCase w).drop ((varOf toUpperCase w).length + 1) =
        toBase64 w.privateKeyPem := by
      simp [assignment, varOf]
    simp [hdrop, fromBase64_toBase64]
  · rw [List.filter_cons_of_neg fun h => hsame ((assigns_assignment_iff hw hequals).1 h)]
    rfl

theorem keysOf_update (hw : Clean toUpperCase w) {v : KeyWrite} (hv : Clean toUpperCase v)
    (ls : List Text) :
    keysOf (varOf toUpperCase v) (update assigns (varOf toUpperCase) (own toUpperCase) ls w) =
      if varOf toUpperCase w = varOf toUpperCase v then [w.privateKeyPem]
      else keysOf (varOf toUpperCase v) ls := by
  rw [update, keysOf_append, keysOf_own hw hv]
  split_ifs with hsame
  · have hnone : (ls.filter fun l => !assigns (varOf toUpperCase w) l).filter
        (assigns (varOf toUpperCase v)) = [] := by
      rw [hsame, List.filter_filter]
      simp
    rw [keysOf, hnone]
    rfl
  · have hkept : (ls.filter fun l => !assigns (varOf toUpperCase w) l).filter
        (assigns (varOf toUpperCase v)) = ls.filter (assigns (varOf toUpperCase v)) := by
      rw [List.filter_filter]
      refine List.filter_congr fun l _ => ?_
      cases hl : assigns (varOf toUpperCase v) l with
      | false => rfl
      | true =>
        have hother : assigns (varOf toUpperCase w) l = false := by
          rw [Bool.eq_false_iff]
          exact fun h => hsame (eq_of_assigns hw.equals hv.equals h hl)
        simp [hother]
    rw [keysOf, hkept, List.append_nil]
    rfl

/-- The key that was last written for a variable, or what the file held before. -/
def held (toUpperCase : Text → Text) (varName base : Text) (ws : List KeyWrite) : List Bytes :=
  match ws.reverse.find? fun w => varOf toUpperCase w = varName with
  | some w => [w.privateKeyPem]
  | none => keysOf varName (filledLines '\n' base)

theorem keysOf_foldl {ws : List KeyWrite} (h : ∀ w ∈ ws, Clean toUpperCase w) {v : KeyWrite}
    (hv : Clean toUpperCase v) (base : Text) :
    keysOf (varOf toUpperCase v)
        (ws.foldl (update assigns (varOf toUpperCase) (own toUpperCase)) (filledLines '\n' base)) =
      held toUpperCase (varOf toUpperCase v) base ws := by
  induction ws using List.reverseRecOn with
  | nil => rfl
  | append_singleton ws w ih =>
    have hbefore := ih fun w' hw' => h w' (List.mem_append_left _ hw')
    have hw : Clean toUpperCase w := h w (List.mem_append_right _ List.mem_cons_self)
    rw [List.foldl_concat, keysOf_update hw hv, hbefore, held, held, List.reverse_concat,
      List.find?_cons]
    by_cases hsame : varOf toUpperCase w = varOf toUpperCase v <;> simp [hsame]

/-- After any imports the lines of the file are those that were there when it was last found
unreadable, without those that gave a value to a variable written since, and for each import since
its comment, with the assignment of the last for each variable.  So each variable holds the key that
was last written for it, and any other what it held. -/
theorem lines_and_keys_run (toUpperCase : Text → Text) (file : Text) (imports : List Import)
    (h : ∀ i ∈ imports, Clean toUpperCase i.write) :
    let base := (since file imports).1
    let ws := (since file imports).2
    filledLines '\n' (run toUpperCase file imports) =
        (filledLines '\n' base).filter
          (fun l => !ws.any fun w => assigns (varOf toUpperCase w) l) ++ left toUpperCase ws ∧
      ∀ v, Clean toUpperCase v →
        keysOf (varOf toUpperCase v) (filledLines '\n' (run toUpperCase file imports)) =
          held toUpperCase (varOf toUpperCase v) base ws := by
  intro base ws
  have hclean : ∀ w ∈ ws, Clean toUpperCase w := clean_since h file
  refine ⟨?_, fun v hv => ?_⟩
  · rw [filledLines_run h, foldl_update, leftOf_eq_left hclean]
  · rw [filledLines_run h, keysOf_foldl hclean hv]

def sharing : List Import :=
  [⟨⟨"agt-1".toList, [1]⟩, true⟩, ⟨⟨"agt_1".toList, [2]⟩, true⟩]

theorem lines_and_keys_run_sharing :
    (∀ i ∈ sharing, Clean (List.map Char.toUpper) i.write) ∧
      keysOf "AGENTVALET_PRIVATE_KEY_AGT_1".toList
        (filledLines '\n' (run (List.map Char.toUpper) "PORT=80".toList sharing)) = [[2]] := by
  have hfirst : Clean (List.map Char.toUpper) ⟨"agt-1".toList, [1]⟩ :=
    ⟨by decide +kernel, by decide +kernel, by decide +kernel⟩
  have hsecond : Clean (List.map Char.toUpper) ⟨"agt_1".toList, [2]⟩ :=
    ⟨by decide +kernel, by decide +kernel, by decide +kernel⟩
  have hclean : ∀ i ∈ sharing, Clean (List.map Char.toUpper) i.write :=
    List.forall_mem_cons.2 ⟨hfirst, List.forall_mem_singleton.2 hsecond⟩
  have hvar : "AGENTVALET_PRIVATE_KEY_AGT_1".toList =
      varOf (List.map Char.toUpper) ⟨"agt_1".toList, [2]⟩ := by decide +kernel
  have hheld := (lines_and_keys_run (List.map Char.toUpper) "PORT=80".toList sharing hclean).2
  refine ⟨hclean, ?_⟩
  rw [hvar, hheld _ hsecond]
  decide +kernel

end AgentValet.Cli.EnvLocal
