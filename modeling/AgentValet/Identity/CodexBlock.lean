import AgentValet.Identity.Frameworks
import AgentValet.Permissions.Exact

namespace AgentValet.Identity
open Base Lang JavaScript Permissions

/-- What `\r?\n?` in front of the header leaves of the text before it. -/
def dropLineEnd (before : Text) : Text :=
  match before.reverse with
  | '\n' :: '\r' :: front => front.reverse
  | '\n' :: front => front.reverse
  | '\r' :: front => front.reverse
  | _ => before

/-- `\r?\n\[` -/
def beginsHeader (text : Text) : Bool :=
  "\n[".toList.isPrefixOf text || "\r\n[".toList.isPrefixOf text

/-- `\r?\n*$`, without the flag `m` -/
def endsText : Text → Bool
  | '\r' :: rest => rest.all (· = '\n')
  | rest => rest.all (· = '\n')

/-- What `[\s\S]*?(?=\r?\n\[|\r?\n*$)` leaves of the text that it is matched against. -/
def lazyStop : Text → Text
  | [] => []
  | c :: rest => if beginsHeader (c :: rest) || endsText (c :: rest) then c :: rest
    else lazyStop rest

/-- A text without the marker is left alone. -/
def stripCodexTomlAt (content : Text) : Option Text :=
  if !JavaScript.includes content codexHeader then none
  else
    let stripped :=
      match splitFirst codexHeader content with
      | none => content
      | some (before, rest) => dropLineEnd before ++ lazyStop rest
    some (layout.trimEnd (collapseLineEnds stripped) ++ ['\n'])

def beforeHeaders : Text → Text
  | [] => []
  | c :: rest => if beginsHeader (c :: rest) then [] else c :: beforeHeaders rest

section
variable {c : Char} {text line : Text}

theorem beginsHeader_of_notMem (h : '[' ∉ text) : beginsHeader text = false := by
  rw [beginsHeader, Bool.or_eq_false_iff, ← Bool.not_eq_true, ← Bool.not_eq_true,
    List.isPrefixOf_iff_prefix, List.isPrefixOf_iff_prefix]
  exact ⟨fun hpre => h (hpre.subset (by decide)), fun hpre => h (hpre.subset (by decide))⟩

theorem beforeHeaders_of_notMem (h : '[' ∉ text) : beforeHeaders text = text := by
  induction text with
  | nil => rfl
  | cons c rest ih =>
    have hrest : '[' ∉ rest := fun hmem => h (List.mem_cons_of_mem c hmem)
    rw [beforeHeaders, beginsHeader_of_notMem h, ih hrest]
    rfl

theorem mem_of_endsText (h : endsText text = true) : ∀ x ∈ text, x = '\r' ∨ x = '\n' := by
  intro x hx
  unfold endsText at h
  split at h
  · rename_i rest
    rw [List.mem_cons] at hx
    obtain rfl | hx := hx
    · exact Or.inl rfl
    · exact Or.inr (by simpa using List.all_eq_true.1 h x hx)
  · exact Or.inr (by simpa using List.all_eq_true.1 h x hx)

theorem beginsHeader_iff_exists (h : beginsHeader text = true) :
    ∃ e rest, text = e :: rest ∧ layout.sep e = true := by
  rw [beginsHeader, Bool.or_eq_true, List.isPrefixOf_iff_prefix, List.isPrefixOf_iff_prefix] at h
  obtain ⟨rest, rfl⟩ | ⟨rest, rfl⟩ := h
  · exact ⟨'\n', '[' :: rest, rfl, by decide⟩
  · exact ⟨'\r', '\n' :: '[' :: rest, rfl, by decide⟩

/-- Either a header stops the expression, or it goes to the end of the text. -/
theorem lazyStop_spec (text : Text) :
    (text = beforeHeaders text ++ lazyStop text ∧
        ∃ e rest, lazyStop text = e :: rest ∧ layout.sep e = true) ∨
      beforeHeaders text = text ∧ ∀ x ∈ lazyStop text, x = '\r' ∨ x = '\n' := by
  induction text with
  | nil => exact Or.inr ⟨rfl, by simp [lazyStop]⟩
  | cons c rest ih =>
    rw [lazyStop, beforeHeaders]
    cases hheader : beginsHeader (c :: rest) with
    | true =>
      left
      exact ⟨rfl, beginsHeader_iff_exists hheader⟩
    | false =>
      cases hends : endsText (c :: rest) with
      | true =>
        right
        have hmem := mem_of_endsText hends
        have hno : '[' ∉ rest := by
          intro hbracket
          obtain h | h := hmem '[' (List.mem_cons_of_mem c hbracket) <;> exact absurd h (by decide)
        rw [beforeHeaders_of_notMem hno]
        exact ⟨rfl, hmem⟩
      | false =>
        obtain ⟨htext, hstop⟩ | ⟨hbefore, hstop⟩ := ih
        · left
          refine ⟨?_, hstop⟩
          simp only [Bool.false_eq_true, if_false, Bool.or_self, List.cons_append, ← htext]
        · right
          rw [hbefore]
          exact ⟨rfl, hstop⟩

/-- What is cut away after the block is what stands before the first header. -/
theorem lines_lazyStop (text : Text) :
    layout.lines text = layout.lines (beforeHeaders text) ++ layout.lines (lazyStop text) := by
  obtain ⟨htext, hstop⟩ | ⟨hbefore, hstop⟩ := lazyStop_spec text
  · conv_lhs => rw [htext, layout.lines_append_of_rest (Or.inr hstop)]
  · have hblank : layout.blank (lazyStop text) = true := by
      rw [Layout.blank, List.all_eq_true]
      intro x hx
      obtain rfl | rfl := hstop x hx <;> decide
    rw [hbefore, layout.lines_of_blank hblank, List.append_nil]

theorem lazyStop_begins (text : Text) :
    lazyStop text = [] ∨ ∃ e rest, lazyStop text = e :: rest ∧ layout.sep e = true := by
  obtain ⟨-, hstop⟩ | ⟨-, hstop⟩ := lazyStop_spec text
  · exact Or.inr hstop
  · cases htext : lazyStop text with
    | nil => exact Or.inl rfl
    | cons e rest =>
      rw [htext] at hstop
      refine Or.inr ⟨e, rest, rfl, ?_⟩
      obtain rfl | rfl := hstop e List.mem_cons_self <;> decide

theorem lazyStop_plain (hn : c ≠ '\n') (hr : c ≠ '\r') (rest : Text) :
    lazyStop (c :: rest) = lazyStop rest := by
  have hheader : beginsHeader (c :: rest) = false := by
    simp [beginsHeader, List.isPrefixOf, hn.symm, hr.symm]
  have hends : endsText (c :: rest) = false := by
    rw [endsText]
    · simp [hn]
    · rintro rest' h
      exact hr (List.cons.inj h).1
  rw [lazyStop, hheader, hends]
  rfl

theorem lazyStop_line (h : ∀ x ∈ line, x ≠ '\n' ∧ x ≠ '\r') (rest : Text) :
    lazyStop (line ++ rest) = lazyStop rest := by
  induction line with
  | nil => rfl
  | cons x line ih =>
    have hx := h x List.mem_cons_self
    rw [List.cons_append, lazyStop_plain hx.1 hx.2]
    exact ih fun y hy => h y (List.mem_cons_of_mem x hy)

theorem lazyStop_newline (hbracket : c ≠ '[') (hn : c ≠ '\n') (hr : c ≠ '\r') (rest : Text) :
    lazyStop ('\n' :: c :: rest) = lazyStop rest := by
  have hheader : beginsHeader ('\n' :: c :: rest) = false := by
    simp [beginsHeader, List.isPrefixOf, hbracket.symm]
  have hends : endsText ('\n' :: c :: rest) = false := by
    rw [endsText]
    · simp [hn]
    · rintro rest' h
      exact absurd (List.cons.inj h).1 (by decide)
  rw [lazyStop, hheader, hends]
  exact lazyStop_plain hn hr rest

def onLine (line : Text) : Bool := line.all fun x => x ≠ '\n' && x ≠ '\r'

theorem lazyStop_onLine (h : onLine line = true) (rest : Text) :
    lazyStop (line ++ rest) = lazyStop rest := by
  apply lazyStop_line
  simpa [onLine] using h

/-- A line that does not begin with a bracket is gone over. -/
theorem lazyStop_nextLine (hbracket : c ≠ '[') (h : onLine (c :: line) = true) (rest : Text) :
    lazyStop ('\n' :: (c :: line ++ rest)) = lazyStop rest := by
  rw [onLine, List.all_cons, Bool.and_eq_true] at h
  obtain ⟨hc, hline⟩ := h
  simp only [Bool.and_eq_true, decide_eq_true_eq] at hc
  rw [List.cons_append, lazyStop_newline hbracket hc.1 hc.2]
  exact lazyStop_onLine hline rest

end

theorem lines_dropLineEnd (before : Text) :
    layout.lines (dropLineEnd before) = layout.lines before := by
  have hlast : ∀ {e : Char} (front : Text), layout.sep e = true →
      layout.lines (front ++ [e]) = layout.lines front := by
    intro e front he
    rw [layout.lines_append_cons he, layout.lines_nil, List.append_nil]
  have hback : before = before.reverse.reverse := (List.reverse_reverse before).symm
  unfold dropLineEnd
  split
  · rename_i front hbefore
    rw [hback, hbefore]
    simp only [List.reverse_cons]
    rw [hlast _ (by decide), hlast _ (by decide)]
  · rename_i front _ hbefore
    rw [hback, hbefore, List.reverse_cons, hlast _ (by decide)]
  · rename_i front hbefore
    rw [hback, hbefore, List.reverse_cons, hlast _ (by decide)]
  · rfl

def NoLineBreaks (p : McpParams) : Prop := ∀ v ∈ p.env, ∀ c ∈ v.2.toList, c ≠ '\n' ∧ c ≠ '\r'

theorem mem_slashed {path : String} (h : ∀ c ∈ path.toList, c ≠ '\n' ∧ c ≠ '\r') :
    ∀ c ∈ (slashed path).toList, c ≠ '\n' ∧ c ≠ '\r' := by
  intro c hc
  rw [slashed, String.toList_ofList, List.mem_map] at hc
  obtain ⟨d, hd, rfl⟩ := hc
  split_ifs
  · decide
  · exact h d hd

/-- The expression goes over the lines of the block. -/
theorem lazyStop_block {p : McpParams} (hp : NoLineBreaks p) (post : Text) :
    ∃ rest, buildCodexTomlBlock p ++ post = '\n' :: (codexHeader ++ rest) ∧
      lazyStop rest = lazyStop ('\n' :: post) := by
  simp only [NoLineBreaks, McpParams.env, List.forall_mem_cons] at hp
  obtain ⟨hagent, howner, hurl, hkey, -⟩ := hp
  refine ⟨_, by rw [buildCodexTomlBlock]; simp only [List.cons_append, List.append_assoc]; rfl, ?_⟩
  have hcommand : ∀ rest, lazyStop ("\ncommand = \"npx\"".toList ++ rest) = lazyStop rest :=
    @lazyStop_nextLine 'c' "ommand = \"npx\"".toList (by decide) (by decide)
  have hargs : ∀ rest, lazyStop
      ("\nargs = [\"-y\", \"@agentvalet/register\", \"mcp-server\"]".toList ++
      rest) = lazyStop rest :=
    @lazyStop_nextLine 'a' "rgs = [\"-y\", \"@agentvalet/register\", \"mcp-server\"]".toList
      (by decide) (by decide)
  have henv : ∀ rest, lazyStop ("\nenv = \x7b AGENT_ID = \"".toList ++ rest) = lazyStop rest :=
    @lazyStop_nextLine 'e' "nv = \x7b AGENT_ID = \"".toList (by decide) (by decide)
  rw [hcommand, hargs, henv, lazyStop_line hagent,
    @lazyStop_onLine "\", OWNER_ID = \"".toList (by decide), lazyStop_line howner,
    @lazyStop_onLine "\", PROXY_URL = \"".toList (by decide), lazyStop_line hurl,
    @lazyStop_onLine "\", AGENT_PRIVATE_KEY_PATH = \"".toList (by decide),
    lazyStop_line (mem_slashed hkey)]
  exact @lazyStop_onLine "\" \x7d".toList (by decide) ('\n' :: post)

section
variable {p : McpParams} {pre post : Text}

/-- What is left of the text after the block has been removed. -/
theorem stripCodexTomlAt_appended (hpre : JavaScript.includes pre codexHeader = false)
    (hp : NoLineBreaks p) :
    stripCodexTomlAt (pre ++ buildCodexTomlBlock p ++ post) =
      some (layout.trimEnd (collapseLineEnds
        (dropLineEnd (pre ++ ['\n']) ++ lazyStop ('\n' :: post))) ++ ['\n']) := by
  obtain ⟨rest, hblock, hrest⟩ := lazyStop_block hp post
  have hsplit : splitFirst codexHeader (pre ++ buildCodexTomlBlock p ++ post) =
      some (pre ++ ['\n'], rest) := by
    rw [List.append_assoc, hblock, splitFirst_append_cons (by decide) (by decide)
      (occurrences_codexHeader hpre)]
  rw [stripCodexTomlAt, JavaScript.includes, hsplit, ← hrest]
  rfl

theorem lines_stripCodexTomlAt (hpre : JavaScript.includes pre codexHeader = false)
    (hp : NoLineBreaks p) :
    (stripCodexTomlAt (pre ++ buildCodexTomlBlock p ++ post)).map layout.lines =
      some ((layout.lines pre ++ layout.lines (lazyStop ('\n' :: post))).modifyLast
        layout.trimEnd) := by
  have hnewline : layout.lines (pre ++ ['\n']) = layout.lines pre := by
    rw [layout.lines_append_cons (by decide), layout.lines_nil, List.append_nil]
  rw [stripCodexTomlAt_appended hpre hp, Option.map_some, lines_append_newline,
    layout.lines_trimEnd, lines_collapseLineEnds, layout.lines_append_of_rest (lazyStop_begins _),
    lines_dropLineEnd, hnewline]

theorem length_modifyLast (ls : List Text) : (ls.modifyLast layout.trimEnd).length = ls.length := by
  obtain rfl | ⟨front, l, rfl⟩ := List.eq_nil_or_concat' ls
  · rfl
  · rw [List.modifyLast_concat, List.length_append, List.length_append]
    rfl

theorem modifyLast_eq_self_iff {ls : List Text} :
    ls.modifyLast layout.trimEnd = ls ↔ EndsClean ls := by
  constructor
  · intro h
    obtain rfl | ⟨front, l, rfl⟩ := List.eq_nil_or_concat' ls
    · intro l hl
      cases hl
    · rw [List.modifyLast_concat, List.append_cancel_left_eq, List.singleton_inj] at h
      simpa [EndsClean] using h
  · exact EndsClean.modifyLast

/-- The lines around the block are left exactly if no line stands between the block and the next
one that begins with a bracket, and no space at the end of what is left. -/
theorem stripCodexTomlAt_onlyBlock_iff (hpre : JavaScript.includes pre codexHeader = false)
    (hp : NoLineBreaks p) :
    (stripCodexTomlAt (pre ++ buildCodexTomlBlock p ++ post)).map layout.lines =
        some (layout.lines pre ++ layout.lines post) ↔
      layout.lines (beforeHeaders ('\n' :: post)) = [] ∧
        EndsClean (layout.lines pre ++ layout.lines post) := by
  have hpost : layout.lines post = layout.lines (beforeHeaders ('\n' :: post)) ++
      layout.lines (lazyStop ('\n' :: post)) := by
    rw [← lines_lazyStop, layout.lines_cons (by decide)]
  rw [lines_stripCodexTomlAt hpre hp, Option.some.injEq]
  constructor
  · intro h
    have hlength := congrArg List.length h
    rw [length_modifyLast, hpost] at hlength
    simp only [List.length_append] at hlength
    have hnone : layout.lines (beforeHeaders ('\n' :: post)) = [] :=
      List.eq_nil_of_length_eq_zero (by omega)
    rw [hnone, List.nil_append] at hpost
    rw [hpost] at h ⊢
    exact ⟨hnone, modifyLast_eq_self_iff.1 h⟩
  · rintro ⟨hnone, hends⟩
    rw [hnone, List.nil_append] at hpost
    rw [← hpost]
    exact modifyLast_eq_self_iff.2 hends

end

def codexParams : McpParams where
  agentId := "agt_1"
  ownerId := "owner"
  proxyUrl := "https://api.agentvalet.ai"
  keyPath := "/root/.agentvalet/agent.key"

theorem codexParams_noLineBreaks : NoLineBreaks codexParams := by
  simp only [NoLineBreaks, McpParams.env, List.forall_mem_cons]
  refine ⟨?_, ?_, ?_, ?_, by simp⟩ <;> exact List.all_iff_forall_prop.1 (by decide)

def plainTable : Text := "[tools]\nweb = true\n".toList

def commentedTable : Text := "\n# mine\n[tools]\nweb = true\n".toList

theorem plain_table_left :
    (stripCodexTomlAt ("model = 1\n".toList ++ buildCodexTomlBlock codexParams ++ plainTable)).map
      layout.lines = some (layout.lines "model = 1\n".toList ++ layout.lines plainTable) := by
  have hends : EndsClean (layout.lines "model = 1\n".toList ++ layout.lines plainTable) := by
    have hlines : layout.lines "model = 1\n".toList ++ layout.lines plainTable =
        ["model = 1".toList, "[tools]".toList, "web = true".toList] := by
      decide
    rw [hlines]
    rintro l hl
    cases hl
    decide
  exact (stripCodexTomlAt_onlyBlock_iff (by decide) codexParams_noLineBreaks).2
    ⟨by decide, hends⟩

/-- The comment that the user has written over a table goes with the block, blank line or not. -/
theorem comment_removed :
    (stripCodexTomlAt ([] ++ buildCodexTomlBlock codexParams ++ commentedTable)).map layout.lines =
        some ["[tools]".toList, "web = true".toList] ∧
      (stripCodexTomlAt ([] ++ buildCodexTomlBlock codexParams ++ commentedTable)).map
        layout.lines ≠ some (layout.lines [] ++ layout.lines commentedTable) := by
  have hleft : (stripCodexTomlAt ([] ++ buildCodexTomlBlock codexParams ++ commentedTable)).map
      layout.lines = some ["[tools]".toList, "web = true".toList] := by
    have hlines : layout.lines [] ++ layout.lines (lazyStop ('\n' :: commentedTable)) =
        ["[tools]".toList] ++ ["web = true".toList] := by
      decide
    rw [lines_stripCodexTomlAt (by decide) codexParams_noLineBreaks, hlines,
      List.modifyLast_concat]
    decide
  refine ⟨hleft, ?_⟩
  rw [hleft]
  decide

end AgentValet.Identity
