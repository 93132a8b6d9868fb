import AgentValet.Permissions.Blocks

namespace AgentValet.Permissions
open Base Lang.JavaScript

/-- One block, with the content in it, between what stands outside. -/
structure Shows (d : Markers) (before after content file : Text) : Prop where
  text : file = before ++ (d.start ++ '\n' :: (layout.trimEnd content ++ '\n' :: d.stop)) ++ after
  one_start : occurrences d.start file = 1
  one_stop : occurrences d.stop file = 1

/-- Every refresh leaves one block with what was rendered, the outside stays as the first refresh
left it, and stripping the document gives the expected lines. -/
def EmbeddedExactly (d : Markers) (refresh : Option Text → Text → Option Text)
    (strip : Option Text → Option Text) (expected : List Text) (u : Text) (contents : List Text) :
    Prop :=
  ∃ before after, ∀ k content, contents[k]? = some content →
    ∃ file, (contents.take (k + 1)).foldl refresh (some u) = some file ∧
      Shows d before after content file ∧ (strip (some file)).map layout.lines = some expected

def Unmarked (d : Markers) (text : Text) : Prop :=
  occurrences d.start text = 0 ∧ occurrences d.stop text = 0

section
variable {d : Markers} {clean : Text → Text} {front u content content' : Text}

theorem Markers.start_newline (d : Markers) : '\n' ∉ d.start := fun h => by
  have hline := d.start_line '\n' h
  cases hline

theorem Markers.stop_newline (d : Markers) : '\n' ∉ d.stop := fun h => by
  have hline := d.stop_line '\n' h
  cases hline

theorem Unmarked.trimEnd (h : Unmarked d content) : Unmarked d (layout.trimEnd content) := by
  have hsplit : layout.trimEnd content ++ content.rtakeWhile isSpace = content :=
    List.rdropWhile_append_rtakeWhile
  have hstart := occurrences_le_append_left d.start_ne (layout.trimEnd content)
    (content.rtakeWhile isSpace)
  have hstop := occurrences_le_append_left d.stop_ne (layout.trimEnd content)
    (content.rtakeWhile isSpace)
  rw [hsplit] at hstart hstop
  exact ⟨Nat.le_zero.1 (hstart.trans_eq h.1), Nat.le_zero.1 (hstop.trans_eq h.2)⟩

theorem Unmarked.newline (h : Unmarked d content) : Unmarked d (content ++ ['\n']) := by
  refine ⟨?_, ?_⟩
  · rw [occurrences_append_cons d.start_newline d.start_ne, h.1, occurrences, if_neg d.start_ne]
  · rw [occurrences_append_cons d.stop_newline d.stop_ne, h.2, occurrences, if_neg d.stop_ne]

def page (d : Markers) (front content : Text) : Text := front ++ '\n' :: (block d content ++ ['\n'])

theorem shows_page (hfront : Unmarked d front) (hcontent : Unmarked d content) :
    Shows d (front ++ ['\n']) ['\n'] content (page d front content) := by
  have htrim := hcontent.trimEnd
  have hcount : ∀ {pat : Text}, '\n' ∉ pat → pat ≠ [] →
      occurrences pat (page d front content) = occurrences pat front + (occurrences pat d.start +
        (occurrences pat (layout.trimEnd content) + (occurrences pat d.stop + 0))) := by
    intro pat hline hne
    have hassoc : page d front content = front ++ '\n' :: (d.start ++ '\n' ::
        (layout.trimEnd content ++ '\n' :: (d.stop ++ '\n' :: []))) := by
      simp [page, block]
    rw [hassoc, occurrences_append_cons hline hne, occurrences_append_cons hline hne,
      occurrences_append_cons hline hne, occurrences_append_cons hline hne, occurrences, if_neg hne]
  refine ⟨?_, ?_, ?_⟩
  · simp [page, block]
  · rw [hcount d.start_newline d.start_ne, hfront.1, htrim.1, d.start_once, d.start_in_stop]
  · rw [hcount d.stop_newline d.stop_ne, hfront.2, htrim.2, d.stop_once, d.stop_in_start]

/-- The block of a page is what is replaced. -/
theorem replaceBlock_page (hfront : Unmarked d front) (hcontent : Unmarked d content)
    (replacement : Text) :
    replaceBlock d.start d.stop replacement (page d front content) =
      front ++ ['\n'] ++
        substitution (block d content) (front ++ ['\n']) ['\n'] replacement ++ ['\n'] := by
  have hassoc : page d front content = front ++ '\n' :: (d.start ++
      ('\n' :: layout.trimEnd content ++ '\n' :: (d.stop ++ ['\n']))) := by
    simp [page, block]
  have hinner : occurrences d.stop ('\n' :: layout.trimEnd content) = 0 := by
    rw [occurrences_cons_of_not_mem d.stop_newline d.stop_ne]
    exact hcontent.trimEnd.2
  unfold replaceBlock
  rw [hassoc, splitFirst_append_cons d.start_newline d.start_ne hfront.1]
  dsimp only
  rw [splitFirst_append_cons d.stop_newline d.stop_ne hinner]
  simp [block]

theorem plain_block (h : Plain content) (d : Markers) : Plain (block d content) := by
  intro c hc
  have hline : '\n' ∉ ['$', c] := by
    rw [List.mem_cons, List.mem_singleton, not_or]
    refine ⟨by decide, ?_⟩
    rintro rfl
    exact absurd hc (by decide)
  have hsplit : layout.trimEnd content ++ content.rtakeWhile isSpace = content :=
    List.rdropWhile_append_rtakeWhile
  have htrim := occurrences_le_append_left (List.cons_ne_nil '$' [c]) (layout.trimEnd content)
    (content.rtakeWhile isSpace)
  rw [hsplit, h c hc] at htrim
  rw [block, occurrences_append_cons hline (List.cons_ne_nil '$' [c]),
    occurrences_append_cons hline (List.cons_ne_nil '$' [c]),
    occurrences_of_not_mem (List.mem_cons_self) d.no_dollar.1,
    occurrences_of_not_mem (List.mem_cons_self) d.no_dollar.2, Nat.le_zero.1 htrim]

theorem embed_first (hu : Unmarked d u) (content : Text) :
    embed d clean u content = page d (layout.trimEnd (clean u) ++ ['\n']) content := by
  have hno : includes u d.start = false := by
    rw [includes, (splitFirst_eq_none_iff d.start_ne).2 hu.1]
    rfl
  rw [embed, if_neg (by simp [hno])]
  simp [page]

theorem includes_page (hfront : Unmarked d front) (hcontent : Unmarked d content) :
    includes (page d front content) d.start = true := by
  rw [includes, Option.isSome_iff_ne_none, ne_eq, splitFirst_eq_none_iff d.start_ne,
    (shows_page hfront hcontent).one_start]
  exact Nat.one_ne_zero

theorem embed_next (hfront : Unmarked d front) (hcontent : Unmarked d content)
    (hplain : Plain content') :
    embed d clean (page d front content) content' = page d front content' := by
  rw [embed, if_pos (includes_page hfront hcontent), replaceBlock_page hfront hcontent,
    substitution_of_plain (plain_block hplain d)]
  simp [page]

/-- As long as what is rendered later stands for itself, every refresh leaves its page. -/
theorem foldl_refresh {refresh : Option Text → Text → Option Text}
    (hrefresh : ∀ file content, refresh (some file) content = some (embed d clean file content))
    {contents : List Text} (hu : Unmarked d u) (hclean : Unmarked d (clean u))
    (hcontents : ∀ c ∈ contents, Unmarked d c) (hplain : ∀ c ∈ contents.tail, Plain c) (k : ℕ)
    (content : Text) (hk : contents[k]? = some content) :
    (contents.take (k + 1)).foldl refresh (some u) =
      some (page d (layout.trimEnd (clean u) ++ ['\n']) content) := by
  induction k generalizing content with
  | zero =>
    obtain ⟨rest, rfl⟩ : ∃ rest, contents = content :: rest := by
      cases contents with
      | nil => cases hk
      | cons c rest =>
        rw [List.getElem?_cons_zero, Option.some.injEq] at hk
        exact ⟨rest, by rw [hk]⟩
    rw [Nat.zero_add, List.take_succ_cons, List.take_zero, List.foldl_cons, List.foldl_nil,
      hrefresh,
      embed_first hu]
  | succ k ih =>
    have hlt : k < contents.length := by
      have hk' := (List.getElem?_eq_some_iff.1 hk).1
      omega
    have hmem : content ∈ contents.tail := by
      apply List.mem_of_getElem? (i := k)
      rw [List.getElem?_tail]
      exact hk
    have hlast : contents[k]? = some contents[k] := List.getElem?_eq_getElem hlt
    rw [List.take_add_one, hk, List.foldl_append, ih contents[k] hlast]
    simp only [Option.toList_some, List.foldl_cons, List.foldl_nil]
    rw [hrefresh, embed_next hclean.trimEnd.newline (hcontents _ (List.getElem_mem hlt))
      (hplain content hmem)]

end

def EndsClean (ls : List Text) : Prop := ∀ l ∈ ls.getLast?, layout.trimEnd l = l

def StartsClean (ls : List Text) : Prop := ∀ l ∈ ls.head?, layout.trimStart l = l

theorem EndsClean.modifyLast {ls : List Text} (h : EndsClean ls) :
    ls.modifyLast layout.trimEnd = ls := by
  obtain rfl | ⟨front, l, rfl⟩ := List.eq_nil_or_concat' ls
  · rfl
  · rw [List.modifyLast_concat, h l (by simp)]

theorem StartsClean.modifyHead {ls : List Text} (h : StartsClean ls) :
    ls.modifyHead layout.trimStart = ls := by
  cases ls with
  | nil => rfl
  | cons l rest => rw [List.modifyHead_cons, h l (by simp)]

theorem lines_append_newlines (text : Text) (n : ℕ) :
    layout.lines (text ++ List.replicate n '\n') = layout.lines text := by
  cases n with
  | zero => simp
  | succ n =>
    have hblank : layout.blank (List.replicate n '\n') = true := by
      simp [Layout.blank, layout, isSpace]
    rw [List.replicate_succ, layout.lines_append_cons rfl, layout.lines_of_blank hblank,
      List.append_nil]

theorem lines_append_newline (text : Text) : layout.lines (text ++ ['\n']) = layout.lines text :=
  lines_append_newlines text 1

/-- Without its block, the page is what stood before it. -/
theorem replaceBlock_nil {d : Markers} {cleaned content : Text} (hcleaned : Unmarked d cleaned)
    (hcontent : Unmarked d content) :
    replaceBlock d.start d.stop [] (page d (layout.trimEnd cleaned ++ ['\n']) content) =
      layout.trimEnd cleaned ++ List.replicate 3 '\n' := by
  rw [replaceBlock_page hcleaned.trimEnd.newline hcontent, substitution]
  simp

theorem lines_stripPermissionsBlock {u content : Text} (hu : Unmarked permissionsMarkers u)
    (hcontent : Unmarked permissionsMarkers content) (hends : EndsClean (layout.lines u)) :
    (stripPermissionsBlock (some (page permissionsMarkers (layout.trimEnd u ++ ['\n'])
      content))).map
      layout.lines = some (layout.lines u) := by
  have hyes := includes_page hu.trimEnd.newline hcontent
  rw [stripPermissionsBlock, Option.map_some, Option.map_some, if_neg (by simp [hyes]),
    replaceBlock_nil hu hcontent, lines_append_newline, layout.lines_trimEnd,
    lines_collapseLineEnds,
    lines_append_newlines, layout.lines_trimEnd, hends.modifyLast, hends.modifyLast]

theorem lines_removeImport (text : Text) :
    layout.lines (removeLine importLine true text) =
      (layout.lines text).eraseP (isLine importLine) :=
  lines_removeLine (by decide) (List.all_iff_forall_prop.1 (by decide)) (by decide) text

theorem unmarked_removeImport {d : Markers} {text : Text} (h : Unmarked d text) :
    Unmarked d (removeLine importLine true text) :=
  ⟨occurrences_removeLine d.start_ne d.start_line h.1,
    occurrences_removeLine d.stop_ne d.stop_line h.2⟩

theorem isLine_trimEnd (line l : Text) : isLine line (layout.trimEnd l) = isLine line l := by
  unfold isLine
  rw [show layout.trimEnd (layout.trimEnd l) = layout.trimEnd l from
    List.rdropWhile_idempotent isSpace l]

/-- The lines of the user: those that do not import the file of the permissions. -/
def ownLines (u : Text) : List Text :=
  (layout.lines u).filter fun l => !isLine importLine l

theorem filter_eraseP {α : Type*} (p : α → Bool) (l : List α) :
    (l.eraseP p).filter (fun a => !p a) = l.filter fun a => !p a := by
  induction l with
  | nil => rfl
  | cons a l ih =>
    cases ha : p a with
    | true => simp [ha]
    | false => simp [ha, ih]

theorem eraseP_eq_filter {α : Type*} (p : α → Bool) (l : List α) (h : l.countP p ≤ 1) :
    l.eraseP p = l.filter fun a => !p a := by
  induction l with
  | nil => rfl
  | cons a l ih =>
    cases ha : p a with
    | true =>
      rw [List.countP_cons_of_pos ha] at h
      have hnone : ∀ b ∈ l, p b = false := by
        intro b hb
        have hzero : l.countP p = 0 := by omega
        simpa using List.countP_eq_zero.1 hzero b hb
      simp only [List.eraseP_cons_of_pos ha, List.filter_cons, ha]
      simpa using (List.filter_eq_self.2 fun b hb => by simp [hnone b hb]).symm
    | false =>
      rw [List.countP_cons_of_neg (by simp [ha])] at h
      simp [ha, ih h]

theorem countP_eraseP_le {α : Type*} (p : α → Bool) (l : List α) :
    (l.eraseP p).countP p ≤ l.countP p - 1 := by
  induction l with
  | nil => exact Nat.le_refl _
  | cons a l ih =>
    cases ha : p a with
    | true => simp [ha]
    | false => simpa [ha] using ih

theorem countP_modifyLast (ls : List Text) :
    (ls.modifyLast layout.trimEnd).countP (isLine importLine) = ls.countP (isLine importLine) := by
  obtain rfl | ⟨front, l, rfl⟩ := List.eq_nil_or_concat' ls
  · rfl
  · rw [List.modifyLast_concat, List.countP_append, List.countP_append, List.countP_singleton,
      List.countP_singleton, isLine_trimEnd]

theorem filter_modifyLast {ls : List Text}
    (h : EndsClean (ls.filter fun l => !isLine importLine l)) :
    (ls.modifyLast layout.trimEnd).filter (fun l => !isLine importLine l) =
      ls.filter fun l => !isLine importLine l := by
  obtain rfl | ⟨front, l, rfl⟩ := List.eq_nil_or_concat' ls
  · rfl
  · rw [List.filter_append] at h
    rw [List.modifyLast_concat, List.filter_append, List.filter_append]
    cases hl : isLine importLine l with
    | true => simp [hl, isLine_trimEnd]
    | false =>
      have hclean : layout.trimEnd l = l := h l (by simp [hl])
      rw [hclean]

/-- The refresh removes the first import, stripping the second. -/
theorem lines_removeImport_twice {u : Text}
    (hcount : (layout.lines u).countP (isLine importLine) ≤ 2) (hends : EndsClean (ownLines u)) :
    (((layout.lines u).eraseP (isLine importLine)).modifyLast layout.trimEnd).eraseP
      (isLine importLine) = ownLines u := by
  have hle := countP_eraseP_le (isLine importLine) (layout.lines u)
  have hends' : EndsClean (((layout.lines u).eraseP (isLine importLine)).filter
      fun l => !isLine importLine l) := by
    rwa [filter_eraseP]
  rw [eraseP_eq_filter, filter_modifyLast hends', filter_eraseP, ownLines]
  rw [countP_modifyLast]
  omega

theorem lines_stripClaudeMd {u content : Text} (hu : Unmarked claudeMarkers u)
    (hcontent : Unmarked claudeMarkers content)
    (hcount : (layout.lines u).countP (isLine importLine) ≤ 2) (hstarts : StartsClean (ownLines u))
    (hends : EndsClean (ownLines u)) :
    (stripClaudeMd (some (page claudeMarkers
      (layout.trimEnd (removeLine importLine true u) ++ ['\n']) content))).map layout.lines =
        some (ownLines u) := by
  have hcleaned := unmarked_removeImport hu
  have hnewline : ∀ text : Text, layout.lines (if text = [] then [] else text ++ ['\n']) =
      layout.lines text := by
    intro text
    split_ifs with hempty
    · rw [hempty]
    · exact lines_append_newline text
  have htrim : ∀ text : Text, layout.lines (trim text) =
      ((layout.lines text).modifyHead layout.trimStart).modifyLast layout.trimEnd := by
    intro text
    rw [← layout.lines_trimStart, ← layout.lines_trimEnd]
    rfl
  rw [stripClaudeMd, Option.map_some, Option.map_some]
  dsimp only
  rw [replaceBlock_nil hcleaned hcontent, hnewline, htrim, lines_collapseLineEnds,
    lines_removeImport,
    lines_append_newlines, layout.lines_trimEnd, lines_removeImport,
    lines_removeImport_twice hcount hends, hstarts.modifyHead, hends.modifyLast]

/-- Contents that stand for themselves from the second refresh on, and a text whose own lines have
no space at its two ends, are embedded exactly and stripped exactly. -/
theorem blocks_embeddedExactly (u : Text) (contents : List Text)
    (hplain : ∀ c ∈ contents.tail, Plain c) :
    (Unmarked permissionsMarkers u → (∀ c ∈ contents, Unmarked permissionsMarkers c) →
      EndsClean (layout.lines u) →
        EmbeddedExactly permissionsMarkers embedPermissionsBlock stripPermissionsBlock
          (layout.lines u) u contents) ∧
    (Unmarked claudeMarkers u → (∀ c ∈ contents, Unmarked claudeMarkers c) →
      StartsClean (ownLines u) → EndsClean (ownLines u) →
      (layout.lines u).countP (isLine importLine) ≤ 2 →
        EmbeddedExactly claudeMarkers (fun existing c => some (embedInClaudeMd existing c))
          stripClaudeMd (ownLines u) u contents) := by
  constructor
  · intro hu hcontents hends
    refine ⟨layout.trimEnd u ++ ['\n'] ++ ['\n'], ['\n'], fun k content hk => ?_⟩
    have hcontent := hcontents content (List.mem_of_getElem? hk)
    have hfile : (contents.take (k + 1)).foldl embedPermissionsBlock (some u) =
        some (page permissionsMarkers (layout.trimEnd (id u) ++ ['\n']) content) :=
      foldl_refresh (fun file c => rfl) hu hu hcontents hplain k content hk
    exact ⟨_, hfile, shows_page hu.trimEnd.newline hcontent,
      lines_stripPermissionsBlock hu hcontent hends⟩
  · intro hu hcontents hstarts hends hcount
    have hcleaned := unmarked_removeImport hu
    refine ⟨layout.trimEnd (removeLine importLine true u) ++ ['\n'] ++ ['\n'], ['\n'],
      fun k content hk => ?_⟩
    have hcontent := hcontents content (List.mem_of_getElem? hk)
    have hfile : (contents.take (k + 1)).foldl (fun existing c => some (embedInClaudeMd existing c))
        (some u) =
        some (page claudeMarkers (layout.trimEnd (removeLine importLine true u) ++ ['\n'])
          content) :=
      foldl_refresh (fun file c => rfl) hu hcleaned hcontents hplain k content hk
    exact ⟨_, hfile, shows_page hcleaned.trimEnd.newline hcontent,
      lines_stripClaudeMd hu hcontent hcount hstarts hends⟩

/-- A text with a line of its own, and two refreshes. -/
theorem notes_embeddedExactly :
    EmbeddedExactly permissionsMarkers embedPermissionsBlock stripPermissionsBlock
        (layout.lines (lit "# Notes\n")) (lit "# Notes\n") [lit "read", lit "write"] ∧
      EmbeddedExactly claudeMarkers (fun existing c => some (embedInClaudeMd existing c))
        stripClaudeMd (ownLines (lit "# Notes\n")) (lit "# Notes\n") [lit "read", lit "write"] := by
  have hplain : ∀ c ∈ [lit "read", lit "write"].tail, Plain c := by
    intro c hc
    rw [List.mem_singleton.1 hc]
    exact List.all_iff_forall_prop.1 (by decide)
  have hmarks : '!' ∉ lit "# Notes\n" ∧ ∀ c ∈ [lit "read", lit "write"], '!' ∉ c := by decide
  have hunmarked {d : Markers} (hd : '!' ∈ d.start ∧ '!' ∈ d.stop) {c : Text} (hc : '!' ∉ c) :
      Unmarked d c := ⟨occurrences_of_not_mem hd.1 hc, occurrences_of_not_mem hd.2 hc⟩
  have h := blocks_embeddedExactly (lit "# Notes\n") [lit "read", lit "write"] hplain
  refine ⟨h.1 (hunmarked (by decide) hmarks.1)
    (fun c hc => hunmarked (by decide) (hmarks.2 c hc)) ?_,
    h.2 (hunmarked (by decide) hmarks.1) (fun c hc => hunmarked (by decide) (hmarks.2 c hc)) ?_ ?_
      (by decide)⟩
  · unfold EndsClean
    decide
  · unfold StartsClean
    decide
  · unfold EndsClean
    decide

/-- A second refresh with a content that holds the pattern for what was found changes the page. -/
theorem not_embeddedExactly_of_pattern {d : Markers} (clean : Text → Text)
    {refresh : Option Text → Text → Option Text} {strip : Option Text → Option Text}
    {expected : List Text} {u first rest : Text}
    (hrefresh : ∀ file content, refresh (some file) content = some (embed d clean file content))
    (hu : Unmarked d u) (hclean : Unmarked d (clean u)) (hfirst : '$' ∉ first)
    (hcontent : Unmarked d (first ++ '$' :: '&' :: rest)) :
    ¬ EmbeddedExactly d refresh strip expected u
      [first ++ '$' :: '&' :: rest, first ++ '$' :: '&' :: rest] := by
  rintro ⟨before, after, h⟩
  obtain ⟨file, hfile, hshows, -⟩ := h 0 _ rfl
  obtain ⟨file', hfile', hshows', -⟩ := h 1 _ rfl
  have hsame : file' = file := hshows'.text.trans hshows.text.symm
  simp only [Nat.zero_add, List.take_succ_cons, List.take_zero, List.foldl_cons, List.foldl_nil,
    hrefresh, Option.some.injEq] at hfile hfile'
  have hfront : Unmarked d (layout.trimEnd (clean u) ++ ['\n']) := hclean.trimEnd.newline
  have hblock : block d (first ++ '$' :: '&' :: rest) =
      (d.start ++ '\n' :: first) ++ '$' :: '&' :: (layout.trimEnd rest ++ '\n' :: d.stop) := by
    have hassoc : first ++ '$' :: '&' :: rest = (first ++ ['$']) ++ '&' :: rest := by simp
    rw [block, hassoc, layout.trimEnd_append_cons (first ++ ['$']) rest (by decide)]
    simp
  have hdollar : '$' ∉ d.start ++ '\n' :: first := by
    simp only [List.mem_append, List.mem_cons, not_or]
    exact ⟨d.no_dollar.1, by decide, hfirst⟩
  obtain ⟨c, start, hstart⟩ := List.exists_cons_of_ne_nil d.start_ne
  have hc : c ≠ '$' := by
    rintro rfl
    exact d.no_dollar.1 (by simp [hstart])
  have hfound : block d (first ++ '$' :: '&' :: rest) =
      c :: (start ++ '\n' :: (layout.trimEnd (first ++ '$' :: '&' :: rest) ++ '\n' :: d.stop)) := by
    rw [block, hstart]
    rfl
  have hno := substitution_ne hdollar hc (layout.trimEnd (clean u) ++ ['\n'] ++ ['\n']) ['\n']
    (layout.trimEnd rest ++ '\n' :: d.stop)
    (start ++ '\n' :: (layout.trimEnd (first ++ '$' :: '&' :: rest) ++ '\n' :: d.stop))
  rw [hfile, hsame, ← hfile, embed_first hu, embed, if_pos (includes_page hfront hcontent),
    replaceBlock_page hfront hcontent, page] at hfile'
  apply hno
  rw [← hfound, ← hblock]
  simpa using hfile'

def renderedHeading : Text :=
  heading (lit "agt_1") (lit "own_1") (lit "2026-01-01T00:00:00.000Z") ++ lit "### "

def rendered : Text :=
  generatePermissionsFile (lit "agt_1") (lit "own_1") (lit "2026-01-01T00:00:00.000Z")
    [⟨lit "github", lit "$&", [lit "repo:read"], false⟩]

theorem exists_rendered : ∃ rest, rendered = renderedHeading ++ '$' :: '&' :: rest := by
  have hname : lit "$&" = ['$', '&'] := by decide
  simp only [rendered, renderedHeading, generatePermissionsFile, platformSections, platformSection,
    List.isEmpty_cons, Bool.false_eq_true, if_false, List.map_cons, List.map_nil, join,
    List.intersperse_singleton, List.flatten_cons, List.flatten_nil, hname, List.append_assoc,
    List.cons_append, List.nil_append]
  exact ⟨_, rfl⟩

/-- The second refresh puts the whole block where the name of the platform should be. -/
theorem dollar_embeds_block : Unmarked permissionsMarkers rendered ∧
    Unmarked claudeMarkers rendered ∧
    ¬ EmbeddedExactly permissionsMarkers embedPermissionsBlock stripPermissionsBlock [] []
      [rendered, rendered] := by
  have hmark : '!' ∉ rendered := by decide +kernel
  have hrendered : Unmarked permissionsMarkers rendered :=
    ⟨occurrences_of_not_mem (by decide) hmark, occurrences_of_not_mem (by decide) hmark⟩
  have hempty : Unmarked permissionsMarkers [] := by
    unfold Unmarked
    decide
  refine ⟨hrendered, ⟨occurrences_of_not_mem (by decide) hmark,
    occurrences_of_not_mem (by decide) hmark⟩, ?_⟩
  obtain ⟨rest, hrest⟩ := exists_rendered
  rw [hrest] at hrendered ⊢
  exact not_embeddedExactly_of_pattern id (fun file content => rfl) hempty hempty
    (by decide) hrendered

end AgentValet.Permissions
