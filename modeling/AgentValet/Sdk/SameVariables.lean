import AgentValet.Sdk.Environment

namespace AgentValet.Sdk
open Base Lang Identity Mcp
variable {m : Workstation} {name suffix s t : String}

def deciding (m : Workstation) (suffix : String) : Option String :=
  if (TypeScript.readEnv m ("AGENTVALET_" ++ suffix)).isSome then m.env ("AGENTVALET_" ++ suffix)
  else m.env suffix

def Alike (v : Option String) : Prop := ∀ s ∈ v, AlikeEnds s.toList

theorem trimmed_eq_stripped_iff : trimmed s = Python.stripped s ↔ AlikeEnds s.toList := by
  rw [trimmed, Python.stripped, ← trim_eq_strip_iff]
  exact ⟨fun h => by simpa using congrArg String.toList h, congrArg String.ofList⟩

theorem stripped_trimmed (h : m.env name = some s) :
    Python.stripped (trimmed s) = Python.stripped s := by
  have hdrops : ∀ c ∈ s.toList, JavaScript.isSpace c = true → Lang.Python.strips c = true := by
    intro c hc hspace
    obtain ⟨-, hascii⟩ := m.env_ascii h c hc
    simp only [JavaScript.isSpace, Bool.or_eq_true, Bool.and_eq_true, beq_iff_eq,
      decide_eq_true_eq] at hspace
    simp only [Lang.Python.strips, Lang.Python.isSpace, Bool.or_eq_true, Bool.and_eq_true,
      beq_iff_eq, decide_eq_true_eq]
    omega
  rw [Python.stripped, Python.stripped, trimmed, String.toList_ofList]
  exact congrArg String.ofList (dropEnds_dropEnds hdrops)

theorem stripped_stripped (s : String) :
    Python.stripped (Python.stripped s) = Python.stripped s := by
  rw [Python.stripped, Python.stripped, String.toList_ofList]
  exact congrArg String.ofList (dropEnds_of_bareEnds (bareEnds_dropEnds _ _))

theorem stripped_eq_self_iff : Python.stripped t = t ↔ BareEnds Lang.Python.strips t.toList := by
  rw [← dropEnds_eq_self_iff, Python.stripped, Lang.Python.strip_eq_dropEnds]
  exact ⟨fun h => by simpa using congrArg String.toList h, fun h => by rw [h, String.ofList_toList]⟩

/-- A placeholder begins and ends with characters that both keep. -/
theorem stripped_of_placeholder (h : placeholder t = true) : Python.stripped t = t := by
  rw [placeholder, Bool.and_eq_true, List.isPrefixOf_iff_prefix, decide_eq_true_eq] at h
  obtain ⟨⟨rest, hrest⟩, hlast⟩ := h
  rw [stripped_eq_self_iff]
  constructor
  · intro c hc
    rw [← hrest] at hc
    obtain rfl : '$' = c := Option.some.inj hc
    decide
  · intro c hc
    rw [hlast] at hc
    obtain rfl := Option.some.inj hc
    decide

theorem readEnvBy_eq_none {trim : String → String} (h : m.env name = some s)
    (hnone : readEnvBy trim m name = none) : trim s = "" ∨ placeholder (trim s) = true := by
  rw [readEnvBy, h, Option.map_some, Option.filter_eq_none_iff] at hnone
  have hfails := hnone (trim s) rfl
  by_contra hne
  rw [not_or] at hne
  exact hfails (by simp [hne.1, hne.2])

theorem readEnvBy_eq_some {trim : String → String} (h : readEnvBy trim m name = some t) :
    ∃ s, m.env name = some s ∧ trim s = t := by
  rw [readEnvBy, Option.filter_eq_some_iff] at h
  exact Option.map_eq_some_iff.1 h.1

theorem readEitherBy_of_some {trim : String → String}
    (h : readEnvBy trim m ("AGENTVALET_" ++ suffix) = some t) :
    readEitherBy trim m suffix = some t := by
  rw [readEitherBy, h]
  rfl

theorem readEitherBy_of_none {trim : String → String}
    (h : readEnvBy trim m ("AGENTVALET_" ++ suffix) = none) :
    readEitherBy trim m suffix = readEnvBy trim m suffix := by
  rw [readEitherBy, h]
  rfl

/-- A variable that TypeScript takes for not set has the same ends for both. -/
theorem alike_of_unset (h : TypeScript.readEnv m name = none) : Alike (m.env name) := by
  intro s hs
  rw [← trimmed_eq_stripped_iff, ← stripped_trimmed hs]
  obtain hempty | hplaceholder := readEnvBy_eq_none hs h
  · rw [hempty]
    rfl
  · exact (stripped_of_placeholder hplaceholder).symm

theorem readEnv_of_alike (h : Alike (m.env name)) :
    TypeScript.readEnv m name = Python.readEnv m name := by
  rw [TypeScript.readEnv, Python.readEnv, readEnvBy, readEnvBy]
  cases hv : m.env name with
  | none => rfl
  | some s => rw [Option.map_some, Option.map_some, trimmed_eq_stripped_iff.2 (h s hv)]

theorem stripped_of_readEither (h : Python.readEither m suffix = some t) :
    Python.stripped t = t := by
  have hread : ∃ name, Python.readEnv m name = some t := by
    cases hfirst : Python.readEnv m ("AGENTVALET_" ++ suffix) with
    | none => exact ⟨_, (readEitherBy_of_none hfirst).symm.trans h⟩
    | some first => exact ⟨_, hfirst.trans ((readEitherBy_of_some hfirst).symm.trans h)⟩
  obtain ⟨name, hname⟩ := hread
  obtain ⟨s, -, rfl⟩ := readEnvBy_eq_some hname
  exact stripped_stripped s

/-- Nothing is left for Python to drop. -/
theorem alike_of_stripped (h : TypeScript.readEnv m name = some t)
    (hstripped : Python.stripped t = t) : Alike (m.env name) := by
  intro s hs
  obtain ⟨s', hs', rfl⟩ := readEnvBy_eq_some h
  obtain rfl := Option.some.inj (hs.symm.trans hs')
  rw [← trimmed_eq_stripped_iff, ← stripped_trimmed hs]
  exact hstripped.symm

/-- What TypeScript reads comes from the variable that decides. -/
theorem readEither_eq_readEnv (m : Workstation) (suffix : String) :
    ∃ name, TypeScript.readEither m suffix = TypeScript.readEnv m name ∧
      deciding m suffix = m.env name := by
  cases hfirst : TypeScript.readEnv m ("AGENTVALET_" ++ suffix) with
  | some t =>
    refine ⟨_, (readEitherBy_of_some hfirst).trans hfirst.symm, ?_⟩
    rw [deciding, hfirst]
    rfl
  | none =>
    refine ⟨_, readEitherBy_of_none hfirst, ?_⟩
    rw [deciding, hfirst]
    rfl

theorem alike_of_readEither_none (h : TypeScript.readEither m suffix = none) :
    Alike (deciding m suffix) := by
  obtain ⟨name, hread, henv⟩ := readEither_eq_readEnv m suffix
  rw [henv]
  exact alike_of_unset (hread.symm.trans h)

theorem alike_of_readEither_stripped (h : TypeScript.readEither m suffix = some t)
    (hstripped : Python.stripped t = t) : Alike (deciding m suffix) := by
  obtain ⟨name, hread, henv⟩ := readEither_eq_readEnv m suffix
  rw [henv]
  exact alike_of_stripped (hread.symm.trans h) hstripped

theorem readEither_of_alike (h : Alike (deciding m suffix)) :
    TypeScript.readEither m suffix = Python.readEither m suffix := by
  cases hfirst : TypeScript.readEnv m ("AGENTVALET_" ++ suffix) with
  | some t =>
    rw [deciding, hfirst] at h
    have hread : TypeScript.readEither m suffix = some t := readEitherBy_of_some hfirst
    rw [readEnv_of_alike h] at hfirst
    exact hread.trans (readEitherBy_of_some hfirst).symm
  | none =>
    rw [deciding, hfirst] at h
    have hread : TypeScript.readEither m suffix = TypeScript.readEnv m suffix :=
      readEitherBy_of_none hfirst
    rw [readEnv_of_alike (alike_of_unset hfirst)] at hfirst
    exact hread.trans ((readEnv_of_alike h).trans (readEitherBy_of_none hfirst).symm)

variable (m) in
/-- Both read the same just if nothing is left at the ends of the variable that decides which
Python drops. -/
theorem readEither_eq_iff (suffix : String) :
    TypeScript.readEither m suffix = Python.readEither m suffix ↔ Alike (deciding m suffix) := by
  refine ⟨fun h => ?_, readEither_of_alike⟩
  cases hread : TypeScript.readEither m suffix with
  | none => exact alike_of_readEither_none hread
  | some t =>
    exact alike_of_readEither_stripped hread (stripped_of_readEither (h.symm.trans hread))

theorem dropSlash_eq_stripSlashes_iff (url : String) :
    dropSlash url = stripSlashes url ↔ ¬ ['/', '/'] <:+ url.toList := by
  rw [dropSlash, stripSlashes]
  split_ifs with hslash
  · obtain ⟨u, hu⟩ := List.getLast?_eq_some_iff.1 hslash
    rw [hu, List.dropLast_concat, List.rdropWhile_concat_pos _ _ _ (by simp), String.ofList_inj,
      eq_comm, List.rdropWhile_eq_self_iff]
    constructor
    · rintro hlast ⟨v, hv⟩
      have hu' : v ++ ['/'] = u := (List.append_left_inj ['/']).1 (by simpa using hv)
      subst hu'
      simpa using hlast (by simp)
    · rintro hsuffix hne hlast
      obtain ⟨v, rfl⟩ := List.getLast?_eq_some_iff.1
        ((List.getLast?_eq_some_getLast hne).trans (congrArg some (of_decide_eq_true hlast)))
      exact hsuffix ⟨v, by simp⟩
  · have hkept : url.toList.rdropWhile (· = '/') = url.toList := by
      rw [List.rdropWhile_eq_self_iff]
      intro hne hlast
      exact hslash
        ((List.getLast?_eq_some_getLast hne).trans (congrArg some (of_decide_eq_true hlast)))
    rw [hkept, String.ofList_toList]
    refine iff_of_true rfl ?_
    rintro ⟨v, hv⟩
    apply hslash
    rw [← hv]
    simp

section
variable {t w : List Char}

/-- What only Python drops stands at the end if it does not stand at the beginning. -/
theorem concat_of_not_bareEnds (h : ¬ BareEnds Lang.Python.strips t)
    (hhead : ∀ c ∈ t.head?, Lang.Python.strips c = false) :
    ∃ u d, t = u ++ [d] ∧ d ≠ '/' := by
  have hlast : ∃ d ∈ t.getLast?, Lang.Python.strips d = true := by
    by_contra hno
    push Not at hno
    exact h ⟨hhead, fun d hd => by simpa using hno d hd⟩
  obtain ⟨d, hd, hstrips⟩ := hlast
  obtain ⟨u, rfl⟩ := List.getLast?_eq_some_iff.1 hd
  refine ⟨u, d, rfl, ?_⟩
  rintro rfl
  cases hstrips

theorem dropSlash_concat (u : List Char) {d : Char} (hd : d ≠ '/') :
    (dropSlash (String.ofList (u ++ [d]))).toList = u ++ [d] := by
  simp [dropSlash, hd]

theorem head?_dropSlash (rest : List Char) {c : Char} (hc : c ≠ '/') :
    (dropSlash (String.ofList (c :: rest))).toList.head? = some c := by
  rw [dropSlash]
  split_ifs with hslash
  · cases rest with
    | nil => exact absurd (by simpa using hslash) hc
    | cons d rest => simp
  · simp

theorem rdropWhile_append_slashes (u : List Char) {d : Char} (hd : d ≠ '/') (k : ℕ) :
    (u ++ [d] ++ List.replicate k '/').rdropWhile (· = '/') = u ++ [d] := by
  induction k with
  | zero => rw [List.replicate_zero, List.append_nil, List.rdropWhile_concat_neg _ _ _ (by simpa)]
  | succ k ih =>
    rw [List.replicate_succ', ← List.append_assoc, List.rdropWhile_concat_pos _ _ _ (by simp), ih]

theorem exists_slashes (w : List Char) :
    ∃ n, w = w.rdropWhile (· = '/') ++ List.replicate n '/' := by
  have hslashes : w.rtakeWhile (· = '/') =
      List.replicate (w.rtakeWhile (· = '/')).length '/' := by
    apply List.eq_replicate_of_mem
    intro c hc
    simpa using List.mem_rtakeWhile_imp hc
  refine ⟨(w.rtakeWhile (· = '/')).length, ?_⟩
  rw [← hslashes, List.rdropWhile_append_rtakeWhile]

/-- The address begins as the other one does. -/
theorem head_kept (hw : BareEnds Lang.Python.strips w)
    (h : (dropSlash (String.ofList t)).toList = w.rdropWhile (· = '/')) :
    ∀ c ∈ t.head?, Lang.Python.strips c = false := by
  intro c hc
  obtain ⟨rest, rfl⟩ := List.head?_eq_some_iff.1 hc
  by_cases hslash : c = '/'
  · subst hslash
    decide
  · have hkept := head?_dropSlash rest hslash
    rw [h] at hkept
    obtain ⟨back, hback⟩ := List.rdropWhile_prefix (fun c => decide (c = '/')) w
    apply hw.1
    rw [← hback, List.head?_append, hkept]
    rfl

/-- An address with a separator at an end is what Python makes of another one. -/
theorem slashes_of_uneven (ht : ¬ BareEnds Lang.Python.strips t)
    (hw : BareEnds Lang.Python.strips w) :
    (dropSlash (String.ofList t)).toList = w.rdropWhile (· = '/') ↔
      ∃ k, w = t ++ List.replicate (k + 1) '/' := by
  constructor
  · intro h
    obtain ⟨u, d, rfl, hd⟩ := concat_of_not_bareEnds ht (head_kept hw h)
    obtain ⟨n, hsplit⟩ := exists_slashes w
    rw [← h, dropSlash_concat u hd] at hsplit
    cases n with
    | zero =>
      rw [List.replicate_zero, List.append_nil] at hsplit
      exact absurd (hsplit ▸ hw) ht
    | succ k => exact ⟨k, hsplit⟩
  · rintro ⟨k, rfl⟩
    have hhead : ∀ c ∈ t.head?, Lang.Python.strips c = false := by
      intro c hc
      apply hw.1
      rw [List.head?_append, hc]
      rfl
    obtain ⟨u, d, rfl, hd⟩ := concat_of_not_bareEnds ht hhead
    rw [dropSlash_concat u hd, rdropWhile_append_slashes u hd]

end

/-- Behind the address that TypeScript reads under the prefixed name Python sees a separator, and
under the bare name it reads that address with slashes behind it. -/
def SlashesOnly (m : Workstation) : Prop :=
  ∃ url k, TypeScript.readEither m "PROXY_URL" = some url ∧
    ¬ Alike (deciding m "PROXY_URL") ∧
    Python.readEither m "PROXY_URL" = some (url ++ String.ofList (List.replicate (k + 1) '/'))

def SameUrl (m : Workstation) : Prop :=
  Alike (deciding m "PROXY_URL") ∧
      ¬ ['/', '/'] <:+ ((TypeScript.readEither m "PROXY_URL").getD DEFAULT_PROXY_URL).toList ∨
    SlashesOnly m

theorem bareEnds_python_url (m : Workstation) : BareEnds Lang.Python.strips
    ((Python.readEither m "PROXY_URL").getD DEFAULT_PROXY_URL).toList := by
  cases hread : Python.readEither m "PROXY_URL" with
  | none => exact stripped_eq_self_iff.1 rfl
  | some url => exact stripped_eq_self_iff.1 (stripped_of_readEither hread)

theorem proxyUrlFromEnv_of_not_alike (h : ¬ Alike (deciding m "PROXY_URL")) :
    TypeScript.proxyUrlFromEnv m = Python.proxyUrlFromEnv m ↔ SlashesOnly m := by
  obtain ⟨url, hread⟩ : ∃ url, TypeScript.readEither m "PROXY_URL" = some url := by
    cases hread : TypeScript.readEither m "PROXY_URL" with
    | none => exact absurd (alike_of_readEither_none hread) h
    | some url => exact ⟨url, rfl⟩
  have huneven : ¬ BareEnds Lang.Python.strips url.toList := by
    intro hbare
    exact h (alike_of_readEither_stripped hread (stripped_eq_self_iff.2 hbare))
  have hiff := slashes_of_uneven huneven (bareEnds_python_url m)
  rw [String.ofList_toList] at hiff
  rw [TypeScript.proxyUrlFromEnv, Python.proxyUrlFromEnv, hread, Option.getD_some, stripSlashes,
    ← String.toList_inj, String.toList_ofList, hiff]
  constructor
  · rintro ⟨k, hk⟩
    refine ⟨url, k, hread, h, ?_⟩
    cases hpython : Python.readEither m "PROXY_URL" with
    | none =>
      rw [hpython, Option.getD_none, List.replicate_succ', ← List.append_assoc] at hk
      have hlast := congrArg List.getLast? hk
      rw [List.getLast?_concat] at hlast
      exact absurd hlast (by decide)
    | some w =>
      rw [hpython, Option.getD_some] at hk
      exact congrArg some (String.toList_inj.1 (hk.trans (by simp)))
  · rintro ⟨url', k, hread', -, hpython⟩
    obtain rfl := Option.some.inj (hread.symm.trans hread')
    exact ⟨k, by rw [hpython, Option.getD_some]; simp⟩

theorem proxyUrlFromEnv_eq_iff :
    TypeScript.proxyUrlFromEnv m = Python.proxyUrlFromEnv m ↔ SameUrl m := by
  by_cases h : Alike (deciding m "PROXY_URL")
  · have hno : ¬ SlashesOnly m := by
      rintro ⟨-, -, -, hnot, -⟩
      exact hnot h
    rw [SameUrl, TypeScript.proxyUrlFromEnv, Python.proxyUrlFromEnv, ← readEither_of_alike h,
      dropSlash_eq_stripSlashes_iff]
    simp only [h, hno, true_and, or_false]
  · rw [SameUrl, proxyUrlFromEnv_of_not_alike h]
    simp only [h, false_and, false_or]

end AgentValet.Sdk
