import AgentValet.Base.Trimming
import AgentValet.Lang.JavaScript
import AgentValet.Lang.JsonText
import AgentValet.Lang.Utf8

namespace AgentValet.Lang.JsString
open Base JavaScript

/-- A surrogate is no white space. -/
def isSpace (u : CodeUnit) : Bool := JavaScript.isSpace (Char.ofNat u.val)

def trim (s : JsString) : JsString := dropEnds isSpace s

def startsWith (s part : JsString) : Bool := part.isPrefixOf s

def includes (s part : JsString) : Bool := part <:+: s

theorem startsWith_iff {s part : JsString} : startsWith s part = true ↔ part <+: s :=
  List.isPrefixOf_iff_prefix

theorem includes_iff {s part : JsString} : includes s part = true ↔ part <:+: s :=
  decide_eq_true_iff

theorem surrogates_lt (c : Char) :
    0xD800 + (c.toNat - 0x10000) / 0x400 < 65536 ∧
      0xDC00 + (c.toNat - 0x10000) % 0x400 < 65536 := by
  have hvalid : c.toNat < 0xD800 ∨ 0xDFFF < c.toNat ∧ c.toNat < 0x110000 := c.valid
  omega

def ofChars (text : List Char) : JsString :=
  text.flatMap fun c =>
    if c.toNat < 0x10000 then [unit c]
    else [⟨0xD800 + (c.toNat - 0x10000) / 0x400, (surrogates_lt c).1⟩,
      ⟨0xDC00 + (c.toNat - 0x10000) % 0x400, (surrogates_lt c).2⟩]

/-- A unit by itself; one half of a pair is no character. -/
def single (u : CodeUnit) : Char :=
  if isLead u || isTrail u then '\uFFFD' else Char.ofNat u.val

def paired (u v : CodeUnit) : Char :=
  Char.ofNat (0x10000 + (u.val - 0xD800) * 0x400 + (v.val - 0xDC00))

def toChars : JsString → List Char
  | [] => []
  | [u] => [single u]
  | u :: v :: rest =>
    if isLead u && isTrail v then paired u v :: toChars rest else single u :: toChars (v :: rest)

/-- `Buffer.from(s, "utf8")` -/
def utf8 (s : JsString) : Bytes := (toChars s).flatMap String.utf8EncodeChar

/-- Every surrogate is half of a pair. -/
def Formed (s : JsString) : Prop := ∃ text, s = ofChars text

/-- `s.replace(/\\n/g, "\n")` -/
def unescapeNewlines : JsString → JsString
  | [] => []
  | [u] => [u]
  | u :: v :: rest =>
    if u = unit '\\' ∧ v = unit 'n' then unit '\n' :: unescapeNewlines rest
    else u :: unescapeNewlines (v :: rest)

/-- Every line break as the two characters that escape it. -/
def escapeNewlines (s : JsString) : JsString :=
  s.flatMap fun u => if u = unit '\n' then [unit '\\', unit 'n'] else [u]

section
variable {s t : JsString} {u : CodeUnit}

theorem unescapeNewlines_cons (h : u ≠ unit '\\') (s : JsString) :
    unescapeNewlines (u :: s) = u :: unescapeNewlines s := by
  cases s with
  | nil => rfl
  | cons v rest => rw [unescapeNewlines, if_neg fun hpair => h hpair.1]

theorem unescapeNewlines_append (h : unit '\\' ∉ s) (t : JsString) :
    unescapeNewlines (s ++ t) = s ++ unescapeNewlines t := by
  induction s with
  | nil => rfl
  | cons u s ih =>
    rw [List.mem_cons, not_or] at h
    rw [List.cons_append, unescapeNewlines_cons (Ne.symm h.1), ih h.2, List.cons_append]

theorem unescapeNewlines_of_notMem (h : unit '\\' ∉ s) : unescapeNewlines s = s := by
  have happend := unescapeNewlines_append h []
  rwa [List.append_nil, unescapeNewlines, List.append_nil] at happend

/-- What ends no escape is left behind the text. -/
theorem unescapeNewlines_append_right (hslash : unit '\\' ∉ t) (hn : t.head? ≠ some (unit 'n'))
    (s : JsString) : unescapeNewlines (s ++ t) = unescapeNewlines s ++ t := by
  induction s using unescapeNewlines.induct with
  | case1 => exact unescapeNewlines_of_notMem hslash
  | case2 u =>
    cases t with
    | nil => rfl
    | cons v rest =>
      have hv : v ≠ unit 'n' := fun hv => hn (congrArg some hv)
      have hu : unescapeNewlines [u] = [u] := rfl
      rw [hu, List.singleton_append, unescapeNewlines, if_neg fun hpair => hv hpair.2,
        unescapeNewlines_of_notMem hslash]
  | case3 u v rest hpair ih =>
    rw [List.cons_append, List.cons_append, unescapeNewlines, unescapeNewlines, if_pos hpair,
      if_pos hpair, ih, List.cons_append]
  | case4 u v rest hpair ih =>
    rw [List.cons_append] at ih
    rw [List.cons_append, List.cons_append, unescapeNewlines, unescapeNewlines, if_neg hpair,
      if_neg hpair, ih, List.cons_append]

/-- Without an escape there is nothing to be read otherwise. -/
theorem unescapeNewlines_of_not_includes (h : includes s (ascii "\\n") = false) :
    unescapeNewlines s = s := by
  have hno : ¬ ascii "\\n" <:+: s := by simpa [includes] using h
  clear h
  induction s using unescapeNewlines.induct with
  | case1 => rfl
  | case2 u => rfl
  | case3 u v rest hpair ih =>
    obtain ⟨rfl, rfl⟩ := hpair
    exact absurd ⟨[], rest, rfl⟩ hno
  | case4 u v rest hpair ih =>
    rw [unescapeNewlines, if_neg hpair, ih fun hinfix => hno (List.infix_cons hinfix)]

theorem escapeNewlines_append (s t : JsString) :
    escapeNewlines (s ++ t) = escapeNewlines s ++ escapeNewlines t :=
  List.flatMap_append

theorem escapeNewlines_of_notMem (h : unit '\n' ∉ s) : escapeNewlines s = s := by
  induction s with
  | nil => rfl
  | cons u s ih =>
    rw [List.mem_cons, not_or] at h
    rw [escapeNewlines, List.flatMap_cons, if_neg (Ne.symm h.1)]
    exact congrArg (u :: ·) (ih h.2)

/-- A text without a backslash is read back. -/
theorem unescapeNewlines_escapeNewlines (h : unit '\\' ∉ s) :
    unescapeNewlines (escapeNewlines s) = s := by
  induction s with
  | nil => rfl
  | cons u s ih =>
    rw [List.mem_cons, not_or] at h
    have htail := ih h.2
    rw [escapeNewlines] at htail ⊢
    rw [List.flatMap_cons]
    split_ifs with hnl
    · rw [List.cons_append, List.singleton_append, unescapeNewlines, if_pos ⟨rfl, rfl⟩, htail, hnl]
    · rw [List.singleton_append, unescapeNewlines_cons (Ne.symm h.1), htail]

/-- Only the line breaks of a text can begin an escape that it does not begin with itself. -/
theorem prefix_of_unescapeNewlines (hnl : unit '\n' ∉ t) (h : t <+: unescapeNewlines s) :
    t <+: s := by
  induction t generalizing s with
  | nil => exact List.nil_prefix
  | cons a t ih =>
    rw [List.mem_cons, not_or] at hnl
    match s with
    | [] => exact h
    | [u] => exact h
    | u :: v :: rest =>
      rw [unescapeNewlines] at h
      split_ifs at h
      · exact absurd (List.cons_prefix_cons.1 h).1.symm hnl.1
      · obtain ⟨rfl, hrest⟩ := List.cons_prefix_cons.1 h
        exact List.cons_prefix_cons.2 ⟨rfl, ih hnl.2 hrest⟩

end

section
variable {s t : JsString}

/-- An escape neither begins nor ends in white space, so a text may be trimmed before. -/
theorem trim_unescapeNewlines_trim (s : JsString) :
    trim (unescapeNewlines (trim s)) = trim (unescapeNewlines s) := by
  obtain ⟨front, back, hs, hfront, hback⟩ := exists_dropEnds isSpace s
  have hnotin : ∀ u, isSpace u = false → ∀ {ws : JsString}, (∀ a ∈ ws, isSpace a = true) →
      u ∉ ws := by
    intro u hu ws hws hmem
    rw [hws u hmem] at hu
    cases hu
  have hhead : back.head? ≠ some (unit 'n') := by
    intro hn
    exact hnotin (unit 'n') (by decide) hback (List.mem_of_mem_head? hn)
  conv_rhs => rw [hs]
  rw [unescapeNewlines_append (hnotin _ (by decide) hfront),
    unescapeNewlines_append_right (hnotin _ (by decide) hback) hhead]
  exact (dropEnds_append hfront hback _).symm

end

section
theorem ofChars_append (s t : List Char) : ofChars (s ++ t) = ofChars s ++ ofChars t :=
  List.flatMap_append

theorem Formed.append {s t : JsString} (hs : Formed s) (ht : Formed t) : Formed (s ++ t) := by
  obtain ⟨text, rfl⟩ := hs
  obtain ⟨text', rfl⟩ := ht
  exact ⟨text ++ text', (ofChars_append text text').symm⟩

theorem isLead_iff {u : CodeUnit} : isLead u = true ↔ 0xD800 ≤ u.val ∧ u.val < 0xDC00 := by
  simp [isLead]

theorem isTrail_iff {u : CodeUnit} : isTrail u = true ↔ 0xDC00 ≤ u.val ∧ u.val < 0xE000 := by
  simp [isTrail]

theorem toNat_ofNat {n : ℕ} (h : n.isValidChar) : (Char.ofNat n).toNat = n := by
  rw [Char.ofNat, dif_pos h]
  rfl

theorem toNat_single {u : CodeUnit} (h : (isLead u || isTrail u) = false) :
    (single u).toNat = u.val := by
  obtain ⟨hlead, htrail⟩ := Bool.or_eq_false_iff.1 h
  rw [Bool.eq_false_iff, Ne, isLead_iff] at hlead
  rw [Bool.eq_false_iff, Ne, isTrail_iff] at htrail
  have hvalid : u.val.isValidChar := by
    have hu : u.val < 65536 := u.isLt
    unfold Nat.isValidChar
    omega
  rw [single, h, if_neg (by decide), toNat_ofNat hvalid]

theorem toNat_paired {u v : CodeUnit} (hu : isLead u = true) (hv : isTrail v = true) :
    (paired u v).toNat = 0x10000 + (u.val - 0xD800) * 0x400 + (v.val - 0xDC00) := by
  rw [isLead_iff] at hu
  rw [isTrail_iff] at hv
  have hvalid : (0x10000 + (u.val - 0xD800) * 0x400 + (v.val - 0xDC00)).isValidChar := by
    unfold Nat.isValidChar
    omega
  rw [paired, toNat_ofNat hvalid]

theorem ofChars_single {u : CodeUnit} (h : (isLead u || isTrail u) = false) :
    ofChars [single u] = [u] := by
  have hsmall : (single u).toNat < 0x10000 := (toNat_single h).symm ▸ u.isLt
  have hunit : unit (single u) = u := by
    rw [unit, toNat_single h]
    exact Fin.ofNat_val_eq_self u
  rw [ofChars, List.flatMap_singleton, if_pos hsmall, hunit]

theorem ofChars_paired {u v : CodeUnit} (hu : isLead u = true) (hv : isTrail v = true) :
    ofChars [paired u v] = [u, v] := by
  have hnat := toNat_paired hu hv
  rw [isLead_iff] at hu
  rw [isTrail_iff] at hv
  rw [ofChars, List.flatMap_singleton, if_neg (by omega)]
  refine congrArg₂ (fun a b : CodeUnit => [a, b]) (Fin.ext ?_) (Fin.ext ?_)
  · simp only [hnat]
    omega
  · simp only [hnat]
    omega

theorem toChars_cons {u : CodeUnit} (h : isLead u = false) (s : JsString) :
    toChars (u :: s) = single u :: toChars s := by
  cases s with
  | nil => rfl
  | cons v rest => rw [toChars, h, Bool.false_and, if_neg (by decide)]

theorem toChars_ofChars (text : List Char) : toChars (ofChars text) = text := by
  induction text with
  | nil => rfl
  | cons c text ih =>
    have hvalid : c.toNat < 0xD800 ∨ 0xDFFF < c.toNat ∧ c.toNat < 0x110000 := c.valid
    have hsame : ∀ d : Char, d.toNat = c.toNat → d = c := fun d h =>
      Char.ext (UInt32.toNat_inj.1 h)
    rw [← List.singleton_append, ofChars_append]
    by_cases hsmall : c.toNat < 0x10000
    · have hunit : (unit c).val = c.toNat := Nat.mod_eq_of_lt hsmall
      have hlead : isLead (unit c) = false := by
        rw [Bool.eq_false_iff, Ne, isLead_iff, hunit]
        omega
      have htrail : isTrail (unit c) = false := by
        rw [Bool.eq_false_iff, Ne, isTrail_iff, hunit]
        omega
      have hsingle : ofChars [c] = [unit c] := by
        rw [ofChars, List.flatMap_singleton, if_pos hsmall]
      rw [hsingle, List.singleton_append, toChars_cons hlead, ih,
        hsame (single (unit c)) (by rw [toNat_single (by rw [hlead, htrail]; rfl), hunit])]
      rfl
    · have hpair : ofChars [c] = [⟨0xD800 + (c.toNat - 0x10000) / 0x400, (surrogates_lt c).1⟩,
          ⟨0xDC00 + (c.toNat - 0x10000) % 0x400, (surrogates_lt c).2⟩] := by
        rw [ofChars, List.flatMap_singleton, if_neg hsmall]
      have hlead : isLead ⟨0xD800 + (c.toNat - 0x10000) / 0x400, (surrogates_lt c).1⟩ = true :=
        isLead_iff.2 (by simp only; omega)
      have htrail : isTrail ⟨0xDC00 + (c.toNat - 0x10000) % 0x400, (surrogates_lt c).2⟩ = true :=
        isTrail_iff.2 (by simp only; omega)
      rw [hpair, List.cons_append, List.singleton_append, toChars, hlead, htrail,
        if_pos (by decide), ih,
        hsame (paired _ _) ((toNat_paired hlead htrail).trans (by simp only; omega))]
      rfl

theorem ofChars_injective : Function.Injective ofChars :=
  Function.LeftInverse.injective toChars_ofChars

/-- The bytes of a text are those of no other. -/
theorem Formed.eq_of_utf8 {s t : JsString} (hs : Formed s) (ht : Formed t)
    (h : utf8 s = utf8 t) : s = t := by
  obtain ⟨text, rfl⟩ := hs
  obtain ⟨text', rfl⟩ := ht
  rw [utf8, utf8, toChars_ofChars, toChars_ofChars, ← List.toByteArray_inj] at h
  have hencode : (String.ofList text).toByteArray = (String.ofList text').toByteArray := by
    rw [String.toByteArray_ofList, String.toByteArray_ofList]
    exact h
  rw [String.ofList_inj.1 (String.toByteArray_inj.1 hencode)]

theorem eq_newline {c : Char} (h : c.toNat = 10) : c = '\n' := Char.ext (UInt32.toNat_inj.1 h)

theorem eq_of_mem_utf8EncodeChar {c : Char} (h : 10 ∈ String.utf8EncodeChar c) : c = '\n' := by
  have hbyte : ∀ n < 256, (10 : UInt8) = UInt8.ofNat n → n = 10 := by
    intro n hn heq
    have hnat := congrArg UInt8.toNat heq
    rw [UInt8.toNat_ofNat', Nat.mod_eq_of_lt hn] at hnat
    exact hnat.symm
  have hhigh : ∀ n, 128 ≤ n → n < 256 → (10 : UInt8) ≠ UInt8.ofNat n := fun n hn hn' heq => by
    have hten := hbyte n hn' heq
    omega
  rw [String.utf8EncodeChar] at h
  split_ifs at h
  · exact eq_newline (hbyte c.val.toNat (by omega) (List.mem_singleton.1 h))
  all_goals simp only [List.mem_cons, List.not_mem_nil, or_false] at h
  · rcases h with h | h <;> exact absurd h (hhigh _ (by omega) (by omega))
  · rcases h with h | h | h <;> exact absurd h (hhigh _ (by omega) (by omega))
  · rcases h with h | h | h | h <;> exact absurd h (hhigh _ (by omega) (by omega))

theorem single_eq_newline {u : CodeUnit} (h : single u = '\n') : u = unit '\n' := by
  cases hhalf : isLead u || isTrail u with
  | true =>
    rw [single, hhalf, if_pos rfl] at h
    exact absurd h (by decide)
  | false =>
    have hnat := toNat_single hhalf
    rw [h] at hnat
    exact Fin.ext hnat.symm

/-- A line break stands for itself only. -/
theorem notMem_toChars {s : JsString} (h : unit '\n' ∉ s) : '\n' ∉ toChars s := by
  induction s using toChars.induct with
  | case1 => exact List.not_mem_nil
  | case2 u =>
    intro hmem
    exact h (List.mem_singleton.2 (single_eq_newline (List.mem_singleton.1 hmem).symm).symm)
  | case3 u v rest hpair ih =>
    rw [toChars, if_pos hpair]
    rw [Bool.and_eq_true] at hpair
    intro hmem
    obtain hmem | hmem := List.mem_cons.1 hmem
    · have hnat := toNat_paired hpair.1 hpair.2
      rw [← hmem] at hnat
      have hten : '\n'.toNat = 10 := rfl
      omega
    · exact ih (fun hrest => h (List.mem_cons_of_mem _ (List.mem_cons_of_mem _ hrest))) hmem
  | case4 u v rest hpair ih =>
    rw [toChars, if_neg hpair]
    intro hmem
    obtain hmem | hmem := List.mem_cons.1 hmem
    · rw [single_eq_newline hmem.symm] at h
      exact h List.mem_cons_self
    · exact ih (fun hrest => h (List.mem_cons_of_mem u hrest)) hmem

theorem notMem_utf8 {s : JsString} (h : unit '\n' ∉ s) : 10 ∉ utf8 s := by
  intro hmem
  obtain ⟨c, hc, hbyte⟩ := List.mem_flatMap.1 hmem
  rw [eq_of_mem_utf8EncodeChar hbyte] at hc
  exact notMem_toChars h hc

end
end AgentValet.Lang.JsString
