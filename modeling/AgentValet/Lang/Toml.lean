import Mathlib.Data.Bool.AllAny
import Mathlib.Data.List.TakeWhile
import Mathlib.Tactic.Common

namespace AgentValet.Lang.Toml

/-- What a string holds as it is: no backslash, and of the control characters only the tab. -/
def literal (c : Char) : Bool := c ≠ '\\' && (c = '\t' || 0x20 ≤ c.toNat) && c.toNat ≠ 0x7F

def bareKey (c : Char) : Bool :=
  (0x41 ≤ c.toNat && c.toNat ≤ 0x5A) || (0x61 ≤ c.toNat && c.toNat ≤ 0x7A) ||
    (0x30 ≤ c.toNat && c.toNat ≤ 0x39) || c = '_' || c = '-'

/-- Every second one of the parts between the quotation marks is a string. -/
def pairUp : List (List Char) → List (String × String)
  | name :: value :: parts =>
    (String.ofList (name.filter bareKey), String.ofList value) :: pairUp parts
  | _ => []

/-- The pairs of the table that a text begins with; none where something is escaped. -/
def readTable (text : List Char) : List (String × String) :=
  let line := text.takeWhile (· ≠ '\n')
  if line.all literal then pairUp (line.splitOnP (· = '"')) else []

def assignment (name value : String) : List Char :=
  name.toList ++ " = ".toList ++ '"' :: (value.toList ++ ['"'])

/-- The rest of a table, with what stands before its next pair. -/
def tableFrom (opening : List Char) : List (String × String) → List Char
  | [] => " \x7d".toList
  | (name, value) :: pairs => opening ++ assignment name value ++ tableFrom ", ".toList pairs

def inlineTable (pairs : List (String × String)) : List Char := tableFrom "\x7b ".toList pairs

def Plain (value : String) : Prop := ∀ c ∈ value.toList, literal c = true ∧ c ≠ '"'

def Bare (name : String) : Prop := ∀ c ∈ name.toList, bareKey c = true

section
variable {c : Char} {name value : String} {opening : List Char} {pairs : List (String × String)}

theorem literal_of_bareKey (h : bareKey c = true) : literal c = true ∧ c ≠ '"' := by
  have hcases : c = '_' ∨ c = '-' ∨ (0x30 ≤ c.toNat ∧ c.toNat ≤ 0x7A ∧ c.toNat ≠ 0x5C) := by
    simp only [bareKey, Bool.or_eq_true, Bool.and_eq_true, decide_eq_true_eq] at h
    obtain (hletter | rfl) | rfl := h
    · right; right
      omega
    · exact Or.inl rfl
    · exact Or.inr (Or.inl rfl)
  obtain rfl | rfl | hrange := hcases
  · decide
  · decide
  · have hslash : c ≠ '\\' := by
      rintro rfl
      exact hrange.2.2 rfl
    have hquote : c ≠ '"' := by
      rintro rfl
      exact absurd hrange.1 (by decide)
    refine ⟨?_, hquote⟩
    simp only [literal, Bool.and_eq_true, Bool.or_eq_true, decide_eq_true_eq]
    exact ⟨⟨hslash, Or.inr (by omega)⟩, by omega⟩

/-- The texts around a table are literal, and no quotation mark opens one. -/
def Opening (opening : List Char) : Prop :=
  ∀ c ∈ opening, literal c = true ∧ c ≠ '"' ∧ bareKey c = false

theorem opening_comma : Opening ", ".toList := List.all_iff_forall_prop.1 (by decide)

theorem opening_brace : Opening "\x7b ".toList := List.all_iff_forall_prop.1 (by decide)

theorem opening_sign : Opening " = ".toList := List.all_iff_forall_prop.1 (by decide)

theorem splitOnP_assignment (hopening : Opening opening) (hname : Bare name) (hvalue : Plain value)
    (rest : List Char) :
    (opening ++ assignment name value ++ rest).splitOnP (· = '"') =
      (opening ++ name.toList ++ " = ".toList) :: value.toList :: rest.splitOnP (· = '"') := by
  have hbefore : ∀ c ∈ opening ++ name.toList ++ " = ".toList, decide (c = '"') = false := by
    intro c hc
    rw [List.mem_append, List.mem_append] at hc
    rw [decide_eq_false_iff_not]
    obtain (hc | hc) | hc := hc
    · exact (hopening c hc).2.1
    · exact (literal_of_bareKey (hname c hc)).2
    · exact (opening_sign c hc).2.1
  have hin : ∀ c ∈ value.toList, decide (c = '"') = false :=
    fun c hc => decide_eq_false (hvalue c hc).2
  have hshape : opening ++ assignment name value ++ rest =
      (opening ++ name.toList ++ " = ".toList) ++ '"' :: (value.toList ++ '"' :: rest) := by
    simp [assignment]
  rw [hshape, List.splitOnP_append_cons_of_forall_mem hbefore '"' (by decide),
    List.splitOnP_append_cons_of_forall_mem hin '"' (by decide)]

theorem filter_bareKey (hopening : Opening opening) (hname : Bare name) :
    (opening ++ name.toList ++ " = ".toList).filter bareKey = name.toList := by
  have hnone : opening.filter bareKey = [] := by
    rw [List.filter_eq_nil_iff]
    intro c hc
    simp [(hopening c hc).2.2]
  have hall : name.toList.filter bareKey = name.toList := List.filter_eq_self.2 hname
  have hsign : " = ".toList.filter bareKey = [] := by decide
  rw [List.filter_append, List.filter_append, hnone, hall, hsign, List.nil_append, List.append_nil]

theorem pairUp_tableFrom (hopening : Opening opening)
    (hpairs : ∀ p ∈ pairs, Bare p.1 ∧ Plain p.2) :
    pairUp ((tableFrom opening pairs).splitOnP (· = '"')) = pairs := by
  induction pairs generalizing opening with
  | nil => rfl
  | cons p pairs ih =>
    obtain ⟨name, value⟩ := p
    obtain ⟨hname, hvalue⟩ := hpairs (name, value) List.mem_cons_self
    rw [tableFrom, splitOnP_assignment hopening hname hvalue, pairUp, filter_bareKey hopening hname,
      ih opening_comma fun p hp => hpairs p (List.mem_cons_of_mem _ hp), String.ofList_toList,
      String.ofList_toList]

theorem literal_tableFrom (hopening : Opening opening)
    (hpairs : ∀ p ∈ pairs, Bare p.1 ∧ Plain p.2) :
    (tableFrom opening pairs).all literal = true := by
  induction pairs generalizing opening with
  | nil => rfl
  | cons p pairs ih =>
    obtain ⟨name, value⟩ := p
    obtain ⟨hname, hvalue⟩ := hpairs (name, value) List.mem_cons_self
    have hlater := ih opening_comma fun p hp => hpairs p (List.mem_cons_of_mem _ hp)
    have hfirst : opening.all literal = true := List.all_eq_true.2 fun c hc => (hopening c hc).1
    have hkey : name.toList.all literal = true :=
      List.all_eq_true.2 fun c hc => (literal_of_bareKey (hname c hc)).1
    have hstring : value.toList.all literal = true :=
      List.all_eq_true.2 fun c hc => (hvalue c hc).1
    have hmarks : " = ".toList.all literal = true ∧ literal '"' = true := by decide
    simp only [tableFrom, assignment, List.all_append, List.all_cons, List.all_nil, hfirst, hkey,
      hstring, hmarks.1, hmarks.2, hlater, Bool.and_self]

/-- What is written as a table is read again. -/
theorem readTable_inlineTable (hpairs : ∀ p ∈ pairs, Bare p.1 ∧ Plain p.2) (rest : List Char) :
    readTable (inlineTable pairs ++ '\n' :: rest) = pairs := by
  have hliteral := literal_tableFrom opening_brace hpairs
  have hline : ∀ c ∈ inlineTable pairs, decide (c ≠ '\n') = true := by
    intro c hc
    rw [decide_eq_true_iff]
    rintro rfl
    exact absurd (List.all_eq_true.1 hliteral _ hc) (by decide)
  have htake : (inlineTable pairs ++ '\n' :: rest).takeWhile (· ≠ '\n') = inlineTable pairs := by
    rw [List.takeWhile_append_of_pos hline, List.takeWhile_cons_of_neg (by decide), List.append_nil]
  rw [readTable, htake, inlineTable, if_pos hliteral, pairUp_tableFrom opening_brace hpairs]

end
end AgentValet.Lang.Toml
