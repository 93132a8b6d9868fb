import Mathlib.Tactic.Common

namespace AgentValet.Base
variable {α : Type} [DecidableEq α] (sep : α)

def endedLines (t : List α) : List (List α) := (t.splitOn sep).dropLast

def openLine (t : List α) : List α := (t.splitOn sep).getLast (List.splitOn_ne_nil sep t)

section
variable {sep} {t : List α}

theorem endedLines_of_notMem (h : sep ∉ t) : endedLines sep t = [] := by
  rw [endedLines, List.splitOn_eq_singleton h]
  rfl

theorem openLine_of_notMem (h : sep ∉ t) : openLine sep t = t := by
  simp only [openLine, List.splitOn_eq_singleton h, List.getLast_singleton]

theorem endedLines_append_cons (front t : List α) :
    endedLines sep (front ++ sep :: t) = front.splitOn sep ++ endedLines sep t := by
  rw [endedLines, List.splitOn_append_cons_self,
    List.dropLast_append_of_ne_nil (List.splitOn_ne_nil sep t)]
  rfl

theorem openLine_append_cons (front t : List α) :
    openLine sep (front ++ sep :: t) = openLine sep t := by
  simp only [openLine, List.splitOn_append_cons_self,
    List.getLast_append_of_ne_nil _ (List.splitOn_ne_nil sep t)]

variable (sep) in
/-- A list has no separator, or it is cut at its last one. -/
theorem exists_openLine (t : List α) :
    sep ∉ t ∨ ∃ front line, t = front ++ sep :: line ∧ sep ∉ line := by
  induction t with
  | nil => exact Or.inl List.not_mem_nil
  | cons a t ih =>
    obtain hno | ⟨front, line, rfl, hline⟩ := ih
    · by_cases ha : sep = a
      · subst ha
        exact Or.inr ⟨[], t, rfl, hno⟩
      · exact Or.inl (List.not_mem_cons_of_ne_of_not_mem ha hno)
    · exact Or.inr ⟨a :: front, line, rfl, hline⟩

theorem notMem_openLine (t : List α) : sep ∉ openLine sep t := by
  obtain hno | ⟨front, line, rfl, hline⟩ := exists_openLine sep t
  · rwa [openLine_of_notMem hno]
  · rwa [openLine_append_cons, openLine_of_notMem hline]

/-- What comes later ends the line that is open. -/
theorem endedLines_append (a b : List α) :
    endedLines sep (a ++ b) = endedLines sep a ++ endedLines sep (openLine sep a ++ b) := by
  obtain hno | ⟨front, line, rfl, hline⟩ := exists_openLine sep a
  · rw [endedLines_of_notMem hno, openLine_of_notMem hno, List.nil_append]
  · rw [List.append_assoc, List.cons_append, endedLines_append_cons, endedLines_append_cons,
      openLine_append_cons, endedLines_of_notMem hline, openLine_of_notMem hline, List.append_nil]

theorem openLine_append (a b : List α) :
    openLine sep (a ++ b) = openLine sep (openLine sep a ++ b) := by
  obtain hno | ⟨front, line, rfl, hline⟩ := exists_openLine sep a
  · rw [openLine_of_notMem hno]
  · rw [List.append_assoc, List.cons_append, openLine_append_cons, openLine_append_cons,
      openLine_of_notMem hline]

end

section
variable {σ ρ : Type}

/-- Every chunk goes behind the open line; `onLine` may stop the reading. -/
def readLines (onLine : σ → List α → Except ρ σ) :
    σ → List α → List (List α) → Except ρ (σ × List α)
  | s, buffer, [] => .ok (s, buffer)
  | s, buffer, chunk :: rest => do
    let s ← (endedLines sep (buffer ++ chunk)).foldlM onLine s
    readLines onLine s (openLine sep (buffer ++ chunk)) rest

/-- The chunks are read as the text that they make up. -/
theorem readLines_eq (onLine : σ → List α → Except ρ σ) {buffer : List α} (hbuffer : sep ∉ buffer)
    (s : σ) (chunks : List (List α)) :
    readLines sep onLine s buffer chunks =
      ((endedLines sep (buffer ++ chunks.flatten)).foldlM onLine s).map
        fun s => (s, openLine sep (buffer ++ chunks.flatten)) := by
  induction chunks generalizing s buffer with
  | nil =>
    rw [List.flatten_nil, List.append_nil, endedLines_of_notMem hbuffer,
      openLine_of_notMem hbuffer]
    rfl
  | cons chunk rest ih =>
    rw [readLines, List.flatten_cons, ← List.append_assoc,
      endedLines_append (buffer ++ chunk) rest.flatten,
      openLine_append (buffer ++ chunk) rest.flatten, List.foldlM_append]
    cases (endedLines sep (buffer ++ chunk)).foldlM onLine s with
    | error r => rfl
    | ok s' => exact ih (notMem_openLine _) s'

/-- A reader that stops at the first line that decides, and takes note of the lines before it. -/
structure LineReader (α σ ρ : Type) where
  verdict : List α → Option ρ
  note : σ → List α → σ

namespace LineReader
variable (R : LineReader α σ ρ)

def onLine (s : σ) (line : List α) : Except (σ × ρ) σ :=
  match R.verdict line with
  | some r => .error (s, r)
  | none => .ok (R.note s line)

def passed (lines : List (List α)) : List (List α) :=
  lines.takeWhile fun line => (R.verdict line).isNone

omit [DecidableEq α] in
theorem foldlM_onLine (s : σ) (lines : List (List α)) :
    lines.foldlM R.onLine s =
      match lines.findSome? R.verdict with
      | some r => .error ((R.passed lines).foldl R.note s, r)
      | none => .ok ((R.passed lines).foldl R.note s) := by
  induction lines generalizing s with
  | nil => rfl
  | cons line lines ih =>
    rw [List.foldlM_cons, onLine, List.findSome?_cons, passed, List.takeWhile_cons]
    cases hverdict : R.verdict line with
    | some r => rfl
    | none => exact ih (R.note s line)

end LineReader
end
end AgentValet.Base
