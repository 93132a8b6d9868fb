import AgentValet.Base.LineReader

namespace AgentValet.Base
variable {α : Type}

/-- What one attempt to append a line has left in the file. -/
inductive Piece (α : Type) where
  | whole (line : List α)
  | torn (part : List α)

namespace Piece

def text (sep : α) : Piece α → List α
  | .whole line => line ++ [sep]
  | .torn part => part

def body : Piece α → List α
  | .whole line => line
  | .torn part => part

/-- The lines that the pieces end, the first behind what is open before. -/
def lines : List α → List (Piece α) → List (List α)
  | _, [] => []
  | before, .whole line :: rest => (before ++ line) :: lines [] rest
  | before, .torn part :: rest => lines (before ++ part) rest

def rest : List α → List (Piece α) → List α
  | before, [] => before
  | _, .whole _ :: pieces => rest [] pieces
  | before, .torn part :: pieces => rest (before ++ part) pieces

/-- Whole lines behind an ended one stand by themselves. -/
theorem lines_of_whole (ls : List (List α)) :
    lines [] (ls.map whole) = ls ∧ rest [] (ls.map whole) = [] := by
  induction ls with
  | nil => exact ⟨rfl, rfl⟩
  | cons line ls ih => exact ⟨congrArg (line :: ·) ih.1, ih.2⟩

variable [DecidableEq α] {sep : α} {front : List α} {pieces : List (Piece α)}

theorem read_append_whole {line : List α} (hline : sep ∉ line) (front : List α) :
    endedLines sep (front ++ (line ++ [sep])) =
        endedLines sep front ++ [openLine sep front ++ line] ∧
      openLine sep (front ++ (line ++ [sep])) = [] := by
  have hopen : sep ∉ openLine sep front ++ line := by
    simp [notMem_openLine, hline]
  rw [endedLines_append, openLine_append, ← List.append_assoc, endedLines_append_cons,
    openLine_append_cons, endedLines_of_notMem List.not_mem_nil,
    openLine_of_notMem List.not_mem_nil, List.splitOn_eq_singleton hopen, List.append_nil]
  exact ⟨rfl, rfl⟩

theorem read_append_torn {part : List α} (hpart : sep ∉ part) (front : List α) :
    endedLines sep (front ++ part) = endedLines sep front ∧
      openLine sep (front ++ part) = openLine sep front ++ part := by
  have hopen : sep ∉ openLine sep front ++ part := by
    simp [notMem_openLine, hpart]
  rw [endedLines_append, openLine_append, endedLines_of_notMem hopen, openLine_of_notMem hopen,
    List.append_nil]
  exact ⟨rfl, rfl⟩

/-- The lines of a file that pieces were appended to. -/
theorem read_append_pieces (hpieces : ∀ p ∈ pieces, sep ∉ p.body) (front : List α) :
    endedLines sep (front ++ pieces.flatMap (text sep)) =
        endedLines sep front ++ lines (openLine sep front) pieces ∧
      openLine sep (front ++ pieces.flatMap (text sep)) = rest (openLine sep front) pieces := by
  induction pieces generalizing front with
  | nil => simp [lines, rest]
  | cons p pieces ih =>
    obtain ⟨hp, hpieces⟩ := List.forall_mem_cons.1 hpieces
    rw [List.flatMap_cons, ← List.append_assoc]
    obtain ⟨hended, hopen⟩ := ih hpieces (front ++ p.text sep)
    rw [hended, hopen]
    cases p with
    | whole line =>
      have hline : sep ∉ line := hp
      obtain ⟨hlines, hnone⟩ := read_append_whole hline front
      simp only [text, hlines, hnone, List.append_assoc]
      exact ⟨rfl, rfl⟩
    | torn part =>
      have hpart : sep ∉ part := hp
      obtain ⟨hlines, hleft⟩ := read_append_torn hpart front
      simp only [text, hlines, hleft]
      exact ⟨rfl, rfl⟩

end Piece
end AgentValet.Base
