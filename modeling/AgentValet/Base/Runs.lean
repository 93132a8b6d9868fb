import Mathlib.Data.List.Basic
import Mathlib.Tactic.Common

namespace AgentValet.Base
variable {State Command : Type*} (step : State → Command → State)

/-- Each command meets the condition in the state that it is given in. -/
def Along (Ok : State → Command → Prop) : State → List Command → Prop
  | _, [] => True
  | s, c :: commands => Ok s c ∧ Along Ok (step s c) commands

/-- The property holds in every state of the run, from the first to the last. -/
def Throughout (Good : State → Prop) (s : State) (commands : List Command) : Prop :=
  ∀ n, Good ((commands.take n).foldl step s)

variable {step} {Ok : State → Command → Prop} {Inv Good : State → Prop}

theorem Along.congr {Ok' : State → Command → Prop} (h : ∀ s c, Ok s c ↔ Ok' s c) (s : State)
    (commands : List Command) : Along step Ok s commands ↔ Along step Ok' s commands := by
  induction commands generalizing s with
  | nil => exact Iff.rfl
  | cons c commands ih => exact and_congr (h s c) (ih _)

theorem along_of_mem {commands : List Command} (h : ∀ s, ∀ c ∈ commands, Ok s c) (s : State) :
    Along step Ok s commands := by
  induction commands generalizing s with
  | nil => trivial
  | cons c commands ih =>
    exact ⟨h s c List.mem_cons_self, ih (fun s c' hc => h s c' (List.mem_cons_of_mem c hc)) _⟩

theorem along_of_forall (h : ∀ s c, Ok s c) (s : State) (commands : List Command) :
    Along step Ok s commands :=
  along_of_mem (fun s c _ => h s c) s

theorem Along.take {s : State} {commands : List Command} (h : Along step Ok s commands) (n : ℕ) :
    Along step Ok s (commands.take n) := by
  induction commands generalizing s n with
  | nil => simpa using h
  | cons c commands ih =>
    cases n with
    | zero => trivial
    | succ n => exact ⟨h.1, ih h.2 n⟩

/-- What one step keeps, a run keeps. -/
theorem Along.inv (hstep : ∀ s c, Inv s → Ok s c → Inv (step s c)) {s : State}
    {commands : List Command} (h : Along step Ok s commands) (hs : Inv s) :
    Inv (commands.foldl step s) := by
  induction commands generalizing s with
  | nil => exact hs
  | cons c commands ih => exact ih h.2 (hstep s c hs h.1)

theorem Along.throughout (hstep : ∀ s c, Inv s → Ok s c → Inv (step s c))
    (hgood : ∀ s, Inv s → Good s) {s : State} {commands : List Command}
    (h : Along step Ok s commands) (hs : Inv s) : Throughout step Good s commands :=
  fun n => hgood _ ((h.take n).inv hstep hs)

end AgentValet.Base
