import AgentValet.Base.Dialogue
import AgentValet.Lang.Files
import Mathlib.Logic.Function.Basic

namespace AgentValet.Lang
open Base

inductive DiskOp where
  | mkdir (dir : String)
  | read (path : String)
  | write (path text : String)
  /-- A write that puts a new file in the place of the old one, or leaves the old one. -/
  | replace (path text : String)
  | chmod (path : String)

/-- How an operation goes; a write that is cut leaves the beginning of its text. -/
inductive Luck where
  | works
  | fails
  | cut (n : ℕ)
  deriving DecidableEq

def Luck.left (luck : Luck) (old : Option String) (text : String) : Option String :=
  match luck with
  | .works => some text
  | .fails => old
  | .cut n => some (String.ofList (text.toList.take n))

namespace DiskOp

/-- What an operation that works answers: the content of a file that is read. -/
def content (files : Files) : DiskOp → Option String
  | read path => files path
  | _ => none

def leaves (luck : Luck) (files : Files) : DiskOp → Files
  | write path text => Function.update files path (luck.left (files path) text)
  | replace path text =>
    if luck = .works then Function.update files path (some text) else files
  | _ => files

end DiskOp

structure Disk where
  files : Files
  /-- how many operations there have been -/
  ops : ℕ

abbrev DiskProg := Program DiskOp (Except String (Option String)) String

namespace Disk

def ioError : String := "EIO: i/o error"

/-- The disk, whose operation number `n` goes as `luck n` says. -/
def answer (luck : ℕ → Luck) (op : DiskOp) (d : Disk) : Except String (Option String) × Disk :=
  (if luck d.ops = .works then .ok (op.content d.files) else .error ioError,
    ⟨op.leaves (luck d.ops) d.files, d.ops + 1⟩)

def perform (op : DiskOp) : DiskProg (Option String) := do
  let answer ← Program.query op id
  Program.ofExcept answer

/-- What holds of the files in every case in which the program raises. -/
def OnRaise {α : Type} (luck : ℕ → Luck) (d : Disk) (p : DiskProg α) (Q : Files → Prop) : Prop :=
  ∀ e d', p.exec (answer luck) d = (.threw e, d') → Q d'.files

section
variable {α : Type} {luck : ℕ → Luck} {files : Files} {n : ℕ} {Q : Files → Prop}

theorem onRaise_pure (a : α) : OnRaise luck ⟨files, n⟩ (pure a) Q := by
  intro e d h
  cases h

theorem onRaise_threw_iff (e : String) :
    OnRaise luck ⟨files, n⟩ (.threw e : DiskProg α) Q ↔ Q files := by
  constructor
  · exact fun h => h e ⟨files, n⟩ rfl
  · intro h e' d hd
    cases hd
    exact h

/-- The operation raises itself, or what follows it does. -/
theorem onRaise_perform_iff (op : DiskOp) (f : Option String → DiskProg α) :
    OnRaise luck ⟨files, n⟩ (perform op >>= f) Q ↔
      (luck n ≠ .works → Q (op.leaves (luck n) files)) ∧
        (luck n = .works →
          OnRaise luck ⟨op.leaves .works files, n + 1⟩ (f (op.content files)) Q) := by
  have hrun : (perform op >>= f).exec (answer luck) ⟨files, n⟩ =
      Program.exec (answer luck) (answer luck op ⟨files, n⟩).2
        (Program.ofExcept (answer luck op ⟨files, n⟩).1 >>= f) := rfl
  unfold OnRaise
  rw [hrun]
  by_cases h : luck n = .works
  · have hanswer : answer luck op ⟨files, n⟩ =
        (.ok (op.content files), ⟨op.leaves .works files, n + 1⟩) := by
      rw [answer, if_pos h, h]
    rw [hanswer]
    exact ⟨fun hall => ⟨fun hne => absurd h hne, fun _ => hall⟩, fun hall => hall.2 h⟩
  · have hanswer : answer luck op ⟨files, n⟩ =
        (.error ioError, ⟨op.leaves (luck n) files, n + 1⟩) := by
      rw [answer, if_neg h]
    rw [hanswer]
    constructor
    · exact fun hall => ⟨fun _ => hall ioError _ rfl, fun hworks => absurd hworks h⟩
    · intro hall e d hd
      cases hd
      exact hall.1 h

/-- An operation whose failure is caught and that leaves the files alone is passed over. -/
theorem onRaise_attempt_iff {op : DiskOp} (hop : ∀ l, op.leaves l files = files)
    (p : DiskProg α) :
    OnRaise luck ⟨files, n⟩ ((perform op).attempt >>= fun _ => p) Q ↔
      OnRaise luck ⟨files, n + 1⟩ p Q := by
  have hrun : ((perform op).attempt >>= fun _ => p).exec (answer luck) ⟨files, n⟩ =
      p.exec (answer luck) ⟨files, n + 1⟩ := by
    change Program.exec (answer luck) (answer luck op ⟨files, n⟩).2
      ((Program.ofExcept (answer luck op ⟨files, n⟩).1).attempt >>= fun _ => p) = _
    have hstate : (answer luck op ⟨files, n⟩).2 = ⟨files, n + 1⟩ := by rw [answer, hop]
    rw [hstate]
    cases (answer luck op ⟨files, n⟩).1 <;> rfl
  unfold OnRaise
  rw [hrun]

end
end Disk
end AgentValet.Lang
