import Mathlib.Tactic.Common
import Mathlib.Data.List.Basic

namespace AgentValet.Base

/-- A program with questions `Q` and answers `A`; one that runs out of fuel is unfinished. -/
inductive Program (Q A ε α : Type) where
  | returned (a : α)
  | threw (e : ε)
  | unfinished
  | ask (q : Q) (k : A → Program Q A ε α)

inductive Outcome (ε α : Type) where
  | returned (a : α)
  | threw (e : ε)
  | unfinished
  deriving DecidableEq

def Outcome.Sat {ε α : Type} (ret : α → Prop) (exc : ε → Prop) : Outcome ε α → Prop
  | .returned a => ret a
  | .threw e => exc e
  | .unfinished => True

namespace Program
variable {Q Q' A ε α β : Type}

def bind : Program Q A ε α → (α → Program Q A ε β) → Program Q A ε β
  | returned a, f => f a
  | threw e, _ => .threw e
  | unfinished, _ => .unfinished
  | ask q k, f => .ask q fun a => bind (k a) f

instance : Monad (Program Q A ε) where
  pure := returned
  bind := bind

@[simp] theorem returned_bind (a : α) (f : α → Program Q A ε β) : (returned a >>= f) = f a := rfl

@[simp] theorem ask_bind (q : Q) (k : A → Program Q A ε α) (f : α → Program Q A ε β) :
    (ask q k >>= f) = .ask q fun a => k a >>= f := rfl

def query (q : Q) (read : A → α) : Program Q A ε α := .ask q fun a => .returned (read a)

/-- `try`: the exception becomes a value, for the `catch` branch to match on. -/
def attempt : Program Q A ε α → Program Q A ε (Except ε α)
  | returned a => .returned (.ok a)
  | threw e => .returned (.error e)
  | unfinished => .unfinished
  | ask q k => .ask q fun a => attempt (k a)

def ofExcept : Except ε α → Program Q A ε α
  | .ok a => .returned a
  | .error e => .threw e

/-- The run in surroundings that answer by what was asked before, and all that was asked. -/
def run (env : List Q → A) : List Q → Program Q A ε α → Outcome ε α × List Q
  | asked, returned a => (.returned a, asked)
  | asked, threw e => (.threw e, asked)
  | asked, unfinished => (.unfinished, asked)
  | asked, ask q k => run env (asked ++ [q]) (k (env (asked ++ [q])))

theorem run_bind_of_returned {env : List Q → A} {asked asked' : List Q} {p : Program Q A ε α}
    {a : α} (h : p.run env asked = (.returned a, asked')) (f : α → Program Q A ε β) :
    (p >>= f).run env asked = (f a).run env asked' := by
  change (p.bind f).run env asked = _
  induction p generalizing asked with
  | returned b =>
    obtain ⟨hb, rfl⟩ := Prod.mk.inj h
    rw [Outcome.returned.inj hb]
    rfl
  | ask q k ih => exact ih _ h
  | _ => cases h

theorem run_attempt_of_returned {env : List Q → A} {asked asked' : List Q}
    {p : Program Q A ε α} {a : α} (h : p.run env asked = (.returned a, asked')) :
    p.attempt.run env asked = (.returned (.ok a), asked') := by
  induction p generalizing asked with
  | returned b =>
    obtain ⟨hb, rfl⟩ := Prod.mk.inj h
    rw [Outcome.returned.inj hb]
    rfl
  | ask q k ih => exact ih _ h
  | _ => cases h

theorem run_bind_of_threw {env : List Q → A} {asked asked' : List Q} {p : Program Q A ε α}
    {e : ε} (h : p.run env asked = (.threw e, asked')) (f : α → Program Q A ε β) :
    (p >>= f).run env asked = (.threw e, asked') := by
  change (p.bind f).run env asked = _
  induction p generalizing asked with
  | threw e' =>
    obtain ⟨he, rfl⟩ := Prod.mk.inj h
    rw [Outcome.threw.inj he]
    rfl
  | ask q k ih => exact ih _ h
  | _ => cases h

theorem run_attempt_of_threw {env : List Q → A} {asked asked' : List Q}
    {p : Program Q A ε α} {e : ε} (h : p.run env asked = (.threw e, asked')) :
    p.attempt.run env asked = (.returned (.error e), asked') := by
  induction p generalizing asked with
  | threw e' =>
    obtain ⟨he, rfl⟩ := Prod.mk.inj h
    rw [Outcome.threw.inj he]
    rfl
  | ask q k ih => exact ih _ h
  | _ => cases h

/-- A run starts with what was asked before it. -/
theorem prefix_run (env : List Q → A) (asked : List Q) (p : Program Q A ε α) :
    asked <+: (p.run env asked).2 := by
  induction p generalizing asked with
  | ask q k ih => exact (List.prefix_append asked [q]).trans (ih _ _)
  | _ => exact List.prefix_refl asked

/-- A program that begins with a question does not end before it. -/
theorem run_query_bind_ne (env : List Q → A) (asked : List Q) (q : Q) (read : A → α)
    (f : α → Program Q A ε β) (outcome : Outcome ε β) :
    (query q read >>= f).run env asked ≠ (outcome, asked) := by
  intro h
  have hprefix := prefix_run env (asked ++ [q]) (f (read (env (asked ++ [q]))))
  have hasked : ((f (read (env (asked ++ [q])))).run env (asked ++ [q])).2 = asked :=
    congrArg Prod.snd h
  have hlength := hprefix.length_le
  rw [hasked, List.length_append, List.length_singleton] at hlength
  omega

/-- Every question satisfies `asks`, every value `ret`, and every exception `exc`. -/
def Sat (asks : Q → Prop) (ret : α → Prop) (exc : ε → Prop) : Program Q A ε α → Prop
  | returned a => ret a
  | threw e => exc e
  | unfinished => True
  | ask q k => asks q ∧ ∀ a, Sat asks ret exc (k a)

variable {asks : Q → Prop} {ret : α → Prop} {exc : ε → Prop}

theorem Sat.query {q : Q} {read : A → α} (hq : asks q) (hret : ∀ a, ret (read a)) :
    (query q read : Program Q A ε α).Sat asks ret exc :=
  ⟨hq, hret⟩

theorem Sat.bind {ret' : β → Prop} {p : Program Q A ε α} {f : α → Program Q A ε β}
    (hp : p.Sat asks ret exc) (hf : ∀ a, ret a → (f a).Sat asks ret' exc) :
    (p >>= f).Sat asks ret' exc := by
  change (p.bind f).Sat asks ret' exc
  induction p with
  | returned a => exact hf a hp
  | threw e => exact hp
  | unfinished => trivial
  | ask q k ih => exact ⟨hp.1, fun a => ih a (hp.2 a)⟩

/-- What follows a `try` meets the value or the exception. -/
theorem Sat.attempt {p : Program Q A ε α} (hp : p.Sat asks ret exc) {exc' : ε → Prop} :
    p.attempt.Sat asks (fun r => match r with | .ok a => ret a | .error e => exc e) exc' := by
  induction p with
  | returned a => exact hp
  | threw e => exact hp
  | unfinished => trivial
  | ask q k ih => exact ⟨hp.1, fun a => ih a (hp.2 a)⟩

theorem Sat.mono {asks' : Q → Prop} {ret' : α → Prop} {exc' : ε → Prop} {p : Program Q A ε α}
    (hp : p.Sat asks ret exc) (hasks : ∀ q, asks q → asks' q) (hret : ∀ a, ret a → ret' a)
    (hexc : ∀ e, exc e → exc' e) : p.Sat asks' ret' exc' := by
  induction p with
  | returned a => exact hret a hp
  | threw e => exact hexc e hp
  | unfinished => trivial
  | ask q k ih => exact ⟨hasks q hp.1, fun a => ih a (hp.2 a)⟩

theorem Sat.run {p : Program Q A ε α} (hp : p.Sat asks ret exc) (env : List Q → A)
    {asked : List Q} (hasked : ∀ q ∈ asked, asks q) :
    (p.run env asked).1.Sat ret exc ∧ ∀ q ∈ (p.run env asked).2, asks q := by
  induction p generalizing asked with
  | returned a => exact ⟨hp, hasked⟩
  | threw e => exact ⟨hp, hasked⟩
  | unfinished => exact ⟨trivial, hasked⟩
  | ask q k ih =>
    apply ih _ (hp.2 _)
    intro q' hq'
    rcases List.mem_append.1 hq' with h | h
    · exact hasked q' h
    · rw [List.mem_singleton.1 h]
      exact hp.1

/-- Under `view` the two ask the same questions, and they end alike. -/
def Agree (view : Q → Q') : Program Q A ε α → Program Q A ε α → Prop
  | returned a, returned b => a = b
  | threw e, threw e' => e = e'
  | unfinished, unfinished => True
  | ask q k, ask q' k' => view q = view q' ∧ ∀ a, Agree view (k a) (k' a)
  | _, _ => False

variable {view : Q → Q'}

theorem Agree.refl (p : Program Q A ε α) : Agree view p p := by
  induction p with
  | returned a => rfl
  | threw e => rfl
  | unfinished => trivial
  | ask q k ih => exact ⟨rfl, ih⟩

theorem Agree.query {q q' : Q} (h : view q = view q') (read : A → α) :
    Agree view (query q read : Program Q A ε α) (query q' read) :=
  ⟨h, fun _ => rfl⟩

theorem Agree.bind {p p' : Program Q A ε α} {f f' : α → Program Q A ε β}
    (h : Agree view p p') (hf : ∀ a, Agree view (f a) (f' a)) :
    Agree view (p >>= f) (p' >>= f') := by
  change Agree view (p.bind f) (p'.bind f')
  induction p generalizing p' with
  | returned a =>
    cases p' with
    | returned b =>
      obtain rfl : a = b := h
      exact hf a
    | _ => exact h.elim
  | threw e =>
    cases p' with
    | threw e' => exact h
    | _ => exact h.elim
  | unfinished =>
    cases p' with
    | unfinished => trivial
    | _ => exact h.elim
  | ask q k ih =>
    cases p' with
    | ask q' k' => exact ⟨h.1, fun a => ih a (h.2 a)⟩
    | _ => exact h.elim

theorem Agree.attempt {p p' : Program Q A ε α} (h : Agree view p p') :
    Agree view p.attempt p'.attempt := by
  induction p generalizing p' with
  | returned a =>
    cases p' with
    | returned b => exact congrArg Except.ok h
    | _ => exact h.elim
  | threw e =>
    cases p' with
    | threw e' => exact congrArg Except.error h
    | _ => exact h.elim
  | unfinished =>
    cases p' with
    | unfinished => trivial
    | _ => exact h.elim
  | ask q k ih =>
    cases p' with
    | ask q' k' => exact ⟨h.1, fun a => ih a (h.2 a)⟩
    | _ => exact h.elim

/-- Surroundings that see questions only through `view` see no difference. -/
theorem Agree.run {p p' : Program Q A ε α} (h : Agree view p p') {env : List Q → A}
    (henv : ∀ asked asked', asked.map view = asked'.map view → env asked = env asked')
    {asked asked' : List Q} (hasked : asked.map view = asked'.map view) :
    (p.run env asked).1 = (p'.run env asked').1 ∧
      (p.run env asked).2.map view = (p'.run env asked').2.map view := by
  induction p generalizing p' asked asked' with
  | returned a =>
    cases p' with
    | returned b => exact ⟨congrArg Outcome.returned h, hasked⟩
    | _ => exact h.elim
  | threw e =>
    cases p' with
    | threw e' => exact ⟨congrArg Outcome.threw h, hasked⟩
    | _ => exact h.elim
  | unfinished =>
    cases p' with
    | unfinished => exact ⟨rfl, hasked⟩
    | _ => exact h.elim
  | ask q k ih =>
    cases p' with
    | ask q' k' =>
      have hnext : (asked ++ [q]).map view = (asked' ++ [q']).map view := by
        rw [List.map_append, List.map_append, hasked, List.map_singleton, List.map_singleton, h.1]
      simp only [Program.run]
      rw [henv _ _ hnext]
      exact ih _ (h.2 _) hnext
    | _ => exact h.elim

section Exec
variable {S : Type} (answer : Q → S → A × S)

/-- The run in surroundings whose state each question may change. -/
def exec : S → Program Q A ε α → Outcome ε α × S
  | s, returned a => (.returned a, s)
  | s, threw e => (.threw e, s)
  | s, unfinished => (.unfinished, s)
  | s, ask q k => exec (answer q s).2 (k (answer q s).1)

/-- What a run goes on with, unless it has ended by an exception. -/
def andThen (f : α → S → Outcome ε β × S) : Outcome ε α × S → Outcome ε β × S
  | (.returned a, s) => f a s
  | (.threw e, s) => (.threw e, s)
  | (.unfinished, s) => (.unfinished, s)

theorem exec_bind (p : Program Q A ε α) (f : α → Program Q A ε β) (s : S) :
    (p >>= f).exec answer s = andThen (fun a s' => (f a).exec answer s')
      (p.exec answer s) := by
  change (p.bind f).exec answer s = _
  induction p generalizing s with
  | returned a => rfl
  | threw e => rfl
  | unfinished => rfl
  | ask q k ih => exact ih _ _

def Total : Program Q A ε α → Prop
  | returned _ => True
  | threw _ => True
  | unfinished => False
  | ask _ k => ∀ a, Total (k a)

theorem Total.bind {p : Program Q A ε α} {f : α → Program Q A ε β} (hp : p.Total)
    (hf : ∀ a, (f a).Total) : (p >>= f).Total := by
  change (p.bind f).Total
  induction p with
  | returned a => exact hf a
  | threw e => trivial
  | unfinished => exact hp.elim
  | ask q k ih => exact fun a => ih a (hp a)

/-- A `try` around a program that comes to its end gives a value or the exception. -/
theorem Total.exec_attempt {p : Program Q A ε α} (hp : p.Total) (s : S) :
    ∃ r, p.attempt.exec answer s = (.returned r, (p.exec answer s).2) := by
  induction p generalizing s with
  | returned a => exact ⟨.ok a, rfl⟩
  | threw e => exact ⟨.error e, rfl⟩
  | unfinished => exact hp.elim
  | ask q k ih => exact ih _ (hp _) _

/-- What each answer keeps, a run keeps. -/
theorem exec_rel {R : S → S → Prop} (hrefl : ∀ s, R s s) (htrans : ∀ {s t u}, R s t → R t u → R s u)
    (hanswer : ∀ q s, R s (answer q s).2) (p : Program Q A ε α) (s : S) :
    R s (p.exec answer s).2 := by
  induction p generalizing s with
  | ask q k ih => exact htrans (hanswer q s) (ih _ _)
  | _ => exact hrefl s

end Exec

end Program
end AgentValet.Base
