import AgentValet.Base.Runs

namespace AgentValet.Base

/-- A routine over the shared state `σ`, which waits for answers `A` to questions `Q`. -/
inductive Routine (σ Q A ε α : Type) where
  | returned (a : α)
  | threw (e : ε)
  | read (k : σ → Routine σ Q A ε α)
  | write (s : σ) (k : Routine σ Q A ε α)
  | await (q : Q) (k : A → Routine σ Q A ε α)

namespace Routine
variable {σ Q A ε ε' α β : Type}

def bind : Routine σ Q A ε α → (α → Routine σ Q A ε β) → Routine σ Q A ε β
  | returned a, f => f a
  | threw e, _ => .threw e
  | read k, f => .read fun s => bind (k s) f
  | write s k, f => .write s (bind k f)
  | await q k, f => .await q fun a => bind (k a) f

instance : Monad (Routine σ Q A ε) where
  pure := returned
  bind := bind

def get : Routine σ Q A ε σ := .read .returned

def modify (f : σ → σ) : Routine σ Q A ε Unit := .read fun s => .write (f s) (.returned ())

def query (q : Q) (read : A → α) : Routine σ Q A ε α := .await q fun a => .returned (read a)

def ofExcept : Except ε α → Routine σ Q A ε α
  | .ok a => .returned a
  | .error e => .threw e

/-- `try` with its `catch` branch. -/
def orElse : Routine σ Q A ε α → (ε → Routine σ Q A ε' α) → Routine σ Q A ε' α
  | returned a, _ => .returned a
  | threw e, h => h e
  | read k, h => .read fun s => orElse (k s) h
  | write s k, h => .write s (orElse k h)
  | await q k, h => .await q fun a => orElse (k a) h

/-- What is left of the routine when it waits or has ended, and the state it leaves. -/
def turn : Routine σ Q A ε α → σ → Routine σ Q A ε α × σ
  | returned a, s => (returned a, s)
  | threw e, s => (threw e, s)
  | read k, s => turn (k s) s
  | write s' k, _ => turn k s'
  | await q k, s => (await q k, s)

def waits : Routine σ Q A ε α → Bool
  | await _ _ => true
  | _ => false

/-- From a turn that began in `s₀`, with the state `s` by now: at each end of a turn it guarantees
what it did, if it can rely on the rest. -/
def Sat (answers : Q → A → Prop) (rely guar : σ → σ → Prop) (ret : α → σ → σ → Prop)
    (exc : ε → σ → σ → Prop) : σ → Routine σ Q A ε α → σ → Prop
  | s₀, returned a, s => ret a s₀ s
  | s₀, threw e, s => exc e s₀ s
  | s₀, read k, s => Sat answers rely guar ret exc s₀ (k s) s
  | s₀, write s' k, _ => Sat answers rely guar ret exc s₀ k s'
  | s₀, await q k, s =>
    guar s₀ s ∧ ∀ a, answers q a → ∀ s', rely s s' → Sat answers rely guar ret exc s' (k a) s'

variable {answers : Q → A → Prop} {rely guar : σ → σ → Prop} {ret : α → σ → σ → Prop}
  {exc : ε → σ → σ → Prop} {s₀ s : σ}

@[simp] theorem sat_pure_iff {a : α} :
    (pure a : Routine σ Q A ε α).Sat answers rely guar ret exc s₀ s ↔ ret a s₀ s := Iff.rfl

@[simp] theorem sat_get_iff {ret : σ → σ → σ → Prop} :
    (get : Routine σ Q A ε σ).Sat answers rely guar ret exc s₀ s ↔ ret s s₀ s := Iff.rfl

@[simp] theorem sat_modify_iff {ret : Unit → σ → σ → Prop} {f : σ → σ} :
    (modify f : Routine σ Q A ε Unit).Sat answers rely guar ret exc s₀ s ↔ ret () s₀ (f s) :=
  Iff.rfl

@[simp] theorem sat_query_iff {q : Q} {read : A → α} :
    (query q read : Routine σ Q A ε α).Sat answers rely guar ret exc s₀ s ↔
      guar s₀ s ∧ ∀ a, answers q a → ∀ s', rely s s' → ret (read a) s' s' := Iff.rfl

theorem sat_ofExcept_iff {r : Except ε α} :
    (ofExcept r : Routine σ Q A ε α).Sat answers rely guar ret exc s₀ s ↔
      (∀ a, r = .ok a → ret a s₀ s) ∧ ∀ e, r = .error e → exc e s₀ s := by
  cases r with
  | ok a => simp [ofExcept, Sat]
  | error e => simp [ofExcept, Sat]

theorem Sat.mono {rely' guar' : σ → σ → Prop} {ret' : α → σ → σ → Prop}
    {exc' : ε → σ → σ → Prop} {p : Routine σ Q A ε α} (h : p.Sat answers rely guar ret exc s₀ s)
    (hrely : ∀ s s', rely' s s' → rely s s') (hguar : ∀ s₀ s, guar s₀ s → guar' s₀ s)
    (hret : ∀ a s₀ s, ret a s₀ s → ret' a s₀ s)
    (hexc : ∀ e s₀ s, exc e s₀ s → exc' e s₀ s) : p.Sat answers rely' guar' ret' exc' s₀ s := by
  induction p generalizing s₀ s with
  | returned a => exact hret a s₀ s h
  | threw e => exact hexc e s₀ s h
  | read k ih => exact ih s h
  | write s' k ih => exact ih h
  | await q k ih => exact ⟨hguar s₀ s h.1, fun a ha s' hs => ih a (h.2 a ha s' (hrely s s' hs))⟩

@[simp] theorem sat_bind_iff {ret' : β → σ → σ → Prop} {p : Routine σ Q A ε α}
    {f : α → Routine σ Q A ε β} :
    (p >>= f).Sat answers rely guar ret' exc s₀ s ↔
      p.Sat answers rely guar (fun a s₀ s => (f a).Sat answers rely guar ret' exc s₀ s) exc
        s₀ s := by
  change (p.bind f).Sat answers rely guar ret' exc s₀ s ↔ _
  induction p generalizing s₀ s with
  | returned a => exact Iff.rfl
  | threw e => exact Iff.rfl
  | read k ih => exact ih s
  | write s' k ih => exact ih
  | await q k ih =>
    refine and_congr_right fun _ => forall_congr' fun a => imp_congr_right fun _ => ?_
    exact forall_congr' fun s' => imp_congr_right fun _ => ih a

@[simp] theorem sat_orElse_iff {exc' : ε' → σ → σ → Prop} {p : Routine σ Q A ε α}
    {h : ε → Routine σ Q A ε' α} :
    (p.orElse h).Sat answers rely guar ret exc' s₀ s ↔
      p.Sat answers rely guar ret
        (fun e s₀ s => (h e).Sat answers rely guar ret exc' s₀ s) s₀ s := by
  induction p generalizing s₀ s with
  | returned a => exact Iff.rfl
  | threw e => exact Iff.rfl
  | read k ih => exact ih s
  | write s' k ih => exact ih
  | await q k ih =>
    refine and_congr_right fun _ => forall_congr' fun a => imp_congr_right fun _ => ?_
    exact forall_congr' fun s' => imp_congr_right fun _ => ih a

/-- Between turns: with any answer it goes on as it should, from any state it relies on. -/
def Waiting (answers : Q → A → Prop) (rely guar : σ → σ → Prop) : Routine σ Q A ε α → σ → Prop
  | await q k, s => ∀ a, answers q a → ∀ s', rely s s' →
      (k a).Sat answers rely guar (fun _ => guar) (fun _ => guar) s' s'
  | _, _ => True

theorem waiting_turn {p : Routine σ Q A ε α}
    (h : p.Sat answers rely guar (fun _ => guar) (fun _ => guar) s₀ s) :
    guar s₀ (p.turn s).2 ∧ (p.turn s).1.Waiting answers rely guar (p.turn s).2 := by
  induction p generalizing s with
  | returned a => exact ⟨h, trivial⟩
  | threw e => exact ⟨h, trivial⟩
  | read k ih => exact ih s h
  | write s' k ih => exact ih h
  | await q k ih => exact h

def Ends (P : σ → Prop) (p : Routine σ Q A ε α) (s₀ s : σ) : Prop :=
  p.Sat (fun _ _ => True) (fun _ _ => True) (fun _ _ => True) (fun _ _ => P) (fun _ _ => P) s₀ s

def Keeps (P : σ → Prop) (p : Routine σ Q A ε α) (s₀ s : σ) : Prop :=
  p.Sat (fun _ _ => True) (fun _ _ => True) (fun s s' => P s → P s') (fun _ s s' => P s → P s')
    (fun _ s s' => P s → P s') s₀ s

/-- It waits, and will have brought about `P` when it ends. -/
def Owes (P : σ → Prop) : Routine σ Q A ε α → Prop
  | await _ k => ∀ a s, (k a).Ends P s s
  | _ => False

def KeepsOn (P : σ → Prop) : Routine σ Q A ε α → Prop
  | await _ k => ∀ a s, (k a).Keeps P s s
  | _ => True

variable {P : σ → Prop} {p : Routine σ Q A ε α}

/-- `p` throws nothing. -/
theorem ends_bind {f : α → Routine σ Q A ε β}
    (hp : p.Sat (fun _ _ => True) (fun _ _ => True) (fun _ _ => True) (fun _ _ _ => True)
      (fun _ _ _ => False) s₀ s)
    (hf : ∀ a s₀ s, (f a).Ends P s₀ s) : (p >>= f).Ends P s₀ s :=
  sat_bind_iff.2 (hp.mono (fun _ _ h => h) (fun _ _ h => h) (fun a s₀ s _ => hf a s₀ s)
    fun _ _ _ h => h.elim)

theorem ends_turn (h : p.Ends P s₀ s) :
    (p.turn s).1.Owes P ∨ (p.turn s).1.KeepsOn P ∧ P (p.turn s).2 := by
  induction p generalizing s with
  | returned a => exact Or.inr ⟨trivial, h⟩
  | threw e => exact Or.inr ⟨trivial, h⟩
  | read k ih => exact ih s h
  | write s' k ih => exact ih h
  | await q k ih => exact Or.inl fun a s' => h.2 a trivial s' trivial

theorem keeps_turn (h : p.Keeps P s₀ s) :
    (p.turn s).1.KeepsOn P ∧ (P s₀ → P (p.turn s).2) := by
  induction p generalizing s with
  | returned a => exact ⟨trivial, h⟩
  | threw e => exact ⟨trivial, h⟩
  | read k ih => exact ih s h
  | write s' k ih => exact ih h
  | await q k ih => exact ⟨fun a s' => h.2 a trivial s' trivial, h.1⟩

theorem waits_of_owes (h : p.Owes P) : p.waits = true := by
  cases p with
  | await q k => rfl
  | _ => exact h.elim

end Routine

/-- What the routines of each handler rely on and guarantee, and which may wait side by side. -/
structure Contract (H σ Q A : Type) where
  answers : Q → A → Prop
  rely : H → σ → σ → Prop
  guar : H → σ → σ → Prop
  compat : H → H → Prop
  rely_refl : ∀ h s, rely h s s
  rely_trans : ∀ h s s' s'', rely h s s' → rely h s' s'' → rely h s s''
  compat_symm : ∀ h h', compat h h' → compat h' h
  rely_of_guar : ∀ h h' s s', compat h h' → guar h' s s' → rely h s s'

/-- Whatever the others do and the answers are, each turn keeps `P`. -/
def Contract.keeping {H σ Q A : Type} (P : σ → Prop) : Contract H σ Q A where
  answers _ _ := True
  rely _ _ _ := True
  guar _ s s' := P s → P s'
  compat _ _ := True
  rely_refl _ _ := trivial
  rely_trans _ _ _ _ _ _ := trivial
  compat_symm _ _ _ := trivial
  rely_of_guar _ _ _ _ _ _ := trivial

structure Pool (H σ Q A ε α : Type) where
  shared : σ
  tasks : List (H × Routine σ Q A ε α)

/-- What happens next: a handler is called, or the answer to a question comes. -/
inductive Move (H A : Type) where
  | start (h : H)
  | answer (i : ℕ) (a : A)

namespace Pool
variable {H σ Q A ε α : Type} (handler : H → Routine σ Q A ε α)

def step (p : Pool H σ Q A ε α) : Move H A → Pool H σ Q A ε α
  | .start h =>
    let (t, s) := (handler h).turn p.shared
    ⟨s, p.tasks ++ [(h, t)]⟩
  | .answer i a =>
    match p.tasks[i]? with
    | some (h, .await _ k) =>
      let (t, s) := (k a).turn p.shared
      ⟨s, p.tasks.set i (h, t)⟩
    | _ => p

variable {handler} (C : Contract H σ Q A)

/-- A handler is called only beside those it may wait with, and answers are as agreed. -/
def Allows (p : Pool H σ Q A ε α) : Move H A → Prop
  | .start h => ∀ e ∈ p.tasks, e.2.waits = true → C.compat h e.1
  | .answer i a => ∀ h q k, p.tasks[i]? = some (h, .await q k) → C.answers q a

/-- From each state on, every handler guarantees what it does as long as it can rely on the rest. -/
def Meets (handler : H → Routine σ Q A ε α) : Prop :=
  ∀ h s, (handler h).Sat C.answers (C.rely h) (C.guar h) (fun _ => C.guar h) (fun _ => C.guar h) s s

structure Sound (p : Pool H σ Q A ε α) : Prop where
  waiting : ∀ e ∈ p.tasks, e.2.Waiting C.answers (C.rely e.1) (C.guar e.1) p.shared
  compat : ∀ (i j : ℕ) (e e' : H × Routine σ Q A ε α), i ≠ j → p.tasks[i]? = some e →
    p.tasks[j]? = some e' → e.2.waits = true → e'.2.waits = true → C.compat e.1 e'.1

variable {C} {p : Pool H σ Q A ε α}

theorem sound_empty (s : σ) : Sound C (⟨s, []⟩ : Pool H σ Q A ε α) where
  waiting e he := by cases he
  compat i j e e' _ he := by cases he

/-- A waiting routine goes on waiting over what a compatible one does. -/
theorem waiting_of_guar {h h' : H} {t : Routine σ Q A ε α} {s s' : σ}
    (ht : t.Waiting C.answers (C.rely h) (C.guar h) s)
    (hcompat : t.waits = true → C.compat h h') (hguar : C.guar h' s s') :
    t.Waiting C.answers (C.rely h) (C.guar h) s' := by
  cases t with
  | await q k =>
    intro a ha s'' hrely
    exact ht a ha s'' (C.rely_trans h _ _ _ (C.rely_of_guar h h' _ _ (hcompat rfl) hguar) hrely)
  | _ => trivial

theorem sound_start (hmeets : Meets C handler) (hp : Sound C p) {h : H}
    (hallows : Allows C p (.start h)) :
    Sound C (step handler p (.start h)) ∧ C.guar h p.shared (step handler p (.start h)).shared := by
  obtain ⟨hguar, hwaiting⟩ := Routine.waiting_turn (hmeets h p.shared)
  refine ⟨⟨?_, ?_⟩, hguar⟩
  · intro e he
    obtain hold | hnew := List.mem_append.1 he
    · have hcompat : e.2.waits = true → C.compat e.1 h :=
        fun hwaits => C.compat_symm _ _ (hallows e hold hwaits)
      exact waiting_of_guar (hp.waiting e hold) hcompat hguar
    · obtain rfl := List.mem_singleton.1 hnew
      exact hwaiting
  · intro i j e e' hij hi hj hwaits hwaits'
    have hplace : ∀ {k : ℕ} {x : H × Routine σ Q A ε α},
        (p.tasks ++ [(h, ((handler h).turn p.shared).1)])[k]? = some x →
          p.tasks[k]? = some x ∨ k = p.tasks.length ∧ x.1 = h := by
      intro k x hx
      obtain hlt | hge := Nat.lt_or_ge k p.tasks.length
      · rw [List.getElem?_append_left hlt] at hx
        exact Or.inl hx
      · rw [List.getElem?_append_right hge] at hx
        obtain ⟨hk, hxe⟩ := List.getElem?_eq_some_iff.1 hx
        rw [List.length_singleton] at hk
        have hzero : k - p.tasks.length = 0 := by omega
        refine Or.inr ⟨by omega, ?_⟩
        simp only [hzero, List.getElem_cons_zero] at hxe
        rw [← hxe]
    obtain hi' | ⟨hi', heq⟩ := hplace hi
    · obtain hj' | ⟨hj', heq'⟩ := hplace hj
      · exact hp.compat i j e e' hij hi' hj' hwaits hwaits'
      · rw [heq']
        exact C.compat_symm _ _ (hallows e (List.mem_of_getElem? hi') hwaits)
    · obtain hj' | ⟨hj', -⟩ := hplace hj
      · rw [heq]
        exact hallows e' (List.mem_of_getElem? hj') hwaits'
      · exact absurd (hi'.trans hj'.symm) hij

theorem sound_answer (hp : Sound C p) {i : ℕ} {a : A} {h : H} {q : Q} {k : A → Routine σ Q A ε α}
    (htask : p.tasks[i]? = some (h, .await q k)) (hanswer : C.answers q a) :
    Sound C (step handler p (.answer i a)) ∧
      C.guar h p.shared (step handler p (.answer i a)).shared := by
  have hstep : step handler p (.answer i a) =
      ⟨((k a).turn p.shared).2, p.tasks.set i (h, ((k a).turn p.shared).1)⟩ := by
    simp only [step, htask]
  obtain ⟨hguar, hwaiting⟩ := Routine.waiting_turn
    (hp.waiting _ (List.mem_of_getElem? htask) a hanswer p.shared (C.rely_refl h _))
  rw [hstep]
  -- the one at place `i` has waited before its turn, so it is compatible with the others
  have hplace : ∀ {j : ℕ} {x : H × Routine σ Q A ε α},
      (p.tasks.set i (h, ((k a).turn p.shared).1))[j]? = some x →
        j = i ∧ x = (h, ((k a).turn p.shared).1) ∨ j ≠ i ∧ p.tasks[j]? = some x := by
    intro j x hx
    by_cases hj : j = i
    · subst hj
      obtain ⟨hlt, -⟩ := List.getElem?_eq_some_iff.1 htask
      rw [List.getElem?_set_self hlt] at hx
      exact Or.inl ⟨rfl, (Option.some.inj hx).symm⟩
    · rw [List.getElem?_set_ne (Ne.symm hj)] at hx
      exact Or.inr ⟨hj, hx⟩
  refine ⟨⟨?_, ?_⟩, hguar⟩
  · intro e he
    obtain ⟨j, hj⟩ := List.getElem?_of_mem he
    obtain ⟨-, rfl⟩ | ⟨hne, hj'⟩ := hplace hj
    · exact hwaiting
    · apply waiting_of_guar (hp.waiting e (List.mem_of_getElem? hj')) _ hguar
      intro hwaits
      exact hp.compat j i e _ hne hj' htask hwaits rfl
  · intro j l e e' hjl hj hl hwaits hwaits'
    obtain ⟨rfl, rfl⟩ | ⟨hj, hj'⟩ := hplace hj
    · obtain ⟨rfl, rfl⟩ | ⟨hl, hl'⟩ := hplace hl
      · exact absurd rfl hjl
      · exact hp.compat j l (h, .await q k) e' hjl htask hl' rfl hwaits'
    · obtain ⟨rfl, rfl⟩ | ⟨hl, hl'⟩ := hplace hl
      · exact hp.compat j l e (h, .await q k) hjl hj' htask hwaits rfl
      · exact hp.compat j l e e' hjl hj' hl' hwaits hwaits'

/-- A move that is allowed keeps the pool sound, and does to the state only what some handler
guarantees. -/
theorem sound_step (hmeets : Meets C handler) (hp : Sound C p) {m : Move H A}
    (hallows : Allows C p m) :
    Sound C (step handler p m) ∧
      ((∃ h, C.guar h p.shared (step handler p m).shared) ∨
        (step handler p m).shared = p.shared) := by
  cases m with
  | start h =>
    obtain ⟨hsound, hguar⟩ := sound_start hmeets hp hallows
    exact ⟨hsound, Or.inl ⟨h, hguar⟩⟩
  | answer i a =>
    cases htask : p.tasks[i]? with
    | none =>
      have hstep : step handler p (.answer i a) = p := by simp only [step, htask]
      rw [hstep]
      exact ⟨hp, Or.inr rfl⟩
    | some e =>
      obtain ⟨h, t⟩ := e
      cases t with
      | await q k =>
        obtain ⟨hsound, hguar⟩ := @sound_answer _ _ _ _ _ _ handler _ _ hp _ _ _ _ _ htask
          (hallows h q k htask)
        exact ⟨hsound, Or.inl ⟨h, hguar⟩⟩
      | _ =>
        have hstep : step handler p (.answer i a) = p := by simp only [step, htask]
        rw [hstep]
        exact ⟨hp, Or.inr rfl⟩

/-- What all the guarantees keep holds throughout every run that begins at rest. -/
theorem throughout_of_guar {Inv : σ → Prop} (hmeets : Meets C handler)
    (hguar : ∀ h s s', C.guar h s s' → Inv s → Inv s') {s : σ} (hs : Inv s)
    {moves : List (Move H A)} (hrun : Along (step handler) (Allows C) ⟨s, []⟩ moves) :
    Throughout (step handler) (fun p => Sound C p ∧ Inv p.shared) ⟨s, []⟩ moves := by
  refine Along.throughout ?_ (fun _ h => h) hrun ⟨sound_empty s, hs⟩
  intro p m hp hallows
  obtain ⟨hsound, ⟨h, hg⟩ | heq⟩ := sound_step hmeets hp.1 hallows
  · exact ⟨hsound, hguar h _ _ hg hp.2⟩
  · exact ⟨hsound, heq ▸ hp.2⟩

/-- What every turn keeps holds throughout every run. -/
theorem throughout_of_keeps {P : σ → Prop} (hkeeps : ∀ h s, (handler h).Keeps P s s) {s : σ}
    (hs : P s) (moves : List (Move H A)) :
    Throughout (step handler) (fun p => P p.shared) ⟨s, []⟩ moves := by
  have hrun : Along (step handler) (Allows (.keeping P)) ⟨s, []⟩ moves := by
    refine along_of_forall (fun p m => ?_) _ _
    cases m with
    | start h => exact fun _ _ _ => trivial
    | answer i a => exact fun _ _ _ _ => trivial
  have hmeets : Meets (.keeping P) handler := hkeeps
  exact fun n => (throughout_of_guar hmeets (fun _ _ _ h => h) hs hrun n).2

def AtRest (p : Pool H σ Q A ε α) : Prop := ∀ e ∈ p.tasks, e.2.waits = false

/-- Whoever may have broken `P` still waits, and will restore it. -/
structure Settling (P : σ → Prop) (p : Pool H σ Q A ε α) : Prop where
  tasks : ∀ e ∈ p.tasks, e.2.Owes P ∨ e.2.KeepsOn P
  holds : P p.shared ∨ ∃ e ∈ p.tasks, e.2.Owes P

variable {P : σ → Prop}

theorem settling_start {p : Pool H σ Q A ε α} (hp : Settling P p) {h : H}
    (hstart : ∀ s, (handler h).Ends P s s ∨ (handler h).Keeps P s s) :
    Settling P (step handler p (.start h)) := by
  have hturn : ((handler h).turn p.shared).1.Owes P ∨ ((handler h).turn p.shared).1.KeepsOn P ∧
      (P p.shared → P ((handler h).turn p.shared).2) := by
    obtain hends | hkeeps := hstart p.shared
    · exact (Routine.ends_turn hends).imp_right fun ⟨hon, hP⟩ => ⟨hon, fun _ => hP⟩
    · exact Or.inr (Routine.keeps_turn hkeeps)
  constructor
  · intro e he
    obtain hold | hnew := List.mem_append.1 he
    · exact hp.tasks e hold
    · obtain rfl := List.mem_singleton.1 hnew
      exact hturn.imp_right And.left
  · obtain howes | ⟨-, hkeep⟩ := hturn
    · exact Or.inr ⟨_, List.mem_append_right _ (List.mem_singleton.2 rfl), howes⟩
    · obtain hP | ⟨e, he, howes⟩ := hp.holds
      · exact Or.inl (hkeep hP)
      · exact Or.inr ⟨e, List.mem_append_left _ he, howes⟩

theorem settling_answer {p : Pool H σ Q A ε α} (hp : Settling P p) {i : ℕ} {a : A} {h : H} {q : Q}
    {k : A → Routine σ Q A ε α} (htask : p.tasks[i]? = some (h, .await q k)) :
    Settling P (step handler p (.answer i a)) := by
  have hstep : step handler p (.answer i a) =
      ⟨((k a).turn p.shared).2, p.tasks.set i (h, ((k a).turn p.shared).1)⟩ := by
    simp only [step, htask]
  have hlt : i < p.tasks.length := (List.getElem?_eq_some_iff.1 htask).1
  have hself : (h, ((k a).turn p.shared).1) ∈ p.tasks.set i (h, ((k a).turn p.shared).1) :=
    List.mem_set hlt _
  have hturn : ((k a).turn p.shared).1.Owes P ∨ ((k a).turn p.shared).1.KeepsOn P := by
    obtain howes | hon := hp.tasks _ (List.mem_of_getElem? htask)
    · exact (Routine.ends_turn (howes a p.shared)).imp_right And.left
    · exact Or.inr (Routine.keeps_turn (hon a p.shared)).1
  rw [hstep]
  constructor
  · intro e he
    obtain hold | rfl := List.mem_or_eq_of_mem_set he
    · exact hp.tasks e hold
    · exact hturn
  · by_cases howes : (Routine.await q k).Owes P
    · -- this routine pays what it owes, or goes on owing it
      obtain hgoes | ⟨-, hP⟩ := Routine.ends_turn (howes a p.shared)
      · exact Or.inr ⟨_, hself, hgoes⟩
      · exact Or.inl hP
    · obtain hP | ⟨e, he, howes'⟩ := hp.holds
      · have hon := (hp.tasks _ (List.mem_of_getElem? htask)).resolve_left howes
        exact Or.inl ((Routine.keeps_turn (hon a p.shared)).2 hP)
      · obtain ⟨j, hj⟩ := List.getElem?_of_mem he
        have hne : i ≠ j := by
          rintro rfl
          rw [htask] at hj
          rw [← Option.some.inj hj] at howes'
          exact howes howes'
        have hj' : (p.tasks.set i (h, ((k a).turn p.shared).1))[j]? = some e := by
          rw [List.getElem?_set_ne hne, hj]
        exact Or.inr ⟨e, List.mem_of_getElem? hj', howes'⟩

theorem settling_step {p : Pool H σ Q A ε α} (hp : Settling P p) {m : Move H A}
    (hstart : ∀ h, m = .start h → ∀ s, (handler h).Ends P s s ∨ (handler h).Keeps P s s) :
    Settling P (step handler p m) := by
  cases m with
  | start h => exact settling_start hp (hstart h rfl)
  | answer i a =>
    cases htask : p.tasks[i]? with
    | none => simpa only [step, htask] using hp
    | some e =>
      obtain ⟨h, t⟩ := e
      cases t with
      | await q k => exact settling_answer hp htask
      | _ => simpa only [step, htask] using hp

/-- Where every handler keeps `P` in each turn or brings it about by its end, `P` holds whenever
the pool comes to rest. -/
theorem holds_at_rest {Starts : H → Prop}
    (hstart : ∀ h, Starts h → ∀ s, (handler h).Ends P s s ∨ (handler h).Keeps P s s)
    {s : σ} (hs : P s) {moves : List (Move H A)}
    (hrun : Along (step handler) (fun _ m => ∀ h, m = .start h → Starts h) ⟨s, []⟩ moves) :
    Throughout (step handler) (fun p => AtRest p → P p.shared) ⟨s, []⟩ moves := by
  have hinit : Settling P (⟨s, []⟩ : Pool H σ Q A ε α) :=
    ⟨fun e he => (List.not_mem_nil he).elim, Or.inl hs⟩
  refine Along.throughout ?_ ?_ hrun hinit
  · exact fun p m hp hm => settling_step hp fun h hh => hstart h (hm h hh)
  · intro p hp hrest
    obtain hP | ⟨e, he, howes⟩ := hp.holds
    · exact hP
    · have hwaits := Routine.waits_of_owes howes
      rw [hrest e he] at hwaits
      exact absurd hwaits Bool.false_ne_true

end Pool
end AgentValet.Base
