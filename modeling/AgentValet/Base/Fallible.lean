import Mathlib.Data.List.Forall2
import Mathlib.Tactic.Common

namespace AgentValet.Base.Fallible
variable {ε α β : Type}

theorem bind_eq_ok {x : Except ε α} {f : α → Except ε β} {b : β} :
    (x >>= f) = .ok b ↔ ∃ a, x = .ok a ∧ f a = .ok b := by
  cases x with
  | ok a =>
    constructor
    · exact fun h => ⟨a, rfl, h⟩
    · rintro ⟨a', ha, hf⟩
      cases ha
      exact hf
  | error e =>
    constructor
    · intro h
      cases h
    · rintro ⟨a, ha, -⟩
      cases ha

@[simp] theorem ok_bind (a : α) (f : α → Except ε β) : (.ok a >>= f) = f a := rfl

@[simp] theorem error_bind (e : ε) (f : α → Except ε β) : (.error e >>= f) = .error e := rfl

theorem mapError_eq_ok {ε' : Type} {f : ε → ε'} {x : Except ε α} {a : α} :
    x.mapError f = .ok a ↔ x = .ok a := by
  cases x with
  | ok b => exact ⟨fun h => congrArg Except.ok (Except.ok.inj h), fun h => by rw [h]; rfl⟩
  | error e => exact iff_of_false (fun h => by cases h) fun h => by cases h

theorem mapError_eq_error {ε' : Type} {f : ε → ε'} {x : Except ε α} {e' : ε'} :
    x.mapError f = .error e' ↔ ∃ e, x = .error e ∧ f e = e' := by
  cases x with
  | ok a =>
    refine iff_of_false (fun h => by cases h) ?_
    rintro ⟨e, h, -⟩
    cases h
  | error e =>
    constructor
    · exact fun h => ⟨e, rfl, Except.error.inj h⟩
    · rintro ⟨e, h, rfl⟩
      cases h
      rfl

theorem pure_eq_ok {a b : α} : (pure a : Except ε α) = .ok b ↔ a = b :=
  ⟨fun h => Except.ok.inj h, fun h => h ▸ rfl⟩

@[simp] theorem toOption_ok (a : α) : (Except.ok a : Except ε α).toOption = some a := rfl

@[simp] theorem toOption_error (e : ε) : (Except.error e : Except ε α).toOption = none := rfl

@[simp] theorem toOption_pure (a : α) : (pure a : Except ε α).toOption = some a := rfl

theorem toOption_bind (x : Except ε α) (f : α → Except ε β) :
    (x >>= f).toOption = x.toOption.bind fun a => (f a).toOption := by
  cases x <;> rfl

theorem toOption_eq_some_iff {x : Except ε α} {a : α} : x.toOption = some a ↔ x = .ok a := by
  cases x with
  | ok b => rw [toOption_ok, Option.some.injEq, Except.ok.injEq]
  | error e =>
    constructor
    · intro h
      cases h
    · intro h
      cases h

theorem mapM_eq_some_iff {f : α → Option β} {l : List α} {bs : List β} :
    l.mapM f = some bs ↔ List.Forall₂ (fun a b => f a = some b) l bs := by
  induction l generalizing bs with
  | nil =>
    rw [List.mapM_nil, List.forall₂_nil_left_iff]
    exact ⟨fun h => (Option.some.inj h).symm, fun h => congrArg some h.symm⟩
  | cons a l ih =>
    rw [List.mapM_cons, List.forall₂_cons_left_iff]
    simp only [Option.bind_eq_bind, Option.pure_def, Option.bind_eq_some_iff, Option.some.injEq,
      ← ih]
    exact ⟨fun ⟨b, hb, bs', hbs, h⟩ => ⟨b, bs', hb, hbs, h.symm⟩,
      fun ⟨b, bs', hb, hbs, h⟩ => ⟨b, hb, bs', hbs, h.symm⟩⟩

theorem mapM_eq_none {f : α → Option β} {l : List α} {a : α} (ha : a ∈ l) (h : f a = none) :
    l.mapM f = none := by
  induction l with
  | nil => cases ha
  | cons x l ih =>
    rw [List.mapM_cons]
    obtain rfl | ha := List.mem_cons.1 ha
    · rw [h]
      rfl
    · rw [ih ha]
      cases f x <;> rfl

theorem mapM_eq_some_iff_map {f : α → Option β} {l : List α} {bs : List β} :
    l.mapM f = some bs ↔ l.map f = bs.map some := by
  rw [mapM_eq_some_iff, ← List.forall₂_eq_eq_eq, List.forall₂_map_left_iff,
    List.forall₂_map_right_iff]

/-- A list that is made in parts, when each part is what another list's element yields. -/
theorem mapM_flatMap {γ δ : Type} {read : α → Option β} {f : γ → Option δ} {parts : α → List γ}
    {results : β → List δ}
    (h : ∀ a b, read a = some b → (parts a).mapM f = some (results b)) {l : List α} {bs : List β}
    (hl : l.mapM read = some bs) : (l.flatMap parts).mapM f = some (bs.flatMap results) := by
  rw [mapM_eq_some_iff] at hl
  induction hl with
  | nil => rfl
  | cons hab _ ih =>
    rw [List.flatMap_cons, List.flatMap_cons, List.mapM_append, h _ _ hab, ih]
    rfl

theorem getLast?_of_mapM {f : α → Option β} {l : List α} {bs : List β} (h : l.mapM f = some bs) :
    bs.getLast? = l.getLast?.bind f := by
  rw [mapM_eq_some_iff_map] at h
  have hlast : (bs.map some).getLast? = (l.map f).getLast? := by rw [h]
  rw [List.getLast?_map, List.getLast?_map] at hlast
  cases hl : l.getLast? with
  | none =>
    rw [hl, Option.map_none, Option.map_eq_none_iff] at hlast
    rw [hlast, Option.bind_none]
  | some a =>
    rw [hl, Option.map_some, Option.map_eq_some_iff] at hlast
    obtain ⟨b, hb, hab⟩ := hlast
    rw [hb, Option.bind_some, hab]

theorem exists_forall₂ {R : α → β → Prop} {l : List α} (h : ∀ a ∈ l, ∃ b, R a b) :
    ∃ bs, List.Forall₂ R l bs := by
  induction l with
  | nil => exact ⟨[], .nil⟩
  | cons a l ih =>
    obtain ⟨b, hb⟩ := h a List.mem_cons_self
    obtain ⟨bs, hbs⟩ := ih fun x hx => h x (List.mem_cons_of_mem a hx)
    exact ⟨b :: bs, .cons hb hbs⟩

theorem exists_of_forall₂ {R : α → β → Prop} {l : List α} {bs : List β} (h : List.Forall₂ R l bs)
    {a : α} (ha : a ∈ l) : ∃ b ∈ bs, R a b := by
  induction h with
  | nil => cases ha
  | cons hab _ ih =>
    obtain rfl | ha := List.mem_cons.1 ha
    · exact ⟨_, List.mem_cons_self, hab⟩
    · obtain ⟨b, hb, h⟩ := ih ha
      exact ⟨b, List.mem_cons_of_mem _ hb, h⟩

theorem forall₂_imp_of_mem {R S : α → β → Prop} {l : List α} {bs : List β}
    (h : List.Forall₂ R l bs) (hRS : ∀ a ∈ l, ∀ b ∈ bs, R a b → S a b) :
    List.Forall₂ S l bs := by
  induction h with
  | nil => exact .nil
  | cons hab _ ih =>
    refine .cons (hRS _ List.mem_cons_self _ List.mem_cons_self hab) (ih fun a ha b hb => ?_)
    exact hRS a (List.mem_cons_of_mem _ ha) b (List.mem_cons_of_mem _ hb)

end AgentValet.Base.Fallible
