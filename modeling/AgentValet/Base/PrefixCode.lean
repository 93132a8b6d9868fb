import Mathlib.Data.List.Basic

namespace AgentValet.Base.PrefixCode
variable {α β σ : Type} {stop : List σ → Prop}

/-- The text of `a`, before any rest that `stop` allows, is told from the text of `b`. -/
def Reads (stop : List σ → Prop) (R : α → β → Prop) (e : α → List σ) (e' : β → List σ)
    (a : α) (b : β) : Prop :=
  ∀ ⦃r r'⦄, stop r → stop r' → e a ++ r = e' b ++ r' → R a b ∧ r = r'

/-- What is read before every rest is read before some. -/
theorem Reads.mono {stop' : List σ → Prop} {R : α → β → Prop} {e : α → List σ} {e' : β → List σ}
    {a : α} {b : β} (h : Reads stop R e e' a b) (hstop : ∀ r, stop' r → stop r) :
    Reads stop' R e e' a b :=
  fun _ _ hr hr' heq => h (hstop _ hr) (hstop _ hr') heq

/-- A token ends where the first unit that no token has stands. -/
theorem append_inj_of_tokens {unit : σ → Prop} {x y r r' : List σ} (hx : ∀ u ∈ x, unit u)
    (hy : ∀ u ∈ y, unit u) (hr : ∀ u ∈ r.head?, ¬ unit u) (hr' : ∀ u ∈ r'.head?, ¬ unit u)
    (h : x ++ r = y ++ r') : x = y ∧ r = r' := by
  induction x generalizing y with
  | nil =>
    cases y with
    | nil => exact ⟨rfl, h⟩
    | cons v y =>
      obtain rfl : r = v :: (y ++ r') := h
      exact absurd (hy v List.mem_cons_self) (hr v rfl)
  | cons u x ih =>
    cases y with
    | nil =>
      obtain rfl : u :: (x ++ r) = r' := h
      exact absurd (hx u List.mem_cons_self) (hr' u rfl)
    | cons v y =>
      obtain ⟨rfl, htail⟩ := List.cons.inj h
      obtain ⟨rfl, rfl⟩ := ih (fun w hw => hx w (List.mem_cons_of_mem _ hw))
        (fun w hw => hy w (List.mem_cons_of_mem _ hw)) htail
      exact ⟨rfl, rfl⟩

def joined (sep : σ) : List (List σ) → List σ
  | [] => []
  | x :: xs => x ++ xs.flatMap (sep :: ·)

variable {R : α → β → Prop} {e : α → List σ} {e' : β → List σ} {sep close : σ}

/-- Items that each follow a separator, up to the closing unit. -/
theorem flatMap_reads (hne : sep ≠ close) (hsep : ∀ t, stop (sep :: t))
    (hclose : ∀ t, stop (close :: t)) {xs : List α} {ys : List β} {r r' : List σ}
    (hxy : ∀ x ∈ xs, ∀ y ∈ ys, Reads stop R e e' x y)
    (h : xs.flatMap (fun x => sep :: e x) ++ close :: r =
      ys.flatMap (fun y => sep :: e' y) ++ close :: r') :
    List.Forall₂ R xs ys ∧ r = r' := by
  -- after an item comes the next separator or the closing unit
  have hstop : ∀ {γ : Type} (f : γ → List σ) (l : List γ) (t : List σ),
      stop (l.flatMap (fun z => sep :: f z) ++ close :: t) := by
    intro γ f l t
    cases l with
    | nil => exact hclose t
    | cons z l => exact hsep _
  induction xs generalizing ys with
  | nil =>
    cases ys with
    | nil => exact ⟨.nil, (List.cons.inj h).2⟩
    | cons y ys => exact absurd (List.cons.inj h).1.symm hne
  | cons x xs ih =>
    cases ys with
    | nil => exact absurd (List.cons.inj h).1 hne
    | cons y ys =>
      simp only [List.flatMap_cons, List.cons_append, List.append_assoc, List.cons.injEq,
        true_and] at h
      obtain ⟨hR, htail⟩ := hxy x List.mem_cons_self y List.mem_cons_self
        (hstop e xs r) (hstop e' ys r') h
      obtain ⟨hRs, hr⟩ := ih (fun x' hx' y' hy' => hxy x' (List.mem_cons_of_mem _ hx')
        y' (List.mem_cons_of_mem _ hy')) htail
      exact ⟨.cons hR hRs, hr⟩

/-- A bracketed list of items is read back, when no item starts with the closing bracket. -/
theorem joined_reads (hne : sep ≠ close) (hsep : ∀ t, stop (sep :: t))
    (hclose : ∀ t, stop (close :: t)) {xs : List α} {ys : List β} {r r' : List σ}
    (hxy : ∀ x ∈ xs, ∀ y ∈ ys, Reads stop R e e' x y)
    (hx : ∀ x ∈ xs, ∀ t s, e x ++ s ≠ close :: t) (hy : ∀ y ∈ ys, ∀ t s, e' y ++ s ≠ close :: t)
    (h : joined sep (xs.map e) ++ close :: r = joined sep (ys.map e') ++ close :: r') :
    List.Forall₂ R xs ys ∧ r = r' := by
  cases xs with
  | nil =>
    cases ys with
    | nil => exact ⟨.nil, (List.cons.inj h).2⟩
    | cons y ys =>
      refine absurd h.symm ?_
      simp only [List.map_cons, joined, List.append_assoc]
      exact hy y List.mem_cons_self _ _
  | cons x xs =>
    cases ys with
    | nil =>
      refine absurd h ?_
      simp only [List.map_cons, joined, List.append_assoc]
      exact hx x List.mem_cons_self _ _
    | cons y ys =>
      -- one more separator in front makes all items alike
      apply flatMap_reads hne hsep hclose hxy
      simpa only [List.map_cons, joined, List.flatMap_cons, List.flatMap_map, List.cons_append,
        List.cons.injEq, true_and] using h

end AgentValet.Base.PrefixCode
