import Mathlib.Data.List.Basic
import Mathlib.Data.List.TakeWhile
import Mathlib.Tactic.Common

namespace AgentValet.Base.Segments
variable {α β σ : Type} {p : α → Bool}

def preamble (p : α → Bool) (l : List α) : List α := l.takeWhile fun a => !p a

/-- Each head with what stands between it and the next one. -/
def segments (p : α → Bool) : List α → List (α × List α)
  | [] => []
  | a :: rest => if p a then (a, preamble p rest) :: segments p rest else segments p rest

def elements (segment : α × List α) : List α := segment.1 :: segment.2

theorem preamble_cons_pos {a : α} (ha : p a = true) (l : List α) : preamble p (a :: l) = [] := by
  rw [preamble, List.takeWhile_cons, ha]
  rfl

theorem preamble_cons_neg {a : α} (ha : p a = false) (l : List α) :
    preamble p (a :: l) = a :: preamble p l := by
  rw [preamble, List.takeWhile_cons, ha]
  rfl

theorem segments_cons_pos {a : α} (ha : p a = true) (l : List α) :
    segments p (a :: l) = (a, preamble p l) :: segments p l := by
  rw [segments, if_pos ha]

theorem segments_cons_neg {a : α} (ha : p a = false) (l : List α) :
    segments p (a :: l) = segments p l := by
  rw [segments, ha]
  rfl

/-- The list is its preamble and its segments. -/
theorem preamble_append_flatMap (l : List α) :
    preamble p l ++ (segments p l).flatMap elements = l := by
  induction l with
  | nil => rfl
  | cons a l ih =>
    cases ha : p a with
    | true =>
      rw [preamble_cons_pos ha, segments_cons_pos ha, List.flatMap_cons, elements, List.nil_append,
        List.cons_append, ih]
    | false => rw [preamble_cons_neg ha, segments_cons_neg ha, List.cons_append, ih]

theorem preamble_forall (l : List α) : ∀ a ∈ preamble p l, p a = false := by
  intro a ha
  have h := List.mem_takeWhile_imp ha
  simpa using h

theorem head_of_mem {l : List α} {segment : α × List α} (h : segment ∈ segments p l) :
    p segment.1 = true := by
  induction l with
  | nil => cases h
  | cons a l ih =>
    cases ha : p a with
    | true =>
      rw [segments_cons_pos ha] at h
      obtain rfl | h := List.mem_cons.1 h
      · exact ha
      · exact ih h
    | false =>
      rw [segments_cons_neg ha] at h
      exact ih h

theorem tail_of_mem {l : List α} {segment : α × List α} (h : segment ∈ segments p l) :
    ∀ a ∈ segment.2, p a = false := by
  induction l with
  | nil => cases h
  | cons a l ih =>
    cases ha : p a with
    | true =>
      rw [segments_cons_pos ha] at h
      obtain rfl | h := List.mem_cons.1 h
      · exact preamble_forall l
      · exact ih h
    | false =>
      rw [segments_cons_neg ha] at h
      exact ih h

theorem mem_of_mem_segments {l : List α} {segment : α × List α} (h : segment ∈ segments p l) :
    ∀ a ∈ elements segment, a ∈ l := by
  intro a ha
  rw [← preamble_append_flatMap (p := p) l, List.mem_append, List.mem_flatMap]
  exact Or.inr ⟨segment, h, ha⟩

theorem preamble_append {body l : List α} (hbody : ∀ b ∈ body, p b = false)
    (hl : preamble p l = []) : preamble p (body ++ l) = body := by
  rw [preamble, List.takeWhile_append_of_pos fun b hb => by simp [hbody b hb]]
  change body ++ preamble p l = body
  rw [hl, List.append_nil]

theorem segments_append {body : List α} (hbody : ∀ b ∈ body, p b = false) (l : List α) :
    segments p (body ++ l) = segments p l := by
  induction body with
  | nil => rfl
  | cons b body ih =>
    rw [List.cons_append, segments_cons_neg (hbody b List.mem_cons_self)]
    exact ih fun c hc => hbody c (List.mem_cons_of_mem b hc)

/-- Segments put one after another are found again. -/
theorem segments_flatMap {l : List β} {f : β → α × List α} (hhead : ∀ b ∈ l, p (f b).1 = true)
    (htail : ∀ b ∈ l, ∀ a ∈ (f b).2, p a = false) :
    preamble p (l.flatMap fun b => elements (f b)) = [] ∧
      segments p (l.flatMap fun b => elements (f b)) = l.map f := by
  induction l with
  | nil => exact ⟨rfl, rfl⟩
  | cons b l ih =>
    obtain ⟨hpre, hseg⟩ := ih (fun c hc => hhead c (List.mem_cons_of_mem b hc))
      (fun c hc => htail c (List.mem_cons_of_mem b hc))
    have hb : p (f b).1 = true := hhead b List.mem_cons_self
    have hbody : ∀ a ∈ (f b).2, p a = false := htail b List.mem_cons_self
    rw [List.flatMap_cons, elements, List.map_cons, List.cons_append]
    refine ⟨preamble_cons_pos hb _, ?_⟩
    rw [segments_cons_pos hb, preamble_append hbody hpre, segments_append hbody, hseg]

theorem flatMap_eq_of_nodup {γ : Type} {f : β → List γ} {l : List β} (hl : l.Nodup) {b : β}
    (hb : b ∈ l) (hf : ∀ x, x ≠ b → f x = []) : l.flatMap f = f b := by
  induction l with
  | nil => cases hb
  | cons x l ih =>
    rw [List.nodup_cons] at hl
    rw [List.flatMap_cons]
    by_cases hx : x = b
    · have hrest : l.flatMap f = [] := by
        rw [List.flatMap_eq_nil_iff]
        intro y hy
        exact hf y fun heq => hl.1 (hx ▸ heq ▸ hy)
      rw [hrest, List.append_nil, hx]
    · have hb' : b ∈ l := List.mem_of_ne_of_mem (Ne.symm hx) hb
      rw [hf x hx, ih hl.2 hb', List.nil_append]

theorem foldlM_append {f : σ → α → Option σ} (s : σ) (l l' : List α) :
    (l ++ l').foldlM f s = (l.foldlM f s).bind fun s' => l'.foldlM f s' :=
  List.foldlM_append

/-- A fold that refuses some elements, apart from what it does with the others. -/
theorem foldlM_guard {bad : α → Bool} {f : σ → α → Option σ} (s : σ) (l : List α) :
    l.foldlM (fun s a => if bad a then none else f s a) s =
      if l.any bad then none else l.foldlM f s := by
  induction l generalizing s with
  | nil => rfl
  | cons a l ih =>
    rw [List.foldlM_cons, List.foldlM_cons, List.any_cons]
    cases ha : bad a with
    | true => rfl
    | false =>
      simp only [Bool.false_eq_true, if_false, Bool.false_or, ih]
      cases hl : l.any bad with
      | true => cases f s a <;> rfl
      | false => rfl

/-- A fold over segments, known by what it does with each. -/
theorem foldlM_segments {γ τ : Type} (f : σ → α → Option σ) (view : σ → τ)
    (read : α × List α → Option γ) (add : τ → γ → τ) (Inv : σ → Prop) (l : List (α × List α))
    (hview : ∀ segment ∈ l, ∀ s, Inv s → ((elements segment).foldlM f s).map view =
      (read segment).map (add (view s)))
    (hinv : ∀ segment ∈ l, ∀ s s', Inv s → (elements segment).foldlM f s = some s' → Inv s')
    {s : σ} (hs : Inv s) :
    ((l.flatMap elements).foldlM f s).map view =
      (l.mapM read).map fun cs => cs.foldl add (view s) := by
  induction l generalizing s with
  | nil => rfl
  | cons segment l ih =>
    have hstep := hview segment List.mem_cons_self s hs
    rw [List.flatMap_cons, foldlM_append, List.mapM_cons]
    cases hsegment : (elements segment).foldlM f s with
    | none =>
      rw [hsegment] at hstep
      cases hread : read segment with
      | none => rfl
      | some c =>
        rw [hread] at hstep
        cases hstep
    | some s' =>
      rw [hsegment] at hstep
      cases hread : read segment with
      | none =>
        rw [hread] at hstep
        cases hstep
      | some c =>
        rw [hread] at hstep
        have hs' : view s' = add (view s) c := Option.some.inj hstep
        have hrest := ih (fun t ht => hview t (List.mem_cons_of_mem segment ht))
          (fun t ht => hinv t (List.mem_cons_of_mem segment ht))
          (hinv segment List.mem_cons_self s s' hs hsegment)
        rw [Option.bind_some, hrest, hs']
        cases l.mapM read <;> rfl

end AgentValet.Base.Segments
