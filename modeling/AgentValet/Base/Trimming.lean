import Mathlib.Data.List.DropRight

namespace AgentValet.Base
variable {α : Type} {p q : α → Bool} {s t : List α}

def dropEnds (p : α → Bool) (s : List α) : List α := (s.dropWhile p).rdropWhile p

def BareEnds (p : α → Bool) (t : List α) : Prop :=
  (∀ a ∈ t.head?, p a = false) ∧ ∀ a ∈ t.getLast?, p a = false

variable (p) in
theorem exists_dropEnds (s : List α) :
    ∃ front back, s = front ++ (dropEnds p s ++ back) ∧ (∀ a ∈ front, p a = true) ∧
      ∀ a ∈ back, p a = true := by
  refine ⟨s.takeWhile p, (s.dropWhile p).rtakeWhile p, ?_, ?_, ?_⟩
  · rw [dropEnds, List.rdropWhile_append_rtakeWhile, List.takeWhile_append_dropWhile]
  · intro a ha
    exact List.mem_takeWhile_imp ha
  · intro a ha
    exact List.mem_rtakeWhile_imp ha

theorem dropEnds_append {front back : List α} (hfront : ∀ a ∈ front, p a = true)
    (hback : ∀ a ∈ back, p a = true) (t : List α) :
    dropEnds p (front ++ (t ++ back)) = dropEnds p t := by
  rw [dropEnds, dropEnds, List.dropWhile_append_of_pos hfront, List.dropWhile_append]
  have hreverse : ∀ a ∈ back.reverse, p a = true := by
    intro a ha
    exact hback a (List.mem_reverse.1 ha)
  split_ifs with hempty
  · rw [List.isEmpty_iff.1 hempty, List.dropWhile_eq_nil_iff.2 hback]
  · rw [List.rdropWhile, List.rdropWhile, List.reverse_append,
      List.dropWhile_append_of_pos hreverse]

theorem dropEnds_of_all (h : ∀ a ∈ s, p a = true) : dropEnds p s = [] := by
  rw [dropEnds, List.dropWhile_eq_nil_iff.2 h]
  rfl

theorem dropEnds_of_bareEnds (h : BareEnds p t) : dropEnds p t = t := by
  cases t with
  | nil => rfl
  | cons a t =>
    have ha : p a = false := h.1 a rfl
    rw [dropEnds, List.dropWhile_cons_of_neg (by simp [ha]), List.rdropWhile_eq_self_iff]
    intro hne
    simp [h.2 _ (List.getLast?_eq_some_getLast hne)]

variable (p) in
theorem bareEnds_dropEnds (s : List α) : BareEnds p (dropEnds p s) := by
  constructor
  · intro a ha
    obtain ⟨rest, hrest⟩ := List.rdropWhile_prefix p (s.dropWhile p)
    have hfirst : (s.dropWhile p).head? = some a := by
      rw [← hrest, List.head?_append]
      rw [dropEnds] at ha
      rw [ha]
      rfl
    simpa [hfirst] using List.head?_dropWhile_not p s
  · intro a ha
    have hne : dropEnds p s ≠ [] := by
      rintro hnil
      rw [hnil] at ha
      cases ha
    rw [List.getLast?_eq_some_getLast hne] at ha
    obtain rfl := Option.some.inj ha
    simpa [dropEnds] using List.rdropWhile_last_not p (s.dropWhile p) hne

theorem dropEnds_eq_self_iff : dropEnds p t = t ↔ BareEnds p t := by
  refine ⟨fun h => ?_, dropEnds_of_bareEnds⟩
  rw [← h]
  exact bareEnds_dropEnds p t

/-- What a narrower test drops before makes no difference. -/
theorem dropEnds_dropEnds (h : ∀ a ∈ s, p a = true → q a = true) :
    dropEnds q (dropEnds p s) = dropEnds q s := by
  obtain ⟨front, back, hs, hfront, hback⟩ := exists_dropEnds p s
  have hmem : ∀ a, a ∈ front ∨ a ∈ back → a ∈ s := by
    intro a ha
    rw [hs, List.mem_append, List.mem_append]
    tauto
  conv_rhs => rw [hs]
  rw [dropEnds_append]
  · intro a ha
    exact h a (hmem a (Or.inl ha)) (hfront a ha)
  · intro a ha
    exact h a (hmem a (Or.inr ha)) (hback a ha)

section
variable {part : List α}

theorem dropWhile_append_bare (h : ∀ a ∈ part.head?, p a = false) (hne : part ≠ []) (x y : List α) :
    (x ++ (part ++ y)).dropWhile p = x.dropWhile p ++ (part ++ y) := by
  have hpart : (part ++ y).dropWhile p = part ++ y := by
    obtain ⟨a, rest, rfl⟩ := List.exists_cons_of_ne_nil hne
    exact List.dropWhile_cons_of_neg (by simp [h a rfl])
  rw [List.dropWhile_append]
  split_ifs with hempty
  · rw [hpart, List.isEmpty_iff.1 hempty, List.nil_append]
  · rfl

/-- A part with bare ends is left where it is. -/
theorem dropEnds_append_bare (h : BareEnds p part) (hne : part ≠ []) (x y : List α) :
    dropEnds p (x ++ (part ++ y)) = x.dropWhile p ++ (part ++ y.rdropWhile p) := by
  have hlast : ∀ a ∈ part.reverse.head?, p a = false := by
    intro a ha
    rw [List.head?_reverse] at ha
    exact h.2 a ha
  have hback := dropWhile_append_bare hlast (by simpa using hne) y.reverse (x.dropWhile p).reverse
  rw [dropEnds, dropWhile_append_bare h.1 hne, List.rdropWhile, List.reverse_append,
    List.reverse_append, List.append_assoc, hback]
  simp [List.rdropWhile]

theorem prefix_dropEnds (h : BareEnds p part) (hne : part ≠ []) (hs : part <+: s) :
    part <+: dropEnds p s := by
  obtain ⟨y, rfl⟩ := hs
  have hdrop := dropEnds_append_bare h hne [] y
  rw [List.nil_append, List.dropWhile_nil, List.nil_append] at hdrop
  rw [hdrop]
  exact List.prefix_append _ _

theorem infix_dropEnds (h : BareEnds p part) (hne : part ≠ []) (hs : part <:+: s) :
    part <:+: dropEnds p s := by
  obtain ⟨x, y, rfl⟩ := hs
  rw [List.append_assoc, dropEnds_append_bare h hne, ← List.append_assoc]
  exact List.infix_append _ _ _

end

variable (p) in
theorem dropEnds_infix_self (s : List α) : dropEnds p s <:+: s := by
  obtain ⟨front, back, hs, -⟩ := exists_dropEnds p s
  exact ⟨front, back, by rw [List.append_assoc]; exact hs.symm⟩

/-- Once what both tests pick is dropped, no end is left that only one of them picks. -/
def EvenEnds (p q : α → Bool) (s : List α) : Prop :=
  (∀ a ∈ (dropEnds (fun a => p a && q a) s).head?, p a = q a) ∧
    ∀ a ∈ (dropEnds (fun a => p a && q a) s).getLast?, p a = q a

theorem dropEnds_eq_self_of_even (h : EvenEnds p q s) :
    dropEnds p s = dropEnds (fun a => p a && q a) s ∧
      dropEnds q s = dropEnds (fun a => p a && q a) s := by
  have hbare := bareEnds_dropEnds (fun a => p a && q a) s
  have hp : BareEnds p (dropEnds (fun a => p a && q a) s) := by
    constructor
    · intro a ha
      simpa [← h.1 a ha] using hbare.1 a ha
    · intro a ha
      simpa [← h.2 a ha] using hbare.2 a ha
  have hq : BareEnds q (dropEnds (fun a => p a && q a) s) := by
    constructor
    · intro a ha
      rw [← h.1 a ha]
      exact hp.1 a ha
    · intro a ha
      rw [← h.2 a ha]
      exact hp.2 a ha
  constructor
  · rw [← dropEnds_of_bareEnds hp, dropEnds_dropEnds (by simp +contextual)]
  · rw [← dropEnds_of_bareEnds hq, dropEnds_dropEnds (by simp +contextual)]

/-- An end that the test does not pick is kept. -/
theorem head?_dropEnds {a : α} (ha : a ∈ t.head?) (hp : p a = false) :
    (dropEnds p t).head? = some a := by
  cases t with
  | nil => cases ha
  | cons b t =>
    obtain rfl : b = a := Option.some.inj ha
    obtain ⟨rest, hrest⟩ := List.rdropWhile_prefix p (b :: t)
    rw [dropEnds, List.dropWhile_cons_of_neg (by simp [hp])]
    cases hkept : (b :: t).rdropWhile p with
    | nil =>
      have hall := List.rdropWhile_eq_nil_iff.1 hkept b List.mem_cons_self
      rw [hp] at hall
      cases hall
    | cons c u =>
      rw [hkept] at hrest
      obtain rfl : c = b := (List.cons.inj hrest).1
      rfl

theorem getLast?_dropEnds {a : α} (ha : a ∈ t.getLast?) (hp : p a = false) :
    (dropEnds p t).getLast? = some a := by
  obtain ⟨u, rfl⟩ : ∃ u, t = u ++ [a] := List.getLast?_eq_some_iff.1 ha
  have hdrop : ∃ v, (u ++ [a]).dropWhile p = v ++ [a] := by
    rw [List.dropWhile_append]
    split_ifs with hempty
    · exact ⟨[], by rw [List.dropWhile_cons_of_neg (by simp [hp]), List.nil_append]⟩
    · exact ⟨_, rfl⟩
  obtain ⟨v, hv⟩ := hdrop
  rw [dropEnds, hv, List.rdropWhile_concat_neg _ _ _ (by simp [hp])]
  exact List.getLast?_concat

/-- Of an end, `e` tells what it is.  A test keeps it unless it picks it. -/
theorem eq_of_end (e : List α → Option α) {a : α} (h : e (dropEnds p s) = e (dropEnds q s))
    (hp : p a = false → e (dropEnds p s) = some a) (hq : q a = false → e (dropEnds q s) = some a)
    (hbarep : ∀ b ∈ e (dropEnds p s), p b = false) (hbareq : ∀ b ∈ e (dropEnds q s), q b = false) :
    p a = q a := by
  cases hpa : p a with
  | false =>
    have hkept := hp hpa
    rw [h] at hkept
    exact (hbareq a hkept).symm
  | true =>
    cases hqa : q a with
    | true => rfl
    | false =>
      have hkept := hq hqa
      rw [← h] at hkept
      rw [← hpa]
      exact hbarep a hkept

/-- Ends that the tests leave alike show that they drop the same. -/
theorem evenEnds_of_ends (hhead : (dropEnds p s).head? = (dropEnds q s).head?)
    (hlast : (dropEnds p s).getLast? = (dropEnds q s).getLast?) : EvenEnds p q s := by
  have hp : dropEnds p (dropEnds (fun a => p a && q a) s) = dropEnds p s :=
    dropEnds_dropEnds (by simp +contextual)
  have hq : dropEnds q (dropEnds (fun a => p a && q a) s) = dropEnds q s :=
    dropEnds_dropEnds (by simp +contextual)
  constructor
  · intro a ha
    apply eq_of_end List.head? hhead
    · intro hpa
      rw [← hp]
      exact head?_dropEnds ha hpa
    · intro hqa
      rw [← hq]
      exact head?_dropEnds ha hqa
    · exact (bareEnds_dropEnds p s).1
    · exact (bareEnds_dropEnds q s).1
  · intro a ha
    apply eq_of_end List.getLast? hlast
    · intro hpa
      rw [← hp]
      exact getLast?_dropEnds ha hpa
    · intro hqa
      rw [← hq]
      exact getLast?_dropEnds ha hqa
    · exact (bareEnds_dropEnds p s).2
    · exact (bareEnds_dropEnds q s).2

theorem dropEnds_eq_iff : dropEnds p s = dropEnds q s ↔ EvenEnds p q s := by
  constructor
  · intro h
    exact evenEnds_of_ends (by rw [h]) (by rw [h])
  · intro h
    obtain ⟨hp, hq⟩ := dropEnds_eq_self_of_even h
    rw [hp, hq]

end AgentValet.Base
