import Mathlib.Data.List.Nodup
import Mathlib.Data.List.Induction
import Mathlib.Data.List.Perm.Basic

namespace AgentValet.Base.Grouping
variable {κ ν : Type} [BEq κ]

/-- `map.set(key, value)`: a key that is there keeps its place. -/
def set (m : List (κ × ν)) (k : κ) (v : ν) : List (κ × ν) :=
  match m with
  | [] => [(k, v)]
  | (k', v') :: rest => if k' == k then (k', v) :: rest else (k', v') :: set rest k v

/-- `map.set(key, [...map.get(key) ?? [], value])` -/
def add (m : List (κ × List ν)) (x : κ × ν) : List (κ × List ν) :=
  set m x.1 ((m.lookup x.1).getD [] ++ [x.2])

def members (xs : List (κ × ν)) (k : κ) : List ν := (xs.filter (·.1 == k)).map Prod.snd

def keys (xs : List (κ × ν)) : List κ := (xs.map Prod.fst).eraseDups

def groups (xs : List (κ × ν)) : List (κ × List ν) := (keys xs).map fun k => (k, members xs k)

theorem map_fst_groups (xs : List (κ × ν)) : (groups xs).map Prod.fst = keys xs := by
  rw [groups, List.map_map]
  exact List.map_id _

variable [LawfulBEq κ] {k : κ} {ks : List κ} {f : κ → ν} {v : ν}

theorem nodup_eraseDups (l : List κ) : l.eraseDups.Nodup := by
  induction hn : l.length using Nat.strongRecOn generalizing l with
  | ind n ih =>
    cases l with
    | nil => simp
    | cons a l =>
      rw [List.eraseDups_cons, List.nodup_cons]
      constructor
      · simp
      · refine ih _ ?_ _ rfl
        rw [← hn, List.length_cons]
        exact Nat.lt_succ_of_le (List.length_filter_le _ _)

theorem nodup_keys (xs : List (κ × ν)) : (keys xs).Nodup := nodup_eraseDups _

theorem mem_keys_iff {xs : List (κ × ν)} : k ∈ keys xs ↔ ∃ v, (k, v) ∈ xs := by
  simp [keys]

theorem set_of_notMem (h : k ∉ ks) :
    set (ks.map fun k => (k, f k)) k v = ks.map (fun k => (k, f k)) ++ [(k, v)] := by
  induction ks with
  | nil => rfl
  | cons k' ks ih =>
    obtain ⟨hne, hks⟩ := not_or.1 (mt List.mem_cons.2 h)
    have hbeq : (k' == k) = false := beq_eq_false_iff_ne.2 (Ne.symm hne)
    rw [List.map_cons, set, hbeq, if_neg Bool.false_ne_true, ih hks]
    rfl

theorem set_of_mem {g : κ → ν} (hks : ks.Nodup) (h : k ∈ ks) (hg : g k = v)
    (hsame : ∀ k' ∈ ks, k' ≠ k → g k' = f k') :
    set (ks.map fun k => (k, f k)) k v = ks.map fun k => (k, g k) := by
  induction ks with
  | nil => cases h
  | cons k' ks ih =>
    obtain ⟨hnotMem, hnodup⟩ := List.nodup_cons.1 hks
    rw [List.map_cons, set]
    cases hbeq : k' == k with
    | true =>
      obtain rfl := eq_of_beq hbeq
      rw [if_pos rfl, List.map_cons, hg]
      refine congrArg _ (List.map_congr_left fun k'' hk'' => ?_)
      rw [hsame k'' (List.mem_cons_of_mem _ hk'') (fun heq => hnotMem (heq ▸ hk''))]
    | false =>
      have hne : k' ≠ k := beq_eq_false_iff_ne.1 hbeq
      have hmem : k ∈ ks := (List.mem_cons.1 h).resolve_left (Ne.symm hne)
      rw [if_neg Bool.false_ne_true, List.map_cons, hsame k' List.mem_cons_self hne,
        ih hnodup hmem fun k'' hk'' => hsame k'' (List.mem_cons_of_mem _ hk'')]

theorem lookup_map_of_mem (h : k ∈ ks) : (ks.map fun k => (k, f k)).lookup k = some (f k) := by
  induction ks with
  | nil => cases h
  | cons k' ks ih =>
    rw [List.map_cons, List.lookup_cons]
    cases hbeq : k == k' with
    | true => rw [eq_of_beq hbeq]
    | false => exact ih ((List.mem_cons.1 h).resolve_left (beq_eq_false_iff_ne.1 hbeq))

theorem lookup_map_of_notMem (h : k ∉ ks) : (ks.map fun k => (k, f k)).lookup k = none := by
  induction ks with
  | nil => rfl
  | cons k' ks ih =>
    obtain ⟨hne, hks⟩ := not_or.1 (mt List.mem_cons.2 h)
    rw [List.map_cons, List.lookup_cons, beq_eq_false_iff_ne.2 hne]
    exact ih hks

variable {xs : List (κ × ν)} {x : κ × ν}

omit [LawfulBEq κ] in
theorem members_concat (xs : List (κ × ν)) (x : κ × ν) (k : κ) :
    members (xs ++ [x]) k = members xs k ++ if x.1 == k then [x.2] else [] := by
  rw [members, List.filter_append, List.map_append, members]
  cases hbeq : x.1 == k <;> simp [hbeq]

theorem keys_concat_of_mem (h : x.1 ∈ keys xs) : keys (xs ++ [x]) = keys xs := by
  have hmem : x.1 ∈ xs.map Prod.fst := List.mem_eraseDups.1 h
  rw [keys, List.map_append, List.eraseDups_append, ← keys]
  simp [List.removeAll, hmem]

theorem keys_concat_of_notMem (h : x.1 ∉ keys xs) : keys (xs ++ [x]) = keys xs ++ [x.1] := by
  have hmem : x.1 ∉ xs.map Prod.fst := fun hmem => h (List.mem_eraseDups.2 hmem)
  rw [keys, List.map_append, List.eraseDups_append, ← keys]
  simp [List.removeAll, hmem, List.eraseDups_cons]

theorem members_eq_nil (h : k ∉ keys xs) : members xs k = [] := by
  rw [members, List.map_eq_nil_iff, List.filter_eq_nil_iff]
  intro y hy hbeq
  exact h (mem_keys_iff.2 ⟨y.2, by rwa [← eq_of_beq hbeq]⟩)

/-- One addition adds to the groups. -/
theorem add_groups (xs : List (κ × ν)) (x : κ × ν) : add (groups xs) x = groups (xs ++ [x]) := by
  by_cases h : x.1 ∈ keys xs
  · rw [add, groups, lookup_map_of_mem h, groups, keys_concat_of_mem h]
    refine set_of_mem (nodup_keys xs) h ?_ fun k hk hne => ?_
    · rw [members_concat, beq_self_eq_true, if_pos rfl, Option.getD_some]
    · rw [members_concat, beq_eq_false_iff_ne.2 (Ne.symm hne), if_neg Bool.false_ne_true,
        List.append_nil]
  · have hsame : ∀ k ∈ keys xs, members (xs ++ [x]) k = members xs k := by
      intro k hk
      have hne : x.1 ≠ k := fun heq => h (heq ▸ hk)
      rw [members_concat, beq_eq_false_iff_ne.2 hne, if_neg Bool.false_ne_true, List.append_nil]
    rw [add, groups, lookup_map_of_notMem h, set_of_notMem h, groups, keys_concat_of_notMem h,
      List.map_append, List.map_singleton, members_concat, members_eq_nil h, beq_self_eq_true,
      if_pos rfl]
    refine congrArg (· ++ _) (List.map_congr_left fun k hk => ?_)
    rw [hsame k hk]

/-- Adding one by one groups all that is added. -/
theorem foldl_add (xs : List (κ × ν)) : xs.foldl add [] = groups xs := by
  induction xs using List.reverseRecOn with
  | nil => rfl
  | append_singleton xs x ih => rw [List.foldl_append, List.foldl_cons, List.foldl_nil, ih,
      add_groups]

theorem members_ne_nil (h : k ∈ keys xs) : members xs k ≠ [] := by
  obtain ⟨v, hv⟩ := mem_keys_iff.1 h
  exact List.ne_nil_of_mem (List.mem_map.2 ⟨(k, v), List.mem_filter.2 ⟨hv, by simp⟩, rfl⟩)

/-- Lists of the elements with each key make up the list of all with these keys. -/
theorem flatMap_filter_perm (hks : ks.Nodup) (xs : List (κ × ν)) :
    (ks.flatMap fun k => xs.filter (·.1 == k)).Perm (xs.filter fun x => ks.elem x.1) := by
  induction ks with
  | nil => simp
  | cons k ks ih =>
    obtain ⟨hk, hnodup⟩ := List.nodup_cons.1 hks
    have hhead : (xs.filter fun x => (k :: ks).elem x.1).filter (·.1 == k) =
        xs.filter (·.1 == k) := by
      rw [List.filter_filter]
      refine List.filter_congr fun x _ => ?_
      cases hbeq : x.1 == k <;> simp [hbeq]
    have htail : (xs.filter fun x => (k :: ks).elem x.1).filter (fun x => !x.1 == k) =
        xs.filter fun x => ks.elem x.1 := by
      rw [List.filter_filter]
      refine List.filter_congr fun x _ => ?_
      cases hbeq : x.1 == k with
      | true => simp [eq_of_beq hbeq, hk]
      | false => simp [hbeq]
    have hperm := List.filter_append_perm (fun x : κ × ν => x.1 == k)
      (xs.filter fun x => (k :: ks).elem x.1)
    rw [hhead, htail] at hperm
    exact ((ih hnodup).append_left _).trans hperm

/-- The groups hold each addition, once. -/
theorem groups_perm (xs : List (κ × ν)) :
    ((groups xs).flatMap fun group => group.2.map fun v => (group.1, v)).Perm xs := by
  have hmembers : ∀ k, (members xs k).map (fun v => (k, v)) = xs.filter (·.1 == k) := by
    intro k
    rw [members, List.map_map, List.map_congr_left (g := id), List.map_id]
    intro x hx
    rw [← eq_of_beq (List.mem_filter.1 hx).2]
    rfl
  have hall : (xs.filter fun x => (keys xs).elem x.1) = xs := by
    rw [List.filter_eq_self]
    intro x hx
    exact List.elem_iff.2 (mem_keys_iff.2 ⟨x.2, hx⟩)
  have hperm := flatMap_filter_perm (nodup_keys xs) xs
  rw [hall] at hperm
  simpa only [groups, List.flatMap_map, hmembers] using hperm

end AgentValet.Base.Grouping
