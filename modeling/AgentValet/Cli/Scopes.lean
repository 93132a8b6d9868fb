import AgentValet.Base.Grouping
import AgentValet.Lang.Trim

namespace AgentValet.Cli
open Base Lang.JavaScript

/-- `s.slice(0, colon)` and `s.slice(colon + 1)`, if there is a colon. -/
def splitScope (s : String) : Option (String × String) :=
  match splitAt (· == ':') s.toList with
  | (platform, some scope) => some (String.ofList platform, String.ofList scope)
  | (_, none) => none

/-- The loop over the scopes; the exception is the scope it exits with. -/
def groupScopes (scopes : List String) : Except String (List (String × List String)) :=
  scopes.foldlM (fun scopeMap s =>
    match splitScope s with
    | some scope => .ok (Grouping.add scopeMap scope)
    | none => .error s) []

theorem splitScope_eq_some {s platform scope : String} (h : splitScope s = some (platform, scope)) :
    ':' ∉ platform.toList ∧ s = platform ++ ":" ++ scope := by
  rw [splitScope, splitAt] at h
  split at h
  · rename_i platform' scope' hsplit
    split at hsplit
    · cases hsplit
    · rename_i c rest hdrop
      obtain ⟨rfl, hrest⟩ := Prod.mk.inj hsplit
      obtain rfl : rest = scope' := Option.some.inj hrest
      obtain ⟨rfl, rfl⟩ := Prod.mk.inj (Option.some.inj h)
      have hc : (!(c == ':')) = false := by
        have hne : s.toList.dropWhile (fun c => !(c == ':')) ≠ [] := by simp [hdrop]
        have hhead := List.head_dropWhile_not _ hne
        simpa [hdrop] using hhead
      have hc : c = ':' := by simpa using hc
      constructor
      · intro hmem
        rw [String.toList_ofList] at hmem
        simpa using List.mem_takeWhile_imp hmem
      · rw [← String.toList_inj]
        have hs := List.takeWhile_append_dropWhile (p := fun c => !(c == ':')) (l := s.toList)
        rw [hdrop, hc] at hs
        simpa using hs.symm
  · cases h

theorem splitScope_eq_none_iff {s : String} : splitScope s = none ↔ ':' ∉ s.toList := by
  rw [splitScope, splitAt]
  cases hdrop : s.toList.dropWhile (fun c => !(c == ':')) with
  | nil =>
    have hall : ':' ∉ s.toList := fun hmem => by
      simpa using List.dropWhile_eq_nil_iff.1 hdrop _ hmem
    simp [hall]
  | cons c rest =>
    have hmem : ':' ∈ s.toList := by
      by_contra hnot
      rw [List.dropWhile_eq_nil_iff.2 fun c hc => by simp [ne_of_mem_of_not_mem hc hnot]] at hdrop
      cases hdrop
    simp [hmem]

theorem foldlM_scopes (scopes : List String) (m : List (String × List String)) :
    scopes.foldlM (fun scopeMap s =>
      match splitScope s with
      | some scope => Except.ok (Grouping.add scopeMap scope)
      | none => .error s) m =
    match scopes.find? fun s => (splitScope s).isNone with
    | some s => .error s
    | none => .ok ((scopes.filterMap splitScope).foldl Grouping.add m) := by
  induction scopes generalizing m with
  | nil => rfl
  | cons s scopes ih =>
    rw [List.foldlM_cons, List.find?_cons, List.filterMap_cons]
    cases hs : splitScope s with
    | none => rfl
    | some scope => exact ih _

/-- The loop gives up on the first scope without a colon, or groups them all. -/
theorem groupScopes_eq (scopes : List String) :
    groupScopes scopes =
      match scopes.find? fun s => (splitScope s).isNone with
      | some s => .error s
      | none => .ok (Grouping.groups (scopes.filterMap splitScope)) := by
  rw [groupScopes, foldlM_scopes]
  cases scopes.find? fun s => (splitScope s).isNone with
  | some s => rfl
  | none => rw [Grouping.foldl_add]

def written (platform scope : String) : String := platform ++ ":" ++ scope

theorem map_written {scopes : List String} (h : ∀ s ∈ scopes, (splitScope s).isNone = false) :
    (scopes.filterMap splitScope).map (fun x => written x.1 x.2) = scopes := by
  induction scopes with
  | nil => rfl
  | cons s scopes ih =>
    cases hs : splitScope s with
    | none =>
      have hsome := h s List.mem_cons_self
      rw [hs] at hsome
      cases hsome
    | some x =>
      rw [List.filterMap_cons_some hs, List.map_cons, written, ← (splitScope_eq_some hs).2,
        ih fun t ht => h t (List.mem_cons_of_mem _ ht)]

/-- What the loop exits with is the first scope without a colon.  Otherwise it sends each platform
once, in the order they were first asked for, each with its scopes in order, and none of the scopes
is lost or sent twice. -/
theorem groupScopes_spec (scopes : List String) :
    (∀ s, groupScopes scopes = .error s ↔
      scopes.find? (fun s => decide (':' ∉ s.toList)) = some s) ∧
    ∀ groups, groupScopes scopes = .ok groups →
      (groups.map Prod.fst).Nodup ∧
      groups = Grouping.groups (scopes.filterMap splitScope) ∧
      (∀ group ∈ groups, ':' ∉ group.1.toList ∧ group.2 ≠ []) ∧
      (groups.flatMap fun group => group.2.map (written group.1)).Perm scopes := by
  have hnone : (fun s => (splitScope s).isNone) = fun s => decide (':' ∉ s.toList) := by
    funext s
    rw [Bool.eq_iff_iff, Option.isNone_iff_eq_none, splitScope_eq_none_iff, decide_eq_true_eq]
  rw [← hnone, groupScopes_eq]
  cases hfind : scopes.find? fun s => (splitScope s).isNone with
  | some s => simp
  | none =>
    refine ⟨by simp, fun groups hgroups => ?_⟩
    obtain rfl := Except.ok.inj hgroups
    have hall : ∀ s ∈ scopes, (splitScope s).isNone = false := fun s hs =>
      Bool.eq_false_iff.2 (List.find?_eq_none.1 hfind s hs)
    refine ⟨?_, rfl, ?_, ?_⟩
    · rw [Grouping.map_fst_groups]
      exact Grouping.nodup_keys _
    · intro group hgroup
      obtain ⟨platform, hkey, rfl⟩ := List.mem_map.1 hgroup
      obtain ⟨scope, hmem⟩ := Grouping.mem_keys_iff.1 hkey
      obtain ⟨s, -, hs⟩ := List.mem_filterMap.1 hmem
      exact ⟨(splitScope_eq_some hs).1, Grouping.members_ne_nil hkey⟩
    · have hperm := (Grouping.groups_perm (scopes.filterMap splitScope)).map
        fun x => written x.1 x.2
      rw [map_written hall] at hperm
      simpa [List.map_flatMap, Function.comp_def] using hperm

/-- `scopesRaw.split(",").map((s) => s.trim()).filter(Boolean)` -/
def readScopes (scopesRaw : List Char) : List (List Char) :=
  ((scopesRaw.splitOn ',').map trim).filter fun s => !s.isEmpty

/-- `scopes.join(",")`, which the field starts with. -/
def suggested (scopes : List (List Char)) : List Char := [','].intercalate scopes

def Plain (s : List Char) : Prop := s ≠ [] ∧ trim s = s ∧ ',' ∉ s

/-- No part of a split text has a separator in it. -/
theorem not_sep_of_mem_splitOnP {p : Char → Bool} {text part : List Char}
    (h : part ∈ text.splitOnP p) : ∀ c ∈ part, p c = false := by
  induction text generalizing part with
  | nil =>
    rw [List.splitOnP_nil, List.mem_singleton] at h
    simp [h]
  | cons c text ih =>
    rw [List.splitOnP_cons_eq_if_modifyHead] at h
    split at h
    · obtain rfl | h := List.mem_cons.1 h
      · simp
      · exact ih h
    · rename_i hc
      cases hsplit : text.splitOnP p with
      | nil => exact absurd hsplit (List.splitOnP_ne_nil p text)
      | cons first rest =>
        rw [hsplit, List.modifyHead_cons] at h
        obtain rfl | h := List.mem_cons.1 h
        · intro d hd
          obtain rfl | hd := List.mem_cons.1 hd
          · simpa using hc
          · exact ih (hsplit ▸ List.mem_cons_self) d hd
        · exact ih (hsplit ▸ List.mem_cons_of_mem first h)

theorem plain_of_mem_readScopes {scopesRaw s : List Char} (h : s ∈ readScopes scopesRaw) :
    Plain s := by
  obtain ⟨hmem, hne⟩ := List.mem_filter.1 h
  obtain ⟨part, hpart, rfl⟩ := List.mem_map.1 hmem
  refine ⟨by simpa using hne, trim_trim part, fun hcomma => ?_⟩
  rw [List.splitOn_eq_splitOnP] at hpart
  have hcomma : ',' ∈ part := (dropEnds_infix_self isSpace part).subset hcomma
  simpa using not_sep_of_mem_splitOnP hpart ',' hcomma

/-- A suggestion that is accepted as it stands is read as the scopes it was made of, if the field
can hold these, and only then. -/
theorem readScopes_suggested_iff {scopes : List (List Char)} :
    readScopes (suggested scopes) = scopes ↔ ∀ s ∈ scopes, Plain s := by
  constructor
  · intro h s hs
    rw [← h] at hs
    exact plain_of_mem_readScopes hs
  · intro h
    cases scopes with
    | nil => decide
    | cons s scopes =>
      rw [readScopes, suggested, List.splitOn_intercalate ',' (fun s hs => (h s hs).2.2) (by simp),
        List.map_congr_left (g := id) fun s hs => (h s hs).2.1, List.map_id, List.filter_eq_self]
      intro s hs
      simpa using (h s hs).1

end AgentValet.Cli
