import AgentValet.Broker.Fingerprint
import AgentValet.Broker.Types
import AgentValet.Lang.JsStrings

namespace AgentValet.Broker
open Base Lang Lang.JavaScript

def jsonInt (n : ℤ) : JsString :=
  if n < 0 then unit '-' :: decimal n.natAbs else decimal n.natAbs

def jsonString (s : String) : JsString := stringify (JsString.ofChars s.toList)

def jsonArray (items : List JsString) : JsString :=
  unit '[' :: PrefixCode.joined (unit ',') items ++ [unit ']']

def jsonObject (fields : List (JsString × JsString)) : JsString :=
  unit '\x7b' :: PrefixCode.joined (unit ',') (fields.map fieldText) ++ [unit '\x7d']

/-- What is made of integers and strings by lists and objects. -/
inductive JsonText : JsString → Prop where
  | int (n : ℤ) : JsonText (jsonInt n)
  | string (s : JsString) : JsonText (stringify s)
  | list (items : List JsString) (h : ∀ t ∈ items, JsonText t) : JsonText (jsonArray items)
  | object (fields : List (JsString × JsString)) (h : ∀ p ∈ fields, JsonText p.2) :
    JsonText (jsonObject fields)

def Effect.text : Effect → String
  | .allow => "allow"
  | .deny => "deny"
  | .requireApproval => "require_approval"

def Outcome.text : Outcome → String
  | .allowed => "allowed"
  | .denied => "denied"
  | .approvalTimeout => "approval_timeout"
  | .approvalDenied => "approval_denied"
  | .handlerError => "handler_error"

def field (key : String) (text : JsString) : JsString × JsString := (ascii key, text)

def optional {α : Type} (key : String) (text : α → JsString) (v : Option α) :
    List (JsString × JsString) :=
  (v.map fun a => field key (text a)).toList

def jsonStrings (l : List String) : JsString := jsonArray (l.map jsonString)

def Subject.text (subject : Subject) : JsString :=
  jsonObject ([field "id" (jsonString subject.id),
    field "sessionId" (jsonString subject.sessionId)] ++
    optional "spiffeId" jsonString subject.spiffeId)

def Resource.text (resource : Resource) : JsString :=
  jsonObject [field "server" (jsonString resource.server),
    field "tool" (jsonString resource.tool)]

def AuditDecision.text (decision : AuditDecision) : JsString :=
  jsonObject [field "effect" (jsonString decision.effect.text),
    field "policyId" (jsonString decision.policyId),
    field "version" (jsonString decision.version)]

/-- The fields in the order in which the pipeline puts them into the event. -/
def AuditEvent.fields (event : AuditEvent) : List (JsString × JsString) :=
  [field "schemaVersion" (jsonInt event.schemaVersion),
    field "ts" (jsonString event.ts),
    field "subject" event.subject.text,
    field "resource" event.resource.text,
    field "action" (jsonString event.action),
    field "argsFingerprint" (jsonString event.argsFingerprint),
    field "decision" event.decision.text,
    field "transport" (jsonString event.transport),
    field "latencyMs" (jsonInt event.latencyMs),
    field "outcome" (jsonString event.outcome.text)] ++
  (optional "credentialScope" jsonStrings event.credentialScope ++
    (optional "warnings" jsonStrings event.warnings ++
      optional "error" jsonString event.error))

/-- `JSON.stringify(event)` -/
def AuditEvent.text (event : AuditEvent) : JsString := jsonObject event.fields

/-- A unit that is neither a line break nor half of a pair. -/
def Plain (u : CodeUnit) : Prop := u ≠ unit '\n' ∧ (isLead u || isTrail u) = false

instance : DecidablePred Plain := fun u => inferInstanceAs (Decidable (u ≠ unit '\n' ∧ _))

/-- What holds of plain units and of pairs holds of what they make up. -/
structure Composes (P : JsString → Prop) : Prop where
  nil : P []
  append : ∀ {s t : JsString}, P s → P t → P (s ++ t)
  plain : ∀ {u : CodeUnit}, Plain u → P [u]
  pair : ∀ {u v : CodeUnit}, isLead u = true → isTrail v = true → P [u, v]

theorem plain_hexDigit (n : ℕ) : Plain (hexDigit (n % 16)) := by
  have hdigits : ∀ d < 16, Plain (hexDigit d) := by decide
  exact hdigits _ (Nat.mod_lt n (by decide))

theorem plain_letter {u v : CodeUnit} (h : escapeLetter? u = some v) : Plain v := by
  unfold escapeLetter? at h
  split_ifs at h <;> (obtain rfl := Option.some.inj h; decide)

theorem plain_escapeUnit (u : CodeUnit) : ∀ v ∈ escapeUnit u, Plain v := by
  have hfront : Plain (unit '\\') ∧ Plain (unit 'u') := by decide
  unfold escapeUnit
  split
  next letter hletter => simp [hfront, plain_letter hletter]
  next hletter =>
    split_ifs with hhex
    · simp [hex4, hfront, plain_hexDigit]
    · simp only [Bool.or_eq_true, not_or, Bool.not_eq_true] at hhex
      intro v hv
      obtain rfl := List.mem_singleton.1 hv
      refine ⟨?_, by rw [hhex.1.2, hhex.2]; rfl⟩
      rintro rfl
      exact absurd hletter (by decide)

theorem jsonInt_units (n : ℤ) : ∀ u ∈ jsonInt n, u ∈ numberUnits := by
  have hdigit : ∀ d < 10, hexDigit d ∈ numberUnits := by decide
  have hdecimal : ∀ m, ∀ u ∈ decimal m, u ∈ numberUnits := by
    intro m u hu
    obtain ⟨d, hd, rfl⟩ := decimal_digit hu
    exact hdigit d hd
  intro u hu
  rw [jsonInt] at hu
  split_ifs at hu
  · obtain rfl | hu := List.mem_cons.1 hu
    · decide
    · exact hdecimal _ u hu
  · exact hdecimal _ u hu

theorem plain_jsonInt (n : ℤ) : ∀ u ∈ jsonInt n, Plain u := by
  have hall : numberUnits.all (fun u => decide (Plain u)) = true := by decide
  exact fun u hu => of_decide_eq_true (List.all_eq_true.1 hall u (jsonInt_units n u hu))

namespace Composes
variable {P : JsString → Prop} (hP : Composes P)
include hP

theorem plains {s : JsString} (h : ∀ u ∈ s, Plain u) : P s := by
  induction s with
  | nil => exact hP.nil
  | cons u s ih =>
    exact hP.append (hP.plain (h u List.mem_cons_self)) (ih fun v hv =>
      h v (List.mem_cons_of_mem u hv))

theorem escape (s : JsString) : P (JavaScript.escape s) := by
  induction s using JavaScript.escape.induct with
  | case1 => exact hP.nil
  | case2 u => exact hP.plains (plain_escapeUnit u)
  | case3 u v rest hpair ih =>
    rw [JavaScript.escape, if_pos hpair]
    rw [Bool.and_eq_true] at hpair
    exact hP.append (hP.pair hpair.1 hpair.2) ih
  | case4 u v rest hpair ih =>
    rw [JavaScript.escape, if_neg hpair]
    exact hP.append (hP.plains (plain_escapeUnit u)) ih

theorem stringify (s : JsString) : P (JavaScript.stringify s) := by
  have hquote : P [unit '"'] := hP.plain (by decide)
  exact hP.append (hP.append hquote (hP.escape s)) hquote

theorem joined {items : List JsString} (h : ∀ t ∈ items, P t) :
    P (PrefixCode.joined (unit ',') items) := by
  cases items with
  | nil => exact hP.nil
  | cons t items =>
    obtain ⟨ht, hitems⟩ := List.forall_mem_cons.1 h
    refine hP.append ht ?_
    induction items with
    | nil => exact hP.nil
    | cons t' items ih =>
      obtain ⟨ht', hitems⟩ := List.forall_mem_cons.1 hitems
      have hcomma : P [unit ','] := hP.plain (by decide)
      exact hP.append (hP.append hcomma ht')
        (ih (List.forall_mem_cons.2 ⟨ht, hitems⟩) hitems)

theorem jsonText {t : JsString} (h : JsonText t) : P t := by
  have hunits : ∀ {u : CodeUnit}, Plain u → P [u] := hP.plain
  induction h with
  | int n => exact hP.plains (plain_jsonInt n)
  | string s => exact hP.stringify s
  | list items _ ih =>
    exact hP.append (hP.append (hunits (by decide : Plain (unit '['))) (hP.joined ih))
      (hunits (by decide : Plain (unit ']')))
  | object fields _ ih =>
    have hfields : ∀ t ∈ fields.map fieldText, P t := by
      intro t ht
      obtain ⟨p, hp, rfl⟩ := List.mem_map.1 ht
      exact hP.append (hP.stringify p.1)
        (hP.append (hunits (by decide : Plain (unit ':'))) (ih p hp))
    exact hP.append (hP.append (hunits (by decide : Plain (unit '\x7b'))) (hP.joined hfields))
      (hunits (by decide : Plain (unit '\x7d')))

end Composes

theorem JsonText.notMem {t : JsString} (h : JsonText t) : unit '\n' ∉ t := by
  refine @Composes.jsonText (unit '\n' ∉ ·) ⟨List.not_mem_nil, ?_, ?_, ?_⟩ _ h
  · intro s t hs ht hmem
    exact (List.mem_append.1 hmem).elim hs ht
  · intro u hu hmem
    exact hu.1 (List.mem_singleton.1 hmem).symm
  · intro u v hu hv hmem
    have hhalves : ¬ isLead (unit '\n') = true ∧ ¬ isTrail (unit '\n') = true := by decide
    obtain rfl | hmem := List.mem_cons.1 hmem
    · exact hhalves.1 hu
    · obtain rfl := List.mem_singleton.1 hmem
      exact hhalves.2 hv

theorem JsonText.formed {t : JsString} (h : JsonText t) : JsString.Formed t := by
  refine @Composes.jsonText JsString.Formed ⟨⟨[], rfl⟩, JsString.Formed.append, ?_, ?_⟩ _ h
  · exact fun hu => ⟨_, (JsString.ofChars_single hu.2).symm⟩
  · exact fun hu hv => ⟨_, (JsString.ofChars_paired hu hv).symm⟩

theorem jsonInt_ne_nil (n : ℤ) : jsonInt n ≠ [] := by
  have hdecimal : ∀ m, decimal m ≠ [] := by
    intro m
    unfold decimal
    split_ifs with h
    · exact List.cons_ne_nil _ _
    · simpa [Nat.digits_eq_nil_iff_eq_zero] using h
  rw [jsonInt]
  split_ifs
  · exact List.cons_ne_nil _ _
  · exact hdecimal _

theorem jsonInt_injective : Function.Injective jsonInt := by
  have hhead : ∀ m k, decimal m ≠ unit '-' :: decimal k := by
    intro m k h
    obtain ⟨d, hd, hu⟩ := decimal_digit (h ▸ List.mem_cons_self)
    have hother : ∀ d < 10, unit '-' ≠ hexDigit d := by decide
    exact hother d hd hu
  intro m n h
  rw [jsonInt, jsonInt] at h
  split_ifs at h with hm hn hn
  · have habs := decimal_injective (List.cons.inj h).2
    omega
  · exact absurd h.symm (hhead _ _)
  · exact absurd h (hhead _ _)
  · have habs := decimal_injective h
    omega

def kindOfText (t : JsString) : Option Kind := t.head?.bind kindOf

@[simp] theorem kindOfText_int (n : ℤ) : kindOfText (jsonInt n) = some .number := by
  obtain ⟨u, t, htext⟩ := List.exists_cons_of_ne_nil (jsonInt_ne_nil n)
  have hu : u ∈ numberUnits := jsonInt_units n u (htext ▸ List.mem_cons_self)
  rw [htext]
  exact kindOf_numberUnit u hu

@[simp] theorem kindOfText_stringify (s : JsString) : kindOfText (stringify s) = some .string := by
  have h : kindOf (unit '"') = some .string := by decide
  exact h

@[simp] theorem kindOfText_list (items : List JsString) :
    kindOfText (jsonArray items) = some .array := by
  have h : kindOf (unit '[') = some .array := by decide
  exact h

@[simp] theorem kindOfText_object (fields : List (JsString × JsString)) :
    kindOfText (jsonObject fields) = some .object := by
  have h : kindOf (unit '\x7b') = some .object := by decide
  exact h

theorem JsonText.kind_ne_none {t : JsString} (h : JsonText t) : kindOfText t ≠ none := by
  cases h <;> simp

theorem JsonText.kind_eq {x y r r' : JsString} (hx : JsonText x) (hy : JsonText y)
    (h : x ++ r = y ++ r') : kindOfText x = kindOfText y := by
  have hhead : ∀ {t : JsString}, JsonText t → ∀ s, (t ++ s).head? = t.head? := by
    intro t ht s
    cases t with
    | nil => exact absurd rfl ht.kind_ne_none
    | cons u t => rfl
  rw [kindOfText, kindOfText, ← hhead hx r, h, hhead hy r']

theorem JsonText.append_ne {t : JsString} (h : JsonText t) {u : CodeUnit} (hu : kindOf u = none)
    (r s : JsString) : t ++ r ≠ u :: s := by
  intro heq
  cases t with
  | nil => exact h.kind_ne_none rfl
  | cons v t =>
    obtain ⟨rfl, -⟩ := List.cons.inj heq
    exact h.kind_ne_none hu

theorem jsonArray_append_inj {xs ys : List JsString} (hxs : ∀ x ∈ xs, JsonText x)
    (hys : ∀ y ∈ ys, JsonText y)
    (hreads : ∀ x ∈ xs, ∀ y ∈ ys, PrefixCode.Reads Ends Eq id id x y) {r r' : JsString}
    (h : jsonArray xs ++ r = jsonArray ys ++ r') : xs = ys ∧ r = r' := by
  simp only [jsonArray, List.cons_append, List.append_assoc, List.nil_append, List.cons.injEq,
    true_and] at h
  have hjoined : PrefixCode.joined (unit ',') (xs.map id) ++ unit ']' :: r =
      PrefixCode.joined (unit ',') (ys.map id) ++ unit ']' :: r' := by
    rwa [List.map_id, List.map_id]
  obtain ⟨hsame, hrest⟩ := PrefixCode.joined_reads (by decide) (ends_cons (by decide))
    (ends_cons (by decide)) hreads
    (fun x hx s s' => (hxs x hx).append_ne (by decide) s' s)
    (fun y hy s s' => (hys y hy).append_ne (by decide) s' s) hjoined
  rw [List.forall₂_eq_eq_eq] at hsame
  exact ⟨hsame, hrest⟩

theorem jsonObject_append_inj {xs ys : List (JsString × JsString)}
    (hreads : ∀ p ∈ xs, ∀ q ∈ ys, PrefixCode.Reads Ends Eq id id p.2 q.2) {r r' : JsString}
    (h : jsonObject xs ++ r = jsonObject ys ++ r') : xs = ys ∧ r = r' := by
  simp only [jsonObject, List.cons_append, List.append_assoc, List.nil_append, List.cons.injEq,
    true_and] at h
  have hquote : ∀ (p : JsString × JsString) (t s : JsString),
      fieldText p ++ s ≠ unit '\x7d' :: t := by
    intro p t s heq
    have hhead : unit '"' = unit '\x7d' := (List.cons.inj heq).1
    exact absurd hhead (by decide)
  have hfield : ∀ p ∈ xs, ∀ q ∈ ys, PrefixCode.Reads Ends Eq fieldText fieldText p q := by
    intro p hp q hq s s' hs hs' heq
    simp only [fieldText, List.append_assoc, List.cons_append] at heq
    obtain ⟨hkey, hrest⟩ := stringify_append_inj heq
    obtain ⟨htext, htail⟩ := hreads p hp q hq hs hs' (List.cons.inj hrest).2
    exact ⟨Prod.ext hkey htext, htail⟩
  obtain ⟨hsame, hrest⟩ := PrefixCode.joined_reads (by decide) (ends_cons (by decide))
    (ends_cons (by decide)) hfield (fun p _ => hquote p) (fun q _ => hquote q) h
  rw [List.forall₂_eq_eq_eq] at hsame
  exact ⟨hsame, hrest⟩

/-- Two JSON texts before something that cannot go on with a number. -/
theorem JsonText.reads {x y : JsString} (hx : JsonText x) (hy : JsonText y) :
    PrefixCode.Reads Ends Eq id id x y := by
  intro r r' hr hr' h
  have hkind := hx.kind_eq hy h
  induction hx generalizing y r r' with
  | int m =>
    cases hy with
    | int n =>
      exact PrefixCode.append_inj_of_tokens (jsonInt_units m) (jsonInt_units n) hr hr' h
    | _ => simp at hkind
  | string s =>
    cases hy with
    | string t =>
      obtain ⟨rfl, hrest⟩ := stringify_append_inj h
      exact ⟨rfl, hrest⟩
    | _ => simp at hkind
  | list items hitems ih =>
    cases hy with
    | list items' hitems' =>
      obtain ⟨rfl, hrest⟩ := jsonArray_append_inj hitems hitems'
        (fun t ht t' ht' s s' hs hs' heq => ih t ht (hitems' t' ht') hs hs' heq
          ((hitems t ht).kind_eq (hitems' t' ht') heq)) h
      exact ⟨rfl, hrest⟩
    | _ => simp at hkind
  | object fields hfields ih =>
    cases hy with
    | object fields' hfields' =>
      obtain ⟨rfl, hrest⟩ := jsonObject_append_inj
        (fun p hp q hq s s' hs hs' heq => ih p hp (hfields' q hq) hs hs' heq
          ((hfields p hp).kind_eq (hfields' q hq) heq)) h
      exact ⟨rfl, hrest⟩
    | _ => simp at hkind

theorem jsonArray_inj {xs ys : List JsString} (hxs : ∀ x ∈ xs, JsonText x)
    (hys : ∀ y ∈ ys, JsonText y) (h : jsonArray xs = jsonArray ys) : xs = ys :=
  (jsonArray_append_inj hxs hys (fun x hx y hy => (hxs x hx).reads (hys y hy))
    (congrArg (· ++ []) h)).1

theorem jsonObject_inj {xs ys : List (JsString × JsString)} (hxs : ∀ p ∈ xs, JsonText p.2)
    (hys : ∀ q ∈ ys, JsonText q.2) (h : jsonObject xs = jsonObject ys) : xs = ys :=
  (jsonObject_append_inj (fun p hp q hq => (hxs p hp).reads (hys q hq))
    (congrArg (· ++ []) h)).1

theorem jsonString_injective : Function.Injective jsonString := by
  intro s t h
  exact String.toList_inj.1
    (JsString.ofChars_injective (stringify_append_inj (congrArg (· ++ []) h)).1)

theorem jsonString_jsonText (s : String) : JsonText (jsonString s) := .string _

theorem jsonStrings_jsonText (l : List String) : JsonText (jsonStrings l) := by
  refine .list _ fun t ht => ?_
  obtain ⟨s, -, rfl⟩ := List.mem_map.1 ht
  exact jsonString_jsonText s

theorem jsonStrings_injective : Function.Injective jsonStrings := by
  have hitems : ∀ l : List String, ∀ t ∈ l.map jsonString, JsonText t := by
    intro l t ht
    obtain ⟨s, -, rfl⟩ := List.mem_map.1 ht
    exact jsonString_jsonText s
  intro l l' h
  exact List.map_injective_iff.2 jsonString_injective (jsonArray_inj (hitems l) (hitems l') h)

theorem optional_jsonText {α : Type} {key : String} {text : α → JsString}
    (h : ∀ a, JsonText (text a)) (v : Option α) : ∀ p ∈ optional key text v, JsonText p.2 := by
  intro p hp
  cases v with
  | none => cases hp
  | some a =>
    obtain rfl := List.mem_singleton.1 hp
    exact h a

/-- An optional field is told from what comes behind it by its key. -/
theorem optional_append_inj {α : Type} {key : String} {text : α → JsString}
    (htext : Function.Injective text) {v w : Option α} {l l' : List (JsString × JsString)}
    (hl : ∀ p ∈ l, p.1 ≠ ascii key) (hl' : ∀ p ∈ l', p.1 ≠ ascii key)
    (h : optional key text v ++ l = optional key text w ++ l') : v = w ∧ l = l' := by
  cases v with
  | none =>
    cases w with
    | none => exact ⟨rfl, h⟩
    | some b =>
      obtain rfl : l = field key (text b) :: l' := h
      exact absurd rfl (hl _ List.mem_cons_self)
  | some a =>
    cases w with
    | none =>
      obtain rfl : field key (text a) :: l = l' := h
      exact absurd rfl (hl' _ List.mem_cons_self)
    | some b =>
      obtain ⟨hfield, hrest⟩ := List.cons.inj h
      rw [htext (Prod.mk.inj hfield).2]
      exact ⟨rfl, hrest⟩

theorem optional_inj {α : Type} {key : String} {text : α → JsString}
    (htext : Function.Injective text) {v w : Option α}
    (h : optional key text v = optional key text w) : v = w := by
  have happend : optional key text v ++ [] = optional key text w ++ [] := congrArg (· ++ []) h
  exact (optional_append_inj htext (by simp) (by simp) happend).1

theorem optional_key {α : Type} {key : String} {text : α → JsString} {v : Option α} :
    ∀ p ∈ optional key text v, p.1 = ascii key := by
  intro p hp
  cases v with
  | none => cases hp
  | some a =>
    obtain rfl := List.mem_singleton.1 hp
    rfl

theorem Subject.text_jsonText (subject : Subject) : JsonText subject.text := by
  refine .object _ (List.forall_mem_append.2 ⟨?_, optional_jsonText jsonString_jsonText _⟩)
  simp [field, jsonString_jsonText]

theorem Subject.text_injective : Function.Injective Subject.text := by
  rintro ⟨id, spiffeId, sessionId⟩ ⟨id', spiffeId', sessionId'⟩ h
  have hfields := jsonObject_inj
    (List.forall_mem_append.2 ⟨by simp [field, jsonString_jsonText],
      optional_jsonText jsonString_jsonText _⟩)
    (List.forall_mem_append.2 ⟨by simp [field, jsonString_jsonText],
      optional_jsonText jsonString_jsonText _⟩) h
  obtain ⟨hplain, hoptional⟩ := List.append_inj hfields rfl
  simp only [field, List.cons.injEq, Prod.mk.injEq, true_and, and_true,
    jsonString_injective.eq_iff] at hplain
  obtain rfl := optional_inj jsonString_injective hoptional
  rw [hplain.1, hplain.2]

theorem Resource.text_jsonText (resource : Resource) : JsonText resource.text :=
  .object _ (by simp [field, jsonString_jsonText])

theorem Resource.text_injective : Function.Injective Resource.text := by
  rintro ⟨server, tool⟩ ⟨server', tool'⟩ h
  have hfields := jsonObject_inj (by simp [field, jsonString_jsonText])
    (by simp [field, jsonString_jsonText]) h
  simp only [field, List.cons.injEq, Prod.mk.injEq, true_and, and_true,
    jsonString_injective.eq_iff] at hfields
  rw [hfields.1, hfields.2]

theorem Effect.text_injective : Function.Injective Effect.text := by
  intro e e' h
  cases e <;> cases e' <;> first | rfl | exact absurd h (by decide)

theorem Outcome.text_injective : Function.Injective Outcome.text := by
  intro o o' h
  cases o <;> cases o' <;> first | rfl | exact absurd h (by decide)

theorem AuditDecision.text_jsonText (decision : AuditDecision) : JsonText decision.text :=
  .object _ (by simp [field, jsonString_jsonText])

theorem AuditDecision.text_injective : Function.Injective AuditDecision.text := by
  rintro ⟨effect, policyId, version⟩ ⟨effect', policyId', version'⟩ h
  have hfields := jsonObject_inj (by simp [field, jsonString_jsonText])
    (by simp [field, jsonString_jsonText]) h
  simp only [field, List.cons.injEq, Prod.mk.injEq, true_and, and_true,
    jsonString_injective.eq_iff, Effect.text_injective.eq_iff] at hfields
  rw [hfields.1, hfields.2.1, hfields.2.2]

theorem AuditEvent.fields_jsonText (event : AuditEvent) : ∀ p ∈ event.fields, JsonText p.2 := by
  refine List.forall_mem_append.2 ⟨?_, List.forall_mem_append.2 ⟨?_, List.forall_mem_append.2
    ⟨?_, ?_⟩⟩⟩
  · simp [field, jsonString_jsonText, Subject.text_jsonText, Resource.text_jsonText,
      AuditDecision.text_jsonText, JsonText.int]
  · exact optional_jsonText jsonStrings_jsonText _
  · exact optional_jsonText jsonStrings_jsonText _
  · exact optional_jsonText jsonString_jsonText _

theorem AuditEvent.text_jsonText (event : AuditEvent) : JsonText event.text :=
  .object _ event.fields_jsonText

/-- What stands in the log says which event it is. -/
theorem AuditEvent.text_injective : Function.Injective AuditEvent.text := by
  rintro ⟨schema, ts, subject, resource, action, print, decision, scope, transport, latency,
    outcome, warnings, error⟩ ⟨schema', ts', subject', resource', action', print', decision',
    scope', transport', latency', outcome', warnings', error'⟩ h
  have hfields := jsonObject_inj (AuditEvent.fields_jsonText _) (AuditEvent.fields_jsonText _) h
  obtain ⟨hplain, hoptional⟩ := List.append_inj hfields rfl
  simp only [field, List.cons.injEq, Prod.mk.injEq, true_and, and_true,
    jsonString_injective.eq_iff, jsonInt_injective.eq_iff, Int.natCast_inj,
    Subject.text_injective.eq_iff, Resource.text_injective.eq_iff,
    AuditDecision.text_injective.eq_iff, Outcome.text_injective.eq_iff] at hplain
  -- the keys of the optional fields differ, so they are told apart from the front
  have hscope : ∀ (w : Option (List String)) (e : Option String),
      ∀ p ∈ optional "warnings" jsonStrings w ++ optional "error" jsonString e,
        p.1 ≠ ascii "credentialScope" := by
    intro w e p hp
    obtain hp | hp := List.mem_append.1 hp
    · rw [optional_key p hp]
      decide
    · rw [optional_key p hp]
      decide
  have hwarnings : ∀ (e : Option String), ∀ p ∈ optional "error" jsonString e,
      p.1 ≠ ascii "warnings" := by
    intro e p hp
    rw [optional_key p hp]
    decide
  obtain ⟨rfl, hoptional⟩ := optional_append_inj jsonStrings_injective (hscope _ _) (hscope _ _)
    hoptional
  obtain ⟨rfl, hoptional⟩ := optional_append_inj jsonStrings_injective (hwarnings _) (hwarnings _)
    hoptional
  obtain rfl := optional_inj jsonString_injective hoptional
  obtain ⟨rfl, rfl, rfl, rfl, rfl, rfl, rfl, rfl, rfl, rfl⟩ := hplain
  rfl

def AuditEvent.bytes (event : AuditEvent) : Bytes := JsString.utf8 event.text

/-- A line of the log stands on a line of its own. -/
theorem AuditEvent.notMem_bytes (event : AuditEvent) : 10 ∉ event.bytes :=
  JsString.notMem_utf8 event.text_jsonText.notMem

theorem AuditEvent.bytes_injective : Function.Injective AuditEvent.bytes := fun event event' h =>
  AuditEvent.text_injective (event.text_jsonText.formed.eq_of_utf8 event'.text_jsonText.formed h)

end AgentValet.Broker
