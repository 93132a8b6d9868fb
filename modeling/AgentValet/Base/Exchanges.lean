import AgentValet.Base.Dialogue

namespace AgentValet.Base.Program
variable {Q A ε α β : Type}

/-- The program can end this way after these exchanges. -/
inductive Runs : Program Q A ε α → List (Q × A) → Outcome ε α → Prop where
  | returned (a : α) : Runs (.returned a) [] (.returned a)
  | threw (e : ε) : Runs (.threw e) [] (.threw e)
  | unfinished : Runs .unfinished [] .unfinished
  | ask {q : Q} {k : A → Program Q A ε α} {a : A} {log : List (Q × A)} {o : Outcome ε α} :
    Runs (k a) log o → Runs (.ask q k) ((q, a) :: log) o

/-- The run in surroundings that answer each question always the same. -/
def talk (answer : Q → A) : Program Q A ε α → List (Q × A) × Outcome ε α
  | returned a => ([], .returned a)
  | threw e => ([], .threw e)
  | unfinished => ([], .unfinished)
  | ask q k => ((q, answer q) :: (talk answer (k (answer q))).1, (talk answer (k (answer q))).2)

theorem runs_talk (answer : Q → A) (p : Program Q A ε α) :
    Runs p (p.talk answer).1 (p.talk answer).2 := by
  induction p with
  | returned a => exact .returned a
  | threw e => exact .threw e
  | unfinished => exact .unfinished
  | ask q k ih => exact .ask (ih _)

theorem runs_bind {p : Program Q A ε α} {f : α → Program Q A ε β} {log : List (Q × A)}
    {o : Outcome ε β} (h : Runs (p >>= f) log o) :
    (∃ a before after, log = before ++ after ∧ Runs p before (.returned a) ∧ Runs (f a) after o) ∨
      (∃ e, o = .threw e ∧ Runs p log (.threw e)) ∨ o = .unfinished ∧ Runs p log .unfinished := by
  change Runs (p.bind f) log o at h
  induction p generalizing log with
  | returned a => exact Or.inl ⟨a, [], log, rfl, .returned a, h⟩
  | threw e =>
    cases h
    exact Or.inr (Or.inl ⟨e, rfl, .threw e⟩)
  | unfinished =>
    cases h
    exact Or.inr (Or.inr ⟨rfl, .unfinished⟩)
  | ask q k ih =>
    cases h with
    | ask h =>
      obtain ⟨a, before, after, rfl, hp, hf⟩ | ⟨e, rfl, hp⟩ | ⟨rfl, hp⟩ := ih _ h
      · exact Or.inl ⟨a, _, after, rfl, .ask hp, hf⟩
      · exact Or.inr (Or.inl ⟨e, rfl, .ask hp⟩)
      · exact Or.inr (Or.inr ⟨rfl, .ask hp⟩)

theorem runs_query_bind {q : Q} {read : A → α} {f : α → Program Q A ε β} {log : List (Q × A)}
    {o : Outcome ε β} (h : Runs (query q read >>= f) log o) :
    ∃ a log', log = (q, a) :: log' ∧ Runs (f (read a)) log' o := by
  change Runs (.ask q fun a => f (read a)) log o at h
  cases h with
  | ask h => exact ⟨_, _, rfl, h⟩

theorem runs_ofExcept_bind {r : Except ε α} {f : α → Program Q A ε β} {log : List (Q × A)}
    {o : Outcome ε β} (h : Runs (ofExcept r >>= f) log o) :
    (∃ a, r = .ok a ∧ Runs (f a) log o) ∨ ∃ e, r = .error e ∧ log = [] ∧ o = .threw e := by
  cases r with
  | ok a => exact Or.inl ⟨a, rfl, h⟩
  | error e =>
    change Runs (.threw e) log o at h
    cases h
    exact Or.inr ⟨e, rfl, rfl, rfl⟩

/-- Ask, and go on unless the answer is an exception. -/
def call (q : Q) (read : A → Except ε α) : Program Q A ε α := do
  let answer ← query q read
  ofExcept answer

theorem runs_call_bind {q : Q} {read : A → Except ε α} {f : α → Program Q A ε β}
    {log : List (Q × A)} {o : Outcome ε β} (h : Runs (call q read >>= f) log o) :
    ∃ a log', log = (q, a) :: log' ∧
      ((∃ x, read a = .ok x ∧ Runs (f x) log' o) ∨ ∃ err, log' = [] ∧ o = .threw err) := by
  obtain ⟨a, log', rfl, hrest⟩ := @runs_query_bind _ _ _ _ _ q read
    (fun r => ofExcept r >>= f) _ _ h
  obtain ⟨x, hx, hf⟩ | ⟨err, -, rfl, rfl⟩ := runs_ofExcept_bind hrest
  · exact ⟨a, log', rfl, Or.inl ⟨x, hx, hf⟩⟩
  · exact ⟨a, [], rfl, Or.inr ⟨err, rfl, rfl⟩⟩

section
variable {asks : Q → Prop} {ret : β → Prop} {f : α → Program Q A ε β} {q : Q}

theorem Sat.query_bind {read : A → α} (hq : asks q)
    (hf : ∀ a, (f (read a)).Sat asks ret fun _ => True) :
    (Program.query q read >>= f).Sat asks ret fun _ => True := ⟨hq, hf⟩

theorem Sat.ofExcept_bind {r : Except ε α}
    (hf : ∀ x, r = .ok x → (f x).Sat asks ret fun _ => True) :
    (ofExcept r >>= f).Sat asks ret fun _ => True := by
  cases r with
  | ok x => exact hf x rfl
  | error err => trivial

theorem Sat.call_bind {read : A → Except ε α} (hq : asks q)
    (hf : ∀ a x, read a = .ok x → (f x).Sat asks ret fun _ => True) :
    (call q read >>= f).Sat asks ret fun _ => True :=
  ⟨hq, fun a => Sat.ofExcept_bind (hf a)⟩

theorem Sat.call {read : A → Except ε α} (hq : asks q) :
    (call q read).Sat asks (fun _ => True) fun _ => True := by
  refine ⟨hq, fun a => ?_⟩
  change (ofExcept (read a)).Sat _ _ _
  cases read a with
  | ok x => trivial
  | error err => trivial

end

theorem total_ofExcept (r : Except ε α) : (ofExcept r : Program Q A ε α).Total := by
  cases r with
  | ok a => trivial
  | error e => trivial

theorem total_call (q : Q) (read : A → Except ε α) : (call q read).Total :=
  fun _ => total_ofExcept _

theorem Total.attempt {p : Program Q A ε α} (hp : p.Total) : p.attempt.Total := by
  induction p with
  | returned a => trivial
  | threw e => trivial
  | unfinished => exact hp
  | ask q k ih => exact fun a => ih a (hp a)

/-- What follows need only end after the values that come. -/
theorem Total.bind_of_sat {asks : Q → Prop} {ret : α → Prop} {exc : ε → Prop}
    {p : Program Q A ε α} {f : α → Program Q A ε β} (hp : p.Total) (hsat : p.Sat asks ret exc)
    (hf : ∀ a, ret a → (f a).Total) : (p >>= f).Total := by
  change (p.bind f).Total
  induction p with
  | returned a => exact hf a hsat
  | threw e => trivial
  | unfinished => exact hp.elim
  | ask q k ih => exact fun a => ih a (hp a) (hsat.2 a)

theorem Total.runs {p : Program Q A ε α} (hp : p.Total) {log : List (Q × A)} {o : Outcome ε α}
    (h : Runs p log o) : o ≠ .unfinished := by
  induction h with
  | returned a => exact fun h => by cases h
  | threw e => exact fun h => by cases h
  | unfinished => exact hp.elim
  | ask hk ih => exact ih (hp _)

/-- Programs that agree have the same runs, but for what is not seen of their questions. -/
theorem Agree.runs {Q' : Type} {view : Q → Q'} {p p' : Program Q A ε α} (h : Agree view p p')
    {log : List (Q × A)} {o : Outcome ε α} (hrun : Runs p log o) :
    ∃ log', Runs p' log' o ∧ log'.map (Prod.map view id) = log.map (Prod.map view id) := by
  induction hrun generalizing p' with
  | returned a =>
    cases p' with
    | returned b =>
      obtain rfl : a = b := h
      exact ⟨[], .returned a, rfl⟩
    | _ => exact h.elim
  | threw e =>
    cases p' with
    | threw e' =>
      obtain rfl : e = e' := h
      exact ⟨[], .threw e, rfl⟩
    | _ => exact h.elim
  | unfinished =>
    cases p' with
    | unfinished => exact ⟨[], .unfinished, rfl⟩
    | _ => exact h.elim
  | ask hk ih =>
    cases p' with
    | ask q' k' =>
      obtain ⟨log', hlog', hmap⟩ := ih (h.2 _)
      exact ⟨_, .ask hlog', by simp [hmap, h.1]⟩
    | _ => exact h.elim

/-- After the exchanges `h`: each question is one that may come then, and what holds at the end is
`ret` or `exc`. -/
def Follows (may : List (Q × A) → Q → Prop) (ret : α → List (Q × A) → Prop)
    (exc : ε → List (Q × A) → Prop) : List (Q × A) → Program Q A ε α → Prop
  | h, returned a => ret a h
  | h, threw e => exc e h
  | _, unfinished => True
  | h, ask q k => may h q ∧ ∀ a, Follows may ret exc (h ++ [(q, a)]) (k a)

variable {may : List (Q × A) → Q → Prop} {ret : α → List (Q × A) → Prop}
  {exc : ε → List (Q × A) → Prop} {h : List (Q × A)}

@[simp] theorem follows_pure_iff {a : α} :
    (pure a : Program Q A ε α).Follows may ret exc h ↔ ret a h := Iff.rfl

@[simp] theorem follows_query_iff {q : Q} {read : A → α} :
    (query q read : Program Q A ε α).Follows may ret exc h ↔
      may h q ∧ ∀ a, ret (read a) (h ++ [(q, a)]) := Iff.rfl

@[simp] theorem follows_bind_iff {ret' : β → List (Q × A) → Prop} {p : Program Q A ε α}
    {f : α → Program Q A ε β} :
    (p >>= f).Follows may ret' exc h ↔
      p.Follows may (fun a h => (f a).Follows may ret' exc h) exc h := by
  change (p.bind f).Follows may ret' exc h ↔ _
  induction p generalizing h with
  | returned a => exact Iff.rfl
  | threw e => exact Iff.rfl
  | unfinished => exact Iff.rfl
  | ask q k ih => exact and_congr_right fun _ => forall_congr' fun a => ih a

@[simp] theorem follows_attempt_iff {exc' : ε → List (Q × A) → Prop}
    {ret' : Except ε α → List (Q × A) → Prop} {p : Program Q A ε α} :
    p.attempt.Follows may ret' exc' h ↔
      p.Follows may (fun a => ret' (.ok a)) (fun e => ret' (.error e)) h := by
  induction p generalizing h with
  | returned a => exact Iff.rfl
  | threw e => exact Iff.rfl
  | unfinished => exact Iff.rfl
  | ask q k ih => exact and_congr_right fun _ => forall_congr' fun a => ih a

theorem follows_ofExcept_iff {r : Except ε α} :
    (ofExcept r : Program Q A ε α).Follows may ret exc h ↔
      (∀ a, r = .ok a → ret a h) ∧ ∀ e, r = .error e → exc e h := by
  cases r with
  | ok a => simp [ofExcept, Follows]
  | error e => simp [ofExcept, Follows]

theorem follows_call_iff {q : Q} {read : A → Except ε α} :
    (call q read).Follows may ret exc h ↔ may h q ∧ ∀ a,
      (∀ x, read a = .ok x → ret x (h ++ [(q, a)])) ∧
        ∀ err, read a = .error err → exc err (h ++ [(q, a)]) := by
  simp only [call, follows_bind_iff, follows_query_iff, follows_ofExcept_iff]

theorem Follows.mono {may' : List (Q × A) → Q → Prop} {ret' : α → List (Q × A) → Prop}
    {exc' : ε → List (Q × A) → Prop} {p : Program Q A ε α} (hp : p.Follows may ret exc h)
    (hmay : ∀ h q, may h q → may' h q) (hret : ∀ a h, ret a h → ret' a h)
    (hexc : ∀ e h, exc e h → exc' e h) : p.Follows may' ret' exc' h := by
  induction p generalizing h with
  | returned a => exact hret a h hp
  | threw e => exact hexc e h hp
  | unfinished => trivial
  | ask q k ih => exact ⟨hmay h q hp.1, fun a => ih a (hp.2 a)⟩

/-- Where only questions among `asks` may come, only such have been asked. -/
theorem Follows.among {asks : Q → Prop} {p : Program Q A ε α} (hp : p.Follows may ret exc h)
    (hmay : ∀ h q, may h q → asks q) (hasked : ∀ x ∈ h, asks x.1) :
    p.Follows (fun h q => may h q ∧ ∀ x ∈ h, asks x.1) (fun a h => ret a h ∧ ∀ x ∈ h, asks x.1)
      (fun e h => exc e h ∧ ∀ x ∈ h, asks x.1) h := by
  induction p generalizing h with
  | returned a => exact ⟨hp, hasked⟩
  | threw e => exact ⟨hp, hasked⟩
  | unfinished => trivial
  | ask q k ih =>
    refine ⟨⟨hp.1, hasked⟩, fun a => ih a (hp.2 a) fun x hx => ?_⟩
    obtain hx | hx := List.mem_append.1 hx
    · exact hasked x hx
    · rw [List.mem_singleton.1 hx]
      exact hmay h q hp.1

/-- A protocol that starts after the exchanges `before`. -/
theorem Follows.after {p : Program Q A ε α} (hp : p.Follows may ret exc h) (before : List (Q × A)) :
    p.Follows (fun h' q => ∃ h, h' = before ++ h ∧ may h q)
      (fun a h' => ∃ h, h' = before ++ h ∧ ret a h) (fun e h' => ∃ h, h' = before ++ h ∧ exc e h)
      (before ++ h) := by
  induction p generalizing h with
  | returned a => exact ⟨h, rfl, hp⟩
  | threw e => exact ⟨h, rfl, hp⟩
  | unfinished => trivial
  | ask q k ih =>
    refine ⟨⟨h, rfl, hp.1⟩, fun a => ?_⟩
    rw [List.append_assoc]
    exact ih a (hp.2 a)

theorem Sat.follows {asks : Q → Prop} {ret : α → Prop} {exc : ε → Prop} {p : Program Q A ε α}
    (hp : p.Sat asks ret exc) (h : List (Q × A)) :
    p.Follows (fun _ q => asks q) (fun a _ => ret a) (fun e _ => exc e) h := by
  induction p generalizing h with
  | returned a => exact hp
  | threw e => exact hp
  | unfinished => trivial
  | ask q k ih => exact ⟨hp.1, fun a => ih a (hp.2 a) _⟩

theorem Sat.runs {asks : Q → Prop} {ret : α → Prop} {exc : ε → Prop} {p : Program Q A ε α}
    (hp : p.Sat asks ret exc) {log : List (Q × A)} {o : Outcome ε α} (hrun : Runs p log o) :
    o.Sat ret exc ∧ ∀ x ∈ log, asks x.1 := by
  induction hrun with
  | returned a => exact ⟨hp, by simp⟩
  | threw e => exact ⟨hp, by simp⟩
  | unfinished => exact ⟨trivial, by simp⟩
  | ask hk ih =>
    obtain ⟨hout, hlog⟩ := ih (hp.2 _)
    refine ⟨hout, fun x hx => ?_⟩
    obtain rfl | hx := List.mem_cons.1 hx
    · exact hp.1
    · exact hlog x hx

def Always (may : List (Q × A) → Q → Prop) (log : List (Q × A)) : Prop :=
  ∀ before q a after, log = before ++ (q, a) :: after → may before q

/-- What a program follows holds of each of its runs. -/
theorem Follows.runs {p : Program Q A ε α} (hp : p.Follows may ret exc h) {log : List (Q × A)}
    {o : Outcome ε α} (hrun : Runs p log o) :
    o.Sat (ret · (h ++ log)) (exc · (h ++ log)) ∧ Always (fun before => may (h ++ before)) log := by
  induction hrun generalizing h with
  | returned a => exact ⟨by rw [List.append_nil]; exact hp, by simp [Always]⟩
  | threw e => exact ⟨by rw [List.append_nil]; exact hp, by simp [Always]⟩
  | unfinished => exact ⟨trivial, by simp [Always]⟩
  | ask hk ih =>
    rename_i q k a log o
    obtain ⟨hout, hmay⟩ := ih (hp.2 a)
    refine ⟨by simpa using hout, fun before q' a' after hlog => ?_⟩
    cases before with
    | nil =>
      obtain ⟨⟨rfl, rfl⟩, rfl⟩ : (q = q' ∧ a = a') ∧ log = after := by simpa using hlog
      simpa using hp.1
    | cons x before =>
      obtain ⟨rfl, rfl⟩ := List.cons.inj hlog
      simpa using hmay before q' a' after rfl

end AgentValet.Base.Program
