import Mathlib.Tactic.Common
import Mathlib.Data.List.Basic

namespace AgentValet.Base

/-- How a computation ended, and the calls it made on the way. -/
structure Logged (ε τ α : Type) where
  result : Except ε α
  log : List τ

namespace Logged
variable {ε τ κ α β : Type}

def bind (x : Logged ε τ α) (f : α → Logged ε τ β) : Logged ε τ β :=
  match x.result with
  | .ok a => ⟨(f a).result, x.log ++ (f a).log⟩
  | .error e => ⟨.error e, x.log⟩

instance : Monad (Logged ε τ) where
  pure a := ⟨.ok a, []⟩
  bind := bind

def call (c : τ) (answer : Except ε α) : Logged ε τ α := ⟨answer, [c]⟩

def ofExcept (r : Except ε α) : Logged ε τ α := ⟨r, []⟩

def throw (e : ε) : Logged ε τ α := ⟨.error e, []⟩

def attempt (x : Logged ε τ α) : Logged ε τ (Except ε α) := ⟨.ok x.result, x.log⟩

@[simp] theorem pure_result (a : α) : (pure a : Logged ε τ α).result = .ok a := rfl

@[simp] theorem pure_log (a : α) : (pure a : Logged ε τ α).log = [] := rfl

@[simp] theorem throw_result (e : ε) : (throw e : Logged ε τ α).result = .error e := rfl

@[simp] theorem throw_log (e : ε) : (throw e : Logged ε τ α).log = [] := rfl

@[simp] theorem call_result (c : τ) (r : Except ε α) : (call c r).result = r := rfl

@[simp] theorem call_log (c : τ) (r : Except ε α) : (call c r).log = [c] := rfl

@[simp] theorem ofExcept_result (r : Except ε α) : (ofExcept r : Logged ε τ α).result = r := rfl

@[simp] theorem ofExcept_log (r : Except ε α) : (ofExcept r : Logged ε τ α).log = [] := rfl

@[simp] theorem attempt_result (x : Logged ε τ α) : x.attempt.result = .ok x.result := rfl

theorem bind_of_ok {x : Logged ε τ α} {a : α} (h : x.result = .ok a) (f : α → Logged ε τ β) :
    x >>= f = ⟨(f a).result, x.log ++ (f a).log⟩ := by
  change bind x f = _
  simp [bind, h]

theorem bind_of_error {x : Logged ε τ α} {e : ε} (h : x.result = .error e)
    (f : α → Logged ε τ β) : x >>= f = ⟨.error e, x.log⟩ := by
  change bind x f = _
  simp [bind, h]

@[simp] theorem pure_bind' (a : α) (f : α → Logged ε τ β) : (pure a >>= f) = f a := by
  rw [bind_of_ok (pure_result a)]
  rfl

@[simp] theorem attempt_bind (x : Logged ε τ α) (f : Except ε α → Logged ε τ β) :
    (x.attempt >>= f) = ⟨(f x.result).result, x.log ++ (f x.result).log⟩ :=
  bind_of_ok (attempt_result x) f

@[simp] theorem call_ok_bind (c : τ) (a : α) (f : α → Logged ε τ β) :
    (call c (.ok a) >>= f) = ⟨(f a).result, c :: (f a).log⟩ :=
  bind_of_ok rfl f

@[simp] theorem call_error_bind (c : τ) (e : ε) (f : α → Logged ε τ β) :
    (call c (.error e) >>= f) = ⟨.error e, [c]⟩ :=
  bind_of_error rfl f

@[simp] theorem ofExcept_ok_bind (a : α) (f : α → Logged ε τ β) : (ofExcept (.ok a) >>= f) = f a :=
  pure_bind' a f

@[simp] theorem ofExcept_error_bind (e : ε) (f : α → Logged ε τ β) :
    (ofExcept (.error e) >>= f) = throw e :=
  bind_of_error rfl f

theorem bind_result (x : Logged ε τ α) (f : α → Logged ε τ β) :
    (x >>= f).result = x.result >>= fun a => (f a).result := by
  cases h : x.result with
  | ok a =>
    rw [bind_of_ok h]
    rfl
  | error e =>
    rw [bind_of_error h]
    rfl

/-- What makes no call adds nothing to the log. -/
theorem bind_log_of_silent (x : Logged ε τ α) {f : α → Logged ε τ β} (hf : ∀ a, (f a).log = []) :
    (x >>= f).log = x.log := by
  cases h : x.result with
  | ok a => rw [bind_of_ok h, hf, List.append_nil]
  | error e => rw [bind_of_error h]

/-- One computation goes on in two ways that make the same calls, but for those `keep` drops. -/
theorem bind_log_congr {keep : τ → Bool} (x : Logged ε τ α) {f g : α → Logged ε τ β}
    (hf : ∀ a, (f a).log.filter keep = (g a).log.filter keep) :
    (x >>= f).log.filter keep = (x >>= g).log.filter keep := by
  cases h : x.result with
  | ok a =>
    rw [bind_of_ok h, bind_of_ok h, List.filter_append, List.filter_append, hf a]
  | error e => rw [bind_of_error h, bind_of_error h]

/-- Two computations end alike and make the same calls, but for those `keep` drops. -/
def AgreeOn (keep : τ → Bool) (x y : Logged ε τ α) : Prop :=
  x.result = y.result ∧ x.log.filter keep = y.log.filter keep

variable {keep : τ → Bool}

theorem AgreeOn.refl (x : Logged ε τ α) : AgreeOn keep x x := ⟨rfl, rfl⟩

theorem AgreeOn.bind {x y : Logged ε τ α} {f g : α → Logged ε τ β} (h : AgreeOn keep x y)
    (hf : ∀ a, AgreeOn keep (f a) (g a)) : AgreeOn keep (x >>= f) (y >>= g) := by
  obtain ⟨hr, hl⟩ := h
  cases hx : x.result with
  | ok a =>
    rw [bind_of_ok hx, bind_of_ok (hr ▸ hx)]
    exact ⟨(hf a).1, by simp only [List.filter_append, hl, (hf a).2]⟩
  | error e =>
    rw [bind_of_error hx, bind_of_error (hr ▸ hx)]
    exact ⟨rfl, hl⟩

/-- A dropped call may be made by one side only. -/
theorem AgreeOn.attempt_call_bind {c : τ} {r : Except ε α} {f : Except ε α → Logged ε τ β}
    {y : Logged ε τ β} (hc : keep c = false) (h : AgreeOn keep (f r) y) :
    AgreeOn keep ((call c r).attempt >>= f) y := by
  rw [attempt_bind]
  exact ⟨h.1, by simpa [hc] using h.2⟩

theorem AgreeOn.call_ok_bind {c : τ} {a : α} {f : α → Logged ε τ β} {y : Logged ε τ β}
    (hc : keep c = false) (h : AgreeOn keep (f a) y) : AgreeOn keep (call c (.ok a) >>= f) y := by
  rw [Logged.call_ok_bind]
  exact ⟨h.1, by simpa [hc] using h.2⟩

theorem AgreeOn.call_error_bind {c : τ} {e : ε} {f : α → Logged ε τ β} (hc : keep c = false) :
    AgreeOn keep (call c (.error e) >>= f) (throw e) := by
  rw [Logged.call_error_bind]
  exact ⟨rfl, by simp [hc]⟩

/-- What is read off kept calls only is the same on both sides. -/
theorem AgreeOn.filterMap_eq {x y : Logged ε τ α} (h : AgreeOn keep x y) {f : τ → Option κ}
    (hf : ∀ c, keep c = false → f c = none) : x.log.filterMap f = y.log.filterMap f := by
  -- dropping the calls `keep` drops loses nothing that `f` reads
  have hkeep (l : List τ) : (l.filter keep).filterMap f = l.filterMap f := by
    rw [List.filterMap_filter]
    apply List.filterMap_congr
    intro c _
    cases hc : keep c with
    | true => simp
    | false => simp [hf c hc]
  rw [← hkeep x.log, ← hkeep y.log, h.2]

end Logged
end AgentValet.Base
