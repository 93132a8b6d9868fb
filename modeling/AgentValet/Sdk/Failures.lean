import AgentValet.Approvals.SdkParity
import AgentValet.Sdk.Errors

namespace AgentValet.Sdk
open Base Lang Approvals

def AllTyped {α : Type} (x : Option (Ended α)) : Prop := ∀ e, x = some e → Typed e

@[simp] theorem allTyped_none {α : Type} : AllTyped (none : Option (Ended α)) := nofun

@[simp] theorem allTyped_some {α : Type} {e : Ended α} : AllTyped (some e) ↔ Typed e :=
  ⟨fun h => h e rfl, fun h _ he => Option.some.inj he ▸ h⟩

@[simp] theorem typed_ok {α : Type} (a : α) : Typed (.ok a : Ended α) := trivial

@[simp] theorem typed_error {α : Type} (e : AgentValetError) :
    Typed (.error (.typed e) : Ended α) := trivial

@[simp] theorem not_typed_foreign {α : Type} (e : Foreign) :
    ¬ Typed (.error (.foreign e) : Ended α) := id

@[simp] theorem typed_caller {α : Type} (ofPackage : Bool) :
    Typed (.error (.caller ofPackage) : Ended α) ↔ ofPackage = true := Iff.rfl

@[simp] theorem typed_map {α β : Type} (f : α → β) (x : Ended α) : Typed (x.map f) ↔ Typed x := by
  rcases x with (e | e | b) | a <;> exact Iff.rfl

theorem typed_error_iff {α β : Type} {e : Thrown} :
    Typed (.error e : Ended α) ↔ Typed (.error e : Ended β) := by
  cases e <;> exact Iff.rfl

/-- The callback, if it throws, throws an error of the package. -/
def CallbackTame (told : Option Bool) : Prop := told ≠ some false

theorem orTell_eq_none_iff {α : Type} {told : Option Bool} {verdict : Option (Ended α)} :
    orTell told verdict = none ↔ verdict = none ∧ told = none := by
  cases verdict <;> simp [orTell]

theorem allTyped_orTell_iff {α : Type} {told : Option Bool} {verdict : Option (Ended α)} :
    AllTyped (orTell told verdict) ↔ AllTyped verdict ∧ (verdict = none → CallbackTame told) := by
  cases verdict with
  | some ended => simp [orTell]
  | none =>
    rcases told with _ | (_ | _) <;> simp [orTell, CallbackTame]

/-- The method ends, once its clock runs out at the latest, and all it throws is typed. -/
def FailsTyped {α : Type} (within : ℕ → Bool) (run : ℕ → Option (Ended α)) : Prop :=
  (∀ fuel, AllTyped (run fuel)) ∧ ∀ n, within n = false → (run (n + 1)).isSome = true

theorem failsTyped_const {α : Type} (within : ℕ → Bool) (x : Ended α) :
    FailsTyped within (fun _ => some x) ↔ Typed x := by
  unfold FailsTyped
  simp

def PollsTame (running : ℕ → Bool) (pending tame : ℕ → Prop) : Prop :=
  ∀ k, (∀ j ≤ k, running j = true) → (∀ j < k, pending j) → tame k

def Lasts (running : ℕ → Bool) (pending : ℕ → Prop) : Prop :=
  ∃ k, (∀ j < k, running j = true ∧ pending j) ∧ running k = false

theorem failsTyped_finish {V σ : Type} (loop : PollLoop (Ended V) σ) (hand : V → Output) (s : σ) :
    FailsTyped loop.running (fun fuel => finish loop hand fuel s) ↔
      (∀ k, loop.Reaches k → AllTyped (loop.poll k)) ∧ (loop.RunsOut → Typed loop.late) := by
  have hends : ∀ n, loop.running n = false → (finish loop hand (n + 1) s).isSome = true := by
    intro n hn
    rw [finish, Option.isSome_map]
    exact loop.run_start_isSome hn s
  have hall : (∀ fuel, AllTyped (finish loop hand fuel s)) ↔
      ∀ fuel x, loop.run fuel 0 s = some x → Typed x.verdict := by
    constructor
    · intro h fuel x hx
      have hx' : finish loop hand fuel s = some (x.verdict.map hand) := by rw [finish, hx]; rfl
      exact (typed_map hand x.verdict).1 (h fuel _ hx')
    · intro h fuel e he
      obtain ⟨x, hx, rfl⟩ := Option.map_eq_some_iff.1 he
      exact (typed_map hand x.verdict).2 (h fuel x hx)
  unfold FailsTyped
  rw [hall, loop.forall_verdict_iff]
  exact ⟨fun h => h.1, fun h => ⟨h, hends⟩⟩

/-- A loop ends typed if each poll that it comes to does, and the end that it runs out to. -/
theorem failsTyped_finish_iff {V σ : Type} {loop : PollLoop (Ended V) σ} {pending tame : ℕ → Prop}
    (hpending : ∀ k, loop.poll k = none ↔ pending k) (htame : ∀ k, AllTyped (loop.poll k) ↔ tame k)
    (hand : V → Output) (s : σ) :
    FailsTyped loop.running (fun fuel => finish loop hand fuel s) ↔
      PollsTame loop.running pending tame ∧ (Lasts loop.running pending → Typed loop.late) := by
  rw [failsTyped_finish]
  unfold PollLoop.Reaches PollLoop.RunsOut PollLoop.Passes PollsTame Lasts
  simp only [hpending, htame, and_imp]

theorem failsTyped_andThen {α β : Type} (within : ℕ → Bool) (x : Ended α)
    (rest : α → ℕ → Option (Ended β)) :
    FailsTyped within (fun fuel => andThen x fun a => rest a fuel) ↔
      Typed x ∧ ∀ a, x = .ok a → FailsTyped within (rest a) := by
  cases x with
  | error e =>
    simp only [andThen_error, failsTyped_const]
    exact ⟨fun h => ⟨typed_error_iff.1 h, nofun⟩, fun h => typed_error_iff.1 h.1⟩
  | ok a =>
    simp only [andThen_ok]
    constructor
    · intro h
      refine ⟨trivial, fun a' ha' => ?_⟩
      cases ha'
      exact h
    · exact fun h => h.2 a rfl

theorem failsTyped_reading {ι : Type} (within : ℕ → Bool) (x : Ended (Reading ι))
    (wait : ℕ → ι → Option (Ended Output)) :
    FailsTyped within (fun fuel => andThen x (Reading.await (wait fuel))) ↔
      Typed x ∧ ∀ approvalId, x = .ok (.wait approvalId) →
        FailsTyped within fun fuel => wait fuel approvalId := by
  refine (failsTyped_andThen within x fun reading fuel =>
    Reading.await (wait fuel) reading).trans (and_congr_right fun _ => ?_)
  constructor
  · exact fun h approvalId hx => h (.wait approvalId) hx
  · intro h reading hx
    cases reading with
    | wait approvalId => exact h approvalId hx
    | value v => exact (failsTyped_const within (.ok (Output.value v))).2 trivial

/-- What two attempts come to: a 401 is answered by the second. -/
def Gives {ε ρ : Type} (status : ρ → ℕ) (first retry : Except ε ρ) (res : ρ) : Prop :=
  ∃ r, first = .ok r ∧ if status r = 401 then retry = .ok res else res = r

def Fails {ε ρ : Type} (status : ρ → ℕ) (first retry : Except ε ρ) (err : ε) : Prop :=
  first = .error err ∨ ∃ r, first = .ok r ∧ status r = 401 ∧ retry = .error err

theorem Gives.not_fails {ε ρ : Type} {status : ρ → ℕ} {first retry : Except ε ρ} {res : ρ}
    (h : Gives status first retry res) (err : ε) : ¬ Fails status first retry err := by
  obtain ⟨r, hfirst, hres⟩ := h
  rintro (herror | ⟨r', hfirst', h401, hretry⟩)
  · cases hfirst.symm.trans herror
  · obtain rfl : r = r' := Except.ok.inj (hfirst.symm.trans hfirst')
    rw [if_pos h401] at hres
    cases hretry.symm.trans hres

end AgentValet.Sdk
