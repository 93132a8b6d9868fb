import AgentValet.Sdk.PythonFailures
import AgentValet.Sdk.TypeScriptFailures

namespace AgentValet.Sdk
open Base Lang Approvals

def TypeScript.MethodFailsTyped (rt : TypeScript.Runtime) (opts : Options) (world : World)
    (m : TypeScript.Method) : Prop :=
  FailsTyped (within world.clock (TypeScript.budget opts m)) fun fuel =>
    TypeScript.run rt opts world fuel m

def Python.MethodFailsTyped (rt : Python.Runtime) (opts : Options) (world : World)
    (m : Python.Method) : Prop :=
  FailsTyped (within world.clock (Python.budget opts m)) fun fuel =>
    Python.run rt opts world fuel m

/-- The methods fail typed exactly on tame exchanges. -/
theorem methods_fail_typed_iff (js : TypeScript.Runtime) (py : Python.Runtime) (opts : Options)
    (world : World) :
    (∀ m, TypeScript.MethodFailsTyped js opts world m ↔ TypeScript.Tame js opts world m) ∧
      ∀ m, Python.MethodFailsTyped py opts world m ↔ Python.Tame py opts world m := by
  constructor
  · intro m
    exact TypeScript.run_typed_iff world m
  · intro m
    exact Python.run_typed_iff world m

def nullBody : Exchange := ⟨.ok ⟨200, .ok "null"⟩, .error (.error "")⟩

def nullWorld : World where
  clock := steadyClock
  submit := nullBody
  polls _ := nullBody
  told _ := none

def nullOptions : Options where
  key := ⟨.fit, true⟩
  proxyUrl := "https://proxy"
  timeout := .finite 15000
  approvalTimeout := .finite 50000
  approvalPoll := .finite 2000

def nullEngine : TypeScript.Runtime where
  parse _ := some .null
  stringifies _ := true
  joins _ := true

def nullRuntime : Python.Runtime where
  loads _ := .value .null
  json _ := .value .null
  str _ := "None"
  acceptsUrl _ := true
  sends _ := true
  sleeps _ := true

/-- Neither client reads a property of null with an error of its package. -/
theorem null_body_escapes :
    ¬ TypeScript.MethodFailsTyped nullEngine nullOptions nullWorld (.requestAccess none) ∧
      ¬ Python.MethodFailsTyped nullRuntime nullOptions nullWorld (.requestAccess none) := by
  constructor
  · intro h
    have htyped := h.1 1 (.error (.foreign .type)) rfl
    exact htyped
  · intro h
    have htyped := h.1 1 (.error (.foreign .type)) rfl
    exact htyped

end AgentValet.Sdk
