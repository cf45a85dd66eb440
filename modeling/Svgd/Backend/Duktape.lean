import Svgd.Lib.StackMachine
import Svgd.Lib.Json

/-!
# The Duktape calls of the Grafana handler

Duktape is not part of the repository. The handler only pushes and pops values, reads
properties and decodes JSON in a protected call, so its value stack is modelled as a
list with the top first. Reading a property of `undefined` or `null` throws; outside a
protected call that ends the process, which is an abort here. On any other value it
pushes exactly one value and returns whether the property exists.

The properties the handler asks for (`range`, `from`, `to`, `targets`, `target`) are
inherited by nothing, so only the members of an object matter.
-/

namespace Svgd.Backend

open Lib

/-- A value on the stack. -/
inductive DukVal where
  | undefined
  | json (j : Json)
  /-- The value a protected call leaves when it caught an error. -/
  | error

/-- A computation on the value stack of the thread's context. -/
abbrev Duk := Stacked DukVal

namespace Duk

open Stacked

/-- `duk_push_string`. -/
def pushString (s : Bytes) : Duk Unit := push (.json (.str s))

/-- `duk_pop_2`. -/
def pop2 : Duk Unit := do
  pop
  pop

/-- Push a property that may be missing, and say whether it was there. -/
def pushProp : Option Json → Duk Bool
  | some j => do
      push (.json j)
      pure true
  | none => do
      push .undefined
      pure false

/-- `duk_get_prop_string(ctx, -1, key)`. -/
def getPropString (key : Bytes) : Duk Bool := do
  match ← top with
  | .undefined => abort
  | .json .null => abort
  | .json (.obj members) => pushProp (Json.member members key)
  | _ => pushProp none

/-- `duk_get_prop_index(ctx, -1, i)` on an array. -/
def getPropIndex (i : Nat) : Duk Bool := do
  match ← top with
  | .undefined => abort
  | .json .null => abort
  | .json (.arr items) => pushProp items[i]?
  | _ => pushProp none

/-- `duk_is_object(ctx, -1)`; arrays are objects. -/
def isObject : Duk Bool := do
  match ← top with
  | .json (.obj _) => pure true
  | .json (.arr _) => pure true
  | _ => pure false

/-- `duk_get_string(ctx, -1)`, as a C string. -/
def getString : Duk (Option Bytes) := do
  match ← top with
  | .json (.str s) => pure (some (cstr s))
  | _ => pure none

/-- `duk_is_array(ctx, -1)` and `duk_get_length(ctx, -1)`. -/
def arrayLength : Duk (Option Nat) := do
  match ← top with
  | .json (.arr items) => pure (some items.length)
  | _ => pure none

/-- `duk_safe_call(ctx, gf_json_decode, NULL, 1, 1) == DUK_EXEC_SUCCESS`: the string on top
is replaced by its value or by the error. -/
def safeJsonDecode (decode : Bytes → Option Json) : Duk Bool := do
  match ← getString with
  | none => abort
  | some s =>
      pop
      match decode s with
      | some j => do
          push (.json j)
          pure true
      | none => do
          push .error
          pure false

end Duk

end Svgd.Backend
