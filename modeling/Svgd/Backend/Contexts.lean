import Svgd.Lib.CString

/-!
# The JavaScript contexts of the threads

The shared script text and the contexts of `src/rrd/svg.c`, call by call. A context is what
its script has added to the global object of a fresh heap, and stays with its thread. Every
call is one step, allocations succeed, and `svg_free_cache` is called only when the process
ends. `svg_generate` is followed to the point where it calls the function of the script.
-/

namespace Svgd.Backend

open Lib

/-- The name that `svg_generate` looks up. -/
def generateSVG : Bytes := str "generateSVG"

/-- What Duktape makes of a script. -/
structure Engine where
  /-- The names that are added to the global object; `none` if the script throws. -/
  eval : Bytes → Option (List Bytes)
  /-- The names behind a call of the function. -/
  call : List Bytes → List Bytes
  /-- The function does not take itself away. -/
  call_keeps : ∀ names, generateSVG ∈ names → generateSVG ∈ call names

/-- `js_cache`, `js_cache_initialized`, and the context of each thread. -/
structure SvgState where
  jsCache : Option Bytes
  initialized : Bool
  contexts : Nat → Option (List Bytes)

namespace SvgState

/-- The state of the process at its start. -/
def start : SvgState := ⟨none, false, fun _ => none⟩

/-- `pthread_setspecific(js_context_key, ctx)`. -/
def setContext (s : SvgState) (thread : Nat) (names : List Bytes) : SvgState :=
  { s with contexts := fun t => if t = thread then some names else s.contexts t }

end SvgState

/-- `svg_init_cache`: whether it returns 0. The file is `none` if it cannot be opened or read. -/
def svgInitCache (file : Option Bytes) (s : SvgState) : SvgState × Bool :=
  if s.initialized then (s, true)
  else
    match file with
    | none => (s, false)
    | some text => ({ s with jsCache := some text, initialized := true }, true)

/-- `get_thread_context`. -/
def getThreadContext (engine : Engine) (thread : Nat) (s : SvgState) :
    SvgState × Option (List Bytes) :=
  match s.contexts thread with
  | some names => (s, some names)
  | none =>
      match (if s.initialized then s.jsCache else none) with
      | none => (s.setContext thread [], some [])
      | some text =>
          match engine.eval (cstr text) with
          | none => (s, none)
          | some names => (s.setContext thread names, some names)

/-- `svg_get_context`. -/
def svgGetContext (engine : Engine) (thread : Nat) (s : SvgState) : SvgState × Option (List Bytes) :=
  getThreadContext engine thread s

/-- `svg_prewarm_context`. -/
def svgPrewarmContext (engine : Engine) (thread : Nat) (s : SvgState) : SvgState :=
  if s.initialized then (getThreadContext engine thread s).1 else s

/-- The look-up of the function in the context, and its call. -/
def callGenerateSVG (engine : Engine) (thread : Nat) :
    SvgState × Option (List Bytes) → SvgState × Bool
  | (s, none) => (s, false)
  | (s, some names) =>
      if generateSVG ∈ names then (s.setContext thread (engine.call names), true) else (s, false)

/-- `svg_generate`: whether the function of the script is called. -/
def svgGenerate (engine : Engine) (thread : Nat) (file : Option Bytes) (s : SvgState) :
    SvgState × Bool :=
  match (if s.initialized then (s, true) else svgInitCache file s) with
  | (s, false) => (s, false)
  | (s, true) => callGenerateSVG engine thread (getThreadContext engine thread s)

/-- A call, with the thread that makes it where its context matters, and with the file that is
found. -/
inductive SvgCall where
  | initCache (file : Option Bytes)
  | getContext (thread : Nat)
  | prewarmContext (thread : Nat)
  | generate (thread : Nat) (file : Option Bytes)

/-- The state behind a call. -/
def svgStep (engine : Engine) (s : SvgState) : SvgCall → SvgState
  | .initCache file => (svgInitCache file s).1
  | .getContext thread => (svgGetContext engine thread s).1
  | .prewarmContext thread => svgPrewarmContext engine thread s
  | .generate thread file => (svgGenerate engine thread file s).1

/-- The state behind a sequence of calls. -/
def runSvg (engine : Engine) (calls : List SvgCall) : SvgState :=
  calls.foldl (svgStep engine) .start

end Svgd.Backend
