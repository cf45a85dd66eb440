import Svgd.Backend.LoadConfig
import Svgd.Lib.ObjectHeap

/-!
# Calling the script

`svg_generate` of `src/rrd/svg.c`, from the look-up of the function in a context on. A context
is the value stack and the heap of Duktape, which is not part of the repository: the calls push
and pop as its manual says, no setter is inherited, `generateSVG` has no getter, allocations
succeed, and what the script does in a call is a parameter. A stack without room aborts.
-/

namespace Svgd.Backend

open Lib

/-- What an object is. -/
inductive DukKind where
  | object
  | array
  | function
deriving DecidableEq

/-- A property key. -/
inductive DukKey where
  | name (s : Bytes)
  | index (i : Nat)
deriving DecidableEq

/-- A primitive value. -/
inductive DukPrim where
  | undefined
  | null
  | boolean (b : Bool)
  | number (x : Double)
  | string (s : Bytes)
deriving DecidableEq

/-- The value of a slot, and the heap of a context. -/
abbrev DukSlot := Slot DukPrim

abbrev DukHeap := List (HeapObject DukKind DukKey DukPrim)

/-- A context. -/
abbrev DukContext := ObjectMachine DukKind DukKey DukPrim

/-- A sequence of calls on a context. -/
abbrev DukBuild (α : Type) := Build DukKind DukKey DukPrim α

abbrev DukTree := ObjectTree DukKind DukKey DukPrim

/-! ## Pushing values -/

/-- `duk_push_string`; a null pointer is pushed as `null`. -/
def stringPrim : Option Bytes → DukPrim
  | some s => .string s
  | none => .null

def pushPrim (x : DukPrim) : DukBuild Unit := Build.push (.prim x)

/-- A value and a `duk_put_prop_string(ctx, -2, key)`. -/
def putPropString (key : String) (value : DukBuild Unit) : DukBuild Unit := do
  value
  Build.putField (.name (str key))

/-- A value and a `duk_put_prop_index(ctx, -2, i)`. -/
def putPropIndex (i : Nat) (value : DukBuild Unit) : DukBuild Unit := do
  value
  Build.putField (.index i)

/-! ## The series -/

def pushPoint (p : DataPoint) : DukBuild Unit := do
  Build.pushObject .object
  putPropString "timestamp" (pushPrim (.number (.round p.timestamp)))
  putPropString "value" (pushPrim (.number p.value))

/-- The loop over the points, from an index on. -/
def pushPoints : Nat → List DataPoint → DukBuild Unit
  | _, [] => pure ()
  | i, p :: ps => do
      putPropIndex i (pushPoint p)
      pushPoints (i + 1) ps

def pushSeries (s : Series) : DukBuild Unit := do
  Build.pushObject .object
  putPropString "name" (pushPrim (stringPrim s.name))
  putPropString "data" do
    Build.pushObject .array
    pushPoints 0 s.points

/-- The loop over the series. One without points is left out, and takes no index. -/
def pushSeriesFrom : Nat → List Series → DukBuild Unit
  | _, [] => pure ()
  | arrayIdx, s :: ss =>
      if s.points = [] then pushSeriesFrom arrayIdx ss
      else do
        putPropIndex arrayIdx (pushSeries s)
        pushSeriesFrom (arrayIdx + 1) ss

def pushSeriesArray (ss : List Series) : DukBuild Unit := do
  Build.pushObject .array
  pushSeriesFrom 0 ss

/-! ## The options -/

/-- What `svg_generate` is given. -/
structure SvgJob where
  series : List Series
  param1 : Option Bytes
  /-- `metric_config`. -/
  config : Option MetricEntry
  width : Int
  height : Int
  theme : Option Bytes

/-- `if (s && *s)`: a string that is there and not empty. -/
def nonEmpty : Option Bytes → Option Bytes
  | some [] => none
  | s => s

/-- A string option that is left out if it is empty. -/
def putNonEmpty (key : String) (s : Option Bytes) : DukBuild Unit :=
  match nonEmpty s with
  | some s => putPropString key (pushPrim (.string s))
  | none => pure ()

/-- The options of a metric. -/
def putConfig (cfg : MetricEntry) : DukBuild Unit := do
  putPropString "title" (pushPrim (.string cfg.title))
  putPropString "yLabel" (pushPrim (.string cfg.yLabel))
  putPropString "isPercentage" (pushPrim (.boolean (cfg.isPercentage != 0)))
  putPropString "transformType" (pushPrim (.string cfg.transformType))
  putPropString "valueMultiplier" (pushPrim (.number cfg.valueMultiplier))
  putPropString "transformDivisor" (pushPrim (.number cfg.transformDivisor))
  putPropString "valueFormat" (pushPrim (.string cfg.valueFormat))
  putPropString "panelType" (pushPrim (.string cfg.panelType))

/-- `if (data->metric_config)`. -/
def putMetricConfig : Option MetricEntry → DukBuild Unit
  | some cfg => putConfig cfg
  | none => pure ()

def pushOptions (job : SvgJob) : DukBuild Unit := do
  Build.pushObject .object
  putNonEmpty "param1" job.param1
  putMetricConfig job.config
  putPropString "width" (pushPrim (.number (.round job.width)))
  putPropString "height" (pushPrim (.number (.round job.height)))
  putNonEmpty "theme" job.theme

/-! ## The call -/

/-- What is left to the script, in a context whose global object is at `global`. -/
structure DukEngine where
  global : Nat
  /-- A call of a function: the heap behind it, whether it returned, and what it returned or
  threw. -/
  call : DukHeap → DukSlot → List DukSlot → DukHeap × Bool × DukSlot
  /-- The global object stays. -/
  call_global : ∀ heap f args, global < heap.length → global < (call heap f args).1.length

/-- The value of a property that an object has itself. -/
def DukHeap.prop (heap : DukHeap) (a : Nat) (key : Bytes) : Option DukSlot :=
  heap[a]?.bind fun o => o.fields.lookup (.name key)

/-- `duk_get_prop_string(ctx, -1, key)` on an object. -/
def getProp (key : String) : DukBuild Bool := fun m =>
  match m.stack with
  | .object a :: _ =>
      match DukHeap.prop m.heap a (str key) with
      | some v => (Build.push v m).map fun q => (true, q.2)
      | none => (Build.push (.prim .undefined) m).map fun q => (false, q.2)
  | _ => none

/-- `duk_pcall(ctx, 2)`: whether it returned 0. -/
def pcall2 (engine : DukEngine) : DukBuild Bool := fun m =>
  match m.stack with
  | options :: series :: f :: st =>
      let (heap, ok, v) := engine.call m.heap f [series, options]
      some (ok, { m with stack := v :: st, heap })
  | _ => none

/-- `duk_get_string(ctx, -1)` and `strdup`, which ends at the first NUL. -/
def dupString : DukSlot → Option Bytes
  | .prim (.string s) => some (cstr s)
  | _ => none

/-- `svg_generate` in a context. -/
def svgGenerateIn (engine : DukEngine) (job : SvgJob) : DukBuild (Option Bytes) := do
  Build.push (.object engine.global)
  if ← getProp "generateSVG" then
    Build.removeBelow
    pushSeriesArray job.series
    pushOptions job
    if ← pcall2 engine then
      let svg ← Build.top
      Build.pop
      pure (dupString svg)
    else
      Build.pop
      pure none
  else
    Build.pop
    Build.pop
    pure none

/-- One call after the other in the context of a thread, with what each returns. -/
def runJobs (engine : DukEngine) : List SvgJob → DukBuild (List (Option Bytes))
  | [] => pure []
  | job :: jobs => do
      let svg ← svgGenerateIn engine job
      let svgs ← runJobs engine jobs
      pure (svg :: svgs)

/-! ## What the script is given -/

/-- An array. -/
def arrayTree (ts : List DukTree) : DukTree :=
  .node .array ((ts.zipIdx).map fun t => (.index t.2, t.1))

def pointTree (p : DataPoint) : DukTree :=
  .node .object [(.name (str "timestamp"), .prim (.number (.round p.timestamp))),
    (.name (str "value"), .prim (.number p.value))]

def seriesTree (s : Series) : DukTree :=
  .node .object [(.name (str "name"), .prim (stringPrim s.name)),
    (.name (str "data"), arrayTree (s.points.map pointTree))]

/-- The first argument: the series that have points, in their order. -/
def argumentTree (job : SvgJob) : DukTree :=
  arrayTree ((job.series.filter (·.points ≠ [])).map seriesTree)

/-- Options by their names; one that has no value is left out. -/
def optionFields (options : List (String × Option DukPrim)) : List (DukKey × DukTree) :=
  options.filterMap fun o => o.2.map fun x => (.name (str o.1), .prim x)

/-- The second argument. -/
def optionsTree (job : SvgJob) : DukTree :=
  .node .object (optionFields [
    ("param1", (nonEmpty job.param1).map .string),
    ("title", job.config.map (.string ·.title)),
    ("yLabel", job.config.map (.string ·.yLabel)),
    ("isPercentage", job.config.map fun cfg => .boolean (cfg.isPercentage != 0)),
    ("transformType", job.config.map (.string ·.transformType)),
    ("valueMultiplier", job.config.map (.number ·.valueMultiplier)),
    ("transformDivisor", job.config.map (.number ·.transformDivisor)),
    ("valueFormat", job.config.map (.string ·.valueFormat)),
    ("panelType", job.config.map (.string ·.panelType)),
    ("width", some (.number (.round job.width))),
    ("height", some (.number (.round job.height))),
    ("theme", (nonEmpty job.theme).map .string)])

end Svgd.Backend
