import Svgd.Gate.Server
import Svgd.Lib.Snapshots

/-!
# The process around the main loop

What `main` of `gate/main.c` does before its loop, and what is left of a process when it
ends. The datasource list lives in memory and is written to `datasources.json` by each of
its updates; a new process reads that file, and puts the datasource of its command line
into a list that came out empty.

A process ends between two requests: the signal handler only clears `running`.
-/

namespace Svgd.Gate

open Lib

/-- The command line, as far as requests read it. The third argument is the port to listen on. -/
def commandLine (args : List Bytes) : Config :=
  let host := args.getD 0 []
  let port := atoi (args.getD 1 [])
  let staticPath := args.getD 3 []
  { svgdHost := if host ≠ [] then host else ({} : Config).svgdHost
    svgdPort := if 0 < port then port else ({} : Config).svgdPort
    staticPath := if staticPath ≠ [] then staticPath else ({} : Config).staticPath }

/-- What `main` does with the list `load_datasources` left: the result of the addition is not
looked at. -/
def startUp (config : Config) (ds : DatasourceList) : Outcome :=
  if ds.items = [] then
    match addDatasource ds (str "default") config.svgdHost config.svgdPort with
    | .added ds' => ⟨[.saved (saveDatasources ds')], ds'⟩
    | _ => ⟨[], ds⟩
  else ⟨[], ds⟩

/-- The texts `save_datasources` wrote to the file. -/
def Outcome.savedTexts (o : Outcome) : List Bytes :=
  o.effects.filterMap fun
    | .saved text => some text
    | _ => none

/-- What a process does. -/
inductive GateAction where
  /-- One pass of the main loop. -/
  | request (env : Env) (received : Bytes)
  /-- The beginning of `main` with this command line, behind `load_datasources`. -/
  | start (args : List Bytes)

def GateAction.outcome (ds : DatasourceList) : GateAction → Outcome
  | .request env received => handleRequest env ds received
  | .start args => startUp (commandLine args) ds

/-- The gate as a program that writes out what it remembers. -/
def gateProcess : Snapshots DatasourceList GateAction Bytes (List Effect) where
  step ds a := (a.outcome ds).datasources
  writes ds a := (a.outcome ds).savedTexts.getLast?
  shows ds a := (a.outcome ds).effects
  encode := saveDatasources
  load := loadDatasources {}

/-- What happens to a gate, seen from outside. -/
inductive GateEvent where
  | request (env : Env) (received : Bytes)
  /-- The process ends and is started with this command line. -/
  | restart (args : List Bytes)

def GateEvent.happening : GateEvent → Happening GateAction
  | .request env received => .act (.request env received)
  | .restart args => .restart (.start args)

/-- The first start, where there is no file yet. -/
def firstStart (args : List Bytes) : Memory DatasourceList Bytes :=
  gateProcess.run ⟨{}, none⟩ [.restart (.start args)]

/-- Memory and file of a gate behind a run. -/
def runGate (m : Memory DatasourceList Bytes) (es : List GateEvent) : Memory DatasourceList Bytes :=
  gateProcess.run m (es.map GateEvent.happening)

end Svgd.Gate
