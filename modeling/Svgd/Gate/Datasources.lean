import Svgd.Lib.Decimal

/-!
# The datasource list

The in-memory list of `gate/main.c`, its three updates, the two texts made from it
(the file `save_datasources` writes and the listing `GET /_datasources` answers) and
the reader of that file. The array and its `count` are one list here.
-/

namespace Svgd.Gate

open Lib

/-- `MAX_DATASOURCES`. -/
def maxDatasources : Nat := 16

/-- `MAX_DS_NAME_LEN`. -/
def maxDsNameLen : Nat := 64

/-- `MAX_DS_HOST_LEN`. -/
def maxDsHostLen : Nat := 256

/-- `Datasource`. -/
structure Datasource where
  name : Bytes
  host : Bytes
  port : Int
deriving DecidableEq, Repr

/-- `DatasourceList`. -/
structure DatasourceList where
  items : List Datasource := []
  defaultName : Bytes := []
deriving DecidableEq, Repr

/-- `find_datasource`. -/
def findDatasource (ds : DatasourceList) (name : Bytes) : Option Datasource :=
  ds.items.find? (fun d => d.name == name)

/-- The result codes of `add_datasource`. -/
inductive AddResult where
  | added (ds : DatasourceList)
  /-- `-1`: the list is full. -/
  | full
  /-- `-2`: the name is taken. -/
  | alreadyExists
  /-- `-3`: the port is out of range. -/
  | badPort
deriving DecidableEq, Repr

/-- `add_datasource`; the first datasource becomes the default. -/
def addDatasource (ds : DatasourceList) (name host : Bytes) (port : Int) : AddResult :=
  if maxDatasources ≤ ds.items.length then .full
  else if (findDatasource ds name).isSome then .alreadyExists
  else if port ≤ 0 ∨ 65535 < port then .badPort
  else
    let items := ds.items ++
      [{ name := name.take (maxDsNameLen - 1), host := host.take (maxDsHostLen - 1), port := port }]
    .added {
      items := items
      defaultName :=
        if items.length = 1 then name.take (maxDsNameLen - 1) else ds.defaultName }

/-- `remove_datasource`; a removed default passes to the first remaining datasource. -/
def removeDatasource (ds : DatasourceList) (name : Bytes) : Option DatasourceList :=
  if (findDatasource ds name).isSome then
    -- the list is closed up behind the removed one, so the order stays
    let items := ds.items.eraseP (fun d => d.name == name)
    some {
      items := items
      defaultName :=
        if ds.defaultName = name then
          match items with
          | [] => []
          | d :: _ => d.name.take (maxDsNameLen - 1)
        else ds.defaultName }
  else none

/-- The update of `handle_set_default`. -/
def setDefault (ds : DatasourceList) (name : Bytes) : Option DatasourceList :=
  if (findDatasource ds name).isSome then
    some { ds with defaultName := name.take (maxDsNameLen - 1) }
  else none

/-! ## Texts -/

/-- One object of the saved file, without its separator. -/
def savedItem (d : Datasource) : Bytes :=
  str "    \x7b\"name\": \"" ++ d.name ++ str "\", \"host\": \"" ++ d.host
    ++ str "\", \"port\": " ++ printInt d.port ++ str "\x7d"

/-- The objects of the saved file, a comma after all but the last. -/
def savedItems : List Datasource → Bytes
  | [] => []
  | [d] => savedItem d ++ str "\n"
  | d :: e :: rest => savedItem d ++ str ",\n" ++ savedItems (e :: rest)

/-- The text `save_datasources` writes to `datasources.json`. -/
def saveDatasources (ds : DatasourceList) : Bytes :=
  str "\x7b\n  \"default\": \"" ++ ds.defaultName ++ str "\",\n  \"datasources\": [\n"
    ++ savedItems ds.items ++ str "  ]\n\x7d\n"

/-- One object of the listing. -/
def listedItem (d : Datasource) : Bytes :=
  str "\x7b\"name\":\"" ++ d.name ++ str "\",\"host\":\"" ++ d.host
    ++ str "\",\"port\":" ++ printInt d.port ++ str "\x7d"

/-- The body of `handle_get_datasources`. -/
def listDatasources (ds : DatasourceList) : Bytes :=
  str "\x7b\"default\":\"" ++ ds.defaultName ++ str "\",\"datasources\":["
    ++ List.intercalate (str ",") (ds.items.map listedItem) ++ str "]\x7d"

/-! ## The body of a POST -/

/-- A quoted member of a POST body, cut to what its buffer holds; empty when it cannot be read. -/
def bodyString (body key : Bytes) (max : Nat) : Bytes :=
  match strstr body key with
  | none => []
  | some k =>
      match strchr (k.drop key.length) (ch '"') with
      | none => []
      | some q =>
          match strchr (q.drop 1) (ch '"') with
          | none => []
          | some stop => (upTo (q.drop 1) stop).take max

/-- The port of a POST body; zero when it cannot be read. -/
def bodyPort (body : Bytes) : Int :=
  match strstr body (str "\"port\"") with
  | none => 0
  | some p =>
      match strchr (p.drop 6) (ch ':') with
      | none => 0
      | some colon => atoi (colon.drop 1)

/-- `name` of `handle_post_datasource`. -/
def bodyName (body : Bytes) : Bytes := bodyString body (str "\"name\"") 63

/-- `host` of `handle_post_datasource`. -/
def bodyHost (body : Bytes) : Bytes := bodyString body (str "\"host\"") 255

/-! ## Reading the file back -/

/-- A quoted member of the file, if it can be read and fits a field of `size` bytes. -/
def fileString (text key : Bytes) (size : Nat) : Option Bytes :=
  match strstr text key with
  | none => none
  | some k =>
      match strchr (k.drop key.length) (ch '"') with
      | none => none
      | some q =>
          match strchr (q.drop 1) (ch '"') with
          | none => none
          | some stop =>
              let value := upTo (q.drop 1) stop
              if value.length < size then some value else none

/-- What one round of the loop reads: each member is searched from the brace on, to the end of
the file if need be. A member that cannot be read stays zero. -/
def objectDatasource (obj : Bytes) : Datasource where
  name := (fileString obj (str "\"name\"") maxDsNameLen).getD []
  host := (fileString obj (str "\"host\"") maxDsHostLen).getD []
  port := bodyPort obj

/-- The loop of `load_datasources`, from `arr` with the items read so far. Every round moves
`arr` forward, so the length of the text is fuel enough. -/
def loadItems : Nat → Bytes → List Datasource → List Datasource
  | 0, _, items => items
  | fuel + 1, arr, items =>
      if maxDatasources ≤ items.length then items
      else
        match strchr arr (ch '\x7b') with
        | none => items
        | some obj =>
            let d := objectDatasource obj
            let items := if d.name ≠ [] ∧ d.host ≠ [] ∧ 0 < d.port then items ++ [d] else items
            -- the next object starts behind the first closing brace, wherever that is
            match strchr obj (ch '\x7d') with
            | none => items
            | some stop =>
                match strchr (stop.drop 1) (ch '\x7b') with
                | none => items
                | some arr => loadItems fuel arr items

/-- `load_datasources` on the contents of the file, over the list there was. -/
def loadDatasources (old : DatasourceList) (file : Option Bytes) : DatasourceList :=
  match file with
  | none => old
  | some [] => old
  | some content =>
      let json := cstr content
      let defaultName := (fileString json (str "\"default\"") maxDsNameLen).getD old.defaultName
      match strstr json (str "\"datasources\"") with
      | none => ⟨[], defaultName⟩
      | some key =>
          match strchr key (ch '[') with
          | none => ⟨[], defaultName⟩
          | some arr => ⟨loadItems (arr.length + 1) arr [], defaultName⟩

end Svgd.Gate
