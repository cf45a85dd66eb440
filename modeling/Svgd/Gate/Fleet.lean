import Svgd.Lib.Sites
import Svgd.Gate.Server
import Svgd.Backend.Server

/-!
# The gate and its backends

A gate in front of backends that run in LSRP mode. Between them is the LSRP library, which is
not part of the repository: whether a message comes to the `lsrp_handler` of the backend at an
address, and what `lsrp_client_send` makes of its answer, is a parameter (`Lsrp`). A backend
keeps its cache from one request to the next. One that is aborted by Duktape is gone, and
nothing can be sent to it any more.

Beside it stands the arrangement without the hop: the client is told the address of its
datasource and sends its request there itself, to a backend that runs in HTTP mode.
-/

namespace Svgd.Gate

open Lib

/-- The host and port a backend listens at. -/
abbrev Address := Bytes × Int

/-- The backends by address: the cache of each one that runs. -/
abbrev Fleet := Address → Option Backend.Cache

/-- The LSRP library, for one request. -/
structure Lsrp where
  /-- The message comes to the handler of the server at the address. -/
  reaches : Address → Bytes → Bool
  /-- What `lsrp_client_send` returns for the message, by what was answered there, if anything
  was. -/
  returns : Address → Bytes → Option Backend.LsrpReply → Option LsrpResponse

/-- A call that succeeds returns status and data of the answer. -/
structure Lsrp.Lawful (lsrp : Lsrp) : Prop where
  returns_some : ∀ x params answered resp, lsrp.returns x params answered = some resp →
    ∃ reply, answered = some reply ∧ resp = ⟨reply.status, reply.data⟩

/-- Nothing gets lost that is shorter than the limit of a message. -/
structure Lsrp.Reliable (lsrp : Lsrp) (maxParamsLen : Nat) : Prop extends lsrp.Lawful where
  reaches_short : ∀ x params, params.length < maxParamsLen → lsrp.reaches x params = true
  returns_short : ∀ x params reply, params.length < maxParamsLen →
    lsrp.returns x params (some reply) = some ⟨reply.status, reply.data⟩

theorem Lsrp.Lawful.returns_none {lsrp : Lsrp} (h : lsrp.Lawful) (x : Address) (params : Bytes) :
    lsrp.returns x params none = none := by
  by_contra hne
  obtain ⟨resp, hresp⟩ := Option.ne_none_iff_exists'.mp hne
  obtain ⟨reply, hreply, -⟩ := h.returns_some x params none resp hresp
  cases hreply

/-- A library that loses nothing. -/
def Lsrp.lossless : Lsrp where
  reaches _ _ := true
  returns _ _ answered := answered.map fun reply => ⟨reply.status, reply.data⟩

theorem Lsrp.lossless_reliable (maxParamsLen : Nat) : Lsrp.lossless.Reliable maxParamsLen where
  returns_some _ _ _ _ h := by
    obtain ⟨reply, hreply, rfl⟩ := Option.map_eq_some_iff.mp h
    exact ⟨reply, hreply, rfl⟩
  reaches_short _ _ _ := rfl
  returns_short _ _ _ _ := rfl

/-- A request for the gate, and what the parties see while it is handled. The backends are
those of the fleet, whatever `env` has for `lsrp_client_send`. -/
structure Arrival where
  env : Env
  world : Address → Backend.HandlerEnv
  lsrp : Lsrp
  received : Bytes

/-! ## A backend -/

/-- What a backend is sent, and what it sees while it handles it. -/
structure Ask where
  env : Backend.HandlerEnv
  params : Bytes

/-- The answer of a backend in LSRP mode, if it is there and survives. -/
def Ask.serve (a : Ask) (process : Option Backend.Cache) :
    Option (Backend.LsrpReply × Backend.Cache) :=
  process.bind fun cache => (Backend.lsrpHandler a.env a.params cache []).map Prod.fst

/-- What is left of the backend. -/
def Ask.leaves (process : Option Backend.Cache) (a : Ask) : Option Backend.Cache :=
  (a.serve process).map Prod.snd

/-- The answer of a backend in HTTP mode, if it is there and survives. -/
def httpAnswer (env : Backend.HandlerEnv) (received : Bytes) (process : Option Backend.Cache) :
    Option (Option Backend.HttpReply × Backend.Cache) :=
  process.bind fun cache => (Backend.httpServe env received cache []).map Prod.fst

/-- What an effect of a request brings to a backend. -/
def Arrival.ask (a : Arrival) : Effect → Option (Address × Ask)
  | .lsrpSend host port params =>
      if a.lsrp.reaches (host, port) params then
        some ((host, port), ⟨a.world (host, port), params⟩)
      else none
  | _ => none

theorem Arrival.ask_some {a : Arrival} {e : Effect} {x : Address} {ask : Ask}
    (h : a.ask e = some (x, ask)) : ask.env = a.world x := by
  unfold Arrival.ask at h
  split at h
  · split at h
    · obtain ⟨rfl, rfl⟩ := Prod.mk.inj (Option.some.inj h)
      rfl
    · cases h
  · cases h

/-! ## The gate in front of them -/

/-- The gate's datasources and the backends. -/
structure Deployment where
  datasources : DatasourceList
  fleet : Fleet

namespace Deployment

/-- What the backend at an address answers, if the message comes there. -/
def answered (d : Deployment) (a : Arrival) (x : Address) (params : Bytes) :
    Option (Backend.LsrpReply × Backend.Cache) :=
  if a.lsrp.reaches x params then (Ask.mk (a.world x) params).serve (d.fleet x) else none

theorem answered_some {d : Deployment} {a : Arrival} {x : Address} {params : Bytes}
    {r : Backend.LsrpReply × Backend.Cache} (h : d.answered a x params = some r) :
    (Ask.mk (a.world x) params).serve (d.fleet x) = some r := by
  unfold answered at h
  split at h
  · exact h
  · cases h

/-- The surroundings of the gate for one request: the library is connected to the backends. -/
def env (d : Deployment) (a : Arrival) : Env :=
  { a.env with
    lsrpClientSend := fun host port params =>
      a.lsrp.returns (host, port) params ((d.answered a (host, port) params).map Prod.fst) }

/-- What the gate hears of a backend is what the backend answered. -/
theorem lsrpClientSend_some {d : Deployment} {a : Arrival} (hlsrp : a.lsrp.Lawful) {host params : Bytes}
    {port : Int} {resp : LsrpResponse}
    (h : (d.env a).lsrpClientSend host port params = some resp) :
    ∃ reply left, (Ask.mk (a.world (host, port)) params).serve (d.fleet (host, port)) = some (reply, left)
      ∧ resp = ⟨reply.status, reply.data⟩ := by
  obtain ⟨reply, hanswered, hresp⟩ := hlsrp.returns_some _ _ _ _ h
  obtain ⟨⟨reply', left⟩, hserve, rfl⟩ := Option.map_eq_some_iff.mp hanswered
  exact ⟨reply', left, answered_some hserve, hresp⟩

/-- How the gate handles a request. -/
def outcome (d : Deployment) (a : Arrival) : Outcome :=
  handleRequest (d.env a) d.datasources a.received

/-- What a request brings to the backends. -/
def asks (d : Deployment) (a : Arrival) : List (Address × Ask) :=
  (d.outcome a).effects.filterMap a.ask

/-- One request to the gate. -/
def step (d : Deployment) (a : Arrival) : Deployment where
  datasources := (d.outcome a).datasources
  fleet := Sites.run Ask.leaves d.fleet (d.asks a)

/-- A sequence of requests. -/
def run (d : Deployment) (as : List Arrival) : Deployment := as.foldl step d

/-- What they bring to the backends, in order. -/
def allAsks (d : Deployment) : List Arrival → List (Address × Ask)
  | [] => []
  | a :: as => d.asks a ++ (d.step a).allAsks as

/-- The answers to them; a connection may be closed without one. -/
def trace (d : Deployment) : List Arrival → List (Option Response)
  | [] => []
  | a :: as => (d.outcome a).reply :: (d.step a).trace as

@[simp] theorem run_nil (d : Deployment) : d.run [] = d := rfl

@[simp] theorem run_cons (d : Deployment) (a : Arrival) (as : List Arrival) :
    d.run (a :: as) = (d.step a).run as := rfl

theorem run_append (d : Deployment) (as bs : List Arrival) : d.run (as ++ bs) = (d.run as).run bs :=
  List.foldl_append

/-- A backend is where the requests for it have brought it. -/
theorem run_fleet (d : Deployment) (as : List Arrival) (x : Address) :
    (d.run as).fleet x = (Sites.eventsAt x (d.allAsks as)).foldl Ask.leaves (d.fleet x) := by
  induction as generalizing d with
  | nil => rfl
  | cons a as ih =>
      have hfleet : (d.step a).fleet x = (Sites.eventsAt x (d.asks a)).foldl Ask.leaves (d.fleet x) :=
        Sites.run_apply (d.asks a) x
      rw [run_cons, ih, hfleet, allAsks, Sites.eventsAt_append, List.foldl_append]

end Deployment

/-! ## Without the hop -/

namespace Deployment

end Deployment

/-- Endpoints whose answers both front ends give the same type: the gate goes by the name, the
backend by the answer. -/
def PlainLabel (endpoint : Bytes) : Prop :=
  endpoint ≠ str "_grafana/search" ∧ endpoint ≠ str "_grafana/query"
    ∧ (startsWith endpoint (str "_config/") = true → endpoint = str "_config/metrics")

instance (endpoint : Bytes) : Decidable (PlainLabel endpoint) :=
  inferInstanceAs (Decidable (_ ∧ _))

end Svgd.Gate
