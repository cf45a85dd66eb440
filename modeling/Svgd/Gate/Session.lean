import Svgd.Proof.Addressable
import Svgd.Proof.Login

/-!
# The session of a page

`gate/static/auth.js` beside the gate. A page keeps one token in `localStorage`, which all
tabs share. `login` puts the token of an answer there, `fetchWithAuth` sends the token along
and removes it when the answer is a 401, `logout` removes it.

Requests are answered and answers arrive in any order, and either may be lost. So a
`SessionWorld` holds what is on its way besides the token, the clock and the datasource list
of the gate. It also records, as nobody else does, which logins the gate has answered with a
token and when (`ledger`).
-/

namespace Svgd.Gate

open Lib

/-! ## Requests -/

/-- A `POST` of `login`. -/
structure LoginCall where
  password : JsString
  text : Bytes
  is_login : IsLogin text password

/-- The methods `script.js` passes to `fetchWithAuth`. -/
inductive ApiMethod where
  | get
  | post
  | put
  | delete
deriving DecidableEq, Repr

def ApiMethod.text : ApiMethod → Bytes
  | .get => str "GET"
  | .post => str "POST"
  | .put => str "PUT"
  | .delete => str "DELETE"

theorem ApiMethod.token (m : ApiMethod) : ch '?' ∉ m.text ∧ (0 : UInt8) ∉ m.text := by
  cases m <;> decide

/-- The header that `fetchWithAuth` adds, up to the token. -/
def bearer : Bytes := str "Authorization: Bearer "

/-- What `fetchWithAuth` is asked to send: the browser puts other headers in front of the one
with the token and behind it. -/
structure ApiCall where
  method : ApiMethod
  url : Bytes
  before : Bytes
  /-- The other headers, the blank line and the body. -/
  after : Bytes
  /-- The URL is one that needs a token. -/
  api : requiresAuth (Url.pathText url) = true
  /-- Nothing in front of the header reads like it. -/
  first : ∀ t, strstr ((browserLine method.text url method.token).request
    (before ++ (bearer ++ t))) bearer = some (bearer ++ t)
  before_no_nul : (0 : UInt8) ∉ before

/-- The text of the request, with a token. -/
def ApiCall.request (c : ApiCall) (token : Bytes) : Bytes :=
  (browserLine c.method.text c.url c.method.token).request
    (c.before ++ (bearer ++ (token ++ (str "\r\n" ++ c.after))))

/-! ## Answers -/

/-- The body of an answer for which `response.ok` holds. -/
def Response.okBody : Response → Option Bytes
  | .json status body => if 200 ≤ status ∧ status < 300 then some body else none
  | .ok _ data => some data
  | .preflight _ _ => some []
  | _ => none

/-- The token `login` finds in an answer: `response.ok`, and a `token` in the JSON body that
is not empty. -/
def Response.token (r : Response) : Option Bytes :=
  match r.okBody.bind decodeJson with
  | some (.obj members) =>
      match Json.member members (str "token") with
      | some (.str token) => if token = [] then none else some token
      | _ => none
  | _ => none

/-! ## The world of a page -/

/-- The clock of the gate stays below this, a year before the end of a 64-bit `time_t`: a token
that is issued then still expires at a `time_t`. -/
def lastClock : Int := 2 ^ 63 - 365 * 86400

/-- What is on its way between the page and the gate. -/
inductive Flight where
  | login (l : LoginCall)
  | call (c : ApiCall) (token : Bytes)
  | loginReply (r : Response)
  /-- The answer to a call that was sent with this token. -/
  | callReply (token : Bytes) (r : Response)

structure SessionWorld where
  /-- `time(NULL)` at the gate. -/
  clock : Int
  /-- The item `jwt_token` of `localStorage`. -/
  stored : Option Bytes := none
  datasources : DatasourceList := {}
  flights : List Flight := []
  /-- When the gate answered a login with a token, and with which password. -/
  ledger : List (Int × JsString) := []

inductive SessionAct where
  /-- Time passes, up to `lastClock`. -/
  | wait (seconds : Nat)
  | login (l : LoginCall)
  /-- `fetchWithAuth`, which sends nothing without a token. -/
  | call (c : ApiCall)
  | logout
  /-- The gate handles a request that is on its way, in surroundings of its own. -/
  | serve (i : Nat) (env : Env)
  /-- An answer arrives at the page. -/
  | deliver (i : Nat)
  /-- A request or an answer gets lost, or the page stops waiting for it. -/
  | lose (i : Nat)

/-- The surroundings of a request: the gate's keys and its clock. -/
def SessionWorld.env (w : SessionWorld) (ssl : OpenSSL) (auth : AuthConfig) (env : Env) : Env :=
  { env with ssl := ssl, auth := auth, now := w.clock }

/-- The request at `i` was handled, and its answer is on its way. -/
def SessionWorld.served (w : SessionWorld) (i : Nat) (o : Outcome) (back : Response → Flight) :
    SessionWorld :=
  { w with
    datasources := o.datasources
    flights := match o.reply with
      | some r => w.flights.set i (back r)
      | none => w.flights.eraseIdx i }

/-- What the handled login adds to the ledger. -/
def SessionWorld.issued (w : SessionWorld) (l : LoginCall) (o : Outcome) : List (Int × JsString) :=
  match o.reply.bind Response.token with
  | some _ => (w.clock, l.password) :: w.ledger
  | none => w.ledger

def SessionWorld.step (ssl : OpenSSL) (auth : AuthConfig) (w : SessionWorld) :
    SessionAct → SessionWorld
  | .wait seconds =>
      if w.clock + seconds < lastClock then { w with clock := w.clock + seconds } else w
  | .login l => { w with flights := w.flights ++ [.login l] }
  | .call c =>
      match w.stored with
      | some token => { w with flights := w.flights ++ [.call c token] }
      | none => w
  | .logout => { w with stored := none }
  | .serve i env =>
      match w.flights[i]? with
      | some (.login l) =>
          let o := handleRequest (w.env ssl auth env) w.datasources l.text
          { w.served i o .loginReply with ledger := w.issued l o }
      | some (.call c token) =>
          w.served i (handleRequest (w.env ssl auth env) w.datasources (c.request token))
            (.callReply token)
      | _ => w
  | .deliver i =>
      match w.flights[i]? with
      | some (.loginReply r) =>
          { w with flights := w.flights.eraseIdx i, stored := r.token.or w.stored }
      | some (.callReply _ r) =>
          { w with
            flights := w.flights.eraseIdx i
            stored := if r.status = 401 then none else w.stored }
      | _ => w
  | .lose i => { w with flights := w.flights.eraseIdx i }

/-- The world behind a run. -/
def SessionWorld.run (ssl : OpenSSL) (auth : AuthConfig) (w : SessionWorld) (acts : List SessionAct) :
    SessionWorld :=
  acts.foldl (SessionWorld.step ssl auth) w

end Svgd.Gate
