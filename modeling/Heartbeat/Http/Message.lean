import Heartbeat.Collector
import Heartbeat.Descriptor
import Heartbeat.Outcome
import Heartbeat.Url.Reference

/-!
# Heartbeat.Http.Message

What travels between an agent and a collector over HTTP.

* `Http.Request`    — with at most one token and at most one JSON body.
* `Http.Response`   — as the collector sends it before it closes the connection.
* `Http.Fault`      — why a send comes to nothing, and `Fault.chain`, how that is told.
* `Request.posting` — the request that carries a descriptor.
* `Request.after?`  — the request that a response asks for instead.
-/

namespace Heartbeat
namespace Http

inductive Method where
  | get
  | post
  deriving DecidableEq, Repr

def Method.label : Method → String
  | get => "GET"
  | post => "POST"

structure Request where
  method : Method
  url : Url
  token : Option String
  /-- The text of a JSON value. -/
  body : Option String
  deriving DecidableEq, Repr

structure Response where
  status : Nat
  reason : String
  /-- Where the request should have gone. -/
  location : Option String
  /-- What is sent of the body before the connection is closed. -/
  sent : Bytes
  /-- The length of the body as it is announced. -/
  length : Option Nat
  deriving DecidableEq, Repr

/-- Why a send over HTTP comes to nothing. -/
inductive Fault where
  | urlInvalid (f : Url.Fault)
  | schemeRefused (u : Url)
  /-- The token cannot stand in a header. -/
  | headerInvalid
  /-- No connection can be made. -/
  | unreachable (u : Url) (why : ErrorChain)
  /-- The connection was closed before an answer. -/
  | closed (u : Url)
  | timedOut (u : Url)
  | redirectedTooOften (u : Url)
  | status (u : Url) (status : Nat) (reason : String)
  /-- The body ended before its announced length. -/
  | bodyCut
  deriving DecidableEq, Repr

namespace Fault

def withUrl (what : String) (u : Url) : String := what ++ " for url (" ++ u.text ++ ")"

def chain : Fault → ErrorChain
  | urlInvalid f => ["builder error", f.message]
  | schemeRefused u => [withUrl "builder error" u, "URL scheme is not allowed"]
  | headerInvalid => ["builder error", "failed to parse header value"]
  | unreachable u why => withUrl "error sending request" u :: "client error (Connect)" :: why
  | closed u =>
    [withUrl "error sending request" u, "client error (SendRequest)",
      "connection closed before message completed"]
  | timedOut u => [withUrl "error sending request" u, "operation timed out"]
  | redirectedTooOften u => [withUrl "error following redirect" u, "too many redirects"]
  | status u code reason =>
    let side := if code < 500 then "client" else "server"
    [withUrl ("HTTP status " ++ side ++ " error (" ++ toString code ++ " " ++ reason ++ ")") u]
  | bodyCut =>
    ["error decoding response body", "request or response body error",
      "error reading a body from connection", "end of file before message length reached"]

end Fault

/-! ## Requests -/

/-- Whether a character may stand in a header. -/
def headerAllows (c : Char) : Bool := c == '\t' || ' ' ≤ c && c != '\x7f'

namespace Request

/-- The request that posts a descriptor to an address. Of several faults the first one counts: an
address that cannot be read or names no host, a token that fits no header, a scheme that is not
HTTP's. -/
def posting (url : String) (token : Option String) (d : Descriptor) : Except Fault Request := do
  let u ← (Url.ofText url).mapError .urlInvalid
  if !u.hasHost then throw (.schemeRefused u)
  if !(token.getD "").toList.all headerAllows then throw .headerInvalid
  if !u.isHttp then throw (.schemeRefused u)
  return ⟨.post, u, token, some d.encode⟩

def authorization (q : Request) : Option String := q.token.map ("Bearer " ++ ·)

def contentType (q : Request) : Option String := q.body.map fun _ => "application/json"

/-- The same request to another address. The token goes no further than the host it was meant
for. -/
def movedTo (q : Request) (u : Url) : Request :=
  { q with url := u, token := if u.peer = q.url.peer then q.token else none }

/-- The request made anew as one that only asks. -/
def asGet (q : Request) : Request := { q with method := .get, body := none }

/-- What a response asks for instead of the request it answers, if it names an address that can be
read. -/
def after? (q : Request) (r : Response) : Option Request := do
  let u ← (q.url.resolve (← r.location)).toOption
  match r.status with
  | 301 | 302 | 303 => some (q.movedTo u).asGet
  | 307 | 308 => some (q.movedTo u)
  | _ => none

end Request

/-! ## Responses -/

namespace Response

/-- Whether a response of this status has no body. -/
def isBare (r : Response) : Bool := r.status == 204 || r.status == 304

def isError (r : Response) : Bool := 400 ≤ r.status && r.status < 600

/-- The body, if all of it was received. -/
def body? (r : Response) : Option Bytes :=
  if r.isBare then some []
  else
    match r.length with
    | none => some r.sent
    | some n => if n ≤ r.sent.length then some (r.sent.take n) else none

end Response
end Http
end Heartbeat
