import Heartbeat.Http.Message
import Heartbeat.Transport

/-!
# Heartbeat.Http.Exchange

Sends over HTTP, as functions of how the collector treats one connection after another.

* `Http.Network`  — which hosts can be reached.
* `Http.exchange` — a request, and those that it is redirected to.
* `Post.send`     — one send of a descriptor, and how a wait for its answer ends.
* `Post.sendAll`  — sends one after another, on what the earlier ones leave.
-/

namespace Heartbeat
namespace Http

/-- What stands in the way of a connection to a host, if anything does. -/
structure Network where
  barrier? : Url.Host → Option ErrorChain

namespace Network

/-- Every host is reached. -/
def loopback : Network := ⟨fun _ => none⟩

/-- Every host refuses connections. -/
def refusing : Network := ⟨fun _ => some ["tcp connect error", "Connection refused (os error 111)"]⟩

/-- There is no way out, not even to the machine itself, whose only name is `localhost`. -/
def isolated : Network where
  barrier?
    | .address (.v6 ..) =>
      some ["tcp connect error", "Cannot assign requested address (os error 99)"]
    | .address (.v4 ..) => some ["tcp connect error", "Network is unreachable (os error 101)"]
    | .name n =>
      if n = "localhost".toList then
        some ["tcp connect error", "Network is unreachable (os error 101)"]
      else
        some ["dns error",
          "failed to lookup address information: Temporary failure in name resolution"]

def barrierTo? (net : Network) (u : Url) : Option ErrorChain := u.host.bind net.barrier?

end Network

/-- How a collector treats one connection. -/
inductive Treatment where
  | closes
  | responds (r : Response)

/-- How a request ends. -/
inductive Ending where
  | body (b : Bytes)
  | fault (f : Fault)
  /-- The collector keeps silent on this address. -/
  | silent (u : Url)

/-- How a response ends the request that it answers for good. -/
def Response.ending (r : Response) (u : Url) : Ending :=
  if r.isError then .fault (.status u r.status r.reason)
  else
    match r.body? with
    | some b => .body b
    | none => .fault .bodyCut

/-- What becomes of a send whose request ends so. The wait for the answer begins before the request
does, so that it ends first where both may take as long. Answers take no time here: only a request
that is left without one is ended by either, even where both are zero. -/
def Ending.outcome (timeout wait : Nat) : Ending → Outcome
  | .body b => (Answer.body b).outcome
  | .fault f => (Answer.error f.chain).outcome
  | .silent u => if timeout < wait then (Answer.error (Fault.timedOut u).chain).outcome else .timeout

structure Exchange where
  ending : Ending
  /-- What reached the collector, in order. -/
  requests : List Request
  /-- How the connections after these are treated. -/
  rest : List Treatment

/-- Carries out a request that may still be redirected `left` times. The collector keeps silent on
a connection for which no treatment is left. -/
def exchange (net : Network) (left : Nat) (q : Request) (ts : List Treatment) : Exchange :=
  match net.barrierTo? q.url with
  | some why => ⟨.fault (.unreachable q.url why), [], ts⟩
  | none =>
    match ts with
    | [] => ⟨.silent q.url, [q], []⟩
    | .closes :: rest => ⟨.fault (.closed q.url), [q], rest⟩
    | .responds r :: rest =>
      match q.after? r with
      | none => ⟨r.ending q.url, [q], rest⟩
      | some next =>
        match left with
        | 0 => ⟨.fault (.redirectedTooOften q.url), [q], rest⟩
        | left + 1 =>
          if !next.url.isHttp then ⟨.fault (.schemeRefused next.url), [q], rest⟩
          else
            let e := exchange net left next rest
            { e with requests := q :: e.requests }

/-- How often a request is redirected at most. -/
def redirectLimit : Nat := 10

/-- Where and how descriptors are posted. -/
structure Post where
  url : String
  token : Option String
  /-- Milliseconds that a send may take with all its redirections. -/
  timeout : Nat
  deriving DecidableEq, Repr

structure Delivery where
  outcome : Outcome
  requests : List Request
  rest : List Treatment

namespace Post

/-- The exchange for a descriptor; one that cannot be put into a request reaches nobody. -/
def exchange (p : Post) (net : Network) (d : Descriptor) (ts : List Treatment) : Exchange :=
  match Request.posting p.url p.token d with
  | .ok q => Http.exchange net redirectLimit q ts
  | .error f => ⟨.fault f, [], ts⟩

/-- Sends a descriptor and waits for the answer, `wait` milliseconds at most. -/
def send (p : Post) (net : Network) (wait : Nat) (d : Descriptor) (ts : List Treatment) :
    Delivery :=
  let e := p.exchange net d ts
  ⟨e.ending.outcome p.timeout wait, e.requests, e.rest⟩

def sendAll (p : Post) (net : Network) (wait : Nat) (d : Descriptor) :
    Nat → List Treatment → List Delivery
  | 0, _ => []
  | n + 1, ts =>
    let delivery := p.send net wait d ts
    delivery :: p.sendAll net wait d n delivery.rest

end Post
end Http

/-- Where and how a collector takes descriptors. -/
def Collector.post (c : Collector) : Except CollectorError Http.Post :=
  c.endpoint.map fun url => ⟨url, c.token, c.httpTimeout⟩

end Heartbeat
