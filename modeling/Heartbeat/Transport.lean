import Heartbeat.Descriptor
import Heartbeat.Acknowledgement

/-!
# Heartbeat.Transport

The way to the collector and back, as a script of replies plays it.

* `Answer`     — what comes back for a send.
* `Settlement` — an answer and the time it comes at; `conclude` says how a wait for it ends.
* `Script`     — entries given out one after another, and one that is given for ever after.
* `Transport`  — every send so far, and those whose answer is held back until a release.
-/

namespace Heartbeat

inductive Answer where
  /-- The body of the collector's response. -/
  | body (b : Bytes)
  | error (chain : ErrorChain)
  /-- The request was given up without an answer. -/
  | dropped

def Answer.outcome : Answer → Outcome
  | .body b => .ofBody b
  | .error chain => .fail .transport chain.message
  | .dropped => .fail .transport "transport dropped the request without completing it"

structure Settlement where
  time : Nat
  answer : Answer

/-- When and how a wait ends that began at `began` and has `timeout` milliseconds. An answer that
is there when the wait begins, or comes as it runs out, still counts. -/
def conclude (began timeout : Nat) : Option Settlement → Nat × Outcome
  | none => (began + timeout, .timeout)
  | some s =>
    if s.time ≤ began + timeout then (max began s.time, s.answer.outcome)
    else (began + timeout, .timeout)

/-- How the collector treats one send. -/
inductive Reply where
  /-- It answers after a delay. -/
  | after (delay : Nat) (answer : Answer)
  /-- After a delay it holds the request back, until those held back are released. -/
  | hold (delay : Nat)

namespace Reply

/-- Acknowledged at once. -/
def ack : Reply := .after 0 (.body (utf8 (Acknowledgement.encode ⟨true, none⟩)))

/-- Rejected at once. -/
def nack : Reply := .after 0 (.body (utf8 (Acknowledgement.encode ⟨false, none⟩)))

/-- Failed on the way. -/
def refused : Reply := .after 0 (.error ["connection refused"])

/-- Answered at once with something that is no acknowledgement. -/
def garbage : Reply := .after 0 (.body (utf8 "<html>502</html>"))

/-- The settlement of a request made now, if the reply settles it. -/
def settlement (now : Nat) : Reply → Option Settlement
  | .after delay answer => some ⟨now + delay, answer⟩
  | .hold _ => none

end Reply

structure Script (α : Type) where
  entries : List α
  fallback : α
  /-- How many have been given out. -/
  taken : Nat := 0

namespace Script

variable {α : Type}

def next (s : Script α) : α := s.entries.getD s.taken s.fallback

def advance (s : Script α) : Script α := { s with taken := s.taken + 1 }

end Script

structure Sent where
  time : Nat
  descriptor : Descriptor
  settlement : Option Settlement

/-- A send that waits for a release, and since when. -/
structure Held where
  send : Nat
  since : Nat
  deriving DecidableEq, Repr

structure Transport where
  script : Script Reply
  /-- The sends, the first one first. -/
  sends : List Sent := []
  /-- The sends held back, in order. -/
  held : List Held := []

namespace Transport

/-- Sends a descriptor; its number is the number of sends before it. -/
def send (t : Transport) (now : Nat) (d : Descriptor) : Transport :=
  let reply := t.script.next
  { script := t.script.advance
    sends := t.sends ++ [⟨now, d, reply.settlement now⟩]
    held := match reply with
      | .after .. => t.held
      | .hold delay => t.held ++ [⟨t.sends.length, now + delay⟩] }

/-- What is known of the answer to a send. -/
def settlement? (t : Transport) (send : Nat) : Option Settlement :=
  t.sends[send]?.bind (·.settlement)

/-- Settles one send, unless it is settled already. -/
def settle (t : Transport) (s : Settlement) (send : Nat) : Transport :=
  { t with sends := t.sends.modify send fun x => { x with settlement := x.settlement.or (some s) } }

/-- Answers every send held back by now; to hold them back again changes nothing. -/
def release (t : Transport) (now : Nat) : Reply → Transport
  | .hold _ => t
  | .after _ answer =>
    let due := t.held.filter (·.since ≤ now)
    { due.foldl (fun t h => t.settle ⟨now, answer⟩ h.send) t with
      held := t.held.filter (now < ·.since) }

def lastDescriptor? (t : Transport) : Option Descriptor := t.sends.getLast?.map (·.descriptor)

end Transport
end Heartbeat
