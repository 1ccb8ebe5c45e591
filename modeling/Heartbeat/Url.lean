import Heartbeat.Address

/-!
# Heartbeat.Url

Addresses on the web. User information is no part of them.

* `Url.Host`   — an IP address or a name.
* `Url.Path`   — segments that each follow a slash, or text taken as it stands.
* `Url.text`   — the whole address; a port that is the scheme's own is not held.
* `Url.target` — what of it a request names.
-/

namespace Heartbeat
namespace Url

inductive Host where
  | name (n : List Char)
  | address (a : Address)
  deriving DecidableEq, Repr

namespace Host

/-- Addresses of version 6 stand in brackets and never end with octets. -/
def text : Host → List Char
  | name n => n
  | address (.v4 a b c d) => Address.octetsText a b c d
  | address (.v6 gs _) => ['['] ++ Address.shortened gs ++ [']']

end Host

inductive Path where
  | segments (ss : List (List Char))
  | verbatim (t : List Char)
  deriving DecidableEq, Repr

namespace Path

def text : Path → List Char
  | segments ss => ss.flatMap ('/' :: ·)
  | verbatim t => t

end Path
end Url

structure Url where
  /-- In lower case. -/
  scheme : List Char
  /-- The name is empty where an address has a place for a host but none in it. -/
  host : Option Url.Host
  port : Option UInt16
  path : Url.Path
  query : Option (List Char)
  fragment : Option (List Char)
  deriving DecidableEq, Repr

namespace Url

/-- A part that is written after a mark, if it is there. -/
def marked (mark : Char) (part : Option (List Char)) : List Char :=
  (part.map (mark :: ·)).getD []

def target (u : Url) : List Char := u.path.text ++ marked '?' u.query

def chars (u : Url) : List Char :=
  u.scheme ++ [':'] ++
    (u.host.map fun h => ['/', '/'] ++ h.text).getD [] ++
    marked ':' (u.port.map fun p => Nat.toDigits 10 p.toNat) ++
    u.target ++ marked '#' u.fragment

def text (u : Url) : String := String.ofList u.chars

/-- The port that a scheme has of its own. -/
def ownPort? (scheme : List Char) : Option UInt16 :=
  if scheme = ['h', 't', 't', 'p'] ∨ scheme = ['w', 's'] then some 80
  else if scheme = ['h', 't', 't', 'p', 's'] ∨ scheme = ['w', 's', 's'] then some 443
  else if scheme = ['f', 't', 'p'] then some 21
  else none

/-- Where a connection for the address goes. -/
def peer (u : Url) : Option Host × Option UInt16 := (u.host, u.port.or (ownPort? u.scheme))

/-- Whether it can be fetched over HTTP. -/
def isHttp (u : Url) : Bool :=
  u.scheme == ['h', 't', 't', 'p'] || u.scheme == ['h', 't', 't', 'p', 's']

/-- Whether it names a host. -/
def hasHost (u : Url) : Bool :=
  match u.host with
  | none | some (.name []) => false
  | _ => true

end Url
end Heartbeat
