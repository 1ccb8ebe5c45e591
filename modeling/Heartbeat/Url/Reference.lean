import Heartbeat.Url.Host

/-!
# Heartbeat.Url.Reference

How addresses are read, whole ones and ones relative to another.

* `Url.tidy`     — blanks and control characters around an address are dropped, and tabs and line
  ends within it.
* `Url.walk`     — a path's segments with `.` and `..` carried out.
* `Url.ofText`   — an address that starts with its scheme.
* `Url.resolve`  — a reference seen from an address of the web.
-/

namespace Heartbeat
namespace Url

def isMargin (c : Char) : Bool := c ≤ ' '

def isLineBreak (c : Char) : Bool := c == '\t' || c == '\n' || c == '\r'

def tidy (s : List Char) : List Char :=
  (((s.dropWhile isMargin).reverse.dropWhile isMargin).reverse).filter (!isLineBreak ·)

def isSchemeChar (c : Char) : Bool := c.isAlphanum || c == '+' || c == '-' || c == '.'

/-- The scheme in lower case, and what comes after its colon. -/
def scheme? (s : List Char) : Option (List Char × List Char) :=
  match s.span isSchemeChar with
  | (c :: r, ':' :: rest) => if c.isAlpha then some ((c :: r).map Char.toLower, rest) else none
  | _ => none

/-- The text before the first mark, and that after it. -/
def cut (mark : Char) (s : List Char) : List Char × Option (List Char) :=
  match s.span (· ≠ mark) with
  | (before, _ :: after) => (before, some after)
  | (before, []) => (before, none)

/-! ## Paths -/

def isSlash (special : Bool) (c : Char) : Bool := c == '/' || special && c == '\\'

/-- Dots, each of which may be written with a percent sign. -/
def dots : List Char → Option Nat
  | [] => some 0
  | '.' :: r | '%' :: '2' :: 'e' :: r | '%' :: '2' :: 'E' :: r => (dots r).map (· + 1)
  | _ => none

/-- Segments follow one another: one dot stays in place, two go back, and either leaves an empty
segment where it is the last. `done` holds the segments so far, the last one first. -/
def walk (done : List (List Char)) : List (List Char) → List (List Char)
  | [] => done.reverse
  | s :: r =>
    let ended (done : List (List Char)) := if r.isEmpty then [] :: done else done
    match dots s with
    | some 1 => walk (ended done) r
    | some 2 => walk (ended done.tail) r
    | _ => walk (encode plainPath s :: done) r

/-- The path that a text gives, seen from segments already there. -/
def readPath (special : Bool) (done : List (List Char)) (s : List Char) : Path :=
  .segments (walk done (s.splitOnP (isSlash special)))

/-! ## Whole addresses -/

/-- The query and the fragment as they are held. -/
def readEnd (special : Bool) (query fragment : Option (List Char)) :
    Option (List Char) × Option (List Char) :=
  (query.map (encode (plainQuery special)), fragment.map (encode plainFragment))

/-- The host, the port and the path of an address whose host comes first. -/
def readHierarchy (scheme s : List Char) : Except Fault (Host × Option UInt16 × Path) := do
  let special := (ownPort? scheme).isSome
  let (authority, path) := s.span (!isSlash special ·)
  let (host, port) ← readAuthority scheme authority
  return (host, port,
    if path.isEmpty ∧ !special then .segments [] else readPath special [] path.tail)

/-- The address that a scheme and what follows its colon give. The schemes of the web take any
number of slashes before the host, others two of them if there is to be a host. -/
def readAfterScheme (scheme s : List Char) : Except Fault Url := do
  let special := (ownPort? scheme).isSome
  let (s, fragment) := cut '#' s
  let (s, query) := cut '?' s
  let (query, fragment) := readEnd special query fragment
  if special then
    let (host, port, path) ← readHierarchy scheme (s.dropWhile (isSlash true))
    return ⟨scheme, some host, port, path, query, fragment⟩
  else
    match s with
    | '/' :: '/' :: s =>
      let (host, port, path) ← readHierarchy scheme s
      return ⟨scheme, some host, port, path, query, fragment⟩
    | '/' :: s => return ⟨scheme, none, none, readPath false [] s, query, fragment⟩
    | s => return ⟨scheme, none, none, .verbatim (encode plainVerbatim s), query, fragment⟩

def ofText (s : String) : Except Fault Url :=
  match scheme? (tidy s.toList) with
  | some (scheme, rest) => readAfterScheme scheme rest
  | none => .error .relative

/-! ## References -/

def Path.toSegments : Path → List (List Char)
  | .segments ss => ss
  | .verbatim _ => []

/-- A reference without a scheme, or with the same one and no host. -/
def resolveRelative (base : Url) (s : List Char) : Except Fault Url :=
  let (before, fragment) := cut '#' s
  let (before, query) := cut '?' before
  let (query, fragment) := readEnd true query fragment
  match before with
  | [] => .ok { base with query := if query.isSome then query else base.query, fragment }
  | c :: r =>
    if isSlash true c then
      if (r.head?.map (isSlash true)).getD false then readAfterScheme base.scheme s
      else .ok { base with path := readPath true [] r, query, fragment }
    else
      .ok { base with
        path := readPath true base.path.toSegments.reverse.tail (c :: r), query, fragment }

def resolve (base : Url) (s : String) : Except Fault Url :=
  match scheme? (tidy s.toList) with
  | some (scheme, rest) =>
    if scheme = base.scheme ∧ (rest.takeWhile (isSlash true)).length < 2 then
      resolveRelative base rest
    else readAfterScheme scheme rest
  | none => resolveRelative base (tidy s.toList)

end Url
end Heartbeat
