import AgencCore.Policy.Types

/-
  Matching of hosts and paths.

  `matchGlob` follows the unified glob matcher: the regular expression form, alternatives, and a
  wildcard anywhere. An alternative contains no further separator, so the matcher calls itself once
  at most.

  Paths are POSIX paths. A resolved path is the list of its segments, and the relative path between
  two of them climbs out of the segments that are not shared.
-/

namespace AgencCore.Policy

open Foundations

section

/- `value.split(separator)` -/
def splitOnChar (separator : Char) : List Char → List (List Char)
| [] => [[]]
| c :: rest => if c = separator then [] :: splitOnChar separator rest
    else
      match splitOnChar separator rest with
      | [] => [[c]]
      | part :: parts => (c :: part) :: parts

/- Whether a text begins with a part. -/
def startsWith (value part : List Char) : Bool := value.take part.length == part

/- Whether a text ends with a part. -/
def endsWith (value part : List Char) : Bool := startsWith value.reverse part.reverse

/-
  `value.indexOf(part)`, counted from a given offset: the value is what is left of the text after
  the offset.
-/
def indexOf (part : List Char) : Nat → List Char → Option Nat
| offset, [] => if part = [] then some offset else none
| offset, c :: rest => if startsWith (c :: rest) part then some offset
    else indexOf part (offset + 1) rest

/- `value.indexOf(part, cursor)` -/
def indexOfFrom (value part : List Char) (cursor : Nat) : Option Nat :=
  indexOf part cursor (value.drop cursor)

/-
  Walk the inner segments of a glob from left to right; the result is the cursor after the last one.
-/
def walkSegments (value : List Char) : Nat → List (List Char) → Option Nat
| cursor, [] => some cursor
| cursor, part :: rest => if part = [] then walkSegments value cursor rest
    else
      match indexOfFrom value part cursor with
      | none => none
      | some next => walkSegments value (next + part.length) rest

/- A pattern with at least one wildcard. -/
def matchSegments (pattern value : List Char) : Bool :=
  let parts := splitOnChar '*' pattern
  let first := parts.headD []
  let last := parts.getLastD []
  if !startsWith value first then false
  else if !endsWith value last then false
  else match walkSegments value first.length (parts.tail.dropLast) with
    | none => false
    | some cursor => decide (cursor + last.length ≤ value.length) || parts.length == 1

/- The regular expression form, between two slashes. -/
def isRegExpForm (pattern : List Char) : Bool :=
  decide (pattern.length > 2) && pattern.head? == some '/' && pattern.getLast? == some '/'

variable (host : PolicyHost)

/- A pattern without alternatives. A regular expression that does not compile matches nothing. -/
def matchEntry (pattern value : List Char) : Bool :=
  if pattern = [] then value == []
  else if pattern = ['*'] then true
  else if isRegExpForm pattern then
    (host.regExpTest (String.ofList pattern.tail.dropLast) (String.ofList value)).getD false
  else if '*' ∉ pattern then value == pattern
  else matchSegments pattern value

def matchGlob (pattern value : String) : Bool :=
  if pattern ≠ "" ∧ pattern ≠ "*" ∧ !isRegExpForm pattern.toList ∧ '|' ∈ pattern.toList then
    (splitOnChar '|' pattern.toList).any
      (fun entry => matchEntry host (trim (String.ofList entry)).toList value.toList)
  else matchEntry host pattern.toList value.toList

def globMatch (pattern value : String) : Bool :=
  matchGlob host (host.toLowerCase (trim pattern)) (host.toLowerCase (trim value))

/- `isAbsolute(path)` -/
def isAbsolute (path : String) : Bool := path.toList.head? == some '/'

/- Drop empty and dot segments and resolve the others. -/
def normalizeSegments (segments : List (List Char)) : List (List Char) :=
  segments.foldl (fun out segment => if segment = [] ∨ segment = ['.'] then out
      else if segment = ['.', '.'] then out.dropLast
      else out ++ [segment]) []

/- `resolve(path)`, as the segments below the root. -/
def resolvePath (path : String) : List (List Char) :=
  let absolute := if isAbsolute path then path.toList
    else host.cwd.toList ++ '/' :: path.toList
  normalizeSegments (splitOnChar '/' absolute)

/- How many leading segments two paths share. -/
def sharedSegments : List (List Char) → List (List Char) → Nat
| a :: as, b :: bs => if a = b then sharedSegments as bs + 1 else 0
| _, _ => 0

/- `relative(source, target)` -/
def relativePath (source target : List (List Char)) : List Char :=
  let shared := sharedSegments source target
  ['/'].intercalate (List.replicate (source.length - shared) ['.', '.'] ++ target.drop shared)

def pathMatchesRoot (candidate root : String) : Bool :=
  let rel := relativePath (resolvePath host root) (resolvePath host candidate)
  rel == [] || !startsWith rel ['.', '.']

end

end AgencCore.Policy
