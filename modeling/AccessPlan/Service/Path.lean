import AccessPlan.Json.Reader
import AccessPlan.Text.Utf8

/-!
# Paths of requests

A path is cut before its query, its escaped bytes are decoded, and then it is matched with patterns: segments that are
fixed or that take any text but a slash. A line break at the very end does not keep a path from matching.
-/

namespace AccessPlan.Service

/-- The bytes of the characters of a path, each escape of two digits replaced by its byte. -/
def unescaped : List Char → List UInt8
  | '%' :: a :: b :: cs =>
    match Json.hexValue? a, Json.hexValue? b with
    | some x, some y => UInt8.ofNat (16 * x + y) :: unescaped cs
    | _, _ => '%'.toString.toUTF8.toList ++ unescaped (a :: b :: cs)
  | c :: cs => c.toString.toUTF8.toList ++ unescaped cs
  | [] => []

/-- The path that a request target, an ordinary string, names: without the query, decoded. -/
def pathOf (target : String) : List Char :=
  Text.decodeUtf8 (unescaped (target.toList.takeWhile fun c => c ≠ '?'))

/-- A segment of a pattern. -/
inductive Segment where
  | fixed (text : String)
  /-- Any text that is not empty. -/
  | parameter

/-- The parts of a path between its slashes. -/
def parts : List Char → List (List Char)
  | [] => [[]]
  | c :: cs =>
    if c = '/' then [] :: parts cs
    else match parts cs with
      | [] => [[c]]
      | p :: ps => (c :: p) :: ps

/-- The texts of the parameters of a pattern, if parts match it. -/
def matchParts : List Segment → List (List Char) → Option (List String)
  | [], [] => some []
  | [.fixed text], [part] => if part = text.toList ∨ part = text.toList ++ ['\n'] then some [] else none
  | .fixed text :: segments, part :: rest => if part = text.toList then matchParts segments rest else none
  | .parameter :: segments, part :: rest =>
    if part.isEmpty then none else (matchParts segments rest).map (Text.ofPlain (String.ofList part) :: ·)
  | _, _ => none

/-- The texts of the parameters, if a path, which begins with a slash, matches a pattern. -/
def matchPath (pattern : List Segment) (path : List Char) : Option (List String) :=
  match parts path with
  | [] :: rest => matchParts pattern rest
  | _ => none

/-- The path with the slashes at its end taken away, or with one more if it has none. -/
def alternative (path : List Char) : List Char :=
  if path.getLast? = some '/' then (path.reverse.dropWhile (· = '/')).reverse else path ++ ['/']

end AccessPlan.Service
