/-
# ImportAtlas.Service.Route -- which route a request is for

The target of a request may name a host, which is dropped, and has a path up to its query or fragment.
Steps to the directory itself and up are taken, escapes are decoded, and slashes at the end do not count.
-/
import ImportAtlas.Json.Parse
import ImportAtlas.Path

namespace ImportAtlas.Service

/-- The routes of the service. -/
inductive Route where
  | health
  | graph
  | changes
  deriving DecidableEq, Repr, Inhabited

namespace Route

/-- What follows the host of a target that has one. -/
def dropHost : List Char → List Char
  | '/' :: '/' :: rest => rest.dropWhile (· ≠ '/')
  | target => target

/-- Takes one part of a path onto those before it, which stand in reverse. A step up never leaves the
root. -/
def takePart (before : List Path) (part : Path) : List Path :=
  if part = Path.here then before
  else if part = Path.up then
    match before with
    | [] => []
    | [[]] => [[]]
    | _ :: rest => rest
  else part :: before

/-- A path without steps. -/
def settle (path : Path) : Path := Path.unparts (path.parts.foldl takePart []).reverse

/-- Decodes the escapes of bytes. No route has a character outside of ASCII, so that it does not matter
which one a byte beyond it belongs to. -/
def decode : List Char → List Char
  | '%' :: a :: b :: rest =>
    match Json.hexValue? a, Json.hexValue? b with
    | some high, some low =>
      let n := high * 16 + low
      (if n < 0x80 then Char.ofNat n else '\ufffd') :: decode rest
    | _, _ => '%' :: decode (a :: b :: rest)
  | c :: rest => c :: decode rest
  | [] => []

/-- A path without slashes and then without a line break at its end. -/
def trimEnd (path : List Char) : List Char :=
  match path.reverse.dropWhile (· = '/') with
  | '\n' :: rest => rest.reverse
  | rest => rest.reverse

/-- The path that a target asks for. Escapes are decoded on the way out and once more on the way in. -/
def targetPath (target : List Char) : List Char :=
  let path := dropHost (target.takeWhile fun c => c ≠ '?' && c ≠ '#')
  trimEnd (decode (decode (settle ('/' :: path.dropWhile (· = '/')))))

/-- The path of a route. -/
def path : Route → String
  | health => "/health"
  | graph => "/graph"
  | changes => "/graph/changes"

/-- The route that a target asks for. -/
def ofTarget? (target : String) : Option Route :=
  [health, graph, changes].find? fun route => route.path.toList = targetPath target.toList

/-- The method that a route takes. -/
def method : Route → String
  | health => "GET"
  | graph => "POST"
  | changes => "POST"

end Route

end ImportAtlas.Service
