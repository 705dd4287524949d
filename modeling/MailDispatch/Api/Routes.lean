import MailDispatch.Http.Message

/-! # Routes

A request goes to an endpoint by its path, and the endpoint allows some methods. A
text in a path stands for itself; a hole takes any segment, but none that is empty at the
end of a path.
-/
namespace MailDispatch.Api
open Http

inductive Piece where
  | text (s : String)
  | hole (name : String)
  deriving DecidableEq, Repr

/-- The segments that fall into the holes of a pattern, if a path matches it. -/
def matchPath : List Piece → List String → Option (List (String × String))
  | [], [] => some []
  | .text t :: ps, s :: ss => if t = s then matchPath ps ss else none
  | .hole name :: ps, s :: ss =>
    if s.isEmpty && ss.isEmpty then none else (matchPath ps ss).map ((name, s) :: ·)
  | _, _ => none

structure Route (α : Type) where
  pattern : List Piece
  method : String
  endpoint : α

/-- The methods that a route takes: where a resource can be read, so can its head. -/
def Route.methods {α : Type} (r : Route α) : List String :=
  if r.method = "GET" then ["GET", "HEAD"] else [r.method]

inductive Routed (α : Type) where
  | unknown
  | notAllowed (methods : List String)
  | badSegment (name : String)
  | found (endpoint : α) (segments : List String)

/-- The texts of segments, or the name of the first hole whose segment spells none. -/
def decodeSegments : List (String × String) → Except String (List String)
  | [] => .ok []
  | (name, s) :: rest =>
    match segmentText? s with
    | some t => (decodeSegments rest).map (t :: ·)
    | none => .error name

/-- Finds the endpoint of a request. The first route that matches the path decides. -/
def route {α : Type} : List (Route α) → Request → Routed α
  | [], _ => .unknown
  | r :: rs, q =>
    match q.target.segments.bind (matchPath r.pattern) with
    | none => route rs q
    | some holes =>
      if r.methods.contains q.method then
        match decodeSegments holes with
        | .ok texts => .found r.endpoint texts
        | .error name => .badSegment name
      else .notAllowed r.methods

/-- The response to a request that reaches no endpoint. -/
def Routed.refusal? {α : Type} : Routed α → Option Response
  | .unknown => some (.empty 404)
  | .notAllowed methods => some { status := 405, allow := some (",".intercalate methods) }
  | .badSegment name =>
    some { Response.plain ("Invalid URL: Invalid UTF-8 in \x60" ++ name ++ "\x60") with status := 400 }
  | .found _ _ => none

end MailDispatch.Api
