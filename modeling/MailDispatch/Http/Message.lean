import MailDispatch.Http.MediaType
import MailDispatch.Http.Target

/-! # Requests and responses -/
namespace MailDispatch.Http
open Text

structure Request where
  method : String
  target : Target
  headers : List (String × String)
  body : Octets
  /-- The address of the client, where it is known. -/
  client : Option String := none

structure Response where
  status : Nat
  contentType : Option String := none
  allow : Option String := none
  operationId : Option String := none
  body : String := ""
  deriving DecidableEq, Repr

def isVisible (c : Char) : Bool := c == '\t' || (32 ≤ c.toNat && c.toNat ≤ 126)

def sameName (a b : String) : Bool := a.toList.map Char.toLower == b.toList.map Char.toLower

/-- The first value of a header, if it is text of visible characters, blanks and tabs. -/
def Request.header? (r : Request) (name : String) : Option String :=
  match r.headers.find? fun h => sameName h.1 name with
  | some (_, value) => if value.toList.all isVisible then some value else none
  | none => none

def Request.hasDocument (r : Request) : Bool :=
  match (r.header? "content-type").bind MediaType.parse? with
  | some m => m.isDocument
  | none => false

namespace Response

def plain (text : String) : Response :=
  { status := 200, contentType := some "text/plain; charset=utf-8", body := text }

def document (status : Nat) (body : List Char) : Response :=
  { status, contentType := some "application/json", body := String.ofList body }

def empty (status : Nat) : Response := { status }

end Response
end MailDispatch.Http
