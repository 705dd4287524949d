import MailDispatch.Text.Numeral

/-! # Rejections and identifiers

A rejection is a refusal that a client may see with its own words. Customers, mailing entries and
mailings are named by integers of 64 bits. The kind is part of the type, so that an identifier of
one kind is never taken for another, and a text that names nothing is rejected.
-/
namespace MailDispatch
open Text

/-! ## Rejections -/

/-- The input is wrong, an identifier cannot be read, a thing does not exist, or the caller is not
known. -/
inductive Rejection where
  | badInput (message : String)
  | invalidId (message : String)
  | notFound (message : String)
  | unauthorized
  deriving DecidableEq, Repr

namespace Rejection

def message : Rejection → String
  | badInput m => m
  | invalidId m => m
  | notFound m => m
  | unauthorized => "unauthorized"

/-- The words for the log, with the kind of the refusal in front. -/
def text : Rejection → String
  | badInput m => "bad input: " ++ m
  | invalidId m => "invalid identifier: " ++ m
  | notFound m => "not found: " ++ m
  | unauthorized => "unauthorized"

end Rejection

/-! ## Identifiers -/

inductive IdKind where
  | customer
  | mailingEntry
  | mailing
  deriving DecidableEq, Repr

def IdKind.label : IdKind → String
  | .customer => "CustomerId"
  | .mailingEntry => "MailingEntryId"
  | .mailing => "MailingId"

structure Id (kind : IdKind) where
  val : Int
  deriving DecidableEq, Repr

abbrev CustomerId := Id .customer
abbrev MailingEntryId := Id .mailingEntry
abbrev MailingId := Id .mailing

namespace Id

def text {k : IdKind} (i : Id k) : String := Numeral.text i.val

/-- Reads an identifier; the rejection names the kind and the first problem of the text. -/
def parse (k : IdKind) (s : String) : Except Rejection (Id k) :=
  match Numeral.read .int64 s.toList with
  | .ok n => .ok ⟨n⟩
  | .error p => .error (.invalidId (k.label ++ ": " ++ p.message))

end Id
end MailDispatch
