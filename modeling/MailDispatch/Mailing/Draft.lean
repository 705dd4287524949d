import MailDispatch.Mailing.Entry
import MailDispatch.Text.Classes
import MailDispatch.Text.Pieces

/-! # Drafts

A draft is an entry as a client submits it, with an address instead of a customer.
Its check reports every field that is wrong, in the order of the fields.
-/
namespace MailDispatch.Mailing
open Text Time

/-! ## Email addresses

An address is a local part, an at sign and a domain of at least two labels with
points between them. No part is empty, and nothing in it is blank or a second at
sign.
-/

/-- A nonempty run of characters that are neither blank nor an at sign. -/
def IsPart (s : List Char) : Prop :=
  s ≠ [] ∧ ∀ c ∈ s, c ≠ '@' ∧ isBlank c = false

def IsLabel (s : List Char) : Prop := IsPart s ∧ '.' ∉ s

def IsAddress (s : List Char) : Prop :=
  ∃ user : List Char, ∃ labels : List (List Char),
    s = user ++ '@' :: join '.' labels ∧ 2 ≤ labels.length ∧ IsPart user ∧
      ∀ l ∈ labels, IsLabel l

def isAddress (s : List Char) : Bool :=
  let user := s.takeWhile (· ≠ '@')
  match s.dropWhile (· ≠ '@') with
  | [] => false
  | _ :: domain =>
    !user.isEmpty && !domain.contains '@' && !s.any isBlank && domain.contains '.' &&
      (split '.' domain).all fun l => !l.isEmpty

/-! ## Drafts and their check -/

structure Draft where
  mailing : MailingId
  email : String
  title : String
  content : String
  insertTime : Timestamp
  deriving DecidableEq

inductive DraftProblem where
  | mailingMissing
  | emailMissing
  | emailMalformed
  | titleMissing
  | contentMissing
  deriving DecidableEq, Repr

def DraftProblem.message : DraftProblem → String
  | mailingMissing => "mailing_id: required"
  | emailMissing => "email: required"
  | emailMalformed => "email: email"
  | titleMissing => "title: required"
  | contentMissing => "content: required"

def problemIf (p : DraftProblem) (wrong : Bool) : List DraftProblem := if wrong then [p] else []

def emailProblems (email : String) : List DraftProblem :=
  if allBlank email then [.emailMissing]
  else problemIf .emailMalformed (!isAddress email.toList)

namespace Draft

/-- All that is wrong with a draft, in the order of its fields. -/
def problems (d : Draft) : List DraftProblem :=
  problemIf .mailingMissing (d.mailing.val == 0) ++ emailProblems d.email ++
    problemIf .titleMissing (allBlank d.title) ++
    problemIf .contentMissing (allBlank d.content)

def rejection (ps : List DraftProblem) : Rejection :=
  .badInput ("invalid request body: " ++ ", ".intercalate (ps.map DraftProblem.message))

def check (d : Draft) : Except Rejection Unit :=
  match d.problems with
  | [] => .ok ()
  | ps => .error (rejection ps)

def entryFor (d : Draft) (c : CustomerId) : NewEntry :=
  ⟨c, d.mailing, d.title, d.content, d.insertTime⟩

end Draft
end MailDispatch.Mailing
