import MailDispatch.Identifier
import MailDispatch.Time.Timestamp

/-! # Customers and mailing entries

A mailing is a batch of entries. Each entry is one message to one customer, who is
known by an email address.
-/
namespace MailDispatch.Mailing
open Time

structure Customer where
  id : CustomerId
  email : String
  deriving DecidableEq

/-- The content of an entry, before it has an identifier. -/
structure NewEntry where
  customer : CustomerId
  mailing : MailingId
  title : String
  content : String
  insertTime : Timestamp
  deriving DecidableEq

structure Entry extends NewEntry where
  id : MailingEntryId
  deriving DecidableEq

structure Mail where
  recipient : String
  title : String
  content : String
  deriving DecidableEq, Repr

end MailDispatch.Mailing
