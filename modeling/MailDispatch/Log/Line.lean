import MailDispatch.Json.Written
import MailDispatch.Log.Operation

/-! # Log lines

A record is printed as one object on a line, with the operation in which it happened.
-/
namespace MailDispatch.Log
open Text Json

def Value.written : Value → List Char
  | .text s => writtenText s.toList
  | .whole n => Numeral.ofInt n

def writtenFields (e : Event) : List Char :=
  writtenObject
    (writtenMember "message" (writtenText e.message.toList) ::
      e.fields.map fun (k, v) => writtenMember k v.written)

def writtenOperation (o : Operation) : List Char :=
  writtenObject
    (o.fields.map (fun (k, v) => writtenMember k (writtenText v.toList)) ++
      [writtenMember "name" (writtenText "operation".toList)])

def Record.line (r : Record) (time : List Char) : List Char :=
  let operation := match r.operation with
    | some o =>
      [writtenMember "span" (writtenOperation o),
        writtenMember "spans" ('[' :: writtenOperation o ++ [']'])]
    | none => []
  writtenObject
    ([writtenMember "timestamp" (writtenText time),
      writtenMember "level" (writtenText r.event.level.name.toList),
      writtenMember "fields" (writtenFields r.event)] ++ operation)

end MailDispatch.Log
