import MailDispatch.Log.Event

/-! # Operations

One request or one scheduled run is an operation. It has an identifier of its own,
and everything that is logged while it runs carries what is known about it.
-/
namespace MailDispatch.Log

structure Operation where
  id : String
  name : Option String := none
  correlation : Option String := none
  method : Option String := none
  uri : Option String := none
  client : Option String := none
  deriving DecidableEq, Repr

namespace Operation

def start (id : String) : Operation := { id }

def named (o : Operation) (name : String) : Operation := { o with name := some name }

def correlated (o : Operation) (id : String) : Operation := { o with correlation := some id }

def withMethod (o : Operation) (method : String) : Operation := { o with method := some method }

def withUri (o : Operation) (uri : String) : Operation := { o with uri := some uri }

def withClient (o : Operation) (client : String) : Operation := { o with client := some client }

/-- The identifier to pass on: that of the client if it gave one. -/
def correlationId (o : Operation) : String := o.correlation.getD o.id

def member (key : String) : Option String → List (String × String)
  | some v => [(key, v)]
  | none => []

def fields (o : Operation) : List (String × String) :=
  ("operation_id", o.id) :: member "operation" o.name ++ member "correlation_id" o.correlation ++
    member "http" o.method ++ member "uri" o.uri ++ member "client_ip" o.client

end Operation

structure Record where
  event : Event
  operation : Option Operation := none
  deriving DecidableEq, Repr

end MailDispatch.Log
