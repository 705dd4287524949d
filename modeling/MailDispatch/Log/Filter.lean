import MailDispatch.Log.Directive
import MailDispatch.Log.Operation
import MailDispatch.Text.Pieces

/-! # Log filters

A filter is a list of directives. Of those without an operation that cover an event the
most specific one decides: the one with the longest target, then the one that asks for
the most fields, and of two equal ones the later one. What none covers is off. Those that
ask for an operation let the events in it pass as well.
-/
namespace MailDispatch.Log
open Text

abbrev Filter : Type := List Directive

namespace Directive

/-- Whether the target of a directive is how the name of a part begins. -/
def targets (d : Directive) (part : Part) : Bool :=
  match d.target with
  | none => true
  | some t => t.toList.isPrefixOf part.target.toList

def fieldNames (d : Directive) : List String := d.fields.map FieldPattern.name

def asksNoValue (d : Directive) : Bool := d.fields.all fun f => f.value.isNone

/-- Whether a directive can decide on events outside of operations. -/
def isPlain (d : Directive) : Bool := d.operation.isNone && d.asksNoValue

def isAboutOperations (d : Directive) : Bool := d.operation.isSome || !d.fields.isEmpty

def coversEvent (d : Directive) (e : Event) : Bool :=
  d.targets e.part &&
    d.fieldNames.all fun n => n == "message" || (e.fields.map Prod.fst).contains n

def operationFields : List String :=
  ["operation_id", "operation", "correlation_id", "http", "uri", "client_ip"]

def coversOperations (d : Directive) : Bool :=
  d.targets .operations && (d.operation.isNone || d.operation == some "operation") &&
    d.fieldNames.all operationFields.contains

/-- Whether a row of numbers does not come after another in the order of a dictionary, where
what another row goes on from comes before it. -/
def notAfter : List Nat → List Nat → Bool
  | [], _ => true
  | _ :: _, [] => false
  | a :: as, b :: bs => a < b || (a == b && notAfter as bs)

/-- The names of the fields in one row, each ended by a number that is below all characters. -/
def fieldSpelling (d : Directive) : List Nat :=
  d.fieldNames.flatMap fun n => n.toList.map (fun c => c.toNat + 1) ++ [0]

/-- Whether the second of two directives is at least as specific as the first. -/
def yields (a b : Directive) : Bool :=
  let weight (d : Directive) : Nat := (d.target.map fun t => t.utf8ByteSize + 1).getD 0
  if weight a ≠ weight b then weight a < weight b
  else if a.fields.length ≠ b.fields.length then a.fields.length < b.fields.length
  else notAfter a.fieldSpelling b.fieldSpelling

@[simp] theorem notAfter_self (s : List Nat) : notAfter s s = true := by
  induction s with
  | nil => rfl
  | cons a s ih => simp [notAfter, ih]

/-- Of two rows neither of which comes after the other there is but one. -/
theorem eq_of_notAfter {s t : List Nat} (h : notAfter s t = true) (k : notAfter t s = true) :
    s = t := by
  induction s generalizing t with
  | nil =>
    cases t with
    | nil => rfl
    | cons b t => simp [notAfter] at k
  | cons a s ih =>
    cases t with
    | nil => simp [notAfter] at h
    | cons b t =>
      simp only [notAfter, Bool.or_eq_true, Bool.and_eq_true, decide_eq_true_eq, beq_iff_eq] at h k
      obtain ⟨rfl, hs⟩ : a = b ∧ notAfter s t = true := by
        rcases h with h | h
        · omega
        · exact h
      have ht : notAfter t s = true := by
        rcases k with k | k
        · omega
        · exact k.2
      rw [ih hs ht]

end Directive

namespace Filter

/-- Reads a filter; a text without any directive lets only errors pass. -/
def parse? (text : String) : Option Filter :=
  let pieces := (split ',' text.toList).filter fun s => !s.isEmpty
  if pieces.isEmpty then some [{ rank := Level.error.rank }] else pieces.mapM Directive.ofText?

/-- The more specific of two directives, the later one of two that are equally so. -/
def prefer (best : Option Directive) (d : Directive) : Option Directive :=
  match best with
  | some b => if b.yields d then some d else some b
  | none => some d

/-- The rank that the most specific of the plain directives that cover something gives it. -/
def rankFor (f : Filter) (covers : Directive → Bool) : Nat :=
  match (f.filter fun d => d.isPlain && covers d).foldl prefer none with
  | some d => d.rank
  | none => 0

def aboutOperations (f : Filter) : Filter := f.filter fun d => d.isAboutOperations && d.coversOperations

def recordsOperations (f : Filter) : Bool :=
  !(aboutOperations f).isEmpty || Level.info.rank ≤ rankFor f fun d => d.targets .operations

/-- The rank up to which events in an operation pass because they are in it. What asks for the
value of a field gives nothing. -/
def rankInside (f : Filter) : Nat :=
  ((aboutOperations f).filter Directive.asksNoValue).foldl (fun r d => max r d.rank) 0

def passes (f : Filter) (r : Record) : Bool :=
  (r.operation.isSome && r.event.level.rank ≤ rankInside f) ||
    r.event.level.rank ≤ rankFor f fun d => d.coversEvent r.event

def apply (f : Filter) (log : List Record) : List Record :=
  (log.filter (passes f)).map fun r =>
    if recordsOperations f then r else { r with operation := none }

def standard : Filter := [{ rank := Level.info.rank }]

/-- The filter of the environment if there is a valid one, and otherwise that of the given
level. -/
def choose (environment : Option String) (level : String) : Filter :=
  match environment.bind parse? with
  | some f => f
  | none => (parse? (Directive.lowered level.toList)).getD standard

end Filter
end MailDispatch.Log
