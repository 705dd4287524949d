import MailDispatch.Store.Call
import MailDispatch.Log.Operation

/-! # Units of work

A unit of work is a tree: it ends with a value, an error or a crash, or it asks the
store or the mail carrier for something and goes on with the answer. It has no
effect of its own; whoever runs it decides what the answers are.
-/
namespace MailDispatch

namespace Work

/-- What a crash leaves behind is mostly a text, but need not be one. -/
inductive Crash where
  | text (s : String)
  | code (n : Nat)
  | boxed (s : String)
  deriving DecidableEq, Repr

def Crash.message : Crash → String
  | .text s => s
  | .code _ | .boxed _ => "non-string panic payload"

inductive Outcome (ε α : Type) where
  | value (a : α)
  | error (e : ε)
  | crash (c : Crash)
  deriving DecidableEq, Repr

end Work

/-- A unit of work with errors in `ε` and a value in `α`. The mail carrier refuses a mail with a
text. -/
inductive Work (ε α : Type) where
  | done (a : α)
  | fail (e : ε)
  | crash (c : Work.Crash)
  | call (c : Store.Call) (next : Store.Answered c → Work ε α)
  | deliver (m : Mailing.Mail) (next : Except String Unit → Work ε α)
  | log (e : Log.Event) (next : Work ε α)

namespace Work

variable {ε δ α β : Type}

def bind : Work ε α → (α → Work ε β) → Work ε β
  | done a, f => f a
  | fail e, _ => fail e
  | crash c, _ => crash c
  | call c next, f => call c fun r => (next r).bind f
  | deliver m next, f => deliver m fun r => (next r).bind f
  | log e next, f => log e (next.bind f)

instance : Monad (Work ε) where
  pure := done
  bind := bind

def mapError (f : ε → δ) : Work ε α → Work δ α
  | done a => done a
  | fail e => fail (f e)
  | crash c => crash c
  | call c next => call c fun r => (next r).mapError f
  | deliver m next => deliver m fun r => (next r).mapError f
  | log e next => log e (next.mapError f)

/-- A single call, whose problem is an error of the work. -/
def ask (c : Store.Call) : Work Store.Problem c.Answer :=
  call c fun
    | .ok a => done a
    | .error p => fail p

def ofExcept : Except ε α → Work ε α
  | .ok a => done a
  | .error e => fail e

def report (e : Log.Event) : Work ε Unit := log e (done ())

def each (f : α → Work ε Unit) : List α → Work ε Unit
  | [] => done ()
  | a :: as => (f a).bind fun _ => each f as

theorem bind_done (w : Work ε α) : w.bind done = w := by
  induction w with
  | done | fail | crash => rfl
  | call c next ih => simp only [bind]; congr 1; funext r; exact ih r
  | deliver m next ih => simp only [bind]; congr 1; funext r; exact ih r
  | log e next ih => simp only [bind, ih]

theorem bind_assoc {γ : Type} (w : Work ε α) (f : α → Work ε β) (g : β → Work ε γ) :
    (w.bind f).bind g = w.bind fun a => (f a).bind g := by
  induction w with
  | done | fail | crash => rfl
  | call c next ih => simp only [bind]; congr 1; funext r; exact ih r
  | deliver m next ih => simp only [bind]; congr 1; funext r; exact ih r
  | log e next ih => simp only [bind, ih]

instance : LawfulMonad (Work ε) :=
  LawfulMonad.mk' (Work ε) (fun w => bind_done w) (fun _ _ => rfl) (fun w f g => bind_assoc w f g)

end Work
end MailDispatch
