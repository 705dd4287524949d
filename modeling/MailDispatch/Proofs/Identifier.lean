import MailDispatch.Identifier
import MailDispatch.Proofs.Text.Denotation

/-! # Reading identifiers

An identifier of any kind is read from the numerals of its number, and from nothing else. A rejection
names the kind and the first problem.
-/
namespace MailDispatch
open Text

theorem Text.Numeral.Problem.eq_of_message_eq {p q : Numeral.Problem} (h : p.message = q.message) :
    p = q := by
  revert h
  cases p <;> cases q <;> decide

namespace Id

variable {k : IdKind} {s : String}

theorem parse_eq_ok_iff {i : Id k} :
    parse k s = .ok i ↔ Numeral.Denotes s.toList i.val ∧ Numeral.Bounds.int64.Contains i.val := by
  rw [← Numeral.read_eq_ok_iff (b := .int64) (by decide) (by decide)]
  unfold parse
  cases Numeral.read .int64 s.toList with
  | error p => exact ⟨nofun, nofun⟩
  | ok n =>
    constructor
    · intro h
      rw [← Except.ok.inj h]
    · intro h
      rw [Except.ok.inj h]

theorem parse_eq_error_iff {r : Rejection} :
    parse k s = .error r ↔ ∃ p, Numeral.FirstProblem .int64 s.toList p ∧
      r = .invalidId (k.label ++ ": " ++ p.message) := by
  simp only [← Numeral.read_eq_error_iff (b := .int64) (by decide) (by decide)]
  unfold parse
  cases Numeral.read .int64 s.toList with
  | error p =>
    constructor
    · intro h
      exact ⟨p, rfl, (Except.error.inj h).symm⟩
    · rintro ⟨q, hq, rfl⟩
      rw [Except.error.inj hq]
  | ok n => exact ⟨nofun, nofun⟩

/-- Nothing but the empty text is rejected for being empty. -/
theorem parse_eq_error_empty_iff :
    parse k s = .error (.invalidId (k.label ++ ": " ++ Numeral.Problem.empty.message)) ↔ s = "" := by
  rw [parse_eq_error_iff]
  constructor
  · rintro ⟨p, hp, hmessage⟩
    have hsame := (String.append_right_inj _).mp (Rejection.invalidId.inj hmessage)
    rw [← Numeral.Problem.eq_of_message_eq hsame, Numeral.firstProblem_empty_iff] at hp
    exact String.toList_eq_nil_iff.mp hp
  · rintro rfl
    exact ⟨.empty, .empty, rfl⟩

theorem parse_text {i : Id k} (h : Numeral.Bounds.int64.Contains i.val) : parse k i.text = .ok i := by
  unfold parse text Numeral.text
  rw [String.toList_ofList, Numeral.read_ofInt (by decide) h]

end Id
end MailDispatch
