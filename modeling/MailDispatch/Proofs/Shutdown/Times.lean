import MailDispatch.Shutdown.Waiting

/-! # When a wait for several things is over

A time that never comes is `none`. One wait for all handles at once would be over at a
time that can be written down: it is the latest of the times at which the handles are
done, each cut off at the deadline.
-/
namespace MailDispatch.Shutdown

/-- The earlier of two times. -/
def firstOf : Option Nat → Option Nat → Option Nat
  | some a, some b => some (min a b)
  | some a, none => some a
  | none, b => b

/-- The later of two times. -/
def lastOf : Option Nat → Option Nat → Option Nat
  | some a, some b => some (max a b)
  | _, _ => none

/-- When one wait is over that begins at `start`, for activities that are done at the given
times and under a common deadline. -/
def returnTime (start : Nat) (deadline : Option Nat) (times : List (Option Nat)) : Option Nat :=
  times.foldr (fun c latest => lastOf (firstOf (lastOf c (some start)) deadline) latest)
    (some start)

/-- Whether an activity is done only after the deadline. -/
def isLate (deadline completed : Option Nat) : Bool :=
  match deadline with
  | some d => !expired completed d
  | none => false

theorem expired_some {d now : Nat} : expired (some d) now = true ↔ d ≤ now := by
  simp [expired]

theorem exists_of_expired {t : Option Nat} {now : Nat} (h : expired t now = true) :
    ∃ c, t = some c ∧ c ≤ now := by
  cases t with
  | none => cases h
  | some c => exact ⟨c, rfl, expired_some.mp h⟩

theorem expired_firstOf (a b : Option Nat) (now : Nat) :
    expired (firstOf a b) now = (expired a now || expired b now) := by
  cases a with
  | none => rfl
  | some a =>
    cases b with
    | none => simp [firstOf, expired]
    | some b =>
      rw [Bool.eq_iff_iff]
      simp only [firstOf, expired_some, Bool.or_eq_true]
      omega

theorem expired_lastOf (a b : Option Nat) (now : Nat) :
    expired (lastOf a b) now = (expired a now && expired b now) := by
  cases a with
  | none => rfl
  | some a =>
    cases b with
    | none => simp [lastOf, expired]
    | some b =>
      rw [Bool.eq_iff_iff]
      simp only [lastOf, expired_some, Bool.and_eq_true]
      omega

/-- The wait is over when it has begun and each activity is done or the deadline has passed. -/
theorem expired_returnTime (start : Nat) (deadline : Option Nat) (times : List (Option Nat))
    (now : Nat) :
    expired (returnTime start deadline times) now =
      (expired (some start) now && times.all fun c => expired c now || expired deadline now) := by
  induction times with
  | nil => simp [returnTime]
  | cons c times ih =>
    have step : returnTime start deadline (c :: times) =
        lastOf (firstOf (lastOf c (some start)) deadline) (returnTime start deadline times) := rfl
    rw [step, expired_lastOf, expired_firstOf, expired_lastOf, ih, List.all_cons]
    cases expired (some start) now <;> cases expired c now <;> cases expired deadline now <;> rfl

theorem expired_mono {t : Option Nat} {a b : Nat} (h : expired t a = true) (hab : a ≤ b) :
    expired t b = true := by
  obtain ⟨c, rfl, le⟩ := exists_of_expired h
  exact expired_some.mpr (Nat.le_trans le hab)

/-- A time is known by when it has passed. -/
theorem eq_some_iff_expired {t : Option Nat} {τ : Nat} :
    t = some τ ↔ expired t τ = true ∧ ∀ x < τ, expired t x = false := by
  cases t with
  | none => simp [expired]
  | some d =>
    simp only [expired, Option.some.injEq, decide_eq_true_eq, decide_eq_false_iff_not, Nat.not_le]
    constructor
    · rintro rfl
      exact ⟨Nat.le_refl _, fun x hx => hx⟩
    · rintro ⟨le, lt⟩
      by_cases h : d < τ
      · exact absurd (lt d h) (Nat.lt_irrefl _)
      · omega

theorem eq_of_expired {s t : Option Nat} (h : ∀ x, expired s x = expired t x) : s = t := by
  cases t with
  | some τ =>
    rw [eq_some_iff_expired, h]
    exact ⟨expired_some.mpr (Nat.le_refl _), fun x hx => by rw [h]; simpa [expired] using hx⟩
  | none =>
    cases s with
    | none => rfl
    | some τ => exact absurd (h τ) (by simp [expired])

section
variable {now d : Nat} {s : Time.Span}

/-- The time after a span is one that the clock can show. -/
theorem later?_eq_some_iff :
    later? now s = some d ↔ now + s.totalNanos < clockEnd ∧ now + s.totalNanos = d := by
  rw [later?, Option.ite_none_right_eq_some, Option.some.injEq]

theorem later?_of_isSome (h : (later? now s).isSome = true) :
    later? now s = some (now + s.totalNanos) := by
  obtain ⟨d, hd⟩ := Option.isSome_iff_exists.mp h
  obtain ⟨shown, -⟩ := later?_eq_some_iff.mp hd
  exact later?_eq_some_iff.mpr ⟨shown, rfl⟩

theorem start_le_later? (h : later? now s = some d) : now ≤ d := by
  obtain ⟨-, rfl⟩ := later?_eq_some_iff.mp h
  exact Nat.le_add_right _ _

end

end MailDispatch.Shutdown
