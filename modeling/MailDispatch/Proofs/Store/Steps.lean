import MailDispatch.Store.History

/-! # The steps of a history

All that a user's action can come to: it opens, asks or finishes the one transaction that
is open, or it is put off and changes nothing.
-/
namespace MailDispatch.Store

namespace Locked

theorem view?_eq_some_iff {s : Locked} {token : Token} {w : Tables} :
    s.view? token = some w ↔ s.opened = some (token, w) := by
  constructor
  · intro h
    unfold view? at h
    split at h
    · next u working ho =>
      split at h
      · next heq =>
        obtain rfl := Option.some.inj h
        rw [ho, heq]
      · cases h
    · cases h
  · intro h
    simp [view?, h]

theorem call_of_opened {s : Locked} {token : Token} {w : Tables}
    (h : s.opened = some (token, w)) (c : Call) :
    s.call token c =
      ((w.perform c).1, { s with opened := some (token, (w.perform c).2) }) := by
  simp [call, view?_eq_some_iff.mpr h]

theorem abandon_of_opened {s : Locked} {token : Token} {w : Tables}
    (h : s.opened = some (token, w)) : s.abandon token = { s with opened := none } := by
  rw [abandon, rollback_of_view? (view?_eq_some_iff.mpr h)]

theorem exists_begin? {s : Locked} (h : s.opened = none) :
    ∃ token l, s.begin? = some (token, l) ∧ l.view? token = some s.committed :=
  ⟨s.next, { s with opened := some (s.next, s.committed), next := s.next + 1 },
    by simp [begin?, h], by simp [view?]⟩

inductive Step (s : Locked) : Action → Reply → Locked → Prop where
  | opens (h : s.opened = none) :
    Step s .begin (.opened s.next)
      { s with opened := some (s.next, s.committed), next := s.next + 1 }
  | waits (h : s.opened ≠ none) : Step s .begin .waits s
  | asks {token : Token} {w : Tables} (c : Call) (h : s.opened = some (token, w)) :
    Step s (.call token c) (.answered c (w.perform c).1)
      { s with opened := some (token, (w.perform c).2) }
  | commits {token : Token} {w : Tables} (h : s.opened = some (token, w)) :
    Step s (.commit token) (.finished (.ok ())) { s with committed := w, opened := none }
  | rollsBack {token : Token} {w : Tables} (h : s.opened = some (token, w)) :
    Step s (.rollback token) (.finished (.ok ())) { s with opened := none }
  | asksClosed {token : Token} (c : Call) (h : s.view? token = none) :
    Step s (.call token c) (.answered c (.error .closed)) s
  | commitsClosed {token : Token} (h : s.view? token = none) :
    Step s (.commit token) (.finished (.error .closed)) s
  | rollsBackClosed {token : Token} (h : s.view? token = none) :
    Step s (.rollback token) (.finished (.error .closed)) s

theorem step_act (s : Locked) (a : Action) : Step s a (s.act a).1 (s.act a).2 := by
  cases a with
  | begin =>
    cases ho : s.opened with
    | none =>
      have hb : s.begin? =
          some (s.next, { s with opened := some (s.next, s.committed), next := s.next + 1 }) := by
        simp [begin?, ho]
      simp only [act, hb]
      exact .opens ho
    | some p =>
      have hb : s.begin? = none := by simp [begin?, ho]
      simp only [act, hb]
      exact .waits (by simp [ho])
  | call token c =>
    cases hv : s.view? token with
    | none =>
      simp only [act, call_of_view?_none hv c]
      exact .asksClosed c hv
    | some w =>
      have ho := view?_eq_some_iff.mp hv
      simp only [act, call_of_opened ho c]
      exact .asks c ho
  | commit token =>
    cases hv : s.view? token with
    | none =>
      have hcommit : s.commit token = (.error .closed, s) := by simp [commit, hv]
      simp only [act, hcommit]
      exact .commitsClosed hv
    | some w =>
      simp only [act, commit_of_view? hv]
      exact .commits (view?_eq_some_iff.mp hv)
  | rollback token =>
    cases hv : s.view? token with
    | none =>
      have hrollback : s.rollback token = (.error .closed, s) := by simp [rollback, hv]
      simp only [act, hrollback]
      exact .rollsBackClosed hv
    | some w =>
      simp only [act, rollback_of_view? hv]
      exact .rollsBack (view?_eq_some_iff.mp hv)

/-- A reply of a history is the reply of one of its steps, after those before it. -/
theorem exists_act_of_mem_replay {s : Locked} {as : List Action} {r : Reply}
    (h : r ∈ (s.replay as).1) : ∃ bs a, r = ((s.replay bs).2.act a).1 := by
  induction as generalizing s with
  | nil => cases h
  | cons b as ih =>
    rcases List.mem_cons.mp h with rfl | h
    · exact ⟨[], b, rfl⟩
    · obtain ⟨bs, a, hr⟩ := ih h
      exact ⟨b :: bs, a, hr⟩

/-- An answer comes from the tables of the open transaction, or there are none. -/
theorem perform_of_answered {s : Locked} {a : Action} {c : Call} {x : Answered c}
    (h : (s.act a).1 = .answered c x) :
    x = .error .closed ∨ ∃ token w, s.opened = some (token, w) ∧ x = (w.perform c).1 := by
  have hstep := step_act s a
  generalize s.act a = outcome at h hstep
  obtain ⟨r, s'⟩ := outcome
  subst h
  cases hstep with
  | asks _ ho => exact Or.inr ⟨_, _, ho, rfl⟩
  | asksClosed _ _ => exact Or.inl rfl

end Locked
end MailDispatch.Store
