import MailDispatch.Proofs.Store.Steps

/-! # A lock and slots

The same store in separate pieces: the committed tables, a lock in front of them, and
for each transaction ever opened a slot of its own that holds its copy of the tables
until it is finished. Nothing here says that only one slot is filled; that only the
one who has the lock fills a slot makes it so, and no history tells this store from
the one with a single open transaction.
-/
namespace MailDispatch.Store

structure Slots where
  committed : Tables
  locked : Bool
  slots : List (Option Tables)

namespace Slots

def on (t : Tables) : Slots := ⟨t, false, []⟩

def working? (s : Slots) (token : Token) : Option Tables := s.slots[token]?.join

def put (s : Slots) (token : Token) (copy : Option Tables) : Slots :=
  { s with slots := s.slots.set token copy }

def act (s : Slots) : Action → Reply × Slots
  | .begin =>
    if s.locked then (.waits, s)
    else
      (.opened s.slots.length,
        { s with locked := true, slots := s.slots ++ [some s.committed] })
  | .call token c =>
    match s.working? token with
    | some w => (.answered c (w.perform c).1, s.put token (some (w.perform c).2))
    | none => (.answered c (.error .closed), s)
  | .commit token =>
    match s.working? token with
    | some w => (.finished (.ok ()), { s.put token none with committed := w, locked := false })
    | none => (.finished (.error .closed), s)
  | .rollback token =>
    match s.working? token with
    | some _ => (.finished (.ok ()), { s.put token none with locked := false })
    | none => (.finished (.error .closed), s)

def replay (s : Slots) : List Action → List Reply × Slots
  | [] => ([], s)
  | a :: as =>
    let (r, s) := s.act a
    let (rs, s) := s.replay as
    (r :: rs, s)

theorem lt_of_working? {s : Slots} {token : Token} {w : Tables} (h : s.working? token = some w) :
    token < s.slots.length := by
  have hjoin : s.slots[token]? = some (some w) := Option.join_eq_some_iff.mp h
  exact (List.getElem?_eq_some_iff.mp hjoin).1

theorem working?_put {s : Slots} {token : Token} {w : Tables} (h : s.working? token = some w)
    (copy : Option Tables) (other : Token) :
    (s.put token copy).working? other = if other = token then copy else s.working? other := by
  have hlt := lt_of_working? h
  unfold working? put
  by_cases heq : other = token
  · subst heq
    simp [hlt]
  · simp [List.getElem?_set_ne (Ne.symm heq), heq]

end Slots

namespace Locked

def on (t : Tables) : Locked := ⟨t, none, 0⟩

theorem view?_of_opened {s : Locked} {token : Token} {w : Tables}
    (h : s.opened = some (token, w)) (other : Token) :
    s.view? other = if other = token then some w else none := by
  by_cases heq : other = token
  · simp [view?, h, heq]
  · simp [view?, h, heq, Ne.symm heq]

theorem view?_of_closed {s : Locked} (h : s.opened = none) (other : Token) :
    s.view? other = none := by
  simp [view?, h]

end Locked

/-- The pieces make up the store with a single open transaction. -/
structure Agrees (l : Locked) (s : Slots) : Prop where
  committed : s.committed = l.committed
  length : s.slots.length = l.next
  locked : s.locked = l.opened.isSome
  working : ∀ token, s.working? token = l.view? token

namespace Agrees

variable {l : Locked} {s : Slots}

theorem on (t : Tables) : Agrees (.on t) (.on t) :=
  ⟨rfl, rfl, rfl, fun _ => rfl⟩

theorem unique (h : Agrees l s) {i j : Token} (hi : s.working? i ≠ none)
    (hj : s.working? j ≠ none) : i = j := by
  rw [h.working, Option.ne_none_iff_exists'] at hi hj
  obtain ⟨v, hv⟩ := hi
  obtain ⟨w, hw⟩ := hj
  have ho := Locked.view?_eq_some_iff.mp hv
  rw [Locked.view?_eq_some_iff.mp hw] at ho
  obtain ⟨rfl, -⟩ := by simpa using ho
  rfl

theorem working_of_opened (h : Agrees l s) {token : Token} {w : Tables}
    (ho : l.opened = some (token, w)) : s.working? token = some w :=
  (h.working token).trans (Locked.view?_eq_some_iff.mpr ho)

theorem opens (h : Agrees l s) (ho : l.opened = none) :
    Agrees { l with opened := some (l.next, l.committed), next := l.next + 1 }
      { s with locked := true, slots := s.slots ++ [some s.committed] } := by
  refine ⟨h.committed, by simp [h.length], rfl, ?_⟩
  intro token
  have hold := h.working token
  rw [Locked.view?_of_closed ho] at hold
  rw [Locked.view?_of_opened (w := l.committed) rfl token, ← h.length, ← h.committed]
  unfold Slots.working? at hold ⊢
  rcases Nat.lt_trichotomy token s.slots.length with hlt | heq | hgt
  · rw [List.getElem?_append_left hlt, hold, if_neg (Nat.ne_of_lt hlt)]
  · simp [heq]
  · rw [List.getElem?_eq_none (by simp; omega), if_neg (Nat.ne_of_gt hgt)]
    rfl

/-- The one who has the lock writes into his slot, or gives slot and lock back. -/
theorem put (h : Agrees l s) {token : Token} {w : Tables} (ho : l.opened = some (token, w))
    (committed : Tables) (copy : Option Tables) :
    Agrees ⟨committed, copy.map fun t => (token, t), l.next⟩
      ⟨committed, copy.isSome, (s.put token copy).slots⟩ := by
  have hw := h.working_of_opened ho
  refine ⟨rfl, by simp [Slots.put, h.length], by simp, ?_⟩
  intro other
  have hput := Slots.working?_put hw copy other
  have hold := h.working other
  rw [Locked.view?_of_opened ho] at hold
  have hview : (⟨committed, copy.map fun t => (token, t), l.next⟩ : Locked).view? other =
      if other = token then copy else none := by
    cases copy with
    | none => simp [Locked.view?]
    | some t => exact Locked.view?_of_opened rfl other
  rw [hview]
  change (s.put token copy).working? other = _
  rw [hput, hold]
  split <;> rfl

theorem act (h : Agrees l s) (a : Action) :
    (s.act a).1 = (l.act a).1 ∧ Agrees (l.act a).2 (s.act a).2 := by
  have hstep := Locked.step_act l a
  generalize l.act a = outcome at hstep ⊢
  obtain ⟨r, l'⟩ := outcome
  cases hstep with
  | opens ho =>
    have hfree : s.locked = false := by simp [h.locked, ho]
    have hact : s.act .begin = (.opened s.slots.length,
        { s with locked := true, slots := s.slots ++ [some s.committed] }) := by
      simp [Slots.act, hfree]
    rw [hact]
    exact ⟨by rw [h.length], h.opens ho⟩
  | waits ho =>
    have htaken : s.locked = true := by
      rw [h.locked]
      exact Option.isSome_iff_ne_none.mpr ho
    have hact : s.act .begin = (.waits, s) := by simp [Slots.act, htaken]
    rw [hact]
    exact ⟨rfl, h⟩
  | @asks token w c ho =>
    have hw := h.working_of_opened ho
    have hlocked : s.locked = true := by simp [h.locked, ho]
    have hact : s.act (.call token c) =
        (.answered c (w.perform c).1, s.put token (some (w.perform c).2)) := by
      simp [Slots.act, hw]
    rw [hact]
    refine ⟨rfl, ?_⟩
    have hput := h.put ho l.committed (some (w.perform c).2)
    rw [← h.committed] at hput
    simpa [Slots.put, hlocked, h.committed] using hput
  | @commits token w ho =>
    have hw := h.working_of_opened ho
    have hact : s.act (.commit token) =
        (.finished (.ok ()), { s.put token none with committed := w, locked := false }) := by
      simp [Slots.act, hw]
    rw [hact]
    exact ⟨rfl, h.put ho w none⟩
  | @rollsBack token w ho =>
    have hw := h.working_of_opened ho
    have hact : s.act (.rollback token) =
        (.finished (.ok ()), { s.put token none with locked := false }) := by
      simp [Slots.act, hw]
    rw [hact]
    have hput := h.put ho s.committed none
    exact ⟨rfl, h.committed ▸ hput⟩
  | @asksClosed token c hv =>
    have hact : s.act (.call token c) = (.answered c (.error .closed), s) := by
      simp [Slots.act, h.working, hv]
    rw [hact]
    exact ⟨rfl, h⟩
  | @commitsClosed token hv =>
    have hact : s.act (.commit token) = (.finished (.error .closed), s) := by
      simp [Slots.act, h.working, hv]
    rw [hact]
    exact ⟨rfl, h⟩
  | @rollsBackClosed token hv =>
    have hact : s.act (.rollback token) = (.finished (.error .closed), s) := by
      simp [Slots.act, h.working, hv]
    rw [hact]
    exact ⟨rfl, h⟩

theorem replay (h : Agrees l s) (as : List Action) :
    (s.replay as).1 = (l.replay as).1 ∧ Agrees (l.replay as).2 (s.replay as).2 := by
  induction as generalizing l s with
  | nil => exact ⟨rfl, h⟩
  | cons a as ih =>
    obtain ⟨hreply, hnext⟩ := h.act a
    obtain ⟨hreplies, hend⟩ := ih hnext
    refine ⟨?_, hend⟩
    simp only [Slots.replay, Locked.replay, hreply, hreplies]

end Agrees
end MailDispatch.Store
