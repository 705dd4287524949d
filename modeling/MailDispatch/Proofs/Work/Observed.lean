import MailDispatch.Proofs.Work.Telling
import MailDispatch.Proofs.Work.Traced

/-! # What a backend answers

A backend is observed without being changed: beside its own state, a list is kept of everything that
it was asked for, each with the answer. So it can be told of every record in the log what came
before it, and what a record says can be compared with what has happened.
-/
namespace MailDispatch
open Store Work Mailing

variable {σ ε δ α β γ : Type}

inductive Observation where
  | begun (answer : Outcome Store.Problem Token)
  | committed (token : Token) (answer : Outcome Store.Problem Unit)
  | rolledBack (token : Token) (answer : Outcome Store.Problem Unit)
  | called (token : Token) (c : Call) (answer : Outcome Store.Problem c.Answer)
  | delivered (m : Mail) (answer : Outcome String Unit)
  | logged (r : Log.Record)

def Observation.record? : Observation → Option Log.Record
  | .logged r => some r
  | _ => none

def Backend.Stage.broken (c : Crash) : Backend.Stage → Observation
  | .begin => .begun (.crash c)
  | .commit token => .committed token (.crash c)
  | .rollback token => .rolledBack token (.crash c)

/-- The records among what was observed. -/
def recordsOf (seen : List Observation) : List Log.Record := seen.filterMap Observation.record?

theorem recordsOf_append (xs ys : List Observation) :
    recordsOf (xs ++ ys) = recordsOf xs ++ recordsOf ys :=
  List.filterMap_append

theorem recordsOf_records (rs : List Log.Record) : recordsOf (rs.map .logged) = rs := by
  induction rs with
  | nil => rfl
  | cons r rs ih => exact congrArg (r :: ·) ih

theorem logged_mem_of_mem_recordsOf {r : Log.Record} {seen : List Observation}
    (h : r ∈ recordsOf seen) : .logged r ∈ seen := by
  obtain ⟨x, hx, hr⟩ := List.mem_filterMap.mp h
  cases x with
  | logged r' =>
    obtain rfl := Option.some.inj hr
    exact hx
  | begun | committed | rolledBack | called | delivered => cases hr

/-- Every record is right, given all that was observed before it. -/
def Told (Q : List Observation → Log.Record → Prop) (before seen : List Observation) : Prop :=
  ∀ pre r post, seen = pre ++ .logged r :: post → Q (before ++ pre) r

section
variable {Q Q' : List Observation → Log.Record → Prop} {before : List Observation}

theorem told_nil : Told Q before [] := by
  intro pre r post h
  simp at h

theorem told_cons {x : Observation} {xs : List Observation} :
    Told Q before (x :: xs) ↔
      (∀ r, x = .logged r → Q before r) ∧ Told Q (before ++ [x]) xs := by
  constructor
  · intro h
    refine ⟨fun r hr => ?_, fun pre r post hxs => ?_⟩
    · have first := h [] r xs (by rw [hr]; rfl)
      rwa [List.append_nil] at first
    · have later := h (x :: pre) r post (by rw [hxs]; rfl)
      rwa [List.append_cons] at later
  · rintro ⟨hfirst, hlater⟩ pre r post h
    cases pre with
    | nil =>
      obtain ⟨rfl, -⟩ := List.cons.inj h
      rw [List.append_nil]
      exact hfirst r rfl
    | cons y pre =>
      obtain ⟨rfl, hxs⟩ := List.cons.inj h
      rw [List.append_cons]
      exact hlater pre r post hxs

theorem told_append {xs ys : List Observation} :
    Told Q before (xs ++ ys) ↔ Told Q before xs ∧ Told Q (before ++ xs) ys := by
  induction xs generalizing before with
  | nil => simp [told_nil]
  | cons x xs ih =>
    rw [List.cons_append, told_cons, told_cons, ih, and_assoc, List.append_cons before x xs]

theorem told_logged {r : Log.Record} : Told Q before [.logged r] ↔ Q before r := by
  rw [told_cons]
  constructor
  · intro h
    exact h.1 r rfl
  · intro h
    refine ⟨fun r' hr => ?_, told_nil⟩
    obtain rfl := Observation.logged.inj hr
    exact h

theorem told_records {rs : List Log.Record} (h : ∀ r ∈ rs, ∀ past, Q past r) :
    Told Q before (rs.map .logged) := by
  induction rs generalizing before with
  | nil => exact told_nil
  | cons r rs ih =>
    obtain ⟨hr, hrs⟩ := List.forall_mem_cons.mp h
    refine told_cons.mpr ⟨fun r' hr' => ?_, ih hrs⟩
    obtain rfl := Observation.logged.inj hr'
    exact hr before

theorem Told.mono (h : Told Q before xs) (hQ : ∀ past r, Q past r → Q' past r) :
    Told Q' before xs :=
  fun pre r post hxs => hQ _ r (h pre r post hxs)

theorem Told.of_mem (h : Told Q before xs) {r : Log.Record} (hr : r ∈ recordsOf xs) :
    ∃ past, Q past r := by
  obtain ⟨pre, post, hxs⟩ := List.append_of_mem (logged_mem_of_mem_recordsOf hr)
  exact ⟨_, h pre r post hxs⟩

end

/-! ## Observing a backend -/

def Backend.observed (b : Backend σ) : Backend (σ × List Observation) where
  begin s := ((b.begin s.1).1, (b.begin s.1).2, s.2 ++ [.begun (Query.answered (b.begin s.1).1)])
  commit token s :=
    ((b.commit token s.1).1, (b.commit token s.1).2,
      s.2 ++ [.committed token (Query.answered (b.commit token s.1).1)])
  rollback token s :=
    ((b.rollback token s.1).1, (b.rollback token s.1).2,
      s.2 ++ [.rolledBack token (Query.answered (b.rollback token s.1).1)])
  call token c s :=
    ((b.call token c s.1).1, (b.call token c s.1).2, s.2 ++ [.called token c (b.call token c s.1).1])
  deliver m s := ((b.deliver m s.1).1, (b.deliver m s.1).2, s.2 ++ [.delivered m (b.deliver m s.1).1])
  log r s := (b.log r s.1, s.2 ++ [.logged r])
  crash stage s := (b.crash stage s.1).map fun (c, t) => (c, t, s.2 ++ [stage.broken c])

theorem Backend.foldl_observed (b : Backend σ) (rs : List Log.Record) (s : σ)
    (before : List Observation) :
    rs.foldl (fun s r => b.observed.log r s) (s, before) =
      (rs.foldl (fun s r => b.log r s) s, before ++ rs.map .logged) := by
  induction rs generalizing s before with
  | nil =>
    rw [List.map_nil, List.append_nil]
    rfl
  | cons r rs ih =>
    rw [List.map_cons, List.append_cons]
    exact ih _ _

/-- What is run on an observed backend runs as it does unobserved, every record in it is right, and
the log grows by these records. -/
def Observed (b : Backend σ) (Q : List Observation → Log.Record → Prop) (before : List Observation)
    (s : σ) (ran : β × σ) (watched : β × σ × List Observation) : Prop :=
  ∃ seen, watched = (ran.1, ran.2, before ++ seen) ∧ Told Q before seen ∧
    ∀ records, b.Logs records → records ran.2 = records s ++ recordsOf seen

namespace Observed

variable {b : Backend σ} {Q : List Observation → Log.Record → Prop} {before : List Observation}
variable {s : σ}

theorem nil (x : β) (s : σ) : Observed b Q before s (x, s) (x, s, before) :=
  ⟨[], by rw [List.append_nil], told_nil, fun _ _ => (List.append_nil _).symm⟩

theorem cons {x : Observation} {t : σ} {ran : β × σ} {watched : β × σ × List Observation}
    (right : ∀ r, x = .logged r → Q before r)
    (grows : ∀ records, b.Logs records → records t = records s ++ recordsOf [x])
    (h : Observed b Q (before ++ [x]) t ran watched) : Observed b Q before s ran watched := by
  obtain ⟨seen, hwatched, htold, hrecords⟩ := h
  refine ⟨x :: seen, ?_, told_cons.mpr ⟨right, htold⟩, fun records hlogs => ?_⟩
  · rw [hwatched, List.append_cons before x seen]
  · rw [hrecords records hlogs, grows records hlogs, List.append_assoc, ← recordsOf_append]
    rfl

/-- Something is asked for and answered that is no record. -/
theorem asked {x : Observation} {t : σ} {ran : β × σ} {watched : β × σ × List Observation}
    (silent : x.record? = none) (grows : ∀ records, b.Logs records → records t = records s)
    (h : Observed b Q (before ++ [x]) t ran watched) : Observed b Q before s ran watched := by
  refine h.cons (fun r hr => ?_) fun records hlogs => ?_
  · rw [hr] at silent
    cases silent
  · rw [grows records hlogs, recordsOf, List.filterMap_cons_none silent]
    exact (List.append_nil _).symm

theorem logged {r : Log.Record} {ran : β × σ} {watched : β × σ × List Observation}
    (right : Q before r) (h : Observed b Q (before ++ [.logged r]) (b.log r s) ran watched) :
    Observed b Q before s ran watched := by
  refine h.cons (fun r' hr => ?_) fun records hlogs => hlogs.log r s
  obtain rfl := Observation.logged.inj hr
  exact right

theorem map {ran : β × σ} {watched : β × σ × List Observation}
    (h : Observed b Q before s ran watched) (f : β → γ) :
    Observed b Q before s (f ran.1, ran.2) (f watched.1, watched.2) := by
  obtain ⟨seen, rfl, htold, hrecords⟩ := h
  exact ⟨seen, rfl, htold, hrecords⟩

/-- One thing after the other. -/
theorem trans {t : σ} {seen : List Observation} {ran : γ × σ}
    {watched : γ × σ × List Observation} (told : Told Q before seen)
    (grows : ∀ records, b.Logs records → records t = records s ++ recordsOf seen)
    (h : Observed b Q (before ++ seen) t ran watched) : Observed b Q before s ran watched := by
  obtain ⟨more, hwatched, htold, hrecords⟩ := h
  refine ⟨seen ++ more, ?_, told_append.mpr ⟨told, htold⟩, fun records hlogs => ?_⟩
  · rw [hwatched, List.append_assoc]
  · rw [hrecords records hlogs, grows records hlogs, recordsOf_append, List.append_assoc]

end Observed

/-! ## Work -/

namespace Work

/-- Every event that work may report is right under its operation, whatever was observed before. -/
def Grounded (Q : List Observation → Log.Record → Prop) (operation : Option Log.Operation)
    (token : Token) : List Observation → Work ε α → Prop
  | _, done _ | _, fail _ | _, crash _ => True
  | before, call c next =>
    ∀ r, (next r).Grounded Q operation token (before ++ [.called token c (Query.answered r)])
  | before, deliver m next =>
    ∀ r : Except String Unit, (next r).Grounded Q operation token
      (before ++ [.delivered m (match r with
        | .ok u => .value u
        | .error e => .error e)])
  | before, log e next =>
    Q before ⟨e, operation⟩ ∧ next.Grounded Q operation token (before ++ [.logged ⟨e, operation⟩])

section
variable {Q : List Observation → Log.Record → Prop} {operation : Option Log.Operation}
variable {token : Token} {before : List Observation}

theorem Grounded.bind {w : Work ε α} {f : α → Work ε β} (h : w.Grounded Q operation token before)
    (hf : ∀ a past, (f a).Grounded Q operation token past) :
    (w.bind f).Grounded Q operation token before := by
  induction w generalizing before with
  | done a => exact hf a before
  | fail | crash => trivial
  | call c next ih => exact fun r => ih r (h r)
  | deliver m next ih => exact fun r => ih r (h r)
  | log e next ih => exact ⟨h.1, ih h.2⟩

/-- Events that are right in any case need no grounds. -/
theorem Tells.grounded {P : Log.Event → Prop} {w : Work ε α} (h : w.Tells P)
    (hQ : ∀ e past, P e → Q past ⟨e, operation⟩) (before : List Observation) :
    w.Grounded Q operation token before := by
  induction w generalizing before with
  | done | fail | crash => trivial
  | call c next ih => exact fun r => ih r (h r) _
  | deliver m next ih => exact fun r => ih r (h r) _
  | log e next ih => exact ⟨hQ e before h.1, ih h.2 _⟩

theorem Grounded.run {b : Backend σ} {w : Work ε α} (h : w.Grounded Q operation token before)
    (s : σ) :
    Observed b Q before s (w.run b operation token s)
      (w.run b.observed operation token (s, before)) := by
  induction w generalizing before s with
  | done | fail | crash => exact .nil _ s
  | call c next ih =>
    have hcalled : b.observed.call token c (s, before) = ((b.call token c s).1,
        (b.call token c s).2, before ++ [.called token c (b.call token c s).1]) := rfl
    have grows : ∀ records, b.Logs records → records (b.call token c s).2 = records s :=
      fun records hlogs => hlogs.call token c s
    simp only [Work.run, hcalled]
    generalize b.call token c s = called at grows ⊢
    rcases called with ⟨a | p | x, t⟩
    · exact .asked rfl grows (ih (.ok a) (h (.ok a)) t)
    · exact .asked rfl grows (ih (.error p) (h (.error p)) t)
    · exact .asked rfl grows (.nil _ t)
  | deliver m next ih =>
    have hdelivered : b.observed.deliver m (s, before) = ((b.deliver m s).1,
        (b.deliver m s).2, before ++ [.delivered m (b.deliver m s).1]) := rfl
    have grows : ∀ records, b.Logs records → records (b.deliver m s).2 = records s :=
      fun records hlogs => hlogs.deliver m s
    simp only [Work.run, hdelivered]
    generalize b.deliver m s = delivered at grows ⊢
    rcases delivered with ⟨u | e | x, t⟩
    · exact .asked rfl grows (ih (.ok u) (h (.ok u)) t)
    · exact .asked rfl grows (ih (.error e) (h (.error e)) t)
    · exact .asked rfl grows (.nil _ t)
  | log e next ih => exact .logged h.1 (ih h.2 _)

end

end Work

/-! ## Transactions -/

namespace Transaction

section
variable {b : Backend σ} {Q : List Observation → Log.Record → Prop}
variable {operation : Option Log.Operation} {token : Token} {before : List Observation} {s : σ}

/-- What a transaction itself reports is right: a crash of its work, and a rollback that has failed
just before. -/
structure Reporting (Q : List Observation → Log.Record → Prop) (operation : Option Log.Operation) :
    Prop where
  crashed : ∀ c past, Q past ⟨crashEvent c, operation⟩
  unrolled : ∀ token p past,
    Q (past ++ [.rolledBack token (.error p)]) ⟨rollbackEvent p, operation⟩

theorem Reporting.giveUp (h : Reporting Q operation) (b : Backend σ) (token : Token)
    (ended : Ended ε α) (before : List Observation) (s : σ) :
    Observed b Q before s (giveUp b operation token ended s)
      (giveUp b.observed operation token ended (s, before)) := by
  have hcrash : b.observed.crash (.rollback token) (s, before) =
      (b.crash (.rollback token) s).map fun (c, t) =>
        (c, t, before ++ [.rolledBack token (.crash c)]) := rfl
  have hrollback : b.observed.rollback token (s, before) = ((b.rollback token s).1,
      (b.rollback token s).2,
      before ++ [.rolledBack token (Query.answered (b.rollback token s).1)]) := rfl
  unfold Transaction.giveUp
  rw [hcrash]
  cases hcrashes : b.crash (.rollback token) s with
  | some crashed => exact .asked rfl (fun _ hlogs => hlogs.crash hcrashes) (.nil _ _)
  | none =>
    have grows : ∀ records, b.Logs records → records (b.rollback token s).2 = records s :=
      fun records hlogs => hlogs.rollback token s
    simp only [Option.map_none, rollback, hrollback]
    generalize b.rollback token s = rolled at grows ⊢
    rcases rolled with ⟨p | u, t⟩
    · exact .asked rfl grows (.logged (h.unrolled token p before) (.nil _ _))
    · exact .asked rfl grows (.nil _ _)

theorem Reporting.finish (h : Reporting Q operation) (b : Backend σ) (token : Token)
    (ran : Outcome ε α × σ) (before : List Observation) :
    Observed b Q before ran.2 (finish b operation token ran)
      (finish b.observed operation token (ran.1, ran.2, before)) := by
  rcases ran with ⟨a | e | c, s⟩
  · have hcrash : b.observed.crash (.commit token) (s, before) =
        (b.crash (.commit token) s).map fun (c, t) =>
          (c, t, before ++ [.committed token (.crash c)]) := rfl
    have hcommit : b.observed.commit token (s, before) = ((b.commit token s).1,
        (b.commit token s).2,
        before ++ [.committed token (Query.answered (b.commit token s).1)]) := rfl
    simp only [Transaction.finish, hcrash, hcommit]
    cases hcrashes : b.crash (.commit token) s with
    | some crashed => exact .asked rfl (fun _ hlogs => hlogs.crash hcrashes) (.nil _ _)
    | none =>
      have grows : ∀ records, b.Logs records → records (b.commit token s).2 = records s :=
        fun records hlogs => hlogs.commit token s
      dsimp only [Option.map_none]
      generalize b.commit token s = committed at grows ⊢
      rcases committed with ⟨p | u, t⟩
      · exact .asked rfl grows (.nil _ _)
      · exact .asked rfl grows (.nil _ _)
  · exact h.giveUp b token (.failed e) before s
  · exact .logged (h.crashed c before) (h.giveUp b token (.crashed c) _ _)

/-- A transaction ends as it does unobserved, and all that it reports is right. -/
theorem Reporting.within (h : Reporting Q operation) (b : Backend σ) {w : Work ε α}
    (grounded : ∀ token past, w.Grounded Q operation token past) (before : List Observation)
    (s : σ) :
    Observed b Q before s (within b operation w s) (within b.observed operation w (s, before)) := by
  have hcrash : b.observed.crash .begin (s, before) =
      (b.crash .begin s).map fun (c, t) => (c, t, before ++ [.begun (.crash c)]) := rfl
  have hbegin : b.observed.begin (s, before) = ((b.begin s).1, (b.begin s).2,
      before ++ [.begun (Query.answered (b.begin s).1)]) := rfl
  unfold Transaction.within around
  rw [hcrash]
  cases hcrashes : b.crash .begin s with
  | some crashed => exact .asked rfl (fun _ hlogs => hlogs.crash hcrashes) (.nil _ _)
  | none =>
    have grows : ∀ records, b.Logs records → records (b.begin s).2 = records s :=
      fun records hlogs => hlogs.begin s
    simp only [Option.map_none, hbegin]
    generalize b.begin s = begun at grows ⊢
    rcases begun with ⟨p | token, t⟩
    · exact .asked rfl grows (.nil _ _)
    · refine .asked (x := .begun (.value token)) rfl grows ?_
      obtain ⟨seen, hran, told, adds⟩ := (grounded token _).run (b := b) t
      refine .trans told adds ?_
      dsimp only [Query.answered]
      rw [hran]
      exact h.finish b token _ _

theorem ended_of_giveUp {b : Backend σ} {ended given : Ended ε α} {t : σ}
    (h : Transaction.giveUp b operation token ended s = (given, t)) :
    given = ended ∨ ∃ c, given = .crashed c := by
  unfold Transaction.giveUp at h
  split at h
  · obtain ⟨rfl, -⟩ := Prod.mk.inj h
    exact .inr ⟨_, rfl⟩
  · obtain ⟨rfl, -⟩ := Prod.mk.inj h
    exact .inl rfl

/-- Only what is committed is a value in the end. -/
theorem commit_of_finish {b : Backend σ} {ran : Outcome ε α × σ} {a : α} {t : σ}
    (h : Transaction.finish b operation token ran = (.value a, t)) :
    ∃ s u, ran = (.value a, s) ∧ b.commit token s = (.ok u, t) := by
  rcases ran with ⟨x | e | c, s⟩
  · simp only [Transaction.finish] at h
    split at h
    · cases h
    · split at h
      · next u s' hcommit =>
        obtain ⟨hvalue, rfl⟩ := Prod.mk.inj h
        obtain rfl := Ended.value.inj hvalue
        exact ⟨s, u, rfl, hcommit⟩
      · cases h
  · rcases ended_of_giveUp h with hended | ⟨c, hended⟩
    · cases hended
    · cases hended
  · rcases ended_of_giveUp h with hended | ⟨c, hended⟩
    · cases hended
    · cases hended

/-- A transaction that gives a value has observed its work, and then the commit. -/
theorem exists_run_of_value {w : Work ε α} {a : α} {t : σ} {after : List Observation}
    (h : Transaction.within b.observed operation w (s, before) = (.value a, t, after)) :
    ∃ token start past ended worked,
      w.run b.observed operation token (start, past) = (.value a, ended, worked) ∧
        after = worked ++ [.committed token (.value ())] := by
  unfold Transaction.within around at h
  split at h
  · cases h
  · split at h
    · next token started hbegun =>
      obtain ⟨⟨ended, worked⟩, u, hran, hcommit⟩ := commit_of_finish h
      refine ⟨token, started.1, started.2, ended, worked, hran, ?_⟩
      obtain ⟨hanswer, hstate⟩ := Prod.mk.inj hcommit
      rw [← (Prod.mk.inj hstate).2, hanswer]
      rfl
    · cases h

end

end Transaction

end MailDispatch
