import MailDispatch.Work.Transaction

/-! # What a backend is asked for

A backend is watched without being changed: beside its own state, a list is kept of everything that
it is asked for. What a transaction asks for is in that list, in its order, whatever is answered.
-/
namespace MailDispatch
open Store Work Mailing

variable {σ ε α : Type}

/-! ## Watching a backend -/

/-- What a backend is asked for. The answers are kept where they say how a transaction goes on. -/
inductive Query where
  | begin (answer : Outcome Store.Problem Token)
  | commit (token : Token) (answer : Outcome Store.Problem Unit)
  | rollback (token : Token) (answer : Outcome Store.Problem Unit)
  | call (token : Token) (c : Call)
  | deliver (m : Mail)
  | log (r : Log.Record)

/-- The work in a transaction asks for calls in it, for deliveries, and for records under its own
operation. -/
def Query.OfWork (operation : Option Log.Operation) (token : Token) : Query → Prop
  | .call t _ => t = token
  | .deliver _ => True
  | .log r => r.operation = operation
  | .begin _ | .commit _ _ | .rollback _ _ => False

def Query.answered {β : Type} : Except Store.Problem β → Outcome Store.Problem β
  | .ok a => .value a
  | .error p => .error p

def Backend.Stage.crashed (c : Crash) : Backend.Stage → Query
  | .begin => .begin (.crash c)
  | .commit token => .commit token (.crash c)
  | .rollback token => .rollback token (.crash c)

def Backend.traced (b : Backend σ) : Backend (σ × List Query) where
  begin s := ((b.begin s.1).1, (b.begin s.1).2, s.2 ++ [.begin (Query.answered (b.begin s.1).1)])
  commit token s :=
    ((b.commit token s.1).1, (b.commit token s.1).2,
      s.2 ++ [.commit token (Query.answered (b.commit token s.1).1)])
  rollback token s :=
    ((b.rollback token s.1).1, (b.rollback token s.1).2,
      s.2 ++ [.rollback token (Query.answered (b.rollback token s.1).1)])
  call token c s :=
    ((b.call token c s.1).1, (b.call token c s.1).2, s.2 ++ [.call token c])
  deliver m s := ((b.deliver m s.1).1, (b.deliver m s.1).2, s.2 ++ [.deliver m])
  log r s := (b.log r s.1, s.2 ++ [.log r])
  crash stage s := (b.crash stage s.1).map fun (c, t) => (c, t, s.2 ++ [stage.crashed c])

theorem Backend.foldl_traced (b : Backend σ) (rs : List Log.Record) (s : σ) (before : List Query) :
    rs.foldl (fun s r => b.traced.log r s) (s, before) =
      (rs.foldl (fun s r => b.log r s) s, before ++ rs.map .log) := by
  induction rs generalizing s before with
  | nil =>
    rw [List.map_nil, List.append_nil]
    rfl
  | cons r rs ih =>
    rw [List.map_cons, List.append_cons]
    exact ih _ _

section
variable {operation : Option Log.Operation} {token : Token} {before : List Query}

/-- A watched run of work is the same run, with what it has asked for. -/
def Traces (operation : Option Log.Operation) (token : Token) (before : List Query)
    (ran : Outcome ε α × σ) (traced : Outcome ε α × σ × List Query) : Prop :=
  ∃ asked, (∀ q ∈ asked, q.OfWork operation token) ∧ traced = (ran.1, ran.2, before ++ asked)

theorem Traces.nil (o : Outcome ε α) (s : σ) :
    Traces operation token before (o, s) (o, s, before) :=
  ⟨[], by simp, by simp⟩

theorem Traces.cons {q : Query} (hq : q.OfWork operation token) {ran : Outcome ε α × σ}
    {traced : Outcome ε α × σ × List Query}
    (h : Traces operation token (before ++ [q]) ran traced) :
    Traces operation token before ran traced := by
  obtain ⟨asked, hasked, htraced⟩ := h
  exact ⟨q :: asked, List.forall_mem_cons.mpr ⟨hq, hasked⟩, by simp [htraced]⟩

/-- Watched work does what it does unwatched, and asks for nothing beyond its transaction. -/
theorem Work.run_traced (b : Backend σ) (operation : Option Log.Operation) (token : Token)
    (w : Work ε α) (s : σ) (before : List Query) :
    Traces operation token before (w.run b operation token s)
      (w.run b.traced operation token (s, before)) := by
  induction w generalizing s before with
  | done | fail | crash => exact .nil _ s
  | call c next ih =>
    have hq : (Query.call token c).OfWork operation token := rfl
    have htraced : b.traced.call token c (s, before) =
        ((b.call token c s).1, (b.call token c s).2, before ++ [.call token c]) := rfl
    simp only [Work.run, htraced]
    generalize b.call token c s = answered
    rcases answered with ⟨a | p | x, t⟩
    · exact .cons hq (ih (.ok a) t _)
    · exact .cons hq (ih (.error p) t _)
    · exact .cons hq (.nil _ t)
  | deliver m next ih =>
    have hq : (Query.deliver m).OfWork operation token := trivial
    have htraced : b.traced.deliver m (s, before) =
        ((b.deliver m s).1, (b.deliver m s).2, before ++ [.deliver m]) := rfl
    simp only [Work.run, htraced]
    generalize b.deliver m s = answered
    rcases answered with ⟨u | e | x, t⟩
    · exact .cons hq (ih (.ok u) t _)
    · exact .cons hq (ih (.error e) t _)
    · exact .cons hq (.nil _ t)
  | log e next ih => exact .cons (q := .log ⟨e, operation⟩) rfl (ih (b.log ⟨e, operation⟩ s) _)

end

namespace Transaction

/-! ## The end of a transaction -/

section
variable (operation : Option Log.Operation) (token : Token)

/-- A transaction is rolled back, whatever comes of that, and ends as it was going to. -/
inductive Resigning (ended : Ended ε α) : List Query → Ended ε α → Prop where
  | done : Resigning ended [.rollback token (.value ())] ended
  | failed (p : Store.Problem) :
    Resigning ended
      [.rollback token (.error p),
        .log
          ⟨{ level := .error, part := .transactions, message := "error rolling back transaction"
             fields := [("error", .text p.text)] }, operation⟩]
      ended
  | crashed (c : Crash) : Resigning ended [.rollback token (.crash c)] (.crashed c)

/-- What a transaction asks for after its work has come to an end, and how the whole ends. -/
inductive Closing : Outcome ε α → List Query → Ended ε α → Prop where
  | committed (a : α) : Closing (.value a) [.commit token (.value ())] (.value a)
  | notCommitted (a : α) (p : Store.Problem) :
    Closing (.value a) [.commit token (.error p)] (.notCommitted p)
  | commitCrashed (a : α) (c : Crash) : Closing (.value a) [.commit token (.crash c)] (.crashed c)
  | failed (e : ε) {asked : List Query} {ended : Ended ε α}
    (resigned : Resigning operation token (.failed e) asked ended) : Closing (.error e) asked ended
  | crashed (c : Crash) {asked : List Query} {ended : Ended ε α}
    (resigned : Resigning operation token (.crashed c) asked ended) :
    Closing (.crash c)
      (.log
        ⟨{ level := .error, part := .transactions, message := "unit of work panicked, rolling back"
           fields := [("panic", .text c.message)] }, operation⟩ :: asked)
      ended

end

variable {operation : Option Log.Operation} {token : Token}

theorem resigning_giveUp (b : Backend σ) (operation : Option Log.Operation) (token : Token)
    (ended : Ended ε α) (s : σ) (before : List Query) :
    ∃ asked, Resigning operation token ended asked (giveUp b operation token ended s).1 ∧
      giveUp b.traced operation token ended (s, before) =
        ((giveUp b operation token ended s).1, (giveUp b operation token ended s).2,
          before ++ asked) := by
  have hcrash : b.traced.crash (.rollback token) (s, before) =
      (b.crash (.rollback token) s).map fun (c, t) =>
        (c, t, before ++ [.rollback token (.crash c)]) := rfl
  have hrollback : b.traced.rollback token (s, before) =
      ((b.rollback token s).1, (b.rollback token s).2,
        before ++ [.rollback token (Query.answered (b.rollback token s).1)]) := rfl
  unfold giveUp
  rw [hcrash]
  cases b.crash (.rollback token) s with
  | some crashed => exact ⟨_, .crashed crashed.1, rfl⟩
  | none =>
    simp only [Option.map_none, rollback, hrollback]
    rcases b.rollback token s with ⟨u | p, t⟩
    · exact ⟨_, .failed u, by simp [Backend.traced, Query.answered, rollbackEvent]⟩
    · exact ⟨_, .done, rfl⟩

theorem closing_finish (b : Backend σ) (operation : Option Log.Operation) (token : Token)
    (ran : Outcome ε α × σ) (before : List Query) :
    ∃ asked, Closing operation token ran.1 asked (finish b operation token ran).1 ∧
      finish b.traced operation token (ran.1, ran.2, before) =
        ((finish b operation token ran).1, (finish b operation token ran).2, before ++ asked) := by
  rcases ran with ⟨a | e | c, s⟩
  · have hcrash : b.traced.crash (.commit token) (s, before) =
        (b.crash (.commit token) s).map fun (c, t) =>
          (c, t, before ++ [.commit token (.crash c)]) := rfl
    have hcommit : b.traced.commit token (s, before) =
        ((b.commit token s).1, (b.commit token s).2,
          before ++ [.commit token (Query.answered (b.commit token s).1)]) := rfl
    simp only [finish, hcrash, hcommit]
    cases b.crash (.commit token) s with
    | some crashed => exact ⟨_, .commitCrashed a crashed.1, rfl⟩
    | none =>
      rcases b.commit token s with ⟨p | u, t⟩
      · exact ⟨_, .notCommitted a p, rfl⟩
      · exact ⟨_, .committed a, rfl⟩
  · obtain ⟨asked, hresigned, htraced⟩ :=
      resigning_giveUp b operation token (.failed (α := α) e) s before
    exact ⟨asked, .failed e hresigned, htraced⟩
  · obtain ⟨asked, hresigned, htraced⟩ := resigning_giveUp b operation token
      (.crashed (ε := ε) (α := α) c) (b.log ⟨crashEvent c, operation⟩ s)
      (before ++ [.log ⟨crashEvent c, operation⟩])
    refine ⟨_, .crashed c hresigned, ?_⟩
    rw [List.append_assoc] at htraced
    exact htraced

/-! ## Whole transactions -/

/-- What a transaction asks for from its beginning on, and how it ends. -/
inductive Transcript (b : Backend σ) (operation : Option Log.Operation) (w : Work ε α) (s : σ) :
    List Query → Ended ε α → Prop where
  | beginCrashed {c : Crash} {t : σ} (crashes : b.crash .begin s = some (c, t)) :
    Transcript b operation w s [.begin (.crash c)] (.crashed c)
  | notBegun {p : Store.Problem} (runs : b.crash .begin s = none)
    (refused : (b.begin s).1 = .error p) :
    Transcript b operation w s [.begin (.error p)] (.notBegun p)
  | begun {token : Token} {asked closing : List Query} {ended : Ended ε α}
    (runs : b.crash .begin s = none) (opened : (b.begin s).1 = .ok token)
    (ofWork : ∀ q ∈ asked, q.OfWork operation token)
    (closed : Closing operation token (w.run b operation token (b.begin s).2).1 closing ended) :
    Transcript b operation w s (.begin (.value token) :: asked ++ closing) ended

/-- What a transaction that was opened asks for: what its work asks for, and then the closing. -/
theorem closing_within (b : Backend σ) (operation : Option Log.Operation) (w : Work ε α) {s : σ}
    {token : Token} (runs : b.crash .begin s = none) (opened : (b.begin s).1 = .ok token)
    {before asked : List Query}
    (worked : w.run b.traced operation token ((b.begin s).2, before ++ [.begin (.value token)]) =
      ((w.run b operation token (b.begin s).2).1, (w.run b operation token (b.begin s).2).2,
        before ++ [.begin (.value token)] ++ asked)) :
    ∃ closing,
      Closing operation token (w.run b operation token (b.begin s).2).1 closing
        (within b operation w s).1 ∧
      within b.traced operation w (s, before) =
        ((within b operation w s).1, (within b operation w s).2,
          before ++ (.begin (.value token) :: asked ++ closing)) := by
  have hcrash : b.traced.crash .begin (s, before) = none := by
    simp only [Backend.traced, runs, Option.map_none]
  have hbegin : b.traced.begin (s, before) =
      (.ok token, (b.begin s).2, before ++ [.begin (.value token)]) := by
    simp only [Backend.traced, opened, Query.answered]
  have hwithin : within b operation w s =
      finish b operation token (w.run b operation token (b.begin s).2) := by
    have hbegun : b.begin s = (.ok token, (b.begin s).2) := Prod.ext opened rfl
    unfold within around
    rw [runs, hbegun]
  obtain ⟨closing, hclosing, hclosed⟩ := closing_finish b operation token
    (w.run b operation token (b.begin s).2) (before ++ [.begin (.value token)] ++ asked)
  rw [hwithin]
  refine ⟨closing, hclosing, ?_⟩
  simp only [within, around, hcrash, hbegin, worked, hclosed]
  simp

theorem transcript_within (b : Backend σ) (operation : Option Log.Operation) (w : Work ε α) (s : σ)
    (before : List Query) :
    ∃ asked, Transcript b operation w s asked (within b operation w s).1 ∧
      within b.traced operation w (s, before) =
        ((within b operation w s).1, (within b operation w s).2, before ++ asked) := by
  have hcrash : b.traced.crash .begin (s, before) =
      (b.crash .begin s).map fun (c, t) => (c, t, before ++ [.begin (.crash c)]) := rfl
  have hbegin : b.traced.begin (s, before) = ((b.begin s).1, (b.begin s).2,
      before ++ [.begin (Query.answered (b.begin s).1)]) := rfl
  cases hruns : b.crash .begin s with
  | some crashed =>
    simp only [within, around, hcrash, hruns, Option.map_some]
    exact ⟨_, .beginCrashed hruns, rfl⟩
  | none =>
    rcases hbegun : b.begin s with ⟨p | token, t⟩
    · simp only [within, around, hcrash, hbegin, hruns, hbegun, Option.map_none]
      exact ⟨_, .notBegun hruns (by rw [hbegun]), rfl⟩
    · have hopened : (b.begin s).1 = .ok token := by rw [hbegun]
      obtain ⟨asked, hasked, hworked⟩ :=
        Work.run_traced b operation token w (b.begin s).2 (before ++ [.begin (.value token)])
      obtain ⟨closing, hclosing, hclosed⟩ := closing_within b operation w hruns hopened hworked
      exact ⟨_, .begun hruns hopened hasked hclosing, hclosed⟩

/-- A value is the result of nothing but a commit that has succeeded. -/
theorem Transcript.value_iff {b : Backend σ} {w : Work ε α} {s : σ} {asked : List Query}
    {ended : Ended ε α} (h : Transcript b operation w s asked ended) :
    (∃ a, ended = .value a) ↔ ∃ token, Query.commit token (.value ()) ∈ asked := by
  have hresigned : ∀ {token} {going : Ended ε α} {qs : List Query} {ended : Ended ε α},
      Resigning operation token going qs ended → (∀ a, going ≠ .value a) →
        (∀ a, ended ≠ .value a) ∧ ∀ token, Query.commit token (.value ()) ∉ qs := by
    intro token going qs ended h hgoing
    cases h with
    | done => exact ⟨hgoing, by simp⟩
    | failed p => exact ⟨hgoing, by simp⟩
    | crashed c => exact ⟨by simp, by simp⟩
  cases h with
  | beginCrashed crashes => simp
  | notBegun runs refused => simp
  | @begun token asked closing ended runs opened ofWork closed =>
    have hasked : ∀ token, Query.commit token (.value ()) ∉ asked := fun token hmem =>
      ofWork _ hmem
    generalize (w.run b operation token (b.begin s).2).1 = outcome at closed
    cases closed with
    | committed a => simp
    | notCommitted a p => simp [hasked]
    | commitCrashed a c => simp [hasked]
    | failed e resigned =>
      obtain ⟨hended, hclosing⟩ := hresigned resigned (by simp)
      simp [hended, hclosing, hasked]
    | crashed c resigned =>
      obtain ⟨hended, hclosing⟩ := hresigned resigned (by simp)
      simp [hended, hclosing, hasked]

end Transaction

end MailDispatch
