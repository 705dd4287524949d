import MailDispatch.Proofs.Store.Slots

/-! # Serial runs

Transactions that run one after the other need no lock: each starts on what those
before it have committed, and leaves nothing behind unless it commits. What the users
of a store did is told by the actions of a history alone, transaction by transaction
in the order of their opening; running these accounts one after the other gives the
answers of the history and its tables.
-/
namespace MailDispatch.Store

abbrev Exchange : Type := (c : Call) × Answered c

/-- Calls one after the other, with nobody else about. -/
def Tables.performAll (t : Tables) : List Call → List Exchange × Tables
  | [] => ([], t)
  | c :: cs =>
    let (answer, t) := t.perform c
    let (exchanges, t) := t.performAll cs
    (⟨c, answer⟩ :: exchanges, t)

theorem Tables.performAll_concat (t : Tables) (cs : List Call) (c : Call) :
    t.performAll (cs ++ [c]) =
      ((t.performAll cs).1 ++ [⟨c, ((t.performAll cs).2.perform c).1⟩],
        ((t.performAll cs).2.perform c).2) := by
  induction cs generalizing t with
  | nil => rfl
  | cons d cs ih => simp only [List.cons_append, performAll, ih]

/-- The calls of a transaction, and whether it is committed after them. -/
structure Script where
  calls : List Call
  commits : Bool

def serial (t : Tables) : List Script → List (List Exchange) × Tables
  | [] => ([], t)
  | x :: xs =>
    let (exchanges, w) := t.performAll x.calls
    let (rest, u) := serial (if x.commits then w else t) xs
    (exchanges :: rest, u)

theorem serial_concat (t : Tables) (xs : List Script) (x : Script) :
    serial t (xs ++ [x]) =
      ((serial t xs).1 ++ [((serial t xs).2.performAll x.calls).1],
        if x.commits then ((serial t xs).2.performAll x.calls).2 else (serial t xs).2) := by
  induction xs generalizing t with
  | nil => simp [serial]
  | cons y xs ih => simp only [List.cons_append, serial, ih]

/-! ## Accounts -/

inductive Fate where
  | running
  | committed
  | rolledBack
  deriving DecidableEq

/-- What a transaction was asked and answered while it ran, and what became of it. -/
structure Account where
  token : Token
  exchanges : List Exchange := []
  fate : Fate := .running

namespace Account

def calls (x : Account) : List Call := x.exchanges.map (·.1)

def script (x : Account) : Script := ⟨x.calls, x.fate == .committed⟩

/-- Only a transaction that runs takes part in an action on its token. -/
def update (token : Token) (f : Account → Account) (x : Account) : Account :=
  if x.token = token ∧ x.fate = .running then f x else x

def asked (c : Call) (answer : Answered c) (x : Account) : Account :=
  { x with exchanges := x.exchanges ++ [⟨c, answer⟩] }

def ended (fate : Fate) (x : Account) : Account := { x with fate }

end Account

def note (xs : List Account) : Action × Reply → List Account
  | (.begin, .opened token) => xs ++ [{ token }]
  | (.call token _, .answered c answer) => xs.map (Account.update token (.asked c answer))
  | (.commit token, _) => xs.map (Account.update token (.ended .committed))
  | (.rollback token, _) => xs.map (Account.update token (.ended .rolledBack))
  | _ => xs

/-- The transactions of a history with its replies, in the order of their opening. -/
def accounts (history : List (Action × Reply)) : List Account := history.foldl note []

/-! ## The accounts of a store -/

/-- Accounts of transactions that are all over, and the tables that these leave. -/
structure Settled (t : Tables) (xs : List Account) (u : Tables) : Prop where
  finished : ∀ x ∈ xs, x.fate ≠ .running
  serial : serial t (xs.map (·.script)) = (xs.map (·.exchanges), u)

/-- The accounts explain a store that began with the given tables. -/
inductive Accounted (t : Tables) : List Account → Locked → Prop where
  | idle {xs : List Account} {l : Locked} (settled : Settled t xs l.committed)
    (fresh : ∀ x ∈ xs, x.token < l.next) (closed : l.opened = none) : Accounted t xs l
  | busy {xs : List Account} {x : Account} {l : Locked} {w : Tables}
    (settled : Settled t xs l.committed) (fresh : ∀ y ∈ xs, y.token < x.token)
    (next : l.next = x.token + 1) (running : x.fate = .running)
    (opened : l.opened = some (x.token, w))
    (performed : l.committed.performAll x.calls = (x.exchanges, w)) : Accounted t (xs ++ [x]) l

theorem Settled.update {t u : Tables} {xs : List Account} (h : Settled t xs u) (token : Token)
    (f : Account → Account) : xs.map (Account.update token f) = xs := by
  have hsame : ∀ x ∈ xs, Account.update token f x = id x := by
    intro x hx
    simp [Account.update, h.finished x hx]
  rw [List.map_congr_left hsame, List.map_id]

theorem Settled.concat {t u w : Tables} {xs : List Account} (h : Settled t xs u) {x : Account}
    (finished : x.fate ≠ .running) (performed : u.performAll x.calls = (x.exchanges, w)) :
    Settled t (xs ++ [x]) (if x.fate = .committed then w else u) := by
  refine ⟨?_, ?_⟩
  · intro y hy
    rcases List.mem_append.mp hy with hy | hy
    · exact h.finished y hy
    · obtain rfl := List.mem_singleton.mp hy
      exact finished
  · rw [List.map_append, List.map_singleton, serial_concat, h.serial]
    simp [Account.script, performed]

namespace Accounted

variable {t : Tables} {xs : List Account} {l l' : Locked}

theorem on (t : Tables) : Accounted t [] (.on t) :=
  .idle ⟨by simp, rfl⟩ (by simp) rfl

/-- An action on a token that opens nothing concerns no account. -/
theorem update_of_closed (h : Accounted t xs l) {token : Token} (hv : l.view? token = none)
    (f : Account → Account) : xs.map (Account.update token f) = xs := by
  cases h with
  | idle settled _ _ => exact settled.update token f
  | @busy ys x _ w settled _ _ _ opened _ =>
    have hne : x.token ≠ token := by
      rintro rfl
      rw [Locked.view?_eq_some_iff.mpr opened] at hv
      cases hv
    have hlast : Account.update token f x = x := by simp [Account.update, hne]
    rw [List.map_append, settled.update, List.map_singleton, hlast]

/-- The transaction that is open has the last account, and all others are settled. -/
theorem exists_last (h : Accounted t xs l) {token : Token} {w : Tables}
    (ho : l.opened = some (token, w)) : ∃ ys x, xs = ys ++ [x] ∧ x.token = token ∧
      Settled t ys l.committed ∧ (∀ y ∈ ys, y.token < x.token) ∧ l.next = x.token + 1 ∧
      x.fate = .running ∧ l.committed.performAll x.calls = (x.exchanges, w) := by
  cases h with
  | idle _ _ closed =>
    rw [ho] at closed
    cases closed
  | @busy ys x _ v settled fresh next running opened performed =>
    rw [ho] at opened
    obtain ⟨rfl, rfl⟩ := by simpa using opened
    exact ⟨ys, x, rfl, rfl, settled, fresh, next, running, performed⟩

/-- The end of the transaction that runs ends its account. -/
theorem ends (h : Accounted t xs l) {token : Token} {w : Tables}
    (ho : l.opened = some (token, w)) (fate : Fate) (finished : fate ≠ .running) :
    Accounted t (xs.map (Account.update token (.ended fate)))
      ⟨if fate = .committed then w else l.committed, none, l.next⟩ := by
  obtain ⟨ys, x, rfl, rfl, settled, fresh, next, running, performed⟩ := h.exists_last ho
  have hlast : Account.update x.token (.ended fate) x = x.ended fate := by
    simp [Account.update, running]
  rw [List.map_append, settled.update, List.map_singleton, hlast]
  refine .idle (settled.concat (x := x.ended fate) finished performed) ?_ rfl
  intro y hy
  change y.token < l.next
  rw [next]
  rcases List.mem_append.mp hy with hy | hy
  · exact Nat.lt_succ_of_lt (fresh y hy)
  · obtain rfl := List.mem_singleton.mp hy
    exact Nat.lt_succ_self x.token

/-- What a step does to a store, noting it does to the accounts. -/
theorem step (h : Accounted t xs l) {a : Action} {r : Reply} (hstep : Locked.Step l a r l') :
    Accounted t (note xs (a, r)) l' := by
  -- All accounts but the last are settled, so a step that concerns one concerns the last.
  cases hstep with
  | opens ho =>
    cases h with
    | idle settled fresh _ =>
      exact .busy (x := { token := l.next }) settled fresh rfl rfl rfl rfl
    | busy _ _ _ _ opened _ =>
      rw [ho] at opened
      cases opened
  | waits _ => exact h
  | @asks token w c ho =>
    obtain ⟨ys, x, rfl, rfl, settled, fresh, next, running, performed⟩ := h.exists_last ho
    have hlast : Account.update x.token (.asked c (w.perform c).1) x =
        x.asked c (w.perform c).1 := by
      simp [Account.update, running]
    have hcalls : (x.asked c (w.perform c).1).calls = x.calls ++ [c] := by
      simp [Account.calls, Account.asked]
    simp only [note]
    rw [List.map_append, settled.update, List.map_singleton, hlast]
    refine .busy settled fresh next running rfl ?_
    rw [hcalls, Tables.performAll_concat, performed]
    rfl
  | commits ho => exact h.ends ho .committed (by simp)
  | rollsBack ho => exact h.ends ho .rolledBack (by simp)
  | asksClosed c hv =>
    simp only [note]
    rwa [h.update_of_closed hv]
  | commitsClosed hv =>
    simp only [note]
    rwa [h.update_of_closed hv]
  | rollsBackClosed hv =>
    simp only [note]
    rwa [h.update_of_closed hv]

theorem replay (h : Accounted t xs l) (as : List Action) :
    Accounted t ((as.zip (l.replay as).1).foldl note xs) (l.replay as).2 := by
  induction as generalizing xs l with
  | nil => exact h
  | cons a as ih => exact ih (h.step (Locked.step_act l a))

/-- A transaction that runs is the open one, and works on the committed tables after its own
calls. -/
theorem opened_of_running (h : Accounted t xs l) {x : Account} (hx : x ∈ xs)
    (hr : x.fate = .running) :
    l.opened = some (x.token, (l.committed.performAll x.calls).2) := by
  cases h with
  | idle settled _ _ => exact absurd hr (settled.finished x hx)
  | busy settled _ _ _ opened performed =>
    rcases List.mem_append.mp hx with hx | hx
    · exact absurd hr (settled.finished x hx)
    · obtain rfl := List.mem_singleton.mp hx
      rw [performed]
      exact opened

theorem exists_running_iff (h : Accounted t xs l) :
    (∃ x ∈ xs, x.fate = .running) ↔ l.opened ≠ none := by
  constructor
  · rintro ⟨x, hx, hr⟩
    simp [h.opened_of_running hx hr]
  · intro ho
    cases h with
    | idle _ _ closed => exact absurd closed ho
    | @busy ys x _ _ _ _ _ running _ _ =>
      exact ⟨x, List.mem_append_right ys (List.mem_singleton.mpr rfl), running⟩

theorem countP_running_le (h : Accounted t xs l) :
    (xs.countP fun x => x.fate == .running) ≤ 1 := by
  have hover : ∀ {ys u}, Settled t ys u → (ys.countP fun x => x.fate == .running) = 0 := by
    intro ys u settled
    rw [List.countP_eq_zero]
    intro y hy
    simpa using settled.finished y hy
  cases h with
  | idle settled _ _ => simp [hover settled]
  | busy settled _ _ running _ _ => simp [List.countP_append, hover settled, running]

theorem view?_of_over (h : Accounted t xs l) {x : Account} (hx : x ∈ xs)
    (hover : x.fate ≠ .running) : l.view? x.token = none := by
  cases h with
  | idle _ _ closed => exact Locked.view?_of_closed closed x.token
  | @busy ys y _ w settled fresh _ running opened _ =>
    rcases List.mem_append.mp hx with hx | hx
    · rw [Locked.view?_of_opened opened, if_neg (Nat.ne_of_lt (fresh x hx))]
    · obtain rfl := List.mem_singleton.mp hx
      exact absurd running hover

theorem serial_eq (h : Accounted t xs l) :
    serial t (xs.map (·.script)) = (xs.map (·.exchanges), l.committed) := by
  cases h with
  | idle settled _ _ => exact settled.serial
  | @busy ys x _ w settled _ _ running _ performed =>
    have hscript : x.script = ⟨x.calls, false⟩ := by simp [Account.script, running]
    rw [List.map_append, List.map_singleton, hscript, serial_concat, settled.serial]
    simp [performed]

end Accounted

/-- However users interleave what they do with a store, at most one transaction is open at a
time and it sees the committed tables and its own changes; the answers and the committed tables
are those of the transactions run one after the other in the order of their opening; and who
holds a finished one learns and changes nothing. A store that is a lock with one slot for each
transaction does the same. -/
theorem histories_serialise (t : Tables) (as : List Action) :
    let l := (Locked.on t).replay as
    let s := (Slots.on t).replay as
    let xs := accounts (as.zip l.1)
    (s.1 = l.1 ∧ s.2.committed = l.2.committed) ∧
      (∀ i j, s.2.working? i ≠ none → s.2.working? j ≠ none → i = j) ∧
      (xs.countP fun x => x.fate == .running) ≤ 1 ∧
      ((l.2.act .begin).1 = .waits ↔ ∃ x ∈ xs, x.fate = .running) ∧
      (∀ x ∈ xs, x.fate = .running → ∀ c,
        (l.2.call x.token c).1 = ((l.2.committed.performAll x.calls).2.perform c).1) ∧
      serial t (xs.map (·.script)) = (xs.map (·.exchanges), l.2.committed) ∧
      ∀ x ∈ xs, x.fate ≠ .running → ∀ c,
        l.2.act (.call x.token c) = (.answered c (.error .closed), l.2) ∧
          s.2.act (.call x.token c) = (.answered c (.error .closed), s.2) := by
  intro l s xs
  have haccounted : Accounted t xs l.2 := (Accounted.on t).replay as
  obtain ⟨hreplies, hagrees⟩ := (Agrees.on t).replay as
  have hagrees : Agrees l.2 s.2 := hagrees
  refine ⟨⟨hreplies, hagrees.committed⟩, fun i j => hagrees.unique,
    haccounted.countP_running_le, ?_, ?_, haccounted.serial_eq, ?_⟩
  · rw [haccounted.exists_running_iff]
    cases ho : l.2.opened <;> simp [Locked.act, Locked.begin?, ho]
  · intro x hx hr c
    have hview := Locked.view?_eq_some_iff.mpr (haccounted.opened_of_running hx hr)
    exact (Locked.call_of_view? hview c).1
  · intro x hx hover c
    have hview := haccounted.view?_of_over hx hover
    refine ⟨?_, ?_⟩
    · simp [Locked.act, Locked.call_of_view?_none hview]
    · simp [Slots.act, hagrees.working, hview]

/-- The second user has to wait, and the first one still asks after the end of his transaction. -/
theorem late_question_reveals_nothing :
    let as : List Action := [.begin, .begin, .call 0 (.insertCustomer "anna@example.com"),
      .commit 0, .begin, .call 0 (.deleteCustomer ⟨1⟩), .call 1 (.customerById ⟨1⟩)]
    let l := (Locked.on .empty).replay as
    let xs := accounts (as.zip l.1)
    (xs.map fun x => (x.token, x.calls, x.fate)) =
        [(0, [.insertCustomer "anna@example.com"], .committed),
          (1, [.customerById ⟨1⟩], .running)] ∧
      serial .empty (xs.map (·.script)) = (xs.map (·.exchanges), l.2.committed) ∧
      l.2.act (.call 0 (.deleteCustomer ⟨1⟩)) =
        (.answered (.deleteCustomer ⟨1⟩) (.error .closed), l.2) := by
  intro as l xs
  obtain ⟨-, -, -, -, -, hserial, hover⟩ := histories_serialise .empty as
  have hfirst : (⟨0, [⟨.insertCustomer "anna@example.com", .ok ⟨⟨1⟩, "anna@example.com"⟩⟩],
      .committed⟩ : Account) ∈ xs := .head _
  exact ⟨by decide, hserial, (hover _ hfirst (by simp) (.deleteCustomer ⟨1⟩)).1⟩

end MailDispatch.Store
