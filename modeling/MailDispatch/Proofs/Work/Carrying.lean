import MailDispatch.Proofs.Work.Faithful
import MailDispatch.Proofs.Work.Injected
import MailDispatch.Proofs.Work.Traced

/-! # Carriers that may refuse

Where the store does everything that it is asked for, only the mail can go wrong. Whether the carrier
accepts a mail may hang on all the mail that it was handed before, and it need not refuse the same
mail twice.
-/
namespace MailDispatch
open Store Work Mailing

/-- How a carrier answers a mail after the mail that was handed to it before. -/
abbrev Answers := List Mail → Mail → Except String Unit

def Point.mail? : Point → Option Mail
  | .deliver m => some m
  | .begin | .commit | .rollback | .call _ => none

/-- The mail that was handed over, accepted or not. -/
def handed (past : List Point) : List Mail := past.filterMap Point.mail?

/-- Each of the mails is accepted, one after the other. -/
def Accepted (answers : Answers) : List Mail → List Mail → Prop
  | _, [] => True
  | before, m :: ms => answers before m = .ok () ∧ Accepted answers (before ++ [m]) ms

/-- The backend performs every call, and its carrier answers as given. What it was asked for so far
is kept beside its states. -/
structure Backend.Carries {σ : Type} (b : Backend σ) (scene : σ → Scene) (answers : Answers)
    (calm : List Point → σ → Prop) : Prop where
  call : ∀ {past s}, calm past s → ∀ token c,
    ∃ s', b.call token c s = (.ofExcept ((scene s).store.call token c).1, s') ∧
      calm (past ++ [.call c]) s' ∧
      scene s' = { scene s with store := ((scene s).store.call token c).2 }
  accept : ∀ {past s}, calm past s → ∀ {m}, answers (handed past) m = .ok () →
    ∃ s', b.deliver m s = (.value (), s') ∧ calm (past ++ [.deliver m]) s' ∧
      scene s' = { scene s with outbox := (scene s).outbox ++ [m] }
  refuse : ∀ {past s}, calm past s → ∀ {m r}, answers (handed past) m = .error r →
    ∃ s', b.deliver m s = (.error r, s') ∧ calm (past ++ [.deliver m]) s' ∧ scene s' = scene s
  log : ∀ {past s}, calm past s → ∀ r, calm past (b.log r s) ∧ scene (b.log r s) = scene s

@[simp] theorem handed_append (past more : List Point) :
    handed (past ++ more) = handed past ++ handed more :=
  List.filterMap_append

@[simp] theorem handed_call (past : List Point) (c : Call) :
    handed (past ++ [.call c]) = handed past :=
  (handed_append past [.call c]).trans (List.append_nil _)

/-! ## Watching -/

def Query.point? : Query → Option Point
  | .begin _ => some .begin
  | .commit _ _ => some .commit
  | .rollback _ _ => some .rollback
  | .call _ c => some (.call c)
  | .deliver m => some (.deliver m)
  | .log _ => none

/-- A watched backend carries as it does unwatched, and what it was asked for is what was watched. -/
theorem Backend.Carries.traced {σ : Type} {b : Backend σ} {scene : σ → Scene} {answers : Answers}
    {calm : List Point → σ → Prop} (h : b.Carries scene answers calm) :
    b.traced.Carries (fun s => scene s.1) answers
      fun past s => calm past s.1 ∧ s.2.filterMap Query.point? = past where
  call := by
    rintro past ⟨s, asked⟩ ⟨hs, rfl⟩ token c
    obtain ⟨s', hcall, hs', hscene⟩ := h.call hs token c
    refine ⟨(s', asked ++ [.call token c]), ?_, ⟨hs', List.filterMap_append⟩, hscene⟩
    simp only [Backend.traced, hcall]
  accept := by
    rintro past ⟨s, asked⟩ ⟨hs, rfl⟩ m hm
    obtain ⟨s', hdeliver, hs', hscene⟩ := h.accept hs hm
    refine ⟨(s', asked ++ [.deliver m]), ?_, ⟨hs', List.filterMap_append⟩, hscene⟩
    simp only [Backend.traced, hdeliver]
  refuse := by
    rintro past ⟨s, asked⟩ ⟨hs, rfl⟩ m r hm
    obtain ⟨s', hdeliver, hs', hscene⟩ := h.refuse hs hm
    refine ⟨(s', asked ++ [.deliver m]), ?_, ⟨hs', List.filterMap_append⟩, hscene⟩
    simp only [Backend.traced, hdeliver]
  log := by
    rintro past ⟨s, asked⟩ ⟨hs, rfl⟩ r
    obtain ⟨hs', hscene⟩ := h.log hs r
    exact ⟨⟨hs', List.filterMap_append.trans (List.append_nil _)⟩, hscene⟩

/-! ## Every carrier -/

namespace Injected

def scene (s : Injected) : Scene := ⟨s.store, s.outbox⟩

/-- The plan by which nothing fails but the mail that is refused. -/
def refusing (answers : Answers) : Plan
  | past, .deliver m =>
    match answers (handed past.reverse) m with
    | .ok _ => .nothing
    | .error r => .refusal r
  | _, _ => .nothing

theorem carries (answers : Answers) :
    backend.Carries scene answers
      fun past s => s.plan = refusing answers ∧ s.past = past.reverse where
  call := by
    rintro past s ⟨hplan, hpast⟩ token c
    refine ⟨{ s with past := .call c :: s.past, store := (s.store.call token c).2 }, ?_,
      ⟨hplan, by simp [hpast]⟩, rfl⟩
    simp only [backend, Injected.call, meets, hplan, refusing, scene]
    rcases s.store.call token c with ⟨p | a, store⟩ <;> rfl
  accept := by
    rintro past s ⟨hplan, hpast⟩ m hm
    refine ⟨{ s with past := .deliver m :: s.past, outbox := s.outbox ++ [m] }, ?_,
      ⟨hplan, by simp [hpast]⟩, rfl⟩
    simp only [backend, Injected.deliver, meets, hplan, refusing, hpast, List.reverse_reverse, hm]
  refuse := by
    rintro past s ⟨hplan, hpast⟩ m r hm
    refine ⟨{ s with past := .deliver m :: s.past }, ?_, ⟨hplan, by simp [hpast]⟩, rfl⟩
    simp only [backend, Injected.deliver, meets, hplan, refusing, hpast, List.reverse_reverse, hm]
  log := by
    rintro past s ⟨hplan, hpast⟩ r
    exact ⟨⟨hplan, hpast⟩, rfl⟩

end Injected
end MailDispatch
