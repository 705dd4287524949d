import Mathlib.Data.List.Basic
import Mathlib.Data.List.TakeWhile
import MailDispatch.Mailing.Draft

/-! # What a draft must be

The check of an address looks for its marks one after the other, each time in the whole text. Taken
together these looks accept just what the grammar of addresses derives. The check of a draft reports
a field if and only if the field is wrong, and it reports the wrong ones in their order.
-/
namespace MailDispatch.Mailing
open Text

/-! ## Addresses -/

/-- Cut at the first at sign, a text is an address if its parts are ones and the points in the domain
separate something. -/
theorem isAddress_append_iff {user domain : List Char} (h : '@' ∉ user) :
    isAddress (user ++ '@' :: domain) = true ↔
      IsPart user ∧ (∀ c ∈ domain, c ≠ '@' ∧ isBlank c = false) ∧ '.' ∈ domain ∧
        ∀ l ∈ split '.' domain, l ≠ [] := by
  have huser : ∀ c ∈ user, decide (c ≠ '@') = true := by
    intro c hc
    exact decide_eq_true fun he => h (he ▸ hc)
  have htake : (user ++ '@' :: domain).takeWhile (· ≠ '@') = user := by
    rw [List.takeWhile_append_of_pos huser, List.takeWhile_cons_of_neg (by simp), List.append_nil]
  have hdrop : (user ++ '@' :: domain).dropWhile (· ≠ '@') = '@' :: domain := by
    rw [List.dropWhile_append_of_pos huser, List.dropWhile_cons_of_neg (by simp)]
  simp only [isAddress, htake, hdrop]
  simp only [IsPart, Bool.and_eq_true, Bool.not_eq_true', List.isEmpty_eq_false_iff,
    List.contains_eq_mem, decide_eq_false_iff_not, decide_eq_true_eq, List.any_append,
    List.any_cons, Bool.or_eq_false_iff, List.any_eq_false, Bool.not_eq_true, List.all_eq_true]
  constructor
  · rintro ⟨⟨⟨⟨hne, hat⟩, hblank, -, hblank'⟩, hpoint⟩, hlabels⟩
    refine ⟨⟨hne, fun c hc => ⟨?_, hblank c hc⟩⟩, fun c hc => ⟨?_, hblank' c hc⟩, hpoint, hlabels⟩
    · exact fun he => h (he ▸ hc)
    · exact fun he => hat (he ▸ hc)
  · rintro ⟨⟨hne, huser⟩, hdomain, hpoint, hlabels⟩
    refine ⟨⟨⟨⟨hne, ?_⟩, fun c hc => (huser c hc).2, by decide, ?_⟩, hpoint⟩, hlabels⟩
    · exact fun hat => (hdomain _ hat).1 rfl
    · exact fun c hc => (hdomain c hc).2

theorem at_mem_of_isAddress {s : List Char} (h : isAddress s = true) : '@' ∈ s := by
  by_contra hat
  have hdrop : s.dropWhile (· ≠ '@') = [] := by
    rw [List.dropWhile_eq_nil_iff]
    intro c hc
    exact decide_eq_true fun he => hat (he ▸ hc)
  simp only [isAddress, hdrop] at h
  cases h

/-- The check accepts exactly the grammar of addresses. -/
theorem isAddress_iff {s : List Char} : isAddress s = true ↔ IsAddress s := by
  constructor
  · intro h
    obtain ⟨user, domain, rfl, hat⟩ := List.eq_append_cons_of_mem (at_mem_of_isAddress h)
    obtain ⟨huser, hdomain, hpoint, hlabels⟩ := (isAddress_append_iff hat).mp h
    refine ⟨user, split '.' domain, by rw [join_split], ?_, huser, ?_⟩
    · have hcount := List.count_pos_iff.mpr hpoint
      rw [length_split]
      omega
    · intro l hl
      exact ⟨⟨hlabels l hl, fun c hc => hdomain c (mem_of_mem_split hl hc)⟩, not_mem_of_mem_split hl⟩
  · rintro ⟨user, labels, rfl, htwo, huser, hlabels⟩
    have hsplit : split '.' (join '.' labels) = labels :=
      split_join (fun l hl => (hlabels l hl).2) (List.ne_nil_of_length_pos (by omega))
    refine (isAddress_append_iff fun hat => (huser.2 _ hat).1 rfl).mpr ⟨huser, ?_, ?_, ?_⟩
    · intro c hc
      rcases mem_join.mp hc with ⟨l, hl, hc⟩ | ⟨rfl, -⟩
      · exact (hlabels l hl).1.2 c hc
      · decide
    · exact mem_join.mpr (.inr ⟨rfl, htwo⟩)
    · rw [hsplit]
      exact fun l hl => (hlabels l hl).1.1

/-- No address is blank: it has an at sign. -/
theorem IsAddress.not_blank {s : List Char} (h : IsAddress s) : ∃ c ∈ s, isBlank c = false := by
  obtain ⟨user, labels, rfl, -, -, -⟩ := h
  exact ⟨'@', by simp, by decide⟩

/-! ## Drafts -/

theorem allBlank_iff {s : String} : allBlank s = true ↔ ∀ c ∈ s.toList, isBlank c = true :=
  List.all_eq_true

theorem mem_problemIf {p q : DraftProblem} {wrong : Bool} :
    p ∈ problemIf q wrong ↔ p = q ∧ wrong = true := by
  cases wrong <;> simp [problemIf]

namespace Draft

/-- What is wrong with a draft that has the given problem. -/
def Has (d : Draft) : DraftProblem → Prop
  | .mailingMissing => d.mailing.val = 0
  | .emailMissing => ∀ c ∈ d.email.toList, isBlank c = true
  | .emailMalformed => (∃ c ∈ d.email.toList, isBlank c = false) ∧ ¬ IsAddress d.email.toList
  | .titleMissing => ∀ c ∈ d.title.toList, isBlank c = true
  | .contentMissing => ∀ c ∈ d.content.toList, isBlank c = true

variable {d : Draft}

theorem mem_emailProblems {p : DraftProblem} :
    p ∈ emailProblems d.email ↔ (p = .emailMissing ∨ p = .emailMalformed) ∧ d.Has p := by
  unfold emailProblems
  cases hblank : allBlank d.email with
  | true =>
    have hall : d.Has .emailMissing := allBlank_iff.mp hblank
    rw [if_pos rfl, List.mem_singleton]
    constructor
    · rintro rfl
      exact ⟨.inl rfl, hall⟩
    · rintro ⟨rfl | rfl, hhas⟩
      · rfl
      · obtain ⟨⟨c, hc, hc'⟩, -⟩ := hhas
        exact Bool.noConfusion ((hall c hc).symm.trans hc')
  | false =>
    have hsome : ∃ c ∈ d.email.toList, isBlank c = false := by simpa [allBlank] using hblank
    rw [if_neg Bool.false_ne_true, mem_problemIf, Bool.not_eq_true', ← Bool.not_eq_true,
      isAddress_iff]
    constructor
    · rintro ⟨rfl, hwrong⟩
      exact ⟨.inr rfl, hsome, hwrong⟩
    · rintro ⟨rfl | rfl, hhas⟩
      · exact Bool.noConfusion (hblank.symm.trans (allBlank_iff.mpr hhas))
      · exact ⟨rfl, hhas.2⟩

/-- A draft is reported to have the problems that it has. -/
theorem mem_problems {p : DraftProblem} : p ∈ d.problems ↔ d.Has p := by
  simp only [problems, List.mem_append, mem_problemIf, mem_emailProblems, beq_iff_eq, allBlank_iff]
  cases p <;> simp [Has]

/-- The problems come in the order of the fields, and each at most once. -/
theorem problems_sublist (d : Draft) : d.problems.Sublist
    [.mailingMissing, .emailMissing, .emailMalformed, .titleMissing, .contentMissing] := by
  have hone : ∀ p wrong, (problemIf p wrong).Sublist [p] := by
    intro p wrong
    cases wrong <;> simp [problemIf]
  have hemail : (emailProblems d.email).Sublist [.emailMissing, .emailMalformed] := by
    unfold emailProblems
    split
    · exact List.sublist_append_left [_] [_]
    · exact (hone _ _).trans (List.sublist_append_right [_] [_])
  exact (((hone .mailingMissing _).append hemail).append (hone .titleMissing _)).append
    (hone .contentMissing _)

theorem check_eq_ok_iff_problems : d.check = .ok () ↔ d.problems = [] := by
  unfold check
  cases d.problems <;> simp

theorem problems_eq_nil_iff : d.problems = [] ↔
    d.mailing.val ≠ 0 ∧ IsAddress d.email.toList ∧ (∃ c ∈ d.title.toList, isBlank c = false) ∧
      ∃ c ∈ d.content.toList, isBlank c = false := by
  have hsome : ∀ s : List Char, (∃ c ∈ s, isBlank c = false) ↔ ¬ ∀ c ∈ s, isBlank c = true := by
    simp
  simp only [List.eq_nil_iff_forall_not_mem, mem_problems, hsome]
  constructor
  · intro h
    refine ⟨h .mailingMissing, ?_, h .titleMissing, h .contentMissing⟩
    by_contra hemail
    exact h .emailMalformed ⟨(hsome _).mpr (h .emailMissing), hemail⟩
  · rintro ⟨hmailing, hemail, htitle, hcontent⟩ (_ | _ | _ | _ | _)
    · exact hmailing
    · exact (hsome _).mp hemail.not_blank
    · exact fun h => h.2 hemail
    · exact htitle
    · exact hcontent

theorem message_mem_iff {p : DraftProblem} :
    p.message ∈ d.problems.map DraftProblem.message ↔ d.Has p := by
  have hinjective : Function.Injective DraftProblem.message := by
    intro p q
    cases p <;> cases q <;> decide
  rw [List.mem_map_of_injective hinjective, mem_problems]

/-- The check of an address accepts exactly its grammar. A draft passes its check if and only if it
names a mailing, an address, a title and a content. Otherwise it is refused with a list of just those
fields that are wrong, in their order. -/
theorem check_reports_what_is_wrong :
    (∀ s : List Char, isAddress s = true ↔ IsAddress s) ∧
      ∀ d : Draft,
        (d.check = .ok () ↔ d.mailing.val ≠ 0 ∧ IsAddress d.email.toList ∧
          (∃ c ∈ d.title.toList, isBlank c = false) ∧
          ∃ c ∈ d.content.toList, isBlank c = false) ∧
        ∃ texts : List String,
          (d.check = if texts = [] then .ok () else
            .error (.badInput ("invalid request body: " ++ ", ".intercalate texts))) ∧
          texts.Sublist ["mailing_id: required", "email: required", "email: email",
            "title: required", "content: required"] ∧
          ("mailing_id: required" ∈ texts ↔ d.mailing.val = 0) ∧
          ("email: required" ∈ texts ↔ ∀ c ∈ d.email.toList, isBlank c = true) ∧
          ("email: email" ∈ texts ↔
            (∃ c ∈ d.email.toList, isBlank c = false) ∧ ¬ IsAddress d.email.toList) ∧
          ("title: required" ∈ texts ↔ ∀ c ∈ d.title.toList, isBlank c = true) ∧
          ("content: required" ∈ texts ↔ ∀ c ∈ d.content.toList, isBlank c = true) := by
  refine ⟨fun s => isAddress_iff, fun d => ⟨?_, d.problems.map DraftProblem.message, ?_, ?_, ?_⟩⟩
  · exact check_eq_ok_iff_problems.trans problems_eq_nil_iff
  · unfold check
    cases d.problems <;> rfl
  · exact (problems_sublist d).map DraftProblem.message
  · exact ⟨message_mem_iff (p := .mailingMissing), message_mem_iff (p := .emailMissing),
      message_mem_iff (p := .emailMalformed), message_mem_iff (p := .titleMissing),
      message_mem_iff (p := .contentMissing)⟩

example : (Draft.mk ⟨0⟩ "jan@@example.com" "" " \t" .earliest).problems =
    [.mailingMissing, .emailMalformed, .titleMissing, .contentMissing] := by
  decide

end Draft
end MailDispatch.Mailing
