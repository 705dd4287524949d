/-! # Pieces of a text

A text is cut at every occurrence of a separator, and a cut text is joined again by
putting the separator between its pieces.
-/
namespace MailDispatch.Text

/-- The pieces between separators; there is always at least one. -/
def split (sep : Char) : List Char → List (List Char)
  | [] => [[]]
  | c :: rest =>
    if c = sep then [] :: split sep rest
    else
      match split sep rest with
      | [] => [[c]]
      | p :: ps => (c :: p) :: ps

def join (sep : Char) : List (List Char) → List Char
  | [] => []
  | [p] => p
  | p :: ps => p ++ sep :: join sep ps

theorem join_cons_cons (sep c : Char) (p : List Char) (ps : List (List Char)) :
    join sep ((c :: p) :: ps) = c :: join sep (p :: ps) := by
  cases ps <;> rfl

theorem split_ne_nil (sep : Char) (s : List Char) : split sep s ≠ [] := by
  cases s with
  | nil => simp [split]
  | cons c rest =>
    by_cases h : c = sep
    · simp [split, h]
    · cases hl : split sep rest <;> simp [split, h, hl]

theorem join_split (sep : Char) (s : List Char) : join sep (split sep s) = s := by
  induction s with
  | nil => rfl
  | cons c rest ih =>
    cases hl : split sep rest with
    | nil => exact absurd hl (split_ne_nil sep rest)
    | cons p ps =>
      rw [hl] at ih
      by_cases h : c = sep
      · simp [split, h, hl, join, ih]
      · simp [split, h, hl, join_cons_cons, ih]

theorem mem_join {sep c : Char} {ps : List (List Char)} :
    c ∈ join sep ps ↔ (∃ p ∈ ps, c ∈ p) ∨ c = sep ∧ 2 ≤ ps.length := by
  induction ps with
  | nil => simp [join]
  | cons p ps ih =>
    cases ps with
    | nil => simp [join]
    | cons q qs =>
      have hjoin : join sep (p :: q :: qs) = p ++ sep :: join sep (q :: qs) := rfl
      have htwo : 2 ≤ (p :: q :: qs).length := by simp
      rw [hjoin, List.mem_append, List.mem_cons, ih]
      simp only [List.mem_cons (a := _) (b := p), exists_eq_or_imp, htwo, and_true]
      constructor
      · rintro (h | rfl | h | ⟨rfl, -⟩)
        · exact .inl (.inl h)
        · exact .inr rfl
        · exact .inl (.inr h)
        · exact .inr rfl
      · rintro ((h | h) | rfl)
        · exact .inl h
        · exact .inr (.inr (.inl h))
        · exact .inr (.inl rfl)

theorem mem_of_mem_split {sep c : Char} {s p : List Char} (hp : p ∈ split sep s) (hc : c ∈ p) :
    c ∈ s := by
  rw [← join_split sep s]
  exact mem_join.mpr (.inl ⟨p, hp, hc⟩)

theorem not_mem_of_mem_split {sep : Char} {s p : List Char} (h : p ∈ split sep s) : sep ∉ p := by
  induction s generalizing p with
  | nil => simp [split] at h; simp [h]
  | cons c rest ih =>
    by_cases hc : c = sep
    · simp only [split, hc, if_true, List.mem_cons] at h
      rcases h with rfl | h
      · simp
      · exact ih h
    · cases hl : split sep rest with
      | nil => exact absurd hl (split_ne_nil sep rest)
      | cons q qs =>
        simp only [split, hc, if_false, hl, List.mem_cons] at h
        rcases h with rfl | h
        · have hq : sep ∉ q := ih (by simp [hl])
          simp [hq, Ne.symm hc]
        · exact ih (by simp [hl, h])

theorem split_of_not_mem {sep : Char} {s : List Char} (h : sep ∉ s) : split sep s = [s] := by
  induction s with
  | nil => rfl
  | cons c rest ih =>
    have hc : ¬ c = sep := fun e => h (by simp [e])
    have hr : sep ∉ rest := fun e => h (by simp [e])
    simp [split, hc, ih hr]

theorem split_append_sep {sep : Char} {p s : List Char} (h : sep ∉ p) :
    split sep (p ++ sep :: s) = p :: split sep s := by
  induction p with
  | nil => simp [split]
  | cons c rest ih =>
    have hc : ¬ c = sep := fun e => h (by simp [e])
    have hr : sep ∉ rest := fun e => h (by simp [e])
    simp [split, hc, ih hr]

theorem split_join {sep : Char} {ps : List (List Char)} (h : ∀ p ∈ ps, sep ∉ p) (hne : ps ≠ []) :
    split sep (join sep ps) = ps := by
  induction ps with
  | nil => exact absurd rfl hne
  | cons p rest ih =>
    have hp : sep ∉ p := h p (by simp)
    cases rest with
    | nil => simpa [join] using split_of_not_mem hp
    | cons q qs =>
      have hr : ∀ r ∈ q :: qs, sep ∉ r := fun r hr => h r (by simp [hr])
      rw [join, split_append_sep hp, ih hr (by simp)]
      simp

theorem length_split (sep : Char) (s : List Char) : (split sep s).length = s.count sep + 1 := by
  induction s with
  | nil => rfl
  | cons c rest ih =>
    by_cases h : c = sep
    · simp [split, h, ih]
    · cases hl : split sep rest with
      | nil => exact absurd hl (split_ne_nil sep rest)
      | cons p ps =>
        rw [hl] at ih
        simp [split, h, hl, ← ih]

end MailDispatch.Text
