import Mathlib.Algebra.Group.Nat.Defs
import MailDispatch.Number.Binary64

/-! # Naturals as binary fractions

A natural of up to 53 binary digits more than `k` is rounded to a multiple of `2 ^ k`. The
multiple itself is kept exactly, also where rounding carries into one more digit.
-/
namespace MailDispatch.Number

namespace Binary64

theorem nearest_mul_eq_iff {n d : Nat} (hd : 0 < d) : nearest n d * d = n ↔ d ∣ n := by
  constructor
  · intro h
    rw [← h]
    exact Nat.dvd_mul_left d _
  · rintro ⟨q, rfl⟩
    have hnone : ¬ (d < 2 * 0 ∨ 2 * 0 = d ∧ q % 2 = 1) := by omega
    simp only [nearest, Nat.mul_mod_right, Nat.mul_div_cancel_left q hd, if_neg hnone]
    exact Nat.mul_comm q d

theorem power_natCast (k : Nat) : power (k : Int) = (2 ^ k, 1) := by
  unfold power
  rw [if_pos (Int.natCast_nonneg k), Int.toNat_natCast]
  rfl

theorem fittingExponent_natural {n k : Nat} (hlow : 2 ^ (k + 52) ≤ n) (hhigh : n < 2 ^ (k + 53)) :
    fittingExponent n 1 = k := by
  have hn : n ≠ 0 := by
    rintro rfl
    exact absurd hlow (Nat.not_le_of_lt (Nat.two_pow_pos _))
  have hlog : Nat.log2 n = k + 52 := (Nat.log2_eq_iff hn).mpr ⟨hlow, hhigh⟩
  have hone : Nat.log2 1 = 0 := by decide
  have hk : ((k + 52 : Nat) : Int) - (0 : Nat) = (k + 52 : Nat) := by omega
  unfold fittingExponent
  rw [hlog, hone, hk]
  dsimp only
  rw [power_natCast]
  dsimp only
  rw [if_neg (by omega)]
  omega

theorem roundedMagnitude_natural (negative : Bool) (m k : Nat) :
    roundedMagnitude ⟨negative, m, k⟩ = m * 2 ^ k := by
  unfold roundedMagnitude ratio
  rw [power_natCast]
  dsimp only
  omega

/-- A natural becomes the nearest multiple of a power of two. -/
theorem exists_ofNat {n k : Nat} (hlow : 2 ^ (k + 52) ≤ n) (hhigh : n < 2 ^ (k + 53))
    (hk : k < 971) :
    ∃ x, ofNat false n = some x ∧ x.negative = false ∧
      x.roundedMagnitude = nearest n (2 ^ k) * 2 ^ k := by
  have hn : n ≠ 0 := by
    rintro rfl
    exact absurd hlow (Nat.not_le_of_lt (Nat.two_pow_pos _))
  have hmax : max (fittingExponent n 1) lowestExponent = (k : Int) := by
    rw [fittingExponent_natural hlow hhigh]
    unfold lowestExponent
    omega
  unfold ofNat round
  rw [if_neg hn, hmax]
  dsimp only
  rw [power_natCast]
  dsimp only
  rw [Nat.mul_one, Nat.one_mul]
  by_cases hcarry : nearest n (2 ^ k) = Nat.pow 2 53
  · have hfits : ¬ highestExponent < (k : Int) + 1 := by unfold highestExponent; omega
    rw [if_pos hcarry]
    dsimp only
    rw [if_neg hfits]
    refine ⟨_, rfl, rfl, ?_⟩
    have hexponent : (k : Int) + 1 = ((k + 1 : Nat) : Int) := by omega
    rw [hexponent, roundedMagnitude_natural, hcarry, Nat.pow_succ]
    change 2 ^ 52 * (2 ^ k * 2) = 2 ^ 53 * 2 ^ k
    omega
  · have hfits : ¬ highestExponent < (k : Int) := by unfold highestExponent; omega
    rw [if_neg hcarry]
    dsimp only
    rw [if_neg hfits]
    exact ⟨_, rfl, rfl, roundedMagnitude_natural false _ k⟩

end Binary64
end MailDispatch.Number
