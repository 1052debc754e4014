import DefectLog.Number.Nearest
import Mathlib.Algebra.Order.Field.Power
import Mathlib.Algebra.Order.Ring.Unbundled.Rat
import Mathlib.Data.Rat.Cast.Order
import Mathlib.Tactic.FieldSimp
import Mathlib.Tactic.Linarith
import Mathlib.Tactic.NormNum
import Mathlib.Tactic.Positivity
import Mathlib.Tactic.Ring

-- Which numbers rounding to 53 bits keeps, and how far it moves the others.
namespace DefectLog.Number

theorem abs_eq_abs (q : Rat) : q.abs = |q| := by
  rw [Rat.abs]
  split
  case isTrue h  => exact (abs_of_nonneg h).symm
  case isFalse h => exact (abs_of_neg (not_le.mp h)).symm

theorem abs_eq_div (q : Rat) : |q| = q.num.natAbs / q.den := by
  nth_rewrite 1 [← Rat.num_div_den q]
  rw [abs_div, Nat.abs_cast, ← Int.cast_abs, Int.abs_eq_natAbs, Int.cast_natCast]

-- The significand has 53 bits.
theorem exponent_spec {q : Rat} (hq : q ≠ 0) :
    (2 : Rat) ^ (52 + exponent q) ≤ |q| ∧ |q| < (2 : Rat) ^ (53 + exponent q) := by
  have hn : q.num.natAbs ≠ 0 := by simpa using hq
  have hd : q.den ≠ 0 := q.den_nz
  have hn₁ : (2 : Rat) ^ q.num.natAbs.log2 ≤ q.num.natAbs := by exact_mod_cast Nat.log2_self_le hn
  have hn₂ : (q.num.natAbs : Rat) < 2 ^ (q.num.natAbs.log2 + 1) := by exact_mod_cast Nat.lt_log2_self
  have hd₁ : (2 : Rat) ^ q.den.log2 ≤ q.den := by exact_mod_cast Nat.log2_self_le hd
  have hd₂ : (q.den : Rat) < 2 ^ (q.den.log2 + 1) := by exact_mod_cast Nat.lt_log2_self
  have hpos : (0 : Rat) < q.den := by exact_mod_cast Nat.pos_of_ne_zero hd
  have hlow : (2 : Rat) ^ ((q.num.natAbs.log2 : Int) - q.den.log2 - 1) < |q| := by
    rw [abs_eq_div, lt_div_iff₀ hpos]
    calc (2 : Rat) ^ ((q.num.natAbs.log2 : Int) - q.den.log2 - 1) * q.den
        < 2 ^ ((q.num.natAbs.log2 : Int) - q.den.log2 - 1) * 2 ^ (q.den.log2 + 1) := by gcongr
      _ = 2 ^ q.num.natAbs.log2 := by
        rw [← zpow_natCast, ← zpow_add₀ two_ne_zero, ← zpow_natCast]
        congr 1
        push_cast
        ring
      _ ≤ q.num.natAbs := hn₁
  have hhigh : |q| < (2 : Rat) ^ ((q.num.natAbs.log2 : Int) - q.den.log2 + 1) := by
    rw [abs_eq_div, div_lt_iff₀ hpos]
    calc (q.num.natAbs : Rat)
        < 2 ^ (q.num.natAbs.log2 + 1) := hn₂
      _ = 2 ^ ((q.num.natAbs.log2 : Int) - q.den.log2 + 1) * 2 ^ q.den.log2 := by
        rw [← zpow_natCast, ← zpow_natCast, ← zpow_add₀ two_ne_zero]
        congr 1
        push_cast
        ring
      _ ≤ 2 ^ ((q.num.natAbs.log2 : Int) - q.den.log2 + 1) * q.den := by gcongr
  simp only [exponent, abs_eq_abs]
  generalize (q.num.natAbs.log2 : Int) - q.den.log2 = lead at hlow hhigh ⊢
  split
  case isTrue h =>
    rw [show 52 + (lead - 52) = lead by ring, show 53 + (lead - 52) = lead + 1 by ring]
    exact ⟨h, hhigh⟩
  case isFalse h =>
    rw [show 52 + (lead - 53) = lead - 1 by ring, show 53 + (lead - 53) = lead by ring]
    exact ⟨hlow.le, not_le.mp h⟩

-- Integers of 53 bits times a power of two are kept.
theorem nearest_mul_zpow {n : Int} (h : |n| ≤ 2 ^ 53) (k : Int) : nearest (n * 2 ^ k) = n * 2 ^ k := by
  by_cases hn : n = 0
  case pos => simp [hn, nearest]
  case neg =>
    have hp : (0 : Rat) < 2 ^ k := by positivity
    have hr : |(n : Rat)| ≤ (2 : Rat) ^ (53 : Int) := by exact_mod_cast h
    have hq : (n : Rat) * 2 ^ k ≠ 0 := mul_ne_zero (by exact_mod_cast hn) hp.ne'
    obtain ⟨hlow, _⟩ := exponent_spec hq
    rw [abs_mul, abs_of_pos hp] at hlow
    generalize he : exponent ((n : Rat) * 2 ^ k) = e at hlow
    have hek : e ≤ k + 1 := by
      have hle : (2 : Rat) ^ (52 + e) ≤ 2 ^ (53 + k) := by
        rw [zpow_add₀ two_ne_zero 53 k]
        exact hlow.trans (by gcongr)
      have := (zpow_le_zpow_iff_right₀ (one_lt_two (α := Rat))).mp hle
      omega
    have hdiv : (n : Rat) * 2 ^ k / 2 ^ e = n * 2 ^ (k - e) := by rw [mul_div_assoc, ← zpow_sub₀ two_ne_zero]
    cases le_or_gt e k
    case inl hle =>
      obtain ⟨j, hj⟩ : ∃ j : Nat, k - e = j := ⟨(k - e).toNat, by omega⟩
      refine nearest_eq_self (m := n * 2 ^ j) ?_
      rw [he, hdiv, hj, zpow_natCast]
      push_cast
      rfl
    case inr hlt =>
      -- The only such integers that need a larger exponent are the two of greatest absolute value.
      obtain rfl : e = k + 1 := by omega
      have hge : (2 : Rat) ^ (53 : Int) ≤ |(n : Rat)| := by
        rw [show 52 + (k + 1) = 53 + k by ring, zpow_add₀ two_ne_zero] at hlow
        exact le_of_mul_le_mul_right hlow hp
      have habs : |n| = 2 ^ 53 := le_antisymm h (by exact_mod_cast hge)
      obtain ⟨m, hm⟩ : (2 : Int) ∣ n := (dvd_abs 2 n).mp (habs ▸ ⟨2 ^ 52, by norm_num⟩)
      refine nearest_eq_self (m := m) ?_
      rw [he, hdiv, hm, show k - (k + 1) = -1 by ring]
      push_cast
      ring

theorem nearest_intCast {n : Int} (h : |n| ≤ 2 ^ 53) : nearest n = n := by
  have hn := nearest_mul_zpow h 0
  rwa [zpow_zero, mul_one] at hn

theorem nearest_half {n : Int} (h : |n| ≤ 2 ^ 53) : nearest (n / 2) = n / 2 := by
  have hn := nearest_mul_zpow h (-1)
  rwa [zpow_neg_one, ← div_eq_mul_inv] at hn

theorem isFinite_nearest {n : Int} (h : |n| ≤ 2 ^ 53) : isFinite (nearest n) = true := by
  have hq : |(n : Rat)| ≤ (2 : Rat) ^ (53 : Int) := by exact_mod_cast h
  have hlt : (2 : Rat) ^ (53 : Int) < (2 : Rat) ^ (1024 : Int) := zpow_lt_zpow_right₀ (by norm_num) (by norm_num)
  rw [nearest_intCast h, isFinite, abs_eq_abs]
  exact decide_eq_true (hq.trans_lt hlt)

theorem sub_one_le_roundHalfEven (q : Rat) : |q| - 1 ≤ |(roundHalfEven q : Rat)| := by
  have hlow : (q.floor : Rat) ≤ q := Rat.floor_le q
  have hhigh : q < q.floor + 1 := sub_lt_iff_lt_add.mp Rat.lt_floor
  have hr : |q - roundHalfEven q| ≤ 1 := by
    rw [abs_le, roundHalfEven]
    split_ifs <;> push_cast <;> constructor <;> linarith
  have := abs_sub_abs_le_abs_sub q (roundHalfEven q)
  linarith

-- Rounding never halves a number.
theorem half_le_nearest (q : Rat) : |q| / 2 ≤ |nearest q| := by
  by_cases hq : q = 0
  case pos => simp [hq, nearest]
  case neg =>
    obtain ⟨hlow, _⟩ := exponent_spec hq
    have hp : (0 : Rat) < 2 ^ exponent q := by positivity
    have hx : 2 ≤ |q| / 2 ^ exponent q := by
      rw [le_div_iff₀ hp]
      calc (2 : Rat) * 2 ^ exponent q
          ≤ 2 ^ 52 * 2 ^ exponent q := by gcongr; norm_num
        _ = 2 ^ (52 + exponent q) := by rw [zpow_add₀ two_ne_zero]; rfl
        _ ≤ |q| := hlow
    have hr := sub_one_le_roundHalfEven (q / 2 ^ exponent q)
    rw [abs_div, abs_of_pos hp] at hr
    rw [nearest, if_neg hq, abs_mul, abs_of_pos hp]
    calc |q| / 2
        = |q| / 2 ^ exponent q / 2 * 2 ^ exponent q := by field_simp
      _ ≤ |(roundHalfEven (q / 2 ^ exponent q) : Rat)| * 2 ^ exponent q := by gcongr; linarith

end DefectLog.Number
