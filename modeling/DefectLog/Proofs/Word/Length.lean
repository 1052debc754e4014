import DefectLog.Proofs.Number.Nearest
import DefectLog.Proofs.Success
import DefectLog.Word.Length

-- Lengths that are written as they are given.
namespace DefectLog.Word

open Number Success

theorem abs_le_of_abs_mul_le {n k : Int} (hk : 0 < k) (h : |n * k| ≤ 2 ^ 53) : |n| ≤ 2 ^ 53 := by
  rw [abs_mul, abs_of_pos hk] at h
  exact (le_mul_of_one_le_right (abs_nonneg n) hk).trans h

-- A length of 53 bits in EMU is the same number of twips again.
theorem Emu.toTwips_ofTwips {n : Twips} (h : |ofTwips n| ≤ 2 ^ 53) : toTwips (ofTwips n) = n := by
  have hn := abs_le_of_abs_mul_le (by norm_num) h
  have hd : ((ofTwips n : Int) : Rat) / 635 = n := by
    rw [ofTwips]
    push_cast
    ring
  rw [toTwips, nearest_intCast h, hd, nearest_intCast hn, roundHalfEven_intCast]

-- A length that has more bits is not a small number of twips.
theorem Emu.lt_toTwips {emu : Int} (h : 2 ^ 53 < |emu|) : 2147483648 < |toTwips emu| := by
  have h : (2 : Rat) ^ 53 < |(emu : Rat)| := by exact_mod_cast h
  have h₁ := half_le_nearest emu
  have h₂ := half_le_nearest (nearest emu / 635)
  have h₃ := sub_one_le_roundHalfEven (nearest (nearest emu / 635))
  rw [abs_div, abs_of_pos (by norm_num : (0 : Rat) < 635)] at h₂
  have hr : (2147483648 : Rat) < |(roundHalfEven (nearest (nearest emu / 635)) : Rat)| := by
    linarith
  exact_mod_cast hr

-- The width of a cell is in a range in which nothing is lost.
theorem Emu.abs_ofTwips_le {n : Twips} {m : Int} (h : widthText (ofTwips n) = .ok m) : |ofTwips n| ≤ 2 ^ 53 := by
  simp only [widthText] at h
  split at h
  case isTrue => cases h
  case isFalse =>
    simp only [bind_eq_ok] at h
    obtain ⟨_, hr, -⟩ := h
    refine not_lt.mp fun hl => ?_
    have hm := lt_toTwips hl
    simp only [checkSigned, checkRange] at hr
    split at hr
    case isTrue hc =>
      exact absurd (abs_le.mpr ⟨hc.left, hc.right.trans (by norm_num)⟩) (not_le.mpr hm)
    case isFalse => cases hr

theorem eq_of_widthText {n : Twips} {m : Int} (h : widthText (Emu.ofTwips n) = .ok m) : m = n := by
  have hn := Emu.abs_ofTwips_le h
  simp only [widthText] at h
  split at h
  case isTrue => cases h
  case isFalse =>
    simp only [bind_eq_ok, pure_eq_ok] at h
    obtain ⟨_, -, rfl⟩ := h
    exact Emu.toTwips_ofTwips hn

theorem eq_of_lengthText {n : Twips} {m : Int} (hn : |Emu.ofTwips n| ≤ 2 ^ 53) (h : lengthText n = .ok m) : m = n := by
  simp only [lengthText, bind_eq_ok, pure_eq_ok] at h
  obtain ⟨_, -, rfl⟩ := h
  exact Emu.toTwips_ofTwips hn

-- Sizes lose nothing either. Half of an odd size is exact, and so is its product with the units of a point.
theorem Emu.ofHalfPoints_eq_ok {n : HalfPoints} {emu : Int} (hn : |n * 6350| ≤ 2 ^ 53) (h : ofHalfPoints n = .ok emu) :
    emu = n * 6350 := by
  have hsize := abs_le_of_abs_mul_le (by norm_num) hn
  have hpoints : (n : Rat) / 2 * 12700 = ((n * 6350 : Int) : Rat) := by
    push_cast
    ring
  simp only [ofHalfPoints, nearest_half hsize, hpoints, nearest_intCast hn, truncate_intCast] at h
  split at h
  case isTrue  => cases h
  case isFalse =>
    split at h
    case isTrue  => cases h
    case isFalse => exact (Except.ok.inj h).symm

theorem Emu.toHalfPoints_mul {n : HalfPoints} (hn : |n * 6350| ≤ 2 ^ 53) : toHalfPoints (n * 6350) = n := by
  have hsize := abs_le_of_abs_mul_le (by norm_num) hn
  have hpoints : ((n * 6350 : Int) : Rat) / 12700 = n / 2 := by
    push_cast
    ring
  rw [toHalfPoints, nearest_intCast hn, hpoints, nearest_half hsize, div_mul_cancel₀ _ two_ne_zero, truncate_intCast]

theorem eq_of_sizeText {n : HalfPoints} {m : Int} (hn : |n * 6350| ≤ 2 ^ 53) (h : sizeText n = .ok m) : m = n := by
  simp only [sizeText, bind_eq_ok, pure_eq_ok] at h
  obtain ⟨emu, he, _, -, rfl⟩ := h
  rw [Emu.ofHalfPoints_eq_ok hn he, Emu.toHalfPoints_mul hn]

-- An indent is in a range in which nothing is lost.
theorem eq_of_offsetText {n : Twips} {m : Int} (h : offsetText n = .ok m) : m = n := by
  simp only [offsetText, bind_eq_ok, pure_eq_ok, checkSigned, checkRange] at h
  obtain ⟨_, hr, rfl⟩ := h
  split at hr
  case isFalse => cases hr
  case isTrue hc =>
    refine Emu.toTwips_ofTwips (abs_le.mpr ⟨?_, ?_⟩)
    · exact le_trans (by norm_num) hc.left
    · exact hc.right.trans (by norm_num)

end DefectLog.Word
