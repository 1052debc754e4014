import Mathlib.Algebra.Group.Nat.Defs
import DefectLog.Text.Reference

-- Texts of nothing but hexadecimal digits are numbers, and are read as they stand.
namespace DefectLog.Text

theorem Reference.resolve_eq_self {s : List Char} (h : '&' ∉ s) : Reference.resolve s = s := by
  unfold resolve
  induction s
  case nil => rfl
  case cons c s hi =>
    simp only [List.mem_cons, not_or] at h
    simp [resolveFrom, Ne.symm h.1, hi h.2]

-- The digits from the other end.
theorem hexDigits_succ (width n : Nat) :
    hexDigits (width + 1) n = Nat.digitChar (n / 16 ^ width % 16) :: hexDigits width n := by
  induction width generalizing n
  case zero          => simp [hexDigits]
  case succ width hi =>
    rw [hexDigits, hi, List.cons_append, Nat.div_div_eq_div_mul, ← Nat.pow_succ']
    rfl

namespace Numeral

def IsHex (s : List Char) : Prop :=
  ∀ c ∈ s, (hexValue? c).isSome

instance (s : List Char) : Decidable (IsHex s) :=
  List.decidableBAll _ s

variable {c : Char} {s : List Char}

theorem hexValue?_eq_some {d : Nat} (h : hexValue? c = some d) :
    (48 ≤ c.toNat ∧ c.toNat ≤ 57 ∨ 97 ≤ c.toNat ∧ c.toNat ≤ 102 ∨ 65 ≤ c.toNat ∧ c.toNat ≤ 70) ∧ d < 16 := by
  have ⟨h0, ha, hA⟩ : '0'.toNat = 48 ∧ 'a'.toNat = 97 ∧ 'A'.toNat = 65 := by decide
  unfold hexValue? at h
  split at h
  case isTrue hc =>
    have hb : 48 ≤ c.toNat ∧ c.toNat ≤ 57 := hc
    have hd := Option.some.inj h
    omega
  case isFalse =>
    split at h
    case isTrue hc =>
      have hb : 97 ≤ c.toNat ∧ c.toNat ≤ 102 := hc
      have hd := Option.some.inj h
      omega
    case isFalse =>
      split at h
      case isTrue hc =>
        have hb : 65 ≤ c.toNat ∧ c.toNat ≤ 70 := hc
        have hd := Option.some.inj h
        omega
      case isFalse => cases h

theorem toNat_of_hexValue? (h : (hexValue? c).isSome) :
    48 ≤ c.toNat ∧ c.toNat ≤ 57 ∨ 97 ≤ c.toNat ∧ c.toNat ≤ 102 ∨ 65 ≤ c.toNat ∧ c.toNat ≤ 70 :=
  have ⟨_, hd⟩ := Option.isSome_iff_exists.mp h
  (hexValue?_eq_some hd).left

theorem not_isBlank_of_hexValue? (h : (hexValue? c).isSome) : isBlank c = false := by
  have := toNat_of_hexValue? h
  simp only [isBlank, Bool.or_eq_false_iff, Bool.and_eq_false_iff, decide_eq_false_iff_not, beq_eq_false_iff_ne]
  omega

theorem not_isPadding_of_hexValue? (h : (hexValue? c).isSome) : isPadding c = false := by
  have := toNat_of_hexValue? h
  have hc : c ≠ ' ' := fun he => by rw [he] at h; cases h
  simp only [isPadding, Bool.or_eq_false_iff, Bool.and_eq_false_iff, decide_eq_false_iff_not, beq_eq_false_iff_ne]
  exact ⟨hc, by omega⟩

theorem plain_of_hexValue? (h : (hexValue? c).isSome) : plain c = c := by
  have := toNat_of_hexValue? h
  exact if_pos (by omega)

theorem IsHex.not_mem (h : IsHex s) (hc : hexValue? c = none) : c ∉ s :=
  fun hm => by simpa [hc] using h c hm

theorem IsHex.unpad_eq (h : IsHex s) : unpad s = s := by
  have hs : s.dropWhile isPadding = s := by
    cases s
    case nil      => rfl
    case cons c s => exact List.dropWhile_cons_of_neg (by simp [not_isPadding_of_hexValue? (h c List.mem_cons_self)])
  have hr : s.reverse.dropWhile isPadding = s.reverse := by
    cases hs : s.reverse
    case nil       => rfl
    case cons c s' =>
      have hc := h c (List.mem_reverse.mp (hs ▸ List.mem_cons_self))
      exact List.dropWhile_cons_of_neg (by simp [not_isPadding_of_hexValue? hc])
  rw [unpad, hs, hr, List.reverse_reverse]

-- A digit is written as it was read, up to its case.
theorem toUpper_digitChar {d : Nat} (h : hexValue? c = some d) : (Nat.digitChar d).toUpper = c.toUpper := by
  have hall : ∀ n : Fin 128, ∀ d ∈ hexValue? (Char.ofNat n), (Nat.digitChar d).toUpper = (Char.ofNat n).toUpper := by
    decide +kernel
  have hc : c.toNat < 128 := by
    have := (hexValue?_eq_some h).left
    omega
  have hd := hall ⟨c.toNat, hc⟩ d
  rw [Char.ofNat_toNat] at hd
  exact hd h

-- The digits that are read add to the value as they would be written.
theorem IsHex.digits_eq (h : IsHex s) (value : Nat) (afterDigit : Bool) (hs : s ≠ [] ∨ afterDigit = true) :
    ∃ n, hexadecimal.digits value afterDigit s = some n ∧ n / 16 ^ s.length = value ∧
      (hexDigits s.length n).map Char.toUpper = s.map Char.toUpper := by
  induction s generalizing value afterDigit
  case nil => exact ⟨value, by simp [digits, hs.resolve_left (· rfl)], by simp, rfl⟩
  case cons c s hi =>
    have ⟨hc, hs⟩ := List.forall_mem_cons.mp h
    have ⟨d, hd⟩ := Option.isSome_iff_exists.mp hc
    have hu : c ≠ '_' := fun he => by rw [he] at hc; cases hc
    have ⟨_, hl⟩ := hexValue?_eq_some hd
    have hdigit : hexadecimal.digit? c = some d := by simp [digit?, hd, base, hl]
    obtain ⟨n, hn, hq, hw⟩ := hi hs (16 * value + d) true (.inr rfl)
    refine ⟨n, ?digits, ?value, ?written⟩
    case digits => rwa [digits, if_neg hu, hdigit]
    case value =>
      rw [List.length_cons, Nat.pow_succ, ← Nat.div_div_eq_div_mul, hq]
      omega
    case written =>
      have hr : n / 16 ^ s.length % 16 = d := by omega
      rw [List.length_cons, hexDigits_succ, hr, List.map_cons, List.map_cons, hw, toUpper_digitChar hd]

theorem IsHex.magnitude_eq (h : IsHex s) : hexadecimal.magnitude s = hexadecimal.digits 0 false s := by
  have hx : 'x' ∉ s := h.not_mem rfl
  have hX : 'X' ∉ s := h.not_mem rfl
  unfold magnitude
  split
  all_goals simp_all

theorem IsHex.signed_eq (h : IsHex s) : hexadecimal.signed s = (hexadecimal.magnitude s).map Int.ofNat := by
  have hm : '-' ∉ s := h.not_mem rfl
  have hp : '+' ∉ s := h.not_mem rfl
  unfold signed
  split
  all_goals simp_all

theorem IsHex.parse_eq (h : IsHex s) (hs : s ≠ []) : ∃ n : Nat, hexadecimal.parse s = some (n : Int) ∧
    n < 16 ^ s.length ∧ (hexDigits s.length n).map Char.toUpper = s.map Char.toUpper := by
  have hplain : s.map plain = s :=
    (List.map_congr_left fun c hc => plain_of_hexValue? (h c hc)).trans (List.map_id s)
  have ⟨n, hn, hq, hw⟩ := h.digits_eq 0 false (.inl hs)
  refine ⟨n, ?_, (Nat.div_eq_zero_iff_lt (Nat.pow_pos (by decide))).mp hq, hw⟩
  rw [parse, hplain, h.unpad_eq, h.signed_eq, h.magnitude_eq, hn]
  rfl

theorem IsHex.parse_isSome (h : IsHex s) (hs : s ≠ []) : (hexadecimal.parse s).isSome := by
  have ⟨_, hn, _⟩ := h.parse_eq hs
  rw [hn]
  rfl

-- Two digits are read as the number that they were written for.
theorem parse_upperHexDigits (n : Fin 256) :
    hexadecimal.parse ((hexDigits 2 n).map Char.toUpper) = some (n.val : Int) := by
  revert n
  decide +kernel

end Numeral
end DefectLog.Text
