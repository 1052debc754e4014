import DefectLog.Number.Shortest
import Std.Data.String.ToInt

-- What the decimal text of a number is made of.
namespace DefectLog.Number

theorem isDigit_of_mem_toDigits {n : Nat} {c : Char} (h : c ∈ Nat.toDigits 10 n) : c.isDigit :=
  Nat.isDigit_of_mem_toDigits (by decide) (by decide) h

theorem digit_or_minus_of_mem {n : Int} {c : Char} (h : c ∈ (toString n).toList) : c.isDigit ∨ c = '-' := by
  rw [Int.toString_eq_repr, Int.repr_eq_if] at h
  split at h
  case isTrue =>
    rw [Nat.toList_repr] at h
    exact .inl (isDigit_of_mem_toDigits h)
  case isFalse =>
    rw [String.toList_append, Nat.toList_repr] at h
    cases List.mem_append.mp h
    case inl h => exact .inr (List.mem_singleton.mp h)
    case inr h => exact .inl (isDigit_of_mem_toDigits h)

-- A character that is neither a digit nor a sign marks where the text of a number ends.
theorem not_mem_of_not_digit {n : Int} {c : Char} (hd : c.isDigit = false) (hm : c ≠ '-') :
    c ∉ (toString n).toList := by
  intro h
  cases digit_or_minus_of_mem h
  case inl h => simp [hd] at h
  case inr h => exact hm h

theorem toString_inj {m n : Int} (h : toString m = toString n) : m = n :=
  have h := congrArg String.toInt? h
  Option.some.inj (by rwa [Int.toString_eq_repr, Int.toString_eq_repr, Int.toInt?_repr, Int.toInt?_repr] at h)

namespace Shortest

-- What stands between the digits of the shortest text of a number.
def marks : List Char :=
  ['.', '-', '+', 'e']

variable {ds : List Char} {lead : Int} {c : Char}

theorem mem_positional (hc : c ∈ positional ds lead) : c ∈ ds ∨ c ∈ '0' :: marks := by
  have ht := @List.mem_of_mem_take Char
  have hd := @List.mem_of_mem_drop Char
  unfold positional at hc
  split at hc <;> simp only [List.mem_append, List.mem_cons, List.mem_replicate] at hc
  all_goals grind [marks]

theorem mem_scientific (hc : c ∈ scientific ds lead) :
    c ∈ ds ∨ c ∈ Nat.toDigits 10 lead.natAbs ∨ c ∈ '0' :: marks := by
  have ht := @List.mem_of_mem_take Char
  have hd := @List.mem_of_mem_drop Char
  simp only [scientific, List.mem_append, List.mem_cons, List.mem_replicate] at hc
  grind [marks]

theorem digit_or_mark (hc : c ∈ '0' :: marks) : c.isDigit ∨ c ∈ marks := by
  cases List.mem_cons.mp hc
  case inl h => exact .inl (h ▸ rfl)
  case inr h => exact .inr h

theorem mem_ofPositive {v : Rat} (hc : c ∈ ofPositive v) : c.isDigit ∨ c ∈ marks := by
  simp only [ofPositive] at hc
  have hds : ∀ c ∈ ((Nat.toDigits 10 (digits v).1).reverse.dropWhile (· == '0')).reverse, c.isDigit := by
    intro c hc
    have hc := (List.dropWhile_sublist _).subset (List.mem_reverse.mp hc)
    exact isDigit_of_mem_toDigits (List.mem_reverse.mp hc)
  split at hc
  case isTrue =>
    cases mem_positional hc
    case inl h => exact .inl (hds c h)
    case inr h => exact digit_or_mark h
  case isFalse =>
    rcases mem_scientific hc with h | h | h
    · exact .inl (hds c h)
    · exact .inl (isDigit_of_mem_toDigits h)
    · exact digit_or_mark h

end Shortest

theorem mem_shortest {v : Rat} {c : Char} (hc : c ∈ (shortest v).toList) : c.isDigit ∨ c ∈ Shortest.marks := by
  rw [shortest, String.toList_ofList] at hc
  split at hc
  case isTrue =>
    have hs : ['0', '.', '0'] ⊆ '0' :: Shortest.marks := by simp [Shortest.marks]
    exact Shortest.digit_or_mark (hs hc)
  case isFalse =>
    split at hc
    case isTrue =>
      cases List.mem_cons.mp hc
      case inl h => exact .inr (h ▸ by decide)
      case inr h => exact Shortest.mem_ofPositive h
    case isFalse => exact Shortest.mem_ofPositive hc

end DefectLog.Number
