import DefectLog.Text.Blank
import DefectLog.Text.Digit
import DefectLog.Text.Quoted

namespace DefectLog.Text

-- How an integer is written.
inductive Numeral
  | decimal
  | hexadecimal
deriving DecidableEq

namespace Numeral

def base : Numeral → Nat
  | .decimal     => 10
  | .hexadecimal => 16

-- Numbers are read after every blank beyond ASCII has become a space and every decimal digit of
-- another script its ASCII counterpart.
def plain (c : Char) : Char :=
  if c.toNat < 128 then c
  else if isBlank c then ' '
  else match digitValue? c with
    | some d => Nat.digitChar d
    | none   => c

-- The blanks that may surround a number: the ASCII ones without the information separators.
def isPadding (c : Char) : Bool :=
  c == ' ' || (0x09 ≤ c.toNat && c.toNat ≤ 0x0D)

def unpad (s : List Char) : List Char :=
  ((s.dropWhile isPadding).reverse.dropWhile isPadding).reverse

-- The value of a digit of base 16.
def hexValue? (c : Char) : Option Nat :=
  if '0' ≤ c ∧ c ≤ '9' then some (c.toNat - '0'.toNat)
  else if 'a' ≤ c ∧ c ≤ 'f' then some (c.toNat - 'a'.toNat + 10)
  else if 'A' ≤ c ∧ c ≤ 'F' then some (c.toNat - 'A'.toNat + 10)
  else none

def digit? (n : Numeral) (c : Char) : Option Nat :=
  (hexValue? c).filter (· < n.base)

-- Digits with single underscores between them. The value read so far comes first, then whether the
-- last character was a digit, so that an underscore may follow and the number may end.
def digits (n : Numeral) (value : Nat) (afterDigit : Bool) : List Char → Option Nat
  | []      => if afterDigit then some value else none
  | c :: cs =>
    if c = '_' then
      if afterDigit then n.digits value false cs else none
    else match n.digit? c with
      | some d => n.digits (n.base * value + d) true cs
      | none   => none

-- The marker `0x` may stand in front of hexadecimal digits, and an underscore after it.
def magnitude (n : Numeral) (s : List Char) : Option Nat :=
  match n, s with
  | .hexadecimal, '0' :: 'x' :: '_' :: cs => n.digits 0 false cs
  | .hexadecimal, '0' :: 'X' :: '_' :: cs => n.digits 0 false cs
  | .hexadecimal, '0' :: 'x' :: cs        => n.digits 0 false cs
  | .hexadecimal, '0' :: 'X' :: cs        => n.digits 0 false cs
  | _, cs                                 => n.digits 0 false cs

def signed (n : Numeral) : List Char → Option Int
  | '-' :: cs => (n.magnitude cs).map fun m => -(m : Int)
  | '+' :: cs => (n.magnitude cs).map Int.ofNat
  | cs        => (n.magnitude cs).map Int.ofNat

def parse (n : Numeral) (s : List Char) : Option Int :=
  n.signed (unpad (s.map plain))

example : parse .hexadecimal "FF".toList = some 255 ∧ parse .hexadecimal " -0x1_0 ".toList = some (-16) := by
  decide +kernel

example : parse .hexadecimal "٠x1".toList = some 1 ∧ parse .hexadecimal "0x_1".toList = some 1 := by
  decide +kernel

example : parse .hexadecimal "".toList = none ∧ parse .hexadecimal "1_".toList = none ∧
    parse .hexadecimal "0x".toList = none := by
  decide +kernel

example : parse .decimal "+01".toList = some 1 ∧ parse .decimal "0x1".toList = none ∧
    parse .decimal "A".toList = none := by
  decide +kernel

-- What is said of a text that is no number. It is quoted with at most 200 characters.
def refusal (n : Numeral) (text : String) : String :=
  s!"invalid literal for int() with base {n.base}: {(quoted text).take 200}"

end Numeral
end DefectLog.Text
