import DefectLog.Text.Printable

namespace DefectLog.Text

-- The last `width` hexadecimal digits of a number, in lower case.
def hexDigits (width n : Nat) : List Char :=
  match width with
  | 0     => []
  | w + 1 => hexDigits w (n / 16) ++ [Nat.digitChar (n % 16)]

theorem length_hexDigits (width n : Nat) : (hexDigits width n).length = width := by
  induction width generalizing n <;> simp_all [hexDigits]

namespace Quoted

-- How a character stands between quotation marks. The shortest of the three hexadecimal forms that
-- can hold the code point is used for a character that has no printed form.
def escape (mark c : Char) : List Char :=
  if c = mark ∨ c = '\\' then ['\\', c]
  else if c = '\n' then ['\\', 'n']
  else if c = '\r' then ['\\', 'r']
  else if c = '\t' then ['\\', 't']
  else if isPrintable c then [c]
  else if c.toNat ≤ 0xFF then ['\\', 'x'] ++ hexDigits 2 c.toNat
  else if c.toNat ≤ 0xFFFF then ['\\', 'u'] ++ hexDigits 4 c.toNat
  else ['\\', 'U'] ++ hexDigits 8 c.toNat

-- Single marks, unless the text holds a single mark and no double one.
def mark (s : List Char) : Char :=
  if '\'' ∈ s ∧ '"' ∉ s then '"' else '\''

def encode (s : List Char) : List Char :=
  mark s :: s.flatMap (escape (mark s)) ++ [mark s]

end Quoted

-- A text as messages quote it.
def quoted (s : String) : String :=
  String.ofList (Quoted.encode s.toList)

end DefectLog.Text
