namespace DefectLog.Text

-- The white space of Unicode, together with the four information separators U+001C to U+001F. This
-- is a larger set than that of `Char.isWhitespace`, which knows ASCII only.
def isBlank (c : Char) : Bool :=
  let n := c.toNat
  (0x09 ≤ n && n ≤ 0x0D) || (0x1C ≤ n && n ≤ 0x20) || n == 0x85 || n == 0xA0 || n == 0x1680 ||
  (0x2000 ≤ n && n ≤ 0x200A) || n == 0x2028 || n == 0x2029 || n == 0x202F || n == 0x205F ||
  n == 0x3000

def trimStart (s : List Char) : List Char :=
  s.dropWhile isBlank

def trimEnd (s : List Char) : List Char :=
  (s.reverse.dropWhile isBlank).reverse

-- Drops the blanks at both ends and keeps those between.
def trim (s : List Char) : List Char :=
  trimEnd (trimStart s)

def allBlank (s : String) : Bool :=
  s.toList.all isBlank

theorem trim_sublist (s : List Char) : (trim s).Sublist s := by
  have h := (List.dropWhile_sublist isBlank (l := (trimStart s).reverse)).reverse
  rw [List.reverse_reverse] at h
  exact h.trans (List.dropWhile_sublist isBlank)

end DefectLog.Text
