import DefectLog.Text.Numeral

-- Character references, as in `&#70;` or `&nbsp;`.
namespace DefectLog.Text.Reference

-- The codes 0x80 to 0x9F stand for the characters of an old Western code page.
def western : List Nat := [
    0x20AC, 0x81, 0x201A, 0x192, 0x201E, 0x2026, 0x2020, 0x2021, 0x2C6, 0x2030, 0x160, 0x2039, 0x152,
    0x8D, 0x17D, 0x8F, 0x90, 0x2018, 0x2019, 0x201C, 0x201D, 0x2022, 0x2013, 0x2014, 0x2DC, 0x2122,
    0x161, 0x203A, 0x153, 0x9D, 0x17E, 0x178]

-- Control characters, and the code points that are set aside for no character.
def isDropped (n : Nat) : Bool :=
  (0x01 ≤ n && n ≤ 0x08) || n == 0x0B || (0x0E ≤ n && n ≤ 0x1F) || n == 0x7F ||
  (0xFDD0 ≤ n && n ≤ 0xFDEF) || n % 0x10000 == 0xFFFE || n % 0x10000 == 0xFFFF

-- What a numeric reference stands for. A number that is no code point gives the replacement character.
def ofCode (n : Nat) : List Char :=
  if n = 0 ∨ 0x10FFFF < n ∨ (0xD800 ≤ n ∧ n ≤ 0xDFFF) then ['\uFFFD']
  else if 0x80 ≤ n ∧ n ≤ 0x9F then [Char.ofNat (western.getD (n - 0x80) 0)]
  else if isDropped n then []
  else [Char.ofNat n]

-- The names of characters that may stand in a number, in a length or around them, and of the marks of
-- markup. A longer name goes before one that it starts with.
def names : List (String × String) := [
  ("amp;", "&"), ("amp", "&"), ("lt;", "<"), ("lt", "<"), ("gt;", ">"), ("gt", ">"),
  ("quot;", "\""), ("quot", "\""), ("apos;", "'"), ("num;", "#"), ("plus;", "+"), ("period;", "."),
  ("lowbar;", "_"), ("UnderBar;", "_"), ("Tab;", "\t"), ("NewLine;", "\n"), ("nbsp;", "\u00A0"),
  ("nbsp", "\u00A0"), ("NonBreakingSpace;", "\u00A0"), ("ensp;", "\u2002"), ("emsp;", "\u2003"),
  ("emsp13;", "\u2004"), ("emsp14;", "\u2005"), ("numsp;", "\u2007"), ("puncsp;", "\u2008"),
  ("thinsp;", "\u2009"), ("ThinSpace;", "\u2009"), ("hairsp;", "\u200A"), ("VeryThinSpace;", "\u200A"),
  ("MediumSpace;", "\u205F"), ("ThickSpace;", "\u205F\u200A")]

-- The digits at the start of a text as a number, and how many there are.
def leadingNumber? (n : Numeral) (s : List Char) : Option (Nat × Nat) :=
  let digits := s.takeWhile fun c => (n.digit? c).isSome
  (n.digits 0 false digits).map (·, digits.length)

-- Resolves the reference whose ampersand has been read. The second result is how many characters it
-- takes. A semicolon behind a number belongs to it, but may be missing.
def read? (s : List Char) : Option (List Char × Nat) :=
  let numeric (n : Numeral) (marker : Nat) : Option (List Char × Nat) :=
    (leadingNumber? n (s.drop marker)).map fun (code, length) =>
      let close := if (s.drop (marker + length)).head? = some ';' then 1 else 0
      (ofCode code, marker + length + close)
  match s with
  | '#' :: 'x' :: _ => numeric .hexadecimal 2
  | '#' :: 'X' :: _ => numeric .hexadecimal 2
  | '#' :: _        => numeric .decimal 1
  | _               =>
    (names.find? (·.1.toList.isPrefixOf s)).map fun (name, text) => (text.toList, name.length)

-- Puts characters for references, after `skip` characters that belong to one before. What is no reference
-- stays as it is.
def resolveFrom (skip : Nat) : List Char → List Char
  | []     => []
  | c :: s =>
    match skip with
    | skip + 1 => resolveFrom skip s
    | 0        =>
      match (if c = '&' then read? s else none) with
      | some (text, length) => text ++ resolveFrom length s
      | none                => c :: resolveFrom 0 s

def resolve (s : List Char) : List Char :=
  resolveFrom 0 s

example : resolve "&#70;F&#x46&plus;&bogus;&#;".toList = "FFF+&bogus;&#;".toList := by
  decide +kernel

end DefectLog.Text.Reference
