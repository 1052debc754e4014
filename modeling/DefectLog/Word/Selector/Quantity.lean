import DefectLog.Number.Shortest

-- The numbers of path expressions. Division by zero has a result, and so has a text that is no number.
namespace DefectLog.Word.Selector

inductive Quantity
  | finite (q : Rat)
  | infinite (negative : Bool)
  | undefined
deriving DecidableEq

namespace Quantity

def ofNat (n : Nat) : Quantity :=
  .finite n

def isNegative : Quantity → Bool
  | .finite q   => q < 0
  | .infinite n => n
  | .undefined  => false

def neg : Quantity → Quantity
  | .finite q   => .finite (-q)
  | .infinite n => .infinite (!n)
  | .undefined  => .undefined

def add : Quantity → Quantity → Quantity
  | .finite p,   .finite q   => .finite (p + q)
  | .finite _,   .infinite n => .infinite n
  | .infinite n, .finite _   => .infinite n
  | .infinite m, .infinite n => if m = n then .infinite m else .undefined
  | _,           _           => .undefined

def mul (a b : Quantity) : Quantity :=
  match a, b with
  | .finite p,  .finite q  => .finite (p * q)
  | .undefined, _          => .undefined
  | _,          .undefined => .undefined
  | _,          _          =>
    if a = .finite 0 ∨ b = .finite 0 then .undefined else .infinite (a.isNegative != b.isNegative)

def div : Quantity → Quantity → Quantity
  | .finite p,   .finite q   =>
    if q ≠ 0 then .finite (p / q) else if p = 0 then .undefined else .infinite (p < 0)
  | .finite _,   .infinite _ => .finite 0
  | .infinite n, .finite q   => .infinite (n != decide (q < 0))
  | _,           _           => .undefined

-- The remainder has the sign of the first number.
def mod : Quantity → Quantity → Quantity
  | .finite p, .finite q   => if q = 0 then .undefined else .finite (p - q * Number.truncate (p / q))
  | .finite p, .infinite _ => .finite p
  | _,         _           => .undefined

def map (f : Rat → Rat) : Quantity → Quantity
  | .finite q => .finite (f q)
  | a         => a

-- A half is rounded up.
def round (a : Quantity) : Quantity :=
  a.map fun q => (q + 1 / 2).floor

-- Nothing can be said of a number that is not defined, not even that it equals itself.
def eq (a b : Quantity) : Bool :=
  a ≠ .undefined && a = b

def lt : Quantity → Quantity → Bool
  | .finite p,   .finite q   => p < q
  | .finite _,   .infinite n => !n
  | .infinite n, .finite _   => n
  | .infinite m, .infinite n => m && !n
  | _,           _           => false

def le (a b : Quantity) : Bool :=
  a.lt b || a.eq b

def text : Quantity → String
  | .finite q       => if q.den = 1 then toString q.num else Number.shortest q
  | .infinite false => "Infinity"
  | .infinite true  => "-Infinity"
  | .undefined      => "NaN"

-- The blanks of XML.
def isBlank (c : Char) : Bool :=
  c = ' ' || c = '\t' || c = '\n' || c = '\r'

def natural (digits : List Char) : Nat :=
  digits.foldl (fun n c => 10 * n + (c.toNat - '0'.toNat)) 0

-- The exponent behind a number, if there is one, and what follows it.
def exponent (s : List Char) : Int × List Char :=
  match s with
  | 'e' :: t => read t
  | 'E' :: t => read t
  | _        => (0, s)
where
  read : List Char → Int × List Char
    | '-' :: t => (-(natural (t.takeWhile Char.isDigit) : Int), t.dropWhile Char.isDigit)
    | '+' :: t => (natural (t.takeWhile Char.isDigit), t.dropWhile Char.isDigit)
    | t        => (natural (t.takeWhile Char.isDigit), t.dropWhile Char.isDigit)

-- A number without a sign at the start of a text, and what follows it.
def read? (s : List Char) : Option (Quantity × List Char) :=
  let whole := s.takeWhile Char.isDigit
  let (part, rest) := match s.dropWhile Char.isDigit with
    | '.' :: t => (t.takeWhile Char.isDigit, t.dropWhile Char.isDigit)
    | t        => ([], t)
  if whole = [] ∧ part = [] then none
  else
    let (exponent, rest) := exponent rest
    let digits : Rat := natural (whole ++ part)
    some (.finite (digits * (10 : Rat) ^ (exponent - part.length)), rest)

-- What a text says as a number. There may be blanks around it.
def ofText (s : List Char) : Quantity :=
  let unsigned (s : List Char) : Quantity :=
    match read? s with
    | some (q, rest) => if rest.all isBlank then q else .undefined
    | none           => .undefined
  match s.dropWhile isBlank with
  | '-' :: s => (unsigned s).neg
  | s        => unsigned s

end Quantity
end DefectLog.Word.Selector
