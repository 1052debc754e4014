import DefectLog.Number.Nearest

namespace DefectLog.Number

namespace Shortest

def width (n : Nat) : Nat :=
  (Nat.toDigits 10 n).length

-- The exponent of the leading decimal digit of a positive number.
def leading (v : Rat) : Int :=
  if 1 ≤ v then (width v.floor.toNat : Int) - 1
  else -(width ((1 / v).ceil - 1).toNat : Int)

-- The multiple of `10 ^ place` that is nearest to `v`, provided it reads back as `v`.
def onGrid? (v : Rat) (place : Int) : Option Nat :=
  let scaled := v / (10 : Rat) ^ place
  let below  := scaled.floor
  let readsBack (m : Int) : Bool := nearest (m * (10 : Rat) ^ place) == v
  match readsBack below, readsBack (below + 1) with
  | true,  true  => some (if scaled - below ≤ 1 / 2 then below else below + 1).toNat
  | true,  false => some below.toNat
  | false, true  => some (below + 1).toNat
  | false, false => none

-- The fewest digits that read back, with the place of the last one. Seventeen always suffice.
def digits (v : Rat) : Nat × Int :=
  let candidate (count : Nat) :=
    let place := leading v + 1 - count
    (onGrid? v place).map (·, place)
  ((List.range' 1 17).findSome? candidate).getD (v.floor.toNat, 0)

-- Digits with a point between them, for a leading digit with exponent `lead`.
def positional (ds : List Char) (lead : Int) : List Char :=
  if lead < 0 then ['0', '.'] ++ List.replicate (-lead - 1).toNat '0' ++ ds
  else
    let count := lead.toNat + 1
    let fraction := ds.drop count
    ds.take count ++ List.replicate (count - ds.length) '0' ++ ['.'] ++
      (if fraction.isEmpty then ['0'] else fraction)

-- One digit before the point, and an exponent of at least two digits.
def scientific (ds : List Char) (lead : Int) : List Char :=
  let exponent := Nat.toDigits 10 lead.natAbs
  ds.take 1 ++ (if ds.length ≤ 1 then [] else '.' :: ds.drop 1) ++
    ['e', if lead < 0 then '-' else '+'] ++ List.replicate (2 - exponent.length) '0' ++ exponent

-- Positional from `10 ^ -4` up to `10 ^ 16`.
def ofPositive (v : Rat) : List Char :=
  let (m, place) := digits v
  let all  := Nat.toDigits 10 m
  let lead := place + all.length - 1
  let ds   := (all.reverse.dropWhile (· == '0')).reverse
  if -4 ≤ lead ∧ lead < 16 then positional ds lead else scientific ds lead

end Shortest

-- The shortest decimal text that reads back as a number of double precision.
def shortest (v : Rat) : String :=
  String.ofList <|
    if v = 0 then ['0', '.', '0']
    else if v < 0 then '-' :: Shortest.ofPositive (-v)
    else Shortest.ofPositive v

example : shortest 11 = "11.0" ∧ shortest (21 / 2) = "10.5" := by decide +kernel

example : shortest (nearest (1 / 10)) = "0.1" ∧ shortest (10 ^ 16) = "1e+16" := by decide +kernel

end DefectLog.Number
