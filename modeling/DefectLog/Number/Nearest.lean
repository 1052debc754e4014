namespace DefectLog.Number

-- The nearest integer. A half goes to the even neighbour.
def roundHalfEven (q : Rat) : Int :=
  let below := q.floor
  let part  := q - below
  if part < 1 / 2 then below
  else if 1 / 2 < part then below + 1
  else if below % 2 = 0 then below
  else below + 1

-- Drops the part behind the point.
def truncate (q : Rat) : Int :=
  if 0 ≤ q then q.floor else -(-q).floor

-- The exponent `e` for which `2 ^ 52 ≤ |q| / 2 ^ e < 2 ^ 53`. The difference of the two logarithms is
-- either the exponent of the leading bit of `q` or one more.
def exponent (q : Rat) : Int :=
  let n : Int := q.num.natAbs.log2
  let d : Int := q.den.log2
  let lead := n - d
  if (2 : Rat) ^ lead ≤ q.abs then lead - 52 else lead - 53

-- The nearest number with a significand of 53 bits. A tie goes to the even significand. The numbers
-- of a document are never small enough to need a lower bound for the exponent.
def nearest (q : Rat) : Rat :=
  if q = 0 then 0
  else roundHalfEven (q / (2 : Rat) ^ exponent q) * (2 : Rat) ^ exponent q

-- Whether a number is below the upper end of the range of double precision.
def isFinite (q : Rat) : Bool :=
  q.abs < (2 : Rat) ^ (1024 : Int)

theorem roundHalfEven_intCast (n : Int) : roundHalfEven n = n := by
  have h : (n : Rat) - (n : Rat) < 1 / 2 := by rw [Rat.sub_self]; decide +kernel
  simp only [roundHalfEven, Rat.floor_intCast, h, ↓reduceIte]

theorem truncate_intCast (n : Int) : truncate n = n := by
  simp only [truncate]
  split
  · exact Rat.floor_intCast n
  · have h : -((n : Int) : Rat) = ((-n : Int) : Rat) := by simp
    rw [h, Rat.floor_intCast]
    omega

-- A number that is already a multiple of its last place stays as it is.
theorem nearest_eq_self {q : Rat} {m : Int} (h : q / (2 : Rat) ^ exponent q = m) : nearest q = q := by
  by_cases hq : q = 0
  · simp [nearest, hq]
  · have hp : (2 : Rat) ^ exponent q ≠ 0 := by
      exact Rat.ne_of_gt (Rat.zpow_pos (by decide))
    rw [nearest, if_neg hq, h, roundHalfEven_intCast, ← h, Rat.div_mul_cancel hp]

end DefectLog.Number
