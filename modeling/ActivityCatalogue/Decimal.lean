/-!
# Decimal numbers in floating-point range

Which decimal numbers become a finite double-precision float.  A number may be
rounded once, from its exact value, or step by step: first the digits that fit
into a word, then the power of ten, then the product of both.  The two ways
differ only next to the greatest float.  All tests compare integers.
-/

namespace ActivityCatalogue

namespace Decimal

/-- The least number that rounds to no finite double-precision float: halfway
from the greatest one to the next power of two. -/
def doubleBound : Nat := Nat.pow 2 1024 - Nat.pow 2 970

/-! ## Rounding once -/

/-- Whether digits times a power of ten round to a finite float.  The number of
digits settles all but close cases. -/
def fitsDouble (digits : Nat) (scale : Int) : Bool :=
  if digits = 0 then true
  else
    let magnitude := (Nat.toDigits 10 digits).length + scale
    if magnitude < 309 then true
    else if 309 < magnitude then false
    else if 0 ≤ scale then digits * Nat.pow 10 scale.toNat < doubleBound
    else digits < doubleBound * Nat.pow 10 (-scale).toNat

/-! ## Rounding step by step -/

/-- The first digits of a number, as many as fit into a word of 64 bits, and the
number of digits behind them. -/
def leadingWord (digits : Nat) : Nat × Nat :=
  if digits < Nat.pow 2 64 then (digits, 0)
  else
    let (word, dropped) := leadingWord (digits / 10)
    (word, dropped + 1)
termination_by digits
decreasing_by
  have hpos : 0 < Nat.pow 2 64 := by decide
  omega

/-- The distance between the floats around a number: the power of two that leaves
53 binary digits before it. -/
def binaryStep (number : Nat) : Nat := Nat.pow 2 (number.log2 + 1 - 53)

/-- The nearest multiple of the step; of two such, the even one. -/
def roundBinary (number : Nat) : Nat :=
  let step := binaryStep number
  let quotient := number / step
  let twice := 2 * (number % step)
  if step < twice || (twice == step && quotient % 2 == 1) then (quotient + 1) * step
  else quotient * step

/-- The greatest power of ten that is a finite float. -/
def maxPower : Nat := 308

/-- Whether the float is finite that is made from the leading digits and a power
of ten, both rounded, and their product rounded again. -/
def fitsStepwise (digits : Nat) (scale : Int) : Bool :=
  match leadingWord digits with
  | (word, dropped) =>
    let power := scale + dropped
    word == 0 || power < 0 ||
      (power ≤ maxPower && roundBinary word * roundBinary (Nat.pow 10 power.toNat) < doubleBound)

/-! ### What the steps keep -/

theorem leadingWord_fst_lt (digits : Nat) : (leadingWord digits).1 < Nat.pow 2 64 := by
  fun_induction leadingWord digits with
  | case1 digits hdigits => exact hdigits
  | case2 digits hdigits word dropped hrest ih => simpa [hrest] using ih

/-- The digits behind the leading ones are cut off. -/
theorem leadingWord_fst (digits : Nat) :
    (leadingWord digits).1 = digits / Nat.pow 10 (leadingWord digits).2 := by
  fun_induction leadingWord digits with
  | case1 digits hdigits => simp
  | case2 digits hdigits word dropped hrest ih =>
    simp only [hrest] at ih
    simp only [ih, Nat.div_div_eq_div_mul]
    exact congrArg (digits / ·) (Nat.pow_succ').symm

theorem leadingWord_of_lt {digits : Nat} (hdigits : digits < Nat.pow 2 64) :
    leadingWord digits = (digits, 0) := by
  rw [leadingWord, if_pos hdigits]

/-- Rounding moves a number by at most half a step. -/
theorem roundBinary_near (number : Nat) :
    2 * roundBinary number ≤ 2 * number + binaryStep number ∧
      2 * number ≤ 2 * roundBinary number + binaryStep number := by
  have hsplit := Nat.div_add_mod' number (binaryStep number)
  have hpos : 0 < binaryStep number := Nat.pow_pos (by decide)
  have hmod := Nat.mod_lt number hpos
  unfold roundBinary
  dsimp only
  split
  · next hup =>
    have hhalf : binaryStep number ≤ 2 * (number % binaryStep number) := by
      rcases Bool.or_eq_true_iff.mp hup with habove | htie
      · exact Nat.le_of_lt (of_decide_eq_true habove)
      · exact Nat.le_of_eq (eq_of_beq (Bool.and_eq_true_iff.mp htie).1).symm
    have hnext := Nat.add_one_mul (number / binaryStep number) (binaryStep number)
    omega
  · next hdown =>
    have hhalf : 2 * (number % binaryStep number) ≤ binaryStep number := by
      refine Nat.le_of_not_lt fun habove => hdown ?_
      simp [habove]
    omega

/-- Numbers of at most 53 binary digits stay as they are. -/
theorem roundBinary_of_lt {number : Nat} (hnumber : number < Nat.pow 2 53) :
    roundBinary number = number := by
  have hlog : number.log2 + 1 - 53 = 0 := by
    by_cases hzero : number = 0
    · simp [hzero]
    · have := (Nat.log2_lt hzero).mpr hnumber
      omega
  simp [roundBinary, binaryStep, hlog, Nat.mod_one]

end Decimal

end ActivityCatalogue
