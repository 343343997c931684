import Mathlib.Algebra.Group.Nat.Defs
import AiBuddy.Misc.Text

/-!
# Lua numbers

A number of a Redis script is a double, and `tostring` prints fourteen
significant digits of it.
-/

namespace Lua

/-- `n / unit` rounded to the nearest integer, half to even. -/
def roundDiv (n unit : Nat) : Nat :=
  let quotient := n / unit
  let rest := n % unit
  if 2 * rest < unit then quotient
  else if unit < 2 * rest then quotient + 1
  else quotient + quotient % 2

def toDouble (n : Nat) : Nat :=
  let unit := 2 ^ (n.log2 + 1 - 53)
  roundDiv n unit * unit

def exactBound : Int := 100000000000000

/-- `%.14g` of a number with more than fourteen digits. -/
def scientific (n : Nat) : String :=
  let exponent := n.repr.length - 1
  let mantissa := roundDiv n (10 ^ (exponent - 13))
  let (mantissa, exponent) :=
    if mantissa = 10 ^ 14 then (10 ^ 13, exponent + 1) else (mantissa, exponent)
  let digits := (mantissa.repr.toList.reverse.dropWhile (· = '0')).reverse
  let fraction := if digits.tail = [] then [] else '.' :: digits.tail
  String.ofList (digits.take 1 ++ fraction ++ "e+".toList ++ exponent.repr.toList)

/-- `tostring` of an integer. -/
def tostring (n : Int) : String :=
  if n.natAbs < exactBound.natAbs then n.repr
  else (if n < 0 then "-" else "") ++ scientific (toDouble n.natAbs)

theorem tostring_of_lt {n : Int} (hlow : -exactBound < n) (hhigh : n < exactBound) :
    tostring n = n.repr := by
  unfold tostring
  rw [if_pos (by unfold exactBound at *; omega)]

theorem plus_mem_tostring {n : Int} (h : ¬ (-exactBound < n ∧ n < exactBound)) :
    '+' ∈ (tostring n).toList := by
  unfold tostring
  rw [if_neg (by unfold exactBound at *; omega)]
  simp [scientific]

/-- From fifteen digits on different numbers print alike. -/
example : tostring exactBound = "1e+14" ∧ tostring (exactBound + 1) = "1e+14" := by decide +kernel

end Lua
