/-!
This module contains the finite numbers of the IEEE 754 binary64 format. A number is a sign and a
count of units of `2 ^ -1074`, the smallest positive one, so that comparing is comparing whole
numbers and rounding is exact arithmetic on natural numbers. The main statement is
`representable_roundUnits`: what rounding gives is a number of the format unless it is too large.
-/

namespace FormLogic

namespace Binary64

/--
The number of units of `2 ^ 1024`, the first power of two that is too large for the format.
-/
def limit : Nat := 1 <<< 2098

/--
A count of units belongs to the format if it is below the limit and its significand has at most 53
bits.
-/
def Representable (units : Nat) : Prop :=
  units < limit ∧ ∃ significand shift, significand < 1 <<< 53 ∧ units = significand <<< shift

theorem representable_zero : Representable 0 :=
  ⟨by decide, 0, 0, by decide, rfl⟩

def roundHalfEven (num den : Nat) : Nat :=
  let low := num / den
  let rest := num % den
  if 2 * rest < den then low else if den < 2 * rest then low + 1 else low + low % 2

theorem roundHalfEven_le (num den : Nat) : roundHalfEven num den ≤ num / den + 1 := by
  simp only [roundHalfEven]
  split
  . omega
  . split <;> omega

def excessBits (units : Nat) : Nat := units.log2 - 52

theorem shiftRight_excessBits_lt (units : Nat) : units >>> excessBits units < 1 <<< 53 := by
  rw [Nat.shiftRight_eq_div_pow, Nat.one_shiftLeft]
  rw [Nat.div_lt_iff_lt_mul (Nat.two_pow_pos _), ← Nat.pow_add]
  by_cases h : units = 0
  . subst h
    exact Nat.two_pow_pos _
  . have hlt : units < 2 ^ (units.log2 + 1) := Nat.lt_log2_self
    have hle : units.log2 + 1 ≤ 53 + excessBits units := by
      unfold excessBits
      omega
    exact Nat.lt_of_lt_of_le hlt (Nat.pow_le_pow_right (by omega) hle)

/--
The nearest count of units to `num / den` whose significand has 53 bits, a tie going to the even
significand. It can reach the limit.
-/
def roundUnits (num den : Nat) : Nat :=
  let shift := excessBits (num / den)
  roundHalfEven num (den <<< shift) <<< shift

theorem representable_roundUnits {num den : Nat} (h : roundUnits num den < limit) :
    Representable (roundUnits num den) := by
  refine ⟨h, ?_⟩
  unfold roundUnits
  generalize hs : excessBits (num / den) = shift
  have hle : roundHalfEven num (den <<< shift) ≤ 2 ^ 53 := by
    have h₁ := roundHalfEven_le num (den <<< shift)
    have h₂ : num / (den <<< shift) < 2 ^ 53 := by
      rw [Nat.shiftLeft_eq, ← Nat.div_div_eq_div_mul, ← Nat.shiftRight_eq_div_pow, ← hs]
      exact shiftRight_excessBits_lt _
    omega
  by_cases heq : roundHalfEven num (den <<< shift) = 2 ^ 53
  . refine ⟨2 ^ 52, shift + 1, by decide, ?_⟩
    simp only [heq]
    rw [Nat.shiftLeft_eq, Nat.shiftLeft_eq, ← Nat.pow_add, ← Nat.pow_add]
    congr 1
    omega
  . exact ⟨_, shift, by omega, rfl⟩

end Binary64

/--
A finite binary64 number: `units * 2 ^ -1074` with a sign. Zero has two signs.
-/
structure Binary64 where
  negative : Bool
  units : Nat
  representable : Binary64.Representable units
deriving DecidableEq

namespace Binary64

def zero (negative : Bool) : Binary64 := ⟨negative, 0, representable_zero⟩

/--
The value in units, in which the two zeros are one.
-/
def signed (x : Binary64) : Int := if x.negative then -x.units else x.units

def isWhole (x : Binary64) : Bool := x.units % (1 <<< 1074) == 0

def wholePart (x : Binary64) : Nat := x.units >>> 1074

end Binary64

end FormLogic
