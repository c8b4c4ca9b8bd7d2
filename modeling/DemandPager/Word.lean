/-
# Arithmetic on words

Addresses and sizes are natural numbers below `wordBound`. An operation whose
exact result is no word breaks off, as does a division by zero; it never wraps.
So a result, if there is one, is the exact one.

Key definitions: `Word.add`, `Word.mul`, `Word.sub`, `Word.ceilDiv`,
`Word.roundUp`, `Word.roundDown`, `Word.isAllocatable`.
-/
import DemandPager.Error

namespace DemandPager

/-- Words are the numbers below this one, two to the power of sixty-four. -/
abbrev wordBound : Nat := 18446744073709551616

/-- The bound of half words, two to the power of thirty-two. -/
abbrev halfWordBound : Nat := 4294967296

namespace Word

/-- A number, if it is a word. -/
def exact (n : Nat) : Checked Nat := if n < wordBound then .ok n else .abort .overflow

def add (a b : Nat) : Checked Nat := exact (a + b)

def mul (a b : Nat) : Checked Nat := exact (a * b)

def sub (a b : Nat) : Checked Nat := if b ≤ a then .ok (a - b) else .abort .underflow

def ceilDiv (x y : Nat) : Checked Nat :=
  if y = 0 then .abort .zeroDivisor else .ok (x / y + if x % y = 0 then 0 else 1)

/-- The least multiple of `align` that is not below `x`. -/
def roundUp (x align : Nat) : Checked Nat := do
  mul (← ceilDiv x align) align

def roundDown (x align : Nat) : Checked Nat :=
  if align = 0 then .abort .zeroDivisor else .ok (x / align * align)

/-- Whether so many bytes can be asked for at once: less than half of all words. -/
def isAllocatable (bytes : Nat) : Bool := 2 * bytes < wordBound

/-- Powers of two are recognised by their logarithm. -/
def isPowerOfTwo (n : Nat) : Bool := 1 <<< n.log2 == n

end Word
end DemandPager
