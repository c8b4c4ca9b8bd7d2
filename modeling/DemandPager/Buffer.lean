/-
# Buffers

A buffer has a size and holds that many bytes. A new buffer is zero throughout, and
so is what is added when it grows; it is only ever written from its front. So it is
enough to keep the front that was written: behind it there are zeros.

A buffer whose size is half of all words or more cannot be made.

Key definitions: `Buffer`, `Buffer.ofSize`, `Buffer.growTo`, `Buffer.take`,
`Buffer.write`.
-/
import DemandPager.Bytes
import DemandPager.Word

namespace DemandPager

/-- A buffer that was written from its front. -/
structure Buffer where
  size : Nat := 0
  /-- The bytes from the beginning on; all behind them are zero. -/
  front : Bytes := []
deriving DecidableEq, Repr, Inhabited

namespace Buffer

def ofSize (n : Nat) : Checked Buffer :=
  if Word.isAllocatable n then .ok { size := n } else .abort .capacity

/-- A buffer of at least `n` bytes, extended with zeros if it has to grow. -/
def growTo (b : Buffer) (n : Nat) : Checked Buffer :=
  if n ≤ b.size then .ok b
  else if Word.isAllocatable n then .ok { b with size := n }
  else .abort .capacity

/-- The first `n` bytes, or all if there are fewer. -/
def take (b : Buffer) (n : Nat) : Bytes := Bytes.growTo (b.front.take n) (min n b.size)

/-- The buffer with its front overwritten; what does not fit is dropped. -/
def write (b : Buffer) (bytes : Bytes) : Buffer :=
  { b with front := bytes.take b.size ++ b.front.drop bytes.length }

end Buffer
end DemandPager
