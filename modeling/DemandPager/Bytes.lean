/-
# Byte strings and buffers

Content is a list of bytes. A buffer is one that keeps its length while it is
written: `Bytes.overlay` writes from the front, `Bytes.splice` at an offset.

A byte string is written in base sixteen, two digits a byte. In reports a long one
is replaced by a checksum.

Key definitions: `Bytes`, `Bytes.zeros`, `Bytes.overlay`, `Bytes.splice`,
`Bytes.slice`, `Bytes.growTo`, `Bytes.hex`, `Bytes.ofHex`, `Bytes.digest`.
-/

namespace DemandPager

abbrev Bytes := List UInt8

namespace Bytes

def zeros (n : Nat) : Bytes := List.replicate n 0

/-- A buffer whose front was overwritten; what does not fit is dropped. -/
def overlay (written buffer : Bytes) : Bytes :=
  written.take buffer.length ++ buffer.drop written.length

/-- The bytes of a buffer from an offset on, at most `len` of them. -/
def slice (buffer : Bytes) (offset len : Nat) : Bytes := (buffer.drop offset).take len

/-- A buffer that was overwritten from an offset on. -/
def splice (buffer : Bytes) (offset : Nat) (written : Bytes) : Bytes :=
  buffer.take offset ++ overlay written (buffer.drop offset)

def growTo (buffer : Bytes) (n : Nat) : Bytes :=
  if n ≤ buffer.length then buffer else buffer ++ zeros (n - buffer.length)

def hexDigit (n : Nat) : Char := Char.ofNat (if n < 10 then 48 + n else 87 + n)

/-- The value of a digit of base sixteen; zero for any other character. -/
def hexValue (c : Char) : Nat :=
  if '0' ≤ c && c ≤ '9' then c.toNat - 48
  else if 'a' ≤ c && c ≤ 'f' then c.toNat - 87
  else if 'A' ≤ c && c ≤ 'F' then c.toNat - 55
  else 0

def hex (bytes : Bytes) : String :=
  String.ofList (bytes.flatMap fun b => [hexDigit (b.toNat / 16), hexDigit (b.toNat % 16)])

/-- Reads pairs of digits; `done` holds the bytes read so far, latest first. -/
def ofHexDigits : (done : Bytes) → List Char → Bytes
  | done, a :: b :: rest => ofHexDigits (UInt8.ofNat (hexValue a * 16 + hexValue b) :: done) rest
  | done, _ => done.reverse

def ofHex (digits : String) : Bytes := ofHexDigits [] digits.toList

/-- The checksum of a byte string: each byte is joined to it by exclusive or, and then
it is multiplied by a fixed prime. -/
def checksum (bytes : Bytes) : UInt64 :=
  bytes.foldl (fun h b => (h ^^^ b.toUInt64) * 0x100000001b3) 0xcbf29ce484222325

/-- The digits of a string of up to sixty-four bytes, the checksum of a longer one. -/
def digest (bytes : Bytes) : String :=
  if bytes.length ≤ 64 then hex bytes
  else
    let digits := Nat.toDigits 16 (checksum bytes).toNat
    "fnv:" ++ String.ofList (List.replicate (16 - digits.length) '0' ++ digits)

end Bytes
end DemandPager
