/-
# Disjoint intervals

A map from disjoint intervals of addresses to values, kept in the order of their
starts. To find the interval that contains an address, or to see whether a new
one meets an old one, it is enough to look at the neighbours: the last interval
that starts at or before an address, and the first that starts after it.

Key definitions: `IntervalMap`, `IntervalMap.floor?`, `IntervalMap.insert`,
`IntervalMap.find?`, `IntervalMap.modify`, `IntervalMap.remove`, `IntervalMap.drain`.
-/
import DemandPager.Word

namespace DemandPager

structure Interval (α : Type) where
  start : Nat
  len : Nat
  value : α

/-- Whether an address at or after the start lies in the interval. -/
def Interval.reaches {α : Type} (e : Interval α) (address : Nat) : Bool :=
  address - e.start < e.len

/-- Intervals in the order of their starts. -/
structure IntervalMap (α : Type) where
  toList : List (Interval α)

namespace IntervalMap

variable {α : Type}

def empty : IntervalMap α := ⟨[]⟩

instance : Inhabited (IntervalMap α) := ⟨empty⟩

def size (m : IntervalMap α) : Nat := m.toList.length

def isEmpty (m : IntervalMap α) : Bool := m.toList.isEmpty

def upTo (m : IntervalMap α) (address : Nat) : List (Interval α) :=
  m.toList.takeWhile (·.start ≤ address)

def beyond (m : IntervalMap α) (address : Nat) : List (Interval α) :=
  m.toList.dropWhile (·.start ≤ address)

/-- The last interval that starts at or before an address. -/
def floor? (m : IntervalMap α) (address : Nat) : Option (Interval α) :=
  (m.upTo address).getLast?

/-- The interval that contains an address. -/
def find? (m : IntervalMap α) (address : Nat) : Option (Interval α) :=
  (m.floor? address).filter (·.reaches address)

/-- Records an interval. An empty one is refused, and so is one that reaches
beyond the words or meets a recorded one. -/
def insert (m : IntervalMap α) (start len : Nat) (value : α) :
    Except PagerError (IntervalMap α) :=
  if len = 0 then
    .error (.invalidConfig "empty address interval")
  else if wordBound ≤ start + len then
    .error (.overlap start len)
  else if (m.floor? start).any (fun e => start < e.start + e.len) then
    .error (.overlap start len)
  else if ((m.beyond start).head?).any (fun e => e.start < start + len) then
    .error (.overlap start len)
  else
    .ok ⟨m.upTo start ++ { start, len, value } :: m.beyond start⟩

/-- Changes the value of the interval that contains an address. -/
def modify (m : IntervalMap α) (address : Nat) (f : α → α) : Except PagerError (IntervalMap α) :=
  match m.find? address with
  | none => .error (.unknownAddress address)
  | some found => .ok ⟨m.toList.map fun e =>
      if e.start = found.start then { e with value := f e.value } else e⟩

/-- Takes away the interval that begins exactly at `start`. -/
def remove (m : IntervalMap α) (start : Nat) : Except PagerError (α × IntervalMap α) :=
  match m.toList.find? (·.start = start) with
  | none => .error (.unknownAddress start)
  | some e => .ok (e.value, ⟨m.toList.filter (·.start ≠ start)⟩)

def clear (_ : IntervalMap α) : IntervalMap α := empty

/-- Takes all intervals away and answers them in the order of their starts. -/
def drain (m : IntervalMap α) : List (Interval α) × IntervalMap α := (m.toList, empty)

end IntervalMap
end DemandPager
