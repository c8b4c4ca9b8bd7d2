/-
# Objects

An object is a geometry with the callbacks of its owner: one that fills elements
on demand, one that receives elements before they are dropped, and one that runs
when the memory is gone. Callbacks act on a client state `γ`, which belongs to the
callers; the pager passes it along and never looks inside.

Key definitions: `Callbacks`, `FillEnd`, `Object`, `Object.fill`,
`Object.wantsWriteBack`.
-/
import DemandPager.Bytes
import DemandPager.Geometry

namespace DemandPager

inductive FillEnd
  | filled
  /-- The callback gives up, with a reason. -/
  | gaveUp (reason : String)
  /-- The callback breaks off, and the worker with it. -/
  | broke
deriving DecidableEq, Repr

inductive HandOver
  | taken
  | broke
deriving DecidableEq, Repr

/-- Receives the elements from the first number to before the second. -/
abbrev Hook (γ : Type) := Nat → Nat → Bytes → γ → HandOver × γ

/-- What an owner supplies for an object. -/
structure Callbacks (γ : Type) where
  /-- Fills the elements from the first number to before the second. It sees what
  the target holds, and answers the front of the target as it leaves it. -/
  populate : Nat → Nat → Bytes → γ → FillEnd × Bytes × γ
  writeBack : Option (Hook γ) := none
  /-- Runs once the memory is gone. -/
  destructor : Option (γ → γ) := none

def Callbacks.describe {γ : Type} (c : Callbacks γ) : String :=
  "ObjectCallbacks \x7b write_back: " ++ toString c.writeBack.isSome ++ ", destructor: " ++
    toString c.destructor.isSome ++ ", .. \x7d"

/-- What the worker knows about an object. -/
structure Object (γ : Type) where
  id : Nat
  geometry : Geometry
  callbacks : Callbacks γ
  /-- The number of the gate of the object. -/
  gate : Nat

namespace Object

variable {γ : Type}

/-- Fills a target with the elements from `first` to before `stop`. Whatever the
callback answers, the target keeps its length. -/
def fill (o : Object γ) (first stop : Nat) (target : Bytes) (client : γ) :
    FillEnd × Bytes × γ :=
  let (result, written, client) := o.callbacks.populate first stop target client
  (result, Bytes.overlay written target, client)

theorem fill_eq {o : Object γ} {first stop : Nat} {target filled : Bytes}
    {client client' : γ} {result : FillEnd}
    (h : o.fill first stop target client = (result, filled, client')) :
    filled = Bytes.overlay (o.callbacks.populate first stop target client).2.1 target ∧
      client' = (o.callbacks.populate first stop target client).2.2 := by
  unfold fill at h
  have hrest := (Prod.mk.inj h).2
  exact ⟨(Prod.mk.inj hrest).1.symm, (Prod.mk.inj hrest).2.symm⟩

/-- Whether elements are handed back before they are dropped. -/
def wantsWriteBack (o : Object γ) : Bool :=
  !o.geometry.readOnly && o.callbacks.writeBack.isSome

theorem wantsWriteBack_iff {o : Object γ} : o.wantsWriteBack ↔
    o.geometry.readOnly = false ∧ ∃ hook, o.callbacks.writeBack = some hook := by
  unfold wantsWriteBack
  rw [Bool.and_eq_true, Bool.not_eq_true', Option.isSome_iff_exists]

end Object
end DemandPager
