import TargetGen.Distinct
import TargetGen.Label
import TargetGen.Ordered

/-!
# Label lists — included labels less excluded ones

A list keeps what was included, in order, beside what was excluded. `resolved`
subtracts by address and keeps the first spelling of each address.
-/

namespace TargetGen

namespace Label

/-- Labels in order of their addresses; equal ones keep their places. -/
def sort (labels : List Label) : List Label :=
  labels.mergeSort fun a b => compare a b ≠ .gt

/-- The first label of each address. -/
def distinct (labels : List Label) : List Label := Distinct.byKey address [] labels

end Label

structure LabelList where
  includes : List Label
  excludes : List Label
  deriving DecidableEq, Inhabited

namespace LabelList

def empty : LabelList := ⟨[], []⟩

def ofIncludes (labels : List Label) : LabelList := ⟨labels, []⟩

def isEmpty (l : LabelList) : Bool := l.includes.isEmpty

/-- Include one more label. -/
def push (l : LabelList) (label : Label) : LabelList :=
  { l with includes := l.includes ++ [label] }

/-- Exclude one more label. -/
def exclude (l : LabelList) (label : Label) : LabelList :=
  { l with excludes := l.excludes ++ [label] }

def addresses (l : LabelList) : List String := l.includes.map Label.address

def excludedAddresses (l : LabelList) : List String := l.excludes.map Label.address

/-- The included labels whose address is not excluded, each address once, in
the spelling it was first included with. -/
def resolved (l : LabelList) : List Label :=
  Label.distinct <| l.includes.filter fun label => label.address ∉ l.excludedAddresses

/-- Drop from the includes what `resolved` leaves out. -/
def subtractExcludes (l : LabelList) : LabelList := { l with includes := l.resolved }

/-- The packages of the absolute includes. -/
def packages (l : LabelList) : NameSet :=
  NameSet.ofList (l.includes.filterMap Label.package?)

end LabelList

end TargetGen
