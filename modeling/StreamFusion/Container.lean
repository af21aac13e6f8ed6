/-!
# Containers

A container has a size and is read by position. It need not be able to give every element below its
size; a position without an element is a hole.
-/

namespace StreamFusion

variable {α : Type}

/-- A container of known size, read by position. -/
structure Container (α : Type) where
  size : Nat
  get? : Nat → Option α

namespace Container

/-- The container of a list, without holes. -/
def ofList (items : List α) : Container α :=
  let array := items.toArray
  ⟨array.size, fun position => array[position]?⟩

/-- The bytes of a text in UTF-8. -/
def ofText (text : String) (byte : Nat → α) : Container α :=
  let bytes := text.toUTF8
  ⟨bytes.size, fun position => bytes[position]?.map fun b => byte b.toNat⟩

/-- A container of the given size that has some of the items at their positions, and holes
elsewhere. -/
def sparse (size : Nat) (items : List α) (holes : List Nat) : Container α :=
  let array := items.toArray
  ⟨size, fun position => if position ∈ holes then none else array[position]?⟩

/-- Does the container have no elements? -/
def isEmpty (box : Container α) : Bool := box.size == 0

@[simp] theorem size_ofList (items : List α) : (ofList items).size = items.length := by
  simp [ofList]

@[simp] theorem get?_ofList (items : List α) (position : Nat) :
    (ofList items).get? position = items[position]? := by
  simp [ofList]

end Container

end StreamFusion
