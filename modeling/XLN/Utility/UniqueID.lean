import Mathlib.Tactic.Common

/-!
# Unique identifiers

`Core/Utility/UniqueID.h`: a `UniqueID` is the sixteen bytes of a UUID.
-/

namespace XLN

structure UniqueID where
  data : List UInt8
  size : data.length = 16
  deriving DecidableEq

namespace UniqueID

/-- The constructor, which makes the nil UUID. -/
def new : UniqueID := ⟨List.replicate 16 0, rfl⟩

/-- `UniqueID::GetByteLength`. -/
def getByteLength (id : UniqueID) : Nat := id.data.length

/-- An id has 16 bytes. -/
@[simp] lemma getByteLength_eq (id : UniqueID) : id.getByteLength = 16 := id.size

/-- An id is told by its bytes. -/
lemma eq_of_data {id id' : UniqueID} (same : id.data = id'.data) : id = id' := by
  cases id
  cases id'
  simpa using same

end UniqueID
end XLN
