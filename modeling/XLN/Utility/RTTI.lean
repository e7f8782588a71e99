import Mathlib.Tactic.Common

/-!
# Run-time type information

`Core/Utility/RTTI.h`: every class owns a static `RTTI` object that points to the one of its base
class. A pointer to such an object is modelled by the object itself; `address` keeps classes apart
that share a name and a base.
-/

namespace XLN

/-- `XCr::RTTI`: a root class (`XLN_IMPLEMENT_ROOT_RTTI`) or a class with a base
    (`XLN_IMPLEMENT_RTTI`). -/
inductive RTTI where
  | root (address : Nat) (m_Name : String)
  | derived (address : Nat) (m_Name : String) (m_BaseRTTI : RTTI)
  deriving DecidableEq

namespace RTTI

/-- Where the object is stored. -/
def address : RTTI → Nat
  | root address _ => address
  | derived address _ _ => address

/-- `std::less` on the pointers, where it orders them by their addresses. -/
def less (id id' : RTTI) : Bool :=
  id.address < id'.address

/-- `RTTI::GetName`. -/
def getName : RTTI → String
  | root _ m_Name => m_Name
  | derived _ m_Name _ => m_Name

/-- The values `id` takes in `do { .. id = id->GetBaseRTTI(); } while(id);`. -/
def chain : RTTI → List RTTI
  | root address m_Name => [root address m_Name]
  | derived address m_Name m_BaseRTTI => derived address m_Name m_BaseRTTI :: m_BaseRTTI.chain

/-- `IsKindOf`: `rtti` is met on the way from `id` to its root. -/
def isKindOf (id rtti : RTTI) : Bool :=
  match id with
  | root address m_Name => root address m_Name = rtti
  | derived address m_Name m_BaseRTTI =>
    derived address m_Name m_BaseRTTI = rtti || m_BaseRTTI.isKindOf rtti

variable {id rtti : RTTI}

/-- A class is on its own chain. -/
@[simp] lemma mem_chain_self : id ∈ id.chain := by
  cases id <;> simp [chain]

/-- A class is of the kinds on its chain. -/
lemma isKindOf_iff : id.isKindOf rtti = true ↔ rtti ∈ id.chain := by
  induction id with
  | root address m_Name =>
    rw [isKindOf, chain, decide_eq_true_iff, List.mem_singleton]
    exact eq_comm
  | derived address m_Name m_BaseRTTI ih =>
    rw [isKindOf, chain, Bool.or_eq_true, decide_eq_true_iff, ih, List.mem_cons]
    exact or_congr_left eq_comm

/-- A class is of its own kind. -/
@[simp] lemma isKindOf_self : id.isKindOf id = true :=
  isKindOf_iff.mpr mem_chain_self

end RTTI
end XLN
