/- Entries of a list by number.  A negative number counts from the end: the last entry is -1. -/
namespace StructuredText

def index? (length : Nat) (i : Int) : Option (Fin length) :=
  let n := if i < 0 then i + length else i
  if h : 0 ≤ n ∧ n < length then some ⟨n.toNat, by omega⟩ else none

theorem index?_eq_some_iff {length : Nat} {i : Int} {n : Fin length} :
    index? length i = some n ↔ i = n ∨ i = (n : Int) - length := by
  have bound := n.isLt
  simp only [index?]
  split <;> split <;> simp [Fin.ext_iff] <;> omega

theorem index?_eq_none_iff {length : Nat} {i : Int} :
    index? length i = none ↔ (length : Int) ≤ i ∨ i < -(length : Int) := by
  simp only [index?]
  split <;> split <;> simp <;> omega

end StructuredText
