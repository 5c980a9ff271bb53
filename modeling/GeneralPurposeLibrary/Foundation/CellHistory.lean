import Mathlib.Logic.Function.Basic

/-!
# Cells and the history of their writes

Operations on a memory of cells, some of which write one cell. After a sequence of them a cell
holds what the last write to it wrote, or its first value if there was none.
-/

namespace CellHistory

variable {κ ν ω : Type} [DecidableEq κ] (write : ω → Option (κ × ν))

def apply (cells : κ → ν) (op : ω) : κ → ν :=
  match write op with
  | none => cells
  | some (k, v) => Function.update cells k v

/-- What the operation writes to the cell. -/
def written (k : κ) (op : ω) : Option ν :=
  match write op with
  | none => none
  | some (k', v) => if k' = k then some v else none

/-- The last value written to the cell. -/
def lastWritten (ops : List ω) (k : κ) : Option ν := ops.reverse.findSome? (written write k)

lemma apply_at (cells : κ → ν) (op : ω) (k : κ) :
    apply write cells op k = (written write k op).getD (cells k) := by
  unfold apply written
  cases hop : write op with
  | none => rfl
  | some p =>
    obtain ⟨k', v⟩ := p
    by_cases hk : k' = k
    · subst hk
      simp
    · simp [hk, Function.update_of_ne (Ne.symm hk)]

/-- The memory after a sequence of operations. -/
theorem foldl_apply (cells : κ → ν) (ops : List ω) (k : κ) :
    ops.foldl (apply write) cells k = (lastWritten write ops k).getD (cells k) := by
  induction ops generalizing cells with
  | nil => rfl
  | cons op ops ih =>
    rw [List.foldl_cons, ih, apply_at, lastWritten, lastWritten, List.reverse_cons,
      List.findSome?_append, List.findSome?_singleton, Option.getD_or]

end CellHistory
