/-!
Sequences that grow at their end, each addition at the same cost however long they are.
-/

namespace ClientRuntime

structure History (α : Type) where
  newestFirst : List α

namespace History

variable {α : Type}

def empty : History α := ⟨[]⟩

instance : Inhabited (History α) := ⟨empty⟩

def push (h : History α) (a : α) : History α := ⟨a :: h.newestFirst⟩

/-- Oldest first. -/
def toList (h : History α) : List α := h.newestFirst.reverse

@[simp] theorem toList_empty : (empty : History α).toList = [] := rfl

@[simp] theorem toList_push (h : History α) (a : α) : (h.push a).toList = h.toList ++ [a] := by
  simp [push, toList]

end History

end ClientRuntime
