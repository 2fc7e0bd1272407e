import Mathlib.Data.List.Basic

/-!
# Files with an offset

An open file: its contents and the offset that reads and writes start at. A
write replaces what is there from the offset on and moves the offset past it;
nothing is truncated. Writes to a file that is read or written up to its end
append (`write_data`), so without a seek the contents are everything ever
written.
-/

namespace CtrlMesh.Framework

structure File (β : Type) where
  data : List β
  offset : Nat

namespace File

variable {β : Type}

/-- Opens a file for reading and writing, without truncating it. -/
def openRW (data : List β) : File β := ⟨data, 0⟩

def write (f : File β) (bs : List β) : File β :=
  ⟨f.data.take f.offset ++ bs ++ f.data.drop (f.offset + bs.length), f.offset + bs.length⟩

/-- What is left to read; the offset moves to the end. -/
def readAll (f : File β) : List β × File β := (f.data.drop f.offset, ⟨f.data, f.data.length⟩)

/-- The offset is at the end of the contents. -/
def AtEnd (f : File β) : Prop := f.offset = f.data.length

theorem write_data {f : File β} (h : f.AtEnd) (bs : List β) : (f.write bs).data = f.data ++ bs := by
  simp only [write, show f.offset = f.data.length from h, List.take_length]
  rw [List.drop_eq_nil_of_le (Nat.le_add_right _ _), List.append_nil]

theorem AtEnd.write {f : File β} (h : f.AtEnd) (bs : List β) : (f.write bs).AtEnd := by
  rw [AtEnd, write_data h, List.length_append, ← show f.offset = f.data.length from h]
  rfl

end File

end CtrlMesh.Framework
