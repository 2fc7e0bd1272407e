import Mathlib

/-!
# Tokens and their holders

Agents hold tokens of several kinds; `holdings` lists, agent by agent, the kinds
of the tokens that each one holds. `outstanding` counts the tokens of a kind.

* `outstanding_set`: what replacing the holdings of one agent changes;
* `outstanding_pos`: a token that is held is counted;
* `outstanding_eq_countP`: where no agent holds two tokens of one kind, tokens
  are counted by their holders.
-/

namespace CtrlMesh.Framework

variable {κ : Type} [DecidableEq κ]

/-- The number of tokens of a kind that are held. -/
def outstanding (holdings : List (List κ)) (k : κ) : Nat := (holdings.map (·.count k)).sum

theorem outstanding_cons (held : List κ) (holdings : List (List κ)) (k : κ) :
    outstanding (held :: holdings) k = held.count k + outstanding holdings k := by
  rw [outstanding, List.map_cons, List.sum_cons, outstanding]

@[simp] theorem outstanding_append_nil (holdings : List (List κ)) (k : κ) :
    outstanding (holdings ++ [[]]) k = outstanding holdings k := by
  simp [outstanding]

/-- One agent's holdings change from `old` to `new`. -/
theorem outstanding_set {holdings : List (List κ)} {i : Nat} {old : List κ}
    (hold : holdings[i]? = some old) (new : List κ) (k : κ) :
    outstanding (holdings.set i new) k + old.count k = outstanding holdings k + new.count k := by
  induction holdings generalizing i with
  | nil => simp at hold
  | cons held holdings ih =>
    cases i with
    | zero =>
      obtain rfl : held = old := by simpa using hold
      rw [List.set_cons_zero, outstanding_cons, outstanding_cons]
      omega
    | succ i =>
      have hrest := ih (by simpa using hold)
      rw [List.set_cons_succ, outstanding_cons, outstanding_cons]
      omega

theorem outstanding_pos {holdings : List (List κ)} {held : List κ} {k : κ}
    (hheld : held ∈ holdings) (hk : k ∈ held) : 0 < outstanding holdings k := by
  induction holdings with
  | nil => simp at hheld
  | cons other holdings ih =>
    rw [outstanding_cons]
    rcases List.mem_cons.mp hheld with rfl | hrest
    · exact Nat.add_pos_left (List.count_pos_iff.mpr hk) _
    · exact Nat.add_pos_right _ (ih hrest)

/-- Tokens counted by their holders. -/
theorem outstanding_eq_countP {holdings : List (List κ)} (hnodup : ∀ held ∈ holdings, held.Nodup)
    (k : κ) : outstanding holdings k = holdings.countP (k ∈ ·) := by
  induction holdings with
  | nil => rfl
  | cons held holdings ih =>
    obtain ⟨hheld, hrest⟩ := List.forall_mem_cons.mp hnodup
    rw [outstanding_cons, ih hrest, List.countP_cons, List.Nodup.count hheld]
    by_cases hk : k ∈ held <;> simp [hk, Nat.add_comm]

end CtrlMesh.Framework
