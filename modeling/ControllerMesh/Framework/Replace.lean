import Mathlib.Data.List.Sort

/-!
# Lists in which one element is replaced

What is computed from a list by looking at its elements one by one changes with
an element exactly if what is seen of that element changes:

* `map_set_of_eq`, `perm_filterMap_set_iff`: the elements seen, in their order
  and in any order;
* `sorted_filterMap_set_iff`: the same where they are sorted by what is seen;
* `flatMap_eq_flatMap_iff`: two functions with results of the same lengths, put
  together over a list.

What is computed from the sorted list does not change with the order of the
elements, if their keys are distinct (`insertionSort_eq_of_perm`).
-/

namespace CtrlMesh.Framework

variable {α β : Type} {l : List α} {i : Nat} {old new : α}

theorem set_split (new : α) (hold : l[i]? = some old) :
    l = l.take i ++ old :: l.drop (i + 1) ∧ l.set i new = l.take i ++ new :: l.drop (i + 1) := by
  obtain ⟨hlt, rfl⟩ := List.getElem?_eq_some_iff.mp hold
  refine ⟨?_, ?_⟩
  · rw [← List.drop_eq_getElem_cons, List.take_append_drop]
  · rw [List.set_eq_take_append_cons_drop, if_pos hlt]

theorem map_set_of_eq (hold : l[i]? = some old) {f : α → β} (h : f new = f old) :
    (l.set i new).map f = l.map f := by
  obtain ⟨hl, hset⟩ := set_split new hold
  rw [hset]
  nth_rewrite 3 [hl]
  rw [List.map_append, List.map_append, List.map_cons, List.map_cons, h]

/-- Up to order, only what is seen of the replaced element matters. -/
theorem perm_filterMap_set_iff (hold : l[i]? = some old) (view : α → Option β) :
    ((l.set i new).filterMap view).Perm (l.filterMap view) ↔ view new = view old := by
  obtain ⟨hl, hset⟩ := set_split new hold
  rw [hset]
  nth_rewrite 3 [hl]
  have hcons : ∀ (x : α) (rest : List α),
      (x :: rest).filterMap view = (view x).toList ++ rest.filterMap view := by
    intro x rest
    cases h : view x <;> simp [h]
  rw [List.filterMap_append, List.filterMap_append, List.perm_append_left_iff, hcons, hcons,
    List.perm_append_right_iff]
  cases view new <;> cases view old <;> simp

/-- Lists that are sorted by what they show. -/
theorem sorted_filterMap_set_iff [LinearOrder β] (hold : l[i]? = some old) (view : α → Option β)
    {seen seen' : List β} (hseen : seen.Perm (l.filterMap view))
    (hseen' : seen'.Perm ((l.set i new).filterMap view)) (hsorted : seen.Pairwise (· ≤ ·))
    (hsorted' : seen'.Pairwise (· ≤ ·)) : seen' = seen ↔ view new = view old := by
  rw [← perm_filterMap_set_iff hold view]
  constructor
  · rintro rfl
    exact hseen'.symm.trans hseen
  · intro h
    exact List.Perm.eq_of_pairwise (fun a b _ _ hab hba => le_antisymm hab hba) hsorted' hsorted
      (hseen'.trans (h.trans hseen.symm))

theorem flatMap_eq_flatMap_iff {f g : α → List β}
    (hlen : ∀ x ∈ l, (f x).length = (g x).length) :
    l.flatMap f = l.flatMap g ↔ ∀ x ∈ l, f x = g x := by
  induction l with
  | nil => simp
  | cons x l ih =>
    obtain ⟨hx, hrest⟩ := List.forall_mem_cons.mp hlen
    rw [List.flatMap_cons, List.flatMap_cons, List.forall_mem_cons, ← ih hrest]
    constructor
    · exact fun h => List.append_inj h hx
    · rintro ⟨h, hl⟩
      rw [h, hl]

theorem insertionSort_eq_of_perm [LinearOrder β] (key : α → β) {l l' : List α} (hperm : l.Perm l')
    (hnodup : (l.map key).Nodup) :
    l.insertionSort (key · ≤ key ·) = l'.insertionSort (key · ≤ key ·) := by
  have hsorted (l : List α) : (l.insertionSort (key · ≤ key ·)).Pairwise (key · ≤ key ·) := by
    have : Std.Total fun a b : α => key a ≤ key b := ⟨fun a b => le_total (key a) (key b)⟩
    have : IsTrans α fun a b => key a ≤ key b := ⟨fun _ _ _ => le_trans⟩
    exact List.pairwise_insertionSort _ l
  refine List.Perm.eq_of_pairwise (fun a b ha hb hab hba => ?_) (hsorted l) (hsorted l')
    ((List.perm_insertionSort _ l).trans (hperm.trans (List.perm_insertionSort _ l').symm))
  rw [List.mem_insertionSort] at ha hb
  exact List.inj_on_of_nodup_map hnodup ha (hperm.mem_iff.mpr hb) (le_antisymm hab hba)

end CtrlMesh.Framework
