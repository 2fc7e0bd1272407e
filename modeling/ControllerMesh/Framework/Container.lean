import Mathlib

/-!
# Sets and maps keyed by strings, and loops over them

Go's `map[string]T` and the string sets built on it, as ordered maps that are
equal when they have the same entries. A nil map reads as an empty one.

The order in which a `range` loop visits a map is not fixed by the language:
a `RangeOrder` is any such order, and a function that loops over a map takes
one. `mem_values`, `mem_members` and `perm_entries` say that every entry is
visited, which is all that a loop's result may depend on when it does not depend
on the order.
-/

namespace CtrlMesh.Framework

/-- A set of strings. -/
abbrev StringSet := Std.ExtTreeSet String

/-- A map from strings. -/
abbrev StringMap (α : Type) := Std.ExtTreeMap String α

/-- What every item of a loop can only add to holds in the end if it held before or one
of the items added it. -/
theorem foldl_gains {σ ε : Type} {step : σ → ε → σ} {P : σ → Prop} {Q : ε → Prop}
    (hstep : ∀ s e, P (step s e) ↔ P s ∨ Q e) (es : List ε) (s : σ) :
    P (es.foldl step s) ↔ P s ∨ ∃ e ∈ es, Q e := by
  induction es generalizing s with
  | nil => simp
  | cons e es ih => rw [List.foldl_cons, ih, hstep, List.exists_mem_cons_iff, or_assoc]

namespace StringSet

/-- The set of the items of a list. -/
def ofItems (items : List String) : StringSet := items.foldl (fun s a => s.insert a) ∅

theorem mem_insert_iff {s : StringSet} {a b : String} : b ∈ s.insert a ↔ b = a ∨ b ∈ s := by
  rw [Std.ExtTreeSet.mem_insert, Std.LawfulEqCmp.compare_eq_iff_eq, eq_comm]

/-- A set with the items of a list added. -/
def insertAll (s : StringSet) (items : List String) : StringSet := items.foldl (fun s a => s.insert a) s

theorem mem_insertAll {a : String} {items : List String} {s : StringSet} :
    a ∈ s.insertAll items ↔ a ∈ items ∨ a ∈ s := by
  have hstep (s : StringSet) (b : String) : a ∈ s.insert b ↔ a ∈ s ∨ a = b := by
    rw [mem_insert_iff, or_comm]
  rw [insertAll, foldl_gains (P := (a ∈ ·)) hstep, or_comm]
  simp

@[simp] theorem mem_ofItems {items : List String} {a : String} : a ∈ ofItems items ↔ a ∈ items := by
  rw [ofItems, ← insertAll, mem_insertAll]
  simp

/-- The items are distinct and not in the set: a loop that adds them to it, one after
the other, finds none of them there. -/
def Fresh (seen : StringSet) (items : List String) : Prop := items.Nodup ∧ ∀ a ∈ items, a ∉ seen

theorem fresh_nil (seen : StringSet) : seen.Fresh [] := ⟨List.nodup_nil, by simp⟩

theorem fresh_empty {items : List String} : Fresh ∅ items ↔ items.Nodup := by simp [Fresh]

theorem fresh_cons {seen : StringSet} {a : String} {items : List String} :
    seen.Fresh (a :: items) ↔ a ∉ seen ∧ Fresh (seen.insert a) items := by
  simp only [Fresh, List.nodup_cons, List.forall_mem_cons, mem_insert_iff, not_or]
  constructor
  · rintro ⟨⟨ha, hnodup⟩, hseen, hitems⟩
    exact ⟨hseen, hnodup, fun b hb => ⟨fun h => ha (h ▸ hb), hitems b hb⟩⟩
  · rintro ⟨hseen, hnodup, hitems⟩
    exact ⟨⟨fun ha => (hitems a ha).1 rfl, hnodup⟩, hseen, fun b hb => (hitems b hb).2⟩

theorem fresh_append {seen : StringSet} {items items' : List String} :
    seen.Fresh (items ++ items') ↔ seen.Fresh items ∧ Fresh (seen.insertAll items) items' := by
  induction items generalizing seen with
  | nil => simp [fresh_nil, insertAll]
  | cons a items ih => rw [List.cons_append, fresh_cons, fresh_cons, ih, and_assoc]; rfl

theorem size_eq_zero_iff {s : StringSet} : s.size = 0 ↔ s = ∅ := by
  rw [← Std.ExtTreeSet.length_toList, List.length_eq_zero_iff, Std.ExtTreeSet.toList_eq_nil_iff]

theorem size_pos_iff {s : StringSet} : 0 < s.size ↔ ∃ a, a ∈ s := by
  rw [Nat.pos_iff_ne_zero, ← Std.ExtTreeSet.length_toList, ne_eq, List.length_eq_zero_iff]
  simp only [List.eq_nil_iff_forall_not_mem, Std.ExtTreeSet.mem_toList, not_forall, not_not]

end StringSet

/-- An order in which a `range` loop visits the keys of a map. -/
structure RangeOrder where
  visit : List String → List String
  /-- Every key is visited, once. -/
  perm (keys : List String) : (visit keys).Perm keys

namespace RangeOrder

/-- The order of the keys. -/
def sorted : RangeOrder := ⟨id, fun _ => List.Perm.refl _⟩

variable (o : RangeOrder)

/-- The members of a set as a loop visits them. -/
def members (s : StringSet) : List String := o.visit s.toList

@[simp] theorem mem_members {s : StringSet} {a : String} : a ∈ o.members s ↔ a ∈ s := by
  rw [members, (o.perm _).mem_iff, Std.ExtTreeSet.mem_toList]

/-- The values of a map as a loop visits them. -/
def values {α : Type} (m : StringMap α) : List α := (o.visit m.keys).filterMap (m[·]?)

@[simp] theorem mem_values {α : Type} {m : StringMap α} {v : α} :
    v ∈ o.values m ↔ ∃ k : String, m[k]? = some v := by
  simp only [values, List.mem_filterMap, (o.perm _).mem_iff, Std.ExtTreeMap.mem_keys]
  constructor
  · rintro ⟨k, -, h⟩; exact ⟨k, h⟩
  · rintro ⟨k, h⟩
    exact ⟨k, Std.ExtTreeMap.mem_iff_isSome_getElem?.mpr (by rw [h]; rfl), h⟩

/-- The entries of a map as a loop visits them. -/
def entries {α : Type} (m : StringMap α) : List (String × α) :=
  (o.visit m.keys).filterMap fun k => m[k]?.map (k, ·)

theorem perm_entries {α : Type} (m : StringMap α) : (o.entries m).Perm m.toList := by
  have hkeys : (m.keys.filterMap fun k => m[k]?.map (k, ·)) = m.toList := by
    rw [← Std.ExtTreeMap.map_fst_toList_eq_keys, List.filterMap_map]
    refine (List.filterMap_congr fun kv hkv => ?_).trans (List.filterMap_some)
    have hv : m[kv.1]? = some kv.2 := Std.ExtTreeMap.mem_toList_iff_getElem?_eq_some.mp hkv
    simp [hv]
  rw [← hkeys]
  exact (o.perm m.keys).filterMap _

end RangeOrder

/-- A list in the order in which a loop takes its elements: `order` says which of
those that are left comes next, and from where on nothing is said they come as they
stand. -/
def visitIn {β : Type} : List Nat → List β → List β
  | [], l => l
  | i :: order, l =>
    match l[i]? with
    | none => l
    | some x => x :: visitIn order (l.eraseIdx i)

theorem perm_visitIn {β : Type} (order : List Nat) (l : List β) : (visitIn order l).Perm l := by
  induction order generalizing l with
  | nil => exact List.Perm.refl l
  | cons i order ih =>
    rw [visitIn]
    split
    · exact List.Perm.refl l
    · next x hx =>
      obtain ⟨hi, rfl⟩ := List.getElem?_eq_some_iff.mp hx
      exact ((ih _).cons _).trans (List.getElem_cons_eraseIdx_perm hi)

/-- `append(a, bs...)` on a slice, where `none` is the nil slice: appending
nothing to nil gives nil. -/
def appendSlice {α : Type} : Option (List α) → List α → Option (List α)
  | none, [] => none
  | none, b :: bs => some (b :: bs)
  | some as, bs => some (as ++ bs)

theorem StringMap.getElem?_insert {α : Type} {m : StringMap α} {k k' : String} {v : α} :
    (m.insert k v)[k']? = if k = k' then some v else m[k']? := by
  rw [Std.ExtTreeMap.getElem?_insert]
  simp only [Std.LawfulEqCmp.compare_eq_iff_eq]

theorem StringMap.getElem?_erase {α : Type} {m : StringMap α} {k k' : String} :
    (m.erase k)[k']? = if k = k' then none else m[k']? := by
  rw [Std.ExtTreeMap.getElem?_erase]
  simp only [Std.LawfulEqCmp.compare_eq_iff_eq]

private theorem getElem?_foldl_insert_pairs {α : Type} {k : String} {kvs : List (String × α)}
    (hd : kvs.Pairwise (fun a b => a.1 ≠ b.1)) (m : StringMap α) :
    (kvs.foldl (fun m kv => m.insert kv.1 kv.2) m)[k]? =
      ((kvs.find? (·.1 = k)).map (·.2)).or m[k]? := by
  induction kvs generalizing m with
  | nil => simp
  | cons kv kvs ih =>
    obtain ⟨hkv, hkvs⟩ := List.pairwise_cons.mp hd
    rw [List.foldl_cons, ih hkvs, StringMap.getElem?_insert]
    by_cases hk : kv.1 = k
    · have hnone : kvs.find? (·.1 = k) = none := by
        simp only [List.find?_eq_none, decide_eq_true_eq]
        exact fun x hx e => hkv x hx (hk.trans e.symm)
      simp [hk, hnone]
    · simp [hk]

private theorem find?_toList {α : Type} (m : StringMap α) (k : String) :
    (m.toList.find? (·.1 = k)).map (·.2) = m[k]? := by
  cases h : m.toList.find? (·.1 = k) with
  | none =>
    simp only [List.find?_eq_none, decide_eq_true_eq] at h
    cases hm : m[k]? with
    | none => rfl
    | some v => exact absurd rfl (h (k, v) (Std.ExtTreeMap.mem_toList_iff_getElem?_eq_some.mpr hm))
  | some kv =>
    obtain ⟨k', v⟩ := kv
    have hk : k' = k := by simpa using List.find?_some h
    subst hk
    exact (Std.ExtTreeMap.mem_toList_iff_getElem?_eq_some.mp (List.mem_of_find?_eq_some h)).symm

/-- The entries of `b` written over those of `a`. -/
theorem StringMap.getElem?_foldl_insert {α : Type} (a b : StringMap α) (k : String) :
    (b.foldl (fun m k v => m.insert k v) a)[k]? = b[k]?.or a[k]? := by
  have hd : b.toList.Pairwise (fun x y => x.1 ≠ y.1) :=
    Std.ExtTreeMap.distinct_keys_toList.imp fun h => by
      simpa [Std.LawfulEqCmp.compare_eq_iff_eq] using h
  rw [Std.ExtTreeMap.foldl_eq_foldl_toList, getElem?_foldl_insert_pairs hd, find?_toList]

end CtrlMesh.Framework
