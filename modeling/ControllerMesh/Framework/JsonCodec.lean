import ControllerMesh.Framework.Container
import ControllerMesh.Framework.Json

/-!
# Encoding data as JSON

A `JsonCodec` is a type with its JSON encoding, its decoding, and what is read
back from an encoding (`norm`): not always the value itself, since a member
that is left out when empty (`omitempty`) is read back as nil. Strings, slices,
string maps and string sets have codecs here; a record is encoded as an object
with its members (`Json.record`) and decoded by looking them up
(`Json.member_record`).
-/

namespace CtrlMesh.Framework

structure JsonCodec (α : Type) where
  toJson : α → Json
  ofJson : Json → Option α
  /-- What is read back. -/
  norm : α → α
  ofJson_toJson (a : α) : ofJson (toJson a) = some (norm a)

namespace JsonCodec

def string : JsonCodec String where
  toJson s := .str s
  ofJson
    | .str s => some s
    | _ => none
  norm := id
  ofJson_toJson _ := rfl

private theorem mapM_map {α β : Type} {f : α → β} {g : β → Option α} {h : α → α}
    (hgf : ∀ a, g (f a) = some (h a)) (as : List α) : (as.map f).mapM g = some (as.map h) := by
  induction as with
  | nil => rfl
  | cons a as ih => simp [List.mapM_cons, hgf, ih]

def list {α : Type} (c : JsonCodec α) : JsonCodec (List α) where
  toJson as := .arr (as.map c.toJson)
  ofJson
    | .arr js => js.mapM c.ofJson
    | _ => none
  norm as := as.map c.norm
  ofJson_toJson as := mapM_map c.ofJson_toJson as

end JsonCodec

/-- The map of the pairs of a list, the last one of a key counting. -/
def StringMap.ofPairs {α : Type} (kvs : List (String × α)) : StringMap α :=
  kvs.foldl (fun m kv => m.insert kv.1 kv.2) ∅

theorem StringMap.ofPairs_toList {α : Type} (m : StringMap α) : StringMap.ofPairs m.toList = m := by
  apply Std.ExtTreeMap.ext_getElem?
  intro k
  have hfold := StringMap.getElem?_foldl_insert ∅ m k
  rw [Std.ExtTreeMap.foldl_eq_foldl_toList] at hfold
  rw [StringMap.ofPairs, hfold, Std.ExtTreeMap.getElem?_empty, Option.or_none]

theorem StringSet.ofItems_toList (s : StringSet) : StringSet.ofItems s.toList = s := by
  apply Std.ExtTreeSet.ext_mem
  simp [Std.ExtTreeSet.mem_toList]

namespace JsonCodec

def map {α : Type} (c : JsonCodec α) : JsonCodec (StringMap α) where
  toJson m := .obj (m.toList.map fun kv => (kv.1, c.toJson kv.2))
  ofJson
    | .obj kvs => (kvs.mapM fun kv => (c.ofJson kv.2).map fun a => (kv.1, a)).map StringMap.ofPairs
    | _ => none
  norm m := m.map fun _ a => c.norm a
  ofJson_toJson m := by
    have h := mapM_map (f := fun kv : String × α => (kv.1, c.toJson kv.2))
      (g := fun kv => (c.ofJson kv.2).map fun a => (kv.1, a)) (h := fun kv => (kv.1, c.norm kv.2))
      (fun kv => by simp [c.ofJson_toJson]) m.toList
    simp only [h, Option.map_some]
    rw [← StringMap.ofPairs_toList (m.map fun _ a => c.norm a), Std.ExtTreeMap.toList_map]

/-- The empty structure: any object is read as one. -/
def unit : JsonCodec Unit where
  toJson _ := .obj []
  ofJson
    | .obj _ => some ()
    | _ => none
  norm := id
  ofJson_toJson _ := rfl

/-- A set is a map to empty structures. -/
def set : JsonCodec StringSet where
  toJson s := .obj (s.toList.map fun a => (a, unit.toJson ()))
  ofJson
    | .obj kvs => (kvs.mapM fun kv => (unit.ofJson kv.2).map fun _ => kv.1).map StringSet.ofItems
    | _ => none
  norm := id
  ofJson_toJson s := by
    have h := mapM_map (f := fun a : String => (a, unit.toJson ()))
      (g := fun kv => (unit.ofJson kv.2).map fun _ => kv.1) (h := id) (fun _ => rfl) s.toList
    simp only [h, Option.map_some, List.map_id, StringSet.ofItems_toList, id]

end JsonCodec

/-! ## Members of a record -/

/-- A value that is left out when it is empty (`omitempty`). -/
def omitEmpty {α : Type} (isEmpty : α → Bool) : Option α → Option α
  | none => none
  | some a => if isEmpty a then none else some a

theorem omitEmpty_getD {α : Type} {isEmpty : α → Bool} {e : α}
    (he : ∀ a, isEmpty a = true → a = e) (a : α) : (omitEmpty isEmpty (some a)).getD e = a := by
  by_cases h : isEmpty a = true
  · rw [omitEmpty, if_pos h, Option.getD_none, he a h]
  · simp [omitEmpty, h]

/-- A set that is left out when empty is read back as it was. -/
theorem omitEmpty_set_getD (s : StringSet) :
    ((omitEmpty (·.isEmpty) (some s)).map JsonCodec.set.norm).getD ∅ = s := by
  rw [show JsonCodec.set.norm = id from rfl, Option.map_id]
  exact omitEmpty_getD (fun s h => by simpa using h) s

/-- The entries of a map that is left out when empty are read back. -/
theorem omitEmpty_map_getD {α : Type} (c : JsonCodec α) (m : StringMap α) :
    ((omitEmpty (·.isEmpty) (some m)).map c.map.norm).getD ∅ = c.map.norm m := by
  by_cases h : m.isEmpty = true
  · have he : m = ∅ := by simpa using h
    rw [omitEmpty, if_pos h, he]
    simp [JsonCodec.map]
  · rw [omitEmpty, if_neg h, Option.map_some, Option.getD_some]

namespace Json

/-- The members of a record; one without a value is left out. -/
def record (fields : List (String × Option Json)) : List (String × Json) :=
  fields.filterMap fun f => f.2.map fun j => (f.1, j)

@[simp] theorem record_none (k : String) (fields : List (String × Option Json)) :
    record ((k, none) :: fields) = record fields := rfl

@[simp] theorem record_some (k : String) (j : Json) (fields : List (String × Option Json)) :
    record ((k, some j) :: fields) = (k, j) :: record fields := rfl

/-- A member of a record, `none` if it is missing. -/
def member {α : Type} (c : JsonCodec α) (kvs : List (String × Json)) (key : String) :
    Option (Option α) :=
  match kvs.lookup key with
  | none => some none
  | some j => (c.ofJson j).map some

theorem lookup_record_of_notMem {key : String} :
    ∀ {fields : List (String × Option Json)}, key ∉ fields.map Prod.fst →
      (record fields).lookup key = none
  | [], _ => rfl
  | (k, none) :: fields, h => by
    simp only [List.map_cons, List.mem_cons, not_or] at h
    rw [record_none]
    exact lookup_record_of_notMem h.2
  | (k, some j) :: fields, h => by
    simp only [List.map_cons, List.mem_cons, not_or] at h
    have hk : (key == k) = false := by simpa using h.1
    rw [record_some, List.lookup_cons, hk]
    exact lookup_record_of_notMem h.2

theorem lookup_record {key : String} {j : Option Json} :
    ∀ {fields : List (String × Option Json)}, (fields.map Prod.fst).Nodup →
      fields.lookup key = some j → (record fields).lookup key = j
  | (k, j') :: fields, hn, h => by
    obtain ⟨hk, hn'⟩ := List.nodup_cons.mp hn
    by_cases e : key = k
    · subst e
      obtain rfl : j' = j := by simpa using h
      cases j' with
      | none => rw [record_none]; exact lookup_record_of_notMem hk
      | some j => simp
    · have hk' : (key == k) = false := by simpa using e
      rw [List.lookup_cons, hk'] at h
      cases j' with
      | none => rw [record_none]; exact lookup_record hn' h
      | some j'' =>
        rw [record_some, List.lookup_cons, hk']
        exact lookup_record hn' h

/-- A member is read back from its record. -/
theorem member_record {α : Type} (c : JsonCodec α) (key : String) (a : Option α)
    {fields : List (String × Option Json)} (hn : (fields.map Prod.fst).Nodup)
    (h : fields.lookup key = some (a.map c.toJson)) :
    member c (record fields) key = some (a.map c.norm) := by
  rw [member, lookup_record hn h]
  cases a with
  | none => rfl
  | some a => simp [c.ofJson_toJson]

end Json

end CtrlMesh.Framework
