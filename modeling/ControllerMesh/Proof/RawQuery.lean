import ControllerMesh.Framework.UrlQuery
import ControllerMesh.Impl.Http

/-!
# Raw queries

`ParseRawQuery` and `MarshalRawQuery` of `util/http/request_util.go`. What a raw
query says is a list of pairs, `rawPairs`: `ParseRawQuery` reads the pairs and puts
them into a map, `MarshalRawQuery` writes the entries of a map as pairs in any
order.

* `parseRawQuery_eq_ok_iff`: a query is parsed to the map of its pairs;
* `rawPairs_eq_none_iff`: the queries that have no pairs;
* `rawPairs_intercalate`: pairs without separators are read back;
* `parseRawQuery_marshalRawQuery`: so a map is, whatever the order.
-/

namespace CtrlMesh

open Framework Framework.Wire Framework.UrlQuery

/-! ## Taking a query apart -/

/-- The key and the value around the only `=` of a part. -/
def splitPair (part : Bytes) : Option (Bytes × Bytes) :=
  match part.splitOn equalsSign with
  | [key, value] => some (key, value)
  | _ => none

/-- The parts of a raw query as pairs. -/
def rawPairs (rawQuery : Bytes) : Option (List (Bytes × Bytes)) :=
  if rawQuery = [] then some [] else (rawQuery.splitOn ampersand).mapM splitPair

/-- `m[key] = value` for all pairs in their order. -/
def RawParams.insertAll (m : RawParams) (pairs : List (Bytes × Bytes)) : RawParams :=
  pairs.foldl (fun m kv => m.insert kv.1 kv.2) m

theorem splitPair_eq_some {part : Bytes} {kv : Bytes × Bytes} (h : splitPair part = some kv) :
    part = marshalPair kv ∧ equalsSign ∉ kv.1 := by
  unfold splitPair at h
  split at h
  · rename_i key value hsplit
    cases h
    have hjoin : [equalsSign].intercalate [key, value] = part := by
      rw [← hsplit, List.intercalate_splitOn]
    have hmem : key ∈ part.splitOn equalsSign := by simp [hsplit]
    refine ⟨?_, not_mem_of_mem_splitOn hmem⟩
    rw [← hjoin, List.intercalate_cons_cons, List.intercalate_singleton]
    rfl
  · exact absurd h (by simp)

theorem splitPair_eq_none_iff {part : Bytes} :
    splitPair part = none ↔ part.count equalsSign ≠ 1 := by
  have hlength := length_splitOn equalsSign part
  unfold splitPair
  split
  · rename_i key value hsplit
    rw [hsplit] at hlength
    have hcount : 1 = part.count equalsSign := Nat.succ.inj hlength
    simp [← hcount]
  · rename_i hsplit
    refine iff_of_true rfl fun hcount => ?_
    rw [hcount] at hlength
    obtain ⟨key, value, hparts⟩ := List.length_eq_two.mp hlength
    exact hsplit key value hparts

theorem mapM_splitPair {parts : List Bytes} {pairs : List (Bytes × Bytes)}
    (h : parts.mapM splitPair = some pairs) :
    (∀ kv ∈ pairs, equalsSign ∉ kv.1) ∧ pairs.map marshalPair = parts := by
  refine map_eq_of_forall₂ ?_
  exact (mapM_eq_some_iff.mp h).flip.imp fun _ _ hpart =>
    ⟨(splitPair_eq_some hpart).2, (splitPair_eq_some hpart).1.symm⟩

theorem parseRawPairs_cons (part : Bytes) (parts : List Bytes) (m : RawParams) :
    parseRawPairs (part :: parts) m =
      (splitPair part).bind fun kv => parseRawPairs parts (m.insert kv.1 kv.2) := by
  rw [parseRawPairs, splitPair]
  rcases part.splitOn equalsSign with _ | ⟨key, _ | ⟨value, _ | ⟨more, rest⟩⟩⟩
  · rfl
  · rfl
  · rfl
  · rfl

theorem parseRawPairs_eq (parts : List Bytes) (m : RawParams) :
    parseRawPairs parts m = (parts.mapM splitPair).map m.insertAll := by
  induction parts generalizing m with
  | nil => rfl
  | cons part parts ih =>
    rw [parseRawPairs_cons, List.mapM_cons]
    cases splitPair part with
    | none => rfl
    | some kv =>
      rw [Option.bind_some, ih]
      cases parts.mapM splitPair with
      | none => rfl
      | some pairs => rfl

theorem parseRawQuery_eq_ok_iff {rawQuery : Bytes} {m : RawParams} :
    parseRawQuery rawQuery = .ok m ↔
      ∃ pairs, rawPairs rawQuery = some pairs ∧ RawParams.empty.insertAll pairs = m := by
  unfold parseRawQuery rawPairs
  split
  · simp [RawParams.insertAll]
  · rw [parseRawPairs_eq]
    cases (rawQuery.splitOn ampersand).mapM splitPair with
    | none => simp
    | some pairs => simp

theorem rawPairs_eq_none_iff {rawQuery : Bytes} :
    rawPairs rawQuery = none ↔
      rawQuery ≠ [] ∧ ∃ part ∈ rawQuery.splitOn ampersand, part.count equalsSign ≠ 1 := by
  unfold rawPairs
  split
  · rename_i hnil
    simp [hnil]
  · rename_i hne
    simp only [mapM_eq_none_iff, splitPair_eq_none_iff, hne, ne_eq, not_false_eq_true, true_and]

theorem exists_parseRawQuery_eq_error_iff {rawQuery : Bytes} :
    (∃ err, parseRawQuery rawQuery = .error err) ↔ rawPairs rawQuery = none := by
  rw [Option.eq_none_iff_forall_ne_some]
  cases hparse : parseRawQuery rawQuery with
  | error err =>
    refine iff_of_true ⟨err, rfl⟩ fun pairs hpairs => ?_
    have hok := parseRawQuery_eq_ok_iff.mpr ⟨pairs, hpairs, rfl⟩
    simp [hparse] at hok
  | ok m =>
    obtain ⟨pairs, hpairs, -⟩ := parseRawQuery_eq_ok_iff.mp hparse
    exact iff_of_false (by simp) fun h => h pairs hpairs

/-! ## Putting it together -/

theorem foldl_marshalPair {result : Bytes} (hne : result ≠ []) (kvs : List (Bytes × Bytes)) :
    kvs.foldl (fun result kv =>
      if result.length = 0 then result ++ marshalPair kv
      else result ++ [ampersand] ++ marshalPair kv) result =
      [ampersand].intercalate (result :: kvs.map marshalPair) := by
  induction kvs generalizing result with
  | nil => simp
  | cons kv kvs ih =>
    rw [List.foldl_cons, if_neg (by simpa using hne), ih (by simp [hne]), List.map_cons,
      List.intercalate_cons_cons]
    cases kvs with
    | nil => simp
    | cons kv' kvs => simp [List.intercalate_cons_cons]

theorem marshalRawQuery_eq (order : EntryOrder) (m : RawParams) :
    marshalRawQuery order m = [ampersand].intercalate ((order.visit m.entries).map marshalPair) := by
  unfold marshalRawQuery
  cases order.visit m.entries with
  | nil => rfl
  | cons kv kvs =>
    rw [List.foldl_cons, if_pos (by rfl), List.nil_append, foldl_marshalPair (by simp [marshalPair]),
      List.map_cons]

/-! ## Reading back what is written -/

/-- The separators of a query are in neither the key nor the value. -/
def Unseparated (kv : Bytes × Bytes) : Prop :=
  ∀ sep ∈ [ampersand, equalsSign], sep ∉ kv.1 ∧ sep ∉ kv.2

instance (kv : Bytes × Bytes) : Decidable (Unseparated kv) :=
  inferInstanceAs (Decidable (∀ sep ∈ [ampersand, equalsSign], sep ∉ kv.1 ∧ sep ∉ kv.2))

theorem Unseparated.splitPair_marshalPair {kv : Bytes × Bytes} (h : Unseparated kv) :
    splitPair (marshalPair kv) = some kv := by
  obtain ⟨hkey, hvalue⟩ := h equalsSign (by simp)
  have hjoin : marshalPair kv = [equalsSign].intercalate [kv.1, kv.2] := by
    rw [List.intercalate_cons_cons, List.intercalate_singleton, marshalPair]
  have hsplit : (marshalPair kv).splitOn equalsSign = [kv.1, kv.2] := by
    rw [hjoin]
    exact List.splitOn_intercalate equalsSign (by simp [hkey, hvalue]) (by simp)
  rw [splitPair, hsplit]

theorem Unseparated.ampersand_not_mem {kv : Bytes × Bytes} (h : Unseparated kv) :
    ampersand ∉ marshalPair kv := by
  obtain ⟨hkey, hvalue⟩ := h ampersand (by simp)
  have hne : ampersand ≠ equalsSign := by decide
  simp [marshalPair, hkey, hvalue, hne]

/-- Pairs without separators in them are read back. -/
theorem rawPairs_intercalate {pairs : List (Bytes × Bytes)} (h : ∀ kv ∈ pairs, Unseparated kv) :
    rawPairs ([ampersand].intercalate (pairs.map marshalPair)) = some pairs := by
  cases pairs with
  | nil => rfl
  | cons kv kvs =>
    have hsplit : ([ampersand].intercalate ((kv :: kvs).map marshalPair)).splitOn ampersand =
        (kv :: kvs).map marshalPair := by
      apply List.splitOn_intercalate ampersand
      · intro part hpart
        obtain ⟨kv', hkv', rfl⟩ := List.mem_map.mp hpart
        exact (h kv' hkv').ampersand_not_mem
      · simp
    have hne : [ampersand].intercalate ((kv :: kvs).map marshalPair) ≠ [] := by
      intro hnil
      rw [hnil, List.splitOn_nil, List.map_cons] at hsplit
      simp [marshalPair] at hsplit
    rw [rawPairs, if_neg hne, hsplit, mapM_eq_some_iff, List.forall₂_map_left_iff,
      List.forall₂_same]
    exact fun kv' hkv' => (h kv' hkv').splitPair_marshalPair

/-! ## The map of the parameters -/

namespace RawParams

theorem mem_insertAll {m : RawParams} {pairs : List (Bytes × Bytes)} {kv : Bytes × Bytes}
    (h : kv ∈ (m.insertAll pairs).entries) : kv ∈ m.entries ∨ kv ∈ pairs := by
  induction pairs generalizing m with
  | nil => exact .inl h
  | cons p pairs ih =>
    rcases ih (m := m.insert p.1 p.2) h with hm | hpairs
    · rcases List.mem_cons.mp hm with rfl | hm
      · exact .inr (by simp)
      · exact .inl (List.mem_filter.mp hm).1
    · exact .inr (List.mem_cons_of_mem p hpairs)

theorem mem_keys_insert {m : RawParams} {key k value : Bytes} :
    k ∈ (m.insert key value).entries.map (·.1) ↔ k = key ∨ k ∈ m.entries.map (·.1) := by
  by_cases hk : k = key
  · simp [insert, hk]
  · simp [insert, hk]

theorem mem_keys_insertAll {m : RawParams} {pairs : List (Bytes × Bytes)} {k : Bytes} :
    k ∈ (m.insertAll pairs).entries.map (·.1) ↔
      k ∈ m.entries.map (·.1) ∨ k ∈ pairs.map (·.1) := by
  induction pairs generalizing m with
  | nil => simp [insertAll]
  | cons p pairs ih =>
    rw [insertAll, List.foldl_cons, ← insertAll, ih, mem_keys_insert, List.map_cons, List.mem_cons]
    tauto

theorem mem_of_get? {m : RawParams} {key value : Bytes} (h : m.get? key = some value) :
    (key, value) ∈ m.entries := by
  obtain ⟨kv, hfind, rfl⟩ := Option.map_eq_some_iff.mp h
  have hkey : kv.1 = key := by simpa using List.find?_some hfind
  exact hkey ▸ List.mem_of_find?_eq_some hfind

theorem get?_eq_some_iff {m : RawParams} {key value : Bytes} :
    m.get? key = some value ↔ (key, value) ∈ m.entries := by
  refine ⟨mem_of_get?, fun hmem => ?_⟩
  cases hget : m.get? key with
  | none =>
    have hfind := List.find?_eq_none.mp (Option.map_eq_none_iff.mp hget) _ hmem
    simp at hfind
  | some value' =>
    have heq := List.inj_on_of_nodup_map m.nodup (mem_of_get? hget) hmem rfl
    exact congrArg some (Prod.mk.inj heq).2

/-- Distinct keys are put into an empty map one by one. -/
theorem mem_insertAll_empty {pairs : List (Bytes × Bytes)} (hnodup : (pairs.map (·.1)).Nodup)
    {kv : Bytes × Bytes} : kv ∈ (empty.insertAll pairs).entries ↔ kv ∈ pairs := by
  have hpairs {kv : Bytes × Bytes} (h : kv ∈ (empty.insertAll pairs).entries) : kv ∈ pairs :=
    (mem_insertAll h).resolve_left List.not_mem_nil
  refine ⟨hpairs, fun hkv => ?_⟩
  -- the key has an entry, which is one of the pairs
  have hkey := mem_keys_insertAll (m := empty).mpr (.inr (List.mem_map_of_mem (f := (·.1)) hkv))
  obtain ⟨kv', hkv', heq⟩ := List.mem_map.mp hkey
  rwa [← List.inj_on_of_nodup_map hnodup (hpairs hkv') hkv heq]

end RawParams

/-! ## The round trip -/

/-- A map is read back as it was written, and what cannot be read is a query with a
part that is not a pair. -/
theorem parseRawQuery_marshalRawQuery :
    (∀ (order : EntryOrder) (m : RawParams), (∀ kv ∈ m.entries, Unseparated kv) →
      ∃ m', parseRawQuery (marshalRawQuery order m) = .ok m' ∧ ∀ key, m'.get? key = m.get? key) ∧
    ∀ rawQuery, (∃ err, parseRawQuery rawQuery = .error err) ↔
      rawQuery ≠ [] ∧ ∃ part ∈ rawQuery.splitOn ampersand, part.count equalsSign ≠ 1 := by
  refine ⟨fun order m hm => ?_, fun rawQuery => ?_⟩
  · have hperm := order.perm m.entries
    have hpairs : rawPairs (marshalRawQuery order m) = some (order.visit m.entries) := by
      rw [marshalRawQuery_eq]
      exact rawPairs_intercalate fun kv hkv => hm kv (hperm.mem_iff.mp hkv)
    have hnodup : ((order.visit m.entries).map (·.1)).Nodup :=
      (hperm.map (·.1)).nodup_iff.mpr m.nodup
    refine ⟨_, parseRawQuery_eq_ok_iff.mpr ⟨_, hpairs, rfl⟩, fun key => ?_⟩
    apply Option.ext
    intro value
    rw [RawParams.get?_eq_some_iff, RawParams.mem_insertAll_empty hnodup, hperm.mem_iff,
      RawParams.get?_eq_some_iff]
  · rw [exists_parseRawQuery_eq_error_iff, rawPairs_eq_none_iff]

/-- An empty key with an empty value, and `a=b`. -/
def sampleRawParams : RawParams := ⟨[([], []), ([97], [98])], by decide⟩

theorem sampleRawParams_readBack :
    ∃ m', parseRawQuery (marshalRawQuery ⟨List.reverse, List.reverse_perm⟩ sampleRawParams) = .ok m' ∧
      m'.get? [] = some [] ∧ m'.get? [97] = some [98] := by
  obtain ⟨m', hparse, hget⟩ := parseRawQuery_marshalRawQuery.1 ⟨List.reverse, List.reverse_perm⟩
    sampleRawParams (by decide +kernel)
  refine ⟨m', hparse, ?_, ?_⟩
  · rw [hget]
    decide
  · rw [hget]
    decide

end CtrlMesh
