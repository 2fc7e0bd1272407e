import ControllerMesh.Impl.Query
import ControllerMesh.Proof.RawQuery
import ControllerMesh.Proof.SelectorAlgebra

/-!
# What the injection of a selector does to the rest of a query

`injectSelector` takes the raw query apart with `ParseRawQuery`, which is stricter
than `net/url` (one `=` in every part), keeps one value of every key, and tells
keys apart by the way they are written; `MarshalRawQuery` then writes the parts in
any order.

* `injectSelector_of_pairs`: what the query is rewritten to, as long as the parts
  have the form that `ParseRawQuery` asks for;
* `keepsOthers_iff`: when the rewritten parts have the values of the parts before;
* `injectSelector_frame_iff`: a query is kept, apart from its label selector, if and
  only if it is written plainly (`WrittenPlainly`).
-/

namespace CtrlMesh

open Framework Framework.Wire Framework.UrlQuery

/-! ## The parts as `net/url` reads them -/

/-- A key and a value as they are read. -/
def decode (kv : Bytes × Bytes) : Bytes × Bytes :=
  ((unescape kv.1).getD [], (unescape kv.2).getD [])

/-- A pair that `net/url` reads as `decode` says. -/
structure Readable (kv : Bytes × Bytes) : Prop where
  ampersand : ampersand ∉ marshalPair kv
  semicolon : 59 ∉ marshalPair kv
  equalsSign : equalsSign ∉ kv.1
  decoded : decodePair kv = some (decode kv)

theorem decodePair_eq_some {kv p : Bytes × Bytes} (h : decodePair kv = some p) : decode kv = p := by
  unfold decodePair at h
  unfold decode
  cases hkey : unescape kv.1 with
  | none => simp [hkey] at h
  | some key =>
    cases hvalue : unescape kv.2 with
    | none => simp [hkey, hvalue] at h
    | some value => simpa [hkey, hvalue] using h

theorem parsePart_marshalPair {kv : Bytes × Bytes} (hsemi : 59 ∉ marshalPair kv)
    (hkey : equalsSign ∉ kv.1) : parsePart (marshalPair kv) = decodePair kv := by
  rw [parsePart, if_neg hsemi]
  exact congrArg decodePair (cutPair_append hkey kv.2)

theorem parsePart_eq_some {kv p : Bytes × Bytes} (hkey : equalsSign ∉ kv.1)
    (h : parsePart (marshalPair kv) = some p) :
    (59 ∉ marshalPair kv ∧ decodePair kv = some (decode kv)) ∧ decode kv = p := by
  have hsemi : 59 ∉ marshalPair kv := by
    intro hmem
    rw [parsePart, if_pos hmem] at h
    exact absurd h (by simp)
  rw [parsePart_marshalPair hsemi hkey] at h
  have hp := decodePair_eq_some h
  exact ⟨⟨hsemi, by rw [h, hp]⟩, hp⟩

/-- The pairs of a query that `net/url` accepts are read one by one. -/
theorem readable_of_parseQuery {rawQuery : Bytes} {params pairs : List (Bytes × Bytes)}
    (hparams : parseQuery rawQuery = some params) (hpairs : rawPairs rawQuery = some pairs) :
    (∀ kv ∈ pairs, Readable kv) ∧ params = pairs.map decode := by
  unfold rawPairs at hpairs
  split at hpairs
  · rename_i hnil
    subst hnil
    cases hpairs
    cases hparams
    exact ⟨by simp, rfl⟩
  · obtain ⟨hkey, hparts⟩ := mapM_splitPair hpairs
    have hamp : ∀ part ∈ pairs.map marshalPair, ampersand ∉ part := by
      rw [hparts]
      exact fun part => not_mem_of_mem_splitOn
    have hne : ∀ part ∈ pairs.map marshalPair, part ≠ [] := by
      intro part hpart
      obtain ⟨kv, -, rfl⟩ := List.mem_map.mp hpart
      simp [marshalPair]
    have hjoin : [ampersand].intercalate (rawQuery.splitOn ampersand) = rawQuery :=
      List.intercalate_splitOn ampersand
    rw [← hjoin, ← hparts] at hparams
    have hread := mapM_eq_some_iff.mp ((parseQuery_intercalate hamp hne).symm.trans hparams)
    rw [List.forall₂_map_left_iff] at hread
    have hread := (List.forall₂_and_left _ _).mpr ⟨hkey, hread⟩
    obtain ⟨hall, hmap⟩ := map_eq_of_forall₂ (hread.imp fun kv p h => @parsePart_eq_some kv p h.1 h.2)
    refine ⟨?_, hmap.symm⟩
    intro kv hkv
    exact ⟨hamp _ (List.mem_map_of_mem hkv), (hall kv hkv).1, hkey kv hkv, (hall kv hkv).2⟩

/-! ## The entries of other keys -/

namespace RawParams

/-- The entries of other keys than `key`. -/
def others (key : Bytes) (kvs : List (Bytes × Bytes)) : List (Bytes × Bytes) :=
  kvs.filter (·.1 ≠ key)

theorem mem_others {key : Bytes} {kvs : List (Bytes × Bytes)} {kv : Bytes × Bytes} :
    kv ∈ others key kvs ↔ kv ∈ kvs ∧ kv.1 ≠ key := by
  simp [others]

theorem others_append (key : Bytes) (kvs kvs' : List (Bytes × Bytes)) :
    others key (kvs ++ kvs') = others key kvs ++ others key kvs' :=
  List.filter_append ..

theorem others_cons_of_eq {key : Bytes} {kv : Bytes × Bytes} (h : kv.1 = key)
    (kvs : List (Bytes × Bytes)) : others key (kv :: kvs) = others key kvs :=
  List.filter_cons_of_neg (by simpa using h)

theorem others_cons_of_ne {key : Bytes} {kv : Bytes × Bytes} (h : kv.1 ≠ key)
    (kvs : List (Bytes × Bytes)) : others key (kv :: kvs) = kv :: others key kvs :=
  List.filter_cons_of_pos (by simpa using h)

theorem others_others {key k : Bytes} {kvs : List (Bytes × Bytes)}
    (h : ∀ kv ∈ others key kvs, kv.1 ≠ k) : others key (others k kvs) = others key kvs := by
  rw [others, others, List.filter_filter, others]
  refine List.filter_congr fun kv hkv => ?_
  by_cases hkey : kv.1 = key
  · simp [hkey]
  · simp [hkey, h kv (mem_others.mpr ⟨hkv, hkey⟩)]

/-- Distinct keys are all kept. -/
theorem others_insertAll {m : RawParams} {key : Bytes} {pairs : List (Bytes × Bytes)}
    (hnodup : ((others key (m.entries ++ pairs)).map (·.1)).Nodup) :
    (others key (m.insertAll pairs).entries).Perm (others key (m.entries ++ pairs)) := by
  induction pairs generalizing m with
  | nil => simp [insertAll]
  | cons p pairs ih =>
    -- inserting the first pair moves it to the front
    have hinsert : (others key ((m.insert p.1 p.2).entries ++ pairs)).Perm
        (others key (m.entries ++ p :: pairs)) := by
      show (others key (p :: (others p.1 m.entries ++ pairs))).Perm _
      by_cases hp : p.1 = key
      · rw [others_cons_of_eq hp, others_append, others_append, others_cons_of_eq hp, hp,
          others_others fun kv hkv => (mem_others.mp hkv).2]
      · rw [others_append, others_cons_of_ne hp, List.map_append, List.map_cons,
          List.nodup_append] at hnodup
        have hfresh : ∀ kv ∈ others key m.entries, kv.1 ≠ p.1 := fun kv hkv =>
          hnodup.2.2 kv.1 (List.mem_map_of_mem hkv) p.1 (by simp)
        rw [others_cons_of_ne hp, others_append, others_append, others_cons_of_ne hp,
          others_others hfresh]
        exact List.perm_middle.symm
    exact (ih ((hinsert.map _).nodup_iff.mpr hnodup)).trans hinsert

end RawParams

open RawParams

/-! ## The injection -/

theorem unescape_labelSelectorKey : unescape labelSelectorKey = some labelSelectorKey := by
  decide +kernel

theorem not_mem_labelSelectorKey : ∀ sep ∈ ([38, 61, 59] : Bytes), sep ∉ labelSelectorKey := by
  decide +kernel

/-- The parameters that the rewritten query is made of. -/
def rewritten (pairs : List (Bytes × Bytes)) (value : Bytes) : RawParams :=
  (RawParams.empty.insertAll pairs).insert labelSelectorKey value

/-- The entries that are kept. -/
def kept (pairs : List (Bytes × Bytes)) : List (Bytes × Bytes) :=
  others labelSelectorKey (RawParams.empty.insertAll pairs).entries

theorem entries_rewritten (pairs : List (Bytes × Bytes)) (value : Bytes) :
    (rewritten pairs value).entries = (labelSelectorKey, value) :: kept pairs := rfl

theorem readable_labelSelector (text : Bytes) : Readable (labelSelectorKey, escape text) := by
  have hmarshal (sep : UInt8) (hsep : sep ∈ ([38, 59] : Bytes)) :
      sep ∉ marshalPair (labelSelectorKey, escape text) := by
    have hsep' : sep ∈ ([38, 61, 59] : Bytes) ∧ sep ≠ equalsSign := by
      simp only [List.mem_cons, List.not_mem_nil, or_false] at hsep
      rcases hsep with rfl | rfl <;> decide
    simp [marshalPair, not_mem_labelSelectorKey sep hsep'.1, not_mem_escape hsep'.1, hsep'.2]
  refine ⟨hmarshal 38 (by simp), hmarshal 59 (by simp), ?_, ?_⟩
  · exact not_mem_labelSelectorKey equalsSign (by decide)
  · simp [decodePair, decode, unescape_labelSelectorKey, unescape_escape]

theorem readable_rewritten {pairs : List (Bytes × Bytes)} (h : ∀ kv ∈ pairs, Readable kv)
    (text : Bytes) : ∀ kv ∈ (rewritten pairs (escape text)).entries, Readable kv := by
  intro kv hkv
  rcases List.mem_cons.mp hkv with rfl | hkv
  · exact readable_labelSelector text
  · rcases mem_insertAll (mem_others.mp hkv).1 with hempty | hpairs
    · exact absurd hempty List.not_mem_nil
    · exact h kv hpairs

theorem parseQuery_marshalRawQuery {m : RawParams} (h : ∀ kv ∈ m.entries, Readable kv)
    (order : EntryOrder) :
    parseQuery (marshalRawQuery order m) = some ((order.visit m.entries).map decode) := by
  have hvisit : ∀ kv ∈ order.visit m.entries, Readable kv := fun kv hkv =>
    h kv ((order.perm m.entries).mem_iff.mp hkv)
  rw [marshalRawQuery_eq]
  refine (parseQuery_intercalate ?_ ?_).trans ?_
  · intro part hpart
    obtain ⟨kv, hkv, rfl⟩ := List.mem_map.mp hpart
    exact (hvisit kv hkv).ampersand
  · intro part hpart
    obtain ⟨kv, hkv, rfl⟩ := List.mem_map.mp hpart
    simp [marshalPair]
  · rw [mapM_eq_some_iff, List.forall₂_map_left_iff, List.forall₂_map_right_iff, List.forall₂_same]
    intro kv hkv
    rw [parsePart_marshalPair (hvisit kv hkv).semicolon (hvisit kv hkv).equalsSign]
    exact (hvisit kv hkv).decoded

theorem exists_injectSelector {old : Option LabelSelector} {sel : LabelSelector}
    (hsel : sel.ValidOperators) (hold : ∀ o, old = some o → o.ValidOperators) :
    ∃ selector, injectSelector (.ok old) sel = .ok selector := by
  have hvalid (ps : LabelSelector) (hps : ps.ValidOperators) :
      ∃ selector, validatedLabelSelectorAsSelector (some ps) = .ok selector := by
    obtain ⟨rs, hrs⟩ := LabelValidation.exists_mapM_eq_ok_iff.mpr hps
    refine ⟨.requirements (ps.labels.toList.map (fun kv => ⟨kv.1, .equals, [kv.2]⟩) ++ rs), ?_⟩
    show (ps.exprs.mapM (·.asRequirement) >>= _) = _
    rw [hrs]
    rfl
  cases old with
  | none => exact hvalid sel hsel
  | some o =>
    apply hvalid
    intro expr hexpr
    rw [exprs_merge] at hexpr
    rcases List.mem_append.mp hexpr with h | h
    · exact hsel expr h
    · exact hold o rfl expr h

variable {stx : SelectorSyntax} {sel : LabelSelector} {r : HttpRequest}

theorem exists_oldLabelSelector {pairs : List (Bytes × Bytes)} (hread : ∀ kv ∈ pairs, Readable kv)
    (hold : ∀ value ∈ valuesOf labelSelectorKey (pairs.map decode),
      ∃ o, stx.parseToLabelSelector value = .ok o) :
    ∃ old, stx.oldLabelSelector (RawParams.empty.insertAll pairs) = .ok old ∧
      ∀ o, old = some o → o.ValidOperators := by
  unfold SelectorSyntax.oldLabelSelector
  cases hget : (RawParams.empty.insertAll pairs).get? labelSelectorKey with
  | none => exact ⟨none, rfl, by simp⟩
  | some value =>
    have hmem : (labelSelectorKey, value) ∈ pairs :=
      (mem_insertAll (mem_of_get? hget)).resolve_left List.not_mem_nil
    have hdecoded := (hread _ hmem).decoded
    cases hvalue : unescape value with
    | none => simp [decodePair, hvalue] at hdecoded
    | some text =>
      have htext : text ∈ valuesOf labelSelectorKey (pairs.map decode) := by
        simp only [valuesOf, List.mem_map, List.mem_filter]
        refine ⟨decode (labelSelectorKey, value), ⟨⟨_, hmem, rfl⟩, ?_⟩, ?_⟩
        · simp [decode, unescape_labelSelectorKey]
        · simp [decode, hvalue]
      obtain ⟨o, ho⟩ := hold text htext
      simp only [hvalue, ho]
      refine ⟨some o, rfl, ?_⟩
      rintro _ ⟨rfl⟩
      exact stx.validOperators_parse ho

/-- The query that a request is sent with. -/
theorem injectSelector_of_pairs {params pairs : List (Bytes × Bytes)} (hsel : sel.ValidOperators)
    (hparams : parseQuery r.url.rawQuery = some params)
    (hold : ∀ value ∈ valuesOf labelSelectorKey params, ∃ o, stx.parseToLabelSelector value = .ok o)
    (hpairs : rawPairs r.url.rawQuery = some pairs) :
    ∃ text, ∀ order, ∃ r', r.injectSelector stx order sel = (none, r') ∧
      parseQuery r'.url.rawQuery =
        some ((order.visit (rewritten pairs (escape text)).entries).map decode) := by
  obtain ⟨hread, rfl⟩ := readable_of_parseQuery hparams hpairs
  obtain ⟨old, hold, hvalid⟩ := exists_oldLabelSelector hread hold
  obtain ⟨selector, hselector⟩ := exists_injectSelector hsel hvalid
  have hraw := parseRawQuery_eq_ok_iff.mpr ⟨pairs, hpairs, rfl⟩
  refine ⟨textBytes (stx.selectorString selector), fun order => ?_⟩
  simp only [HttpRequest.injectSelector, hraw, hold, hselector]
  exact ⟨_, rfl, parseQuery_marshalRawQuery (readable_rewritten hread _) order⟩

/-- A request whose query does not have the form of pairs is refused. -/
theorem exists_rawPairs {order : EntryOrder} {r' : HttpRequest}
    (h : r.injectSelector stx order sel = (none, r')) :
    ∃ pairs, rawPairs r.url.rawQuery = some pairs := by
  cases hraw : parseRawQuery r.url.rawQuery with
  | error err => simp [HttpRequest.injectSelector, hraw] at h
  | ok raw =>
    obtain ⟨pairs, hpairs, -⟩ := parseRawQuery_eq_ok_iff.mp hraw
    exact ⟨pairs, hpairs⟩

/-- A request is left alone if there is an error. -/
theorem injectSelector_error {order : EntryOrder} {err : InjectError} {r' : HttpRequest}
    (h : r.injectSelector stx order sel = (some err, r')) : r' = r := by
  unfold HttpRequest.injectSelector at h
  cases hraw : parseRawQuery r.url.rawQuery with
  | error err => simp_all
  | ok raw =>
    cases hold : stx.oldLabelSelector raw with
    | error err => simp_all
    | ok old =>
      cases hselector : CtrlMesh.injectSelector (.ok old) sel with
      | error err => simp_all
      | ok selector => simp [hraw, hold, hselector] at h

/-! ## When the other parameters are kept -/

/-- One label selector, and the values that the other keys had. -/
def KeepsOthers (params params' : List (Bytes × Bytes)) : Prop :=
  (valuesOf labelSelectorKey params').length = 1 ∧
    ∀ key, key ≠ labelSelectorKey → valuesOf key params' = valuesOf key params

/-- Every other key than the label selector is written once, it is not the label
selector written in another way, and different ways to write one key come with one
value. -/
structure PlainPairs (pairs : List (Bytes × Bytes)) : Prop where
  nodup : ((others labelSelectorKey pairs).map (·.1)).Nodup
  spelled : ∀ kv ∈ others labelSelectorKey pairs, (decode kv).1 ≠ labelSelectorKey
  agree : ∀ kv ∈ others labelSelectorKey pairs, ∀ kv' ∈ others labelSelectorKey pairs,
    (decode kv).1 = (decode kv').1 → (decode kv).2 = (decode kv').2

theorem eq_of_perm_of_forall_eq {α : Type} {l l' : List α} (h : l.Perm l')
    (heq : ∀ x ∈ l', ∀ y ∈ l', x = y) : l = l' := by
  cases l' with
  | nil => exact h.eq_nil
  | cons a l' =>
    have hrep : a :: l' = List.replicate (a :: l').length a :=
      List.eq_replicate_iff.mpr ⟨rfl, fun x hx => heq x hx a (by simp)⟩
    rw [hrep] at h ⊢
    exact List.perm_replicate.mp h

theorem mem_valuesOf {key value : Bytes} {kvs : List (Bytes × Bytes)} :
    value ∈ valuesOf key (kvs.map decode) ↔ ∃ kv ∈ kvs, (decode kv).1 = key ∧ (decode kv).2 = value := by
  simp only [valuesOf, List.mem_map, List.mem_filter, decide_eq_true_eq]
  constructor
  · rintro ⟨_, ⟨⟨kv, hkv, rfl⟩, hkey⟩, hvalue⟩
    exact ⟨kv, hkv, hkey, hvalue⟩
  · rintro ⟨kv, hkv, hkey, hvalue⟩
    exact ⟨_, ⟨⟨kv, hkv, rfl⟩, hkey⟩, hvalue⟩

theorem decode_of_eq {kv : Bytes × Bytes} (h : kv.1 = labelSelectorKey) :
    (decode kv).1 = labelSelectorKey := by
  simp [decode, h, unescape_labelSelectorKey]

/-- The entries of the label selector do not matter for other keys. -/
theorem valuesOf_others {key : Bytes} (hkey : key ≠ labelSelectorKey)
    (kvs : List (Bytes × Bytes)) :
    valuesOf key ((others labelSelectorKey kvs).map decode) = valuesOf key (kvs.map decode) := by
  induction kvs with
  | nil => rfl
  | cons kv kvs ih =>
    rw [List.map_cons, valuesOf_cons, ← ih]
    by_cases h : kv.1 = labelSelectorKey
    · rw [others_cons_of_eq h, decode_of_eq h, if_neg hkey.symm]
    · rw [others_cons_of_ne h, List.map_cons, valuesOf_cons]

namespace EntryOrder

/-- The order of the entries as they are stored. -/
def stored : EntryOrder := ⟨id, .refl⟩

theorem visit_stored (kvs : List (Bytes × Bytes)) : stored.visit kvs = kvs := rfl

/-- The order of a loop that comes to `kv` first. -/
def starting (kv : Bytes × Bytes) : EntryOrder where
  visit kvs := if kv ∈ kvs then kv :: kvs.erase kv else kvs
  perm kvs := by
    split
    · exact (List.perm_cons_erase (by assumption)).symm
    · exact .refl kvs

theorem visit_starting {kv : Bytes × Bytes} {kvs : List (Bytes × Bytes)} (h : kv ∈ kvs) :
    (starting kv).visit kvs = kv :: kvs.erase kv :=
  if_pos h

end EntryOrder

section

variable {pairs : List (Bytes × Bytes)} {value : Bytes}

theorem PlainPairs.perm_rewritten (h : PlainPairs pairs) (value : Bytes) (order : EntryOrder) :
    (order.visit (rewritten pairs value).entries).Perm
      ((labelSelectorKey, value) :: others labelSelectorKey pairs) :=
  (order.perm _).trans ((others_insertAll h.nodup).cons _)

theorem PlainPairs.keepsOthers (h : PlainPairs pairs) (value : Bytes) (order : EntryOrder) :
    KeepsOthers (pairs.map decode) ((order.visit (rewritten pairs value).entries).map decode) := by
  have hperm := (h.perm_rewritten value order).map decode
  have hselector : (decode (labelSelectorKey, value)).1 = labelSelectorKey := decode_of_eq rfl
  rw [List.map_cons] at hperm
  constructor
  · have hnone : valuesOf labelSelectorKey ((others labelSelectorKey pairs).map decode) = [] := by
      rw [List.eq_nil_iff_forall_not_mem]
      intro v hv
      obtain ⟨kv, hkv, hkey, -⟩ := mem_valuesOf.mp hv
      exact h.spelled kv hkv hkey
    rw [(valuesOf_perm _ hperm).length_eq, valuesOf_cons, if_pos hselector, hnone]
    rfl
  · intro key hkey
    have hvalues := valuesOf_perm key hperm
    rw [valuesOf_cons, hselector, if_neg hkey.symm] at hvalues
    rw [← valuesOf_others hkey pairs]
    refine eq_of_perm_of_forall_eq hvalues ?_
    intro v hv v' hv'
    obtain ⟨kv, hkv, hkey, rfl⟩ := mem_valuesOf.mp hv
    obtain ⟨kv', hkv', hkey', rfl⟩ := mem_valuesOf.mp hv'
    exact h.agree kv hkv kv' hkv' (hkey.trans hkey'.symm)

theorem length_valuesOf (key : Bytes) (kvs : List (Bytes × Bytes)) :
    (valuesOf key (kvs.map decode)).length =
      ((kvs.map (·.1)).filter fun k => (unescape k).getD [] = key).length := by
  induction kvs with
  | nil => rfl
  | cons kv kvs ih =>
    rw [List.map_cons, valuesOf_cons, List.map_cons, List.filter_cons]
    by_cases h : (unescape kv.1).getD [] = key
    · simp [decode, h, ih]
    · simp [decode, h, ih]

/-- A key that is kept is a key of the query. -/
theorem mem_keys_kept {k : Bytes} :
    k ∈ (kept pairs).map (·.1) ↔ k ∈ (others labelSelectorKey pairs).map (·.1) := by
  have hkeys (kvs : List (Bytes × Bytes)) :
      k ∈ (others labelSelectorKey kvs).map (·.1) ↔ k ∈ kvs.map (·.1) ∧ k ≠ labelSelectorKey := by
    simp only [List.mem_map, mem_others]
    constructor
    · rintro ⟨kv, ⟨hkv, hne⟩, rfl⟩
      exact ⟨⟨kv, hkv, rfl⟩, hne⟩
    · rintro ⟨⟨kv, hkv, rfl⟩, hne⟩
      exact ⟨kv, ⟨hkv, hne⟩, rfl⟩
  rw [kept, hkeys, hkeys, mem_keys_insertAll, or_iff_right (by simp [RawParams.empty])]

variable (h : ∀ order : EntryOrder,
  KeepsOthers (pairs.map decode) ((order.visit (rewritten pairs value).entries).map decode))

include h

theorem spelled_of_keepsOthers :
    ∀ kv ∈ others labelSelectorKey pairs, (decode kv).1 ≠ labelSelectorKey := by
  intro kv hkv hkey
  obtain ⟨kv', hkv', hfst⟩ := List.mem_map.mp (mem_keys_kept.mpr (List.mem_map_of_mem hkv))
  have hkey' : (decode kv').1 = labelSelectorKey := by
    rw [← hkey, decode, decode, hfst]
  have hmem := mem_valuesOf.mpr ⟨kv', hkv', hkey', rfl⟩
  -- the injected selector is one value already
  have hlen := (h .stored).1
  rw [EntryOrder.visit_stored, entries_rewritten, List.map_cons, valuesOf_cons, if_pos (decode_of_eq rfl),
    List.length_cons, Nat.add_eq_right, List.length_eq_zero_iff] at hlen
  rw [hlen] at hmem
  exact absurd hmem List.not_mem_nil

/-- As many keys are kept as there were, so there were no two entries of one key. -/
theorem nodup_of_keepsOthers : ((others labelSelectorKey pairs).map (·.1)).Nodup := by
  rw [List.nodup_iff_count_le_one]
  intro k
  by_cases hk : k ∈ (others labelSelectorKey pairs).map (·.1)
  · obtain ⟨kv, hkv, rfl⟩ := List.mem_map.mp hk
    have hkey := spelled_of_keepsOthers h kv hkv
    have hlen := congrArg List.length ((h .stored).2 _ hkey)
    rw [EntryOrder.visit_stored, entries_rewritten, List.map_cons, valuesOf_cons, decode_of_eq rfl, if_neg hkey.symm,
      ← valuesOf_others hkey pairs, length_valuesOf, length_valuesOf] at hlen
    have hnodup : ((kept pairs).map (·.1)).Nodup :=
      (RawParams.empty.insertAll pairs).nodup.sublist (List.filter_sublist.map _)
    have hsub : ((kept pairs).map (·.1)).filter (fun k => (unescape k).getD [] = (decode kv).1) ⊆
        ((others labelSelectorKey pairs).map (·.1)).filter
          (fun k => (unescape k).getD [] = (decode kv).1) := by
      intro k hk
      obtain ⟨hk, hsame⟩ := List.mem_filter.mp hk
      exact List.mem_filter.mpr ⟨mem_keys_kept.mp hk, hsame⟩
    have hperm := (List.subperm_of_subset (hnodup.filter _) hsub).perm_of_length_le hlen.ge
    have hcount := List.nodup_iff_count_le_one.mp (hperm.nodup_iff.mp (hnodup.filter _)) kv.1
    rwa [List.count_filter (by simp [decode])] at hcount
  · rw [List.count_eq_zero_of_not_mem hk]
    exact Nat.zero_le 1

/-- An entry may be written first. -/
theorem head_valuesOf_of_keepsOthers {kv : Bytes × Bytes}
    (hkv : kv ∈ others labelSelectorKey pairs) :
    (valuesOf (decode kv).1 (pairs.map decode)).head? = some (decode kv).2 := by
  have hmem : kv ∈ (rewritten pairs value).entries := by
    rw [entries_rewritten]
    refine List.mem_cons_of_mem _ ?_
    exact (others_insertAll (m := .empty) (nodup_of_keepsOthers h)).mem_iff.mpr hkv
  have hvalues := (h (.starting kv)).2 _ (spelled_of_keepsOthers h kv hkv)
  rw [EntryOrder.visit_starting hmem, List.map_cons, valuesOf_cons, if_pos rfl] at hvalues
  rw [← hvalues]
  rfl

theorem plainPairs_of_keepsOthers : PlainPairs pairs where
  nodup := nodup_of_keepsOthers h
  spelled := spelled_of_keepsOthers h
  agree kv hkv kv' hkv' hkey := by
    have hhead := head_valuesOf_of_keepsOthers h hkv
    rw [hkey, head_valuesOf_of_keepsOthers h hkv'] at hhead
    exact (Option.some.inj hhead).symm

end

/-- The query is empty or made of pairs that are kept in every order. -/
def WrittenPlainly (rawQuery : Bytes) : Prop :=
  ∃ pairs, rawPairs rawQuery = some pairs ∧ PlainPairs pairs

/-- The injection succeeds, and changes the label selector only. -/
def InjectsInto (stx : SelectorSyntax) (sel : LabelSelector) (r : HttpRequest)
    (params : List (Bytes × Bytes)) : Prop :=
  ∀ order, ∃ r' params', r.injectSelector stx order sel = (none, r') ∧
    parseQuery r'.url.rawQuery = some params' ∧ KeepsOthers params params'

theorem injectSelector_frame_iff {params : List (Bytes × Bytes)} (hsel : sel.ValidOperators)
    (hparams : parseQuery r.url.rawQuery = some params)
    (hold : ∀ value ∈ valuesOf labelSelectorKey params,
      ∃ o, stx.parseToLabelSelector value = .ok o) :
    (InjectsInto stx sel r params ∧
      ∀ order err r', r.injectSelector stx order sel = (some err, r') → r' = r) ↔
      WrittenPlainly r.url.rawQuery := by
  rw [and_iff_left fun order err r' => injectSelector_error]
  constructor
  · intro h
    obtain ⟨r', params', hinject, -⟩ := h .stored
    obtain ⟨pairs, hpairs⟩ := exists_rawPairs hinject
    obtain ⟨text, htext⟩ := injectSelector_of_pairs hsel hparams hold hpairs
    have hkept (order : EntryOrder) : KeepsOthers (pairs.map decode)
        ((order.visit (rewritten pairs (escape text)).entries).map decode) := by
      obtain ⟨r', params', hinject, hparse, hkeeps⟩ := h order
      obtain ⟨r'', hinject', hparse'⟩ := htext order
      obtain rfl : r' = r'' := by simpa [hinject] using hinject'
      obtain rfl := Option.some.inj (hparse.symm.trans hparse')
      exact (readable_of_parseQuery hparams hpairs).2 ▸ hkeeps
    exact ⟨pairs, hpairs, plainPairs_of_keepsOthers hkept⟩
  · rintro ⟨pairs, hpairs, hplain⟩ order
    obtain ⟨text, htext⟩ := injectSelector_of_pairs hsel hparams hold hpairs
    obtain ⟨r', hinject, hparse⟩ := htext order
    refine ⟨r', _, hinject, hparse, ?_⟩
    rw [(readable_of_parseQuery hparams hpairs).2]
    exact hplain.keepsOthers _ order

/-- Selectors that ask for one label each. -/
def sampleSyntax : SelectorSyntax where
  parseToLabelSelector text :=
    match bytesText text with
    | some key => .ok ⟨none, some [⟨key, .opExists, none⟩]⟩
    | none => .error "unable to parse requirement"
  validOperators_parse {text sel} h := by
    split at h
    · cases h
      simp [LabelSelector.ValidOperators, LabelSelector.exprs,
        LabelSelectorRequirement.asRequirement]
    · exact absurd h (by simp)
  selectorString
    | .nothing => ""
    | .requirements rs => String.intercalate "," (rs.map (·.key))

def sampleListRequest (rawQuery : String) : HttpRequest where
  url := ⟨"/api/v1/pods", textBytes rawQuery⟩
  header := ∅
  contentLength := 0
  body := none

def sampleTierSelector : LabelSelector := ⟨none, some [⟨"tier", .opExists, none⟩]⟩

theorem validOperators_sampleTierSelector : sampleTierSelector.ValidOperators := by
  simp [LabelSelector.ValidOperators, LabelSelector.exprs, sampleTierSelector,
    LabelSelectorRequirement.asRequirement]

theorem injectSelector_frame_samplePaged :
    InjectsInto sampleSyntax sampleTierSelector (sampleListRequest "limit=500&labelSelector=app")
      [(textBytes "limit", textBytes "500"), (labelSelectorKey, textBytes "app")] := by
  refine ((injectSelector_frame_iff validOperators_sampleTierSelector (by decide +kernel) ?_).mpr
    ⟨[(textBytes "limit", textBytes "500"), (labelSelectorKey, textBytes "app")],
      by decide +kernel, by decide +kernel, by decide +kernel, by decide +kernel⟩).1
  intro value hvalue
  obtain rfl : value = textBytes "app" := by
    have hvalues : valuesOf labelSelectorKey
        [(textBytes "limit", textBytes "500"), (labelSelectorKey, textBytes "app")] =
          [textBytes "app"] := by
      decide +kernel
    simpa [hvalues] using hvalue
  exact ⟨⟨none, some [⟨"app", .opExists, none⟩]⟩, by simp [sampleSyntax, bytesText_textBytes]⟩

/-- A field selector with its `=` written out: `net/url` reads it, `ParseRawQuery`
does not. -/
theorem not_injectsInto_sampleFieldSelector :
    parseQuery (textBytes "fieldSelector=metadata.name=web") =
      some [(textBytes "fieldSelector", textBytes "metadata.name=web")] ∧
    valuesOf labelSelectorKey [(textBytes "fieldSelector", textBytes "metadata.name=web")] = [] ∧
    sampleTierSelector.ValidOperators ∧
    ¬ InjectsInto sampleSyntax sampleTierSelector
      (sampleListRequest "fieldSelector=metadata.name=web")
      [(textBytes "fieldSelector", textBytes "metadata.name=web")] := by
  refine ⟨by decide +kernel, by decide +kernel, validOperators_sampleTierSelector, ?_⟩
  intro h
  obtain ⟨r', params', hinject, -⟩ := h .stored
  have herr : ((sampleListRequest "fieldSelector=metadata.name=web").injectSelector sampleSyntax
      .stored sampleTierSelector).1 ≠ none := by
    decide +kernel
  exact herr (by rw [hinject])

end CtrlMesh
