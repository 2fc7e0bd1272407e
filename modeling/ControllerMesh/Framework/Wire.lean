import Mathlib

/-!
# The protobuf wire format, for length-delimited fields

A message is encoded as the concatenation of its fields; a field is a tag (the
field number and wire type 2), the length of its payload, and the payload.
Strings and embedded messages are such fields, and a repeated field occurs
once for each element. A proto3 string is left out when it is empty.

Decoding goes through the fields in order and merges each into the message
read so far, so decoding a concatenation of encodings merges the messages
(`Codec.unmarshal_flatMap`): a string that occurs again is replaced, an
embedded message that occurs again is merged, the elements of a repeated field
are appended. A `Codec` is a message type with the two directions and the law
that they fit.
-/

namespace CtrlMesh.Framework.Wire

abbrev Bytes := List UInt8

/-! ## Varints -/

/-- Base 128, the least significant digit first, with the high bit set on all
digits but the last. -/
def putVarint (n : Nat) : Bytes :=
  if n < 128 then [UInt8.ofNat n] else UInt8.ofNat (128 + n % 128) :: putVarint (n / 128)
decreasing_by omega

/-- The varint at the start of `bs`, and the bytes after it. -/
def varint : Bytes → Option (Nat × Bytes)
  | [] => none
  | b :: bs =>
    if b.toNat < 128 then some (b.toNat, bs)
    else (varint bs).map fun p => (b.toNat % 128 + 128 * p.1, p.2)

theorem varint_putVarint (n : Nat) (bs : Bytes) : varint (putVarint n ++ bs) = some (n, bs) := by
  induction n using Nat.strong_induction_on with
  | _ n ih =>
    rw [putVarint]
    split
    · rename_i h
      have hb : (UInt8.ofNat n).toNat = n := by rw [UInt8.toNat_ofNat']; omega
      simp only [List.cons_append, List.nil_append, varint, hb, h, ite_true]
    · rename_i h
      have hb : (UInt8.ofNat (128 + n % 128)).toNat = 128 + n % 128 := by
        rw [UInt8.toNat_ofNat']; omega
      simp only [List.cons_append, varint, hb, show ¬ (128 + n % 128 < 128) by omega, ite_false,
        ih (n / 128) (by omega), Option.map_some, Option.some.injEq, Prod.mk.injEq, and_true]
      omega

theorem putVarint_ne_nil (n : Nat) : putVarint n ≠ [] := by
  rw [putVarint]; split <;> simp

/-! ## Fields -/

/-- A length-delimited field. -/
structure Field where
  num : Nat
  payload : Bytes

/-- The tag, with wire type 2, the length and the payload. -/
def Field.encode (f : Field) : Bytes :=
  putVarint (8 * f.num + 2) ++ (putVarint f.payload.length ++ f.payload)

/-- The fields, one after the other. -/
def encodeFields (fs : List Field) : Bytes := fs.flatMap Field.encode

/-- The field at the start of `bs`, and the bytes after it. -/
def decodeField (bs : Bytes) : Option (Field × Bytes) := do
  let (tag, bs) ← varint bs
  let (len, bs) ← varint bs
  if tag % 8 = 2 ∧ len ≤ bs.length then some (⟨tag / 8, bs.take len⟩, bs.drop len) else none

/-- The fields of `bs`, at most `n` of them. -/
def decodeFieldsN : Nat → Bytes → Option (List Field)
  | _, [] => some []
  | 0, _ :: _ => none
  | n + 1, b :: bs => do
    let (f, rest) ← decodeField (b :: bs)
    let fs ← decodeFieldsN n rest
    some (f :: fs)

/-- The fields of `bs`; a field takes at least one byte. -/
def decodeFields (bs : Bytes) : Option (List Field) := decodeFieldsN bs.length bs

theorem Field.encode_ne_nil (f : Field) : f.encode ≠ [] := fun h =>
  putVarint_ne_nil _ (List.append_eq_nil_iff.mp h).1

theorem decodeField_encode (f : Field) (bs : Bytes) :
    decodeField (f.encode ++ bs) = some (f, bs) := by
  have htag : (8 * f.num + 2) % 8 = 2 := by omega
  have hnum : (8 * f.num + 2) / 8 = f.num := by omega
  simp [decodeField, Field.encode, List.append_assoc, varint_putVarint, htag, hnum]

theorem encodeFields_cons (f : Field) (fs : List Field) :
    encodeFields (f :: fs) = f.encode ++ encodeFields fs := rfl

theorem length_le_encodeFields : ∀ fs : List Field, fs.length ≤ (encodeFields fs).length
  | [] => Nat.le_refl 0
  | f :: fs => by
    have hf := List.length_pos_iff.mpr f.encode_ne_nil
    have hfs := length_le_encodeFields fs
    simp only [encodeFields_cons, List.length_cons, List.length_append]
    omega

theorem decodeFieldsN_encodeFields :
    ∀ (fs : List Field) (n : Nat), fs.length ≤ n → decodeFieldsN n (encodeFields fs) = some fs
  | [], n, _ => by cases n <;> rfl
  | f :: fs, 0, h => by simp at h
  | f :: fs, n + 1, h => by
    obtain ⟨b, bs, hb⟩ := List.exists_cons_of_ne_nil
      (List.append_ne_nil_of_left_ne_nil f.encode_ne_nil (encodeFields fs))
    rw [encodeFields_cons, hb, decodeFieldsN, ← hb, decodeField_encode]
    simp [decodeFieldsN_encodeFields fs n (by simpa using h)]

theorem decodeFields_encodeFields (fs : List Field) : decodeFields (encodeFields fs) = some fs :=
  decodeFieldsN_encodeFields fs _ (length_le_encodeFields fs)

/-! ## Messages -/

/-- A message type: its fields in the order they are encoded, how a decoded
field is merged into a message, and how two messages merge. -/
structure Codec (α : Type) where
  empty : α
  fields : α → List Field
  mergeField : α → Field → Option α
  merge : α → α → α
  /-- Merging the fields of a message one by one merges the message. -/
  foldlM_fields (a b : α) : (fields b).foldlM mergeField a = some (merge a b)
  empty_merge (b : α) : merge empty b = b

namespace Codec

variable {α : Type} (c : Codec α)

def marshal (a : α) : Bytes := encodeFields (c.fields a)

/-- Decodes into a message that may have fields already. -/
def unmarshalInto (a : α) (bs : Bytes) : Option α :=
  (decodeFields bs).bind fun fs => fs.foldlM c.mergeField a

def unmarshal (bs : Bytes) : Option α := c.unmarshalInto c.empty bs

theorem unmarshalInto_marshal (a b : α) : c.unmarshalInto a (c.marshal b) = some (c.merge a b) := by
  simp only [unmarshalInto, marshal, decodeFields_encodeFields, Option.bind_some, c.foldlM_fields]

theorem unmarshal_marshal (b : α) : c.unmarshal (c.marshal b) = some b := by
  rw [unmarshal, unmarshalInto_marshal, c.empty_merge]

theorem flatMap_marshal (bs : List α) :
    bs.flatMap c.marshal = encodeFields (bs.flatMap c.fields) := by
  rw [encodeFields, List.flatMap_assoc]
  rfl

theorem foldlM_flatMap_fields (bs : List α) (a : α) :
    (bs.flatMap c.fields).foldlM c.mergeField a = some (bs.foldl c.merge a) := by
  induction bs generalizing a with
  | nil => rfl
  | cons b bs ih =>
    rw [List.flatMap_cons, List.foldlM_append, c.foldlM_fields, List.foldl_cons]
    exact ih _

/-- Decoding the encodings of several messages, one after the other, merges
them. -/
theorem unmarshal_flatMap (bs : List α) :
    c.unmarshal (bs.flatMap c.marshal) = some (bs.foldl c.merge c.empty) := by
  simp only [unmarshal, unmarshalInto, flatMap_marshal, decodeFields_encodeFields, Option.bind_some,
    c.foldlM_flatMap_fields]

end Codec

/-! ## The fields of a message -/

/-- The UTF-8 bytes of a string. -/
def utf8 (s : String) : Bytes := s.toByteArray.data.toList

/-- The string of UTF-8 bytes. -/
def ofUtf8 (bs : Bytes) : Option String := String.fromUTF8? ⟨bs.toArray⟩

@[simp] theorem ofUtf8_utf8 (s : String) : ofUtf8 (utf8 s) = some s := by
  have hs : (⟨(utf8 s).toArray⟩ : ByteArray) = s.toByteArray := by simp [utf8]
  rw [ofUtf8, hs, String.fromUTF8?, dif_pos s.isValidUTF8]
  rfl

/-- A proto3 string field: left out when it is empty. -/
def stringField (num : Nat) (s : String) : List Field := if s = "" then [] else [⟨num, utf8 s⟩]

/-- A repeated string field. -/
def stringsField (num : Nat) (ss : List String) : List Field := ss.map fun s => ⟨num, utf8 s⟩

/-- A repeated message field. -/
def messagesField {β : Type} (c : Codec β) (num : Nat) (bs : List β) : List Field :=
  bs.map fun b => ⟨num, c.marshal b⟩

/-- An embedded message, left out when it is nil. -/
def messageField {β : Type} (c : Codec β) (num : Nat) : Option β → List Field
  | none => []
  | some b => [⟨num, c.marshal b⟩]

/-- An embedded message that is left out is kept as it was. -/
def mergeMessage {β : Type} (c : Codec β) (a : Option β) : Option β → Option β
  | none => a
  | some b => some (c.merge (a.getD c.empty) b)

@[simp] theorem none_mergeMessage {β : Type} (c : Codec β) (b : Option β) :
    mergeMessage c none b = b := by
  cases b with
  | none => rfl
  | some b => simp [mergeMessage, c.empty_merge]

theorem mergeMessage_some {β : Type} (c : Codec β) (a b : β) :
    mergeMessage c (some a) (some b) = some (c.merge a b) := rfl

/-- A string that occurs again is replaced; a string left out is kept. -/
def mergeString (a b : String) : String := if b = "" then a else b

@[simp] theorem empty_mergeString (b : String) : mergeString "" b = b := by
  unfold mergeString; split <;> simp_all

theorem mergeString_eq_right {a b : String} : mergeString a b = b ↔ (b = "" → a = "") := by
  unfold mergeString
  split
  · rename_i h; simp [h]
  · rename_i h; simp [h]

section

variable {α : Type} {mergeField : α → Field → Option α} {num : Nat}

/-- Merging the fields of a message in two parts. -/
theorem foldlM_append_of {fs gs : List Field} {a a' : α} (h : fs.foldlM mergeField a = some a') :
    (fs ++ gs).foldlM mergeField a = gs.foldlM mergeField a' := by
  rw [List.foldlM_append, h, Option.bind_eq_bind, Option.bind_some]

theorem foldlM_stringField (get : α → String) (set : α → String → α)
    (h : ∀ a bs, mergeField a ⟨num, bs⟩ = (ofUtf8 bs).map (set a))
    (hset : ∀ a, set a (get a) = a) (a : α) (s : String) :
    (stringField num s).foldlM mergeField a = some (set a (mergeString (get a) s)) := by
  unfold stringField mergeString
  split
  · simp [hset]
  · simp [h]

/-- The elements of a repeated field are appended one by one. -/
private theorem foldlM_repeated {β : Type} {enc : β → Field} {get : α → List β}
    {set : α → List β → α} (h : ∀ a b, mergeField a (enc b) = some (set a (get a ++ [b])))
    (hset : ∀ a, set a (get a) = a) (hget : ∀ a l, get (set a l) = l)
    (hsetset : ∀ a l l', set (set a l) l' = set a l') (bs : List β) (a : α) :
    (bs.map enc).foldlM mergeField a = some (set a (get a ++ bs)) := by
  induction bs generalizing a with
  | nil => simp [hset]
  | cons b bs ih =>
    rw [List.map_cons, List.foldlM_cons, h]
    simp only [Option.bind_eq_bind, Option.bind_some]
    rw [ih, hget, hsetset, List.append_assoc, List.singleton_append]

theorem foldlM_stringsField (get : α → List String) (set : α → List String → α)
    (h : ∀ a bs, mergeField a ⟨num, bs⟩ = (ofUtf8 bs).map fun s => set a (get a ++ [s]))
    (hset : ∀ a, set a (get a) = a) (hget : ∀ a l, get (set a l) = l)
    (hsetset : ∀ a l l', set (set a l) l' = set a l') (a : α) (ss : List String) :
    (stringsField num ss).foldlM mergeField a = some (set a (get a ++ ss)) :=
  foldlM_repeated (fun a s => by rw [h, ofUtf8_utf8, Option.map_some]) hset hget hsetset ss a

theorem foldlM_messagesField {β : Type} (c : Codec β) (get : α → List β) (set : α → List β → α)
    (h : ∀ a bs, mergeField a ⟨num, bs⟩ = (c.unmarshal bs).map fun b => set a (get a ++ [b]))
    (hset : ∀ a, set a (get a) = a) (hget : ∀ a l, get (set a l) = l)
    (hsetset : ∀ a l l', set (set a l) l' = set a l') (a : α) (bs : List β) :
    (messagesField c num bs).foldlM mergeField a = some (set a (get a ++ bs)) :=
  foldlM_repeated (fun a b => by rw [h, c.unmarshal_marshal, Option.map_some]) hset hget hsetset bs a

/-- An embedded message that occurs again is merged into the one there is. -/
theorem foldlM_messageField {β : Type} (c : Codec β) (get : α → Option β)
    (set : α → Option β → α)
    (h : ∀ a bs, mergeField a ⟨num, bs⟩ =
      (c.unmarshalInto ((get a).getD c.empty) bs).map fun b => set a (some b))
    (hset : ∀ a, set a (get a) = a) (a : α) (b : Option β) :
    (messageField c num b).foldlM mergeField a = some (set a (mergeMessage c (get a) b)) := by
  cases b with
  | none => simp [messageField, mergeMessage, hset]
  | some b => simp [messageField, mergeMessage, h, c.unmarshalInto_marshal]

end

end CtrlMesh.Framework.Wire
