import Mathlib

/-!
# Buffers of bytes

Go's `bytes.Buffer`: an array, how much of it is in use, and how much of that has
been read. `Bytes` gives a slice of the array, whose capacity reaches to the end
of the array, so that a caller can write behind the bytes in use.

* `contents_write`: a write adds to the bytes not yet read;
* `grow_of_le`: `Grow` keeps the array if there is room behind the bytes in use;
* `off_reads`: how much has been read after any number of reads;
* `reslice_bytes_cap`: the whole array can only be had of a buffer that nothing has
  been read from.
-/

namespace CtrlMesh.Framework

/-- A slice of an array: where it begins, its length and its capacity. -/
structure Slice where
  start : Nat
  len : Nat
  cap : Nat
  deriving DecidableEq, Repr

/-- `s[lo:hi]`, which panics if `hi` is beyond the capacity. -/
def Slice.reslice (s : Slice) (lo hi : Nat) : Option Slice :=
  if lo ≤ hi ∧ hi ≤ s.cap then some ⟨s.start + lo, hi - lo, s.cap - lo⟩ else none

/-- `copy(array[i:], data)`. -/
def overlay (array : List UInt8) (i : Nat) (data : List UInt8) : List UInt8 :=
  array.take i ++ data.take (array.length - i) ++ array.drop (i + data.length)

theorem length_overlay (array : List UInt8) (i : Nat) (data : List UInt8) :
    (overlay array i data).length = array.length := by
  rw [overlay, List.length_append, List.length_append, List.length_take, List.length_take,
    List.length_drop]
  omega

theorem take_overlay {array data : List UInt8} {i : Nat} (h : i + data.length ≤ array.length) :
    (overlay array i data).take (i + data.length) = array.take i ++ data := by
  have hdata : data.take (array.length - i) = data := List.take_of_length_le (by omega)
  have hlen : (array.take i ++ data).length = i + data.length := by
    rw [List.length_append, List.length_take]
    omega
  rw [overlay, hdata, ← hlen, List.take_left']
  rfl

/-- `bytes.Buffer`, of a slice that is not nil. -/
@[ext]
structure Buffer where
  /-- The array, up to the capacity of the slice. -/
  array : List UInt8
  len : Nat
  off : Nat
  off_le : off ≤ len
  len_le : len ≤ array.length
  deriving DecidableEq

namespace Buffer

/-- `NewBuffer`, of a slice with `len` bytes. -/
def new (array : List UInt8) (len : Nat) (h : len ≤ array.length) : Buffer :=
  ⟨array, len, 0, Nat.zero_le _, h⟩

/-- A buffer without an array. -/
def empty : Buffer := new [] 0 le_rfl

/-- `Cap`. -/
def cap (b : Buffer) : Nat := b.array.length

/-- `Len`. -/
def length (b : Buffer) : Nat := b.len - b.off

/-- `Bytes`. -/
def bytes (b : Buffer) : Slice := ⟨b.off, b.length, b.cap - b.off⟩

/-- The bytes of a slice of the array. -/
def get (b : Buffer) (s : Slice) : List UInt8 := (b.array.drop s.start).take s.len

/-- The bytes that have not been read. -/
def contents (b : Buffer) : List UInt8 := b.get b.bytes

/-- `copy(s, data)`, of a slice `s` of the array. -/
def copy (b : Buffer) (s : Slice) (data : List UInt8) : Buffer :=
  { b with
    array := overlay b.array s.start (data.take s.len)
    len_le := (length_overlay _ _ _).symm ▸ b.len_le }

@[simp] theorem cap_copy (b : Buffer) (s : Slice) (data : List UInt8) :
    (b.copy s data).cap = b.cap := length_overlay _ _ _

@[simp] theorem off_copy (b : Buffer) (s : Slice) (data : List UInt8) :
    (b.copy s data).off = b.off := rfl

@[simp] theorem len_copy (b : Buffer) (s : Slice) (data : List UInt8) :
    (b.copy s data).len = b.len := rfl

/-- `Reset`. -/
def reset (b : Buffer) : Buffer := ⟨b.array, 0, 0, le_rfl, Nat.zero_le _⟩

@[simp] theorem cap_reset (b : Buffer) : b.reset.cap = b.cap := rfl

/-- `tryGrowByReslice`, with where to write. -/
def tryGrowByReslice (b : Buffer) (n : Nat) : Option (Nat × Buffer) :=
  if h : n ≤ b.cap - b.len then
    some (b.len,
      { b with
        len := b.len + n
        off_le := b.off_le.trans (Nat.le_add_right _ _)
        len_le := by have := b.len_le; unfold cap at h; omega })
  else none

theorem length_contents (b : Buffer) : b.contents.length = b.length := by
  have hoff := b.off_le
  have hlen := b.len_le
  simp only [contents, get, bytes, length, List.length_take, List.length_drop]
  omega

/-- The bytes in use are moved to the front of the array, for `n` more. -/
def slide (b : Buffer) (n : Nat) (h : n + b.length ≤ b.cap / 2) : Buffer where
  array := overlay b.array 0 b.contents
  len := b.length + n
  off := 0
  off_le := Nat.zero_le _
  len_le := by
    rw [length_overlay]
    unfold cap at h
    omega

/-- The bytes in use are moved to a larger array. -/
def realloc (b : Buffer) (n : Nat) : Buffer where
  array := b.contents ++ List.replicate (2 * b.cap + n - b.length) 0
  len := b.length + n
  off := 0
  off_le := Nat.zero_le _
  len_le := by
    have hlen := b.len_le
    rw [List.length_append, List.length_replicate, length_contents]
    unfold length cap
    omega

/-- `grow`, after an empty buffer has been reset. -/
def makeRoom (b : Buffer) (n : Nat) : Nat × Buffer :=
  (b.tryGrowByReslice n).getD
    (if h : n + b.length ≤ b.cap / 2 then (b.length, b.slide n h) else (b.length, b.realloc n))

/-- `grow`, with where to write. -/
def growTo (b : Buffer) (n : Nat) : Nat × Buffer :=
  -- If buffer is empty, reset to recover space.
  if b.length = 0 ∧ b.off ≠ 0 then b.reset.makeRoom n else b.makeRoom n

/-- `b'` is `b` with room for `n` bytes at `m`, behind those in use. -/
structure Grown (b : Buffer) (n m : Nat) (b' : Buffer) : Prop where
  len : b'.len = m + n
  off : b'.off ≤ m
  contents : (b'.array.drop b'.off).take (m - b'.off) = b.contents
  unread : b.off = 0 → b'.off = 0
  cap_le : b.cap ≤ b'.cap

theorem Grown.fits {b b' : Buffer} {n m : Nat} (h : Grown b n m b') : m + n ≤ b'.cap :=
  h.len ▸ b'.len_le

theorem grown_tryGrowByReslice {b : Buffer} {n : Nat} {r : Nat × Buffer}
    (h : b.tryGrowByReslice n = some r) : Grown b n r.1 r.2 := by
  rw [tryGrowByReslice] at h
  split at h
  · cases h
    exact ⟨rfl, b.off_le, rfl, id, le_rfl⟩
  · simp at h

theorem contents_reset (b : Buffer) : b.reset.contents = [] := rfl

/-- An empty buffer may be reset before it grows. -/
theorem Grown.of_reset {b b' : Buffer} {n m : Nat} (hlen : b.length = 0)
    (h : Grown b.reset n m b') : Grown b n m b' where
  len := h.len
  off := h.off
  contents := by
    have hempty : b.contents = [] := List.eq_nil_of_length_eq_zero (b.length_contents.trans hlen)
    rw [h.contents, hempty, contents_reset]
  unread := fun _ => h.unread rfl
  cap_le := h.cap_le

theorem grown_slide (b : Buffer) (n : Nat) (h : n + b.length ≤ b.cap / 2) :
    Grown b n b.length (b.slide n h) where
  len := rfl
  off := Nat.zero_le _
  contents := by
    have hlen : 0 + b.contents.length ≤ b.array.length := by
      rw [length_contents]; unfold cap at h; omega
    have htake := take_overlay hlen
    rw [length_contents, Nat.zero_add, List.take_zero, List.nil_append] at htake
    exact htake
  unread := fun _ => rfl
  cap_le := (length_overlay _ _ _).ge

theorem grown_realloc (b : Buffer) (n : Nat) : Grown b n b.length (b.realloc n) where
  len := rfl
  off := Nat.zero_le _
  contents := List.take_left' b.length_contents
  unread := fun _ => rfl
  cap_le := by
    have hlen := b.len_le
    simp only [realloc, cap, List.length_append, List.length_replicate, length_contents, length]
    omega

theorem grown_makeRoom (b : Buffer) (n : Nat) : Grown b n (b.makeRoom n).1 (b.makeRoom n).2 := by
  rw [makeRoom]
  cases htry : b.tryGrowByReslice n with
  | some r => exact grown_tryGrowByReslice htry
  | none =>
    rw [Option.getD_none]
    split
    · rename_i h
      exact grown_slide b n h
    · exact grown_realloc b n

theorem grown_growTo (b : Buffer) (n : Nat) : Grown b n (b.growTo n).1 (b.growTo n).2 := by
  rw [growTo]
  split
  · rename_i h
    exact (grown_makeRoom b.reset n).of_reset h.1
  · exact grown_makeRoom b n

/-- `Grow`. -/
def grow (b : Buffer) (n : Nat) : Buffer :=
  { (b.growTo n).2 with
    len := (b.growTo n).1
    off_le := (grown_growTo b n).off
    len_le := (Nat.le_add_right _ _).trans (grown_growTo b n).fits }

/-- Where `Write` writes `n` bytes. -/
def room (b : Buffer) (n : Nat) : Nat × Buffer := (b.tryGrowByReslice n).getD (b.growTo n)

theorem grown_room (b : Buffer) (n : Nat) : Grown b n (b.room n).1 (b.room n).2 := by
  rw [room]
  cases htry : b.tryGrowByReslice n with
  | some r => exact grown_tryGrowByReslice htry
  | none => exact grown_growTo b n

/-- `Write`. -/
def write (b : Buffer) (data : List UInt8) : Buffer :=
  (b.room data.length).2.copy ⟨(b.room data.length).1, data.length, data.length⟩ data

/-- `Read` into a slice of length `n`: the bytes read, or `none` at the end. -/
def read (b : Buffer) (n : Nat) : Option (List UInt8) × Buffer :=
  if b.len ≤ b.off then
    -- Buffer is empty, reset to recover space.
    (if n = 0 then some [] else none, b.reset)
  else
    (some (b.contents.take n),
      { b with
        off := b.off + min n b.length
        off_le := by have := b.off_le; unfold length; omega })

/-- The buffer after reads into slices of these lengths. -/
def reads (b : Buffer) : List Nat → Buffer
  | [] => b
  | n :: ns => (b.read n).2.reads ns

/-! ## The bytes that have not been read -/

theorem tryGrowByReslice_of_le {b : Buffer} {n : Nat} (h : n ≤ b.cap - b.len) :
    ∃ b', b.tryGrowByReslice n = some (b.len, b') ∧ b'.array = b.array ∧ b'.off = b.off := by
  rw [tryGrowByReslice, dif_pos h]
  exact ⟨_, rfl, rfl, rfl⟩

/-- `Grow` leaves the array as it is if there is room behind the bytes in use. -/
theorem grow_of_le {b : Buffer} {n : Nat} (hoff : b.off = 0) (h : n ≤ b.cap - b.len) :
    b.grow n = b := by
  obtain ⟨b', htry, harray, hoff'⟩ := tryGrowByReslice_of_le h
  have hgrow : b.growTo n = (b.len, b') := by
    rw [growTo, if_neg fun h' => h'.2 hoff, makeRoom, htry, Option.getD_some]
  ext1
  · show (b.growTo n).2.array = b.array
    rw [hgrow, harray]
  · show (b.growTo n).1 = b.len
    rw [hgrow]
  · show (b.growTo n).2.off = b.off
    rw [hgrow, hoff']

theorem contents_eq (b : Buffer) : b.contents = (b.array.take b.len).drop b.off :=
  List.drop_take.symm

theorem contents_write (b : Buffer) (data : List UInt8) :
    (b.write data).contents = b.contents ++ data := by
  have hgrown := grown_room b data.length
  have hfits := hgrown.fits
  have hoff := hgrown.off
  have hin : (b.room data.length).2.off ≤
      ((b.room data.length).2.array.take (b.room data.length).1).length := by
    unfold cap at hfits
    rw [List.length_take]
    omega
  have hcontents : (b.write data).contents =
      ((overlay (b.room data.length).2.array (b.room data.length).1 (data.take data.length)).take
        (b.room data.length).2.len).drop (b.room data.length).2.off := contents_eq _
  rw [hcontents, List.take_length, hgrown.len, take_overlay hfits,
    List.drop_append_of_le_length hin, List.drop_take, hgrown.contents]

theorem off_write {b : Buffer} (hoff : b.off = 0) (data : List UInt8) : (b.write data).off = 0 :=
  (grown_room b data.length).unread hoff

theorem cap_le_write (b : Buffer) (data : List UInt8) : b.cap ≤ (b.write data).cap := by
  rw [write, cap_copy]
  exact (grown_room b data.length).cap_le

/-! ## Reading -/

theorem read_empty {b : Buffer} (h : b.length = 0) (n : Nat) : (b.read n).2 = b.reset := by
  have hle : b.len ≤ b.off := Nat.le_of_sub_eq_zero h
  rw [read, if_pos hle]

theorem off_read {b : Buffer} (h : b.length ≠ 0) (n : Nat) :
    (b.read n).2.off = b.off + min n b.length ∧ (b.read n).2.len = b.len := by
  have hlt : ¬ b.len ≤ b.off := fun hle => h (Nat.sub_eq_zero_of_le hle)
  rw [read, if_neg hlt]
  exact ⟨rfl, rfl⟩

/-- How much has been read after reads into slices of these lengths: nothing
again, once a read has come to the end. -/
theorem off_reads (b : Buffer) (ns : List Nat) :
    (b.reads ns).off =
      if ns ≠ [] ∧ b.length ≤ ns.dropLast.sum then 0 else b.off + min ns.sum b.length := by
  induction ns generalizing b with
  | nil => simp [reads]
  | cons n ns ih =>
    rw [reads, ih]
    by_cases hempty : b.length = 0
    · have hreset : b.reset.length = 0 ∧ b.reset.off = 0 := ⟨rfl, rfl⟩
      rw [read_empty hempty, hreset.1, hreset.2, hempty]
      simp
    · obtain ⟨hoff, hlen⟩ := off_read hempty n
      have hlength : (b.read n).2.length = b.length - min n b.length := by
        rw [length, hoff, hlen, length]
        omega
      rw [hoff, hlength]
      cases ns with
      | nil => simp [hempty]
      | cons m ms =>
        have hne : m :: ms ≠ [] ∧ n :: m :: ms ≠ [] := ⟨List.cons_ne_nil _ _, List.cons_ne_nil _ _⟩
        have hlast : (n :: m :: ms).dropLast.sum = n + (m :: ms).dropLast.sum := by
          rw [List.dropLast_cons_cons, List.sum_cons]
        have hsum : (n :: m :: ms).sum = n + (m :: ms).sum := List.sum_cons
        rw [hlast, hsum]
        by_cases hend : b.length ≤ n + (m :: ms).dropLast.sum
        · rw [if_pos ⟨hne.1, by omega⟩, if_pos ⟨hne.2, hend⟩]
        · rw [if_neg fun h => hend (by omega), if_neg fun h => hend h.2]
          omega

theorem off_reads_eq_zero_iff {b : Buffer} (hoff : b.off = 0) (ns : List Nat) :
    (b.reads ns).off = 0 ↔ ns.sum = 0 ∨ b.length ≤ ns.dropLast.sum := by
  rw [off_reads, hoff]
  split
  · rename_i h
    exact iff_of_true rfl (Or.inr h.2)
  · rename_i h
    by_cases hnil : ns = []
    · simp [hnil]
    · have hlt : ¬ b.length ≤ ns.dropLast.sum := fun h' => h ⟨hnil, h'⟩
      omega

/-! ## The whole array -/

theorem reslice_bytes_cap (b : Buffer) :
    b.bytes.reslice 0 b.cap = if b.off = 0 then some ⟨0, b.cap, b.cap⟩ else none := by
  have hoff := b.off_le.trans b.len_le
  rw [Slice.reslice]
  by_cases h : b.off = 0
  · rw [if_pos ⟨Nat.zero_le _, by simp [bytes, h]⟩, if_pos h]
    simp [bytes, h]
  · have hcap : ¬ b.cap ≤ b.bytes.cap := by
      unfold bytes cap
      show ¬ b.array.length ≤ b.array.length - b.off
      omega
    rw [if_neg fun h' => hcap h'.2, if_neg h]

end Buffer

end CtrlMesh.Framework
