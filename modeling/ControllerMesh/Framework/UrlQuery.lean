import ControllerMesh.Framework.Wire

/-!
# Queries of URLs

The query component of a URL as Go's `net/url` reads and writes it: parts that
are separated by `&`, each of them a key and a value around the first `=`, with
other bytes written as `%` and two hexadecimal digits, and a space as `+`.

* `unescape_escape`: what is escaped is read back;
* `not_mem_escape`: and has no separators in it;
* `parseQuery_intercalate`: a query is parsed part by part.
-/

namespace CtrlMesh.Framework.UrlQuery

open Wire

/-! ## Lists -/

theorem mapM_eq_some_iff {α β : Type} {f : α → Option β} {as : List α} {bs : List β} :
    as.mapM f = some bs ↔ List.Forall₂ (fun a b => f a = some b) as bs := by
  induction as generalizing bs with
  | nil => cases bs <;> simp
  | cons a as ih =>
    rw [List.mapM_cons, List.forall₂_cons_left_iff]
    cases ha : f a with
    | none => simp
    | some b =>
      cases has : as.mapM f with
      | none => simp [← ih, has]
      | some bs' => simp [← ih, has, eq_comm]

theorem mapM_eq_none_iff {α β : Type} {f : α → Option β} {as : List α} :
    as.mapM f = none ↔ ∃ a ∈ as, f a = none := by
  induction as with
  | nil => simp
  | cons a as ih =>
    rw [List.mapM_cons, List.exists_mem_cons_iff, ← ih]
    cases f a with
    | none => simp
    | some b =>
      cases as.mapM f with
      | none => simp
      | some bs => simp

theorem map_eq_of_forall₂ {α β : Type} {p : α → Prop} {f : α → β} {as : List α} {bs : List β}
    (h : List.Forall₂ (fun a b => p a ∧ f a = b) as bs) : (∀ a ∈ as, p a) ∧ as.map f = bs := by
  rw [List.forall₂_and_left] at h
  refine ⟨h.1, ?_⟩
  rw [← List.forall₂_eq_eq_eq, List.forall₂_map_left_iff]
  exact h.2

theorem not_mem_of_mem_splitOn {α : Type} [BEq α] [LawfulBEq α] {x : α} {bs part : List α}
    (h : part ∈ bs.splitOn x) : x ∉ part := by
  induction bs generalizing part with
  | nil =>
    rw [List.splitOn_nil, List.mem_singleton] at h
    simp [h]
  | cons b bs ih =>
    rw [List.splitOn_cons_eq_if_modifyHead] at h
    split at h
    · rcases List.mem_cons.mp h with rfl | h
      · simp
      · exact ih h
    · rename_i hb
      cases hparts : bs.splitOn x with
      | nil => simp [hparts] at h
      | cons first parts =>
        rw [hparts, List.modifyHead_cons] at h
        rcases List.mem_cons.mp h with rfl | h
        · have hfirst : x ∉ first := ih (by simp [hparts])
          have hne : x ≠ b := fun hxb => hb (by simp [hxb])
          simp [hfirst, hne]
        · exact ih (by simp [hparts, h])

/-- A split has one part more than there are separators. -/
theorem length_splitOn {α : Type} [BEq α] (x : α) (bs : List α) :
    (bs.splitOn x).length = bs.count x + 1 := by
  induction bs with
  | nil => rfl
  | cons b bs ih =>
    rw [List.splitOn_cons_eq_if_modifyHead, List.count_cons]
    split
    · rw [List.length_cons, ih]
    · rw [List.length_modifyHead, ih]

/-! ## Escaping -/

/-- The value of a hexadecimal digit. -/
def unhex (c : UInt8) : Option UInt8 :=
  if 48 ≤ c ∧ c ≤ 57 then some (c - 48)
  else if 97 ≤ c ∧ c ≤ 102 then some (c - 97 + 10)
  else if 65 ≤ c ∧ c ≤ 70 then some (c - 65 + 10)
  else none

/-- A digit of a byte that is written as `%XX`. -/
def upperhex (n : UInt8) : UInt8 := if n < 10 then n + 48 else n - 10 + 65

/-- `url.QueryUnescape`: `none` if a `%` is not followed by two digits. -/
def unescape : Bytes → Option Bytes
  | [] => some []
  | c :: bs =>
    if c = 37 then
      match bs with
      | hi :: lo :: rest => do
        let h ← unhex hi
        let l ← unhex lo
        let tail ← unescape rest
        some ((h * 16 + l) :: tail)
      | _ => none
    else (unescape bs).map ((if c = 43 then 32 else c) :: ·)

/-- Letters, digits, `-`, `.`, `_` and `~` stand for themselves. -/
def unreserved (c : UInt8) : Bool :=
  (48 ≤ c && c ≤ 57) || (65 ≤ c && c ≤ 90) || (97 ≤ c && c ≤ 122) || c ∈ [45, 46, 95, 126]

/-- One byte as `url.QueryEscape` writes it. -/
def escapeByte (c : UInt8) : Bytes :=
  if c = 32 then [43]
  else if unreserved c then [c]
  else [37, upperhex (c / 16), upperhex (c % 16)]

/-- `url.QueryEscape`. -/
def escape (bs : Bytes) : Bytes := bs.flatMap escapeByte

theorem unescape_cons {c : UInt8} (hc : c ≠ 37) (bs : Bytes) :
    unescape (c :: bs) = (unescape bs).map ((if c = 43 then 32 else c) :: ·) := by
  rw [unescape.eq_def]
  exact if_neg hc

theorem digit_upperhex : ∀ n : Fin 16,
    unhex (upperhex (UInt8.ofNat n)) = some (UInt8.ofNat n) ∧
      unreserved (upperhex (UInt8.ofNat n)) = true := by
  decide +kernel

/-- A byte is made of two digits. -/
theorem exists_digits (c : UInt8) : ∃ hi lo : Fin 16,
    c / 16 = UInt8.ofNat hi ∧ c % 16 = UInt8.ofNat lo ∧ UInt8.ofNat hi * 16 + UInt8.ofNat lo = c := by
  have hc := c.toNat_lt
  refine ⟨⟨c.toNat / 16, by omega⟩, ⟨c.toNat % 16, by omega⟩, ?_, ?_, ?_⟩
  · apply UInt8.toNat_inj.mp
    simp
    omega
  · apply UInt8.toNat_inj.mp
    simp
    omega
  · apply UInt8.toNat_inj.mp
    simp
    omega

theorem unreserved_ne {c b : UInt8} (h : unreserved c = true) (hb : unreserved b = false) :
    c ≠ b := by
  rintro rfl
  exact absurd h (by simp [hb])

theorem unescape_escapeByte (c : UInt8) (rest : Bytes) :
    unescape (escapeByte c ++ rest) = (unescape rest).map (c :: ·) := by
  unfold escapeByte
  split
  · rename_i hc
    subst hc
    exact unescape_cons (by decide) rest
  · split
    · rename_i hc
      rw [List.cons_append, List.nil_append, unescape_cons (unreserved_ne hc rfl),
        if_neg (unreserved_ne hc rfl)]
    · obtain ⟨hi, lo, hhi, hlo, hsum⟩ := exists_digits c
      simp only [hhi, hlo, List.cons_append, List.nil_append, unescape, if_true,
        (digit_upperhex hi).1, (digit_upperhex lo).1, bind, Option.bind, hsum]
      cases unescape rest <;> rfl

theorem unescape_escape (bs : Bytes) : unescape (escape bs) = some bs := by
  induction bs with
  | nil => rfl
  | cons c bs ih =>
    rw [escape, List.flatMap_cons, unescape_escapeByte]
    rw [escape] at ih
    rw [ih]
    rfl

theorem mem_escapeByte {c b : UInt8} (h : b ∈ escapeByte c) :
    b = 43 ∨ b = 37 ∨ unreserved b = true := by
  unfold escapeByte at h
  split at h
  · exact .inl (List.mem_singleton.mp h)
  · split at h
    · rename_i hc
      rw [List.mem_singleton.mp h]
      exact .inr (.inr hc)
    · obtain ⟨hi, lo, hhi, hlo, -⟩ := exists_digits c
      rw [hhi, hlo] at h
      simp only [List.mem_cons, List.not_mem_nil, or_false] at h
      rcases h with rfl | rfl | rfl
      · exact .inr (.inl rfl)
      · exact .inr (.inr (digit_upperhex hi).2)
      · exact .inr (.inr (digit_upperhex lo).2)

/-- None of `&`, `=` and `;` is in a text that has been escaped. -/
theorem not_mem_escape {sep : UInt8} (h : sep ∈ [38, 61, 59]) (bs : Bytes) : sep ∉ escape bs := by
  intro hmem
  obtain ⟨c, -, hb⟩ := List.mem_flatMap.mp hmem
  simp only [List.mem_cons, List.not_mem_nil, or_false] at h
  rcases h with rfl | rfl | rfl <;>
    exact absurd (mem_escapeByte hb) (by decide)

/-! ## Parsing -/

/-- The key and the value of a part, both as they are written. -/
def cutPair (part : Bytes) : Bytes × Bytes :=
  (part.takeWhile (· ≠ 61), (part.dropWhile (· ≠ 61)).drop 1)

/-- A key and a value, read. -/
def decodePair (kv : Bytes × Bytes) : Option (Bytes × Bytes) := do
  let key ← unescape kv.1
  let value ← unescape kv.2
  some (key, value)

/-- One part of a query. A semicolon is an error. -/
def parsePart (part : Bytes) : Option (Bytes × Bytes) :=
  if 59 ∈ part then none else decodePair (cutPair part)

/-- `url.ParseQuery`: the keys and values in their order, or `none` if there is an
error. Empty parts are skipped. -/
def parseQuery (query : Bytes) : Option (List (Bytes × Bytes)) :=
  ((query.splitOn 38).filter (· ≠ [])).mapM parsePart

/-- The values of a key, in their order. -/
def valuesOf (key : Bytes) (params : List (Bytes × Bytes)) : List Bytes :=
  (params.filter (·.1 = key)).map (·.2)

theorem valuesOf_cons (key : Bytes) (p : Bytes × Bytes) (params : List (Bytes × Bytes)) :
    valuesOf key (p :: params) =
      if p.1 = key then p.2 :: valuesOf key params else valuesOf key params := by
  by_cases h : p.1 = key <;> simp [valuesOf, h]

theorem valuesOf_perm (key : Bytes) {params params' : List (Bytes × Bytes)}
    (h : params.Perm params') : (valuesOf key params).Perm (valuesOf key params') :=
  (h.filter _).map _

theorem cutPair_append {key : Bytes} (hkey : 61 ∉ key) (value : Bytes) :
    cutPair (key ++ [61] ++ value) = (key, value) := by
  have hall : ∀ b ∈ key, (decide (b ≠ 61)) = true := by
    intro b hb
    simp only [decide_eq_true_eq]
    rintro rfl
    exact hkey hb
  rw [cutPair, List.append_assoc, List.takeWhile_append_of_pos hall,
    List.dropWhile_append_of_pos hall]
  simp

theorem parseQuery_intercalate {parts : List Bytes} (hsep : ∀ part ∈ parts, 38 ∉ part)
    (hne : ∀ part ∈ parts, part ≠ []) :
    parseQuery ([38].intercalate parts) = parts.mapM parsePart := by
  unfold parseQuery
  cases parts with
  | nil => rfl
  | cons part parts =>
    rw [List.splitOn_intercalate 38 hsep (by simp), List.filter_eq_self.mpr (by simpa using hne)]

end CtrlMesh.Framework.UrlQuery
