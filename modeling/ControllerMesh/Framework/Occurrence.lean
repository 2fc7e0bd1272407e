import Mathlib

/-!
# The last occurrence of a word

`lastIndex pat s` is the last position at which `pat` stands in `s`, and
`lastReplace` puts another word there.

* `lastIndex_le`, `lastIndex_isSome`: an occurrence lies inside the list, and is
  found if there is one;
* `lastReplace_append_self`: a word at the end is the last occurrence;
* `length_lastReplace`: how a replacement changes the length.
-/

namespace CtrlMesh.Framework

variable {α : Type} [DecidableEq α]

/-- The last position of `pat`. The empty word stands last at the end. -/
def lastIndex (pat : List α) : List α → Option Nat
  | [] => if pat = [] then some 0 else none
  | a :: s =>
    match lastIndex pat s with
    | some i => some (i + 1)
    | none => if pat.isPrefixOf (a :: s) then some 0 else none

/-- `new` in place of the last `old`. -/
def lastReplace (old new s : List α) : List α :=
  match lastIndex old s with
  | none => s
  | some i => s.take i ++ new ++ s.drop (i + old.length)

theorem lastIndex_le {pat s : List α} {i : Nat} (h : lastIndex pat s = some i) :
    i + pat.length ≤ s.length := by
  induction s generalizing i with
  | nil =>
    simp only [lastIndex] at h
    split_ifs at h with hpat
    cases h
    simp [hpat]
  | cons a s ih =>
    simp only [lastIndex] at h
    cases hs : lastIndex pat s with
    | some j =>
      rw [hs] at h
      cases h
      have hj := ih hs
      rw [List.length_cons]
      omega
    | none =>
      rw [hs] at h
      simp only at h
      split_ifs at h with hpre
      cases h
      have hlen := (List.isPrefixOf_iff_prefix.mp hpre).length_le
      omega

theorem lastIndex_eq_none {pat s : List α} (h : s.length < pat.length) : lastIndex pat s = none := by
  cases hs : lastIndex pat s with
  | none => rfl
  | some i =>
    have hi := lastIndex_le hs
    omega

/-- A word that occurs is found. -/
theorem lastIndex_isSome (pat before after : List α) :
    (lastIndex pat (before ++ (pat ++ after))).isSome := by
  induction before with
  | nil =>
    rw [List.nil_append]
    cases hs : pat ++ after with
    | nil => simp [lastIndex, (List.append_eq_nil_iff.mp hs).1]
    | cons a s =>
      simp only [lastIndex]
      cases lastIndex pat s with
      | some j => rfl
      | none =>
        have hpre : pat.isPrefixOf (a :: s) = true :=
          List.isPrefixOf_iff_prefix.mpr ⟨after, hs⟩
        simp [hpre]
  | cons a before ih =>
    obtain ⟨i, hi⟩ := Option.isSome_iff_exists.mp ih
    simp [lastIndex, hi]

/-- A word at the end of a list occurs last there. -/
theorem lastIndex_append_self (before pat : List α) :
    lastIndex pat (before ++ pat) = some before.length := by
  induction before with
  | nil =>
    cases pat with
    | nil => simp [lastIndex]
    | cons a s => simp [lastIndex, lastIndex_eq_none]
  | cons a before ih => simp [lastIndex, ih]

theorem lastReplace_append_self (before old new : List α) :
    lastReplace old new (before ++ old) = before ++ new := by
  simp [lastReplace, lastIndex_append_self]

theorem length_lastReplace {old s : List α} (h : (lastIndex old s).isSome) (new : List α) :
    (lastReplace old new s).length + old.length = s.length + new.length := by
  obtain ⟨i, hi⟩ := Option.isSome_iff_exists.mp h
  have hle := lastIndex_le hi
  simp only [lastReplace, hi, List.length_append, List.length_take, List.length_drop]
  omega

end CtrlMesh.Framework
