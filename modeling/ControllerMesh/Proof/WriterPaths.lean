import ControllerMesh.Framework.UrlQuery
import ControllerMesh.Proof.AtomicWriter

/-!
# The paths that the atomic writer accepts

`validatePath` looks at the items of a path as it is given, `Write` works with the
clean path. What is accepted is clean below the first item, but only that one is
checked for the names that the writer reserves: `./..data_tmp` is accepted and its
clean path is `..data_tmp` (`cleanPath_of_validatePath`).
-/

namespace CtrlMesh

open Framework AtomicWriter

theorem eq_dotdot {c : String} (h : hasDotDot c = true) (hsize : c.utf8ByteSize ≤ 2) : c = ".." := by
  obtain ⟨rest, hrest⟩ := List.isPrefixOf_iff_prefix.mp h
  have hc : c = ".." ++ String.ofList rest := by
    rw [← String.ofList_toList (s := c), ← hrest, String.ofList_append]
  rw [hc, String.utf8ByteSize_append] at hsize
  have hzero : (String.ofList rest).utf8ByteSize = 0 := by
    have : "..".utf8ByteSize = 2 := by decide
    omega
  rw [String.utf8ByteSize_eq_zero_iff] at hzero
  rw [hc, hzero]
  rfl

theorem forall_of_validateItems {targetPath : String} {items : List String}
    (h : validateItems targetPath items = .ok ()) :
    ∀ c ∈ items, c ≠ ".." ∧ c.utf8ByteSize ≤ maxFileNameLength := by
  induction items with
  | nil => simp
  | cons item items ih =>
    rw [validateItems] at h
    split at h
    · simp at h
    next hdots =>
    split at h
    · simp at h
    next hsize =>
    intro c hc
    obtain rfl | hc := List.mem_cons.mp hc
    · exact ⟨hdots, by omega⟩
    · exact ih h c hc

/-- The first item of a path that is neither empty nor absolute is not empty. -/
theorem exists_pathItems {targetPath : String} (hne : targetPath ≠ "")
    (hrel : targetPath.toList.head? ≠ some '/') :
    ∃ first items, pathItems targetPath = first :: items ∧ first ≠ "" := by
  cases hl : targetPath.toList with
  | nil =>
    rw [String.toList_eq_nil_iff] at hl
    exact absurd hl hne
  | cons a l =>
    rw [hl, List.head?_cons] at hrel
    have ha : (a == '/') = false := by simpa using hrel
    obtain ⟨part, parts, hparts⟩ := List.exists_cons_of_ne_nil (List.splitOn_ne_nil '/' l)
    refine ⟨String.ofList (a :: part), parts.map String.ofList, ?_, ?_⟩
    · rw [pathItems, hl, List.splitOn_cons_eq_if_modifyHead, ha, hparts]
      rfl
    · intro he
      have := congrArg String.toList he
      simp at this

/-- What an accepted path is once it is clean: each component is a file name of at
most 255 bytes, and the first one has a name that the writer reserves exactly if the
path begins with `./`, more of the same or slashes, and then such a name. -/
theorem cleanPath_of_validatePath {targetPath : String} (h : validatePath targetPath = .ok ()) :
    (∀ c ∈ cleanPath targetPath, c ≠ "" ∧ c ≠ "." ∧ c ≠ ".." ∧ '/' ∉ c.toList ∧
      c.utf8ByteSize ≤ maxFileNameLength) ∧
    ((∃ c ∈ (cleanPath targetPath).head?, hasDotDot c = true) ↔
      ∃ dots c rest, pathItems targetPath = "." :: dots ++ c :: rest ∧
        (∀ d ∈ dots, d = "" ∨ d = ".") ∧ hasDotDot c = true) := by
  rw [validatePath] at h
  split at h
  · simp at h
  next hne =>
  split at h
  · simp at h
  next hrel =>
  split at h
  · simp at h
  split at h
  · simp at h
  next hitems =>
  dsimp only at h
  have hall := forall_of_validateItems hitems
  obtain ⟨first, items, hsplit, hfirst⟩ := exists_pathItems hne hrel
  rw [hsplit, List.headD_cons] at h
  have hname : ¬ hasDotDot first = true := by
    intro hdots
    split at h
    · simp at h
    next hsize =>
    rw [hdots, Bool.true_and, decide_eq_true_eq, not_lt] at hsize
    refine (hall first ?_).1 (eq_dotdot hdots hsize)
    rw [hsplit]
    exact List.mem_cons_self
  constructor
  · intro c hc
    rw [cleanPath, List.mem_filter, decide_eq_true_eq] at hc
    refine ⟨hc.2.1, hc.2.2, (hall c hc.1).1, ?_, (hall c hc.1).2⟩
    obtain ⟨part, hpart, rfl⟩ := List.mem_map.mp hc.1
    rw [String.toList_ofList]
    exact UrlQuery.not_mem_of_mem_splitOn hpart
  · rw [cleanPath, List.head?_filter]
    constructor
    · rintro ⟨c, hc, hdots⟩
      obtain ⟨-, before, after, happ, hbefore⟩ := List.find?_eq_some_iff_append.mp hc
      rw [hsplit] at happ
      cases before with
      | nil =>
        rw [List.nil_append, List.cons.injEq] at happ
        exact absurd (happ.1 ▸ hdots) hname
      | cons d before =>
        rw [List.cons_append, List.cons.injEq] at happ
        have hskip : ∀ e ∈ d :: before, e = "" ∨ e = "." := by
          intro e he
          have := hbefore e he
          simp only [ne_eq, Bool.not_eq_true', decide_eq_false_iff_not, not_and, not_not] at this
          by_cases hempty : e = ""
          · exact .inl hempty
          · exact .inr (this hempty)
        have hd : d = "." := (hskip d List.mem_cons_self).resolve_left (happ.1 ▸ hfirst)
        refine ⟨before, c, after, ?_, fun e he => hskip e (List.mem_cons_of_mem _ he), hdots⟩
        rw [hsplit, happ.1, happ.2, hd]
        rfl
    · rintro ⟨dots, c, rest, happ, hskip, hdots⟩
      refine ⟨c, ?_, hdots⟩
      have hc : c ≠ "" ∧ c ≠ "." := by
        refine ⟨?_, ?_⟩ <;> rintro rfl <;> exact absurd hdots (by decide)
      rw [happ]
      refine List.find?_eq_some_iff_append.mpr ⟨by simpa using hc, "." :: dots, rest, rfl, ?_⟩
      intro e he
      obtain rfl | he := List.mem_cons.mp he
      · rfl
      · obtain rfl | rfl := hskip e he <;> rfl

theorem cleanPath_dotSlashDataTmp : validatePath "./..data_tmp" = .ok () ∧
    ∃ c ∈ (cleanPath "./..data_tmp").head?, hasDotDot c = true :=
  ⟨by decide +kernel, (cleanPath_of_validatePath (by decide +kernel)).2.mpr
    ⟨[], "..data_tmp", [], by decide +kernel, by simp, by decide⟩⟩

end CtrlMesh
