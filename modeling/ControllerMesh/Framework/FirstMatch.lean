import Mathlib.Data.List.Nodup

/-!
# First match by a chain of tests

Rules stand in a list, each with a name. A value belongs to the first rule that
accepts it, or to a fallback. Where every rule decides alone whether it takes a
value, it looks at the rules before it through a second test of theirs,
`rejects`: `Takes` says that the rule of a name takes the value.

If `rejects` is the complement of `accepts`, exactly the first match takes the
value. In general it does if and only if the list is `Separated` at the value
(`takes_iff_first_iff`).

A weaker test has the same first match if and only if it accepts no more of the
rules up to there (`first_eq_first_iff`).
-/

namespace CtrlMesh.Framework.FirstMatch

variable {α ν : Type} (name : α → ν) (fallback : ν) (accepts : α → Bool) (rejects : α → Prop)

/-- The name of the first rule that accepts. -/
def first (rules : List α) : ν := ((rules.find? accepts).map name).getD fallback

/-- The rule called `n` takes the value: it accepts, and all rules before it
reject. The fallback stands behind all rules. -/
def Takes [DecidableEq ν] (n : ν) : List α → Prop
  | [] => n = fallback
  | rule :: rest =>
    if name rule = n then accepts rule = true else rejects rule ∧ Takes n rest

/-- Some rule, or the fallback, takes the value. -/
def Reached : List α → Prop
  | [] => True
  | rule :: rest => accepts rule = true ∨ rejects rule ∧ Reached rest

/-- The rules before the first match reject, and nothing behind it is reached
through it. -/
def Separated : List α → Prop
  | [] => True
  | rule :: rest =>
    if accepts rule then ¬(rejects rule ∧ Reached accepts rejects rest)
    else rejects rule ∧ Separated rest

/-- The names a list gives rise to. -/
def names (rules : List α) : List ν := rules.map name ++ [fallback]

variable {name fallback accepts rejects}

theorem mem_names_cons {rule : α} {rest : List α} {n : ν} :
    n ∈ names name fallback (rule :: rest) ↔ n = name rule ∨ n ∈ names name fallback rest := by
  rw [names, List.map_cons, List.cons_append, List.mem_cons, names]

theorem first_mem_names (rules : List α) :
    first name fallback accepts rules ∈ names name fallback rules := by
  rw [first, names, List.mem_append, List.mem_singleton]
  cases h : rules.find? accepts with
  | none => exact .inr rfl
  | some rule => exact .inl (List.mem_map_of_mem (List.mem_of_find?_eq_some h))

theorem first_of_append {before after : List α} {rule : α} (haccepts : accepts rule = true)
    (hbefore : ∀ r ∈ before, accepts r = false) :
    first name fallback accepts (before ++ rule :: after) = name rule := by
  have hfind : (before ++ rule :: after).find? accepts = some rule :=
    List.find?_eq_some_iff_append.mpr ⟨haccepts, before, after, rfl, by simpa using hbefore⟩
  rw [first, hfind]
  rfl

theorem first_eq_fallback_iff {rules : List α} (hnodup : (names name fallback rules).Nodup) :
    first name fallback accepts rules = fallback ↔ ∀ rule ∈ rules, accepts rule = false := by
  have hfresh : fallback ∉ rules.map name := by
    rw [names, List.nodup_append] at hnodup
    exact fun h => hnodup.2.2 _ h _ (List.mem_singleton_self _) rfl
  rw [first]
  cases hfind : rules.find? accepts with
  | none => simpa using hfind
  | some rule =>
    have hmem := List.mem_of_find?_eq_some hfind
    have haccepts := List.find?_some hfind
    constructor
    · intro h
      exact absurd (List.mem_map.mpr ⟨rule, hmem, h⟩) hfresh
    · intro h
      simp [h rule hmem] at haccepts

theorem first_cons_of_true {rule : α} {rest : List α} (h : accepts rule = true) :
    first name fallback accepts (rule :: rest) = name rule := by
  simp [first, h]

theorem first_cons_of_false {rule : α} {rest : List α} (h : accepts rule = false) :
    first name fallback accepts (rule :: rest) = first name fallback accepts rest := by
  simp [first, h]

/-- A rule with `P` behind rules with `Q` only. -/
theorem exists_split_cons_iff {P Q : α → Prop} {rule : α} {rest : List α} :
    (∃ before r after, rule :: rest = before ++ r :: after ∧ P r ∧ ∀ b ∈ before, Q b) ↔
      P rule ∨ Q rule ∧ ∃ before r after, rest = before ++ r :: after ∧ P r ∧ ∀ b ∈ before, Q b := by
  constructor
  · rintro ⟨before, r, after, hrules, hr, hbefore⟩
    cases before with
    | nil =>
      obtain ⟨rfl, -⟩ := List.cons.inj hrules
      exact .inl hr
    | cons b before =>
      obtain ⟨rfl, rfl⟩ := List.cons.inj hrules
      obtain ⟨hb, hbefore'⟩ := List.forall_mem_cons.mp hbefore
      exact .inr ⟨hb, before, r, after, rfl, hr, hbefore'⟩
  · rintro (hr | ⟨hq, before, r, after, rfl, hr, hbefore⟩)
    · exact ⟨[], rule, rest, rfl, hr, by simp⟩
    · exact ⟨rule :: before, r, after, rfl, hr, List.forall_mem_cons.mpr ⟨hq, hbefore⟩⟩

/-- A weaker test finds the same rule unless it accepts another one before. -/
theorem first_eq_first_iff {accepts' : α → Bool} {rules : List α}
    (himp : ∀ rule, accepts rule = true → accepts' rule = true)
    (hnodup : (names name fallback rules).Nodup) :
    first name fallback accepts' rules = first name fallback accepts rules ↔
      ¬∃ before rule after, rules = before ++ rule :: after ∧
        (accepts' rule = true ∧ accepts rule = false) ∧ ∀ r ∈ before, accepts r = false := by
  induction rules with
  | nil => simp [first]
  | cons rule rest ih =>
    have hnodup' := List.nodup_cons.mp hnodup
    rw [exists_split_cons_iff]
    cases haccepts : accepts rule with
    | true =>
      rw [first_cons_of_true haccepts, first_cons_of_true (himp rule haccepts)]
      simp
    | false =>
      rw [first_cons_of_false haccepts]
      cases haccepts' : accepts' rule with
      | true =>
        -- only the weaker test accepts the head, whose name nothing behind it has
        rw [first_cons_of_true haccepts']
        refine iff_of_false (fun h => hnodup'.1 (h ▸ first_mem_names rest)) ?_
        simp
      | false =>
        rw [first_cons_of_false haccepts', ih hnodup'.2]
        simp

variable [DecidableEq ν]

theorem exists_takes_iff_reached {rules : List α} (hnodup : (names name fallback rules).Nodup) :
    (∃ n ∈ names name fallback rules, Takes name fallback accepts rejects n rules) ↔
      Reached accepts rejects rules := by
  induction rules with
  | nil => simp [names, Takes, Reached]
  | cons rule rest ih =>
    have hnodup' := List.nodup_cons.mp hnodup
    rw [Reached, ← ih hnodup'.2]
    constructor
    · rintro ⟨n, hn, htakes⟩
      rw [Takes] at htakes
      split at htakes
      · exact .inl htakes
      next hne =>
        refine .inr ⟨htakes.1, n, ?_, htakes.2⟩
        exact (mem_names_cons.mp hn).resolve_left fun h => hne h.symm
    · rintro (haccepts | ⟨hrejects, n, hn, htakes⟩)
      · exact ⟨name rule, mem_names_cons.mpr (.inl rfl), by rwa [Takes, if_pos rfl]⟩
      · have hne : name rule ≠ n := fun h => hnodup'.1 (h ▸ hn)
        refine ⟨n, mem_names_cons.mpr (.inr hn), ?_⟩
        rw [Takes, if_neg hne]
        exact ⟨hrejects, htakes⟩

/-- Exactly the first match takes the value if and only if the list is
separated at it. -/
theorem takes_iff_first_iff {rules : List α} (hnodup : (names name fallback rules).Nodup) :
    (∀ n ∈ names name fallback rules,
        (Takes name fallback accepts rejects n rules ↔ n = first name fallback accepts rules)) ↔
      Separated accepts rejects rules := by
  induction rules with
  | nil => simp [names, Takes, Separated, first]
  | cons rule rest ih =>
    have hnodup' := List.nodup_cons.mp hnodup
    have hne : ∀ n ∈ names name fallback rest, name rule ≠ n := fun n hn h => hnodup'.1 (h ▸ hn)
    simp only [mem_names_cons, forall_eq_or_imp]
    rw [Takes, if_pos rfl, Separated]
    cases haccepts : accepts rule with
    | true =>
      -- the head is the first match, so nobody else may take the value
      have hfirst : first name fallback accepts (rule :: rest) = name rule := by
        rw [first, List.find?_cons_of_pos haccepts]; rfl
      rw [hfirst, if_pos rfl, ← exists_takes_iff_reached hnodup'.2]
      constructor
      · rintro ⟨-, hrest⟩ ⟨hrejects, n, hn, htakes⟩
        refine hne n hn ((hrest n hn).mp ?_).symm
        rw [Takes, if_neg (hne n hn)]
        exact ⟨hrejects, htakes⟩
      · refine fun hnone => ⟨by simp, fun n hn => ⟨fun htakes => ?_, fun h => absurd h.symm (hne n hn)⟩⟩
        rw [Takes, if_neg (hne n hn)] at htakes
        exact absurd ⟨htakes.1, n, hn, htakes.2⟩ hnone
    | false =>
      -- the first match is that of the rest, which the head has to let through
      have hfirst : first name fallback accepts (rule :: rest) = first name fallback accepts rest := by
        rw [first, List.find?_cons_of_neg (by simp [haccepts]), first]
      have hmem : first name fallback accepts rest ∈ names name fallback rest := first_mem_names rest
      rw [hfirst, if_neg (by simp), ← ih hnodup'.2]
      constructor
      · rintro ⟨-, hrest⟩
        have hhead : rejects rule := by
          have htakes := (hrest _ hmem).mpr rfl
          rw [Takes, if_neg (hne _ hmem)] at htakes
          exact htakes.1
        refine ⟨hhead, fun n hn => ?_⟩
        rw [← hrest n hn, Takes, if_neg (hne n hn), and_iff_right hhead]
      · rintro ⟨hrejects, hrest⟩
        refine ⟨by simpa using hne _ hmem, fun n hn => ?_⟩
        rw [Takes, if_neg (hne n hn), and_iff_right hrejects, hrest n hn]

end CtrlMesh.Framework.FirstMatch
