import ControllerMesh.Impl.Selector

/-!
# What a label selector means

A label selector is a conjunction of requirements: each of its label pairs, and
each of its expressions. A label set matches it if it meets all of them
(`LabelSelector.accepts`). That it fails all of them (`LabelSelector.rejects`)
is more than that it does not match; the two are complements for a selector
with one requirement only.

An expression with an unknown operator is no requirement: nothing meets it and
nothing fails it.
-/

namespace CtrlMesh

open Framework

namespace LabelSelectorRequirement

variable (expr : LabelSelectorRequirement) (ls : StringMap String)

/-- The labels meet the expression. -/
def accepts : Bool :=
  match expr.asRequirement with
  | .ok r => r.matches ls
  | .error _ => false

/-- The labels fail the expression. -/
def rejects : Bool :=
  match expr.asRequirement with
  | .ok r => !r.matches ls
  | .error _ => false

end LabelSelectorRequirement

namespace LabelSelector

variable (sel : LabelSelector) (ls : StringMap String)

/-- The label pairs of a selector; a nil map has none. -/
def labels : StringMap String := sel.matchLabels.getD ∅

/-- The expressions of a selector; a nil slice has none. -/
def exprs : List LabelSelectorRequirement := sel.matchExpressions.getD []

/-- The labels meet every requirement. -/
def accepts : Bool :=
  sel.labels.toList.all (fun kv => ls[kv.1]? == some kv.2) && sel.exprs.all (·.accepts ls)

/-- The labels fail every requirement. -/
def rejects : Bool :=
  sel.labels.toList.all (fun kv => ls[kv.1]? != some kv.2) && sel.exprs.all (·.rejects ls)

/-- The selector has a label pair or an expression. -/
def HasRequirement : Prop := sel.labels.toList ≠ [] ∨ sel.exprs ≠ []

/-- The labels have every pair of the selector. -/
def LabelsHold : Prop := ∀ k v : String, sel.labels[k]? = some v → ls[k]? = some v

variable {sel ls}

theorem accepts_iff :
    sel.accepts ls = true ↔ sel.LabelsHold ls ∧ ∀ expr ∈ sel.exprs, expr.accepts ls = true := by
  simp only [accepts, Bool.and_eq_true, List.all_eq_true, beq_iff_eq, Prod.forall,
    Std.ExtTreeMap.mem_toList_iff_getElem?_eq_some, LabelsHold]

theorem rejects_iff :
    sel.rejects ls = true ↔
      (∀ k v : String, sel.labels[k]? = some v → ls[k]? ≠ some v) ∧
        ∀ expr ∈ sel.exprs, expr.rejects ls = true := by
  simp only [rejects, Bool.and_eq_true, List.all_eq_true, bne_iff_ne, Prod.forall,
    Std.ExtTreeMap.mem_toList_iff_getElem?_eq_some]

end LabelSelector

end CtrlMesh
