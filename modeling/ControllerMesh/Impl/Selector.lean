import ControllerMesh.Framework.Container

/-!
# Label selectors

`metav1.LabelSelector` with the operations of `util/selector.go`, and the
matching of `labels.Selector` that they end in.

`reflect.DeepEqual` tells a nil map or slice from an empty one, and the proxy
compares selectors with it, so the maps and slices of a selector are options
here: `none` is nil.
-/

namespace CtrlMesh

open Framework

/-- `metav1.LabelSelectorOperator`: a string in the source, of which four
values are known. -/
inductive LabelSelectorOperator where
  | opIn
  | opNotIn
  | opExists
  | opDoesNotExist
  | other (text : String) (h : text ∉ ["In", "NotIn", "Exists", "DoesNotExist"])
  deriving DecidableEq

structure LabelSelectorRequirement where
  key : String
  operator : LabelSelectorOperator
  values : Option (List String)
  deriving DecidableEq

structure LabelSelector where
  matchLabels : Option (StringMap String)
  matchExpressions : Option (List LabelSelectorRequirement)
  deriving DecidableEq

/-- The pairs of `b` written over those of `a`. -/
def mergeMatchLabels (a : Option (StringMap String)) :
    Option (StringMap String) → Option (StringMap String)
  | none => a
  | some b => some (b.foldl (fun m k v => m.insert k v) (a.getD ∅))

/-- The expressions of `b` appended to those of `a`. -/
def mergeMatchExpressions (a : Option (List LabelSelectorRequirement)) :
    Option (List LabelSelectorRequirement) → Option (List LabelSelectorRequirement)
  | none => a
  | some b => appendSlice a b

/-- `MergeLabelSelector`. -/
def mergeLabelSelector (selA selB : Option LabelSelector) : Option LabelSelector :=
  match selA, selB with
  | a, none => a
  | none, some b => some b
  | some a, some b => some
    { matchLabels := mergeMatchLabels a.matchLabels b.matchLabels
      matchExpressions := mergeMatchExpressions a.matchExpressions b.matchExpressions }

/-- The operator `NegateLabelSelector` gives an expression; an unknown one
becomes the zero value. -/
def LabelSelectorOperator.negate : LabelSelectorOperator → LabelSelectorOperator
  | opIn => opNotIn
  | opNotIn => opIn
  | opExists => opDoesNotExist
  | opDoesNotExist => opExists
  | other _ _ => other "" (by decide)

/-- `NegateLabelSelector`. The requirements made from the labels are sorted by
key, so the order in which the loop visits them does not show. -/
def negateLabelSelector : Option LabelSelector → Option LabelSelector
  | none => none
  | some sel => some
    { matchLabels := none
      matchExpressions := appendSlice
        (appendSlice none ((sel.matchLabels.getD ∅).toList.map fun kv =>
          ⟨kv.1, .opNotIn, some [kv.2]⟩))
        ((sel.matchExpressions.getD []).map fun exp => ⟨exp.key, exp.operator.negate, exp.values⟩) }

/-! ## Matching -/

/-- The operators of `selection.Operator` that selectors are built with. -/
inductive SelectionOperator where
  | equals
  | isIn
  | notIn
  | isPresent
  | isAbsent
  deriving DecidableEq, Repr

/-- `labels.Requirement`. -/
structure Requirement where
  key : String
  operator : SelectionOperator
  strValues : List String
  deriving DecidableEq, Repr

/-- `Requirement.Matches`. -/
def Requirement.matches (r : Requirement) (ls : StringMap String) : Bool :=
  match r.operator with
  | .equals | .isIn =>
    match ls[r.key]? with
    | none => false
    | some v => r.strValues.contains v
  | .notIn =>
    match ls[r.key]? with
    | none => true
    | some v => !r.strValues.contains v
  | .isPresent => ls.contains r.key
  | .isAbsent => !ls.contains r.key

/-- `labels.Selector`: nothing, or a conjunction of requirements (everything,
if there are none). `Add` also sorts the requirements by key, which matching
does not depend on. -/
inductive Selector where
  | nothing
  | requirements (rs : List Requirement)
  deriving DecidableEq, Repr

def Selector.matches : Selector → StringMap String → Bool
  | nothing, _ => false
  | requirements rs, ls => rs.all (·.matches ls)

/-- The requirement of an expression, or the error for an unknown operator. -/
def LabelSelectorRequirement.asRequirement (expr : LabelSelectorRequirement) :
    Except String Requirement :=
  let values := expr.values.getD []
  match expr.operator with
  | .opIn => .ok ⟨expr.key, .isIn, values⟩
  | .opNotIn => .ok ⟨expr.key, .notIn, values⟩
  | .opExists => .ok ⟨expr.key, .isPresent, values⟩
  | .opDoesNotExist => .ok ⟨expr.key, .isAbsent, values⟩
  | .other text _ => .error ("\"" ++ text ++ "\" is not a valid pod selector operator")

/-- `ValidatedLabelSelectorAsSelector`. -/
def validatedLabelSelectorAsSelector : Option LabelSelector → Except String Selector
  | none => .ok .nothing
  | some ps => do
    let labels := (ps.matchLabels.getD ∅).toList.map fun kv => ⟨kv.1, .equals, [kv.2]⟩
    let exprs ← (ps.matchExpressions.getD []).mapM (·.asRequirement)
    return .requirements (labels ++ exprs)

/-- `ValidatedLabelSelectorAsSelector`, where the loop over the labels visits them in
any order. -/
def validatedLabelSelectorAsSelectorIn (o : RangeOrder) :
    Option LabelSelector → Except String Selector
  | none => .ok .nothing
  | some ps => do
    let labels := (o.entries (ps.matchLabels.getD ∅)).map fun kv => ⟨kv.1, .equals, [kv.2]⟩
    let exprs ← (ps.matchExpressions.getD []).mapM (·.asRequirement)
    return .requirements (labels ++ exprs)

/-! ## Validation

`metav1.LabelSelectorAsSelector` builds the same requirements, and checks each of
them. What it asks of keys and values is a parameter. -/

/-- The checks of `labels.NewRequirement` on keys and on values. -/
structure LabelValidation where
  validateLabelKey : String → Except String Unit
  validateLabelValue : String → String → Except String Unit

namespace LabelValidation

/-- The number of values that `NewRequirement` asks for. -/
def checkValues : SelectionOperator → List String → Except String Unit
  | .isIn, vals | .notIn, vals =>
    if vals.isEmpty then .error "for 'in', 'notin' operators, values set can't be empty" else .ok ()
  | .equals, vals =>
    if vals.length ≠ 1 then .error "exact-match compatibility requires one single value" else .ok ()
  | .isPresent, vals | .isAbsent, vals =>
    if vals.isEmpty then .ok () else .error "values set must be empty for exists and does not exist"

variable (lv : LabelValidation)

/-- `labels.NewRequirement`. -/
def newRequirement (r : Requirement) : Except String Requirement := do
  lv.validateLabelKey r.key
  checkValues r.operator r.strValues
  r.strValues.forM (lv.validateLabelValue r.key)
  return r

/-- `metav1.LabelSelectorAsSelector`. Of several errors among the labels it
returns any one. -/
def labelSelectorAsSelector : Option LabelSelector → Except String Selector
  | none => .ok .nothing
  | some ps => do
    let labels ← (ps.matchLabels.getD ∅).toList.mapM fun kv =>
      lv.newRequirement ⟨kv.1, .equals, [kv.2]⟩
    let exprs ← (ps.matchExpressions.getD []).mapM fun expr =>
      expr.asRequirement >>= lv.newRequirement
    return .requirements (labels ++ exprs)

/-- `metav1.LabelSelectorAsSelector`, where the loop over the labels visits them in any
order. -/
def labelSelectorAsSelectorIn (o : RangeOrder) : Option LabelSelector → Except String Selector
  | none => .ok .nothing
  | some ps => do
    let labels ← (o.entries (ps.matchLabels.getD ∅)).mapM fun kv =>
      lv.newRequirement ⟨kv.1, .equals, [kv.2]⟩
    let exprs ← (ps.matchExpressions.getD []).mapM fun expr =>
      expr.asRequirement >>= lv.newRequirement
    return .requirements (labels ++ exprs)

end LabelValidation

end CtrlMesh
