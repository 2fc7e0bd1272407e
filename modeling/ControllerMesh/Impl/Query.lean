import ControllerMesh.Framework.UrlQuery
import ControllerMesh.Impl.Http
import ControllerMesh.Impl.Response
import ControllerMesh.Spec.Labels

/-!
# The label selector in a request

`injectSelector` of `proxy/apiserver/router/router.go` on the request itself: the
label selector is read from the raw query, merged with the selector of the
subset and written back. What is injected is the selector of
`CtrlMesh.injectSelector`.
-/

namespace CtrlMesh

open Framework Framework.Wire Framework.UrlQuery

/-- An expression that is a requirement. -/
def LabelSelector.ValidOperators (sel : LabelSelector) : Prop :=
  ∀ expr ∈ sel.exprs, ∃ r, expr.asRequirement = .ok r

/-- Selectors as texts: `metav1.ParseToLabelSelector`, which gives expressions with
known operators only, and `labels.Selector.String`. -/
structure SelectorSyntax where
  parseToLabelSelector : Bytes → Except String LabelSelector
  validOperators_parse {text : Bytes} {sel : LabelSelector} :
    parseToLabelSelector text = .ok sel → sel.ValidOperators
  selectorString : Selector → String

/-- The errors of `injectSelector`, by the call that they come from. -/
inductive InjectError where
  | rawQuery (text : Bytes)
  | escape (value : Bytes)
  | labelSelector (msg : String)
  | selector (msg : String)
  deriving DecidableEq, Repr

def labelSelectorKey : Bytes := textBytes "labelSelector"

variable (stx : SelectorSyntax)

/-- The selector that a request comes with; nil if there is none. -/
def SelectorSyntax.oldLabelSelector (raw : RawParams) :
    Except InjectError (Option LabelSelector) :=
  match raw.get? labelSelectorKey with
  | none => .ok none
  | some oldSelector =>
    match unescape oldSelector with
    | none => .error (.escape oldSelector)
    | some text =>
      match stx.parseToLabelSelector text with
      | .error err => .error (.labelSelector err)
      | .ok oldLabelSelector => .ok (some oldLabelSelector)

/-- `injectSelector`: the error, if there is one, and the request that is left. -/
def HttpRequest.injectSelector (order : EntryOrder) (httpReq : HttpRequest) (sel : LabelSelector) :
    Option InjectError × HttpRequest :=
  match parseRawQuery httpReq.url.rawQuery with
  | .error err => (some (.rawQuery err), httpReq)
  | .ok raw =>
    match stx.oldLabelSelector raw with
    | .error err => (some err, httpReq)
    | .ok oldLabelSelector =>
      match CtrlMesh.injectSelector (.ok oldLabelSelector) sel with
      | .error err => (some (.selector err), httpReq)
      | .ok selector =>
        let value := UrlQuery.escape (textBytes (stx.selectorString selector))
        (none,
          { httpReq with
            url := { httpReq.url with
              rawQuery := marshalRawQuery order (raw.insert labelSelectorKey value) }
            header := httpReq.header.add "Old-Raw-Query" httpReq.url.rawQuery })

end CtrlMesh
