import ControllerMesh.Impl.Route

/-!
# Injection into pods

`injectByVirtualApp` of `webhook/pod/virutalapp_injection.go`, up to the VirtualApp
that a pod belongs to. What is put into the pod then is left out.
-/

namespace CtrlMesh

open Framework

/-- The loop of `injectByVirtualApp`: the VirtualApp whose selector matches the labels of
a pod. A selector that does not parse is skipped. The labels of each selector are
visited in any order. -/
def findMatchedVApp (orders : VirtualApp → RangeOrder) (podLabels : StringMap String) :
    List VirtualApp → Option VirtualApp → Except String (Option VirtualApp)
  | [], matchedVApp => .ok matchedVApp
  | vApp :: vApps, matchedVApp =>
    match validatedLabelSelectorAsSelectorIn (orders vApp) vApp.selector with
    | .error _ => findMatchedVApp orders podLabels vApps matchedVApp
    | .ok selector =>
      if selector.matches podLabels then
        match matchedVApp with
        | some matched =>
          .error ("multiple VirtualApp " ++ matched.name ++ " " ++ vApp.name ++ " matched")
        | none => findMatchedVApp orders podLabels vApps (some vApp)
      else findMatchedVApp orders podLabels vApps matchedVApp

end CtrlMesh
