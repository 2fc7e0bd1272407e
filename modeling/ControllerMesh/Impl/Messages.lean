import ControllerMesh.Framework.Wire

/-!
# The messages of the mesh protocol

The messages of `apis/ctrlmesh/proto/ctrlmesh.proto`, with their wire
encodings. A repeated field is a list (nil and empty are the same on the
wire).

`Meta` (`specMeta`) and `Route` of a `ProxySpecV1` are pointers. The server always sets
both, and the proxy drops a received spec in which one is nil (`recv`), so a
`ProxySpecV1` here has both; `ProxySpecV1.Msg` is the message as it is decoded,
where either may be missing.
-/

namespace CtrlMesh

open Framework.Wire

structure APIGroupResourceV1 where
  apiGroups : List String
  resources : List String
  deriving DecidableEq, Repr

structure MatchLimitRuleV1 where
  namespaces : List String
  /-- The JSON text of a label selector, empty if there is none. -/
  objectSelector : String
  resources : List APIGroupResourceV1
  deriving DecidableEq, Repr

structure SubsetLimitV1 where
  subset : String
  limits : List MatchLimitRuleV1
  deriving DecidableEq, Repr

structure RouteV1 where
  subset : String
  globalLimits : List MatchLimitRuleV1
  subsetLimits : List SubsetLimitV1
  subsetPublicResources : List APIGroupResourceV1
  subsetDefaultOnlyUserAgents : List String
  deriving DecidableEq, Repr

structure EndpointV1 where
  name : String
  subset : String
  ip : String
  deriving DecidableEq, Repr

structure SpecMetaV1 where
  vAppName : String
  hash : String
  deriving DecidableEq, Repr

structure ProxySpecV1 where
  specMeta : SpecMetaV1
  route : RouteV1
  endpoints : List EndpointV1
  deriving DecidableEq, Repr

structure MetaStateV1 where
  subset : String
  expectedHash : String
  currentHash : String
  hashUnloadReason : String
  deriving DecidableEq, Repr

structure LeaderElectionStateV1 where
  identity : String
  isLeader : Bool
  deriving DecidableEq, Repr

/-- A status report of a proxy, without the `SelfInfo` that only its first
message carries. -/
structure ProxyStatusV1 where
  metaState : Option MetaStateV1
  leaderElectionState : Option LeaderElectionStateV1
  deriving DecidableEq, Repr

/-- A decoded spec, in which `Meta` or `Route` may be nil. -/
structure ProxySpecV1.Msg where
  specMeta : Option SpecMetaV1
  route : Option RouteV1
  endpoints : List EndpointV1
  deriving DecidableEq, Repr

/-- A spec as it is encoded. -/
def ProxySpecV1.msg (s : ProxySpecV1) : ProxySpecV1.Msg := ⟨some s.specMeta, some s.route, s.endpoints⟩

/-- The guard of `recv`: a spec without `Meta` or `Route` is dropped. -/
def ProxySpecV1.Msg.check (m : ProxySpecV1.Msg) : Option ProxySpecV1 := do
  let specMeta ← m.specMeta
  let route ← m.route
  some ⟨specMeta, route, m.endpoints⟩

@[simp] theorem ProxySpecV1.check_msg (s : ProxySpecV1) : s.msg.check = some s := rfl

/-! ## Wire encodings -/

def APIGroupResourceV1.codec : Codec APIGroupResourceV1 where
  empty := ⟨[], []⟩
  fields m := stringsField 1 m.apiGroups ++ stringsField 2 m.resources
  mergeField m f :=
    match f.num with
    | 1 => (ofUtf8 f.payload).map fun s => { m with apiGroups := m.apiGroups ++ [s] }
    | 2 => (ofUtf8 f.payload).map fun s => { m with resources := m.resources ++ [s] }
    | _ => some m
  merge a b := ⟨a.apiGroups ++ b.apiGroups, a.resources ++ b.resources⟩
  foldlM_fields a b := by
    rw [foldlM_append_of (foldlM_stringsField apiGroups (fun m l => { m with apiGroups := l })
      (fun _ _ => rfl) (fun _ => rfl) (fun _ _ => rfl) (fun _ _ _ => rfl) a b.apiGroups)]
    exact foldlM_stringsField resources (fun m l => { m with resources := l })
      (fun _ _ => rfl) (fun _ => rfl) (fun _ _ => rfl) (fun _ _ _ => rfl) _ _
  empty_merge _ := rfl

def MatchLimitRuleV1.codec : Codec MatchLimitRuleV1 where
  empty := ⟨[], "", []⟩
  fields m := stringsField 1 m.namespaces ++
    (stringField 2 m.objectSelector ++ messagesField APIGroupResourceV1.codec 3 m.resources)
  mergeField m f :=
    match f.num with
    | 1 => (ofUtf8 f.payload).map fun s => { m with namespaces := m.namespaces ++ [s] }
    | 2 => (ofUtf8 f.payload).map fun s => { m with objectSelector := s }
    | 3 => (APIGroupResourceV1.codec.unmarshal f.payload).map fun r =>
        { m with resources := m.resources ++ [r] }
    | _ => some m
  merge a b := ⟨a.namespaces ++ b.namespaces, mergeString a.objectSelector b.objectSelector,
    a.resources ++ b.resources⟩
  foldlM_fields a b := by
    rw [foldlM_append_of (foldlM_stringsField namespaces (fun m l => { m with namespaces := l })
        (fun _ _ => rfl) (fun _ => rfl) (fun _ _ => rfl) (fun _ _ _ => rfl) a b.namespaces),
      foldlM_append_of (foldlM_stringField objectSelector (fun m s => { m with objectSelector := s })
        (fun _ _ => rfl) (fun _ => rfl) _ b.objectSelector)]
    exact foldlM_messagesField _ resources (fun m l => { m with resources := l })
      (fun _ _ => rfl) (fun _ => rfl) (fun _ _ => rfl) (fun _ _ _ => rfl) _ _
  empty_merge _ := by simp

def SubsetLimitV1.codec : Codec SubsetLimitV1 where
  empty := ⟨"", []⟩
  fields m := stringField 1 m.subset ++ messagesField MatchLimitRuleV1.codec 2 m.limits
  mergeField m f :=
    match f.num with
    | 1 => (ofUtf8 f.payload).map fun s => { m with subset := s }
    | 2 => (MatchLimitRuleV1.codec.unmarshal f.payload).map fun r =>
        { m with limits := m.limits ++ [r] }
    | _ => some m
  merge a b := ⟨mergeString a.subset b.subset, a.limits ++ b.limits⟩
  foldlM_fields a b := by
    rw [foldlM_append_of (foldlM_stringField subset (fun m s => { m with subset := s })
      (fun _ _ => rfl) (fun _ => rfl) a b.subset)]
    exact foldlM_messagesField _ limits (fun m l => { m with limits := l })
      (fun _ _ => rfl) (fun _ => rfl) (fun _ _ => rfl) (fun _ _ _ => rfl) _ _
  empty_merge _ := by simp

def RouteV1.codec : Codec RouteV1 where
  empty := ⟨"", [], [], [], []⟩
  fields m := stringField 1 m.subset ++
    (messagesField MatchLimitRuleV1.codec 2 m.globalLimits ++
      (messagesField SubsetLimitV1.codec 3 m.subsetLimits ++
        (messagesField APIGroupResourceV1.codec 4 m.subsetPublicResources ++
          stringsField 5 m.subsetDefaultOnlyUserAgents)))
  mergeField m f :=
    match f.num with
    | 1 => (ofUtf8 f.payload).map fun s => { m with subset := s }
    | 2 => (MatchLimitRuleV1.codec.unmarshal f.payload).map fun r =>
        { m with globalLimits := m.globalLimits ++ [r] }
    | 3 => (SubsetLimitV1.codec.unmarshal f.payload).map fun r =>
        { m with subsetLimits := m.subsetLimits ++ [r] }
    | 4 => (APIGroupResourceV1.codec.unmarshal f.payload).map fun r =>
        { m with subsetPublicResources := m.subsetPublicResources ++ [r] }
    | 5 => (ofUtf8 f.payload).map fun s =>
        { m with subsetDefaultOnlyUserAgents := m.subsetDefaultOnlyUserAgents ++ [s] }
    | _ => some m
  merge a b := ⟨mergeString a.subset b.subset, a.globalLimits ++ b.globalLimits,
    a.subsetLimits ++ b.subsetLimits, a.subsetPublicResources ++ b.subsetPublicResources,
    a.subsetDefaultOnlyUserAgents ++ b.subsetDefaultOnlyUserAgents⟩
  foldlM_fields a b := by
    rw [foldlM_append_of (foldlM_stringField subset (fun m s => { m with subset := s })
        (fun _ _ => rfl) (fun _ => rfl) a b.subset),
      foldlM_append_of (foldlM_messagesField _ globalLimits (fun m l => { m with globalLimits := l })
        (fun _ _ => rfl) (fun _ => rfl) (fun _ _ => rfl) (fun _ _ _ => rfl) _ b.globalLimits),
      foldlM_append_of (foldlM_messagesField _ subsetLimits (fun m l => { m with subsetLimits := l })
        (fun _ _ => rfl) (fun _ => rfl) (fun _ _ => rfl) (fun _ _ _ => rfl) _ b.subsetLimits),
      foldlM_append_of (foldlM_messagesField _ subsetPublicResources
        (fun m l => { m with subsetPublicResources := l })
        (fun _ _ => rfl) (fun _ => rfl) (fun _ _ => rfl) (fun _ _ _ => rfl) _
        b.subsetPublicResources)]
    exact foldlM_stringsField subsetDefaultOnlyUserAgents
      (fun m l => { m with subsetDefaultOnlyUserAgents := l })
      (fun _ _ => rfl) (fun _ => rfl) (fun _ _ => rfl) (fun _ _ _ => rfl) _ _
  empty_merge _ := by simp

def EndpointV1.codec : Codec EndpointV1 where
  empty := ⟨"", "", ""⟩
  fields m := stringField 1 m.name ++ (stringField 2 m.subset ++ stringField 3 m.ip)
  mergeField m f :=
    match f.num with
    | 1 => (ofUtf8 f.payload).map fun s => { m with name := s }
    | 2 => (ofUtf8 f.payload).map fun s => { m with subset := s }
    | 3 => (ofUtf8 f.payload).map fun s => { m with ip := s }
    | _ => some m
  merge a b := ⟨mergeString a.name b.name, mergeString a.subset b.subset, mergeString a.ip b.ip⟩
  foldlM_fields a b := by
    rw [foldlM_append_of (foldlM_stringField name (fun m s => { m with name := s })
        (fun _ _ => rfl) (fun _ => rfl) a b.name),
      foldlM_append_of (foldlM_stringField subset (fun m s => { m with subset := s })
        (fun _ _ => rfl) (fun _ => rfl) _ b.subset)]
    exact foldlM_stringField ip (fun m s => { m with ip := s }) (fun _ _ => rfl) (fun _ => rfl) _ _
  empty_merge _ := by simp

def SpecMetaV1.codec : Codec SpecMetaV1 where
  empty := ⟨"", ""⟩
  fields m := stringField 1 m.vAppName ++ stringField 2 m.hash
  mergeField m f :=
    match f.num with
    | 1 => (ofUtf8 f.payload).map fun s => { m with vAppName := s }
    | 2 => (ofUtf8 f.payload).map fun s => { m with hash := s }
    | _ => some m
  merge a b := ⟨mergeString a.vAppName b.vAppName, mergeString a.hash b.hash⟩
  foldlM_fields a b := by
    rw [foldlM_append_of (foldlM_stringField vAppName (fun m s => { m with vAppName := s })
      (fun _ _ => rfl) (fun _ => rfl) a b.vAppName)]
    exact foldlM_stringField SpecMetaV1.hash (fun m s => { m with hash := s })
      (fun _ _ => rfl) (fun _ => rfl) _ _
  empty_merge _ := by simp

def ProxySpecV1.Msg.codec : Codec ProxySpecV1.Msg where
  empty := ⟨none, none, []⟩
  fields m := messageField SpecMetaV1.codec 1 m.specMeta ++
    (messageField RouteV1.codec 2 m.route ++ messagesField EndpointV1.codec 3 m.endpoints)
  mergeField m f :=
    match f.num with
    | 1 => (SpecMetaV1.codec.unmarshalInto (m.specMeta.getD SpecMetaV1.codec.empty) f.payload).map
        fun r => { m with specMeta := some r }
    | 2 => (RouteV1.codec.unmarshalInto (m.route.getD RouteV1.codec.empty) f.payload).map
        fun r => { m with route := some r }
    | 3 => (EndpointV1.codec.unmarshal f.payload).map fun r =>
        { m with endpoints := m.endpoints ++ [r] }
    | _ => some m
  merge a b := ⟨mergeMessage SpecMetaV1.codec a.specMeta b.specMeta,
    mergeMessage RouteV1.codec a.route b.route, a.endpoints ++ b.endpoints⟩
  foldlM_fields a b := by
    rw [foldlM_append_of (foldlM_messageField _ Msg.specMeta (fun m s => { m with specMeta := s })
        (fun _ _ => rfl) (fun _ => rfl) a b.specMeta),
      foldlM_append_of (foldlM_messageField _ Msg.route (fun m s => { m with route := s })
        (fun _ _ => rfl) (fun _ => rfl) _ b.route)]
    exact foldlM_messagesField _ Msg.endpoints (fun m l => { m with endpoints := l })
      (fun _ _ => rfl) (fun _ => rfl) (fun _ _ => rfl) (fun _ _ _ => rfl) _ _
  empty_merge _ := by simp

end CtrlMesh
