import ControllerMesh.Impl.LeaderElection

/-!
# Locks behind the proxy

What `Handle` does with a request, case by case (`handle_cases`), and what
follows for locks:

* `handle_untouched_iff`: a request that is not handled is left as it was, unless
  its body has been read to find out whether it creates the lock;
* `LockRequest.addresses_iff`: of the requests for a lock, those that create it,
  get it by its own name or update it by the name of the subset address the lock
  of the subset;
* `leader_follows_iff`: when the leader that is reported is the holder that the
  API server has accepted.
-/

namespace CtrlMesh.LeaderElection

open Framework Framework.Wire

variable {codec : Codec} {h : Handler} {req : RequestInfo} {r : HttpRequest}

/-- The resource of a request. -/
def RequestInfo.gvr (req : RequestInfo) : GroupVersionResource :=
  ⟨req.apiGroup, req.apiVersion, req.resource⟩

/-- A request that may create a lock: its body has to be read to find out. -/
def Handler.Creates (h : Handler) (req : RequestInfo) : Prop :=
  h.concerns req = true ∧ (lockKind req.gvr).isSome ∧ req.verb = "create"

/-- `Handle` leaves a request alone, or treats it as one of three verbs. -/
theorem handle_cases (codec : Codec) (h : Handler) (req : RequestInfo) (r : HttpRequest) :
    (h.handle codec req r = ⟨false, none, none, r⟩ ∧ ¬h.Creates req) ∨
      ∃ kind, h.concerns req = true ∧ lockKind req.gvr = some kind ∧
        ((req.verb = "create" ∧ h.handle codec req r = h.create codec kind r) ∨
          (req.verb = "update" ∧ h.handle codec req r = update codec kind r) ∨
          (req.verb = "get" ∧ h.handle codec req r = h.get r)) := by
  unfold Handler.handle Handler.Creates
  cases hconcerns : h.concerns req with
  | false => exact .inl ⟨by simp, by simp⟩
  | true =>
    cases hkind : lockKind req.gvr with
    | none =>
      refine .inl ⟨?_, by simp⟩
      rw [RequestInfo.gvr] at hkind
      simp [hkind]
    | some kind =>
      rw [RequestInfo.gvr] at hkind
      simp only [hkind, Bool.not_true, Bool.false_eq_true, if_false]
      by_cases hcreate : req.verb = "create"
      · exact .inr ⟨kind, trivial, rfl, .inl ⟨hcreate, if_pos hcreate⟩⟩
      · by_cases hupdate : req.verb = "update"
        · refine .inr ⟨kind, trivial, rfl, .inr (.inl ⟨hupdate, ?_⟩)⟩
          rw [if_neg hcreate, if_pos hupdate]
        · by_cases hget : req.verb = "get"
          · refine .inr ⟨kind, trivial, rfl, .inr (.inr ⟨hget, ?_⟩)⟩
            rw [if_neg hcreate, if_neg hupdate, if_pos hget]
          · refine .inl ⟨?_, by simp [hcreate]⟩
            rw [if_neg hcreate, if_neg hupdate, if_neg hget]

/-! ## Decoding and encoding -/

/-- Decoding an object reads the whole body, and nothing else is changed. -/
theorem decodeFrom_eq_ok {kind : LockKind} {obj : LockObject} {r' : HttpRequest}
    (hdecode : decodeFrom codec kind r = (.ok obj, r')) :
    ∃ ser body, getSerializer codec r = .ok ser ∧ r.body = some body ∧ body.err = none ∧
      ser.decode kind body.bytes = .ok obj ∧ r' = { r with body := some ⟨[], none⟩ } := by
  unfold decodeFrom at hdecode
  cases hser : getSerializer codec r with
  | error err => simp [hser] at hdecode
  | ok ser =>
    simp only [hser] at hdecode
    cases hbody : r.body with
    | none => simp [hbody, decodeObject] at hdecode
    | some body =>
      simp only [hbody, decodeObject] at hdecode
      cases herr : body.err with
      | some err => simp [herr] at hdecode
      | none =>
        simp only [herr] at hdecode
        cases hdec : ser.decode kind body.bytes with
        | error err => simp [hdec] at hdecode
        | ok obj' =>
          simp only [hdec, Prod.mk.injEq, Except.ok.injEq] at hdecode
          obtain ⟨rfl, rfl⟩ := hdecode
          exact ⟨ser, body, rfl, rfl, herr, hdec, rfl⟩

theorem getSerializer_eq_ok {ser : Serializer} :
    getSerializer codec r = .ok ser ↔
      r.header.get "Content-Type" ≠ [] ∧
        (codec.parseMediaType (r.header.get "Content-Type")).2 = none ∧
          ∃ info, codec.supportedMediaTypes.find?
              (·.1 = (codec.parseMediaType (r.header.get "Content-Type")).1) = some info ∧
            info.2 = ser := by
  simp only [getSerializer]
  by_cases hct : r.header.get "Content-Type" = []
  · simp [hct]
  · cases herr : (codec.parseMediaType (r.header.get "Content-Type")).2 with
    | some err => simp [hct]
    | none =>
      cases hfind : codec.supportedMediaTypes.find?
        (·.1 = (codec.parseMediaType (r.header.get "Content-Type")).1) with
      | none => simp [hct]
      | some info => simp [hct]

/-- The media type stays when a lock is encoded into a request. -/
theorem get_set_of_ne {hd : Header} {key key' : String} (hne : key ≠ key') (value : Bytes) :
    (hd.set key value).get key' = hd.get key' := by
  simp only [Header.get, Header.set, StringMap.getElem?_insert, if_neg hne]

/-- What is encoded is decoded with its name. -/
def Codec.KeepsNames (codec : Codec) : Prop :=
  ∀ info ∈ codec.supportedMediaTypes, ∀ kind obj, ∃ obj',
    info.2.decode kind (info.2.encode kind obj) = .ok obj' ∧ obj'.name = obj.name

/-- An object that has been encoded into a request is decoded with its name. -/
theorem decodeFrom_encodeInto (hcodec : codec.KeepsNames) {ser : Serializer}
    (hser : getSerializer codec r = .ok ser) (kind : LockKind)
    (obj : LockObject) :
    ∃ obj', (decodeFrom codec kind (encodeInto codec kind obj r)).1 = .ok obj' ∧
      obj'.name = obj.name := by
  obtain ⟨hct, herr, info, hinfo, rfl⟩ := getSerializer_eq_ok.mp hser
  obtain ⟨obj', hobj', hname⟩ := hcodec info (List.mem_of_find?_eq_some hinfo) kind obj
  have hser' : getSerializer codec (encodeInto codec kind obj r) = .ok info.2 := by
    rw [getSerializer_eq_ok]
    simp only [encodeInto, hser, get_set_of_ne (show "Content-Length" ≠ "Content-Type" by decide)]
    exact ⟨hct, herr, info, hinfo, rfl⟩
  refine ⟨obj', ?_, hname⟩
  simp only [decodeFrom, hser']
  simp only [encodeInto, hser, encodeObject, decodeObject, hobj']

theorem url_encodeInto (kind : LockKind) (obj : LockObject) (r : HttpRequest) :
    (encodeInto codec kind obj r).url = r.url := by
  unfold encodeInto
  split <;> rfl

/-! ## Requests that are not handled -/

/-- The request is as it was, as far as it can still be read. -/
structure Untouched (r r' : HttpRequest) : Prop where
  url : r'.url = r.url
  header : r'.header = r.header
  contentLength : r'.contentLength = r.contentLength
  yields : r'.yields = r.yields

theorem Untouched.rfl (r : HttpRequest) : Untouched r r := ⟨.refl _, .refl _, .refl _, .refl _⟩

theorem handled_sendLock (kind : LockKind) (obj : LockObject) (name : String) (r : HttpRequest) :
    (sendLock codec kind obj name r).handled = true := by
  unfold sendLock
  split <;> rfl

theorem handled_update (kind : LockKind) (r : HttpRequest) : (update codec kind r).handled = true := by
  unfold update
  split
  · rfl
  · exact handled_sendLock _ _ _ _

/-- A create that is not handled has been decoded to find another name. -/
theorem create_of_not_handled {kind : LockKind} (hh : (h.create codec kind r).handled = false) :
    ∃ obj r', decodeFrom codec kind r = (.ok obj, r') ∧
      h.create codec kind r = ⟨false, none, none, r'⟩ := by
  unfold Handler.create at hh ⊢
  cases hdecode : decodeFrom codec kind r with
  | mk result r' =>
    cases result with
    | error err => simp [hdecode] at hh
    | ok obj =>
      simp only [hdecode] at hh ⊢
      by_cases hname : obj.name ≠ h.lockName
      · exact ⟨obj, r', rfl, if_pos hname⟩
      · rw [if_neg hname, handled_sendLock] at hh
        cases hh

/-- A request that is not handled is left untouched if and only if it creates no
object of a lock's kind, or has no bytes in its body. -/
theorem handle_untouched_iff (hh : (h.handle codec req r).handled = false) :
    Untouched r (h.handle codec req r).request ↔ (h.Creates req → r.yields = []) := by
  rcases handle_cases codec h req r with ⟨hsame, hcreates⟩ | ⟨kind, hconcerns, hkind, hverb⟩
  · rw [hsame]
    exact iff_of_true (Untouched.rfl r) fun hc => absurd hc hcreates
  · rcases hverb with ⟨hcreate, heq⟩ | ⟨-, heq⟩ | ⟨-, heq⟩
    · rw [heq] at hh ⊢
      obtain ⟨obj, r', hdecode, hresult⟩ := create_of_not_handled hh
      obtain ⟨ser, body, -, -, -, -, rfl⟩ := decodeFrom_eq_ok hdecode
      rw [hresult]
      have hcreates : h.Creates req := ⟨hconcerns, by rw [hkind]; rfl, hcreate⟩
      constructor
      · intro hu _
        exact hu.yields.symm
      · intro hempty
        exact ⟨.refl _, .refl _, .refl _, (hempty hcreates).symm⟩
    · rw [heq, handled_update] at hh
      cases hh
    · rw [heq] at hh
      cases hh

/-- Leases written as their names, all of them held by `holder`. -/
def sampleCodec (holder : String) : Codec where
  parseMediaType bs := ((bytesText bs).getD "", none)
  supportedMediaTypes := [("application/json",
    { decode := fun _ bs => match bytesText bs with
        | some name => .ok ⟨name, ∅, some holder, ""⟩
        | none => .error "invalid text"
      encode := fun _ obj => textBytes obj.name })]
  unmarshalRecord := .ok
  dumpHeader _ := ""

def sampleHandler : Handler := ⟨"ns", "lock", "canary"⟩

def sampleInfo (verb name : String) : RequestInfo where
  isResourceRequest := true
  verb := verb
  apiGroup := "coordination.k8s.io"
  apiVersion := "v1"
  resource := "leases"
  namespaceName := "ns"
  subresource := ""
  name := name

def samplePath : String := "/apis/coordination.k8s.io/v1/namespaces/ns/leases/"

def sampleRequest (path body : String) : HttpRequest :=
  { url := ⟨path, []⟩
    header := ({} : Header).set "Content-Type" (textBytes "application/json")
    contentLength := (textBytes body).length
    body := some ⟨textBytes body, none⟩ }

/-- A patch of the lock. -/
theorem handle_untouched_sampleRequest :
    (sampleRequest (samplePath ++ "lock") "patch").yields ≠ [] ∧
      Untouched (sampleRequest (samplePath ++ "lock") "patch")
        (sampleHandler.handle (sampleCodec "a") (sampleInfo "patch" "lock")
          (sampleRequest (samplePath ++ "lock") "patch")).request := by
  refine ⟨by decide +kernel, (handle_untouched_iff (by decide +kernel)).mpr ?_⟩
  rintro ⟨-, -, hverb⟩
  exact absurd hverb (by decide)

/-- A lease of another name is created: the request goes on without its body. -/
theorem not_handle_untouched_sampleRequest :
    (sampleHandler.handle (sampleCodec "a") (sampleInfo "create" "")
        (sampleRequest samplePath "other")).handled = false ∧
      ¬Untouched (sampleRequest samplePath "other")
        (sampleHandler.handle (sampleCodec "a") (sampleInfo "create" "")
          (sampleRequest samplePath "other")).request := by
  constructor
  · decide +kernel
  · intro h
    have hyields := h.yields
    revert hyields
    decide +kernel

/-! ## Names of locks -/

/-- The object that a request is about: the one in its body if it creates it, else
the one at the end of its path, behind `base`. -/
def Addresses (codec : Codec) (req : RequestInfo) (base : String) (r : HttpRequest)
    (name : String) : Prop :=
  if req.verb = "create" then
    ∃ kind obj, lockKind req.gvr = some kind ∧ (decodeFrom codec kind r).1 = .ok obj ∧
      obj.name = name
  else r.url.path = base ++ name

/-- A request for the lock from a pod of a subset, that `Handle` handles: it
creates an object of the lock's name, or its path ends in the name of the lock
or of the subset's lock. -/
structure LockRequest (codec : Codec) (lockName : String) where
  namespaceName : String
  subset : String
  subset_ne : subset ≠ ""
  req : RequestInfo
  r : HttpRequest
  base : String
  handled : (Handler.handle codec ⟨namespaceName, lockName, subset⟩ req r).handled = true
  sent : (Handler.handle codec ⟨namespaceName, lockName, subset⟩ req r).retErr = none
  named : req.verb ≠ "create" →
    (req.name = lockName ∨ req.name = setSubsetIntoName lockName subset) ∧
      r.url.path = base ++ req.name

namespace LockRequest

variable {lockName : String}

/-- The request as it is sent on. -/
def forwarded (q : LockRequest codec lockName) : HttpRequest :=
  (Handler.handle codec ⟨q.namespaceName, lockName, q.subset⟩ q.req q.r).request

/-- The name of the lock of the subset. -/
def subsetLock (q : LockRequest codec lockName) : String := setSubsetIntoName lockName q.subset

/-- The requests that are rewritten to the lock of the subset: a get is rewritten
once, an update is not. -/
def NameFits (q : LockRequest codec lockName) : Prop :=
  q.req.verb = "create" ∨ (q.req.verb = "get" ∧ q.req.name = lockName) ∨
    (q.req.verb = "update" ∧ q.req.name = q.subsetLock)

end LockRequest

theorem setSubsetIntoName_ne (name subset : String) : setSubsetIntoName name subset ≠ name := by
  intro h
  have hlen := congrArg String.length h
  have hdashes : "---".length = 3 := rfl
  simp only [setSubsetIntoName, String.length_append] at hlen
  omega

theorem setSubsetIntoName_inj {name subset subset' : String}
    (h : setSubsetIntoName name subset = setSubsetIntoName name subset') : subset = subset' :=
  (String.append_right_inj _).mp h

theorem lastReplace_append_self (base old new : String) :
    lastReplace (base ++ old) old new = base ++ new := by
  rw [lastReplace, String.toList_append, Framework.lastReplace_append_self, ← String.toList_append,
    String.ofList_toList]

/-- A name that has been rewritten is rewritten again. -/
theorem lastReplace_ne (base name subset : String) :
    lastReplace (base ++ setSubsetIntoName name subset) name (setSubsetIntoName name subset) ≠
      base ++ setSubsetIntoName name subset := by
  intro h
  have hlist := congrArg String.toList h
  rw [lastReplace, String.toList_ofList] at hlist
  have hsome : (lastIndex name.toList (base ++ setSubsetIntoName name subset).toList).isSome := by
    simp only [setSubsetIntoName, String.toList_append, List.append_assoc]
    exact lastIndex_isSome _ _ _
  have hlen := length_lastReplace hsome (setSubsetIntoName name subset).toList
  rw [hlist] at hlen
  simp [setSubsetIntoName] at hlen

/-- A lock that is sent is encoded into the request, and its holder is reported. -/
theorem sendLock_of_sent {kind : LockKind} {obj : LockObject} {name : String}
    (herr : (sendLock codec kind obj name r).retErr = none) :
    ∃ holder, getHoldIdentity codec obj kind = some holder ∧
      sendLock codec kind obj name r =
        ⟨true, some holder, none, encodeInto codec kind { obj with name := name } r⟩ := by
  unfold sendLock at herr ⊢
  cases hholder : getHoldIdentity codec obj kind with
  | none => simp [hholder] at herr
  | some holder => exact ⟨holder, rfl, rfl⟩

/-- A create that is sent. -/
theorem create_of_sent {kind : LockKind} (hh : (h.create codec kind r).handled = true)
    (herr : (h.create codec kind r).retErr = none) :
    ∃ obj r' holder, decodeFrom codec kind r = (.ok obj, r') ∧
      getHoldIdentity codec obj kind = some holder ∧
        h.create codec kind r = ⟨true, some holder, none, encodeInto codec kind
          { obj with name := if h.subset ≠ "" then setSubsetIntoName h.lockName h.subset
            else obj.name } r'⟩ := by
  unfold Handler.create at hh herr ⊢
  cases hdecode : decodeFrom codec kind r with
  | mk result r' =>
    cases result with
    | error err => simp [hdecode] at herr
    | ok obj =>
      simp only [hdecode] at hh herr ⊢
      by_cases hname : obj.name ≠ h.lockName
      · rw [if_pos hname] at hh
        cases hh
      · rw [if_neg hname] at herr ⊢
        obtain ⟨holder, hholder, heq⟩ := sendLock_of_sent herr
        exact ⟨obj, r', holder, rfl, hholder, heq⟩

/-- An update that is sent. -/
theorem update_of_sent {kind : LockKind} (herr : (update codec kind r).retErr = none) :
    ∃ obj r' holder, decodeFrom codec kind r = (.ok obj, r') ∧
      getHoldIdentity codec obj kind = some holder ∧
        update codec kind r = ⟨true, some holder, none, encodeInto codec kind obj r'⟩ := by
  unfold update at herr ⊢
  cases hdecode : decodeFrom codec kind r with
  | mk result r' =>
    cases result with
    | error err => simp [hdecode] at herr
    | ok obj =>
      simp only [hdecode] at herr ⊢
      obtain ⟨holder, hholder, heq⟩ := sendLock_of_sent herr
      exact ⟨obj, r', holder, rfl, hholder, heq⟩

namespace LockRequest

variable {lockName : String} (q : LockRequest codec lockName)

theorem addresses_subsetLock_iff (hcodec : codec.KeepsNames) :
    Addresses codec q.req q.base q.forwarded q.subsetLock ↔ q.NameFits := by
  have hhandled := q.handled
  have hsent := q.sent
  unfold Addresses NameFits forwarded
  rcases handle_cases codec ⟨q.namespaceName, lockName, q.subset⟩ q.req q.r with
    ⟨hsame, -⟩ | ⟨kind, -, hkind, ⟨hverb, heq⟩ | ⟨hverb, heq⟩ | ⟨hverb, heq⟩⟩
  · rw [hsame] at hhandled
    cases hhandled
  · -- the object is encoded under the name of the subset's lock
    rw [heq] at hhandled hsent ⊢
    obtain ⟨obj, r', holder, hdecode, -, hrequest⟩ := create_of_sent hhandled hsent
    obtain ⟨ser, body, hser, -, -, -, rfl⟩ := decodeFrom_eq_ok hdecode
    obtain ⟨obj', hobj', hname⟩ := decodeFrom_encodeInto hcodec (r := { q.r with body := some ⟨[], none⟩ })
      hser kind { obj with name := setSubsetIntoName lockName q.subset }
    rw [if_pos hverb, hrequest, if_pos q.subset_ne]
    exact iff_of_true ⟨kind, obj', hkind, hobj', hname⟩ (.inl hverb)
  · -- the path stays as it is
    rw [heq] at hsent ⊢
    have hne : q.req.verb ≠ "create" := by rw [hverb]; decide
    obtain ⟨-, hpath⟩ := q.named hne
    obtain ⟨obj, r', holder, hdecode, -, hrequest⟩ := update_of_sent hsent
    obtain ⟨ser, body, -, -, -, -, rfl⟩ := decodeFrom_eq_ok hdecode
    rw [if_neg hne, hrequest, url_encodeInto, hpath, String.append_right_inj]
    simp [hverb]
  · rw [heq]
    have hne : q.req.verb ≠ "create" := by rw [hverb]; decide
    obtain ⟨hname, hpath⟩ := q.named hne
    rw [if_neg hne]
    simp only [Handler.get, if_pos q.subset_ne, hpath, hverb, true_and]
    rcases hname with hname | hname
    · rw [hname, lastReplace_append_self]
      simp [subsetLock]
    · rw [hname]
      refine iff_of_false (lastReplace_ne _ _ _) ?_
      simp [setSubsetIntoName_ne]

/-- A request addresses one object. -/
theorem addresses_unique {name name' : String}
    (h : Addresses codec q.req q.base q.forwarded name)
    (h' : Addresses codec q.req q.base q.forwarded name') : name = name' := by
  unfold Addresses at h h'
  split_ifs at h h'
  · obtain ⟨kind, obj, hkind, hobj, rfl⟩ := h
    obtain ⟨kind', obj', hkind', hobj', rfl⟩ := h'
    obtain rfl : kind = kind' := Option.some.inj (hkind.symm.trans hkind')
    rw [Except.ok.inj (hobj.symm.trans hobj')]
  · exact (String.append_right_inj _).mp (h.symm.trans h')

/-- A request for the lock addresses the lock of the subset if and only if it
creates it, gets it by its own name or updates it by the name of the subset; and
of these no two from different subsets address one object. -/
theorem addresses_iff (hcodec : codec.KeepsNames) :
    (Addresses codec q.req q.base q.forwarded q.subsetLock ↔ q.NameFits) ∧
      ∀ q' : LockRequest codec lockName, q'.subset ≠ q.subset → q.NameFits → q'.NameFits →
        ∀ name, Addresses codec q.req q.base q.forwarded name →
          ¬Addresses codec q'.req q'.base q'.forwarded name := by
  refine ⟨q.addresses_subsetLock_iff hcodec, fun q' hsubset hfits hfits' name hname hname' => ?_⟩
  have heq := q.addresses_unique hname ((q.addresses_subsetLock_iff hcodec).mpr hfits)
  have heq' := q'.addresses_unique hname' ((q'.addresses_subsetLock_iff hcodec).mpr hfits')
  exact hsubset (setSubsetIntoName_inj (heq'.symm.trans heq))

end LockRequest

theorem keepsNames_sampleCodec (holder : String) : (sampleCodec holder).KeepsNames := by
  intro info hinfo kind obj
  obtain rfl := List.mem_singleton.mp hinfo
  simp [bytesText_textBytes]

/-- A request for the sample lock by a pod of a subset. -/
def sampleLockRequest (subset verb name path body : String) (hsubset : subset ≠ "")
    (hresult : ((Handler.handle (sampleCodec "a") ⟨"ns", "lock", subset⟩ (sampleInfo verb name)
        (sampleRequest path body)).handled,
      (Handler.handle (sampleCodec "a") ⟨"ns", "lock", subset⟩ (sampleInfo verb name)
        (sampleRequest path body)).retErr) = (true, none))
    (hnamed : (name = "lock" ∨ name = setSubsetIntoName "lock" subset) ∧
      path = samplePath ++ name) :
    LockRequest (sampleCodec "a") "lock" where
  namespaceName := "ns"
  subset := subset
  subset_ne := hsubset
  req := sampleInfo verb name
  r := sampleRequest path body
  base := samplePath
  handled := (Prod.mk.inj hresult).1
  sent := (Prod.mk.inj hresult).2
  named := fun _ => hnamed

/-- The lock is fetched by its own name. -/
def sampleGet : LockRequest (sampleCodec "a") "lock" :=
  sampleLockRequest "canary" "get" "lock" (samplePath ++ "lock") "" (by decide) (by decide +kernel)
    ⟨.inl rfl, rfl⟩

theorem addresses_sampleGet :
    Addresses (sampleCodec "a") sampleGet.req sampleGet.base sampleGet.forwarded "lock---canary" :=
  ((sampleGet.addresses_iff (keepsNames_sampleCodec "a")).1).mpr (.inr (.inl ⟨rfl, rfl⟩))

/-- The lock of the subset is fetched by its name: another object is fetched. The
lock is updated by its own name, from pods of two subsets: both update one
object. -/
theorem not_addresses_sampleGetAgain :
    ∃ getAgain update update' : LockRequest (sampleCodec "a") "lock",
      update.subset ≠ update'.subset ∧
        getAgain.forwarded.url.path = samplePath ++ "lock---canary---canary" ∧
          update.forwarded.url.path = samplePath ++ "lock" ∧
            update'.forwarded.url.path = samplePath ++ "lock" :=
  ⟨sampleLockRequest "canary" "get" "lock---canary" (samplePath ++ "lock---canary") "" (by decide)
      (by decide +kernel) ⟨.inr rfl, rfl⟩,
    sampleLockRequest "canary" "update" "lock" (samplePath ++ "lock") "lock" (by decide)
      (by decide +kernel) ⟨.inl rfl, rfl⟩,
    sampleLockRequest "beta" "update" "lock" (samplePath ++ "lock") "lock" (by decide)
      (by decide +kernel) ⟨.inl rfl, rfl⟩,
    by decide, by decide +kernel, by decide +kernel, by decide +kernel⟩

/-! ## Who is reported as the leader -/

/-- A request, and the status that the API server answers it with if it is sent. -/
structure Exchange where
  req : RequestInfo
  r : HttpRequest
  statusCode : Nat

/-- The holder that a write of a lock gives: the one in the object that is sent. -/
def Handler.writes (codec : Codec) (h : Handler) (x : Exchange) : Option String :=
  let result := h.handle codec x.req x.r
  if result.handled ∧ result.retErr = none ∧ (x.req.verb = "create" ∨ x.req.verb = "update") then
    match lockKind x.req.gvr with
    | none => none
    | some kind =>
      match (decodeFrom codec kind x.r).1 with
      | .ok obj => getHoldIdentity codec obj kind
      | .error _ => none
  else none

/-- A create is accepted with 201, an update with 200. -/
def Exchange.Accepted (x : Exchange) : Prop :=
  (x.req.verb = "create" ∧ x.statusCode = 201) ∨ (x.req.verb = "update" ∧ x.statusCode = 200)

instance (x : Exchange) : Decidable x.Accepted := inferInstanceAs (Decidable (_ ∨ _))

/-- A spec manager, and the state that the accepted writes make. -/
structure Tracked where
  specManager : SpecManager
  accepted : Option LeaderElectionStateV1

/-- The state of a lock that is held by `holder`, or by nobody. -/
def heldBy (holder : String) : LeaderElectionStateV1 := ⟨holder, holder ≠ ""⟩

/-- A request through the proxy and back. -/
def Tracked.exchange (codec : Codec) (h : Handler) (t : Tracked) (x : Exchange) : Tracked where
  specManager := h.serve codec t.specManager x.req x.r x.statusCode
  accepted :=
    match h.writes codec x with
    | none => t.accepted
    | some holder => if x.Accepted then some (heldBy holder) else t.accepted

def exchanges (codec : Codec) (h : Handler) (t : Tracked) : System Tracked Exchange :=
  ⟨t, fun t x => some (t.exchange codec h x)⟩

/-- The leader that is reported is the holder that has been accepted. -/
def Tracked.Follows (t : Tracked) : Prop := t.specManager.leaderElectionState = t.accepted

/-- What is needed of a write: the status 200 is taken for an accepted write, and a
lock is taken to be held. -/
def Handler.ReportsWrite (codec : Codec) (h : Handler) (t : Tracked) (x : Exchange) : Prop :=
  ∀ holder, h.writes codec x = some holder →
    (x.req.verb = "create" → x.statusCode = 201 → t.accepted = some (heldBy holder)) ∧
    (x.req.verb = "create" → x.statusCode = 200 → t.accepted = some ⟨holder, true⟩) ∧
    (x.req.verb = "update" → x.statusCode = 200 → holder ≠ "")

/-- The holder that is reported is the one in the body that was sent. -/
theorem writes_eq (x : Exchange) (herr : (h.handle codec x.req x.r).retErr = none) :
    h.writes codec x = (h.handle codec x.req x.r).modifyResponse := by
  unfold Handler.writes
  rcases handle_cases codec h x.req x.r with
    ⟨hsame, -⟩ | ⟨kind, -, hkind, ⟨hverb, heq⟩ | ⟨hverb, heq⟩ | ⟨hverb, heq⟩⟩
  · simp [hsame]
  · rw [heq] at herr
    cases hhandled : (h.create codec kind x.r).handled with
    | false =>
      obtain ⟨obj, r', -, hresult⟩ := create_of_not_handled hhandled
      simp [heq, hresult]
    | true =>
      obtain ⟨obj, r', holder, hdecode, hholder, hresult⟩ := create_of_sent hhandled herr
      simp [heq, hresult, hverb, hkind, hdecode, hholder]
  · rw [heq] at herr
    obtain ⟨obj, r', holder, hdecode, hholder, hresult⟩ := update_of_sent herr
    simp [heq, hresult, hverb, hkind, hdecode, hholder]
  · simp [heq, hverb, Handler.get]

theorem serve_eq (sm : SpecManager) (x : Exchange) :
    h.serve codec sm x.req x.r x.statusCode =
      (h.writes codec x).elim sm fun holder => reportLeader sm holder x.statusCode := by
  simp only [Handler.serve]
  cases herr : (h.handle codec x.req x.r).retErr with
  | some err => simp [Handler.writes, herr]
  | none =>
    rw [writes_eq x herr]
    cases (h.handle codec x.req x.r).modifyResponse with
    | none => rfl
    | some holder => rfl

theorem verb_of_writes {x : Exchange} {holder : String} (hwrites : h.writes codec x = some holder) :
    x.req.verb = "create" ∨ x.req.verb = "update" := by
  by_contra hverb
  simp [Handler.writes, hverb] at hwrites

theorem leaderElectionState_reportLeader (sm : SpecManager) (holder : String) (statusCode : Nat) :
    (reportLeader sm holder statusCode).leaderElectionState =
      if statusCode = 200 then some ⟨holder, true⟩ else sm.leaderElectionState := by
  unfold reportLeader
  split <;> rfl

theorem follows_exchange {t : Tracked} (ht : t.Follows) (x : Exchange) :
    (t.exchange codec h x).Follows ↔ h.ReportsWrite codec t x := by
  unfold Tracked.Follows at ht ⊢
  unfold Tracked.exchange Handler.ReportsWrite
  dsimp only
  rw [serve_eq]
  cases hwrites : h.writes codec x with
  | none => simpa using ht
  | some holder =>
    simp only [Option.elim_some, Option.some.injEq, forall_eq', leaderElectionState_reportLeader,
      ht, Exchange.Accepted]
    have hheld : (⟨holder, true⟩ : LeaderElectionStateV1) = heldBy holder ↔ holder ≠ "" := by
      simp [heldBy]
    by_cases hcreate : x.req.verb = "create"
    · by_cases h201 : x.statusCode = 201
      · simp [hcreate, h201]
      · by_cases h200 : x.statusCode = 200
        · simp [hcreate, h200, eq_comm]
        · simp [hcreate, h201, h200]
    · have hupdate : x.req.verb = "update" := (verb_of_writes hwrites).resolve_left hcreate
      by_cases h200 : x.statusCode = 200
      · simpa [hupdate, h200] using hheld
      · simp [hupdate, h200]

/-- In every run of requests through the proxy, the leader that is reported follows
the accepted writes of the lock exactly when every write meets the condition. -/
theorem leader_follows_iff {t t' : Tracked} (ht : t.Follows) {xs : List Exchange}
    (hrun : (exchanges codec h t).run xs = some t') :
    (exchanges codec h t).States Tracked.Follows t xs ↔
      (exchanges codec h t).Steps (h.ReportsWrite codec) t xs := by
  refine (exchanges codec h t).states_iff_steps (I := fun _ => True) (fun _ _ _ => trivial) ?_
    (fun _ _ => trivial) trivial ht hrun
  intro s x s' _ hs hstep
  obtain rfl := Option.some.inj hstep
  exact follows_exchange hs x

/-- A lock is taken over with an update, and an update is refused after that. -/
def sampleUpdates : List Exchange :=
  [⟨sampleInfo "update" "lock---canary", sampleRequest (samplePath ++ "lock---canary") "lock---canary", 200⟩,
    ⟨sampleInfo "update" "lock---canary", sampleRequest (samplePath ++ "lock---canary") "lock---canary", 409⟩]

/-- An update that gives the lock to somebody. -/
def updatesHolder (codec : Codec) (h : Handler) (_ : Tracked) (x : Exchange) : Bool :=
  x.req.verb = "update" && h.writes codec x ≠ some ""

theorem leader_follows_sampleUpdates :
    Tracked.Follows ⟨.start, none⟩ ∧
      (exchanges (sampleCodec "a") sampleHandler ⟨.start, none⟩).States Tracked.Follows
        ⟨.start, none⟩ sampleUpdates := by
  have hstart : Tracked.Follows ⟨.start, none⟩ := rfl
  have hrun : ((exchanges (sampleCodec "a") sampleHandler ⟨.start, none⟩).run sampleUpdates).isSome :=
    rfl
  obtain ⟨t', ht'⟩ := Option.isSome_iff_exists.mp hrun
  refine ⟨hstart, (leader_follows_iff hstart ht').mpr ?_⟩
  refine (exchanges _ _ _).steps_of_checkSteps (updatesHolder (sampleCodec "a") sampleHandler) ?_
    (by decide +kernel)
  intro t x ht holder hwrites
  simp only [updatesHolder, Bool.and_eq_true, decide_eq_true_eq] at ht
  have hne : x.req.verb ≠ "create" := by rw [ht.1]; decide
  refine ⟨fun hverb => absurd hverb hne, fun hverb => absurd hverb hne, fun _ _ hholder => ?_⟩
  exact ht.2 (hholder ▸ hwrites)

/-- The lock is created, and the leader is not reported. It is released, and the
leader is reported to be nobody. -/
theorem not_leader_follows_sampleCreate :
    ((exchanges (sampleCodec "a") sampleHandler ⟨.start, none⟩).run
        [⟨sampleInfo "create" "", sampleRequest samplePath "lock", 201⟩]).map
          (fun t => (t.specManager.leaderElectionState, t.accepted)) =
        some (none, some ⟨"a", true⟩) ∧
      ((exchanges (sampleCodec "") sampleHandler ⟨.start, none⟩).run
        [⟨sampleInfo "update" "lock", sampleRequest (samplePath ++ "lock") "lock", 200⟩]).map
          (fun t => (t.specManager.leaderElectionState, t.accepted)) =
        some (some ⟨"", true⟩, some ⟨"", false⟩) := by
  decide +kernel

end CtrlMesh.LeaderElection
