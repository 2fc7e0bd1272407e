import ControllerMesh.Impl.CertWriter

/-!
# Managers agree on the certificate

Any number of managers ensure the certificate in one secret, their requests in any order. An
overwrite names the resource version of a secret that was read and not valid, so it can only
replace that one; a secret is created only where there is none. So a valid secret stays
(`CertWriter.step_settles`), and what a call returns is what is stored (`CertWriter.Sound`).
-/

namespace CtrlMesh

open Framework

/-- The CA certificate, the certificate and its key. -/
def Artifacts.material (certs : Artifacts) :
    Option (List UInt8) × Option (List UInt8) × Option (List UInt8) :=
  (certs.caCert, certs.cert, certs.key)

/-- The secret holds a valid certificate. -/
def ValidSecret (lib : CertLib) (dnsName : String) (secret : Versioned SecretData) : Prop :=
  validCert lib (secretToCerts secret) dnsName = true

/-- The generator produces valid certificates only. -/
def CertLib.GeneratesValid (lib : CertLib) (dnsName : String) : Prop :=
  ∀ ca seed certs, lib.generate ca dnsName seed = .ok certs → validCert lib certs dnsName = true

/-- What is written is read. -/
theorem secretToCerts_certsToSecret (certs : Artifacts) (version : String) :
    secretToCerts ⟨certsToSecret certs, version⟩ = { certs with resourceVersion := version } := rfl

theorem validSecret_certsToSecret {lib : CertLib} {dnsName : String} {certs : Artifacts}
    {version : String} (h : validCert lib certs dnsName = true) :
    ValidSecret lib dnsName ⟨certsToSecret certs, version⟩ := by
  rw [ValidSecret, secretToCerts_certsToSecret]
  exact h

namespace CertWriter

/-- An overwrite is of a secret that was read and not valid; a call that has returned without an
error has returned what is stored, and that is valid. -/
structure Sound (lib : CertLib) (dnsName : String) (store : ObjectStore SecretData)
    (pc : EnsureCert) : Prop where
  overwriting (version : String) (h : pc = .overwriting version) :
    ∃ seen ∈ store.history, seen.version = version ∧ ¬ValidSecret lib dnsName seen
  returned (certs : Option Artifacts) (changed : Bool) (h : pc = .returned certs changed none) :
    ∃ a cur, certs = some a ∧ store.object = some cur ∧ ValidSecret lib dnsName cur ∧
      a.material = (secretToCerts cur).material

section

variable {lib : CertLib} {dnsName : String} {store store' : ObjectStore SecretData}
  {answer : Answer} {w w' : CertWriter} {pc : EnsureCert}

theorem Sound.settles (h : Sound lib dnsName store pc)
    (hsettles : store.Settles (ValidSecret lib dnsName) store') : Sound lib dnsName store' pc where
  overwriting version hpc := by
    obtain ⟨seen, hseen, hversion⟩ := h.overwriting version hpc
    exact ⟨seen, hsettles.mem_history hseen, hversion⟩
  returned certs changed hpc := by
    obtain ⟨a, cur, hcerts, hcur, hvalid, hmaterial⟩ := h.returned certs changed hpc
    exact ⟨a, cur, hcerts, hsettles.object_eq hcur hvalid, hvalid, hmaterial⟩

theorem sound_reading : Sound lib dnsName store .reading := ⟨by simp, by simp⟩

theorem sound_writing : Sound lib dnsName store .writing := ⟨by simp, by simp⟩

theorem sound_rereading : Sound lib dnsName store .rereading := ⟨by simp, by simp⟩

theorem sound_failed (certs : Option Artifacts) (changed : Bool) (err : CertError) :
    Sound lib dnsName store (.returned certs changed (some err)) := ⟨by simp, by simp⟩

/-- What has just been stored is returned. -/
theorem sound_stored {certs : Artifacts} {version : String} (changed : Bool)
    (h : validCert lib certs dnsName = true) :
    Sound lib dnsName (store.put ⟨certsToSecret certs, version⟩)
      (.returned (some certs) changed none) where
  overwriting := by simp
  returned _ _ hpc := by
    obtain ⟨rfl, -⟩ := (EnsureCert.returned.injEq ..).mp hpc
    refine ⟨certs, _, rfl, rfl, validSecret_certsToSecret h, ?_⟩
    rw [secretToCerts_certsToSecret]
    rfl

/-- What has been read is returned if it is valid, and overwritten if not. -/
theorem sound_read (hs : store.Inv) {secret : Versioned SecretData}
    (hsecret : store.object = some secret) (changed : Bool) :
    Sound lib dnsName store (w.read lib dnsName secret changed).pc := by
  by_cases hvalid : validCert lib (secretToCerts secret) dnsName = true
  · have hpc : (w.read lib dnsName secret changed).pc =
        .returned (some (secretToCerts secret)) changed none := if_pos hvalid
    rw [hpc]
    refine ⟨by simp, fun _ _ heq => ?_⟩
    obtain ⟨rfl, -⟩ := (EnsureCert.returned.injEq ..).mp heq
    exact ⟨_, secret, rfl, hsecret, hvalid, rfl⟩
  · have hpc : (w.read lib dnsName secret changed).pc =
        .overwriting (secretToCerts secret).resourceVersion := if_neg hvalid
    have hversion : (secretToCerts secret).resourceVersion = secret.version := by
      unfold secretToCerts
      cases secret.value <;> rfl
    rw [hpc, hversion]
    refine ⟨fun _ heq => ?_, by simp⟩
    obtain rfl := EnsureCert.overwriting.inj heq
    exact ⟨secret, hs.current secret hsecret, rfl, hvalid⟩

theorem get_eq_ok {secret : Versioned SecretData} (h : get store answer = .ok secret) :
    store.object = some secret := by
  unfold get at h
  cases hfail : answer.failure with
  | some failure => simp [hfail] at h
  | none =>
    simp only [hfail] at h
    exact ObjectStore.get_eq_ok h

/-- What is stored after a request, and what is known if it succeeds. -/
theorem send_settles (answer : Answer) {P : Versioned SecretData → Prop}
    {res : Except ApiError (ObjectStore SecretData)}
    (hres : ∀ stored, res = .ok stored → store.Settles P stored) :
    ∃ err stored, store.send answer.failure res = (err, stored) ∧ store.Settles P stored ∧
      (err = none → res = .ok stored) := by
  rcases hsend : store.send answer.failure res with ⟨err, stored⟩
  refine ⟨err, stored, rfl, ?_⟩
  obtain hok | ⟨rfl, herr⟩ := ObjectStore.send_cases answer.failure hsend
  · exact ⟨hres stored hok, fun _ => hok⟩
  · exact ⟨.stay, fun hnone => absurd hnone herr⟩

/-- A secret is created where there is none. -/
theorem settles_create (hfresh : store.Fresh answer.version) {certs : Artifacts}
    (hvalid : validCert lib certs dnsName = true)
    (h : store.create ⟨certsToSecret certs, answer.version⟩ = .ok store') :
    store.Settles (ValidSecret lib dnsName) store' := by
  obtain ⟨hnone, rfl⟩ := ObjectStore.create_eq_ok h
  exact .settle (by simp [hnone]) hfresh (validSecret_certsToSecret hvalid)

/-- A secret is overwritten that is not valid. -/
theorem settles_update (hs : store.Inv) (hfresh : store.Fresh answer.version) {certs : Artifacts}
    (hvalid : validCert lib certs dnsName = true) {seen : Versioned SecretData}
    (hseen : seen ∈ store.history) (hinvalid : ¬ValidSecret lib dnsName seen)
    (h : store.update seen.version ⟨certsToSecret certs, answer.version⟩ = .ok store') :
    store.Settles (ValidSecret lib dnsName) store' := by
  obtain ⟨hcur, rfl⟩ := ObjectStore.update_eq_ok hs hseen h
  refine .settle (fun cur hobj => ?_) hfresh (validSecret_certsToSecret hvalid)
  obtain rfl : seen = cur := Option.some.inj (hcur.symm.trans hobj)
  exact hinvalid

theorem step_writing (hgen : lib.GeneratesValid dnsName) (hfresh : store.Fresh answer.version)
    (hpc : w.pc = .writing) (hstep : w.step lib dnsName store answer = some (w', store')) :
    store.Settles (ValidSecret lib dnsName) store' ∧ Sound lib dnsName store' w'.pc := by
  simp only [step, hpc, Option.some.injEq] at hstep
  cases hg : lib.generate w.ca dnsName answer.seed with
  | error text =>
    simp only [hg, Prod.mk.injEq] at hstep
    obtain ⟨rfl, rfl⟩ := hstep
    exact ⟨.stay, sound_failed _ _ _⟩
  | ok certs =>
    have hvalid : validCert lib certs dnsName = true := hgen _ _ certs hg
    obtain ⟨err, stored, hsend, hsettles, hdone⟩ :=
      send_settles answer fun _ => settles_create hfresh hvalid
    simp only [hg, hsend] at hstep
    cases err with
    | none =>
      obtain ⟨-, rfl⟩ := ObjectStore.create_eq_ok (hdone rfl)
      simp only [handle, hvalid, if_true, Prod.mk.injEq] at hstep
      obtain ⟨rfl, rfl⟩ := hstep
      exact ⟨hsettles, sound_stored true hvalid⟩
    | some err =>
      cases err with
      | alreadyExists =>
        obtain ⟨rfl, rfl⟩ := Prod.mk.inj hstep
        exact ⟨hsettles, sound_rereading⟩
      | notFound | conflict | other text =>
        obtain ⟨rfl, rfl⟩ := Prod.mk.inj hstep
        exact ⟨hsettles, sound_failed _ _ _⟩

theorem step_overwriting (hgen : lib.GeneratesValid dnsName) (hs : store.Inv)
    (hfresh : store.Fresh answer.version) {version : String} (hpc : w.pc = .overwriting version)
    (h : Sound lib dnsName store w.pc)
    (hstep : w.step lib dnsName store answer = some (w', store')) :
    store.Settles (ValidSecret lib dnsName) store' ∧ Sound lib dnsName store' w'.pc := by
  obtain ⟨seen, hseen, rfl, hinvalid⟩ := h.overwriting version hpc
  simp only [step, hpc, Option.some.injEq] at hstep
  cases hg : lib.generate w.ca dnsName answer.seed with
  | error text =>
    simp only [hg, Prod.mk.injEq] at hstep
    obtain ⟨rfl, rfl⟩ := hstep
    exact ⟨.stay, sound_failed _ _ _⟩
  | ok certs =>
    have hvalid : validCert lib certs dnsName = true := hgen _ _ certs hg
    obtain ⟨err, stored, hsend, hsettles, hdone⟩ :=
      send_settles answer fun _ => settles_update hs hfresh hvalid hseen hinvalid
    simp only [hg, hsend] at hstep
    cases err with
    | none =>
      obtain ⟨-, rfl⟩ := ObjectStore.update_eq_ok hs hseen (hdone rfl)
      obtain ⟨rfl, rfl⟩ := Prod.mk.inj hstep
      exact ⟨hsettles, sound_stored true hvalid⟩
    | some err =>
      obtain ⟨rfl, rfl⟩ := Prod.mk.inj hstep
      exact ⟨hsettles, sound_failed _ _ _⟩

/-- A request of one call: a valid secret stays, and the call goes on soundly. -/
theorem step_settles (hgen : lib.GeneratesValid dnsName) (hs : store.Inv)
    (hfresh : store.Fresh answer.version) (h : Sound lib dnsName store w.pc)
    (hstep : w.step lib dnsName store answer = some (w', store')) :
    store.Settles (ValidSecret lib dnsName) store' ∧ Sound lib dnsName store' w'.pc := by
  cases hpc : w.pc with
  | writing => exact step_writing hgen hfresh hpc hstep
  | overwriting version => exact step_overwriting hgen hs hfresh hpc h hstep
  | returned certs changed err => simp [step, hpc] at hstep
  | reading =>
    simp only [step, hpc, Option.some.injEq, Prod.mk.injEq] at hstep
    obtain ⟨rfl, rfl⟩ := hstep
    refine ⟨.stay, ?_⟩
    cases hget : get store answer with
    | ok secret => exact sound_read hs (get_eq_ok hget) false
    | error err =>
      cases err with
      | notFound => exact sound_writing
      | alreadyExists | conflict | other => exact sound_failed _ _ _
  | rereading =>
    simp only [step, hpc, Option.some.injEq, Prod.mk.injEq] at hstep
    obtain ⟨rfl, rfl⟩ := hstep
    refine ⟨.stay, ?_⟩
    cases hget : get store answer with
    | ok secret => exact sound_read hs (get_eq_ok hget) true
    | error err => exact sound_failed _ _ _

theorem sound_call : Sound lib dnsName store (call dnsName).pc := by
  unfold call
  by_cases hempty : dnsName.isEmpty = true
  · simp only [hempty, if_true]
    exact sound_failed _ _ _
  · simp only [hempty]
    exact sound_reading

end

end CertWriter

namespace Managers

section

variable {lib : CertLib} {dnsName : String} {s s' : Managers} {e : Event}

structure Inv (lib : CertLib) (dnsName : String) (s : Managers) : Prop where
  secret : s.secret.Inv
  calls (w : CertWriter) (hw : w ∈ s.calls) : CertWriter.Sound lib dnsName s.secret w.pc

/-- A step of the managers: a valid secret stays. -/
theorem Inv.step (hgen : lib.GeneratesValid dnsName) (hs : s.Inv lib dnsName)
    (hstep : s.step lib dnsName e = some s') :
    s.secret.Settles (ValidSecret lib dnsName) s'.secret ∧ s'.Inv lib dnsName := by
  cases e with
  | ensureCert =>
    obtain rfl := Option.some.inj hstep
    refine ⟨.stay, hs.secret, fun w hw => ?_⟩
    rcases List.mem_append.mp hw with hw | hw
    · exact hs.calls w hw
    · rw [List.mem_singleton.mp hw]
      exact CertWriter.sound_call
  | request i answer =>
    cases hi : s.calls[i]? with
    | none => simp [Managers.step, hi] at hstep
    | some w =>
      by_cases hfresh : s.secret.Fresh answer.version
      · simp only [Managers.step, hi, hfresh, if_true, Option.map_eq_some_iff] at hstep
        obtain ⟨⟨w', store'⟩, hw', rfl⟩ := hstep
        have hsound := hs.calls w (List.mem_of_getElem? hi)
        obtain ⟨hsettles, hsound'⟩ :=
          CertWriter.step_settles hgen hs.secret hfresh hsound hw'
        refine ⟨hsettles, hsettles.inv hs.secret, fun v hv => ?_⟩
        rcases List.mem_or_eq_of_mem_set hv with hv | rfl
        · exact (hs.calls v hv).settles hsettles
        · exact hsound'
      · simp [Managers.step, hi, hfresh] at hstep

theorem inv_run (hgen : lib.GeneratesValid dnsName) {secret : Option (Versioned SecretData)}
    (hversion : ∀ o, secret = some o → o.version ≠ "") {es : List Event}
    (h : (system lib dnsName secret).run es = some s) : s.Inv lib dnsName := by
  have hinit : Inv lib dnsName ⟨.start secret, []⟩ :=
    ⟨ObjectStore.inv_start hversion, by simp⟩
  exact (system lib dnsName secret).runFrom_invariant
    (fun (_ : True) hs hstep => (Inv.step hgen hs hstep).2) (fun _ _ => trivial) hinit h

/-- Over any further requests, a valid secret stays. -/
theorem Inv.object_eq (hgen : lib.GeneratesValid dnsName) (hs : s.Inv lib dnsName)
    {secret : Option (Versioned SecretData)} {cur : Versioned SecretData}
    (hcur : s.secret.object = some cur) (hvalid : ValidSecret lib dnsName cur) {es : List Event}
    (h : (system lib dnsName secret).runFrom s es = some s') : s'.secret.object = some cur := by
  have hstep {s s' : Managers} {e : Event} (_ : True)
      (hs : s.Inv lib dnsName ∧ s.secret.object = some cur)
      (hstep : (system lib dnsName secret).step s e = some s') :
      s'.Inv lib dnsName ∧ s'.secret.object = some cur := by
    obtain ⟨hsettles, hs'⟩ := Inv.step hgen hs.1 hstep
    exact ⟨hs', hsettles.object_eq hs.2 hvalid⟩
  exact ((system lib dnsName secret).runFrom_invariant hstep (fun _ _ => trivial) ⟨hs, hcur⟩ h).2

end

/-- Managers that ensure the certificate in one secret, absent, valid or not, their requests in
any order, with a generator of valid certificates: a call that returns without an error returns
what is stored, a valid secret is never replaced, and all such calls return the same. -/
theorem managers_agree {lib : CertLib} {dnsName : String} (hgen : lib.GeneratesValid dnsName)
    {secret : Option (Versioned SecretData)} (hversion : ∀ o, secret = some o → o.version ≠ "")
    {es : List Event} {s : Managers} (h : (system lib dnsName secret).run es = some s) :
    (∀ w ∈ s.calls, ∀ certs changed, w.pc = .returned certs changed none →
      ∃ a cur, certs = some a ∧ s.secret.object = some cur ∧
        a.material = (secretToCerts cur).material) ∧
    (∀ cur, s.secret.object = some cur → ValidSecret lib dnsName cur →
      ∀ fs t, (system lib dnsName secret).runFrom s fs = some t → t.secret.object = some cur) ∧
    (∀ w ∈ s.calls, ∀ w' ∈ s.calls, ∀ a a' changed changed',
      w.pc = .returned (some a) changed none → w'.pc = .returned (some a') changed' none →
        a.caCert = a'.caCert ∧ a.cert = a'.cert ∧ a.key = a'.key) := by
  have hs : s.Inv lib dnsName := inv_run hgen hversion h
  refine ⟨fun w hw certs changed hpc => ?_, fun cur hcur hvalid fs t hrun => ?_,
    fun w hw w' hw' a a' changed changed' hpc hpc' => ?_⟩
  · obtain ⟨a, cur, hcerts, hcur, -, hmaterial⟩ := (hs.calls w hw).returned certs changed hpc
    exact ⟨a, cur, hcerts, hcur, hmaterial⟩
  · exact hs.object_eq hgen hcur hvalid hrun
  · obtain ⟨_, cur, ha, hcur, -, hmaterial⟩ := (hs.calls w hw).returned _ _ hpc
    obtain ⟨_, cur', ha', hcur', -, hmaterial'⟩ := (hs.calls w' hw').returned _ _ hpc'
    obtain rfl := Option.some.inj ha
    obtain rfl := Option.some.inj ha'
    obtain rfl : cur = cur' := Option.some.inj (hcur.symm.trans hcur')
    simpa only [Artifacts.material, Prod.mk.injEq] using hmaterial.trans hmaterial'.symm

/-- Every certificate is valid, and the seed is the key. -/
def sampleCertLib : CertLib where
  x509KeyPair _ _ := true
  appendCertsFromPEM _ := true
  pemDecode cert := some cert
  parseCertificate _ := true
  verify _ _ _ := true
  generate _ _ seed := .ok ⟨some [seed.toUInt8], some [1], some [2], some [3], ""⟩

/-- Two managers find no secret, and one of them is first to create it. -/
def sampleRace : List Event :=
  [.ensureCert, .ensureCert, .request 0 { version := "1" }, .request 1 { version := "1" },
    .request 1 { seed := 7, version := "1" }, .request 0 { seed := 8, version := "2" },
    .request 0 { version := "2" }]

/-- Two managers find a secret without data. The second one overwrites it, the first
one gets a conflict, and calls again. -/
def sampleOverwrite : List Event :=
  [.ensureCert, .ensureCert, .request 0 { version := "2" }, .request 1 { version := "2" },
    .request 1 { seed := 7, version := "2" }, .request 0 { seed := 8, version := "3" },
    .ensureCert, .request 2 { version := "3" }]

theorem generatesValid_sampleCertLib (dnsName : String) :
    sampleCertLib.GeneratesValid dnsName := by
  intro ca seed certs hcerts
  obtain rfl := Except.ok.inj hcerts
  rfl

theorem managers_agree_samples :
    (∃ s w w' a a', (system sampleCertLib "webhook" none).run sampleRace = some s ∧
      s.calls = [w, w'] ∧ w.pc = .returned (some a) true none ∧
      w'.pc = .returned (some a') true none ∧ a.key = some [7] ∧ a.key = a'.key) ∧
    ∃ s w w' w'' a a', (system sampleCertLib "webhook" (some ⟨none, "1"⟩)).run sampleOverwrite =
        some s ∧ s.calls = [w, w', w''] ∧
      w.pc = .returned none false (some (.api .conflict)) ∧ w'.pc = .returned (some a) true none ∧
      w''.pc = .returned (some a') false none ∧ a.key = some [7] ∧ a.key = a'.key := by
  have hrace : ((system sampleCertLib "webhook" none).run sampleRace).map (·.calls) =
      some [⟨some ([2], [3]), .returned (some ⟨some [7], some [1], some [2], some [3], "1"⟩) true none⟩,
        ⟨none, .returned (some ⟨some [7], some [1], some [2], some [3], ""⟩) true none⟩] := by
    decide +kernel
  have hoverwrite : ((system sampleCertLib "webhook" (some ⟨none, "1"⟩)).run sampleOverwrite).map
      (·.calls) = some [⟨none, .returned none false (some (.api .conflict))⟩,
        ⟨none, .returned (some ⟨some [7], some [1], some [2], some [3], ""⟩) true none⟩,
        ⟨some ([2], [3]),
          .returned (some ⟨some [7], some [1], some [2], some [3], "2"⟩) false none⟩] := by
    decide +kernel
  constructor
  · obtain ⟨s, hs, hcalls⟩ := Option.map_eq_some_iff.mp hrace
    have hagree := (managers_agree (generatesValid_sampleCertLib _) (by simp) hs).2.2
    rw [hcalls] at hagree
    refine ⟨s, _, _, _, _, hs, hcalls, rfl, rfl, rfl, ?_⟩
    exact (hagree _ List.mem_cons_self _ (List.mem_cons_of_mem _ List.mem_cons_self) _ _ _ _
      rfl rfl).2.2
  · obtain ⟨s, hs, hcalls⟩ := Option.map_eq_some_iff.mp hoverwrite
    have hagree := (managers_agree (generatesValid_sampleCertLib _) (by simp) hs).2.2
    rw [hcalls] at hagree
    refine ⟨s, _, _, _, _, _, hs, hcalls, rfl, rfl, rfl, rfl, ?_⟩
    exact (hagree _ (List.mem_cons_of_mem _ List.mem_cons_self) _
      (List.mem_cons_of_mem _ (List.mem_cons_of_mem _ List.mem_cons_self)) _ _ _ _ rfl rfl).2.2

end Managers

end CtrlMesh
