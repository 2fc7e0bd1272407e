import Mathlib.Data.List.Basic

/-!
# An object of an API server

An object that many clients read, create and update. Every write gets a version that
no write had before; an update may name the version that it replaces, and then fails
if that is not the current one. What has been read is identified by its version
(`Inv`), so an update that succeeds replaces what its client has read
(`update_eq_ok`).

A request may fail on the way, before or after the server has done it (`send`).

`Settles P` is a step in which the object stays as it is, or an object without `P` is
replaced by one with `P`. An object with `P` then stays for ever.
-/

namespace CtrlMesh.Framework

/-- What is stored, and its version. -/
structure Versioned (α : Type) where
  value : α
  version : String
  deriving DecidableEq

/-- Why a request fails. -/
inductive ApiError where
  | notFound
  | alreadyExists
  | conflict
  | other (text : String)
  deriving DecidableEq

structure ObjectStore (α : Type) where
  object : Option (Versioned α)
  /-- All that has been stored so far, which the server need not keep. -/
  history : List (Versioned α)
  deriving DecidableEq

namespace ObjectStore

variable {α : Type}

/-- The store before the first request. -/
def start (object : Option (Versioned α)) : ObjectStore α := ⟨object, object.toList⟩

def put (s : ObjectStore α) (o : Versioned α) : ObjectStore α := ⟨some o, o :: s.history⟩

def get (s : ObjectStore α) : Except ApiError (Versioned α) :=
  match s.object with
  | none => .error .notFound
  | some o => .ok o

def create (s : ObjectStore α) (o : Versioned α) : Except ApiError (ObjectStore α) :=
  match s.object with
  | none => .ok (s.put o)
  | some _ => .error .alreadyExists

/-- An update, of the version `expected` unless that is empty. -/
def update (s : ObjectStore α) (expected : String) (o : Versioned α) :
    Except ApiError (ObjectStore α) :=
  match s.object with
  | none => .error .notFound
  | some cur =>
    if expected ≠ "" ∧ expected ≠ cur.version then .error .conflict else .ok (s.put o)

/-- A write that the server answers with `res`, unless it fails on the way: what the client
hears, and what is stored then. `failure` says whether the write has been done all the same. -/
def send (s : ObjectStore α) (failure : Option (String × Bool))
    (res : Except ApiError (ObjectStore α)) : Option ApiError × ObjectStore α :=
  match res, failure with
  | .ok s', none => (none, s')
  | .ok s', some (text, done) => (some (.other text), if done then s' else s)
  | .error err, none => (some err, s)
  | .error _, some (text, _) => (some (.other text), s)

/-- A version that the server may assign. -/
def Fresh (s : ObjectStore α) (version : String) : Prop :=
  version ≠ "" ∧ ∀ o ∈ s.history, o.version ≠ version

instance (s : ObjectStore α) (version : String) : Decidable (s.Fresh version) :=
  inferInstanceAs (Decidable (_ ∧ _))

/-- A version is not empty, and is that of one object. -/
structure Inv (s : ObjectStore α) : Prop where
  current (o : Versioned α) (h : s.object = some o) : o ∈ s.history
  version_ne (o : Versioned α) (h : o ∈ s.history) : o.version ≠ ""
  unique (a b : Versioned α) (ha : a ∈ s.history) (hb : b ∈ s.history)
    (h : a.version = b.version) : a = b

variable {s s' : ObjectStore α} {o seen : Versioned α}

theorem inv_start {object : Option (Versioned α)} (h : ∀ o, object = some o → o.version ≠ "") :
    (start object).Inv := by
  cases object with
  | none => exact ⟨by simp [start], by simp [start], by simp [start]⟩
  | some o =>
    have hne : o.version ≠ "" := h o rfl
    exact ⟨by simp [start], by simpa [start] using hne, by simp [start]⟩

theorem Inv.put (h : s.Inv) (hfresh : s.Fresh o.version) : (s.put o).Inv where
  current a ha := by
    obtain rfl : o = a := Option.some.inj ha
    exact List.mem_cons_self
  version_ne a ha := by
    rcases List.mem_cons.mp ha with rfl | ha
    · exact hfresh.1
    · exact h.version_ne a ha
  unique a b ha hb hab := by
    rcases List.mem_cons.mp ha with hao | ha' <;> rcases List.mem_cons.mp hb with hbo | hb'
    · rw [hao, hbo]
    · exact absurd (hao ▸ hab.symm) (hfresh.2 b hb')
    · exact absurd (hbo ▸ hab) (hfresh.2 a ha')
    · exact h.unique a b ha' hb' hab

theorem get_eq_ok (h : s.get = .ok o) : s.object = some o := by
  unfold get at h
  cases hobj : s.object with
  | none => simp [hobj] at h
  | some cur => simpa [hobj] using h

theorem create_eq_ok (h : s.create o = .ok s') : s.object = none ∧ s' = s.put o := by
  unfold create at h
  cases hobj : s.object with
  | none =>
    simp only [hobj, Except.ok.injEq] at h
    exact ⟨rfl, h.symm⟩
  | some cur => simp [hobj] at h

theorem eq_put_of_update {expected : String} (h : s.update expected o = .ok s') :
    s' = s.put o := by
  unfold update at h
  split at h
  · simp at h
  · split at h
    · simp at h
    · exact (Except.ok.inj h).symm

/-- A write is done, or leaves everything as it was; it is done if the client hears so. -/
theorem send_cases (failure : Option (String × Bool)) {res : Except ApiError (ObjectStore α)}
    {err : Option ApiError} (h : s.send failure res = (err, s')) :
    res = .ok s' ∨ s' = s ∧ err ≠ none := by
  unfold send at h
  split at h
  · exact .inl (by rw [(Prod.mk.inj h).2])
  · obtain ⟨rfl, rfl⟩ := Prod.mk.inj h
    split
    · exact .inl rfl
    · exact .inr ⟨rfl, by simp⟩
  · obtain ⟨rfl, rfl⟩ := Prod.mk.inj h
    exact .inr ⟨rfl, by simp⟩
  · obtain ⟨rfl, rfl⟩ := Prod.mk.inj h
    exact .inr ⟨rfl, by simp⟩

/-- A write adds at most its object to what has been stored. -/
theorem mem_history_of_send {failure : Option (String × Bool)}
    {res : Except ApiError (ObjectStore α)} {err : Option ApiError}
    (hres : res = .ok s' → s' = s.put o) (h : s.send failure res = (err, s')) {a : Versioned α}
    (ha : a ∈ s'.history) : a = o ∨ a ∈ s.history := by
  obtain hok | ⟨rfl, -⟩ := send_cases failure h
  · obtain rfl := hres hok
    exact List.mem_cons.mp ha
  · exact .inr ha

/-- An update of what was read replaces what was read. -/
theorem update_eq_ok (hs : s.Inv) (hseen : seen ∈ s.history)
    (h : s.update seen.version o = .ok s') : s.object = some seen ∧ s' = s.put o := by
  unfold update at h
  cases hobj : s.object with
  | none => simp [hobj] at h
  | some cur =>
    simp only [hobj] at h
    by_cases hconflict : seen.version ≠ "" ∧ seen.version ≠ cur.version
    · simp [hconflict] at h
    · rw [if_neg hconflict, Except.ok.injEq] at h
      have heq : seen.version = cur.version := by
        by_contra hne
        exact hconflict ⟨hs.version_ne seen hseen, hne⟩
      rw [hs.unique seen cur hseen (hs.current cur hobj) heq]
      exact ⟨rfl, h.symm⟩

/-- The object stays, or one without `P` is replaced by one with `P`. -/
inductive Settles (P : Versioned α → Prop) (s : ObjectStore α) : ObjectStore α → Prop where
  | stay : Settles P s s
  | settle {o : Versioned α} (hopen : ∀ cur, s.object = some cur → ¬P cur)
      (hfresh : s.Fresh o.version) (h : P o) : Settles P s (s.put o)

namespace Settles

variable {P : Versioned α → Prop}

theorem inv (h : Settles P s s') (hs : s.Inv) : s'.Inv := by
  cases h with
  | stay => exact hs
  | settle _ hfresh _ => exact hs.put hfresh

theorem mem_history (h : Settles P s s') (ho : o ∈ s.history) : o ∈ s'.history := by
  cases h with
  | stay => exact ho
  | settle => exact List.mem_cons_of_mem _ ho

/-- An object with `P` stays. -/
theorem object_eq (h : Settles P s s') (ho : s.object = some o) (hP : P o) :
    s'.object = some o := by
  cases h with
  | stay => exact ho
  | settle hopen _ _ => exact absurd hP (hopen o ho)

end Settles

end ObjectStore

end CtrlMesh.Framework
