import Mathlib.Data.Set.Basic

/-!
# Decisions that stay decided

Questions are answered by a policy that may be replaced while the answers
given so far are remembered. A new policy is adopted only if it agrees with
every answer given (`Step.adopt`). Then all answers ever given are those of
the policy in force (`Consistent`, kept by `Step.consistent`), and no question
is ever answered in two ways (`Consistent.unique`).
-/

namespace CtrlMesh.Framework

/-- The policy in force, if there is one, and the answers given. -/
structure Decisions (Q A : Type) where
  policy : Option (Q → A)
  answers : Set (Q × A)

namespace Decisions

variable {Q A : Type}

/-- No policy, no answers. -/
def start : Decisions Q A := ⟨none, ∅⟩

/-- A policy agrees with answers. -/
def Agrees (policy : Q → A) (answers : Set (Q × A)) : Prop := ∀ qa ∈ answers, policy qa.1 = qa.2

inductive Step : Decisions Q A → Decisions Q A → Prop where
  /-- Questions are answered by the policy in force. -/
  | answer {policy : Q → A} {answers more : Set (Q × A)} (h : Agrees policy more) :
      Step ⟨some policy, answers⟩ ⟨some policy, answers ∪ more⟩
  /-- A policy that agrees with the answers replaces the one in force. -/
  | adopt {old : Option (Q → A)} {policy : Q → A} {answers : Set (Q × A)}
      (h : Agrees policy answers) : Step ⟨old, answers⟩ ⟨some policy, answers⟩
  | stay {d : Decisions Q A} : Step d d

/-- All answers are those of the policy in force. -/
def Consistent (d : Decisions Q A) : Prop :=
  match d.policy with
  | none => d.answers = ∅
  | some policy => Agrees policy d.answers

theorem consistent_start : Consistent (start : Decisions Q A) := rfl

theorem Agrees.union {policy : Q → A} {answers more : Set (Q × A)} (h : Agrees policy answers)
    (h' : Agrees policy more) : Agrees policy (answers ∪ more) := by
  rintro qa (hqa | hqa)
  · exact h qa hqa
  · exact h' qa hqa

theorem Step.consistent {d d' : Decisions Q A} (hd : d.Consistent) (h : Step d d') :
    d'.Consistent := by
  cases h with
  | answer h => exact Agrees.union hd h
  | adopt h => exact h
  | stay => exact hd

/-- No question is answered in two ways. -/
theorem Consistent.unique {d : Decisions Q A} (hd : d.Consistent) {q : Q} {a b : A}
    (ha : (q, a) ∈ d.answers) (hb : (q, b) ∈ d.answers) : a = b := by
  obtain ⟨policy, answers⟩ := d
  cases policy with
  | none =>
    have he : answers = ∅ := hd
    rw [he] at ha
    exact absurd ha (Set.notMem_empty _)
  | some policy => exact (hd _ ha).symm.trans (hd _ hb)

end Decisions

end CtrlMesh.Framework
