import Mathlib.Data.List.Basic

/-!
# Compressing writers

Go's `gzip.Writer`, over a compressor that passes on what it is given in pieces
of its own choosing, and all of it only when it is closed. What a write or a close
passes on is `pass` and `finish`; to pass it on to a writer may panic (`none`), as
it does if there is none.
-/

namespace CtrlMesh.Framework

/-- A compressor: the header it begins with, and what it passes on for a write
and at the end. -/
structure Compressor (σ : Type) where
  header : List UInt8
  start : σ
  write : σ → List UInt8 → List (List UInt8) × σ
  close : σ → List (List UInt8)

/-- `gzip.Writer`, apart from the writer below it. The writers below it that are
modelled return no errors. -/
structure GzipWriter (σ : Type) where
  wroteHeader : Bool
  closed : Bool
  state : σ
  deriving DecidableEq

namespace GzipWriter

variable {σ W : Type} (c : Compressor σ)

/-- A new writer, or one after `Reset`. -/
def new : GzipWriter σ := ⟨false, false, c.start⟩

/-- What a write passes on. -/
def pass (z : GzipWriter σ) (data : List UInt8) : List (List UInt8) × GzipWriter σ :=
  ((if z.wroteHeader then [] else [c.header]) ++ (c.write z.state data).1,
    { z with wroteHeader := true, state := (c.write z.state data).2 })

/-- What writes pass on. -/
def passAll (z : GzipWriter σ) : List (List UInt8) → List (List UInt8) × GzipWriter σ
  | [] => ([], z)
  | data :: rest =>
    let (pieces, z) := z.pass c data
    let (more, z) := z.passAll rest
    (pieces ++ more, z)

/-- What `Close` passes on: with the header if nothing has been written. -/
def finish (z : GzipWriter σ) : List (List UInt8) × GzipWriter σ :=
  if z.closed then ([], z)
  else
    let (header, z) := if z.wroteHeader then ([], z) else z.pass c []
    (header ++ c.close z.state, { z with closed := true })

/-- All that a new writer passes on for writes and a close. -/
def output (data : List (List UInt8)) : List (List UInt8) :=
  ((new c).passAll c data).1 ++ (((new c).passAll c data).2.finish c).1

section

variable (emit : W → List UInt8 → Option W)

/-- `Write`, for each of the data, to a writer that `emit` writes to. -/
def writes (z : GzipWriter σ) (w : W) (data : List (List UInt8)) : Option (GzipWriter σ × W) :=
  ((z.passAll c data).1.foldlM emit w).map ((z.passAll c data).2, ·)

/-- `Close`. -/
def close (z : GzipWriter σ) (w : W) : Option (GzipWriter σ × W) :=
  ((z.finish c).1.foldlM emit w).map ((z.finish c).2, ·)

end

section

variable {emit : W → List UInt8 → Option W} {f : W → List UInt8 → W}

/-- Writes to a writer that does not panic. -/
theorem writes_of_total (h : ∀ w p, emit w p = some (f w p)) (z : GzipWriter σ) (w : W)
    (data : List (List UInt8)) :
    z.writes c emit w data =
      some ((z.passAll c data).2, (z.passAll c data).1.foldl f w) := by
  have hemit : emit = fun w p => pure (f w p) := funext fun w => funext fun p => h w p
  rw [writes, hemit, List.foldlM_pure]
  rfl

theorem close_of_total (h : ∀ w p, emit w p = some (f w p)) (z : GzipWriter σ) (w : W) :
    z.close c emit w = some ((z.finish c).2, (z.finish c).1.foldl f w) := by
  have hemit : emit = fun w p => pure (f w p) := funext fun w => funext fun p => h w p
  rw [close, hemit, List.foldlM_pure]
  rfl

end

/-- A closed writer does nothing more. -/
theorem close_of_closed {z : GzipWriter σ} (h : z.closed = true)
    (emit : W → List UInt8 → Option W) (w : W) : z.close c emit w = some (z, w) := by
  rw [close, finish, if_pos h]
  rfl

/-- To close a new writer writes the header. -/
theorem close_new_of_none (w : W) : (new c).close c (fun _ _ => none) w = none := rfl

end GzipWriter

end CtrlMesh.Framework
