/-
  Graphing.Plot.Sampling

  Samples of a parameter over a range, and the value of a function beside a
  gap.
-/
import Graphing.Contour.Coordinate

namespace Graphing.Plot

open Contour (Coordinate RasterFault spread)

/-! ## Parameters -/

/-- The most samples that a range is divided into. -/
def maxSamples : Nat := 200000

/-- Why a range cannot be sampled. -/
inductive SamplingFault where
  /-- The step is zero. -/
  | zeroStep
  /-- The number of steps is no number, or infinite. -/
  | steps (e : RasterFault)
  /-- A negative step leads nowhere. -/
  | noSamples
  deriving Repr, DecidableEq

/-- Samples from `lo` with the given step, and `hi` itself at the end; equally spaced ones when
there would be too many, and none for an empty or infinite range. -/
def parameterSamples {α : Type} [Coordinate α] (lo hi step : α) :
    Except SamplingFault (List α) :=
  if !(Coordinate.isFinite lo && Coordinate.isFinite hi) || Coordinate.less hi lo then .ok []
  else if Coordinate.isZero step then .error .zeroStep
  else
    match Coordinate.floor? ((hi - lo) / step) with
    | .error e => .error (.steps e)
    | .ok n =>
      if n + 1 > (maxSamples : Int) then
        .ok ((List.range maxSamples).map (spread lo hi (maxSamples - 1)))
      else
        let samples := (List.range (n + 1).toNat).map fun k => lo + step * Coordinate.ofNat k
        match samples.getLast? with
        | none => .error .noSamples
        | some last => .ok (if Coordinate.less last hi then samples ++ [hi] else samples)

/-! ## Integers -/

/-- The integers from `lo` up to `hi` as numbers, at most as many as there can be samples. -/
def integerSamples (lo hi : Float) : Except RasterFault (List Float) := do
  let first := -(← Coordinate.floor? (-lo))
  let last ← Coordinate.floor? hi
  let count := (min last (first + (maxSamples : Int) - 1) + 1 - first).toNat
  let base := Binary64.ofRat first
  let gap := Binary64.ofRat (first + 1) - base
  return (List.range count).map fun (k : Nat) => base + Binary64.ofRat k * gap

/-! ## Limits -/

/-- Where a function is looked at beside a gap, relative to its place. -/
def limitSteps : List Float := [1e-6, 1e-5]

/-- The larger of one and a magnitude. -/
def atLeastOne (x : Float) : Float := if x.abs > 1 then x.abs else 1

/-- The mean of the values on both sides of a place, if they are finite and near each other. -/
def twoSided? (f : Float → Float) (c delta : Float) : Option Float :=
  let step := delta * atLeastOne c
  let left := f (c - step)
  let right := f (c + step)
  if !(left.isFinite && right.isFinite) then none
  else
    let scale := if right.abs > atLeastOne left then right.abs else atLeastOne left
    if (left - right).abs > 1e-3 * scale then none else some (0.5 * (left + right))

/-- The value of a function, or its limit from both sides where the value is missing; NaN where
there is neither. -/
def limitValue (f : Float → Float) (c : Float) : Float :=
  let value := f c
  if value.isFinite then value
  else
    match limitSteps.mapM (twoSided? f c) with
    | some [near, far] =>
      if (near - far).abs ≤ 1e-3 * atLeastOne near then near else Binary64.nan
    | _ => Binary64.nan

/-! ## Laws -/

/-- A finite value is its own limit. -/
theorem limitValue_of_isFinite {f : Float → Float} {c : Float} (h : (f c).isFinite = true) :
    limitValue f c = f c := by
  simp [limitValue, h]

end Graphing.Plot
