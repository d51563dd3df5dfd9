/-
  Graphing.Expr.Function.Angle

  Exact values at rational multiples of π. A cosine is written with square
  roots where the denominator of the angle is at most six, is eight or ten, or
  where the angle is a difference of two such angles; the tables of the inverse
  functions hold the values that they recognise.
-/
import Graphing.Expr.Power

namespace Graphing.Expr

/-! ## Angles -/

/-- A multiple of π. -/
def angle (alg : Algebra) (q : Rat) : Expr := alg.product [.rat q, .const .pi]

/-- A multiple of π brought into the range from zero up to two. -/
def fullTurn (q : Rat) : Rat := q - 2 * (q / 2).floor

/-- Denominators `n` with `a` and `b` such that `π / n` is `π / a - π / b`. -/
def angleDifference? : Nat → Option (Nat × Nat)
  | 12 => some (3, 4)
  | 15 => some (6, 10)
  | 20 => some (4, 5)
  | 24 => some (6, 8)
  | 30 => some (5, 6)
  | 40 => some (8, 10)
  | 60 => some (20, 30)
  | 120 => some (40, 60)
  | _ => none

/-! ## Cosine and sine -/

/-- The cosine of a multiple of π. -/
def cosineAt (alg : Algebra) (q : Rat) : Expr := alg.call .cos [angle alg q]

/-- Whether a cosine has been worked out. -/
def isWorkedOut : Expr → Bool
  | .call .cos _ => false
  | _ => true

/-- The exact cosine of `q · π` for `q` from 0 to 1/2: by the cosine of a difference, by the
golden ratio at fifths, and by halving the angle. -/
def exactCosine (alg : Algebra) (q : Rat) : Option Expr :=
  match angleDifference? q.den with
  | some (a, b) =>
    let α := q * q.den / a
    let β := q * q.den / b
    some (alg.sum [alg.product [cosineAt alg α, cosineAt alg β],
      alg.product [cosineAt alg (1 / 2 - α), cosineAt alg (1 / 2 - β)]])
  | none =>
    match q.den with
    | 1 => some one
    | 2 => some zero
    | 3 => some .half
    | 5 =>
      let quarter : Rat := if q.num = 1 then mkRat 1 4 else mkRat (-1) 4
      some (alg.sum [.rat quarter, alg.product [.rat (mkRat 1 4), alg.sqrt (int 5)]])
    | 4 | 6 | 8 | 10 =>
      some (alg.sqrt (alg.product [.half, alg.sum [one, cosineAt alg (2 * q)]]))
    | _ => none

/-- The cosine of `q · π`. -/
def cosineOfAngle (alg : Algebra) (q : Rat) : Option Expr :=
  let r := fullTurn q
  if 1 < r then some (alg.neg (cosineAt alg (r - 1)))
  else if mkRat 1 2 < r then some (alg.neg (cosineAt alg (1 - r)))
  else exactCosine alg r

/-- The sine of `q · π`, with `given` as the expression of the angle: the cosine of the
complement, where that can be worked out. -/
def sineOfAngle (alg : Algebra) (q : Rat) (given : Expr) : Option Expr :=
  let r := fullTurn q
  if 1 < r then some (alg.neg (alg.call .sin [angle alg (r - 1)]))
  else if mkRat 1 2 < r then some (alg.call .sin [angle alg (1 - r)])
  else
    let c := cosineAt alg (1 / 2 - r)
    if isWorkedOut c then some c
    else if angle alg r == given then none
    else some (.call .sin [angle alg r])

/-! ## Tangent -/

/-- The tangents of the first four tenths of π. -/
def tangentOfTenths (alg : Algebra) (n : Nat) : Expr :=
  let root := alg.sqrt (int 5)
  let radicand : Expr :=
    match n with
    | 1 => alg.sum [one, alg.product [.rat (mkRat (-2) 5), root]]
    | 2 => alg.sum [int 5, alg.product [int (-2), root]]
    | 3 => alg.sum [one, alg.product [.rat (mkRat 2 5), root]]
    | _ => alg.sum [int 5, alg.product [int 2, root]]
  alg.sqrt radicand

/-- The tangent of `q · π`, with `given` as the expression of the angle: by a table at tenths, by
sine and cosine of the double angle, by the tangent of a difference, or as the quotient of sine
and cosine. -/
def tangentOfAngle (alg : Algebra) (q : Rat) (given : Expr) : Option Expr :=
  let q := fullTurn q
  let part := q - q.floor
  let cosineAndSine (r : Rat) : Option (Expr × Expr) :=
    let c := cosineAt alg r
    let s := cosineAt alg (r - 1 / 2)
    if isWorkedOut c && isWorkedOut s then some (c, s) else none
  if part = 0 then some zero
  else if part.den = 5 ∨ part.den = 10 then
    let n := (part * 10).num.natAbs
    some (if n > 5 then alg.neg (tangentOfTenths alg (10 - n)) else tangentOfTenths alg n)
  else
    match if part.den % 2 = 0 then cosineAndSine (2 * q) else none with
    | some (c, s) => some (if s == zero then .pole else alg.sub (alg.inv s) (alg.div c s))
    | none =>
      match angleDifference? part.den with
      | some (a, b) =>
        let tangent (d : Nat) : Expr := alg.call .tan [angle alg (part * part.den / d)]
        let ta := tangent a
        let tb := tangent b
        some (alg.div (alg.sub ta tb) (alg.sum [one, alg.product [ta, tb]]))
      | none =>
        let r := q + 1 / 2 - (q + 1 / 2).floor - 1 / 2
        match cosineAndSine r with
        | some (c, s) => some (if c == zero then .pole else alg.div s c)
        | none => if angle alg r == given then none else some (alg.call .tan [angle alg r])

/-! ## Values that the inverse functions recognise -/

/-- The multiple of π that a table gives to a constant. -/
def lookUpAngle (table : List (Expr × Rat)) (x : Expr) : Option Rat :=
  (table.find? fun p => p.1 == x).map Prod.snd

/-- The values that the arc sine recognises, with multiples of π. -/
def arcSineTable (alg : Algebra) : List (Expr × Rat) :=
  let root (x : Expr) : Expr := alg.sqrt x
  let times (q : Rat) (x : Expr) : Expr := alg.product [.rat q, x]
  let plus (x y : Expr) : Expr := alg.sum [x, y]
  let r2 := root (int 2)
  let r3 := root (int 3)
  let r5 := root (int 5)
  let r6 := root (int 6)
  let quarter := mkRat 1 4
  let eighth := mkRat 1 8
  [(.half, mkRat 1 6),
    (times (1 / 2) r3, mkRat 1 3),
    (times (1 / 2) r2, mkRat 1 4),
    (root (times eighth (alg.sub (int 5) r5)), mkRat 1 5),
    (alg.product [.rat quarter, r2, root (alg.sub (int 5) r5)], mkRat 1 5),
    (root (times eighth (plus (int 5) r5)), mkRat 2 5),
    (alg.product [.rat quarter, r2, root (plus (int 5) r5)], mkRat 2 5),
    (times (1 / 2) (root (alg.sub (int 2) r2)), mkRat 1 8),
    (root (plus .half (times (-quarter) r2)), mkRat 1 8),
    (times (1 / 2) (root (plus (int 2) r2)), mkRat 3 8),
    (root (plus .half (times quarter r2)), mkRat 3 8),
    (times quarter (plus r5 minusOne), mkRat 1 10),
    (times quarter (alg.sub one r5), mkRat (-1) 10),
    (times quarter (plus r5 one), mkRat 3 10),
    (plus (times quarter r6) (times (-quarter) r2), mkRat 1 12),
    (plus (times (-quarter) r6) (times quarter r2), mkRat (-1) 12),
    (alg.div (plus r3 minusOne) (root (int 8)), mkRat 1 12),
    (alg.div (alg.sub one r3) (root (int 8)), mkRat (-1) 12),
    (plus (times quarter r6) (times quarter r2), mkRat 5 12),
    (alg.div (plus one r3) (root (int 8)), mkRat 5 12)]

/-- The values that the arc tangent recognises, with multiples of π. -/
def arcTangentTable (alg : Algebra) : List (Expr × Rat) :=
  let r2 := alg.sqrt (int 2)
  let r3 := alg.sqrt (int 3)
  [(alg.product [.rat (mkRat 1 3), r3], mkRat 1 6),
    (r3, mkRat 1 3),
    (alg.sum [r2, minusOne], mkRat 1 8),
    (alg.sub one r2, mkRat (-1) 8),
    (alg.sum [one, r2], mkRat 3 8),
    (tangentOfTenths alg 2, mkRat 1 5),
    (tangentOfTenths alg 4, mkRat 2 5),
    (tangentOfTenths alg 1, mkRat 1 10),
    (tangentOfTenths alg 3, mkRat 3 10),
    (alg.sub (int 2) r3, mkRat 1 12),
    (alg.sum [int (-2), r3], mkRat (-1) 12),
    (alg.sum [int 2, r3], mkRat 5 12)]

/-- The values that the inverse hyperbolic cosine recognises, with multiples of `π i`. -/
def arcCoshTable (alg : Algebra) : List (Expr × Rat) :=
  let r2 := alg.sqrt (int 2)
  let r3 := alg.sqrt (int 3)
  let r8 := alg.sqrt (int 8)
  let half (x : Expr) : Expr := alg.product [.half, x]
  let fifth := alg.product [.rat (mkRat 1 4), alg.sum [alg.sqrt (int 5), one]]
  let wide := half (alg.sqrt (alg.sum [int 2, r2]))
  let narrow := half (alg.sqrt (alg.sub (int 2) r2))
  [(.half, mkRat 1 3), (alg.neg .half, mkRat 2 3),
    (half r2, mkRat 1 4), (alg.neg (half r2), mkRat 3 4),
    (half r3, mkRat 1 6), (alg.neg (half r3), mkRat 5 6),
    (alg.div (alg.sum [r3, minusOne]) r8, mkRat 5 12),
    (alg.div (alg.sub one r3) r8, mkRat 7 12),
    (wide, mkRat 1 8), (alg.neg wide, mkRat 7 8),
    (narrow, mkRat 3 8), (alg.neg narrow, mkRat 5 8),
    (alg.div (alg.sum [one, r3]) r8, mkRat 1 12),
    (alg.div (alg.sub minusOne r3) r8, mkRat 11 12),
    (fifth, mkRat 1 5), (alg.neg fifth, mkRat 4 5)]

/-- The quotients of imaginary and real part that the logarithm recognises, with the angles. -/
def logarithmTable (alg : Algebra) : List (Expr × Rat) :=
  let r2 := alg.sqrt (int 2)
  let r3 := alg.sqrt (int 3)
  let r5 := alg.sqrt (int 5)
  let r10 := alg.sqrt (int 10)
  let wide := alg.sqrt (alg.sum [r2, int 2])
  let narrow := alg.sqrt (alg.sub (int 2) r2)
  let rootPlus := alg.sqrt (alg.sum [int 5, r5])
  let rootMinus := alg.sqrt (alg.sub (int 5) r5)
  [(r3, mkRat 1 3),
    (one, mkRat 1 4),
    (tangentOfTenths alg 2, mkRat 1 5),
    (alg.div (alg.product [r2, rootMinus]) (alg.sum [one, r5]), mkRat 1 5),
    (tangentOfTenths alg 4, mkRat 2 5),
    (alg.div (alg.product [r2, rootPlus]) (alg.sum [minusOne, r5]), mkRat 2 5),
    (alg.product [.rat (mkRat 1 3), r3], mkRat 1 6),
    (alg.sum [r2, minusOne], mkRat 1 8),
    (alg.div narrow wide, mkRat 1 8),
    (alg.sum [r2, one], mkRat 3 8),
    (alg.div wide narrow, mkRat 3 8),
    (tangentOfTenths alg 1, mkRat 1 10),
    (alg.div (alg.sub r10 r2) (alg.product [int 2, rootPlus]), mkRat 1 10),
    (tangentOfTenths alg 3, mkRat 3 10),
    (alg.div (alg.sum [r2, r10]) (alg.product [int 2, rootMinus]), mkRat 3 10),
    (alg.sub (int 2) r3, mkRat 1 12),
    (alg.div (alg.sum [minusOne, r3]) (alg.sum [one, r3]), mkRat 1 12),
    (alg.sum [int 2, r3], mkRat 5 12),
    (alg.div (alg.sum [one, r3]) (alg.sum [minusOne, r3]), mkRat 5 12)]

/-- Whether a constant is built from exact numbers by sums, products, roots and circular functions
of multiples of π. -/
def isAlgebraic : Expr → Bool
  | .rat _ | .const .i => true
  | .sum xs | .product xs => areAlgebraic xs
  | .power b (.rat _) => isAlgebraic b
  | .call .sin [x] | .call .cos [x] | .call .tan [x] => (exactPiMultiple? x).isSome
  | _ => false
where
  /-- Whether several constants are built from exact numbers. -/
  areAlgebraic : List Expr → Bool
  | [] => true
  | x :: xs => isAlgebraic x && areAlgebraic xs

end Graphing.Expr
