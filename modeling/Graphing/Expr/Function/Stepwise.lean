/-
  Graphing.Expr.Function.Stepwise

  Magnitude, sign, real part and rounding: functions with values that are
  decided by what is known of their argument.
-/
import Graphing.Expr.CommonFactor
import Graphing.Expr.Function.Hyperbolic

namespace Graphing.Expr

/-! ## Magnitude and sign -/

/-- A negative whole exponent. -/
def isInverse : Expr → Bool
  | .power _ e => (e.integer?.map fun n => decide (n < 0)).getD false
  | _ => false

mutual
/-- Write `b - a` as `-(a - b)` in all sums where `a - b` reads with fewer signs, so that the signs
can leave products and odd functions. -/
def withSignsOut (alg : Algebra) : Expr → Expr
  | .sum ts =>
    let ts' := withSignsOutAll alg ts
    let x := if ts' == ts then .sum ts else alg.sum ts'
    match x with
    | .sum us => if leadsNegative alg (.sum us) then rawProduct [minusOne, alg.neg x] else x
    | x => x
  | .product fs =>
    let fs' := withSignsOutAll alg fs
    if fs' == fs then .product fs else alg.product fs'
  | .power b e =>
    let b' := withSignsOut alg b
    if b' == b then .power b e else alg.power b' e
  | .call f args =>
    let args' := withSignsOutAll alg args
    if f == .exp || args' == args then .call f args else alg.call f args'
  | x => x

/-- The same for several expressions. -/
def withSignsOutAll (alg : Algebra) : List Expr → List Expr
  | [] => []
  | x :: xs => withSignsOut alg x :: withSignsOutAll alg xs
end

/-- An expression of the same magnitude that reads with few signs. -/
def unsigned (alg : Algebra) (x : Expr) : Expr :=
  match withSignsOut alg x with
  | .product [.rat q, .sum ts] => if q = -1 then .sum ts else .product [.rat q, .sum ts]
  | x => x

/-- The magnitude of a product: each factor with a simpler magnitude leaves it. -/
def absOfProduct (alg : Algebra) (fs : List Expr) : Expr :=
  let parts : List (Expr ⊕ Expr) := fs.map fun f =>
    match f with
    | .power b e =>
      if isInverse f then
        match alg.call .abs [b] with
        | .call .abs _ => .inr f
        | known => .inl (alg.power known e)
      else
        match alg.call .abs [f] with
        | .call .abs _ => .inr f
        | known => .inl known
    | f =>
      match alg.call .abs [f] with
      | .call .abs _ => .inr f
      | known => .inl known
  let known := parts.filterMap fun p => match p with
    | .inl k => some k
    | .inr _ => none
  let unknown := parts.filterMap fun p => match p with
    | .inr u => some u
    | .inl _ => none
  if unknown.isEmpty then alg.product known
  else alg.product (known ++ [.call .abs [alg.product unknown]])

/-- The magnitude of a sum of real terms and multiples of the imaginary unit: the root of its
product with the conjugate, multiplied out. -/
def absOfSum (alg : Algebra) (ts : List Expr) : Option Expr :=
  (realAndImaginary? ts).map fun (re, im) =>
    let times (xs : List Expr) : List Expr :=
      xs.flatMap fun a => xs.map fun b => alg.product [a, b]
    alg.sqrt (alg.sum (times re ++ times im))

/-- The magnitude. -/
def absRule (alg : Algebra) (x : Expr) : Option Expr :=
  let x := unsigned alg x
  let kept : Option Expr := some (.call .abs [x])
  match x with
  | .nan => some .nan
  | .pole | .posInf | .negInf => some .posInf
  | .rat q => some (.rat (if q < 0 then -q else q))
  | .real r => some (.real (if r.sign < 0 then r.neg else r))
  | .const .i => some one
  | .call .exp [y] => some (alg.call .exp [alg.call .re [y]])
  | .call .sign [y] => if y.facts.zero == some false then some one else kept
  | .product fs =>
    -- a quotient of a constant by an expression with variables
    let (bottom, top) := fs.partition isInverse
    if !bottom.isEmpty && bottom.all (fun f => !f.isConstant) && top.all isConstant then
      some (alg.div (alg.call .abs [alg.product top])
        (alg.call .abs [alg.inv (alg.product bottom)]))
    else some (absOfProduct alg fs)
  | .power b e =>
    if isInverse x && !b.names.isEmpty then some (alg.inv (alg.call .abs [alg.inv x]))
    else
      let fb := b.facts
      if fb.real == some true then
        match e.integer? with
        | some n =>
          if n % 2 = 0 then some x
          else if b.isMinusOne then some one
          else some (alg.power (alg.call .abs [b]) e)
        | none =>
          if e.facts.integer == some true then
            some (if e.isEven? == some true then x else alg.power (alg.call .abs [b]) e)
          else if fb.nonNegative then some (alg.power b (alg.call .re [e]))
          else if fb.negative == some true && e.facts.real == some true then
            some (alg.power (alg.neg b) e)
          else kept
      else if b.names.isEmpty && b.isConstant then
        match b.complexNumber? with
        | some (re, im) =>
          let size := alg.sqrt (alg.sum [alg.power re (int 2), alg.power im (int 2)])
          if e.facts.real == some true then some (alg.power size e) else kept
        | none => kept
      else kept
  | x =>
    let f := x.facts
    if f.zero == some true then some zero
    else if f.nonNegative then some x
    else if f.nonPositive then some (alg.neg x)
    else if f.real == some true then kept
    else
      match x with
      | .sum ts => some ((absOfSum alg ts).getD (.call .abs [x]))
      | _ => kept

/-- The sign of the imaginary part of a constant on the imaginary axis. -/
def imaginarySign? (x : Expr) : Option Int := do
  if !x.isConstant then failure
  let z ← x.value
  if z.isFinite && negligible z.re z && z.im != 0 then return if z.im < 0 then -1 else 1
  else failure

/-- The sign. -/
def signRule (alg : Algebra) (x : Expr) : Option Expr :=
  let f := x.facts
  match x with
  | .nan => some .nan
  | .call .sign [y] => some (.call .sign [y])
  | .const .i => some (.const .i)
  | .product fs =>
    let (c, t) := splitCoefficient (.product fs)
    let start : Expr := if c.isNegativeNumber then minusOne else one
    let (s, unknown) := (factors t).foldl
      (fun (s, unknown) (a : Expr) =>
        let fa := a.facts
        if fa.negative == some true then (alg.neg s, unknown)
        else if fa.positive == some true then (s, unknown)
        else
          match imaginarySign? a with
          | some n => (alg.product [int n, s, .const .i], unknown)
          | none => (s, unknown ++ [a]))
      (start, ([] : List Expr))
    if c.isOne && unknown.length == (factors t).length then none
    else if unknown.isEmpty then some s
    else some (alg.product [s, alg.call .sign [alg.product unknown]])
  | _ =>
    if f.zero == some true then some zero
    else if f.positive == some true then some one
    else if f.negative == some true then some minusOne
    else
      match x with
      | .power _ e => if e == .half && (imaginarySign? x).isSome then some (.const .i) else none
      | _ => none

/-! ## Real part -/

/-- The real part: sums are taken term by term and real factors are taken out. -/
def reRule (alg : Algebra) (x : Expr) : Option Expr :=
  let f := x.facts
  if x == .nan || x == .pole then some .nan
  else if f.real == some true then some x
  else
    match x with
    | .const .i => some zero
    | .sum ts => some (alg.sum (ts.map fun t => alg.call .re [t]))
    | .product fs =>
      let (onLine, rest) := fs.partition fun t => t.facts.real == some true
      if rest == [.const .i] then some zero
      else if onLine.isEmpty then none
      else some (alg.product (onLine ++ [alg.call .re [alg.product rest]]))
    | _ => none

/-! ## Rounding -/

/-- A double that is a whole number, as an integer. -/
def wholeFloat (x : Float) : Int := ((Binary64.toRat? x).map Rat.floor).getD 0

/-- The integer that a value is but for rounding errors, or else the value. -/
def snapToInteger (v : Float) : Float :=
  let n := v.round
  if (v - n).abs ≤ 1e-13 * (1 + v.abs) && v.abs < 1e9 then n else v

/-- Round towards negative infinity, or with `up` towards positive infinity: whole terms leave the
function, and constants are rounded. -/
def roundRule (alg : Algebra) (f : Fn) (up : Bool) (x : Expr) : Option Expr :=
  let roundReal (v : Float) : Int :=
    let v := snapToInteger v
    wholeFloat (if up then v.ceil else v.floor)
  let roundRat (q : Rat) : Int := if up then -((-q).floor) else q.floor
  match x with
  | .nan | .pole | .posInf | .negInf => some x
  | .rat q => some (int (roundRat q))
  | .real r => some (int (roundRat r.toRat))
  | x =>
    let whole : Expr → Option Expr
      | .rat q => if q.den = 1 then some (.rat q) else none
      | .real r => if r.isInt then some (int r.floor) else none
      | .const .i => some (.const .i)
      | .product [.rat q, .const .i] =>
        if q.den = 1 then some (.product [.rat q, .const .i]) else none
      | t => if t.facts.integer == some true then some t else none
    -- whole terms come out of the call
    let out := (terms x).filterMap whole
    let rest := (terms x).filter fun t => (whole t).isNone
    let (constant, free) := rest.partition isConstant
    let total := alg.sum constant
    -- constants are rounded now, unless a free term is left that could carry them over
    let settled : Option Expr :=
      if constant.isEmpty then none
      else if free.isEmpty then
        match total with
        | .rat q => some (int (roundRat q))
        | .real r => some (int (roundRat r.toRat))
        | t =>
          match t.value with
          | some z =>
            if !z.isFinite then none
            else if negligible z.im z then some (int (roundReal z.re))
            else
              let re := if negligible z.re z then 0 else z.re
              some (alg.sum [int (roundReal re), alg.product [int (roundReal z.im), .const .i]])
          | none => none
      else none
    match settled with
    | some n => some (alg.sum (n :: out))
    | none =>
      if rest.isEmpty then some (alg.sum out)
      else
        -- what is rounded already is whole
        match alg.sum rest with
        | .call .floor [y] => some (alg.sum (.call .floor [y] :: out))
        | .call .ceil [y] => some (alg.sum (.call .ceil [y] :: out))
        | inner => if out.isEmpty && inner == x then none
            else some (alg.sum (.call f [inner] :: out))

end Graphing.Expr
