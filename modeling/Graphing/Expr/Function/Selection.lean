/-
  Graphing.Expr.Function.Selection

  The largest and the smallest of several expressions. Two expressions are
  compared by their values or by the sign of their difference; an argument
  that another one beats is dropped, nested selections are joined, and what
  opposite selections have in common is taken out of them.
-/
import Graphing.Expr.Function.Stepwise

namespace Graphing

/-! ## The two selections -/

/-- Whether a function selects one of its arguments. -/
def Fn.isSelection : Fn → Bool
  | .max | .min => true
  | _ => false

/-- The selection of the other end. -/
def Fn.otherEnd : Fn → Fn
  | .max => .min
  | _ => .max

/-- The argument that a selection never prefers to another one, and its value without arguments. -/
def Fn.weakest : Fn → Expr
  | .max => .negInf
  | _ => .posInf

namespace Expr

/-! ## Comparing -/

/-- Whether an expression can be compared with others at all: a constant must be real. -/
def isOrderable (x : Expr) : Bool :=
  match x with
  | .posInf | .negInf => true
  | .nan | .pole | .band => false
  | x =>
    if x.facts.real == some false then false
    else if x.isConstant then x.isNumber || x.isComparable
    else true

/-- Whether the first argument is at least the second, as far as that is known. -/
def atLeast (alg : Algebra) (x y : Expr) : Option Bool :=
  match x, y with
  | .posInf, _ | _, .negInf => some true
  | .negInf, _ | _, .posInf => some false
  | x, y =>
    if x.isNumber && y.isNumber then some !(lessNumber x y)
    else
      match x.realValue, y.realValue with
      | some u, some v => some (u ≥ v)
      | _, _ =>
        if x.facts.real == some true && y.facts.real == some true then
          (alg.sub x y).facts.negative.map (!·)
        else none

/-- Whether the first expression is at least the second, where either order of the two tells. -/
def compareDirectly (alg : Algebra) (x y : Expr) : Option Bool :=
  match atLeast alg x y with
  | some b => some b
  | none => (atLeast alg y x).map (!·)

/-- Whether the first expression is at least the second: where a direct comparison does not tell,
the sign of the difference does, once the factors common to its terms are taken out. -/
def compareValues (alg : Algebra) (x y : Expr) : Option Bool :=
  match compareDirectly alg x y with
  | some b => some b
  | none =>
    let d := factored alg (alg.sub x y)
    if d == .nan || d.facts.real == some false then none else compareDirectly alg d zero

/-- Whether a selection surely prefers the first constant. -/
def prefers (alg : Algebra) (f : Fn) (x y : Expr) : Bool :=
  if f == .max then atLeast alg y x == some false else atLeast alg x y == some false

/-! ## Selections as they stand -/

/-- The smallest expressions first; those of one size in the order of their keys. -/
def sortBySize (xs : List Expr) : List Expr :=
  let sized := xs.map fun x => (x.size, x.key, x)
  (sortBy (fun a b => a.1 < b.1 || (a.1 == b.1 && a.2.1.compare b.2.1 == .lt)) sized).map (·.2.2)

/-- A selection of arguments that are not compared. -/
def rawSelection (f : Fn) (args : List Expr) : Expr :=
  match args.eraseDups with
  | [] => f.weakest
  | [x] => x
  | xs => .call f (sortByKey xs)

/-- The arguments of an expression that is a call of the given function. -/
def argumentsOf? (f : Fn) : Expr → Option (List Expr)
  | .call g xs => if g == f then some xs else none
  | _ => none

mutual
/-- A selection and the selections nested in it. -/
def selections : Expr → List (Fn × List Expr)
  | .call f xs => if f.isSelection then (f, xs) :: selectionsOf xs else []
  | _ => []

/-- The selections in a list of expressions. -/
def selectionsOf : List Expr → List (Fn × List Expr)
  | [] => []
  | x :: xs => selections x ++ selectionsOf xs
end

/-! ## Arguments that add nothing -/

/-- The best constant among the leading arguments and among the first arguments of nested
selections of the same end. -/
def bestConstant? (alg : Algebra) (f : Fn) (args : List Expr) : Option Expr :=
  let nested := (selectionsOf args).filterMap fun (g, xs) =>
    if g == f then (sortBySize xs).head?.filter isComparable else none
  (nested ++ args.takeWhile isConstant).foldl
    (fun best x => match best with
      | none => some x
      | some b => some (if prefers alg f x b then x else b))
    none

/-- Beside a constant, drop the selections of the other end that are bounded by a worse one. -/
def dropBounded (alg : Algebra) (f : Fn) (args : List Expr) : List Expr :=
  if args.head?.any isConstant then
    match bestConstant? alg f args with
    | none => args
    | some best => args.filter fun x =>
      match (argumentsOf? f.otherEnd x).bind fun xs => (sortBySize xs).head? with
      | some first => !(prefers alg f best first)
      | none => true
  else args

mutual
/-- What an argument adds beside an argument `a`: a selection of the other end that has `a` among
its arguments adds no more than `a`, and a nested selection of the same end need not repeat `a`. -/
def absorb (f : Fn) (a : Expr) : Expr → Expr
  | .call g xs =>
    if !g.isSelection then .call g xs
    else if g != f && xs.contains a then a
    else rawSelection g (absorbAll f a xs)
  | x => x

/-- What the arguments of a nested selection add beside an argument `a`. -/
def absorbAll (f : Fn) (a : Expr) : List Expr → List Expr
  | [] => []
  | x :: xs => if x == a then absorbAll f a xs else absorb f a x :: absorbAll f a xs
end

/-- Let each argument absorb what the later ones share with it. -/
def absorbLater (f : Fn) : List Expr → List Expr
  | [] => []
  | a :: rest => a :: absorbLater f (rest.map (absorb f a))
termination_by args => args.length
decreasing_by simp

/-- Join the selections of the other end into one where all have an argument in common: the common
arguments leave them, as `c` leaves the smallest of `max c x` and `max c y`. -/
def factorOther (f : Fn) (args : List Expr) : List Expr :=
  match args.filterMap (argumentsOf? f.otherEnd) with
  | [] => args
  | first :: others =>
    let common := first.filter fun x => others.all (·.contains x)
    if common.isEmpty then args
    else
      let own := (first :: others).map fun xs => xs.filter fun x => !common.contains x
      let joined := if own.any List.isEmpty then []
        else [rawSelection f (own.map (rawSelection f.otherEnd))]
      args.filter (fun x => (argumentsOf? f.otherEnd x).isNone) ++
        [rawSelection f.otherEnd (common ++ joined)]

/-- Add an argument to those kept so far. It replaces those that it beats, and is dropped if it
beats none and one beats it. -/
def insertUnbeaten (beats : Expr → Expr → Option Bool) (kept : List Expr) (x : Expr) : List Expr :=
  let verdicts := kept.map fun k => (k, beats x k)
  if verdicts.any (·.2 == some true) || verdicts.all (·.2.isNone) then
    (verdicts.filter (·.2 != some true)).map Prod.fst ++ [x]
  else kept

/-! ## The rule -/

/-- The largest argument, or with `f` the minimum the smallest. -/
def selectionRule (alg : Algebra) (f : Fn) (args : List Expr) : Option Expr :=
  let flat := args.flatMap fun x => (argumentsOf? f x).getD [x]
  if flat.contains f.otherEnd.weakest then some f.otherEnd.weakest
  else
    let flat := sortBySize (flat.filter fun x => x != f.weakest).eraseDups
    let beats (x y : Expr) : Option Bool :=
      if x == y then some true else (compareValues alg x y).map (· == (f == .max))
    let candidates := factorOther f (absorbLater f (dropBounded alg f flat))
    match candidates.foldl (insertUnbeaten beats) [] with
    | [] => some f.weakest
    | [x] => some x
    | xs =>
      let xs := sortByKey xs
      if xs == args then none else some (.call f xs)

end Expr
end Graphing
