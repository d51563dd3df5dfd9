/-
  Graphing.Expr.Product

  The canonical form of products: powers of one base are joined, numbers are
  multiplied, roots of integers are combined, and the imaginary unit is
  counted as a root of minus one.
-/
import Graphing.Expr.Sum

namespace Graphing.Expr

/-! ## Collecting factors -/

/-- A product under construction. -/
structure ProductParts where
  /-- A number, a pole or a band. -/
  coefficient : Expr := one
  /-- The exponent of minus one. -/
  sign : Rat := 0
  /-- Bases with exponents. -/
  powers : List (Expr × Expr) := []
  /-- Positive numbers with exponents that are not numbers. -/
  numeric : List (Expr × Expr) := []
  /-- Positive numbers with fractions as exponents. -/
  roots : List (Expr × Rat) := []

/-- Multiply by one factor; `none` when the product has no meaning. -/
def ProductParts.mul (parts : ProductParts) (x : Expr) : Option ProductParts :=
  if x.isNumber then
    match parts.coefficient with
    | .pole => if x.isZeroNumber || x == .nan then none else some parts
    | .band => if x == .nan then none else
        some (if x.isZeroNumber then { parts with coefficient := zero } else parts)
    | c =>
      match mulNumbers c x with
      | .nan => none
      | p => some { parts with coefficient := p }
  else
    match x with
    | .pole =>
      if parts.coefficient.isZeroNumber then none
      else some { parts with coefficient := .pole }
    | .band =>
      if parts.coefficient.isZeroNumber then some parts
      else some { parts with coefficient := .band }
    -- signs and units are counted together, as powers of minus one
    | .const .i => some { parts with sign := parts.sign + mkRat 1 2 }
    | .power b e =>
      let (b', e') := splitPower (.power b e)
      match b', e' with
      | .rat _, .rat q | .real _, .rat q =>
        if b'.isNegativeNumber then
          let parts := { parts with sign := parts.sign + q }
          some (if b'.isMinusOne then parts
            else { parts with roots := parts.roots ++ [(negNumber b', q)] })
        else some { parts with roots := parts.roots ++ [(b', q)] }
      | b', e' =>
        if b'.isNumber && (b'.isPositiveNumber || e'.facts.integer == some true) then
          some { parts with numeric := parts.numeric ++ [(b', e')] }
        else some { parts with powers := parts.powers ++ [(b', e')] }
    | x => some { parts with powers := parts.powers ++ [splitPower x] }

/-! ## Joining powers -/

/-- Append to the entry of a key, in order of first occurrence. -/
def group {α β : Type} [BEq α] (pairs : List (α × β)) : List (α × List β) :=
  pairs.foldl
    (fun groups p =>
      if groups.any fun g => g.1 == p.1 then
        groups.map fun g => if g.1 == p.1 then (g.1, g.2 ++ [p.2]) else g
      else groups ++ [(p.1, [p.2])])
    []

/-- Join the powers of one base whose exponents are multiples of one expression. -/
def gather (alg : Algebra) (powers : List (Expr × Expr)) : List (Expr × Expr) :=
  (group powers).flatMap fun (b, exponents) =>
    let split := exponents.map fun e =>
      let (c, t) := splitCoefficient e
      (t, c)
    (group split).map fun (t, cs) => (b, alg.product [alg.sum cs, t])

/-- Powers after evaluation: a number, the resulting factors, and bases with exponents. -/
structure PowerResult where
  coefficient : Expr := one
  factors : List Expr := []
  powers : List (Expr × Expr) := []
  changed : Bool := false
  undefined : Bool := false

/-- Evaluate one power. -/
def PowerResult.add (alg : Algebra) (r : PowerResult) (be : Expr × Expr) : PowerResult :=
  let (b, e) := be
  if e.facts.zero == some true then
    let infinite := match b with
      | .sum xs | .product xs => xs.any isInfiniteAtom
      | _ => false
    { r with undefined := r.undefined || infinite }
  else if e.isOne then
    if b.isNumber then { r with coefficient := mulNumbers r.coefficient b }
    else { r with factors := r.factors ++ [b], powers := r.powers ++ [(b, e)] }
  else
    let p := alg.power b e
    let isPower : Expr → Bool
      | .power _ _ => true
      | _ => false
    if isPower p && !isPower b then
      let (b', e') := splitPower p
      { r with
        factors := r.factors ++ [p]
        powers := r.powers ++ [(b', e')]
        changed := r.changed || b' != b }
    else { r with factors := r.factors ++ [p], powers := r.powers ++ [(b, e)] }

/-- Evaluate powers; if that made bases equal, join and evaluate once more. -/
def evaluatePowers (alg : Algebra) (powers : List (Expr × Expr)) : PowerResult :=
  let first := (gather alg powers).foldl (PowerResult.add alg) {}
  let bases := first.powers.map Prod.fst
  if first.changed && bases.eraseDups.length != bases.length then
    let again := (gather alg first.powers).foldl (PowerResult.add alg) {}
    { again with
      coefficient := mulNumbers first.coefficient again.coefficient
      undefined := first.undefined || again.undefined }
  else first

/-! ## Joining roots of numbers -/

/-- Roots under construction: a number, and bases with exponents between zero and one. -/
structure RootParts where
  coefficient : Expr := one
  roots : List (Expr × Rat) := []

/-- Move the integer part of an exponent into the number. -/
def reduceRoot (alg : Algebra) (b : Expr) (q : Rat) : Expr × Option Rat :=
  if q.den = 1 then (alg.power b (.rat q), none)
  else if q.num > q.den then
    (alg.power b (int q.floor), some (q - q.floor))
  else (one, some q)

/-- Join the bases of equal exponents. -/
def joinRoots (alg : Algebra) (roots : List (Expr × Rat)) : RootParts :=
  let byBase := (group roots).map fun (b, es) => (es.foldl (· + ·) 0, b)
  (group byBase).foldl
    (fun parts (q, bases) =>
      let b := alg.product bases
      let (c, rest) := reduceRoot alg b q
      { coefficient := mulNumbers parts.coefficient c
        roots := match rest with
          | some r => parts.roots ++ [(b, r)]
          | none => parts.roots })
    {}

/-- The common divisor of two exact integers. -/
def integerGcd : Expr → Expr → Nat
  | .rat a, .rat b => if a.den = 1 ∧ b.den = 1 then Nat.gcd a.num.natAbs b.num.natAbs else 1
  | _, _ => 1

/-- Pull the common divisors that a base has with the bases behind it. -/
def shareDivisors (alg : Algebra) (b : Expr) (q : Rat) :
    List (Expr × Rat) → Expr × Expr × List (Expr × Rat) × List (Expr × Rat)
  | [] => (b, one, [], [])
  | (b', q') :: rest =>
    let g := integerGcd b b'
    if g ≤ 1 then
      let (r, c, others, grown) := shareDivisors alg b q rest
      (r, c, (b', q') :: others, grown)
    else
      let common := int g
      let (c, left) := reduceRoot alg common (q + q')
      let grow := match left with
        | some l => [(common, l)]
        | none => []
      let (r, c', others, grown) := shareDivisors alg (divNumbers b common) q rest
      (r, mulNumbers c c', (divNumbers b' common, q') :: others, grow ++ grown)

/-- Split roots until no two bases share a divisor; each root is then evaluated on its own. -/
def splitRoots (alg : Algebra) : (fuel : Nat) → List (Expr × Rat) → RootParts → RootParts
  | 0, _, parts => parts
  | _ + 1, [], parts => parts
  | fuel + 1, (b, q) :: rest, parts =>
    let (r, c, others, grown) := shareDivisors alg b q rest
    let parts := { parts with coefficient := mulNumbers parts.coefficient c }
    let parts :=
      if r.isOne then parts
      else
        (factors (alg.power r (.rat q))).foldl
          (fun (parts : RootParts) f =>
            match f with
            | .power b (.rat e) => { parts with roots := parts.roots ++ [(b, e)] }
            | f => { parts with coefficient := mulNumbers parts.coefficient f })
          parts
    splitRoots alg fuel (others ++ grown) parts

/-- A root of minus one: a sign, and the factor that remains. A root of the same order among
`roots` takes the sign into its base. -/
def rootOfMinusOne (sign : Rat) (roots : List (Rat × Expr)) :
    Bool × List Expr × List (Rat × Expr) :=
  let whole := sign.floor
  let part := sign - whole
  let negative := whole % 2 == 1
  if part.num = 0 then (negative, [], roots)
  else if part.den = 2 then (negative, [.const .i], roots)
  else
    match roots.find? fun r => r.1 == part && r.2.isPositiveNumber with
    | some chosen =>
      (negative, [], roots.map fun r => if r.1 == chosen.1 then (r.1, negNumber r.2) else r)
    | none => (negative, [.power minusOne (.rat part)], roots)

/-! ## The rule -/

/-- Remove what an infinite coefficient swallows, turning its sign where needed. -/
def absorbFactors (coefficient : Expr) (fs : List Expr) : Expr × List Expr :=
  match coefficient with
  | .posInf | .negInf =>
    fs.foldl
      (fun (c, kept) f =>
        let facts := f.facts
        if facts.positive == some true then (c, kept)
        else if facts.negative == some true then (negNumber c, kept)
        else (c, kept ++ [f]))
      (coefficient, [])
  | .pole =>
    (coefficient, fs.filter fun f =>
      !(f.facts.zero == some false && f.facts.real.isSome))
  | c => (c, fs)

/-- Put the coefficient before the sorted factors; a number times a single sum is distributed. -/
def assembleProduct (alg : Algebra) (coefficient : Expr) (fs : List Expr) : Expr :=
  let fs := sortByKey fs
  if coefficient.isOne then rawProduct fs
  else
    match coefficient, fs with
    | .rat _, [.sum ts] | .real _, [.sum ts] =>
      alg.sum (ts.map fun t => alg.product [coefficient, t])
    | c, fs => rawProduct (c :: fs)

/-- The canonical product. -/
def productRule (alg : Algebra) (xs : List Expr) : Expr :=
  match (xs.flatMap factors).filter fun x => !x.isOne with
  | [] => one
  | [x] => x
  | xs =>
    match xs.foldlM ProductParts.mul {} with
    | none => .nan
    | some parts =>
      let evaluated := evaluatePowers alg parts.powers
      if evaluated.undefined then .nan else
        let numeric := (group ((gather alg parts.numeric).map fun p => (p.2, p.1))).map
          fun (e, bases) => if e.isZeroNumber then one else alg.power (alg.product bases) e
        let joined := joinRoots alg parts.roots
        let count := parts.roots.length
        let split := splitRoots alg ((count + 2) * (count + 2)) joined.roots {}
        let roots := (group (split.roots.map fun r => (r.2, r.1))).map
          fun (e, bases) => (e, alg.product bases)
        let (negative, unit, roots) := rootOfMinusOne parts.sign roots
        let rooted := roots.map fun (e, b) => alg.power b (.rat e)
        let pieces := evaluated.factors ++ numeric ++ unit ++ rooted
        let numbers := [evaluated.coefficient, joined.coefficient, split.coefficient,
          if negative then minusOne else one]
        -- numbers and products that evaluation produced join the rest
        if pieces.any fun p => (match p with | .product _ | .pole | .band => true | _ => false) then
          alg.product (parts.coefficient :: numbers ++ pieces)
        else
          let (straggling, fs) := pieces.partition isNumber
          if parts.coefficient == .pole || parts.coefficient == .band then
            let (c, fs) := absorbFactors parts.coefficient fs
            if (numbers ++ straggling).any fun n => n.isZeroNumber || n == .nan then .nan
            else
              let rest := (numbers ++ straggling).foldl mulNumbers one
              let fs := if c == .pole then fs else if rest.isOne then fs else rest :: fs
              rawProduct (sortByKey (c :: fs))
          else
            let c := (numbers ++ straggling).foldl mulNumbers parts.coefficient
            let (c, fs) := absorbFactors c fs
            if c == .nan then .nan
            else if c.isZeroNumber then
              if fs.any fun f => f.facts.finite == some false then .nan else zero
            else assembleProduct alg c fs

end Graphing.Expr
