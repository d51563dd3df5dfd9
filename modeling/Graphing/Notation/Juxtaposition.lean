/-
  Graphing.Notation.Juxtaposition

  What stands side by side: unknown names are split into letters, factors
  without a sign between them are multiplied, and a function without
  parentheses is applied to the factor behind it. Each pass maps tokens to
  tokens; groups in parentheses are passed through first.
-/
import Graphing.Notation.Token

namespace Graphing.Notation

/-! ## Names that are read letter by letter -/

/-- The tokens of one letter of a name. Digits cannot be part of such a name. -/
def letterTokens (c : Char) : Option (List Token) :=
  let s := String.singleton c
  if isKnown s then some [.name s]
  else if Text.isDigit c then none
  else some [.name "Symbol", .lparen, .quoted s, .rparen]

/-- Split the names that are not known into letters. -/
def splitNames : List Token → Option (List Token)
  | .name maker :: .op "(" :: .quoted s :: .op ")" :: rest => do
    let more ← splitNames rest
    if isSplittable s then
      let letters ← s.toList.mapM letterTokens
      return letters.flatten ++ more
    else return [.name maker, .lparen, .quoted s, .rparen] ++ more
  | t :: rest => do return t :: (← splitNames rest)
  | [] => some []

/-! ## Groups and applied functions -/

/-- A token, or a function with its arguments in parentheses. -/
inductive Item where
  | token (t : Token)
  | applied (f : String) (group : List Token)
  deriving Inhabited

/-- The tokens of items. -/
def Item.tokens : Item → List Token
  | .token t => [t]
  | .applied f group => .name f :: group

/-- Split off the group at the front of the tokens behind an opening parenthesis: its inside, and
what follows the closing one. -/
def takeGroup : (depth : Nat) → List Token → Option (List Token × List Token)
  | _, [] => none
  | depth, t :: rest =>
    if t == .rparen then
      if depth = 0 then some ([], rest)
      else (takeGroup (depth - 1) rest).map fun (inside, after) => (t :: inside, after)
    else
      let depth := if t == .lparen then depth + 1 else depth
      (takeGroup depth rest).map fun (inside, after) => (t :: inside, after)

/-- Pass every group through `pass` and join functions with the groups behind them. A group that
belongs to no function falls apart into its tokens. The function that may take a group is the last
name, with nothing but groups behind it. -/
def itemsOf (pass : List Token → Option (List Token)) :
    (fuel : Nat) → (done : List Item) → List Token → Option (List Item)
  | 0, _, _ => none
  | _ + 1, done, [] => some done
  | fuel + 1, done, t :: rest =>
    if t == .rparen then none
    else if t == .lparen then do
      let (inside, after) ← takeGroup 0 rest
      let group := [.lparen] ++ (← pass inside) ++ [.rparen]
      match done.getLast? with
      | some (.token (.name f)) =>
        if isCallable f then itemsOf pass fuel (done.dropLast ++ [.applied f group]) after
        else itemsOf pass fuel (done ++ group.map .token) after
      | _ => itemsOf pass fuel (done ++ group.map .token) after
    else itemsOf pass fuel (done ++ [.token t]) rest

/-! ## Factors side by side -/

/-- Whether a sign of multiplication belongs between two items. -/
def multiplies : Item → Item → Bool
  | .applied _ _, .applied _ _ => true
  | .applied _ _, .token t => t == .lparen || t.isName
  | .token t, .applied _ _ => t == .rparen || (t.isName && !t.isCallable)
  | .token t, .token u =>
    if t == .rparen then u.isName || u == .lparen
    else if t.isName && !t.isCallable then u.isName || u == .lparen
    else false

/-- A name that was read as a function is a variable when it multiplies a group. -/
def asFactor : Item → Item → Item
  | .applied "Function" group, .token (.op "(") => .applied "Symbol" group
  | item, _ => item

/-- Put signs of multiplication between items. -/
def insertTimes : List Item → List Token
  | [] => []
  | [a] => a.tokens
  | a :: b :: rest =>
    (asFactor a b).tokens ++ (if multiplies a b then [.times] else []) ++ insertTimes (b :: rest)

/-- Multiply what stands side by side. -/
def multiplyFactors : (fuel : Nat) → List Token → Option (List Token)
  | 0, _ => none
  | fuel + 1, ts => (itemsOf (multiplyFactors fuel) (ts.length + 1) [] ts).map insertTimes

/-! ## Functions without parentheses -/

/-- The state of the pass that closes the parentheses it opens. -/
structure Pending where
  /-- Parentheses that are still open. -/
  opened : Nat := 0
  /-- The next token belongs to a power or product and is passed by. -/
  skip : Bool := false
  /-- Inside of the exponent of a function. -/
  exponent : Bool := false

/-- Whether a token is a name: a function with its group is not. -/
def Item.isName : Item → Bool
  | .token t => t.isName
  | _ => false

/-- One of the given operators. -/
def Item.isOpOf (ops : List String) : Item → Bool
  | .token (.op s) => ops.contains s
  | _ => false

/-- Put parentheses around the argument of a function that has none: the next factor with its
powers. -/
def insertParens (p : Pending) : List Item → List Token
  | [] => List.replicate p.opened .rparen
  | [a] => a.tokens ++ List.replicate p.opened .rparen
  | a :: b :: rest =>
    let callable := match a with
      | .token t => t.isCallable
      | _ => false
    let ends := match b with
      | .token t => t.endsOperand
      | _ => false
    if a.isName && !ends then
      if callable then
        a.tokens ++ .lparen :: insertParens { p with opened := p.opened + 1 } (b :: rest)
      else a.tokens ++ insertParens p (b :: rest)
    else if a.isName && b.isOpOf ["**"] then
      a.tokens ++ insertParens { p with exponent := p.exponent || callable } (b :: rest)
    else if p.exponent then
      let ends := (match a with
        | .applied _ _ => true
        | _ => false) || a.isOpOf ["*"]
      if ends && !b.isOpOf ["*"] then
        if b.isOpOf ["("] then a.tokens ++ insertParens { p with exponent := false } (b :: rest)
        else
          a.tokens ++ .lparen ::
            insertParens { p with exponent := false, opened := p.opened + 1 } (b :: rest)
      else a.tokens ++ insertParens p (b :: rest)
    else if p.opened > 0 then
      if b.isOpOf ["^", "**", "*"] then a.tokens ++ insertParens { p with skip := true } (b :: rest)
      else if p.skip then a.tokens ++ insertParens { p with skip := false } (b :: rest)
      else a.tokens ++ .rparen :: insertParens { p with opened := p.opened - 1 } (b :: rest)
    else a.tokens ++ insertParens p (b :: rest)

/-- Apply functions that stand without parentheses. -/
def applyFunctions : (fuel : Nat) → List Token → Option (List Token)
  | 0, _ => none
  | fuel + 1, ts =>
    (itemsOf (applyFunctions fuel) (ts.length + 1) [] ts).map (insertParens {})

/-! ## Powers of functions -/

/-- The state of the pass that moves exponents behind arguments. -/
structure Moving where
  exponent : List Token := []
  consuming : Bool := false
  level : Int := 0

/-- Move the exponent of a function behind its argument: `sin ** 2 (x)` is `sin (x) ** 2`. -/
def moveExponents (m : Moving) : List Token → List Token
  | [] => m.exponent
  | [t] => t :: m.exponent
  | t :: u :: rest =>
    if t.isName && u == .op "**" then
      t :: moveExponents { m with consuming := m.consuming || t.isCallable } (u :: rest)
    else if m.consuming then
      let t := if t == .name "Function" then .name "Symbol" else t
      if t == .rparen && u == .lparen then
        moveExponents { m with exponent := m.exponent ++ [t], consuming := false } (u :: rest)
      else if t == .times && u == .lparen then
        moveExponents { m with consuming := false } (u :: rest)
      else moveExponents { m with exponent := m.exponent ++ [t] } (u :: rest)
    else if !m.exponent.isEmpty then
      let level :=
        if t == .lparen then m.level + 1 else if t == .rparen then m.level - 1 else m.level
      if level = 0 then
        t :: m.exponent ++ moveExponents { m with exponent := [], level } (u :: rest)
      else t :: moveExponents { m with level } (u :: rest)
    else t :: moveExponents m (u :: rest)

/-! ## All passes -/

/-- The operators that a run of characters is made of, the longest first. -/
def operatorsOf : (fuel : Nat) → List Char → List Token
  | 0, _ => []
  | fuel + 1, run =>
    match scanOperator run with
    | some (s, rest) => .op s :: operatorsOf fuel rest
    | none => []

/-- Join operators that stand side by side: two signs of multiplication are a power. A gap keeps
them apart. `run` holds the characters of the operators before. -/
def fuse (run : List Char) : List Token → List Token
  | [] => operatorsOf run.length run
  | .op " " :: rest => operatorsOf run.length run ++ fuse [] rest
  | .op s :: rest => fuse (run ++ s.toList) rest
  | t :: rest => operatorsOf run.length run ++ t :: fuse [] rest

/-- Write powers with the operator that has their meaning. -/
def spellPowers (ts : List Token) : List Token :=
  fuse [] (ts.map fun t => if t == .op "^" then .op "**" else t)

/-- The tokens of a formula with every operation written out. -/
def explicitTokens (ts : List Token) : Option (List Token) := do
  let ts ← splitNames ts
  let fuel := ts.length + 1
  let ts ← multiplyFactors fuel (ts ++ [.finish])
  let ts ← applyFunctions fuel ts
  return spellPowers (moveExponents {} ts)

end Graphing.Notation
