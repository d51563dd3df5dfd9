/-
  Graphing.Notation.Grammar

  The grammar of tokens with every operation written out: comparisons, signs
  of operations by how tightly they bind, powers, calls, rows and texts. Every
  reader takes what it reads from the front of the tokens and returns the
  rest.
-/
import Graphing.Notation.Call
import Graphing.Notation.Token

namespace Graphing.Notation

/-! ## Items and arguments -/

/-- The integer that an operand selects an item of a row with. -/
def index? : Operand → Option Int
  | .expr x => x.integer?
  | x => x.plain?

/-- The item of a row at an index, counted from the end if it is negative. -/
def item? (x : Operand) (i : Int) : Option Operand :=
  match x with
  | .row _ items =>
    let i := if i < 0 then i + items.length else i
    if i < 0 then none else items[i.toNat]?
  | _ => none

/-- One argument of a call: by its position, by its name, or a row of arguments. -/
inductive Given where
  | operand (x : Operand)
  | named (name : String) (x : Operand)
  | spread (x : Operand)

/-- Put one more argument in front of others. Those that are named stand last, each once. -/
def Given.before (g : Given) (args : Arguments) : Option Arguments :=
  match g with
  | .operand x => some { args with operands := x :: args.operands }
  | .spread (.row _ items) => some { args with operands := items ++ args.operands }
  | .spread _ => none
  | .named name x =>
    if !args.operands.isEmpty || args.others.contains name then none
    else if name == "evaluate" then
      if args.evaluate.isNone then some { args with evaluate := some x } else none
    else some { args with others := name :: args.others }

/-! ## Readers -/

mutual
/-- A chain of comparisons, or a single operand: each sign compares its two neighbours, and all
must hold. `read` reads a text between quotes. -/
def readComparison (read : String → Option Expr) :
    (fuel : Nat) → List Token → Option (Operand × List Token)
  | 0, _ => none
  | fuel + 1, ts => do
    let (x, rest) ← readBinary read fuel 1 ts
    readRelators read fuel none x rest

/-- Signs of comparison and what they compare behind an operand. `before` is the result so far. -/
def readRelators (read : String → Option Expr) :
    (fuel : Nat) → (before : Option Operand) → Operand → List Token →
      Option (Operand × List Token)
  | 0, _, _, _ => none
  | fuel + 1, before, x, ts =>
    let relator := match ts with
      | .op s :: _ => relator? s
      | _ => none
    match relator with
    | none => some (before.getD x, ts)
    | some r => do
      let (y, rest) ← readBinary read fuel 1 (ts.drop 1)
      let result ← r.apply x y
      match before with
      | none => readRelators read fuel (some result) y rest
      | some b => readRelators read fuel (some (if ← b.decides? then result else b)) y rest

/-- An operand whose operators bind at least as tightly as `level`. -/
def readBinary (read : String → Option Expr) :
    (fuel level : Nat) → List Token → Option (Operand × List Token)
  | 0, _, _ => none
  | fuel + 1, level, ts => do
    let (x, rest) ← readUnary read fuel ts
    readOperators read fuel level x rest

/-- Operators and right operands behind a left operand. -/
def readOperators (read : String → Option Expr) :
    (fuel level : Nat) → Operand → List Token → Option (Operand × List Token)
  | 0, _, _, _ => none
  | fuel + 1, level, x, ts =>
    match ts with
    | .op s :: rest =>
      match binaryOperator? s with
      | some o =>
        if o.level < level then some (x, ts)
        else do
          let (y, rest) ← readBinary read fuel (o.level + 1) rest
          readOperators read fuel level (← o.apply x y) rest
      | none => some (x, ts)
    | _ => some (x, ts)

/-- Signs before a power. -/
def readUnary (read : String → Option Expr) :
    (fuel : Nat) → List Token → Option (Operand × List Token)
  | 0, _ => none
  | fuel + 1, ts =>
    match ts with
    | .op "-" :: rest => do
      let (x, rest) ← readUnary read fuel rest
      return (← x.opposite, rest)
    | .op "+" :: rest => do
      let (x, rest) ← readUnary read fuel rest
      return (← x.positive, rest)
    | .op "~" :: rest => do
      let (x, rest) ← readUnary read fuel rest
      return (← x.complement, rest)
    | ts => do
      let (x, rest) ← readPrimary read fuel ts
      let (x, rest) ← readTrailers read fuel x rest
      match rest with
      | .op "**" :: rest =>
        let (y, rest) ← readUnary read fuel rest
        return (← x.power y, rest)
      | rest => return (x, rest)

/-- Indices behind a row, and arguments behind a function. -/
def readTrailers (read : String → Option Expr) :
    (fuel : Nat) → Operand → List Token → Option (Operand × List Token)
  | 0, _, _ => none
  | fuel + 1, x, ts =>
    match ts with
    | .op "[" :: rest => do
      let (i, rest) ← readComparison read fuel rest
      match rest with
      | .op "]" :: rest => readTrailers read fuel (← item? x (← index? i)) rest
      | _ => none
    | .op "(" :: rest => do
      let (args, rest) ← readArguments read fuel rest
      readTrailers read fuel (.expr (← applyOperand? read x args)) rest
    | ts => some (x, ts)

/-- A name, a call, a text, a row, or an operand in parentheses. -/
def readPrimary (read : String → Option Expr) :
    (fuel : Nat) → List Token → Option (Operand × List Token)
  | 0, _ => none
  | fuel + 1, ts =>
    match ts with
    | .op "(" :: rest => do
      let (xs, comma, rest) ← readRow read fuel ")" rest
      match xs, comma with
      | [x], false => return (x, rest)
      | xs, _ => return (.row true xs, rest)
    | .op "[" :: rest => do
      let (xs, _, rest) ← readRow read fuel "]" rest
      return (.row false xs, rest)
    | .name "Symbol" :: .op "(" :: .quoted s :: .op ")" :: rest => some (.expr (.var s), rest)
    | .name "Function" :: .op "(" :: .quoted s :: .op ")" :: rest =>
      some (.expr (.function s), rest)
    | .name f :: .op "(" :: rest =>
      if isCallable f then do
        let (args, rest) ← readArguments read fuel rest
        return (.expr (← applyName? read f args), rest)
      else none
    | .name s :: rest => do return (← nameValue? s, rest)
    | .literal x :: rest => some (.expr x, rest)
    | .text s :: .text t :: rest => readPrimary read fuel (.text (s ++ t) :: rest)
    | .text s :: rest => some (.text s, rest)
    | _ => none

/-- Operands up to the closing bracket, and whether there is a comma between or behind them. -/
def readRow (read : String → Option Expr) :
    (fuel : Nat) → (closing : String) → List Token → Option (List Operand × Bool × List Token)
  | 0, _, _ => none
  | fuel + 1, closing, ts =>
    if ts.head? == some (.op closing) then some ([], false, ts.drop 1)
    else do
      let (x, rest) ← readComparison read fuel ts
      match rest with
      | .op "," :: rest =>
        let (xs, _, rest) ← readRow read fuel closing rest
        return (x :: xs, true, rest)
      | rest => if rest.head? == some (.op closing) then return ([x], false, rest.drop 1) else none

/-- Arguments up to the closing parenthesis. -/
def readArguments (read : String → Option Expr) :
    (fuel : Nat) → List Token → Option (Arguments × List Token)
  | 0, _ => none
  | fuel + 1, ts =>
    match ts with
    | .op ")" :: rest => some ({}, rest)
    | ts => do
      let (g, rest) ← match ts with
        | .name s :: .op "=" :: rest => do
          let (x, rest) ← readComparison read fuel rest
          some (Given.named s x, rest)
        | .op "*" :: rest => do
          let (x, rest) ← readBinary read fuel 1 rest
          some (Given.spread x, rest)
        | ts => do
          let (x, rest) ← readComparison read fuel ts
          some (Given.operand x, rest)
      match rest with
      | .op "," :: rest =>
        let (args, rest) ← readArguments read fuel rest
        return (← g.before args, rest)
      | .op ")" :: rest => return (← g.before {}, rest)
      | _ => none
end

/-! ## Tokens of a formula -/

/-- How deep brackets may be nested, those around the text of a number or name included. -/
def maxNesting : Nat := 200

/-- Whether brackets stay within the limit, when some are open already. -/
def nestsWithin : (depth : Nat) → List Token → Bool
  | _, [] => true
  | depth, t :: rest =>
    if t == .lparen || t == .op "[" then depth < maxNesting && nestsWithin (depth + 1) rest
    else if t == .rparen || t == .op "]" then nestsWithin (depth - 1) rest
    else nestsWithin depth rest

/-- What is read of tokens: not the comments, which reach up to the end of their line, and no line
ends. -/
def meaningful (inComment : Bool) : List Token → List Token
  | [] => []
  | .newline :: rest => meaningful false rest
  | .comment :: rest => meaningful true rest
  | .finish :: rest => meaningful inComment rest
  | t :: rest => if inComment then meaningful true rest else t :: meaningful false rest

/-- The operand that tokens denote. -/
def readTokens (read : String → Option Expr) (ts : List Token) : Option Operand :=
  let ts := meaningful false ts
  if !nestsWithin 0 ts then none
  else
    match readComparison read (8 * ts.length + 16) ts with
    | some (x, []) => some x
    | _ => none

end Graphing.Notation
