/-
  Graphing.Notation.Vocabulary

  The names that formulas can use: constants, one-letter variables, and
  functions. A name that is not known here is read letter by letter.
-/
import Graphing.Expr.Basic

namespace Graphing.Notation

/-! ## Names -/

/-- Names of constants. -/
def constants : List String := ["e", "pi", "i"]

/-- Names that relations treat as functions and never as variables. -/
def functionNames : List String :=
  ["abs", "cbrt", "ceil", "cube", "exp", "expm1", "fix", "floor", "gcd", "lcm", "ln", "log",
   "log10", "log1p", "log2", "norm", "nthroot", "pow", "round", "sign", "sqrt", "square",
   "factorial", "gamma", "combinations", "permutations", "cumsum", "mad", "max", "mean", "median",
   "min", "mode", "prod", "std", "sum", "variance", "acos", "acosh", "acot", "acoth", "acsc",
   "acsch", "asec", "asech", "asin", "asinh", "atan", "atan2", "atanh", "cos", "cosh", "cot",
   "coth", "csc", "csch", "sec", "sech", "sin", "sinh", "tan", "tanh"]

/-- Functions that have no call of their own. -/
def uncallable : List String := ["cumsum", "mad", "mode"]

/-- Names that make numbers and names out of text; formulas can use them like functions. -/
def makers : List String := ["Integer", "Float", "Rational", "Symbol", "Function"]

/-- The functions that a formula can call. -/
def callables : List String := functionNames.filter fun f => !uncallable.contains f

/-- Letters that are variables by themselves. -/
def isLetterVariable (s : String) : Bool :=
  match s.toList with
  | [c] => 'a' ≤ c && c ≤ 'z' && c != 'e' && c != 'i'
  | _ => false

/-- A name with a meaning of its own. -/
def isKnown (s : String) : Bool :=
  isLetterVariable s || constants.contains s || callables.contains s || makers.contains s

/-- A name that can stand before its arguments. -/
def isCallable (s : String) : Bool := callables.contains s || makers.contains s

/-- Words that are reserved and never a name. -/
def reserved : List String :=
  ["False", "None", "True", "and", "as", "assert", "async", "await", "break", "class", "continue",
   "def", "del", "elif", "else", "except", "finally", "for", "from", "global", "if", "import",
   "in", "is", "lambda", "nonlocal", "not", "or", "pass", "raise", "return", "try", "while",
   "with", "yield"]

/-- Names of the Greek letters. -/
def greekLetters : List String :=
  ["alpha", "beta", "gamma", "delta", "epsilon", "zeta", "eta", "theta", "iota", "kappa", "lamda",
   "mu", "nu", "xi", "omicron", "pi", "rho", "sigma", "tau", "upsilon", "phi", "chi", "psi",
   "omega", "heta", "digamma", "koppa", "stigma", "sampi", "sho", "san"]

/-- Whether an unknown name is read letter by letter: it has more than one letter, no underscore,
and does not name a Greek letter. -/
def isSplittable (s : String) : Bool :=
  let cs := s.toList
  !(cs.contains '_') && cs.length > 1 &&
  !(greekLetters.contains (String.ofList (cs.map fun c =>
      if 'A' ≤ c && c ≤ 'Z' then Char.ofNat (c.toNat + 32) else c)))

/-- Functions whose names are common use, so that strict formulas know them by the same names. -/
def commonFunctions : List String :=
  ["abs", "floor", "sign", "exp", "ln", "log", "pow", "sqrt", "factorial", "gamma", "max", "min",
   "acos", "acosh", "acot", "acoth", "acsc", "acsch", "asec", "asech", "asin", "asinh", "atan",
   "atan2", "atanh", "cos", "cosh", "cot", "coth", "csc", "csch", "sec", "sech", "sin", "sinh",
   "tan", "tanh"]

/-- Functions that are defined by a formula. -/
def ruleNames : List String :=
  ["expm1", "log10", "log1p", "log2", "square", "cube", "pow", "combinations", "permutations",
   "sec", "csc", "cot", "asec", "acsc", "acot", "sech", "csch", "coth", "asech", "acsch", "acoth"]

end Graphing.Notation
