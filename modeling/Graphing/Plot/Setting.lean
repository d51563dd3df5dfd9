/-
  Graphing.Plot.Setting

  Named settings: values given by name, each read as the kind of value that is
  needed. A setting that is left out, or given without a value, reads as
  nothing.
-/
import Graphing.Notation.Lexeme
import Graphing.Number.Decimal

namespace Graphing

/-! ## Settings -/

/-- A value given for a setting. -/
inductive Setting where
  | absent
  | flag (b : Bool)
  | number (x : Float)
  | text (s : String)
  | list (values : List Setting)
  deriving Inhabited

/-- Settings in the order in which they were given. -/
abbrev Settings := List (String × Setting)

/-- Why a setting cannot be used. -/
inductive SettingFault where
  /-- There is no such setting. -/
  | unknown
  /-- The value is of the wrong kind. -/
  | wrongKind
  /-- The text is no number. -/
  | noNumber
  deriving Repr, DecidableEq

/-! ## Reading a value -/

namespace Setting

/-- The special value that a text in small letters names. -/
def specialNumber? (negative : Bool) (s : String) : Option Float :=
  if s == "nan" then some Binary64.nan
  else if s == "inf" || s == "infinity" then
    some (if negative then Binary64.negInf else Binary64.posInf)
  else none

/-- The value of digits with an optional point and exponent. -/
def decimalNumber? (negative : Bool) (s : List Char) : Option Float :=
  let (whole, rest) := Notation.digits Text.isAsciiDigit s
  let (frac, rest) := match rest with
    | '.' :: after => Notation.digits Text.isAsciiDigit after
    | rest => ([], rest)
  let (expo, rest) := Notation.exponentPart rest
  if !rest.isEmpty || (whole.isEmpty && frac.isEmpty) then none
  else
    let frac := Notation.plainDigits frac
    let magnitude : Int := Notation.digitsValue (expo.filter Text.isAsciiDigit)
    let power := if expo.contains '-' then -magnitude else magnitude
    some (Binary64.ofDecimal negative (Notation.digitsValue (whole ++ frac)) (power - frac.length))

/-- The number that a text stands for, with blanks around it and a sign. -/
def textNumber? (s : String) : Option Float :=
  let s := Text.strip s.toList
  let (negative, s) := match s with
    | '-' :: rest => (true, rest)
    | '+' :: rest => (false, rest)
    | s => (false, s)
  (specialNumber? negative (String.ofList (Text.lower s))).or (decimalNumber? negative s)

/-- Read a number. A flag counts as zero or one. -/
def number? : Setting → Except SettingFault (Option Float)
  | .absent => .ok none
  | .flag b => .ok (some (if b then 1 else 0))
  | .number x => .ok (some x)
  | .text s =>
    match textNumber? s with
    | some x => .ok (some x)
    | none => .error .noNumber
  | .list _ => .error .wrongKind

/-- Read a text. Other values are written out. -/
def text? : Setting → Option String
  | .absent => none
  | .flag b => some (if b then "True" else "False")
  | .number x => some (Decimal.general x)
  | .text s => some s
  | .list _ => some "[]"

/-- Read a flag. Values count as set unless they are zero or empty. -/
def flag? : Setting → Option Bool
  | .absent => none
  | .flag b => some b
  | .number x => some (x != 0)
  | .text s => some (!s.isEmpty)
  | .list values => some !values.isEmpty

/-- Read a list of numbers; what is no number is left out. -/
def numbers : Setting → List Float
  | .list values => values.filterMap fun v =>
      match v.number? with
      | .ok x => x
      | .error _ => none
  | _ => []

/-- Read a list of texts. -/
def texts : Setting → List String
  | .list values => values.filterMap text?
  | _ => []

end Setting

/-! ## Reading by name -/

/-- What was read of some settings, and what ended the reading early. -/
structure Readout (α : Type) where
  settings : α
  fault : Option SettingFault := none

namespace Settings

/-- The value given under a name. -/
def value (s : Settings) (name : String) : Setting := (s.lookup name).getD .absent

/-- Refuse settings that have none of the given names. -/
def only (s : Settings) (names : List String) : Except SettingFault Unit :=
  if s.all fun (name, _) => names.contains name then .ok () else .error .unknown

/-- Read a number by name. -/
def number? (s : Settings) (name : String) : Except SettingFault (Option Float) :=
  (s.value name).number?

/-- Read a text by name. -/
def text? (s : Settings) (name : String) : Option String := (s.value name).text?

/-- Read a flag by name. -/
def flag? (s : Settings) (name : String) : Option Bool := (s.value name).flag?

/-- Read a flag that has a usual value. A flag that is given without a value is not set. -/
def flagOr (s : Settings) (name : String) (usual : Bool) : Bool :=
  match s.lookup name with
  | none => usual
  | some v => v.flag?.getD false

end Settings
end Graphing
