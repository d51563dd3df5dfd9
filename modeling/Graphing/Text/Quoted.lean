/-
  Graphing.Text.Quoted

  Text between quotes, as messages show it. Single quotes are used unless the
  text holds one and no double quote; what is not printable is written as an
  escape of its code point.
-/
import Graphing.Text.Character

namespace Graphing.Text.Quoted

/-! ## Escapes -/

/-- `width` hexadecimal digits of `n`. -/
def hex (width n : Nat) : List Char :=
  let ds := Nat.toDigits 16 n
  List.replicate (width - ds.length) '0' ++ ds

/-- An escape of a code point in two, four or eight hexadecimal digits. -/
def codeEscape (n : Nat) : List Char :=
  if n < 0x100 then '\\' :: 'x' :: hex 2 n
  else if n < 0x10000 then '\\' :: 'u' :: hex 4 n
  else '\\' :: 'U' :: hex 8 n

/-- One character between `quote`s. -/
def encodeChar (quote c : Char) : List Char :=
  if c == quote || c == '\\' then ['\\', c]
  else if c == '\n' then ['\\', 'n']
  else if c == '\r' then ['\\', 'r']
  else if c == '\t' then ['\\', 't']
  else if isPrintable c then [c]
  else codeEscape c.toNat

/-! ## Quotes -/

/-- The quote that needs fewer escapes: the single one unless only it occurs. -/
def quoteFor (s : List Char) : Char :=
  if s.contains '\'' && !s.contains '"' then '"' else '\''

/-- Text between quotes. -/
def encode (s : List Char) : List Char :=
  let q := quoteFor s
  q :: s.flatMap (encodeChar q) ++ [q]

/-- A string between quotes. -/
def quoted (s : String) : String := String.ofList (encode s.toList)

end Graphing.Text.Quoted
