/-
  Graphing.Surface.Validator

  Which style values a figure takes.

  A handle shows itself by setting the attributes of its trace, one after the
  other.  The figure looks at each value; at the first one that it refuses the
  handle stops, and the attributes after that one stay as they were.
-/
import Graphing.Surface.Handle
import Graphing.Text.Character

namespace Graphing

/-! ## Attributes of a trace -/

/-- What a handle sets in its trace. -/
inductive Attribute where
  | points (xs ys : List Float)
  | mode (m : String)
  | line (l : LineStyle)
  | marker (m : MarkerStyle)
  | visible (b : Bool)

/-- Set an attribute. -/
def Attribute.set (t : Trace) : Attribute → Trace
  | .points xs ys => { t with xs, ys }
  | .mode m => { t with mode := m }
  | .line l => { t with line := some l }
  | .marker m => { t with marker := some m }
  | .visible b => { t with visible := b }

/-- What a shape sets. -/
def Shape.attributes : Shape → List Attribute
  | .curve c =>
    [.points c.xs c.ys, .mode c.mode, .line ⟨c.color, c.width, c.dash⟩,
      .marker ⟨c.color, c.markerSize, none⟩]
  | .marker m =>
    [.points [m.coords.1] [m.coords.2], .marker ⟨m.fill, m.size, some (m.color, 2)⟩]
  | .segment g =>
    [.points [g.start.1, g.finish.1] [g.start.2, g.finish.2], .line ⟨g.color, g.width, g.dash⟩]

/-- What a handle sets, in this order: its trace becomes visible last. -/
def Handle.attributes (h : Handle) : List Attribute := h.shape.attributes ++ [.visible h.visible]

/-- A handle that sets all of its attributes shows its state. -/
theorem Handle.foldl_attributes (h : Handle) (t : Trace) :
    h.attributes.foldl Attribute.set t = h.render t := by
  obtain ⟨trace, shape, visible, removed⟩ := h
  cases shape <;> rfl

/-! ## Validators -/

/-- Which style values a figure takes. -/
structure Validator where
  color : String → Bool
  width : Float → Bool
  dash : String → Bool
  mode : String → Bool
  size : Float → Bool

namespace Validator

/-- A figure that takes everything. -/
def all : Validator where
  color _ := true
  width _ := true
  dash _ := true
  mode _ := true
  size _ := true

/-- Whether an attribute is taken. A line and a marker are taken as a whole. -/
def takes (v : Validator) : Attribute → Bool
  | .points _ _ | .visible _ => true
  | .mode m => v.mode m
  | .line l => v.color l.color && v.width l.width && v.dash l.dash
  | .marker m => v.color m.color && v.size m.size &&
    m.outline.all fun (color, width) => v.color color && v.width width

/-- Whether everything that a handle sets is taken. -/
def takesHandle (v : Validator) (h : Handle) : Bool := h.attributes.all v.takes

end Validator

/-- Show a handle in a trace, up to the first value that is refused. -/
def Handle.renderOn (v : Validator) (h : Handle) (t : Trace) : Trace :=
  (h.attributes.takeWhile v.takes).foldl Attribute.set t

/-! ## The documented values -/

namespace Validator

/-- The named colors. -/
def namedColors : List String :=
  ["aliceblue", "antiquewhite", "aqua", "aquamarine", "azure", "beige", "bisque", "black",
   "blanchedalmond", "blue", "blueviolet", "brown", "burlywood", "cadetblue", "chartreuse",
   "chocolate", "coral", "cornflowerblue", "cornsilk", "crimson", "cyan", "darkblue", "darkcyan",
   "darkgoldenrod", "darkgray", "darkgrey", "darkgreen", "darkkhaki", "darkmagenta",
   "darkolivegreen", "darkorange", "darkorchid", "darkred", "darksalmon", "darkseagreen",
   "darkslateblue", "darkslategray", "darkslategrey", "darkturquoise", "darkviolet", "deeppink",
   "deepskyblue", "dimgray", "dimgrey", "dodgerblue", "firebrick", "floralwhite", "forestgreen",
   "fuchsia", "gainsboro", "ghostwhite", "gold", "goldenrod", "gray", "grey", "green",
   "greenyellow", "honeydew", "hotpink", "indianred", "indigo", "ivory", "khaki", "lavender",
   "lavenderblush", "lawngreen", "lemonchiffon", "lightblue", "lightcoral", "lightcyan",
   "lightgoldenrodyellow", "lightgray", "lightgrey", "lightgreen", "lightpink", "lightsalmon",
   "lightseagreen", "lightskyblue", "lightslategray", "lightslategrey", "lightsteelblue",
   "lightyellow", "lime", "limegreen", "linen", "magenta", "maroon", "mediumaquamarine",
   "mediumblue", "mediumorchid", "mediumpurple", "mediumseagreen", "mediumslateblue",
   "mediumspringgreen", "mediumturquoise", "mediumvioletred", "midnightblue", "mintcream",
   "mistyrose", "moccasin", "navajowhite", "navy", "oldlace", "olive", "olivedrab", "orange",
   "orangered", "orchid", "palegoldenrod", "palegreen", "paleturquoise", "palevioletred",
   "papayawhip", "peachpuff", "peru", "pink", "plum", "powderblue", "purple", "red", "rosybrown",
   "royalblue", "rebeccapurple", "saddlebrown", "salmon", "sandybrown", "seagreen", "seashell",
   "sienna", "silver", "skyblue", "slateblue", "slategray", "slategrey", "snow", "springgreen",
   "steelblue", "tan", "teal", "thistle", "tomato", "turquoise", "violet", "wheat", "white",
   "whitesmoke", "yellow", "yellowgreen"]

/-- A hexadecimal digit of a color in small letters. -/
def isHexDigit (c : Char) : Bool := Text.isAsciiDigit c || ('a' ≤ c && c ≤ 'f')

/-- The parts of a text between separators. -/
def partsAt (isSeparator : Char → Bool) : List Char → List (List Char)
  | [] => [[]]
  | c :: cs =>
    match partsAt isSeparator cs with
    | [] => [[c]]
    | part :: parts => if isSeparator c then [] :: part :: parts else (c :: part) :: parts

/-- A component of a color: digits and points, and perhaps a percent sign. -/
def isComponent (s : List Char) : Bool :=
  let rest := s.dropWhile fun c => Text.isDigit c || c == '.'
  rest.length < s.length && (rest.isEmpty || rest == ['%'])

/-- What stands between an opening text and a closing bracket. -/
def inside? (opening : String) (s : List Char) : Option (List Char) :=
  if opening.toList.isPrefixOf s && s.getLast? == some ')' then
    some (s.drop opening.toList.length).dropLast
  else none

/-- A color given by its components. -/
def isColorFunction (s : List Char) : Bool :=
  ["rgb(", "rgba(", "hsl(", "hsla(", "hsv(", "hsva("].any fun opening =>
    (inside? opening s).any fun components =>
      let parts := partsAt (· == ',') components
      (parts.length == 3 || parts.length == 4) && parts.all isComponent

/-- A color in small letters and without spaces. -/
def isPlainColor (s : List Char) : Bool :=
  (match s with
    | '#' :: digits => (digits.length == 3 || digits.length == 6) && digits.all isHexDigit
    | _ => false) ||
  isColorFunction (Text.strip s) || (inside? "var(--" s).isSome ||
  namedColors.any fun name => name.toList == s

/-- A length in a dash pattern, with its unit. -/
def isDashLength (s : List Char) : Bool :=
  let (whole, rest) := s.span Text.isDigit
  let rest := match rest with
    | '.' :: after =>
      let (frac, beyond) := after.span Text.isDigit
      if frac.isEmpty then rest else beyond
    | rest => rest
  !whole.isEmpty && (rest.isEmpty || rest == ['%'] || rest == ['p', 'x'])

/-- Lengths with blanks between them. -/
def isDashRow (s : List Char) : Bool :=
  let parts := partsAt Text.isBlank s
  !(parts.headD []).isEmpty && !(parts.getLastD []).isEmpty &&
    parts.all fun part => part.isEmpty || isDashLength part

/-- A list of lengths, with blanks or a comma between them. Blanks may follow the comma. -/
def isDashList (s : List Char) : Bool :=
  match partsAt (· == ',') s with
  | [] => false
  | row :: rows => isDashRow row && rows.all fun row => isDashRow (Text.stripLeft row)

/-- The named dash patterns. -/
def namedDashes : List String := ["solid", "dot", "dash", "longdash", "dashdot", "longdashdot"]

/-- A mode: flags that are put together. -/
def isMode (s : List Char) : Bool :=
  Text.strip s == "none".toList ||
    (partsAt (fun c => c == ',' || c == '+') s).all fun flag =>
      ["lines", "markers", "text"].any fun name => name.toList == Text.strip flag

/-- A number that is not negative. -/
def isNotNegative (x : Float) : Bool := x > 0 || x == 0

/-- The values that a figure is documented to take. -/
def documented : Validator where
  color s := isPlainColor (Text.lower (s.toList.filter (· != ' ')))
  width := isNotNegative
  dash s := namedDashes.contains s || isDashList s.toList
  mode s := isMode s.toList
  size := isNotNegative

end Validator
end Graphing
