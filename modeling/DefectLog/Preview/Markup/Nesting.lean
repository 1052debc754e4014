import DefectLog.Preview.Font
import DefectLog.Preview.Markup.ColorName
import DefectLog.Preview.Markup.Token

-- What markup a paragraph can be set from: its elements are closed in order, and their attributes say
-- something that can be set.
namespace DefectLog.Preview.Markup

inductive Element
  | paragraph
  | font
  | span
  | bold
  | italic
  | underline
  | strike
  | raised
  | lowered
  | greek
  | unbroken
  | lineBreak
deriving DecidableEq

namespace Element

-- Tags that are not known are passed over.
def ofTag? : String → Option Element
  | "para"   => some .paragraph
  | "font"   => some .font
  | "span"   => some .span
  | "b"      => some .bold
  | "strong" => some .bold
  | "i"      => some .italic
  | "em"     => some .italic
  | "u"      => some .underline
  | "strike" => some .strike
  | "del"    => some .strike
  | "super"  => some .raised
  | "sup"    => some .raised
  | "sub"    => some .lowered
  | "greek"  => some .greek
  | "nobr"   => some .unbroken
  | "br"     => some .lineBreak
  | _        => none

end Element

-- The digits of a decimal number, with a point among them or without one.
def isMantissa (s : List Char) : Bool :=
  let whole := s.takeWhile Char.isDigit
  match s.dropWhile Char.isDigit with
  | []          => !whole.isEmpty
  | '.' :: part => part.all Char.isDigit && !(whole.isEmpty && part.isEmpty)
  | _           => false

def dropSign : List Char → List Char
  | '+' :: s => s
  | '-' :: s => s
  | s        => s

def isDecimal (s : List Char) : Bool :=
  let s := dropSign (Text.trim s)
  match s.span fun c => c ≠ 'e' && c ≠ 'E' with
  | (mantissa, [])            => isMantissa mantissa
  | (mantissa, _ :: exponent) =>
    isMantissa mantissa && !(dropSign exponent).isEmpty && (dropSign exponent).all Char.isDigit

def dropEnd (unit : String) (s : List Char) : List Char :=
  if unit.toList.isSuffixOf s then s.take (s.length - unit.length) else s

-- A number, with a unit behind it or without one.
def isLength (s : List Char) : Bool :=
  isDecimal (["cm", "in", "pt", "i", "mm", "pica"].foldl (fun s unit => dropEnd unit s) s)

-- A number sign stands before hexadecimal digits, and so does `0x`. A color may also be a decimal number
-- or a name.
def isColor : List Char → Bool
  | '#' :: s        => (Text.Numeral.hexadecimal.parse s).isSome
  | '0' :: 'x' :: s => (Text.Numeral.hexadecimal.parse s).isSome
  | '0' :: 'X' :: s => (Text.Numeral.hexadecimal.parse s).isSome
  | s               =>
    (Text.Numeral.decimal.parse s).isSome || String.ofList (s.map Char.toLower) ∈ colorNames

-- The faces of the standard fonts.
def isFont (s : List Char) : Bool :=
  let faces := [Family.helvetica, Family.courier, Family.times].flatMap fun f =>
    [f.regular, f.bold, f.italic, f.boldItalic]
  let known := "Symbol" :: "ZapfDingbats" :: "Times" :: faces
  s.map Char.toLower ∈ known.map fun name => name.toList.map Char.toLower

namespace Element

-- The attributes that an element knows, with what each has to be.
def attributes : Element → List (String × (List Char → Bool))
  | .font      => ofText
  | .span      => ofText
  | .underline => ofLine
  | .strike    => ofLine
  | .raised    => ofShift
  | .lowered   => ofShift
  | _          => []
where
  ofText := [("size", isLength), ("name", isFont), ("face", isFont), ("color", isColor), ("fg", isColor),
    ("backcolor", isColor), ("bgcolor", isColor)]
  ofLine := [("color", isColor), ("width", isLength), ("offset", isLength), ("gap", isLength)]
  ofShift := [("size", isLength), ("rise", isLength)]

-- Some elements pay no attention to attributes.
def ignoresAttributes (e : Element) : Bool :=
  e ∈ [.bold, .italic, .greek, .lineBreak]

-- The last of several values counts.
def allows (e : Element) (given : List Attribute) : Bool :=
  e.ignoresAttributes || given.all fun a =>
    let value := ((given.reverse.find? (·.name = a.name)).bind (·.value))
    match e.attributes.lookup a.name, value with
    | some check, some text => check text
    | _, _                  => false

end Element

-- The open elements, innermost first, after one more token. Text needs an element around it that is no
-- line break.
def enter (around : List Element) : Token → Option (List Element)
  | .chars _                => if around = [] ∨ around.head? = some .lineBreak then none else some around
  | .opening tag attributes =>
    match Element.ofTag? tag with
    | none   => some around
    | some e =>
      if !e.allows attributes then none
      else if e = .paragraph then some [e]
      else if around = [] then none
      else some (e :: around)
  | .closing tag            =>
    match Element.ofTag? tag with
    | none   => some around
    | some e => if around.head? = some e then some around.tail else none

-- Every stretch of blanks becomes one space, and none is left at the ends. No-break spaces stay.
def squeeze (s : List Char) : List Char :=
  go false false s
where
  go (started waiting : Bool) : List Char → List Char
    | []     => []
    | c :: s =>
      if Text.isBlank c ∧ c ≠ '\u00A0' then go started true s
      else (if started && waiting then [' ', c] else [c]) ++ go true false s

-- Whether a paragraph can be set from markup.
def isWellNested (markup : List Char) : Bool :=
  match tokens? ("<para>".toList ++ squeeze markup ++ "</para>".toList) with
  | none        => false
  | some tokens => tokens.foldlM enter [] = some []

example : isWellNested "<font size=\"3\" color=\"#FF\"><b>x</b> &amp;</font><br/>".toList = true := by
  decide +kernel

example : isWellNested "<b><i>x</b></i>".toList = false ∧ isWellNested "<font size=\"x\">".toList = false := by
  decide +kernel

end DefectLog.Preview.Markup
