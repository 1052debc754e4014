import DefectLog.Document.Basic
import DefectLog.Word.Run
import DefectLog.Word.Xml

namespace DefectLog.Word

-- A paragraph style. Everything below the names is absent until it is set.
structure Style where
  id                : String
  name              : String
  isDefault         : Bool := false
  custom            : Bool := false
  basedOn           : Option String := none
  next              : Option String := none
  link              : Option String := none
  priority          : Option Nat := none
  semiHidden        : Bool := false
  unhideWhenUsed    : Bool := false
  quick             : Bool := false
  revision          : Option String := none
  keepNext          : Bool := false
  keepLines         : Bool := false
  spacing           : Option (Int × Int) := none
  outlineLevel      : Option Int := none
  font              : Option String := none
  bold              : Option Bool := none
  boldComplex       : Bool := false
  italic            : Bool := false
  color             : Option Rgb := none
  size              : Option Int := none
  sizeComplex       : Option Nat := none
deriving DecidableEq

namespace Style

def normal : Style where
  id        := "Normal"
  name      := "Normal"
  isDefault := true
  quick     := true
  revision  := some "00FC693F"

-- The nine heading styles of the template differ in a few details. Their own colors, sizes and spacing are not kept,
-- since a heading of the document replaces them.
def templateHeading (n : Nat) : Style where
  id             := s!"Heading{n}"
  name           := s!"heading {n}"
  basedOn        := some "Normal"
  next           := some "Normal"
  link           := some s!"Heading{n}Char"
  priority       := some 9
  semiHidden     := 4 ≤ n
  unhideWhenUsed := 2 ≤ n
  quick          := true
  revision       := some "00FC693F"
  keepNext       := true
  keepLines      := true
  boldComplex    := n ≤ 4
  italic         := n ∈ [4, 6, 7, 9]
  sizeComplex    := if n = 1 then some 28 else if n = 2 then some 26 else if n ∈ [8, 9] then some 20 else none

-- The name of a heading of the template is shown with a capital letter and stored without one.
def storedName (name : String) : String :=
  if name ∈ (List.range' 1 9).map (s!"Heading {·}") then "h" ++ String.ofList (name.toList.drop 1)
  else name

-- The id of an added style is its name without spaces.
def idOfName (name : String) : String :=
  String.ofList (name.toList.filter (· ≠ ' '))

def ofName (name : String) : Style :=
  { id := idOfName name, name, custom := true }

-- What a heading style of the document sets in a style.
def configure (defaultFont : String) (heading : NamedStyle) (style : Style) : Except Fault Style := do
  let font := (nonempty? heading.font).getD defaultFont
  checkText font
  let size ← sizeText heading.size
  let color ← readColor heading.color
  let before ← lengthText heading.spacing.before
  let after ← lengthText heading.spacing.after
  return { style with
    basedOn      := some "Normal"
    next         := if style.id = "Normal" then none else some "Normal"
    quick        := true
    font         := some font
    size         := some size
    bold         := some heading.bold
    color        := some color
    spacing      := some (before, after)
    outlineLevel := some heading.outlineLevel }

open Xml

def paragraphProperties (s : Style) : List Xml :=
  flag "keepNext" s.keepNext ++ flag "keepLines" s.keepLines ++ (s.spacing.map Xml.spacing).toList ++
    (s.outlineLevel.map outline).toList

def boldXml : Bool → Xml
  | true  => leaf "b" []
  | false => value "b" "0"

def runProperties (s : Style) : List Xml :=
  (s.font.map fonts).toList ++ (s.bold.map boldXml).toList ++ flag "bCs" s.boldComplex ++
    flag "i" s.italic ++ flag "iCs" s.italic ++ (s.color.map Xml.color).toList ++
    (s.size.map (value "sz" <| toString ·)).toList ++
    (s.sizeComplex.map (value "szCs" <| toString ·)).toList

def xml (s : Style) : Xml :=
  let attributes := [("type", "paragraph")] ++ (if s.isDefault then [("default", "1")] else []) ++
    (if s.custom then [("customStyle", "1")] else []) ++ [("styleId", s.id)]
  w "style" attributes <|
    [value "name" s.name] ++ (s.basedOn.map (value "basedOn")).toList ++
    (s.next.map (value "next")).toList ++ (s.link.map (value "link")).toList ++
    (s.priority.map (value "uiPriority" <| toString ·)).toList ++ flag "semiHidden" s.semiHidden ++
    flag "unhideWhenUsed" s.unhideWhenUsed ++ flag "qFormat" s.quick ++
    (s.revision.map (value "rsid")).toList ++
    unlessEmpty "pPr" s.paragraphProperties ++ unlessEmpty "rPr" s.runProperties

end Style
end DefectLog.Word
