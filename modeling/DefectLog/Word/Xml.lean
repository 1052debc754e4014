import DefectLog.Color

namespace DefectLog.Word

-- An element has a tag, attributes in order, and children. Characters stand between the tags of an
-- element that has no other children.
inductive Xml
  | element (tag : String) (attributes : List (String × String)) (children : List Xml)
  | chars (text : String)

namespace Xml

-- Only the four characters that end a text or a value are written in another way.
def escape (s : String) : String :=
  String.ofList (s.toList.flatMap go)
where
  go (c : Char) : List Char :=
    if c = '&' then "&amp;".toList
    else if c = '<' then "&lt;".toList
    else if c = '>' then "&gt;".toList
    else if c = '"' then "&quot;".toList
    else [c]

def printAttribute (a : String × String) : String :=
  " " ++ a.1 ++ "=\"" ++ escape a.2 ++ "\""

mutual
def print : Xml → String
  | .chars text                      => escape text
  | .element tag attributes children =>
    let head := "<" ++ tag ++ String.join (attributes.map printAttribute)
    match children with
    | []       => head ++ "/>"
    | c :: cs  => head ++ ">" ++ (print c ++ printAll cs) ++ "</" ++ tag ++ ">"
def printAll : List Xml → String
  | []      => ""
  | x :: xs => print x ++ printAll xs
end

-- Every tag and nearly every attribute belongs to the namespace `w`.
def w (tag : String) (attributes : List (String × String)) (children : List Xml) : Xml :=
  .element ("w:" ++ tag) (attributes.map fun (name, value) => ("w:" ++ name, value)) children

def leaf (tag : String) (attributes : List (String × String)) : Xml :=
  w tag attributes []

def value (tag : String) (text : String) : Xml :=
  leaf tag [("val", text)]

def flag (tag : String) (on : Bool) : List Xml :=
  if on then [leaf tag []] else []

-- An element that is left out when it would have no children.
def unlessEmpty (tag : String) (children : List Xml) : List Xml :=
  if children.isEmpty then [] else [w tag [] children]

def fonts (name : String) : Xml :=
  leaf "rFonts" [("ascii", name), ("hAnsi", name)]

def color (c : Rgb) : Xml :=
  value "color" (String.ofList c.upperHex)

def spacing (s : Int × Int) : Xml :=
  leaf "spacing" [("before", toString s.1), ("after", toString s.2)]

def outline (level : Int) : Xml :=
  value "outlineLvl" (toString level)

end Xml
end DefectLog.Word
