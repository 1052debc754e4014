import DefectLog.Word.Selector.Evaluation
import DefectLog.Word.Style

namespace DefectLog.Word

-- The styles of a document, and which name was last registered under a style id (latest first).
structure StyleBook where
  styles     : List Style
  registered : List (String × String) := []
deriving DecidableEq

namespace StyleBook

-- The styles that a document starts with, as far as they are kept: the default one and the headings. The other styles
-- of the template are left out, and a name of one of them is like any name that is new.
def template : StyleBook where
  styles := Style.normal :: (List.range' 1 9).map Style.templateHeading

-- The place of the style with a name. If there is none, the name is tried as an id.
def place? (book : StyleBook) (name : String) : Option Nat :=
  (book.styles.findIdx? (·.name == Style.storedName name)).or
    (book.styles.findIdx? (·.id == name))

def xml (book : StyleBook) : Xml :=
  Xml.w "styles" [] (book.styles.map Style.xml)

-- The place of the first style that a path expression selects, if it selects anything.
def select (book : StyleBook) (expression : String) : Except Fault (Option Nat) :=
  match Selector.evaluate book.xml expression with
  | .error f             => .error (.badSelector f)
  | .ok (.truth _)       => .error .selectsTruth
  | .ok (.number _)      => .error .selectsNumber
  | .ok (.text _)        => .error .selectsNoStyle
  | .ok (.nodes [])      => .ok none
  | .ok (.nodes (n :: _)) =>
    match n with
    | ⟨[_, i], none⟩ => .ok (some i)
    | _              => .error .selectsNoStyle

-- The place of the style that a name stands for. A name is put between quotation marks to look it up in
-- the document, so that one with a quotation mark in it may go on as a path expression of its own.
def find (book : StyleBook) (name : String) : Except Fault (Option Nat) := do
  checkText name
  if '"' ∈ name.toList then
    match ← book.select ("w:style[w:name/@w:val=\"" ++ Style.storedName name ++ "\"]") with
    | some i => return some i
    | none   => book.select ("w:style[@w:styleId=\"" ++ name ++ "\"]")
  else return book.place? name

def withNormal (book : StyleBook) (font : String) (size : Int) : StyleBook :=
  { book with styles := book.styles.modify 0 ({ · with font := some font, size := some size }) }

-- A name that the book does not know yet is added to it, unless there is a style that carries it and
-- could not be found. A name that it knows is configured again.
def register (defaultFont : String) (book : StyleBook) (heading : NamedStyle) :
    Except Fault StyleBook := do
  let registered := (heading.styleId, heading.name) :: book.registered
  match ← book.find heading.name with
  | some i =>
    let style ← Style.configure defaultFont heading (book.styles.getD i Style.normal)
    return { styles := book.styles.set i style, registered }
  | none =>
    if book.styles.any (·.name == heading.name) then throw (.repeatedStyle heading.name)
    let style ← Style.configure defaultFont heading (Style.ofName heading.name)
    return { styles := book.styles ++ [style], registered }

def ofDefaults (defaults : Defaults) : Except Fault StyleBook := do
  checkText defaults.font
  let size ← sizeText defaults.size
  defaults.namedStyles.foldlM (register defaults.font) (template.withNormal defaults.font size)

-- The name that is registered under a style id. An empty name counts as none.
def nameOf? (book : StyleBook) (styleId : String) : Option String :=
  nonempty? (book.registered.lookup styleId)

-- How a paragraph refers to the style with a name. The default style needs no reference.
def reference? (book : StyleBook) (name : String) : Except Fault (Option String) := do
  match (← book.find name).bind (book.styles[·]?) with
  | some style => return if style.isDefault then none else some style.id
  | none       => throw (.unknownStyle name)

end StyleBook
end DefectLog.Word
