namespace DefectLog.Preview

-- The four faces of a standard font.
structure Family where
  regular    : String
  bold       : String
  italic     : String
  boldItalic : String
deriving DecidableEq

namespace Family

def helvetica : Family :=
  ⟨"Helvetica", "Helvetica-Bold", "Helvetica-Oblique", "Helvetica-BoldOblique"⟩

def courier : Family :=
  ⟨"Courier", "Courier-Bold", "Courier-Oblique", "Courier-BoldOblique"⟩

def times : Family :=
  ⟨"Times-Roman", "Times-Bold", "Times-Italic", "Times-BoldItalic"⟩

-- The fonts of a document that have a counterpart among the standard fonts.
def known : List (String × Family) := [
  ("Arial", helvetica),
  ("Courier New", courier),
  ("Times New Roman", times)]

-- Any other font is shown as Helvetica.
def ofName (name : String) : Family :=
  (known.lookup name).getD helvetica

end Family
end DefectLog.Preview
