import DefectLog.Text.Reference

-- What markup is made of. Reading it forgives much, but not a tag that is never closed.
namespace DefectLog.Preview.Markup

-- An attribute may stand without a value.
structure Attribute where
  name  : String
  value : Option (List Char)
deriving DecidableEq

-- A tag that closes itself counts as two tokens.
inductive Token
  | opening (tag : String) (attributes : List Attribute)
  | closing (tag : String)
  | chars (text : List Char)
deriving DecidableEq

namespace Token

def isLetter (c : Char) : Bool :=
  c.isAlpha

-- What ends the name of a tag.
def endsTag (c : Char) : Bool :=
  c = '\t' || c = '\n' || c = '\r' || c = '\x0c' || c = ' ' || c = '/' || c = '>' || c = '\x00'

def lower (s : List Char) : String :=
  String.ofList (s.map Char.toLower)

-- The rest after the next angle bracket that closes.
def afterBracket? (s : List Char) : Option (List Char) :=
  match s.dropWhile (· ≠ '>') with
  | _ :: rest => some rest
  | []        => none

-- Blanks and slashes stand between attributes. The slash of a tag that closes itself is none of them.
def skipGaps : List Char → List Char
  | []     => []
  | c :: s =>
    if c = '/' ∧ s.head? = some '>' then c :: s
    else if Text.isBlank c ∨ c = '/' then skipGaps s
    else c :: s

-- A value between two marks, the first of which has been read.
def quotedValue? (mark : Char) (s : List Char) : Option (List Char × List Char) :=
  match s.dropWhile (· ≠ mark) with
  | _ :: rest => some (Text.Reference.resolve (s.takeWhile (· ≠ mark)), rest)
  | []        => none

def isBare (c : Char) : Bool :=
  c ≠ '>' && !Text.isBlank c

-- What follows the name of an attribute. Nothing if a mark is not closed.
def value? (s : List Char) : Option (Option (List Char) × List Char) :=
  match s.dropWhile Text.isBlank with
  | '=' :: t =>
    match (t.dropWhile (· = '=')).dropWhile Text.isBlank with
    | '"' :: u  => (quotedValue? '"' u).map fun (v, rest) => (some v, rest)
    | '\'' :: u => (quotedValue? '\'' u).map fun (v, rest) => (some v, rest)
    | u         => some (some (Text.Reference.resolve (u.takeWhile isBare)), u.dropWhile isBare)
  | _        => some (none, s)

def isNamePart (c : Char) : Bool :=
  c ≠ '=' && c ≠ '/' && c ≠ '>' && !Text.isBlank c

-- The attributes of a tag, whether it closes itself, and what follows it. Every step takes at least one
-- character.
def attributes? : Nat → List Char → Option (List Attribute × Bool × List Char)
  | 0, _         => none
  | steps + 1, s =>
    match skipGaps s with
    | []               => none
    | '>' :: rest      => some ([], false, rest)
    | '/' :: '>' :: rest => some ([], true, rest)
    | c :: s           => do
      let (value, rest) ← value? (s.dropWhile isNamePart)
      let (others, closed, rest) ← attributes? steps rest
      return ({ name := lower (c :: s.takeWhile isNamePart), value } :: others, closed, rest)

def opening? (s : List Char) : Option (List Token × List Char) := do
  let tag := lower (s.takeWhile (!endsTag ·))
  let rest := s.dropWhile (!endsTag ·)
  let (attributes, closed, rest) ← attributes? (rest.length + 1) rest
  return (.opening tag attributes :: (if closed then [.closing tag] else []), rest)

def isTagPart (c : Char) : Bool :=
  c.isAlphanum || c = '-' || c = '.' || c = ':' || c = '_'

-- A closing tag, behind its slash. What does not look like one is passed over up to the bracket.
def closing? (s : List Char) : Option (List Token × List Char) :=
  let inner := s.dropWhile Text.isBlank
  match inner.takeWhile isTagPart, (inner.dropWhile isTagPart).dropWhile Text.isBlank with
  | c :: tag, '>' :: rest =>
    if isLetter c then some ([.closing (lower (c :: tag))], rest)
    else some ([], rest)
  | _, _                 =>
    (afterBracket? s).map fun rest =>
      (if s.head?.any isLetter then [.closing (lower (s.takeWhile (!endsTag ·)))] else [], rest)

-- The rest after the two hyphens and the bracket that close a comment. Blanks may stand before the bracket.
def afterComment? : List Char → Option (List Char)
  | []     => none
  | c :: s =>
    match c, s with
    | '-', '-' :: t =>
      match t.dropWhile Text.isBlank with
      | '>' :: rest => some rest
      | _           => afterComment? s
    | _, _          => afterComment? s

-- A numeric reference in running text has to be followed by something that is no hexadecimal digit, and
-- its number has to be a code point.
def reference? (s : List Char) : Option (List Token × List Char) :=
  let numeric (n : Text.Numeral) (marker : Nat) : Option (List Token × List Char) := do
    let (code, length) ← Text.Reference.leadingNumber? n (s.drop marker)
    match s.drop (marker + length) with
    | []     => none
    | c :: t =>
      if (Text.Numeral.hexValue? c).isSome ∨ 0x10FFFF < code then none
      else some ([.chars [Char.ofNat code]], if c = ';' then t else c :: t)
  match s with
  | 'x' :: _ => numeric .hexadecimal 1
  | 'X' :: _ => numeric .hexadecimal 1
  | _        => numeric .decimal 0

def isMark (c : Char) : Bool :=
  c = '<' || c = '&'

-- The tokens at the start of a text, and what follows them.
def next? : List Char → Option (List Token × List Char)
  | '<' :: '!' :: '-' :: '-' :: s => (afterComment? s).map ([], ·)
  | '<' :: '!' :: s               => (afterBracket? s).map ([], ·)
  | '<' :: '?' :: s               => (afterBracket? s).map ([], ·)
  | '<' :: '/' :: s               => closing? s
  | '<' :: c :: s                 => if isLetter c then opening? (c :: s) else some ([.chars ['<']], c :: s)
  | '&' :: '#' :: s               => reference? s
  | '&' :: s                      =>
    match Text.Reference.read? s with
    | some (text, length) => some ([.chars text], s.drop length)
    | none                => some ([.chars ['&']], s)
  | s                             =>
    match s.takeWhile (!isMark ·) with
    | []   => none
    | text => some ([.chars text], s.dropWhile (!isMark ·))

-- Every step takes at least one character, so that the length of the text bounds their number.
def readAll : Nat → List Char → Option (List Token)
  | _, []        => some []
  | 0, _         => none
  | steps + 1, s => do
    let (tokens, rest) ← next? s
    let others ← readAll steps rest
    return tokens ++ others

end Token

-- The tokens of a text, unless it breaks off inside a tag.
def tokens? (s : List Char) : Option (List Token) :=
  Token.readAll s.length s

end DefectLog.Preview.Markup
