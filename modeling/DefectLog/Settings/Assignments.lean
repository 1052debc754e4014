import DefectLog.Text.Blank

-- The text of a file of assignments, one on each line.
namespace DefectLog.Assignments

-- A name with its value. A name that stands without an equals sign has none.
structure Assignment where
  name  : String
  value : Option String
deriving DecidableEq

-- A line ends at a line feed, at a carriage return, or at the two of them together.
def isLineEnd (c : Char) : Bool :=
  c = '\n' || c = '\r'

def isInlineBlank (c : Char) : Bool :=
  Text.isBlank c && !isLineEnd c

def skipInline (s : List Char) : List Char :=
  s.dropWhile isInlineBlank

def line (s : List Char) : List Char :=
  s.takeWhile (!isLineEnd ·)

-- What follows the current line, from the mark that ends it.
def afterLine (s : List Char) : List Char :=
  s.dropWhile (!isLineEnd ·)

-- The rest after the current line. The second of two marks is left, and counts as a blank there.
def nextLine (s : List Char) : List Char :=
  (afterLine s).drop 1

-- The word `export` in front of a name means nothing.
def skipExport (s : List Char) : List Char :=
  match s with
  | 'e' :: 'x' :: 'p' :: 'o' :: 'r' :: 't' :: c :: rest =>
    if isInlineBlank c then skipInline rest else s
  | _ => s

-- The text up to a closing mark, and what follows the mark. A backslash and the character behind it
-- are one unit, and so a mark behind a backslash closes nothing.
def upTo (mark : Char) : List Char → Option (List Char × List Char)
  | []                => none
  | '\\' :: c :: rest => (upTo mark rest).map fun (text, rest) => ('\\' :: c :: text, rest)
  | c :: rest         =>
    if c = mark then some ([], rest)
    else if c = '\\' then none
    else (upTo mark rest).map fun (text, rest) => (c :: text, rest)

-- What a backslash and a letter stand for between double marks.
def escape? (c : Char) : Option Char :=
  match c with
  | '\\' => some '\\'
  | '\'' => some '\''
  | '"'  => some '"'
  | 'a'  => some '\x07'
  | 'b'  => some '\x08'
  | 'f'  => some '\x0c'
  | 'n'  => some '\n'
  | 'r'  => some '\r'
  | 't'  => some '\t'
  | 'v'  => some '\x0b'
  | _    => none

def unescape (allowed : Char → Option Char) : List Char → List Char
  | '\\' :: c :: rest =>
    match allowed c with
    | some d => d :: unescape allowed rest
    | none   => '\\' :: unescape allowed (c :: rest)
  | c :: rest => c :: unescape allowed rest
  | []        => []
termination_by s => s.length

def escapeSingle? (c : Char) : Option Char :=
  if c = '\\' ∨ c = '\'' then some c else none

-- Drops a comment, which starts at a number sign behind a blank.
def dropComment : List Char → List Char
  | []             => []
  | [c]            => [c]
  | c :: d :: rest =>
    if Text.isBlank c ∧ d = '#' then [] else c :: dropComment (d :: rest)

def bareValue (s : List Char) : List Char :=
  Text.trim (dropComment (line s))

-- The value behind an equals sign and what follows it, or nothing if a mark is not closed.
def value? (s : List Char) : Option (List Char × List Char) :=
  match skipInline s with
  | '\'' :: rest => (upTo '\'' rest).map fun (v, rest) => (unescape escapeSingle? v, rest)
  | '"' :: rest  => (upTo '"' rest).map fun (v, rest) => (unescape escape? v, rest)
  | _            => some (bareValue s, afterLine s)

-- A name may stand between single marks.
def name? : List Char → Option (List Char × List Char)
  | '\'' :: rest =>
    let name := rest.takeWhile (· ≠ '\'')
    match rest.dropWhile (· ≠ '\'') with
    | _ :: rest => if name.isEmpty then none else some (name, rest)
    | []        => none
  | s            =>
    let isPart (c : Char) : Bool := c ≠ '=' && c ≠ '#' && !Text.isBlank c
    if (s.takeWhile isPart).isEmpty then none else some (s.takeWhile isPart, s.dropWhile isPart)

-- Nothing but blanks and a comment may follow on a line.
def endsLine (s : List Char) : Bool :=
  match skipInline s with
  | []       => true
  | c :: _   => isLineEnd c || c = '#'

-- One assignment from the start of a line. A line that cannot be read assigns nothing.
def assignment? (s : List Char) : Option Assignment × List Char :=
  match name? (skipExport s) with
  | none              => (none, nextLine s)
  | some (name, rest) =>
    match skipInline rest with
    | '=' :: rest =>
      match value? rest with
      | none               => (none, nextLine rest)
      | some (value, rest) =>
        (if endsLine rest then some ⟨String.ofList name, some (String.ofList value)⟩ else none,
          nextLine rest)
    | rest        =>
      (if endsLine rest then some ⟨String.ofList name, none⟩ else none, nextLine rest)

-- Every step takes at least one character, so that the length of the text bounds their number.
def lines : Nat → List Char → List Assignment
  | 0, _        => []
  | steps + 1, s =>
    match Text.trimStart s with
    | []     => []
    | c :: s =>
      if c = '#' then lines steps (nextLine s)
      else
        let (a, rest) := assignment? (c :: s)
        a.toList ++ lines steps rest

-- A byte order mark may stand before everything else.
def skipMark : List Char → List Char
  | '\uFEFF' :: s => s
  | s             => s

def parse (text : String) : List Assignment :=
  let s := skipMark text.toList
  lines s.length s

end DefectLog.Assignments
