import DefectLog.Word.Selector.Basic

-- Reads path expressions. Operators are tried from the loosest to the tightest, and all of them group to
-- the left.
namespace DefectLog.Word.Selector

abbrev Reader := StateT (List Char) (Except Fault)

namespace Reader

def skipBlanks : Reader Unit :=
  modify (·.dropWhile Quantity.isBlank)

def drop (count : Nat) : Reader Unit :=
  modify (·.drop count)

def startsWith (text : String) : Reader Bool :=
  return text.toList.isPrefixOf (← get)

-- Letters of any script, roughly.
def isNameStart (c : Char) : Bool :=
  c.isAlpha || c = '_' || (0xC0 ≤ c.toNat && c.toNat ≠ 0xD7 && c.toNat ≠ 0xF7)

def isNamePart (c : Char) : Bool :=
  isNameStart c || c.isDigit || c = '-' || c = '.' || c.toNat = 0xB7

def localName? : Reader (Option String) := do
  let s ← get
  if s.head?.any isNameStart then
    set (s.dropWhile isNamePart)
    return some (String.ofList (s.takeWhile isNamePart))
  else return none

def localName (fault : Fault) : Reader String := do
  match ← localName? with
  | some name => return name
  | none      => throw fault

def name (fault : Fault) : Reader Name := do
  let first ← localName fault
  if ← startsWith ":" then
    drop 1
    return { space := some first, own := ← localName fault }
  else return { space := none, own := first }

-- A literal stands between two marks, the first of which is the next character.
def literal (mark : Char) : Reader Expr := do
  let s := (← get).drop 1
  match s.dropWhile (· ≠ mark) with
  | []        => throw .unfinishedLiteral
  | _ :: rest =>
    set rest
    return .literal (s.takeWhile (· ≠ mark))

inductive Level
  | or
  | and
  | equality
  | relation
  | sum
  | product
deriving DecidableEq

def Level.tighter? : Level → Option Level
  | .or       => some .and
  | .and      => some .equality
  | .equality => some .relation
  | .relation => some .sum
  | .sum      => some .product
  | .product  => none

-- The operators of a level, longer ones first.
def Level.operators : Level → List (String × Operator)
  | .or       => [("or", .or)]
  | .and      => [("and", .and)]
  | .equality => [("=", .equal), ("!=", .unequal)]
  | .relation => [("<=", .lessOrEqual), ("<", .less), (">=", .greaterOrEqual), (">", .greater)]
  | .sum      => [("+", .add), ("-", .subtract)]
  | .product  => [("*", .multiply), ("div", .divide), ("mod", .remainder)]

-- The next operator of a level, if it is there, behind which blanks are skipped.
def operator? (level : Level) : Reader (Option Operator) := do
  let s ← get
  match level.operators.find? fun (text, _) => text.toList.isPrefixOf s with
  | none            => return none
  | some (text, op) =>
    set ((s.drop text.length).dropWhile Quantity.isBlank)
    return some op

def axes : List (String × Axis) := [
  ("child", .child), ("descendant", .descendant), ("parent", .parent), ("ancestor", .ancestor),
  ("following-sibling", .followingSibling), ("preceding-sibling", .precedingSibling),
  ("following", .following), ("preceding", .preceding), ("attribute", .attributes), ("self", .here),
  ("descendant-or-self", .descendantOrSelf), ("ancestor-or-self", .ancestorOrSelf)]

-- The kinds of nodes. There are no comments and no instructions in the trees of this library.
def kinds : List (String × Test) :=
  [("node", .any), ("text", .text), ("comment", .nothing), ("processing-instruction", .nothing)]

-- The axis in front of a test, and the name that has been read if it turned out not to be an axis.
def axis : Reader (Axis × Option String) := do
  if ← startsWith "@" then
    drop 1
    return (.attributes, none)
  else match ← localName? with
    | none      => return (.child, none)
    | some name =>
      match axes.lookup name with
      | none   => return (.child, some name)
      | some a => do
        let s ← get
        skipBlanks
        if ← startsWith "::" then
          drop 2
          return (a, none)
        else do
          set s
          return (.child, some name)

-- A test, the first name of which may have been read already.
def test (first : Option String) : Reader Test := do
  skipBlanks
  if first.isNone && (← startsWith "*") then
    drop 1
    return .element none
  let name ← match first with
    | some name => pure name
    | none      => localName .invalidExpression
  let s ← get
  skipBlanks
  if ← startsWith "(" then
    drop 1
    skipBlanks
    match kinds.lookup name with
    | none      => throw .invalidExpression
    | some kind =>
      if !(← startsWith ")") then throw .unfinishedTest
      drop 1
      return kind
  else do
    set s
    if !(← startsWith ":") then return .name { space := none, own := name }
    drop 1
    if ← startsWith "*" then
      drop 1
      return .element (some name)
    else return .name { space := some name, own := ← localName .invalidExpression }

def namesAxis : List Char → Bool
  | ':' :: ':' :: _ => true
  | _ :: s          => namesAxis s
  | []              => false

-- Whether a name is followed by an opening parenthesis and is not the name of a kind of nodes.
def startsCall : Reader Bool := do
  let isPart (c : Char) : Bool := isNamePart c || c = ':'
  let s ← get
  let name := s.takeWhile isPart
  return !namesAxis name && (kinds.lookup (String.ofList name)).isNone &&
    ((s.dropWhile isPart).dropWhile Quantity.isBlank).head? = some '('

-- How a path goes on from where it has come.
def everywhere (start : Expr) : Expr :=
  .step start .descendantOrSelf .any []

mutual
def expression : Nat → Level → Reader Expr
  | 0,        _     => throw .invalidExpression
  | fuel + 1, level => do
    let first ← operand fuel level
    operations fuel level first
termination_by structural fuel => fuel
def operand : Nat → Level → Reader Expr
  | 0,        _     => throw .invalidExpression
  | fuel + 1, level => do
    let e ← match level.tighter? with
      | some tighter => expression fuel tighter
      | none         => signed fuel
    skipBlanks
    return e
termination_by structural fuel => fuel
def operations : Nat → Level → Expr → Reader Expr
  | 0,        _,     _     => throw .invalidExpression
  | fuel + 1, level, first => do
    match ← operator? level with
    | none    => return first
    | some op =>
      let second ← operand fuel level
      operations fuel level (.binary op first second)
termination_by structural fuel => fuel
def signed : Nat → Reader Expr
  | 0        => throw .invalidExpression
  | fuel + 1 => do
    skipBlanks
    if ← startsWith "-" then
      drop 1
      return .negate (← signed fuel)
    else do
      let first ← path fuel
      union fuel first
termination_by structural fuel => fuel
def union : Nat → Expr → Reader Expr
  | 0,        _     => throw .invalidExpression
  | fuel + 1, first => do
    skipBlanks
    if ← startsWith "|" then
      drop 1
      let second ← path fuel
      union fuel (.binary .unite first second)
    else return first
termination_by structural fuel => fuel
-- A path that starts with a value, or one that starts at a node.
def path : Nat → Reader Expr
  | 0        => throw .invalidExpression
  | fuel + 1 => do
    skipBlanks
    match ← get with
    | []             => throw .invalidExpression
    | '.' :: c :: _  =>
      if c.isDigit then valuePath fuel else steps fuel .context
    | '/' :: _       => absolute fuel .root
    | c :: _         =>
      if c = '$' ∨ c = '(' ∨ c.isDigit ∨ c = '\'' ∨ c = '"' then valuePath fuel
      else if c = '.' ∨ c = '*' ∨ c = '@' then steps fuel .context
      else if isNameStart c ∨ c = ':' then
        if ← startsCall then valuePath fuel else steps fuel .context
      else throw .invalidExpression
termination_by structural fuel => fuel
def absolute : Nat → Expr → Reader Expr
  | 0,        _     => throw .invalidExpression
  | fuel + 1, start => do
    if ← startsWith "//" then
      drop 2
      absolute fuel (← steps fuel (everywhere start))
    else if ← startsWith "/" then
      drop 1
      skipBlanks
      let goesOn := (← get).head?.any fun c => c.isAlpha || c = '_' || c = '.' || c = '@' || c = '*'
      absolute fuel (← if goesOn then steps fuel start else pure start)
    else return start
termination_by structural fuel => fuel
def valuePath : Nat → Reader Expr
  | 0        => throw .invalidExpression
  | fuel + 1 => do
    let value ← primary fuel
    skipBlanks
    let start ← filters fuel value
    if ← startsWith "//" then
      drop 2
      steps fuel (everywhere start)
    else if ← startsWith "/" then
      drop 1
      steps fuel start
    else return start
termination_by structural fuel => fuel
def filters : Nat → Expr → Reader Expr
  | 0,        _ => throw .invalidExpression
  | fuel + 1, e => do
    if ← startsWith "[" then
      let p ← predicate fuel
      filters fuel (.filter e p)
    else return e
termination_by structural fuel => fuel
def primary : Nat → Reader Expr
  | 0        => throw .invalidExpression
  | fuel + 1 => do
    match ← get with
    | '$' :: _  =>
      drop 1
      let _ ← name .namelessVariable
      return .unbound
    | '(' :: _  =>
      drop 1
      let e ← expression fuel .or
      if !(← startsWith ")") then throw .invalidExpression
      drop 1
      return e
    | '"' :: _  => literal '"'
    | '\'' :: _ => literal '\''
    | s         =>
      match Quantity.read? s with
      | some (q, rest) =>
        set rest
        return .number q
      | none           =>
        let f ← name .invalidExpression
        skipBlanks
        if !(← startsWith "(") then throw .invalidExpression
        drop 1
        skipBlanks
        if ← startsWith ")" then
          drop 1
          return .call f []
        else return .call f (← arguments fuel)
termination_by structural fuel => fuel
def arguments : Nat → Reader (List Expr)
  | 0        => throw .invalidExpression
  | fuel + 1 => do
    let e ← expression fuel .or
    if ← startsWith ")" then
      drop 1
      return [e]
    else if ← startsWith "," then
      drop 1
      skipBlanks
      return e :: (← arguments fuel)
    else throw .invalidExpression
termination_by structural fuel => fuel
def steps : Nat → Expr → Reader Expr
  | 0,        _     => throw .invalidExpression
  | fuel + 1, start => do
    skipBlanks
    let e ← step fuel start
    skipBlanks
    if ← startsWith "//" then
      drop 2
      steps fuel (everywhere e)
    else if ← startsWith "/" then
      drop 1
      steps fuel e
    else return e
termination_by structural fuel => fuel
def step : Nat → Expr → Reader Expr
  | 0,        _     => throw .invalidExpression
  | fuel + 1, start => do
    if ← startsWith ".." then
      drop 2
      return .step start .parent .any []
    else if ← startsWith "." then
      drop 1
      return start
    else do
      let (axis, first) ← axis
      let test ← test first
      skipBlanks
      return .step start axis test (← predicates fuel)
termination_by structural fuel => fuel
def predicates : Nat → Reader (List Expr)
  | 0        => throw .invalidExpression
  | fuel + 1 => do
    if ← startsWith "[" then
      let p ← predicate fuel
      return p :: (← predicates fuel)
    else return []
termination_by structural fuel => fuel
def predicate : Nat → Reader Expr
  | 0        => throw .invalidExpression
  | fuel + 1 => do
    drop 1
    skipBlanks
    let e ← expression fuel .or
    if !(← startsWith "]") then throw .invalidPredicate
    drop 1
    skipBlanks
    return e
termination_by structural fuel => fuel
end

end Reader

-- Between two characters that are read, no more than thirty of the functions above call each other.
def read (text : List Char) : Except Fault Expr := do
  let (e, rest) ← (Reader.expression (30 * (text.length + 1)) .or).run text
  if rest = [] then return e else throw .invalidExpression

end DefectLog.Word.Selector
