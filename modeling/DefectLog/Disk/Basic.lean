import DefectLog.Disk.Content
import DefectLog.Disk.Path
import DefectLog.Text.Quoted

namespace DefectLog

-- The names that lead to a file or a directory, innermost first. The root has none.
abbrev Place := List String

inductive Node
  | directory
  | file (content : Content)

-- Everything below the root, each place at most once, and the working directory.
structure Disk where
  entries : List (Place × Node)
  here    : Place

-- Why the system refuses an operation.
inductive Reason
  | missing
  | fileExists
  | notDirectory
  | isDirectory
  | nameTooLong
deriving DecidableEq

namespace Reason

def code : Reason → Nat
  | .missing      => 2
  | .fileExists   => 17
  | .notDirectory => 20
  | .isDirectory  => 21
  | .nameTooLong  => 36

def wording : Reason → String
  | .missing      => "No such file or directory"
  | .fileExists   => "File exists"
  | .notDirectory => "Not a directory"
  | .isDirectory  => "Is a directory"
  | .nameTooLong  => "File name too long"

end Reason

-- A path with a null character never reaches the system.
inductive DiskFault
  | refused (reason : Reason) (path : Path)
  | nullByte
deriving DecidableEq

def DiskFault.message : DiskFault → String
  | .refused reason path => s!"[Errno {reason.code}] {reason.wording}: {Text.quoted path.text}"
  | .nullByte            => "embedded null byte"

namespace Disk

def node? (d : Disk) (p : Place) : Option Node :=
  if p = [] then some .directory else d.entries.lookup p

def put (d : Disk) (p : Place) (n : Node) : Disk :=
  { d with entries := (p, n) :: d.entries.filter (·.1 ≠ p) }

-- A disk with nothing but the working directory and the directories that it lies in.
def bare (here : Place) : Disk where
  entries := chain here
  here    := here
where
  chain : Place → List (Place × Node)
    | []        => []
    | name :: p => (name :: p, .directory) :: chain p

def start (d : Disk) : Anchor → Place
  | .here       => d.here
  | .root       => []
  | .doubleRoot => []

-- A name may have 255 bytes.
def checkName (name : String) : Except Reason Unit :=
  if 255 < name.utf8ByteSize then .error .nameTooLong else .ok ()

-- Enters a directory. The root is its own parent.
def enter (d : Disk) (p : Place) (name : String) : Except Reason Place :=
  if name = ".." then .ok p.tail
  else do
    checkName name
    match d.node? (name :: p) with
    | none            => .error .missing
    | some .directory => return name :: p
    | some (.file _)  => .error .notDirectory

def walk (d : Disk) (p : Path) : Except Reason Place :=
  p.parts.foldlM d.enter (d.start p.anchor)

-- The place that a path names, which need not exist, while everything before its last part does. There
-- is none for a path that ends in a directory by its form.
def target (d : Disk) (p : Path) : Except Reason (Option Place) :=
  match p.parts.getLast? with
  | none      => .ok none
  | some name => do
    let outer ← d.walk p.parent
    if name = ".." then return none
    checkName name
    return some (name :: outer)

-- Operations may fail after they have changed something.
abbrev Attempt := ExceptT DiskFault (StateM Disk)

-- The text of a path may have 4095 bytes.
def checkPath (p : Path) : Except DiskFault Unit :=
  if '\x00' ∈ p.text.toList then .error .nullByte
  else if 4096 ≤ p.text.utf8ByteSize then .error (.refused .nameTooLong p)
  else .ok ()

def refuse (p : Path) : Except Reason α → Except DiskFault α
  | .ok a         => .ok a
  | .error reason => .error (.refused reason p)

def makeDirectory (p : Path) : Attempt Unit := do
  checkPath p
  let d ← get
  match ← refuse p (d.target p) with
  | none       => throw (.refused .fileExists p)
  | some place =>
    match d.node? place with
    | some _ => throw (.refused .fileExists p)
    | none   => set (d.put place .directory)

-- Whether a path leads to a directory. A name that is too long is an error even here.
def checkDirectory (p : Path) (fault : DiskFault) : Attempt Unit := do
  checkPath p
  match (← get).walk p with
  | .ok _               => return ()
  | .error .nameTooLong => throw (.refused .nameTooLong p)
  | .error _            => throw fault

-- Makes a directory unless it is there.
def ensureDirectory (p : Path) : Attempt Unit :=
  tryCatch (makeDirectory p) fun
    | .refused .missing q => throw (.refused .missing q)
    | .refused reason q   => checkDirectory p (.refused reason q)
    | .nullByte           => throw .nullByte

-- Makes a directory unless it is there, and before it the directories that it lies in where they are
-- missing. The parts of the path come innermost first.
def ensureAll (anchor : Anchor) : List String → Attempt Unit
  | []            => ensureDirectory { anchor, parts := [] }
  | name :: outer => do
    let p : Path := { anchor, parts := (name :: outer).reverse }
    tryCatch (ensureDirectory p) fun
      | .refused .missing _ => do
        ensureAll anchor outer
        ensureDirectory p
      | fault               => throw fault

def ensureParents (p : Path) : Attempt Unit :=
  ensureAll p.anchor p.parent.parts.reverse

-- Replaces what the file holds, or makes the file.
def writeFile (p : Path) (content : Content) : Attempt Unit := do
  checkPath p
  let d ← get
  match ← refuse p (d.target p) with
  | none       => throw (.refused .isDirectory p)
  | some place =>
    match d.node? place with
    | some .directory => throw (.refused .isDirectory p)
    | _               => set (d.put place (.file content))

end Disk
end DefectLog
