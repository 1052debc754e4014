import DefectLog.Preview.Listing
import DefectLog.Program
import DefectLog.Word.Markup
import Std.Time.DateTime.Timestamp

-- The command line: one run on the disk of the system.
namespace DefectLog.CommandLine

def Place.text (p : Place) : String :=
  "/" ++ "/".intercalate p.reverse

def placeOfText (text : String) : Place :=
  (Path.ofText text).parts.reverse

-- The places that a path leads through, whatever is there.
def trail (p : Place) : List String → List Place
  | []            => []
  | name :: names =>
    let next := if name = ".." then p.tail else name :: p
    next :: trail next names

-- Each part on a line of its own. Packing the parts into an archive is left to other tools.
def spelling (defaults : Defaults) : Content → List String
  | .bytes _   => []
  | .word p    => (p.stylesXml defaults ++ p.bodyXml ++ [p.pages.xml]).map (·.print)
  | .preview p => p.lines

-- What the system has at a place. The content of a file does not matter.
def probe (p : Place) : IO (Option Node) := do
  try
    let path ← IO.FS.realPath (Place.text p)
    if ← path.isDir then return some .directory
    else if ← path.pathExists then return some (.file (.bytes []))
    else return none
  catch _ => return none

-- The part of the disk that the working directory lies in and the paths lead through.
def snapshot (here : Place) (paths : List Path) : IO Disk := do
  let mut disk := Disk.bare here
  for p in paths do
    for place in trail (disk.start p.anchor) p.parts do
      match ← probe place with
      | some node => disk := disk.put place node
      | none      => pure ()
  return disk

-- Makes the new directories, outer ones first, and writes the rendered files.
def apply (defaults : Defaults) (before after : Disk) : IO Unit := do
  let outerFirst := after.entries.mergeSort fun a b => a.1.length ≤ b.1.length
  for (place, node) in outerFirst do
    match node with
    | .directory          => if (before.node? place).isNone then IO.FS.createDir (Place.text place)
    | .file (.bytes _)    => pure ()
    | .file content       =>
      IO.FS.writeFile (Place.text place) ("\n".intercalate (spelling defaults content) ++ "\n")

def readEnvironment : IO Environment := do
  let mut env : Environment := {}
  for name in [Settings.outputName, Settings.previewName, Settings.levelName, Environment.disabledName] do
    match ← IO.getEnv name with
    | some value => env := env.set name value
    | none       => pure ()
  return env

def readAssignments (base : String) : IO String := do
  try IO.FS.readFile (base ++ "/.env") catch _ => return ""

def now : IO Int := do
  return (← Std.Time.Timestamp.now).toSecondsSinceUnixEpoch.val

def publish (settings : Settings) : IO UInt32 := do
  let here := placeOfText (← IO.currentDir).toString
  let before ← snapshot here [settings.output, .ofText settings.preview]
  match Program.run settings before with
  | .ok outcome  =>
    apply (RenderX.report {}).document.defaults before outcome.disk
    let seconds ← now
    for line in Program.lines settings seconds outcome do
      IO.eprintln line
    return UInt32.ofNat outcome.exit
  | .error fault =>
    IO.eprintln fault.message
    return 1

def run : IO UInt32 := do
  let base := (← IO.appDir).toString
  let env ← readEnvironment
  match env.adopt (← readAssignments base) with
  | (.ok (), env)     => publish (.ofEnvironment base env)
  | (.error fault, _) =>
    IO.eprintln fault.message
    return 1

end DefectLog.CommandLine

def main : IO UInt32 :=
  DefectLog.CommandLine.run
