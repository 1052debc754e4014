import DefectLog.Journal.Calendar
import DefectLog.Journal.Entry

namespace DefectLog.Journal

-- Where records go. A quiet sink drops them.
inductive Sink
  | console
  | quiet
deriving DecidableEq

-- The setting of the root of all logs. Records below the threshold are dropped.
structure Console where
  threshold : Int := Level.warning
  sinks     : List Sink := []
deriving DecidableEq

-- A level is chosen by number or by name.
inductive LevelChoice
  | number (level : Int)
  | name (text : String)
deriving DecidableEq

-- Upper case, as far as it matters for the names of levels. Beyond ASCII only the dotless i and the long
-- s have an upper case letter that occurs in one of them.
def upper (c : Char) : Char :=
  if c = 'ı' then 'I' else if c = 'ſ' then 'S' else c.toUpper

-- A name that is not known stands for the level of information.
def LevelChoice.level : LevelChoice → Int
  | .number level => level
  | .name text    =>
    match String.ofList (text.toList.map upper) with
    | "CRITICAL" => Level.critical
    | "FATAL"    => Level.critical
    | "ERROR"    => Level.error
    | "WARN"     => Level.warning
    | "WARNING"  => Level.warning
    | "INFO"     => Level.info
    | "DEBUG"    => Level.debug
    | "NOTSET"   => 0
    | _          => Level.info

-- The template of a line, as its fields are named.
def lineFormat : String :=
  "%(asctime)s | %(levelname)-8s | %(name)s - %(message)s"

-- A level takes at least eight columns. The root of all logs has no name of its own.
def line (seconds : Int) (e : Entry) : String :=
  let level := Level.name e.level
  let padded := level ++ String.ofList (List.replicate (8 - level.length) ' ')
  let source := if e.source = "" then "root" else e.source
  s!"{timeText seconds} | {padded} | {source} - {e.message}"

namespace Console

-- One console takes the place of all sinks.
def setUp (choice : LevelChoice) : Console where
  threshold := choice.level
  sinks     := [.console]

def addQuiet (c : Console) (count : Nat) : Console :=
  { c with sinks := c.sinks ++ List.replicate count .quiet }

-- A record without a positive level is never written.
def admits (c : Console) (e : Entry) : Bool :=
  0 < e.level && c.threshold ≤ e.level

-- The line that a record prints, if it prints one.
def line? (c : Console) (seconds : Int) (e : Entry) : Option String :=
  if .console ∈ c.sinks ∧ c.admits e then some (line seconds e) else none

end Console
end DefectLog.Journal
