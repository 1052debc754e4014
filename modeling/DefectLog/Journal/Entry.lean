namespace DefectLog.Journal

namespace Level

def debug    : Int := 10
def info     : Int := 20
def warning  : Int := 30
def error    : Int := 40
def critical : Int := 50

def name (level : Int) : String :=
  if level = 0 then "NOTSET"
  else if level = debug then "DEBUG"
  else if level = info then "INFO"
  else if level = warning then "WARNING"
  else if level = error then "ERROR"
  else if level = critical then "CRITICAL"
  else s!"Level {level}"

end Level

-- One record of the log.
structure Entry where
  level   : Int
  source  : String
  message : String
deriving DecidableEq

def Entry.text (e : Entry) : String :=
  s!"{Level.name e.level} {e.source}: {e.message}"

end DefectLog.Journal
