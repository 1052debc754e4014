namespace DefectLog

-- Why a variable cannot be set.
inductive VariableFault
  | nullByte
  | illegalName
  | emptyName
deriving DecidableEq

def VariableFault.message : VariableFault → String
  | .nullByte    => "embedded null byte"
  | .illegalName => "illegal environment variable name"
  | .emptyName   => "[Errno 22] Invalid argument"

-- Variables and their values, each name at most once.
structure Environment where
  entries : List (String × String) := []
deriving DecidableEq

namespace Environment

def get? (env : Environment) (name : String) : Option String :=
  env.entries.lookup name

def set (env : Environment) (name value : String) : Environment where
  entries := (name, value) :: env.entries.filter (·.1 ≠ name)

def unset (env : Environment) (name : String) : Environment where
  entries := env.entries.filter (·.1 ≠ name)

-- A name stands before an equals sign and a value ends at a null character, and so neither can hold
-- its own end.
def checkVariable (name value : String) : Except VariableFault Unit :=
  if '\x00' ∈ name.toList ∨ '\x00' ∈ value.toList then .error .nullByte
  else if '=' ∈ name.toList then .error .illegalName
  else if name = "" then .error .emptyName
  else .ok ()

def assign (env : Environment) (name value : String) : Except VariableFault Environment := do
  checkVariable name value
  return env.set name value

-- A variable that exists keeps its value, even an empty one.
def offer (env : Environment) (name value : String) : Except VariableFault Environment :=
  if (env.get? name).isSome then .ok env else env.assign name value

-- Does something with each of several variables in turn. What has been done before a fault stays done.
def each (change : Environment → String → String → Except VariableFault Environment) :
    List (String × String) → Environment → Except VariableFault Unit × Environment
  | [], env                     => (.ok (), env)
  | (name, value) :: more, env =>
    match change env name value with
    | .ok env  => each change more env
    | .error e => (.error e, env)

end Environment
end DefectLog
