import DefectLog.Settings.Assignments
import DefectLog.Settings.Environment

-- Values may refer to other variables, as in `${name}` or `${name:-fallback}`.
namespace DefectLog.Assignments

structure Reference where
  name     : String
  fallback : String := ""

-- The reference whose opening has been read, and what follows it. A name holds no colon, and neither a
-- name nor a fallback a closing brace.
def reference? (s : List Char) : Option (Reference × List Char) :=
  let name := String.ofList (s.takeWhile fun c => c ≠ '\x7d' && c ≠ ':')
  match s.dropWhile fun c => c ≠ '\x7d' && c ≠ ':' with
  | '\x7d' :: rest    => some ({ name }, rest)
  | ':' :: '-' :: rest =>
    match rest.dropWhile (· ≠ '\x7d') with
    | _ :: rest' => some ({ name, fallback := String.ofList (rest.takeWhile (· ≠ '\x7d')) }, rest')
    | []         => none
  | _                  => none

theorem length_dropWhile_le (p : α → Bool) (s : List α) : (s.dropWhile p).length ≤ s.length :=
  (List.dropWhile_sublist p).length_le

theorem length_lt_of_reference? {s rest : List Char} {r : Reference} (h : reference? s = some (r, rest)) :
    rest.length < s.length := by
  have outer := length_dropWhile_le (fun c => c ≠ '\x7d' && c ≠ ':') s
  simp only [reference?] at h
  split at h
  case h_1 e =>
    simp only [e, List.length_cons] at outer
    grind
  case h_2 t e =>
    have inner := length_dropWhile_le (· ≠ '\x7d') t
    simp only [e, List.length_cons] at outer
    split at h
    case h_1 e' =>
      simp only [e', List.length_cons] at inner
      grind
    case h_2 => simp at h
  case h_3 => simp at h

-- Puts values for references. What has the opening of a reference and not its form stays as it is.
def expand (value? : String → Option String) : List Char → List Char
  | []                  => []
  | '$' :: '\x7b' :: s =>
    match _h : reference? s with
    | some (r, rest) => ((value? r.name).getD r.fallback).toList ++ expand value? rest
    | none           => '$' :: expand value? ('\x7b' :: s)
  | c :: s              => c :: expand value? s
termination_by s => s.length
decreasing_by
  · have := length_lt_of_reference? _h
    simp only [List.length_cons]
    omega
  · simp
  · simp

-- What a name stands for. The environment goes before the assignments so far, among which a name without
-- a value stands for an empty text.
def known? (env : Environment) (earlier : List Assignment) (name : String) : Option String :=
  (env.get? name).orElse fun _ => (earlier.find? (·.name = name)).map (·.value.getD "")

-- The last assignment to a name is the one that counts. It stands where the first one stood.
def record (earlier : List Assignment) (a : Assignment) : List Assignment :=
  if earlier.any (·.name = a.name) then earlier.map fun b => if b.name = a.name then a else b
  else earlier ++ [a]

def settle (env : Environment) (earlier : List Assignment) : List Assignment → List Assignment
  | []          => earlier
  | a :: others =>
    let value := a.value.map fun v => String.ofList (expand (known? env earlier) v.toList)
    settle env (record earlier { a with value }) others

-- The variables that a text offers to an environment.
def offered (env : Environment) (text : String) : List (String × String) :=
  (settle env [] (parse text)).filterMap fun a => a.value.map (a.name, ·)

end Assignments

namespace Environment

def disabledName := "PYTHON_DOTENV_DISABLED"

-- Lower case, as far as it matters for a word of agreement. Beyond ASCII only the long s has a lower case
-- letter that occurs in one of them.
def lower (c : Char) : Char :=
  if c = 'ſ' then 's' else c.toLower

def agrees (text : String) : Bool :=
  String.ofList (text.toList.map lower) ∈ ["1", "true", "t", "yes", "y"]

-- A variable can forbid that assignments are read at all.
def acceptsAssignments (env : Environment) : Bool :=
  !(env.get? disabledName).any agrees

-- Takes over what the text of a file of assignments offers.
def adopt (env : Environment) (text : String) : Except VariableFault Unit × Environment :=
  if env.acceptsAssignments then each offer (Assignments.offered env text) env else (.ok (), env)

end Environment
end DefectLog
