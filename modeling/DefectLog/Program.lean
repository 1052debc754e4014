import DefectLog.Defect.RenderX
import DefectLog.Disk.Saving
import DefectLog.Settings.Basic

namespace DefectLog

-- What a run leaves behind. The log has all records, whatever the console shows of them.
structure Outcome where
  exit    : Nat
  entries : List Journal.Entry
  disk    : Disk

namespace Program

def exitOk : Nat := 0

def exitWriteFailed : Nat := 2

def source : String := "BugDoc"

def doneEntry : Journal.Entry where
  level   := Journal.Level.info
  source  := source
  message := "Done"

-- A failed save is reported with its path and its cause, and then with a trace, of which only the
-- first line is given.
def failureEntries (path : Path) (cause : Cause) : List Journal.Entry :=
  let entry (message : String) : Journal.Entry := { level := Journal.Level.error, source, message }
  let reason := cause.message?.getD ""
  [entry s!"Bug log generation failed for {path.text}: {reason}",
   entry "Traceback (most recent call last):"]

-- Ends a run with its last attempt to save something.
def finish (before : List Journal.Entry) (last : Saving) : Except DiskFault Outcome :=
  let entries := before ++ last.entries
  match last.result with
  | .ok _                            =>
    .ok { exit := exitOk, entries := entries ++ [doneEntry], disk := last.disk }
  | .error (.notWritten path cause)  =>
    .ok { exit := exitWriteFailed, entries := entries ++ failureEntries path cause, disk := last.disk }
  | .error .nullByte                 => .error .nullByte

-- Saves the report, and after it the preview if there is to be one. A path with a null character,
-- which no environment can hold, ends the run early.
def publish (report : Report) (settings : Settings) (disk : Disk) : Except DiskFault Outcome :=
  let saving := Saving.word report.document settings.output disk
  if saving.result.isOk ∧ settings.preview ≠ "" then
    finish (report.entries ++ saving.entries)
      (Saving.preview report.document (.ofText settings.preview) saving.disk)
  else finish report.entries saving

def run (settings : Settings) (disk : Disk) : Except DiskFault Outcome :=
  publish (RenderX.report {}) settings disk

-- The lines that the console shows of a run.
def lines (settings : Settings) (seconds : Int) (outcome : Outcome) : List String :=
  let console := Journal.Console.setUp (.name settings.level)
  outcome.entries.filterMap (console.line? seconds)

end Program
end DefectLog
