import DefectLog.Disk.Basic

namespace DefectLog

-- Why a report cannot be written.
inductive Cause
  | word (fault : Word.Fault)
  | preview (fault : Preview.Fault)
  | disk (reason : Reason) (path : Path)
deriving DecidableEq

def Cause.message? : Cause → Option String
  | .word fault       => some fault.message
  | .preview fault    => fault.message?
  | .disk reason path => some (DiskFault.refused reason path).message

-- Saving a report fails as a whole, with one cause. A path with a null character is no cause, but a
-- failure of its own.
inductive SaveFault
  | notWritten (path : Path) (cause : Cause)
  | nullByte
deriving DecidableEq

def SaveFault.message? : SaveFault → Option String
  | .notWritten path cause => cause.message?.map fun text =>
    s!"Could not write report to {path.text}: {text}"
  | .nullByte              => some DiskFault.nullByte.message

-- One attempt to save a report: the path that was written or why none was, what the attempt adds to the log,
-- and the disk after it.
structure Saving where
  result  : Except SaveFault Path
  entries : List Journal.Entry
  disk    : Disk

namespace Saving

def savedEntry (path : Path) (content : Content) : Journal.Entry where
  level   := Journal.Level.info
  source  := "bugdoc.reporting.persistence"
  message := s!"Report saved to: {path.text} ({content.sizeText} bytes)"

def rejected (path : Path) (cause : Cause) (disk : Disk) : Saving where
  result  := .error (.notWritten path cause)
  entries := []
  disk    := disk

-- The entries come before those of the attempt.
def after (entries : List Journal.Entry) (s : Saving) : Saving :=
  { s with entries := entries ++ s.entries }

-- The directories that a path lies in, and then the file itself.
def attempt (path : Path) (content : Content) : Disk.Attempt Unit := do
  Disk.ensureParents path
  Disk.writeFile path content

-- Parent directories that were made stay, even if the file cannot be written.
def write (path : Path) (content : Content) (disk : Disk) : Saving :=
  match (attempt path content).run disk with
  | (.ok (), disk)                     =>
    { result := .ok path, entries := [savedEntry path content], disk }
  | (.error (.refused reason p), disk) => rejected path (.disk reason p) disk
  | (.error .nullByte, disk)           => { result := .error .nullByte, entries := [], disk }

-- What is to be written for a document, and what encoding it adds to the log.
abbrev Encoder := Document → Except Cause (Content × List Journal.Entry)

def wordEncoder : Encoder := fun document =>
  match Word.render document with
  | .error fault  => .error (.word fault)
  | .ok rendering => .ok (.word rendering.package, rendering.entries)

def previewEncoder : Encoder := fun document =>
  match Preview.render document with
  | .error fault  => .error (.preview fault)
  | .ok rendering => .ok (.preview rendering.package, rendering.entries)

-- Nothing on the disk is touched before the report has been encoded.
def save (encode : Encoder) (document : Document) (path : Path) (disk : Disk) : Saving :=
  match encode document with
  | .error cause           => rejected path cause disk
  | .ok (content, entries) => (write path content disk).after entries

def word : Document → Path → Disk → Saving :=
  save wordEncoder

def preview : Document → Path → Disk → Saving :=
  save previewEncoder

end Saving
end DefectLog
