import DefectLog.Disk.Path
import DefectLog.Journal.Console
import DefectLog.Settings.Expansion

namespace DefectLog

-- What the environment chooses. There is no preview if its path is empty.
structure Settings where
  output  : Path
  preview : String
  level   : String
deriving DecidableEq

namespace Settings

def outputName  := "BUGDOC_OUTPUT_PATH"
def previewName := "BUGDOC_PDF_PREVIEW_PATH"
def levelName   := "BUGDOC_LOG_LEVEL"

-- Without a choice the report goes to a directory beside the program.
def ofEnvironment (base : String) (env : Environment) : Settings where
  output  := .ofText ((env.get? outputName).getD (base ++ "/outputs/RenderX_BugLog.docx"))
  preview := (env.get? previewName).getD ""
  level   := (env.get? levelName).getD "INFO"

end Settings
end DefectLog
