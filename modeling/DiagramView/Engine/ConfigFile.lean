import DiagramView.Engine.Config
import DiagramView.Files
import DiagramView.Text.Quoted

/-!
# Settings files

Engine settings kept in a file.
-/

namespace DiagramView

/-- Why settings cannot be loaded. -/
inductive ConfigError where
  | unreadable (path : String) (error : FileError)
  | invalid (path : String) (message : String)
  deriving DecidableEq, Repr

/-- The wording of a settings error. -/
def ConfigError.message : ConfigError → String
  | .unreadable path error => "io error at " ++ Text.quoted path ++ ": " ++ error.message
  | .invalid path message => "json error at " ++ Text.quoted path ++ ": " ++ message

/-- Loads engine settings from a file. -/
def EngineConfig.load (read : String → Except FileError (List UInt8)) (path : String) :
    Except ConfigError EngineConfig :=
  match (read path).bind textOfBytes with
  | .error error => .error (.unreadable path error)
  | .ok raw =>
    match EngineConfig.parseJson raw with
    | .error failure => .error (.invalid path (failure.message raw))
    | .ok config => .ok config

end DiagramView
