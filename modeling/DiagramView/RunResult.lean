import DiagramView.Json.Decode

/-!
# Results of running code

What a program wrote and how it exited. Fields that are missing in the stored form are empty.
-/

namespace DiagramView

/-- The outcome of a run. -/
structure RunResult where
  stdout : String := ""
  stderr : String := ""
  exitCode : Option Int64 := none
  deriving DecidableEq, Repr, Inhabited

namespace RunResult

/-- A run that failed before it was started. -/
def localFailure (message : String) : RunResult :=
  { stderr := message, exitCode := some 1 }

/-- The fields of the stored form. -/
def jsonFields : List (Json.Field RunResult) :=
  [⟨"stdout", fun r cur => do
      let (s, cur) ← Json.readText cur
      return ({ r with stdout := s }, cur)⟩,
   ⟨"stderr", fun r cur => do
      let (s, cur) ← Json.readText cur
      return ({ r with stderr := s }, cur)⟩,
   ⟨"exit_code", fun r cur => do
      let (code, cur) ← Json.readOptional Json.readInt64 cur
      return ({ r with exitCode := code }, cur)⟩]

/-- Reads a run result. -/
def read (cur : Json.Cursor) : Except Json.Failure (RunResult × Json.Cursor) :=
  Json.readRecord "RunResult" jsonFields {} cur

/-- Reads the stored form of a run result. -/
def parseJson (text : String) : Except Json.Failure RunResult :=
  Json.readWhole read text

/-- A whole number as a JSON value. -/
def codeToJson (code : Int64) : Json :=
  .number (if code.toInt < 0 then .negative code else .natural code.toInt.toNat.toUInt64)

/-- The stored form of a run result. -/
def toJson (r : RunResult) : Json :=
  .object
    [("stdout", .string r.stdout), ("stderr", .string r.stderr),
     ("exit_code", match r.exitCode with
      | none => .null
      | some code => codeToJson code)]

end RunResult

end DiagramView
