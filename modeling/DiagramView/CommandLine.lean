import DiagramView.Engine.ConfigFile
import DiagramView.Engine.External
import DiagramView.Log.Filter
import DiagramView.Session.Room
import DiagramView.View.Controller

/-!
# The command line

Shows one panel of an analysis result and ends. The arguments are one payload and up to four flags
with a value each, in any order; a payload of `-` is read from standard input. All that the program
asks of its surroundings goes through an `Environment`.
-/

namespace DiagramView

namespace CommandLine

/-! ## Options -/

/-- What the arguments ask for. -/
structure Options where
  payload : Option String := none
  tab : Option Tab := none
  runResult : Option String := none
  config : Option String := none
  program : Option String := none
  deriving DecidableEq, Repr

/-- A value for an option that has none yet. -/
def fill {α : Type} (current : Option α) (value : α) : Option (Option α) :=
  match current with
  | none => some (some value)
  | some _ => none

/-- Takes an argument that is not the value of a flag: the payload. -/
def takePayload (options : Options) (arg : String) : Option Options :=
  if arg ≠ "-" ∧ Text.startsWith arg "-" then none
  else (fill options.payload arg).map fun payload => { options with payload }

/-- Takes a flag with its value, or nothing when the argument is no flag. -/
def takeFlag? (options : Options) (flag value : String) : Option (Option Options) :=
  match flag with
  | "--tab" =>
    some ((Tab.ofName? value).bind fun tab =>
      (fill options.tab tab).map fun tab => { options with tab })
  | "--run-result" =>
    some ((fill options.runResult value).map fun runResult => { options with runResult })
  | "--config" => some ((fill options.config value).map fun config => { options with config })
  | "--mmdc" => some ((fill options.program value).map fun program => { options with program })
  | _ => none

/-- Takes arguments one after the other. A flag without a value is refused like a payload that
begins with a hyphen. -/
def takeAll (options : Options) : List String → Option Options
  | [] => some options
  | [arg] => takePayload options arg
  | arg :: value :: rest =>
    match takeFlag? options arg value with
    | some taken => taken.bind fun options => takeAll options rest
    | none => (takePayload options arg).bind fun options => takeAll options (value :: rest)

/-- Reads the arguments. There must be a payload. -/
def parse (args : List String) : Option Options :=
  (takeAll {} args).filter fun options => options.payload.isSome

/-! ## Surroundings -/

/-- What the program asks of its surroundings. -/
structure Environment where
  /-- The name that the program was called by. Its own name stands in for a missing one. -/
  name : String := "codelens-flow"
  /-- The environment variable of a name, if it is set. -/
  setting : String → Option String
  fileBytes : String → Except FileError (List UInt8)
  stdin : List UInt8
  launch : Launcher

/-- Why the program gives up. -/
inductive Failure where
  /-- The setting for the log cannot be cut into directives. -/
  | logSetting
  /-- The arguments cannot be read by the program of this name. -/
  | usage (name : String)
  | config (error : ConfigError)
  | unreadable (path : String) (error : FileError)
  | invalidJson (path : String) (message : String)
  deriving DecidableEq, Repr

/-- How the program of a name is to be called. -/
def usageText (name : String) : String :=
  "Usage:\n  " ++ name ++ " <payload.json> [--tab explain|flow|output] [--run-result <run.json>] " ++
  "[--config <engine.json>] [--mmdc <path>]\n\n" ++
  "Use `-` as payload path to read the analysis result from stdin.\n" ++
  "--tab selects the panel to print (default: explain).\n" ++
  "--config loads engine settings from JSON; missing keys keep their defaults.\n" ++
  "--mmdc overrides the mermaid-cli binary (default: $CODELENS_MMDC, then `mmdc`).\n\n" ++
  "Logs go to stderr; set CODELENS_LOG (e.g. `codelens_flow=debug`) to change the level.\n"

namespace Failure

/-- What is written on the error stream. -/
def message : Failure → String
  | .logSetting => ""
  | .usage name => usageText name
  | .config error => "codelens-flow: " ++ error.message ++ "\n"
  | .unreadable path error =>
    "codelens-flow: cannot read " ++ path ++ ": " ++ error.message ++ "\n"
  | .invalidJson path message =>
    "codelens-flow: invalid JSON in " ++ path ++ ": " ++ message ++ "\n"

/-- The exit code. -/
def exitCode : Failure → Nat
  | .logSetting => 101
  | .usage _ => 2
  | _ => 1

end Failure

/-- What the program leaves. -/
structure Report where
  exitCode : Nat := 0
  stdout : String := ""
  /-- What is written on the error stream apart from the log. -/
  stderr : String := ""
  /-- The events that are written to the log. -/
  log : List Event := []
  /-- The jobs that were done. -/
  ran : List Job := []

/-- What the program leaves when it gives up. -/
def Report.ofFailure (failure : Failure) : Report :=
  { exitCode := failure.exitCode, stderr := failure.message }

/-! ## The run -/

/-- Reads JSON from a file or from standard input, which gives nothing once it was read. -/
def readJson {α : Type} (env : Environment) (stdinRead : Bool)
    (parseJson : String → Except Json.Failure α) (path : String) : Except Failure α :=
  let bytes :=
    if path = "-" then .ok (if stdinRead then [] else env.stdin) else env.fileBytes path
  match bytes.bind textOfBytes with
  | .error error => .error (.unreadable path error)
  | .ok raw =>
    match parseJson raw with
    | .error failure => .error (.invalidJson path (failure.message raw))
    | .ok value => .ok value

/-- What the program shows, and with which settings. -/
structure Input where
  config : SharedConfig
  payload : Json
  run : Option RunResult

/-- Reads all that the options name. -/
def readInput (env : Environment) (options : Options) : Except Failure Input := do
  let config ← match options.config with
    | none => pure {}
    | some path =>
      match EngineConfig.load env.fileBytes path with
      | .error error => throw (.config error)
      | .ok config => pure (SharedConfig.install {} config).1
  let path := options.payload.getD "-"
  let payload ← readJson env false Json.parse path
  let run ← match options.runResult with
    | none => pure none
    | some runPath => some <$> readJson env (path == "-") RunResult.parseJson runPath
  return { config, payload, run }

/-- The number of steps that the tasks of one session can take at most. -/
def sessionFuel : Nat := 16

/-- Answers the requests of an engine that makes none. -/
def noRequests {σ ο : Type} (command : Empty) (_ : Scene σ ο) : Scene σ ο :=
  nomatch command

/-- Shows the input under a tab: the view after all sessions have ended. -/
def showTab (engine : Engine ExternalState Empty) (tab : Tab) (input : Input) :
    Scene ExternalState View :=
  let desk : Desk ExternalState View :=
    { renderer := { engine := {} }, schedule := { instanceId := .numbered 1 }, owner := {} }
  let s := desk.onPage { config := input.config }
  let s := ((s.setPayload (some input.payload)).1.setRun input.run).selectTab tab
  let room : Room ExternalState View := { page := s.1.toPage, desks := [.ofScene s.1] }
  let room := room.settle engine noRequests sessionFuel
  (room.scene? 0).getD s.1

/-- Reads what the arguments ask for and shows it, with a log under the given filter. -/
def runLogged (env : Environment) (filter : LogFilter) (args : List String) : Report :=
  match parse args with
  | none => .ofFailure (.usage env.name)
  | some options =>
    match readInput env options with
    | .error failure => .ofFailure failure
    | .ok input =>
      let program := options.program.getD (External.programOf (env.setting "CODELENS_MMDC"))
      let s := showTab (External.engine program env.launch) (options.tab.getD .explanation) input
      { stdout := s.panel.text ++ "\n"
        log := s.close.log.filter filter.admits
        ran := s.engine.ran }

/-- Runs the program with the given arguments. The log is set up before anything else. -/
def run (env : Environment) (args : List String) : Report :=
  match LogFilter.ofSetting (env.setting "CODELENS_LOG") with
  | none => .ofFailure .logSetting
  | some filter => runLogged env filter args

end CommandLine

end DiagramView
