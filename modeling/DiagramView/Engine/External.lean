import DiagramView.Engine.Basic
import DiagramView.Files

/-!
# External engines

An engine that runs a program for every diagram. The program gets the text in a file and is told
where to leave the markup; it cannot check a text without rendering it, so every text is accepted
at first. When it fails, what it wrote on its error stream is the message.
-/

namespace DiagramView

/-- How a program ended. -/
inductive ExitStatus where
  | code (n : Nat)
  | signal (n : Nat)
  deriving DecidableEq, Repr

namespace ExitStatus

/-- The status of a program that ends by itself with a number, of which eight bits are kept. -/
def exit (n : Nat) : ExitStatus :=
  .code (n % 256)

/-- The names of the signals, by number from one. -/
def signalNames : List String :=
  ["SIGHUP", "SIGINT", "SIGQUIT", "SIGILL", "SIGTRAP", "SIGABRT", "SIGBUS", "SIGFPE", "SIGKILL",
   "SIGUSR1", "SIGSEGV", "SIGUSR2", "SIGPIPE", "SIGALRM", "SIGTERM", "SIGSTKFLT", "SIGCHLD",
   "SIGCONT", "SIGSTOP", "SIGTSTP", "SIGTTIN", "SIGTTOU", "SIGURG", "SIGXCPU", "SIGXFSZ",
   "SIGVTALRM", "SIGPROF", "SIGWINCH", "SIGIO", "SIGPWR", "SIGSYS"]

/-- The text form of an exit status. -/
def text : ExitStatus → String
  | .code n => "exit status: " ++ toString n
  | .signal n =>
    let name :=
      match signalNames[n - 1]? with
      | some name => if n = 0 then "" else " (" ++ name ++ ")"
      | none => ""
    "signal: " ++ toString n ++ name

end ExitStatus

/-- What a program that was run left. -/
structure Completion where
  status : ExitStatus := .code 0
  /-- What it wrote on its error stream. -/
  stderr : List UInt8 := []
  /-- What it left in the output file, if it made one. -/
  output : Option (List UInt8) := none
  deriving DecidableEq, Repr

/-- One run of a program. -/
structure Job where
  program : String
  id : RenderId
  text : String
  /-- The stored form of the settings, if there are any. -/
  config : Option String
  deriving DecidableEq, Repr

namespace Job

/-- The arguments of the program, with its files in a scratch folder. -/
def arguments (job : Job) (scratch : String) : List String :=
  ["--quiet", "--input", scratch ++ "/diagram.mmd", "--output", scratch ++ "/diagram.svg",
   "--svgId", job.id.text, "--backgroundColor", "transparent"] ++
    (if job.config.isSome then ["--configFile", scratch ++ "/config.json"] else [])

/-- Whether the program and its arguments may be handed over at all. -/
def check (job : Job) : Except FileError Unit :=
  if (job.program :: job.arguments "").any fun s => s.toList.contains '\x00' then
    .error .nullInCommand
  else .ok ()

/-- The markup that a program left, or why there is none. -/
def result (done : Completion) : Except String String :=
  if done.status = .code 0 then
    match done.output.elim (.error .notFound) textOfBytes with
    | .ok markup => .ok markup
    | .error error => .error ("cannot read rendered svg: " ++ FileError.message error)
  else
    let message := Text.trim (Text.decodeLenient done.stderr)
    .error (if message.isEmpty then "mmdc exited with " ++ done.status.text else message)

/-- Why a program could not be run. -/
def launchMessage (job : Job) (error : FileError) : String :=
  "cannot run " ++ job.program ++ ": " ++ error.message

/-- What is reported when a program is about to run. -/
def started (job : Job) : Event :=
  .programStarted job.program job.id.text

end Job

/-- Runs a program. -/
abbrev Launcher := Job → Except FileError Completion

/-- The state of an external engine. -/
structure ExternalState where
  /-- The stored form of the settings, once they were taken. -/
  config : Option String := none
  /-- The jobs of the calls under way. -/
  jobs : List (HostId × Job) := []
  /-- The jobs whose programs were run. -/
  ran : List Job := []
  deriving DecidableEq, Repr

namespace External

/-- The program that is run when none is named. -/
def defaultProgram : String := "mmdc"

/-- The program that a setting names. -/
def programOf (setting : Option String) : String :=
  match setting with
  | some program => if program.isEmpty then defaultProgram else program
  | none => defaultProgram

/-- Does a job: its result, and whether the program was run. -/
def run (launch : Launcher) (job : Job) : Except String String × Bool :=
  match job.check.bind fun () => launch job with
  | .error error => (.error (job.launchMessage error), false)
  | .ok done => (Job.result done, true)

/-- The engine that runs a program. -/
def engine {κ : Type} (program : String) (launch : Launcher) : Engine ExternalState κ where
  configure := fun config state => { state with config := some config.text }
  validate := fun _ state => ⟨state, [], .ok ()⟩
  render := fun id text host state =>
    let job : Job := { program, id, text, config := state.config }
    ⟨{ state with jobs := state.jobs ++ [(host, job)] }, [], ()⟩
  poll := fun host state =>
    match state.jobs.find? fun entry => entry.1 = host with
    | none => none
    | some (_, job) =>
      let (result, ran) := run launch job
      let state :=
        { state with
          jobs := state.jobs.filter fun entry => entry.1 ≠ host
          ran := if ran then state.ran ++ [job] else state.ran }
      some ⟨state, [.report job.started], result⟩

end External

end DiagramView
