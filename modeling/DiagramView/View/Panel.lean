import DiagramView.Diagram.Line
import DiagramView.RunResult
import DiagramView.Session.Phase

/-!
# Panels

What a view shows: the panel of the active tab, or a notice in its place while a request is under
way or has failed. Every panel has a text form.
-/

namespace DiagramView

/-! ## Explanations -/

/-- The explanation in a payload: what its explanation field holds, else the whole payload. -/
def explanationOf? (payload : Option Json) : Option Json :=
  match payload with
  | none => none
  | some .null => none
  | some v =>
    match v.get? "explanation" with
    | none => some v
    | some .null => some v
    | some explanation => some explanation

/-- A line of an explanation. A line without text is shown in its JSON form. -/
def explanationLine : Json → String
  | .string s => s
  | .object fields =>
    let text :=
      match Json.field? fields "text" with
      | none => (Json.object fields).compact
      | some .null => (Json.object fields).compact
      | some (.string s) => s
      | some v => v.compact
    String.join (List.replicate (Diagram.indentOf fields) "  ") ++ text
  | v => v.compact

/-- The text of an explanation. -/
def renderExplanation (explanation : Option Json) : String :=
  match explanation with
  | none => "Ready"
  | some .null => "Ready"
  | some (.string s) => s
  | some (.array lines) => Text.join "\n" (lines.map explanationLine)
  | some (.object fields) => (Json.object fields).indented
  | some v => v.compact

/-! ## The flow panel -/

/-- The panel with the diagram. -/
structure FlowPanel where
  phase : Phase
  markup : Option String
  error : Option String
  rawText : String
  deriving DecidableEq, Repr

namespace FlowPanel

/-- The label of the part that can be unfolded. -/
def disclosure (p : FlowPanel) : String :=
  if p.error.isSome then "Show error & raw diagram" else "Show raw diagram"

/-- The text of the diagram, or a notice that there is none. -/
def rawTextOrNotice (p : FlowPanel) : String :=
  if p.rawText.isEmpty then "No diagram text found." else p.rawText

/-- A notice in the place of the diagram when there is none and nothing went wrong. -/
def placeholder? (p : FlowPanel) : Option String :=
  if p.markup.isNone && p.error.isNone then some "No diagram yet." else none

/-- The text form of the panel. -/
def text (p : FlowPanel) : String :=
  let head :=
    match p.markup with
    | some markup => markup ++ "\n"
    | none =>
      match p.placeholder? with
      | some notice => notice ++ "\n"
      | none => ""
  let error :=
    match p.error with
    | some message => message ++ "\n"
    | none => ""
  head ++ "\n▸ " ++ p.disclosure ++ "\n" ++ error ++ p.rawTextOrNotice

end FlowPanel

/-! ## The output panel -/

/-- The panel with the result of a run. -/
structure OutputPanel where
  exitCode : Option Int64 := none
  stdout : String := ""
  stderr : String := ""
  deriving DecidableEq, Repr

namespace OutputPanel

/-- The panel of a run, or of none. -/
def ofRun (run : Option RunResult) : OutputPanel :=
  match run with
  | none => {}
  | some r => ⟨r.exitCode, r.stdout, r.stderr⟩

/-- What a run wrote, or a dash when it wrote nothing. -/
def orDash (stream : String) : String :=
  if stream.isEmpty then "—" else stream

/-- The text form of the panel. -/
def text (p : OutputPanel) : String :=
  let code :=
    match p.exitCode with
    | some code => toString code.toInt
    | none => "—"
  "exit code:" ++ code ++ "\nstdout\n" ++ orDash p.stdout ++ "\nstderr\n" ++ orDash p.stderr

end OutputPanel

/-! ## Panels -/

/-- What a view shows. -/
inductive Panel where
  | working
  | requestError (message : String)
  | explanation (text : String)
  | flow (panel : FlowPanel)
  | output (panel : OutputPanel)
  deriving DecidableEq, Repr

/-- The text form of what a view shows. -/
def Panel.text : Panel → String
  | .working => "Working…"
  | .requestError message => message
  | .explanation text => text
  | .flow panel => panel.text
  | .output panel => panel.text

end DiagramView
