import DiagramView.Text.Quoted

/-!
# Log events

What the parts of the view report while they work. An event is what happened; its level, its
message and the fields under which its particulars are recorded are read off it.
-/

namespace DiagramView

/-- How important an event is, the most important first. -/
inductive Level where
  | error
  | warn
  | info
  | debug
  | trace
  deriving DecidableEq, Repr, Inhabited

namespace Level

/-- The rank of a level: the greater, the less important. -/
def rank : Level → Nat
  | .error => 1
  | .warn => 2
  | .info => 3
  | .debug => 4
  | .trace => 5

/-- The name of a level in log lines. -/
def label : Level → String
  | .error => "ERROR"
  | .warn => "WARN"
  | .info => "INFO"
  | .debug => "DEBUG"
  | .trace => "TRACE"

end Level

/-- Why the sessions in flight are given up. -/
inductive CancelReason where
  | superseded
  | teardown
  deriving DecidableEq, Repr

/-- The name of a reason. -/
def CancelReason.name : CancelReason → String
  | .superseded => "superseded"
  | .teardown => "teardown"

/-- Something that happened. -/
inductive Event where
  | engineInitialized (theme : String)
  | configIgnored
  | hostStaysAttached (host : String)
  | artifactNotWellFormed
  | programStarted (program svgId : String)
  | renderScheduled (renderId : String)
  | noDiagramText (renderId : String)
  | sessionCancelled (seq : Nat) (reason : CancelReason)
  | straysRemoved (swept : Nat) (reason : CancelReason)
  | staleDiscarded (renderId : String) (swept : Nat)
  | lateDiscarded (renderId : String) (ok : Bool) (swept : Nat)
  | diagramRejected (renderId error : String)
  | diagramRendered (renderId : String) (swept : Nat)
  | renderFailed (renderId error : String)
  | tabSwitched (source target : String)
  | payloadWithoutDiagram (keys : String)
  | textExtracted (strategy : String)
  deriving DecidableEq, Repr

/-- How the value of a field is shown in a log line. -/
inductive FieldValue where
  /-- As it is. -/
  | bare (text : String)
  /-- Between quotation marks. -/
  | text (text : String)
  deriving DecidableEq, Repr

namespace FieldValue

/-- The value itself. -/
def value : FieldValue → String
  | .bare s => s
  | .text s => s

/-- The value as a log line shows it. -/
def shown : FieldValue → String
  | .bare s => s
  | .text s => Text.quoted s

end FieldValue

namespace Event

/-- The level of an event. -/
def level : Event → Level
  | .configIgnored | .hostStaysAttached _ | .renderFailed _ _ | .payloadWithoutDiagram _ => .warn
  | _ => .debug

/-- The part of the program that an event comes from, as log filters name it. -/
def source : Event → String
  | .engineInitialized _ | .configIgnored => "codelens_flow::render::engine"
  | .hostStaysAttached _ => "codelens_flow::render"
  | .artifactNotWellFormed => "codelens_flow::render::postprocess"
  | .programStarted _ _ => "codelens_flow::render::mmdc"
  | .tabSwitched _ _ | .payloadWithoutDiagram _ | .textExtracted _ => "codelens_flow::view"
  | _ => "codelens_flow::schedule"

/-- The message of an event. -/
def message : Event → String
  | .engineInitialized _ => "diagram engine initialized"
  | .configIgnored => "engine configuration already installed; ignoring a different one"
  | .hostStaysAttached _ =>
    "surface busy while releasing off-screen host; host stays attached"
  | .artifactNotWellFormed => "artifact is not well-formed XML; scanning start tags"
  | .programStarted _ _ => "running mmdc"
  | .renderScheduled _ => "render scheduled"
  | .noDiagramText _ => "no diagram text"
  | .sessionCancelled _ _ => "render session cancelled"
  | .straysRemoved _ _ => "removed stray diagram nodes"
  | .staleDiscarded _ _ => "stale render discarded"
  | .lateDiscarded _ _ _ => "late render settled and discarded"
  | .diagramRejected _ _ => "diagram rejected"
  | .diagramRendered _ _ => "diagram rendered"
  | .renderFailed _ _ => "diagram render failed"
  | .tabSwitched _ _ => "tab switched"
  | .payloadWithoutDiagram _ => "analysis result carries no recognizable diagram"
  | .textExtracted _ => "diagram text extracted"

/-- The particulars of an event, in the order in which a log line shows them. -/
def fields : Event → List (String × FieldValue)
  | .engineInitialized theme => [("theme", .bare theme)]
  | .configIgnored => []
  | .hostStaysAttached host => [("host", .bare host)]
  | .artifactNotWellFormed => []
  | .programStarted program svgId =>
    [("program", .bare (Text.quoted program)), ("svg_id", .bare svgId)]
  | .renderScheduled id => [("render_id", .bare id)]
  | .noDiagramText id => [("render_id", .bare id)]
  | .sessionCancelled seq reason =>
    [("seq", .bare (toString seq)), ("reason", .text reason.name)]
  | .straysRemoved swept reason =>
    [("swept", .bare (toString swept)), ("reason", .text reason.name)]
  | .staleDiscarded id swept => [("render_id", .bare id), ("swept", .bare (toString swept))]
  | .lateDiscarded id ok swept =>
    [("render_id", .bare id), ("ok", .bare (if ok then "true" else "false")),
     ("swept", .bare (toString swept))]
  | .diagramRejected id error => [("render_id", .bare id), ("error", .bare error)]
  | .diagramRendered id swept => [("render_id", .bare id), ("swept", .bare (toString swept))]
  | .renderFailed id error => [("render_id", .bare id), ("error", .bare error)]
  | .tabSwitched source target => [("from", .bare source), ("to", .bare target)]
  | .payloadWithoutDiagram keys => [("keys", .bare keys)]
  | .textExtracted strategy => [("strategy", .text strategy)]

/-- The log line of an event. A field with line breaks makes it several lines. -/
def line (e : Event) : String :=
  e.level.label ++ " " ++ e.message ++
    String.join (e.fields.map fun field => " " ++ field.1 ++ "=" ++ field.2.shown)

end Event

end DiagramView
