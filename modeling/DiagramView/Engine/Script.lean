import DiagramView.Engine.Basic
import DiagramView.Text.Blank

/-!
# Scripted engines

An engine that follows a script: which texts it refuses, with which texts rendering fails, what
markup it makes of the others, and what it does on the way. A gated script keeps every render call
waiting until it is let go.
-/

namespace DiagramView

/-- A message for the texts that contain a piece. -/
structure ScriptRule where
  contains : String
  message : String
  deriving DecidableEq, Repr

/-- What a script does at some point of a call. -/
inductive CueAction (κ : Type) where
  /-- Inserts a node into the host of the call, or into the body. In its id and its markup, the
  mark for the id stands for the id of the call. -/
  | insert (intoHost : Bool) (id markup : String)
  | request (command : κ)
  deriving Repr

/-- An action for the texts that contain a piece. -/
structure Cue (κ : Type) where
  contains : String := ""
  action : CueAction κ
  deriving Repr

/-- The markup of a script that gives none. -/
def defaultScriptMarkup : String :=
  "<svg id=\"\x7bid\x7d\" data-lines=\"\x7blines\x7d\">" ++
    "<rect class=\"background\" fill=\"#ffffff\"/><g class=\"nodes\"/></svg>"

/-- What an engine is to do. -/
structure Script (κ : Type) where
  /-- Whether render calls wait until they are let go. -/
  gated : Bool := false
  markup : String := defaultScriptMarkup
  syntaxErrors : List ScriptRule := []
  renderErrors : List ScriptRule := []
  onValidate : List (Cue κ) := []
  onRender : List (Cue κ) := []
  /-- What is done when a call comes to its end. -/
  onResolve : List (Cue κ) := []
  /-- What is done when a call is let go. -/
  onSettle : List (Cue κ) := []

/-- How a waiting render call is let go. -/
inductive Verdict where
  | released
  | rejected (message : String)
  | abandoned
  deriving DecidableEq, Repr

/-- A render call that is under way. -/
structure ScriptCall where
  host : HostId
  id : RenderId
  text : String
  /-- How the call was let go, if it was. -/
  verdict : Option Verdict
  /-- Whether anyone still awaits the call. -/
  awaited : Bool := true
  deriving DecidableEq, Repr

namespace Script

variable {κ : Type}

/-- The message of the first rule that a text falls under. -/
def messageFor? (rules : List ScriptRule) (text : String) : Option String :=
  (rules.find? fun rule => Text.contains text rule.contains).map (·.message)

/-- Puts the id of a call in the place of its mark. -/
def fillId (id template : String) : String :=
  Text.replaceAll template "\x7bid\x7d" id

/-- What the cues of a script do in a call. -/
def deeds (cues : List (Cue κ)) (id text : String) (host : Option HostId) : List (Deed κ) :=
  (cues.filter fun cue => Text.contains text cue.contains).map fun cue =>
    match cue.action with
    | .request command => .request command
    | .insert intoHost template markup =>
      let parent :=
        match intoHost, host with
        | true, some h => Parent.host h
        | _, _ => Parent.body
      .insert parent ⟨fillId id template, fillId id markup⟩

/-- What rendering gives for a text. -/
def render (script : Script κ) (id : RenderId) (text : String) : Except String String :=
  match messageFor? script.renderErrors text with
  | some message => .error message
  | none =>
    let markup := fillId id.text script.markup
    let lineCount := (Text.linesOf text.toList).length
    let markup := Text.replaceAll markup "\x7blines\x7d" (toString lineCount)
    .ok (Text.replaceAll markup "\x7btext\x7d" text)

/-- The result of a call that was let go. -/
def result (script : Script κ) (call : ScriptCall) (verdict : Verdict) : Except String String :=
  match verdict with
  | .released => script.render call.id call.text
  | .rejected message => .error message
  | .abandoned => .error "render abandoned"

/-- The engine that follows a script. Its state is the list of the render calls under way. -/
def engine (script : Script κ) : Engine (List ScriptCall) κ where
  configure := fun _ calls => calls
  validate := fun text calls =>
    ⟨calls, deeds script.onValidate "" text none,
      match messageFor? script.syntaxErrors text with
      | some message => .error message
      | none => .ok ()⟩
  render := fun id text host calls =>
    let verdict := if script.gated then none else some .released
    ⟨calls ++ [{ host, id, text, verdict }], deeds script.onRender id.text text (some host), ()⟩
  poll := fun host calls =>
    match calls.find? fun call => call.host = host with
    | none => none
    | some call =>
      call.verdict.map fun verdict =>
        ⟨calls.filter fun other => other.host ≠ host,
          deeds script.onResolve call.id.text call.text (some host), script.result call verdict⟩

/-! ## Waiting calls -/

/-- The calls that wait to be let go. -/
def waiting (calls : List ScriptCall) : List ScriptCall :=
  calls.filter fun call => call.verdict.isNone

/-- The oldest waiting call of an id. -/
def waiting? (calls : List ScriptCall) (id : String) : Option ScriptCall :=
  (waiting calls).find? fun call => call.id.text == id

/-- What a script does when a waiting call is let go. Nothing is done for a call that is simply
abandoned. -/
def settleDeeds (script : Script κ) (call : ScriptCall) (verdict : Verdict) : List (Deed κ) :=
  match verdict with
  | .abandoned => []
  | _ => deeds script.onSettle call.id.text call.text (some call.host)

/-- Lets the call in a host go. -/
def letGo (host : HostId) (verdict : Verdict) (calls : List ScriptCall) : List ScriptCall :=
  calls.map fun call => if call.host = host then { call with verdict := some verdict } else call

/-- Notes that nobody awaits the call in a host any more. -/
def forget (host : HostId) (calls : List ScriptCall) : List ScriptCall :=
  calls.map fun call => if call.host = host then { call with awaited := false } else call

end Script

end DiagramView
