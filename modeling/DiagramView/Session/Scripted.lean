import DiagramView.Engine.Script
import DiagramView.Session.Run

/-!
# Sessions on a scripted engine

Letting go of the calls that a gated script keeps waiting. What the script does at that moment is
carried out first; then the task that awaits the call is woken.
-/

namespace DiagramView

namespace Scene

variable {κ ο : Type}

/-- Lets the oldest waiting call of an id go. Says whether anyone awaited it, or nothing when there
is no such call. -/
def letGo (script : Script κ)
    (obey : κ → Scene (List ScriptCall) ο → Scene (List ScriptCall) ο) (id : String)
    (verdict : Verdict) (s : Scene (List ScriptCall) ο) :
    Scene (List ScriptCall) ο × Option Bool :=
  match Script.waiting? s.engine id with
  | none => (s, none)
  | some call =>
    let s := (script.settleDeeds call verdict).foldl (perform obey) s
    let s := { s with engine := Script.letGo call.host verdict s.engine }
    (s.wakeAwaiting call.host, some call.awaited)

end Scene

end DiagramView
