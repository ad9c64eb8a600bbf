import DiagramView.Decimal.Natural
import DiagramView.Log.Event
import DiagramView.Text.Alphanumeric

/-!
# Log filters

A filter is a list of directives, each of which lets events through up to some level: a bare level
speaks for all events, a directive with a target for the parts of the program whose name begins
with it. The longest target decides.
-/

namespace DiagramView

/-- A bound on the levels that are let through; `none` lets nothing through. -/
abbrev LevelBound := Option Level

namespace LevelBound

/-- The name of a bound. -/
def name : LevelBound → String
  | none => "off"
  | some .error => "error"
  | some .warn => "warn"
  | some .info => "info"
  | some .debug => "debug"
  | some .trace => "trace"

/-- The bound that a word names, in any case, or that a numeral counts from nothing to
everything. -/
def ofName? (word : String) : Option LevelBound :=
  match Decimal.natural64? word.toList with
  | some 0 => some none
  | some 1 => some (some .error)
  | some 2 => some (some .warn)
  | some 3 => some (some .info)
  | some 4 => some (some .debug)
  | some 5 => some (some .trace)
  | _ =>
    match Text.lowerAscii word with
    | "off" => some none
    | "error" => some (some .error)
    | "warn" => some (some .warn)
    | "info" => some (some .info)
    | "debug" => some (some .debug)
    | "trace" => some (some .trace)
    | _ => none

/-- Whether a bound lets a level through. -/
def allows (bound : LevelBound) (level : Level) : Bool :=
  match bound with
  | none => false
  | some greatest => level.rank ≤ greatest.rank

end LevelBound

/-- One rule of a filter. -/
structure Directive where
  target : Option String
  bound : LevelBound
  deriving DecidableEq, Repr

namespace Directive

/-- Why a directive cannot be read. -/
inductive Fault where
  /-- It is no directive. -/
  | unreadable
  /-- It would have to be cut inside a character. -/
  | splitsChar
  deriving DecidableEq, Repr

/-- The characters that a target may begin with. -/
def beginsTarget (c : Char) : Bool :=
  Text.isAlphanumeric c || c == ':' || c == '-' || c == '_'

/-- A directive for a target and the word behind its equals sign. Without a word everything of that
part is let through. -/
def ofTarget (target level : List Char) : Except Fault Directive :=
  if level.isEmpty then .ok ⟨some (String.ofList target), some .trace⟩
  else
    match LevelBound.ofName? (String.ofList level) with
    | some bound => .ok ⟨some (String.ofList target), bound⟩
    | none => .error .unreadable

/-- A directive without an equals sign: a level, or a target all of which is let through. -/
def ofWord (word : String) : Directive :=
  match LevelBound.ofName? word with
  | some bound => ⟨none, bound⟩
  | none => ⟨some word, some .trace⟩

/-- Reads a directive: a level, a target, or a target and a level with an equals sign between. The
equals sign is looked for behind the blanks at the start and its distance is measured from there,
but it is the whole text that is cut at that distance. Brackets, which ask for spans, are not
read. -/
def parse (text : String) : Except Fault Directive :=
  let cs := text.toList
  let trimmed := Text.trimChars cs
  if !trimmed.head?.any beginsTarget then .error .unreadable
  else
    let isMark (c : Char) : Bool := c == '=' || c == '['
    let distance := Text.byteSize (trimmed.takeWhile fun c => !isMark c)
    match trimmed.find? isMark with
    | none => .ok (ofWord text)
    | some mark =>
      match Text.splitAtByte? distance cs, Text.splitAtByte? (distance + 1) cs with
      | some (target, _), some (_, level) =>
        if mark = '=' then ofTarget target level else .error .unreadable
      | _, _ => .error .splitsChar

/-- The text of a directive. -/
def text (d : Directive) : String :=
  match d.target with
  | none => LevelBound.name d.bound
  | some target => target ++ "=" ++ LevelBound.name d.bound

/-- The length of a target in bytes, a bare level coming before every target. -/
def specificity (d : Directive) : Nat :=
  match d.target with
  | none => 0
  | some target => target.utf8ByteSize + 1

/-- Whether a directive comes before another in a filter: longer targets first, and of two equally
long ones the greater first. -/
def before (d e : Directive) : Bool :=
  d.specificity > e.specificity ||
    (d.specificity == e.specificity && decide (e.target.getD "" < d.target.getD ""))

/-- Whether a directive speaks for a part of the program. -/
def concerns (d : Directive) (source : String) : Bool :=
  match d.target with
  | none => true
  | some target => Text.startsWith source target

end Directive

/-- A filter: directives with distinct targets, the most specific first. -/
structure LogFilter where
  directives : List Directive
  deriving DecidableEq, Repr

namespace LogFilter

/-- Takes a directive into a list of them; it replaces one with the same target. -/
def insert : List Directive → Directive → List Directive
  | [], d => [d]
  | e :: rest, d =>
    if d.target = e.target then d :: rest
    else if d.before e then d :: e :: rest
    else e :: insert rest d

/-- The filter that is used when none is given. -/
def standard : LogFilter :=
  ⟨[⟨none, some .warn⟩]⟩

/-- Reads a filter: directives separated by commas, empty ones not counted. Without any directive
nothing is let through. -/
def parse (text : String) : Except Directive.Fault LogFilter := do
  let parts := (Text.cutAt ',' text.toList).filter (!·.isEmpty)
  let directives ← parts.mapM fun part => Directive.parse (String.ofList part)
  return ⟨directives.foldl insert []⟩

/-- The filter that a setting asks for. A missing, blank or unreadable setting asks for the standard
one, and there is none for a setting that would have to be cut inside a character. -/
def ofSetting (setting : Option String) : Option LogFilter :=
  match setting with
  | none => some standard
  | some text =>
    if Text.isBlankText text then some standard
    else
      match parse text with
      | .ok filter => some filter
      | .error .unreadable => some standard
      | .error .splitsChar => none

/-- The text of a filter. -/
def text (f : LogFilter) : String :=
  Text.join "," (f.directives.map Directive.text)

/-- Whether a filter lets an event through: the first directive that speaks for its source
decides. -/
def admits (f : LogFilter) (e : Event) : Bool :=
  match f.directives.find? fun d => d.concerns e.source with
  | none => false
  | some d => LevelBound.allows d.bound e.level

end LogFilter

end DiagramView
