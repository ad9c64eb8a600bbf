import DiagramView.Json.Decode

/-!
# Engine settings

The settings a diagram engine is started with. Settings read from JSON override the defaults field
by field, at both levels; the theme's variables are replaced as a whole. Variables are kept in the
order of their names.
-/

namespace DiagramView

/-- How much an engine trusts the text of a diagram. -/
inductive SecurityLevel where
  | strict
  | loose
  | antiscript
  | sandbox
  deriving DecidableEq, Repr, Inhabited

namespace SecurityLevel

/-- All levels, in the order in which messages list them. -/
def all : List SecurityLevel :=
  [.strict, .loose, .antiscript, .sandbox]

/-- The name of a level. -/
def name : SecurityLevel → String
  | .strict => "strict"
  | .loose => "loose"
  | .antiscript => "antiscript"
  | .sandbox => "sandbox"

end SecurityLevel

/-- The settings for flowcharts. -/
structure FlowchartConfig where
  diagramPadding : UInt32 := 2
  padding : UInt32 := 0
  htmlLabels : Bool := true
  useMaxWidth : Bool := true
  nodeSpacing : UInt32 := 36
  rankSpacing : UInt32 := 36
  deriving DecidableEq, Repr, Inhabited

/-! ## Variables -/

/-- Sets a variable in a list that is ordered by name. -/
def setVariable : List (String × String) → String → String → List (String × String)
  | [], name, value => [(name, value)]
  | entry :: rest, name, value =>
    if name < entry.1 then (name, value) :: entry :: rest
    else if name = entry.1 then (name, value) :: rest
    else entry :: setVariable rest name value

theorem mem_setVariable {entries : List (String × String)} {name value : String}
    {entry : String × String} (h : entry ∈ setVariable entries name value) :
    entry = (name, value) ∨ entry ∈ entries := by
  induction entries with
  | nil => simpa [setVariable] using h
  | cons head rest ih =>
    simp only [setVariable] at h
    split at h
    · simpa using h
    · split at h
      · rcases List.mem_cons.1 h with h | h
        · exact .inl h
        · exact .inr (List.mem_cons_of_mem _ h)
      · rcases List.mem_cons.1 h with h | h
        · exact .inr (h ▸ List.mem_cons_self)
        · rcases ih h with h | h
          · exact .inl h
          · exact .inr (List.mem_cons_of_mem _ h)

theorem pairwise_setVariable {entries : List (String × String)}
    (h : entries.Pairwise (fun a b => a.1 < b.1)) (name value : String) :
    (setVariable entries name value).Pairwise (fun a b => a.1 < b.1) := by
  induction entries with
  | nil => simp [setVariable]
  | cons head rest ih =>
    obtain ⟨hhead, hrest⟩ := List.pairwise_cons.1 h
    simp only [setVariable]
    split
    case isTrue hlt =>
      refine List.pairwise_cons.2 ⟨fun entry hentry => ?_, h⟩
      rcases List.mem_cons.1 hentry with rfl | hmem
      · exact hlt
      · exact String.lt_trans hlt (hhead entry hmem)
    case isFalse hnot =>
      split
      case isTrue heq =>
        exact List.pairwise_cons.2 ⟨fun entry hentry => heq ▸ hhead entry hentry, hrest⟩
      case isFalse hne =>
        refine List.pairwise_cons.2 ⟨fun entry hentry => ?_, ih hrest⟩
        rcases mem_setVariable hentry with rfl | hmem
        · have hle : head.1 ≤ name := String.not_lt.1 hnot
          exact Classical.byContradiction fun hlt =>
            hne (String.le_antisymm (String.not_lt.1 hlt) hle)
        · exact hhead entry hmem

/-- Variables of a theme, each name once and in the order of the names. -/
structure ThemeVariables where
  entries : List (String × String)
  sorted : entries.Pairwise (fun a b => a.1 < b.1)
  deriving DecidableEq, Repr

namespace ThemeVariables

/-- No variables. -/
def empty : ThemeVariables :=
  ⟨[], .nil⟩

instance : Inhabited ThemeVariables := ⟨empty⟩

/-- Sets a variable. -/
def set (vars : ThemeVariables) (name value : String) : ThemeVariables :=
  ⟨setVariable vars.entries name value, pairwise_setVariable vars.sorted name value⟩

/-- The variables that a list of assignments leaves. -/
def ofList (entries : List (String × String)) : ThemeVariables :=
  entries.foldl (fun vars entry => vars.set entry.1 entry.2) empty

/-- The variables of the default theme. -/
def standard : ThemeVariables :=
  ofList
    [("background", "transparent"),
     ("primaryColor", "#0f172a"),
     ("primaryTextColor", "#e5e7eb"),
     ("primaryBorderColor", "#334155"),
     ("secondaryColor", "#0b1220"),
     ("secondaryTextColor", "#e5e7eb"),
     ("tertiaryColor", "#111827"),
     ("tertiaryTextColor", "#e5e7eb"),
     ("lineColor", "#93c5fd"),
     ("textColor", "#e6edf3"),
     ("edgeLabelBackground", "transparent"),
     ("fontFamily",
      "ui-sans-serif, system-ui, -apple-system, Segoe UI, Roboto, Ubuntu, Cantarell, " ++
        "'Helvetica Neue', Arial")]

end ThemeVariables

/-! ## Settings -/

/-- The settings of an engine. -/
structure EngineConfig where
  startOnLoad : Bool := false
  securityLevel : SecurityLevel := .loose
  theme : String := "base"
  flowchart : FlowchartConfig := {}
  themeVariables : ThemeVariables := .standard
  deriving DecidableEq, Repr, Inhabited

namespace FlowchartConfig

/-- The fields of the stored form. -/
def jsonFields : List (Json.Field FlowchartConfig) :=
  [⟨"diagramPadding", fun c cur => do
      let (n, cur) ← Json.readUInt32 cur
      return ({ c with diagramPadding := n }, cur)⟩,
   ⟨"padding", fun c cur => do
      let (n, cur) ← Json.readUInt32 cur
      return ({ c with padding := n }, cur)⟩,
   ⟨"htmlLabels", fun c cur => do
      let (b, cur) ← Json.readBool cur
      return ({ c with htmlLabels := b }, cur)⟩,
   ⟨"useMaxWidth", fun c cur => do
      let (b, cur) ← Json.readBool cur
      return ({ c with useMaxWidth := b }, cur)⟩,
   ⟨"nodeSpacing", fun c cur => do
      let (n, cur) ← Json.readUInt32 cur
      return ({ c with nodeSpacing := n }, cur)⟩,
   ⟨"rankSpacing", fun c cur => do
      let (n, cur) ← Json.readUInt32 cur
      return ({ c with rankSpacing := n }, cur)⟩]

/-- Reads flowchart settings. -/
def read (cur : Json.Cursor) : Except Json.Failure (FlowchartConfig × Json.Cursor) :=
  Json.readRecord "FlowchartConfig" jsonFields {} cur

/-- A whole number without sign as a JSON value. -/
def sizeToJson (n : UInt32) : Json :=
  .number (.natural n.toUInt64)

/-- The stored form of flowchart settings. -/
def toJson (c : FlowchartConfig) : Json :=
  .object
    [("diagramPadding", sizeToJson c.diagramPadding), ("padding", sizeToJson c.padding),
     ("htmlLabels", .bool c.htmlLabels), ("useMaxWidth", .bool c.useMaxWidth),
     ("nodeSpacing", sizeToJson c.nodeSpacing), ("rankSpacing", sizeToJson c.rankSpacing)]

end FlowchartConfig

namespace EngineConfig

/-- The fields of the stored form. -/
def jsonFields : List (Json.Field EngineConfig) :=
  [⟨"startOnLoad", fun c cur => do
      let (b, cur) ← Json.readBool cur
      return ({ c with startOnLoad := b }, cur)⟩,
   ⟨"securityLevel", fun c cur => do
      let (level, cur) ←
        Json.readVariant (SecurityLevel.all.map fun level => (level.name, level)) cur
      return ({ c with securityLevel := level }, cur)⟩,
   ⟨"theme", fun c cur => do
      let (s, cur) ← Json.readText cur
      return ({ c with theme := s }, cur)⟩,
   ⟨"flowchart", fun c cur => do
      let (f, cur) ← FlowchartConfig.read cur
      return ({ c with flowchart := f }, cur)⟩,
   ⟨"themeVariables", fun c cur => do
      let (vars, cur) ← Json.readMap Json.readText ThemeVariables.set .empty cur
      return ({ c with themeVariables := vars }, cur)⟩]

/-- Reads engine settings over the defaults. -/
def read (cur : Json.Cursor) : Except Json.Failure (EngineConfig × Json.Cursor) :=
  Json.readRecord "EngineConfig" jsonFields {} cur

/-- Reads the stored form of engine settings. -/
def parseJson (text : String) : Except Json.Failure EngineConfig :=
  Json.readWhole read text

/-- The stored form of engine settings, as a value. -/
def toJson (c : EngineConfig) : Json :=
  .object
    [("startOnLoad", .bool c.startOnLoad),
     ("securityLevel", .string c.securityLevel.name),
     ("theme", .string c.theme),
     ("flowchart", c.flowchart.toJson),
     ("themeVariables",
      .object (c.themeVariables.entries.map fun entry => (entry.1, .string entry.2)))]

/-- The stored form of engine settings. -/
def text (c : EngineConfig) : String :=
  c.toJson.compact

end EngineConfig

end DiagramView
