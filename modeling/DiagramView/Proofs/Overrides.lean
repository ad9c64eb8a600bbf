import DiagramView.Engine.Config
import DiagramView.Proofs.RecordDecoding
import Mathlib.Data.List.Forall2

/-!
# Settings that override the defaults

An object is partial when each known field occurs in it at most once and has a value of the field's
kind; it may have any other fields besides. What a record is after its fields have been taken in one
by one is compared with look-ups in the object, one projection at a time (`Shows`): the order of the
fields and the unknown ones among them drop out.

`partial_settings_override`: a partial object is read as the default settings with the given fields
replaced, and an object that repeats a known field, at either level, is refused.
-/

namespace DiagramView

namespace Json

variable {α ρ τ : Type}

/-! ## Look-ups -/

/-- The keys of an object in their order. -/
def Members.keys (members : Members) : List (Option String) :=
  members.entries.map (·.1)

/-- The value of the first field with a name. -/
def valueOf? (name : String) (entries : List (Option String × Value)) : Option Value :=
  (entries.find? fun entry => entry.1 == some name).map (·.2)

theorem valueOf?_cons {name key : String} {entry : Option String × Value} (h : entry.1 = some key)
    (entries : List (Option String × Value)) :
    valueOf? name (entry :: entries) =
      if key = name then some entry.2 else valueOf? name entries := by
  unfold valueOf?
  by_cases hname : key = name
  · rw [if_pos hname, List.find?_cons_of_pos (by simp [h, hname])]
    rfl
  · rw [if_neg hname, List.find?_cons_of_neg (by simp [h, hname])]

/-- What an object gives under a name, or a default. -/
def Members.valueOr (members : Members) (name : String) (as : Value → Option α) (default : α) : α :=
  ((valueOf? name members.entries).bind as).getD default

theorem mem_of_valueOf? {name : String} {entries : List (Option String × Value)} {v : Value}
    (h : valueOf? name entries = some v) : (some name, v) ∈ entries := by
  obtain ⟨entry, hfind, rfl⟩ := Option.map_eq_some_iff.mp h
  have hname : entry.1 = some name := by simpa using List.find?_some hfind
  rw [← hname]
  exact List.mem_of_find?_eq_some hfind

theorem Members.valueOr_congr {members : Members} {name : String} {as as' : Value → Option α}
    (h : ∀ v, (some name, v) ∈ members.entries → as v = as' v) (default : α) :
    members.valueOr name as default = members.valueOr name as' default := by
  unfold Members.valueOr
  cases hvalue : valueOf? name members.entries with
  | none => rfl
  | some v => rw [Option.bind_some, Option.bind_some, h v (mem_of_valueOf? hvalue)]

/-- The values that a known field may have. -/
structure Kind where
  name : String
  holds : Value → Bool

/-- Each known field occurs at most once, with a value of its kind; all keys stand for strings. -/
structure Members.Partial (kinds : List Kind) (members : Members) : Prop where
  strings : ∀ key ∈ members.keys, key.isSome = true
  once : ∀ kind ∈ kinds, members.keys.count (some kind.name) ≤ 1
  typed : ∀ entry ∈ members.entries, ∀ kind ∈ kinds, entry.1 = some kind.name →
    kind.holds entry.2 = true

instance (kinds : List Kind) (members : Members) : Decidable (members.Partial kinds) :=
  decidable_of_iff
    ((∀ key ∈ members.keys, key.isSome = true) ∧
      (∀ kind ∈ kinds, members.keys.count (some kind.name) ≤ 1) ∧
      ∀ entry ∈ members.entries, ∀ kind ∈ kinds, entry.1 = some kind.name →
        kind.holds entry.2 = true)
    ⟨fun h => ⟨h.1, h.2.1, h.2.2⟩, fun h => ⟨h.strings, h.once, h.typed⟩⟩

/-- A known field occurs more than once. -/
def Members.Repeats (kinds : List Kind) (members : Members) : Prop :=
  ∃ kind ∈ kinds, 2 ≤ members.keys.count (some kind.name)

/-! ## Projections of a record -/

section

variable {fields : List (TypedField ρ)}

/-- A field sets a projection of the record when it has the given name, and else leaves it. -/
structure TypedField.Shows (name : String) (as : Value → Option τ) (proj : ρ → τ)
    (f : TypedField ρ) : Prop where
  own : f.name = name → ∀ v change, f.update v = some change → ∀ r,
    as v = some (proj (change r))
  other : f.name ≠ name → ∀ v change, f.update v = some change → ∀ r, proj (change r) = proj r

section

variable {name : String} {as : Value → Option τ} {proj : ρ → τ}

@[simp]
theorem TypedField.shows_own {reader : Cursor → Except Failure (τ × Cursor)}
    (h : Decodes reader as) {set : τ → ρ → ρ} (hset : ∀ x r, proj (set x r) = x) :
    (TypedField.of name h set).Shows name as proj where
  own _ v change hchange r := by
    obtain ⟨x, hx, rfl⟩ := Option.map_eq_some_iff.mp hchange
    rw [hset, hx]
  other hne := absurd rfl hne

@[simp]
theorem TypedField.shows_other {other : String} (hne : other ≠ name)
    {reader : Cursor → Except Failure (α × Cursor)} {meaning : Value → Option α}
    (h : Decodes reader meaning) {set : α → ρ → ρ} (hset : ∀ x r, proj (set x r) = proj r) :
    (TypedField.of other h set).Shows name as proj where
  own heq := absurd heq hne
  other _ v change hchange r := by
    obtain ⟨x, -, rfl⟩ := Option.map_eq_some_iff.mp hchange
    exact hset x r

variable (hshows : ∀ f ∈ fields, f.Shows name as proj) {acc last : List String × ρ}
  {entries : List (Option String × Value)}
include hshows

/-- Every field with the name has a value that sets the projection. -/
theorem isSome_of_takeAll (hknown : ∃ f ∈ fields, f.name = name)
    (h : takeAll (takeField fields) acc entries = some last) {v : Value}
    (hentry : (some name, v) ∈ entries) : (as v).isSome = true := by
  induction entries generalizing acc with
  | nil => cases hentry
  | cons entry entries ih =>
    obtain ⟨key, next, hkey, htake, hrest⟩ := takeAll_cons_cases h
    rcases List.mem_cons.mp hentry with rfl | hentry
    · obtain rfl : key = name := (Option.some.inj hkey).symm
      rcases takeField_cases htake with ⟨hunknown, -⟩ | ⟨f, hf, hname, -, change, hchange, -⟩
      · obtain ⟨f, hf, hname⟩ := hknown
        exact absurd hname (hunknown f hf)
      · rw [(hshows f hf).own hname _ _ hchange acc.2, Option.isSome_some]
    · exact ih hrest hentry

/-- What has been set stays as it is. -/
theorem proj_takeAll_of_seen (h : takeAll (takeField fields) acc entries = some last)
    (hseen : name ∈ acc.1) : proj last.2 = proj acc.2 := by
  induction entries generalizing acc with
  | nil => rw [Option.some.inj h]
  | cons entry entries ih =>
    obtain ⟨key, next, hkey, htake, hrest⟩ := takeAll_cons_cases h
    rcases takeField_cases htake with ⟨-, rfl⟩ | ⟨f, hf, rfl, hfresh, change, hchange, rfl⟩
    · exact ih hrest hseen
    · have hother : f.name ≠ name := fun heq => hfresh (heq ▸ hseen)
      exact (ih hrest (List.mem_cons_of_mem _ hseen)).trans
        ((hshows f hf).other hother _ _ hchange acc.2)

/-- A projection is what the object gives under its name, or what it was before. -/
theorem proj_takeAll (hknown : ∃ f ∈ fields, f.name = name)
    (h : takeAll (takeField fields) acc entries = some last) (hseen : name ∉ acc.1) :
    proj last.2 = ((valueOf? name entries).bind as).getD (proj acc.2) := by
  induction entries generalizing acc with
  | nil =>
    rw [Option.some.inj h]
    rfl
  | cons entry entries ih =>
    obtain ⟨key, next, hkey, htake, hrest⟩ := takeAll_cons_cases h
    rw [valueOf?_cons hkey]
    rcases takeField_cases htake with ⟨hunknown, rfl⟩ | ⟨f, hf, rfl, -, change, hchange, rfl⟩
    · obtain ⟨f, hf, rfl⟩ := hknown
      rw [if_neg (hunknown f hf).symm]
      exact ih hrest hseen
    · by_cases hname : f.name = name
      · have hset := (hshows f hf).own hname _ _ hchange acc.2
        rw [if_pos hname, Option.bind_some, hset]
        exact proj_takeAll_of_seen hshows hrest (hname ▸ List.mem_cons_self)
      · have hkept := (hshows f hf).other hname _ _ hchange acc.2
        rw [if_neg hname, ← hkept]
        exact ih hrest (List.not_mem_cons_of_ne_of_not_mem (Ne.symm hname) hseen)

end

end

/-! ## Whole records -/

/-- A field takes every value of a kind. -/
structure TypedField.Takes (f : TypedField ρ) (kind : Kind) : Prop where
  name_eq : f.name = kind.name
  isSome_update : ∀ v, kind.holds v = true → (f.update v).isSome = true

theorem TypedField.of_takes (name : String) {reader : Cursor → Except Failure (α × Cursor)}
    {meaning : Value → Option α} (h : Decodes reader meaning) (set : α → ρ → ρ) {kind : Kind}
    (hname : name = kind.name) (hholds : ∀ v, kind.holds v = true → (meaning v).isSome = true) :
    (TypedField.of name h set).Takes kind where
  name_eq := hname
  isSome_update v hv := Option.isSome_map.trans (hholds v hv)

theorem exists_of_forall₂ {β : Type} {R : α → β → Prop} {xs : List α} {ys : List β}
    (h : List.Forall₂ R xs ys) {x : α} (hx : x ∈ xs) : ∃ y ∈ ys, R x y := by
  induction h with
  | nil => cases hx
  | cons hhead _ ih =>
    rcases List.mem_cons.mp hx with rfl | hx
    · exact ⟨_, List.mem_cons_self, hhead⟩
    · obtain ⟨y, hy, hrel⟩ := ih hx
      exact ⟨y, List.mem_cons_of_mem _ hy, hrel⟩

section

variable {fields : List (TypedField ρ)} {kinds : List Kind}
  (hkinds : List.Forall₂ TypedField.Takes fields kinds) {members : Members} {defaults : ρ}
include hkinds

theorem Members.Partial.exists_record (h : members.Partial kinds) :
    ∃ r, (Value.object members).record? fields defaults = some r := by
  obtain ⟨last, htake⟩ : ∃ last,
      takeAll (takeField fields) ([], defaults) members.entries = some last := by
    refine exists_takeAll ?_ ?_ ?_
    · intro entry hentry
      exact h.strings entry.1 (List.mem_map_of_mem hentry)
    · intro f hf
      obtain ⟨kind, hkind, htakes⟩ := exists_of_forall₂ hkinds hf
      rw [htakes.name_eq, List.count_nil]
      exact h.once kind hkind
    · intro entry hentry f hf hname
      obtain ⟨kind, hkind, htakes⟩ := exists_of_forall₂ hkinds hf
      rw [htakes.name_eq] at hname
      exact htakes.isSome_update entry.2 (h.typed entry hentry kind hkind hname)
  exact ⟨last.2, by rw [Value.record?, htake, Option.map_some]⟩

theorem Members.Repeats.record?_eq_none (h : members.Repeats kinds) :
    (Value.object members).record? fields defaults = none := by
  obtain ⟨kind, hkind, htwice⟩ := h
  obtain ⟨f, hf, htakes⟩ := exists_of_forall₂ hkinds.flip hkind
  rw [Value.record?, Option.map_eq_none_iff, Option.eq_none_iff_forall_ne_some]
  intro last htake
  have honce := count_le_one_of_takeAll htake hf List.nodup_nil
  rw [htakes.name_eq] at honce
  exact absurd (Nat.le_of_add_right_le honce) (Nat.not_le_of_lt htwice)

end

theorem record?_eq_none_of_key {fields : List (TypedField ρ)} {members : Members} {defaults : ρ}
    (h : none ∈ members.keys) : (Value.object members).record? fields defaults = none := by
  rw [Value.record?, Option.map_eq_none_iff, Option.eq_none_iff_forall_ne_some]
  intro last htake
  obtain ⟨entry, hentry, hnone⟩ := List.mem_map.mp h
  have hstring := isSome_key_of_takeAll htake entry hentry
  rw [hnone] at hstring
  cases hstring

section

variable {fields : List (TypedField ρ)} {members : Members} {defaults r : ρ}
  (h : (Value.object members).record? fields defaults = some r) {name : String}
  {as : Value → Option τ} {proj : ρ → τ} (hshows : ∀ f ∈ fields, f.Shows name as proj)
  (hknown : name ∈ fields.map (·.name))
include h hshows hknown

theorem proj_record? : proj r = members.valueOr name as (proj defaults) := by
  obtain ⟨last, htake, rfl⟩ := Option.map_eq_some_iff.mp h
  exact proj_takeAll hshows (List.mem_map.mp hknown) htake List.not_mem_nil

theorem isSome_of_record? {v : Value} (hentry : (some name, v) ∈ members.entries) :
    (as v).isSome = true := by
  obtain ⟨last, htake, -⟩ := Option.map_eq_some_iff.mp h
  exact isSome_of_takeAll hshows (List.mem_map.mp hknown) htake hentry

end

/-- A text with nothing but a value. -/
def Value.document (v : Value) (before after : Blanks) : String :=
  String.ofList (before.chars ++ v.text after.chars)

theorem Decodes.readWhole_document {reader : Cursor → Except Failure (α × Cursor)}
    {meaning : Value → Option α} (h : Decodes reader meaning) (v : Value) (before after : Blanks) :
    match meaning v with
    | some x => readWhole reader (v.document before after) = .ok x
    | none => Fails (readWhole reader (v.document before after)) := by
  have hafter : Delimited after.chars := by
    have hblanks := after.delimited_append .nil
    rwa [List.append_nil] at hblanks
  have hread := h v before 0 hafter
  unfold readWhole Value.document Cursor.start
  rw [String.toList_ofList]
  cases hmeaning : meaning v with
  | none =>
    rw [hmeaning] at hread
    exact Fails.bind hread _
  | some x =>
    rw [hmeaning] at hread
    obtain ⟨offset, hread⟩ := hread
    obtain ⟨offset', hskip⟩ : ∃ offset',
        Cursor.skipSpaces ⟨offset, after.chars⟩ = ⟨offset', []⟩ := by
      have hnil : Unspaced [] := by
        rintro c ⟨⟩
      have hblanks := after.skipSpaces_append hnil offset
      rwa [List.append_nil] at hblanks
    simp only [hread, Bind.bind, Except.bind, hskip]

end Json

/-! ## Settings -/

attribute [ext] FlowchartConfig EngineConfig

namespace FlowchartConfig

open Json

/-- The fields of flowchart settings and the values they may have. -/
def kinds : List Kind :=
  [⟨"diagramPadding", fun v => v.uint32?.isSome⟩,
   ⟨"padding", fun v => v.uint32?.isSome⟩,
   ⟨"htmlLabels", fun v => v.bool?.isSome⟩,
   ⟨"useMaxWidth", fun v => v.bool?.isSome⟩,
   ⟨"nodeSpacing", fun v => v.uint32?.isSome⟩,
   ⟨"rankSpacing", fun v => v.uint32?.isSome⟩]

/-- The default settings with the fields of an object in their places. -/
def overridden (given : Members) : FlowchartConfig where
  diagramPadding :=
    given.valueOr "diagramPadding" Value.uint32? ({} : FlowchartConfig).diagramPadding
  padding := given.valueOr "padding" Value.uint32? ({} : FlowchartConfig).padding
  htmlLabels := given.valueOr "htmlLabels" Value.bool? ({} : FlowchartConfig).htmlLabels
  useMaxWidth := given.valueOr "useMaxWidth" Value.bool? ({} : FlowchartConfig).useMaxWidth
  nodeSpacing := given.valueOr "nodeSpacing" Value.uint32? ({} : FlowchartConfig).nodeSpacing
  rankSpacing := given.valueOr "rankSpacing" Value.uint32? ({} : FlowchartConfig).rankSpacing

def typedFields : List (TypedField FlowchartConfig) :=
  [.of "diagramPadding" readUInt32_decodes fun n c => { c with diagramPadding := n },
   .of "padding" readUInt32_decodes fun n c => { c with padding := n },
   .of "htmlLabels" readBool_decodes fun b c => { c with htmlLabels := b },
   .of "useMaxWidth" readBool_decodes fun b c => { c with useMaxWidth := b },
   .of "nodeSpacing" readUInt32_decodes fun n c => { c with nodeSpacing := n },
   .of "rankSpacing" readUInt32_decodes fun n c => { c with rankSpacing := n }]

theorem takes_kinds : List.Forall₂ TypedField.Takes typedFields kinds := by
  refine .cons ?_ (.cons ?_ (.cons ?_ (.cons ?_ (.cons ?_ (.cons ?_ .nil)))))
  all_goals exact TypedField.of_takes _ _ _ rfl fun _ hv => hv

theorem read_decodes : Decodes read (Value.record? typedFields {}) :=
  readRecord_decodes "FlowchartConfig" typedFields {}

theorem record?_eq_overridden {given : Members} (h : given.Partial kinds) :
    (Value.object given).record? typedFields {} = some (overridden given) := by
  obtain ⟨r, hr⟩ : ∃ r, (Value.object given).record? typedFields {} = some r :=
    h.exists_record takes_kinds
  have heq : r = overridden given := by
    apply FlowchartConfig.ext
    all_goals exact proj_record? hr (by simp [typedFields]) (by decide)
  rw [hr, heq]

/-- Whether a value is an object that overrides some flowchart settings. -/
def isPartial : Value → Bool
  | .object given => decide (given.Partial kinds)
  | _ => false

/-- The flowchart settings that an object gives. -/
def ofValue? : Value → Option FlowchartConfig
  | .object given => some (overridden given)
  | _ => none

theorem record?_eq_ofValue? {v : Value} (h : isPartial v = true) :
    v.record? typedFields {} = ofValue? v := by
  cases v with
  | object given => exact record?_eq_overridden (of_decide_eq_true h)
  | _ => cases h

theorem isSome_ofValue? {v : Value} (h : isPartial v = true) : (ofValue? v).isSome = true := by
  cases v with
  | object given => rfl
  | _ => cases h

end FlowchartConfig

/-- The level that a value names. -/
def SecurityLevel.ofValue? : Json.Value → Option SecurityLevel :=
  Json.Value.variant? (all.map fun level => (level.name, level))

theorem SecurityLevel.readVariant_decodes :
    Json.Decodes (Json.readVariant (all.map fun level => (level.name, level))) ofValue? :=
  Json.readVariant_decodes _

namespace ThemeVariables

open Json

/-- The names and the strings of fields that all have strings. -/
def assignments? : List (Option String × Value) → Option (List (String × String))
  | [] => some []
  | entry :: entries => do
    let name ← entry.1
    let value ← entry.2.string?
    let more ← assignments? entries
    return (name, value) :: more

/-- The variables that an object of strings assigns, the later ones over the earlier ones. -/
def ofValue? : Value → Option ThemeVariables
  | .object given => (assignments? given.entries).map ofList
  | _ => none

theorem takeAll_set (vars : ThemeVariables) (entries : List (Option String × Value)) :
    takeAll (fun vars name v => v.string?.map (set vars name)) vars entries =
      (assignments? entries).map fun entries =>
        entries.foldl (fun vars entry => vars.set entry.1 entry.2) vars := by
  induction entries generalizing vars with
  | nil => rfl
  | cons entry entries ih =>
    obtain ⟨key, v⟩ := entry
    cases key with
    | none => rfl
    | some name =>
      cases hvalue : v.string? with
      | none => simp [takeAll, assignments?, hvalue]
      | some value =>
        cases hmore : assignments? entries <;> simp [takeAll, assignments?, hvalue, ih, hmore]

theorem readMap_decodes : Decodes (readMap readText set empty) ofValue? := by
  have hmeaning : Value.map? Value.string? set empty = ofValue? := by
    funext v
    cases v with
    | object given => exact takeAll_set empty given.entries
    | _ => rfl
  exact hmeaning ▸ Json.readMap_decodes readText_decodes set empty

end ThemeVariables

namespace EngineConfig

open Json

/-- The fields of engine settings and the values they may have. -/
def kinds : List Kind :=
  [⟨"startOnLoad", fun v => v.bool?.isSome⟩,
   ⟨"securityLevel", fun v => (SecurityLevel.ofValue? v).isSome⟩,
   ⟨"theme", fun v => v.string?.isSome⟩,
   ⟨"flowchart", FlowchartConfig.isPartial⟩,
   ⟨"themeVariables", fun v => (ThemeVariables.ofValue? v).isSome⟩]

/-- The default settings with the fields of an object in their places. -/
def overridden (given : Members) : EngineConfig where
  startOnLoad := given.valueOr "startOnLoad" Value.bool? ({} : EngineConfig).startOnLoad
  securityLevel :=
    given.valueOr "securityLevel" SecurityLevel.ofValue? ({} : EngineConfig).securityLevel
  theme := given.valueOr "theme" Value.string? ({} : EngineConfig).theme
  flowchart := given.valueOr "flowchart" FlowchartConfig.ofValue? ({} : EngineConfig).flowchart
  themeVariables :=
    given.valueOr "themeVariables" ThemeVariables.ofValue? ({} : EngineConfig).themeVariables

/-- A known field occurs more than once, in the settings or in their flowchart settings. -/
def RepeatsField (given : Members) : Prop :=
  given.Repeats kinds ∨ ∃ inner, (some "flowchart", Value.object inner) ∈ given.entries ∧
    inner.Repeats FlowchartConfig.kinds

def typedFields : List (TypedField EngineConfig) :=
  [.of "startOnLoad" readBool_decodes fun b c => { c with startOnLoad := b },
   .of "securityLevel" SecurityLevel.readVariant_decodes fun level c =>
      { c with securityLevel := level },
   .of "theme" readText_decodes fun s c => { c with theme := s },
   .of "flowchart" FlowchartConfig.read_decodes fun f c => { c with flowchart := f },
   .of "themeVariables" ThemeVariables.readMap_decodes fun vars c =>
      { c with themeVariables := vars }]

theorem read_decodes : Decodes read (Value.record? typedFields {}) :=
  readRecord_decodes "EngineConfig" typedFields {}

theorem takes_kinds : List.Forall₂ TypedField.Takes typedFields kinds := by
  refine .cons ?_ (.cons ?_ (.cons ?_ (.cons ?_ (.cons ?_ .nil))))
  case refine_4 =>
    refine TypedField.of_takes _ _ _ rfl fun v hv => ?_
    rw [FlowchartConfig.record?_eq_ofValue? hv]
    exact FlowchartConfig.isSome_ofValue? hv
  all_goals exact TypedField.of_takes _ _ _ rfl fun _ hv => hv

theorem shows_flowchart : ∀ f ∈ typedFields,
    f.Shows "flowchart" (Value.record? FlowchartConfig.typedFields {}) flowchart := by
  simp [typedFields]

theorem record?_eq_overridden {given : Members} (h : given.Partial kinds) :
    (Value.object given).record? typedFields {} = some (overridden given) := by
  obtain ⟨r, hr⟩ : ∃ r, (Value.object given).record? typedFields {} = some r :=
    h.exists_record takes_kinds
  have heq : r = overridden given := by
    apply EngineConfig.ext
    case flowchart =>
      rw [proj_record? hr shows_flowchart (by decide)]
      refine Members.valueOr_congr (fun v hv => ?_) _
      have hkind : ⟨"flowchart", FlowchartConfig.isPartial⟩ ∈ kinds := by simp [kinds]
      exact FlowchartConfig.record?_eq_ofValue? (h.typed _ hv _ hkind rfl)
    all_goals exact proj_record? hr (by simp [typedFields]) (by decide)
  rw [hr, heq]

theorem RepeatsField.record?_eq_none {given : Members} (h : RepeatsField given) :
    (Value.object given).record? typedFields {} = none := by
  rcases h with hrepeats | ⟨inner, hinner, hrepeats⟩
  · exact hrepeats.record?_eq_none takes_kinds
  · rw [Option.eq_none_iff_forall_ne_some]
    intro r hr
    have hsome : ((Value.object inner).record? FlowchartConfig.typedFields {}).isSome = true :=
      isSome_of_record? hr shows_flowchart (by decide) hinner
    rw [hrepeats.record?_eq_none FlowchartConfig.takes_kinds] at hsome
    cases hsome

/-- An object in which each known field comes at most once and has a value of its kind is read as
the default settings with just the given fields replaced, in whatever order they come and whatever
stands between them. An object that repeats a known field is refused, and so is one with a key that
stands for no string. -/
theorem partial_settings_override (given : Members) (before after : Blanks) :
    (given.Partial kinds →
      parseJson ((Value.object given).document before after) = .ok (overridden given)) ∧
    (RepeatsField given ∨ none ∈ given.keys →
      ∃ failure, parseJson ((Value.object given).document before after) = .error failure) := by
  have hread := read_decodes.readWhole_document (.object given) before after
  constructor
  · intro hpartial
    rw [record?_eq_overridden hpartial] at hread
    exact hread
  · rintro (hrepeats | hkey)
    · rw [hrepeats.record?_eq_none] at hread
      exact hread
    · rw [record?_eq_none_of_key hkey] at hread
      exact hread

/-- The pieces of a text without escapes. -/
def plainPieces (text : String) : List Piece :=
  text.toList.filterMap fun c =>
    if h : c ≠ '\x22' ∧ c ≠ '\\' ∧ ¬c.toNat < 0x20 then some (.plain c h) else none

/-- A field with nothing between its parts. -/
def plainField (name : String) (v : Value) (more : Members) : Members :=
  .member ⟨.empty, .empty⟩ (plainPieces name) ⟨.empty, .empty⟩ v more

def newline : Blanks :=
  ⟨['\n'], List.forall_mem_singleton.mpr rfl⟩

def seven : Value :=
  .number ⟨false, ⟨['7'], List.cons_ne_nil _ _, List.forall_mem_singleton.mpr rfl⟩, none, none,
    .inr (by decide)⟩

/-- One field at the outer level and two at the inner one, the name of which has an escape, among
fields that no settings have. -/
def mixedSettings : Members :=
  .member ⟨newline, .empty⟩ (plainPieces "x") ⟨newline, newline⟩
    (.array (.item ⟨.empty, .empty⟩
      (.object (plainField "y" (.string [.code 'd' '8' '3' 'd' 0xd83d rfl]) (.close .empty)))
      (.close newline))) <|
  .member ⟨.empty, .empty⟩ (.code '0' '0' '6' '6' 0x66 rfl :: plainPieces "lowchart")
    ⟨.empty, .empty⟩
    (.object <|
      plainField "rankSpacing" seven <|
      plainField "padded" .null <|
      plainField "htmlLabels" (.bool false) <| .close .empty) <|
  plainField "theme" (.string (plainPieces "dark")) <| .close .empty

/-- A field that comes twice at the inner level. -/
def repeatedPadding : Members :=
  plainField "flowchart"
    (.object <| plainField "padding" seven <| plainField "padding" seven <| .close .empty)
    (.close .empty)

theorem partial_settings_override_mixed :
    parseJson ("\x7b\n\"x\"\n:\n[\x7b\"y\":\"\\ud83d\"\x7d\n],\"\\u0066lowchart\":" ++
        "\x7b\"rankSpacing\":7,\"padded\":null,\"htmlLabels\":false\x7d,\"theme\":\"dark\"\x7d\n") =
      .ok { theme := "dark", flowchart := { rankSpacing := 7, htmlLabels := false } } ∧
    ∃ failure, parseJson "\x7b\"flowchart\":\x7b\"padding\":7,\"padding\":7\x7d\x7d" =
      .error failure := by
  constructor
  · refine Eq.trans ?_ (((partial_settings_override mixedSettings .empty newline).1 ?_).trans ?_)
    · exact congrArg parseJson (by decide +kernel)
    · decide +kernel
    · decide +kernel
  · obtain ⟨failure, hfails⟩ := (partial_settings_override repeatedPadding .empty .empty).2 <|
      .inl <| .inr ⟨_, List.mem_cons_self, ⟨"padding", fun v => v.uint32?.isSome⟩,
        by simp [FlowchartConfig.kinds], by decide +kernel⟩
    exact ⟨failure, Eq.trans (congrArg parseJson (by decide +kernel)) hfails⟩

end EngineConfig

end DiagramView
