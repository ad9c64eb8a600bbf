import Mathlib.Data.List.Nodup
import DiagramView.CommandLine

/-!
# The grammar of the command line

Arguments come in groups: the payload by itself, or a flag and the value behind it. Every group
fills one slot of the options. `arguments_read_by_groups` says that the arguments which are accepted
are exactly the lists of groups that fit, with one payload and no slot filled twice, and that the
options are what these groups say. The grouping can be told from the arguments
(`tokensOf_injective`), and its order does not matter (`optionsOf_perm`).

What one group does to the options is `take_optionsOf`; all groups are taken in by
`foldlM_take_optionsOf`.
-/

namespace DiagramView.CommandLine

/-! ## Groups -/

/-- What arguments can be about. -/
inductive Slot where
  | payload
  | tab
  | runResult
  | config
  | program
  deriving DecidableEq, Repr

/-- The flag that announces a value for a slot. The payload has none. -/
def Slot.flag? : Slot → Option String
  | .payload => none
  | .tab => some "--tab"
  | .runResult => some "--run-result"
  | .config => some "--config"
  | .program => some "--mmdc"

/-- A value for a slot. -/
structure Group where
  slot : Slot
  value : String
  deriving DecidableEq, Repr

namespace Group

/-- The arguments that make up a group. -/
def tokens (g : Group) : List String :=
  g.slot.flag?.toList ++ [g.value]

/-- Whether the slot can have the value. A payload is a hyphen or does not begin with one, and a tab
has to be named; behind the other flags anything may stand. -/
def Fits (g : Group) : Prop :=
  match g.slot with
  | .payload => g.value = "-" ∨ g.value.toList.head? ≠ some '-'
  | .tab => (Tab.ofName? g.value).isSome
  | .runResult => True
  | .config => True
  | .program => True

end Group

/-- The arguments that some groups make up. -/
def tokensOf (groups : List Group) : List String :=
  groups.flatMap Group.tokens

/-- The slots that some groups fill. -/
def slotsOf (groups : List Group) : List Slot :=
  groups.map Group.slot

/-- The value that some groups have for a slot. -/
def valueOf? (groups : List Group) (slot : Slot) : Option String :=
  (groups.find? fun g => g.slot = slot).map Group.value

/-- The options that some groups stand for. -/
def optionsOf (groups : List Group) : Options where
  payload := valueOf? groups .payload
  tab := (valueOf? groups .tab).bind Tab.ofName?
  runResult := valueOf? groups .runResult
  config := valueOf? groups .config
  program := valueOf? groups .program

/-- The lists of groups that make up a command line. -/
structure Grammatical (groups : List Group) : Prop where
  fits : ∀ g ∈ groups, g.Fits
  /-- There is exactly one payload. -/
  payload : (slotsOf groups).count .payload = 1
  /-- No flag comes twice. -/
  once : ∀ slot, (slotsOf groups).count slot ≤ 1

theorem grammatical_iff {groups : List Group} : Grammatical groups ↔
    (∀ g ∈ groups, g.Fits) ∧ (slotsOf groups).Nodup ∧ .payload ∈ slotsOf groups := by
  constructor
  · intro h
    exact ⟨h.fits, List.nodup_iff_count_le_one.mpr h.once,
      List.count_pos_iff.mp (Nat.lt_of_lt_of_eq Nat.zero_lt_one h.payload.symm)⟩
  · rintro ⟨hfits, hnodup, hpayload⟩
    exact ⟨hfits, List.count_eq_one_of_mem hnodup hpayload,
      List.nodup_iff_count_le_one.mp hnodup⟩

/-! ## Telling groups apart -/

theorem Slot.flag?_injective {slot slot' : Slot} (h : slot.flag? = slot'.flag?) : slot = slot' := by
  cases slot <;> cases slot' <;> simp_all [Slot.flag?]

/-- A flag is no payload. -/
theorem flag?_ne_of_fits {value : String} (h : Group.Fits ⟨.payload, value⟩) (slot : Slot) :
    slot.flag? ≠ some value := by
  intro hflag
  have hvalue : value = "--tab" ∨ value = "--run-result" ∨ value = "--config" ∨
      value = "--mmdc" := by
    cases slot <;> simp_all [Slot.flag?]
  have hdash : value ≠ "-" ∧ value.toList.head? = some '-' := by
    rcases hvalue with rfl | rfl | rfl | rfl <;> decide
  exact h.elim hdash.1 fun hhead => hhead hdash.2

/-- The first group can be told from the arguments. -/
theorem tokens_append_inj {g g' : Group} (hg : g.Fits) (hg' : g'.Fits) {rest rest' : List String}
    (h : g.tokens ++ rest = g'.tokens ++ rest') : g = g' ∧ rest = rest' := by
  obtain ⟨slot, value⟩ := g
  obtain ⟨slot', value'⟩ := g'
  cases hflag : slot.flag? with
  | none =>
    obtain rfl : slot = .payload := Slot.flag?_injective hflag
    cases hflag' : slot'.flag? with
    | none =>
      obtain rfl : slot' = .payload := Slot.flag?_injective hflag'
      simpa [Group.tokens, Slot.flag?] using h
    | some name' =>
      have hname : value = name' := by simp_all [Group.tokens]
      exact absurd (hname ▸ hflag') (flag?_ne_of_fits hg slot')
  | some name =>
    cases hflag' : slot'.flag? with
    | none =>
      obtain rfl : slot' = .payload := Slot.flag?_injective hflag'
      have hname : name = value' := by simp_all [Group.tokens]
      exact absurd (hname ▸ hflag) (flag?_ne_of_fits hg' slot)
    | some name' =>
      simp only [Group.tokens, hflag, hflag', Option.toList_some, List.cons_append,
        List.nil_append, List.cons.injEq] at h
      obtain ⟨hname, hvalue, hrest⟩ := h
      obtain rfl : slot = slot' := Slot.flag?_injective (by rw [hflag, hflag', hname])
      exact ⟨by rw [hvalue], hrest⟩

theorem tokens_ne_nil (g : Group) : g.tokens ≠ [] := by
  simp [Group.tokens]

theorem tokensOf_cons (g : Group) (groups : List Group) :
    tokensOf (g :: groups) = g.tokens ++ tokensOf groups :=
  List.flatMap_cons

/-- Groups that fit can be told from the arguments they make up. -/
theorem tokensOf_injective {groups groups' : List Group} (hfits : ∀ g ∈ groups, g.Fits)
    (hfits' : ∀ g ∈ groups', g.Fits) (h : tokensOf groups = tokensOf groups') :
    groups = groups' := by
  induction groups generalizing groups' with
  | nil =>
    cases groups' with
    | nil => rfl
    | cons g' groups' => simp [tokensOf, tokens_ne_nil] at h
  | cons g groups ih =>
    cases groups' with
    | nil => simp [tokensOf, tokens_ne_nil] at h
    | cons g' groups' =>
      rw [tokensOf_cons, tokensOf_cons] at h
      obtain ⟨rfl, hrest⟩ := tokens_append_inj (hfits g List.mem_cons_self)
        (hfits' g' List.mem_cons_self) h
      rw [ih (fun g hg => hfits g (List.mem_cons_of_mem _ hg))
        (fun g hg => hfits' g (List.mem_cons_of_mem _ hg)) hrest]

/-! ## The options of groups -/

theorem valueOf?_eq_some_iff {groups : List Group} (h : (slotsOf groups).Nodup) {slot : Slot}
    {value : String} : valueOf? groups slot = some value ↔ ⟨slot, value⟩ ∈ groups := by
  induction groups with
  | nil => simp [valueOf?]
  | cons g groups ih =>
    obtain ⟨slot', value'⟩ := g
    obtain ⟨hnew, hnodup⟩ := List.nodup_cons.mp h
    by_cases hslot : slot' = slot
    · subst hslot
      have hnot : ⟨slot', value⟩ ∉ groups := fun hmem =>
        hnew (List.mem_map.mpr ⟨_, hmem, rfl⟩)
      simp [valueOf?, hnot, eq_comm]
    · have hskip : valueOf? (⟨slot', value'⟩ :: groups) slot = valueOf? groups slot := by
        simp [valueOf?, hslot]
      rw [hskip, ih hnodup]
      simp [Ne.symm hslot]

theorem valueOf?_eq_none_iff {groups : List Group} {slot : Slot} :
    valueOf? groups slot = none ↔ slot ∉ slotsOf groups := by
  simp [valueOf?, slotsOf]

theorem valueOf?_concat (groups : List Group) (g : Group) (slot : Slot) :
    valueOf? (groups ++ [g]) slot =
      (valueOf? groups slot).or (if g.slot = slot then some g.value else none) := by
  by_cases hslot : g.slot = slot <;> simp [valueOf?, List.find?_append, hslot]

/-- The order of the groups does not matter to the options. -/
theorem optionsOf_perm {groups groups' : List Group} (h : groups.Perm groups')
    (hnodup : (slotsOf groups).Nodup) : optionsOf groups' = optionsOf groups := by
  have hnodup' : (slotsOf groups').Nodup := (h.map Group.slot).nodup_iff.mp hnodup
  have hvalue (slot : Slot) : valueOf? groups' slot = valueOf? groups slot := by
    ext value
    rw [valueOf?_eq_some_iff hnodup', valueOf?_eq_some_iff hnodup, h.mem_iff]
  simp only [optionsOf, hvalue]

theorem Grammatical.perm {groups groups' : List Group} (h : Grammatical groups)
    (hperm : groups.Perm groups') : Grammatical groups' where
  fits g hg := h.fits g (hperm.mem_iff.mpr hg)
  payload := (hperm.map Group.slot).count_eq .payload ▸ h.payload
  once slot := (hperm.map Group.slot).count_eq slot ▸ h.once slot

/-! ## Taking groups in -/

/-- Takes the arguments of one group. -/
def take (options : Options) (g : Group) : Option Options :=
  match g.slot.flag? with
  | none => takePayload options g.value
  | some flag => (takeFlag? options flag g.value).join

theorem takeFlag?_flag {slot : Slot} {flag : String} (h : slot.flag? = some flag)
    (options : Options) (value : String) :
    takeFlag? options flag value = some (take options ⟨slot, value⟩) := by
  cases slot with
  | payload => exact absurd h (by simp [Slot.flag?])
  | tab | runResult | config | program =>
    obtain rfl := Option.some.inj h
    simp [take, takeFlag?, Slot.flag?]

theorem exists_flag?_of_takeFlag? {options : Options} {arg value : String} {taken : Option Options}
    (h : takeFlag? options arg value = some taken) : ∃ slot : Slot, slot.flag? = some arg := by
  unfold takeFlag? at h
  split at h
  · exact ⟨.tab, rfl⟩
  · exact ⟨.runResult, rfl⟩
  · exact ⟨.config, rfl⟩
  · exact ⟨.program, rfl⟩
  · exact absurd h (by simp)

theorem takeFlag?_eq_none {arg : String} (h : ∀ slot : Slot, slot.flag? ≠ some arg)
    (options : Options) (value : String) : takeFlag? options arg value = none := by
  cases htake : takeFlag? options arg value with
  | none => rfl
  | some taken =>
    obtain ⟨slot, hslot⟩ := exists_flag?_of_takeFlag? htake
    exact absurd hslot (h slot)

/-- Arguments are taken group by group. -/
theorem takeAll_tokens_append {g : Group} (hg : g.Fits) (options : Options) (rest : List String) :
    takeAll options (g.tokens ++ rest) = (take options g).bind fun next => takeAll next rest := by
  obtain ⟨slot, value⟩ := g
  cases hflag : slot.flag? with
  | none =>
    obtain rfl : slot = .payload := Slot.flag?_injective hflag
    cases rest with
    | nil => simp [Group.tokens, take, hflag, takeAll]
    | cons next rest =>
      have hnone := takeFlag?_eq_none (flag?_ne_of_fits hg) options next
      simp [Group.tokens, take, hflag, takeAll, hnone]
  | some flag => simp [Group.tokens, hflag, takeAll, takeFlag?_flag hflag]

theorem takeAll_tokensOf {groups : List Group} (hfits : ∀ g ∈ groups, g.Fits) (options : Options) :
    takeAll options (tokensOf groups) = groups.foldlM take options := by
  induction groups generalizing options with
  | nil => rfl
  | cons g groups ih =>
    rw [tokensOf_cons, takeAll_tokens_append (hfits g List.mem_cons_self), List.foldlM_cons]
    exact congrArg _ (funext fun next => ih (fun g hg => hfits g (List.mem_cons_of_mem _ hg)) next)

/-! ## What one group does -/

theorem startsWith_hyphen (arg : String) :
    Text.startsWith arg "-" = true ↔ arg.toList.head? = some '-' := by
  cases hchars : arg.toList with
  | nil => simp [Text.startsWith, hchars]
  | cons c cs =>
    simp only [Text.startsWith, hchars, List.head?_cons, Option.some.injEq]
    simpa using eq_comm

theorem fits_payload_iff {arg : String} :
    Group.Fits ⟨.payload, arg⟩ ↔ ¬(arg ≠ "-" ∧ Text.startsWith arg "-" = true) := by
  rw [startsWith_hyphen]
  by_cases hdash : arg = "-" <;> simp [Group.Fits, hdash]

theorem map_fill_eq_some_iff {α β : Type} {current : Option α} {value : α} {f : Option α → β}
    {filled : β} :
    (fill current value).map f = some filled ↔ current = none ∧ f (some value) = filled := by
  cases current <;> simp [fill]

theorem takePayload_eq_some_iff {options next : Options} {arg : String} :
    takePayload options arg = some next ↔ Group.Fits ⟨.payload, arg⟩ ∧ options.payload = none ∧
      { options with payload := some arg } = next := by
  by_cases h : arg ≠ "-" ∧ Text.startsWith arg "-" = true
  · simp [takePayload, fits_payload_iff, h]
  · rw [takePayload, if_neg h, map_fill_eq_some_iff]
    simp only [fits_payload_iff, h, not_false_eq_true, true_and]

theorem optionsOf_tab_eq_none_iff {groups : List Group} (hfits : ∀ g ∈ groups, g.Fits) :
    (optionsOf groups).tab = none ↔ .tab ∉ slotsOf groups := by
  rw [← valueOf?_eq_none_iff]
  cases hvalue : valueOf? groups .tab with
  | none => simp [optionsOf, hvalue]
  | some value =>
    obtain ⟨g, hfind, rfl⟩ := Option.map_eq_some_iff.mp hvalue
    have hslot : g.slot = .tab := by simpa using List.find?_some hfind
    have hg : g.Fits := hfits g (List.mem_of_find?_eq_some hfind)
    simp only [Group.Fits, hslot] at hg
    simp [optionsOf, hvalue, Option.isSome_iff_ne_none.mp hg]

/-- A group is taken in when it fits and its slot is free. -/
theorem take_optionsOf {groups : List Group} (hfits : ∀ g ∈ groups, g.Fits) {g : Group}
    {options : Options} : take (optionsOf groups) g = some options ↔
      g.Fits ∧ g.slot ∉ slotsOf groups ∧ optionsOf (groups ++ [g]) = options := by
  obtain ⟨slot, value⟩ := g
  cases slot with
  | payload =>
    simp only [take, Slot.flag?, takePayload_eq_some_iff, ← valueOf?_eq_none_iff]
    refine and_congr_right fun _ => and_congr_right fun hfree => ?_
    simp only [optionsOf] at hfree
    simp [optionsOf, valueOf?_concat, hfree]
  | tab =>
    simp only [take, Slot.flag?, takeFlag?, Option.join_some, Option.bind_eq_some_iff,
      map_fill_eq_some_iff, optionsOf_tab_eq_none_iff hfits, Group.Fits]
    cases htab : Tab.ofName? value with
    | none => simp
    | some tab =>
      simp only [Option.some.injEq, exists_eq_left', Option.isSome_some, true_and]
      refine and_congr_right fun hfree => ?_
      simp [optionsOf, valueOf?_concat, valueOf?_eq_none_iff.mpr hfree, htab]
  | runResult | config | program =>
    simp only [take, Slot.flag?, takeFlag?, Option.join_some, map_fill_eq_some_iff,
      ← valueOf?_eq_none_iff, Group.Fits, true_and]
    refine and_congr_right fun hfree => ?_
    simp only [optionsOf] at hfree
    simp [optionsOf, valueOf?_concat, hfree]

theorem nodup_slotsOf_concat {groups : List Group} {g : Group} :
    (slotsOf (groups ++ [g])).Nodup ↔ (slotsOf groups).Nodup ∧ g.slot ∉ slotsOf groups := by
  rw [slotsOf, List.map_append, List.nodup_append_comm]
  exact List.nodup_cons.trans And.comm

/-- Groups are taken in when they fit and no slot is filled twice. -/
theorem foldlM_take_optionsOf {before groups : List Group} (hfits : ∀ g ∈ before, g.Fits)
    (hnodup : (slotsOf before).Nodup) {options : Options} :
    groups.foldlM take (optionsOf before) = some options ↔ (∀ g ∈ groups, g.Fits) ∧
      (slotsOf (before ++ groups)).Nodup ∧ optionsOf (before ++ groups) = options := by
  -- the groups that were taken in already go into the options the rest starts from
  induction groups generalizing before with
  | nil => simp [hnodup]
  | cons g groups ih =>
    have hsplit : before ++ g :: groups = before ++ [g] ++ groups := by simp
    have hfits' (hg : g.Fits) : ∀ g' ∈ before ++ [g], g'.Fits := by
      simpa [or_imp, forall_and, hg] using hfits
    rw [List.foldlM_cons, Option.bind_eq_bind, Option.bind_eq_some_iff, hsplit]
    constructor
    · rintro ⟨next, htake, hrest⟩
      obtain ⟨hg, hfree, rfl⟩ := (take_optionsOf hfits).mp htake
      obtain ⟨hgroups, hrest⟩ :=
        (ih (hfits' hg) (nodup_slotsOf_concat.mpr ⟨hnodup, hfree⟩)).mp hrest
      exact ⟨by simpa [hg] using hgroups, hrest⟩
    · rintro ⟨hgroups, hslots, hoptions⟩
      have hg : g.Fits := hgroups g List.mem_cons_self
      have hnodup' : (slotsOf (before ++ [g])).Nodup := by
        rw [slotsOf, List.map_append] at hslots
        exact hslots.of_append_left
      exact ⟨_, (take_optionsOf hfits).mpr ⟨hg, (nodup_slotsOf_concat.mp hnodup').2, rfl⟩,
        (ih (hfits' hg) hnodup').mpr
          ⟨fun g' hg' => hgroups g' (List.mem_cons_of_mem _ hg'), hslots, hoptions⟩⟩

/-! ## Accepted arguments -/

theorem fits_of_take {options next : Options} {g : Group} (h : take options g = some next) :
    g.Fits := by
  obtain ⟨slot, value⟩ := g
  cases slot with
  | payload => exact (takePayload_eq_some_iff.mp h).1
  | tab =>
    simp only [take, Slot.flag?, takeFlag?, Option.join_some, Option.bind_eq_some_iff] at h
    obtain ⟨tab, htab, -⟩ := h
    exact Option.isSome_of_eq_some htab
  | runResult | config | program => exact trivial

/-- Accepted arguments begin with a group. -/
theorem exists_tokens_of_takeAll {options last : Options} {arg : String} {args : List String}
    (h : takeAll options (arg :: args) = some last) :
    ∃ (g : Group) (rest : List String), g.Fits ∧ arg :: args = g.tokens ++ rest := by
  cases args with
  | nil => exact ⟨⟨.payload, arg⟩, [], (takePayload_eq_some_iff.mp h).1, rfl⟩
  | cons value rest =>
    cases htake : takeFlag? options arg value with
    | none =>
      simp only [takeAll, htake, Option.bind_eq_some_iff] at h
      obtain ⟨next, hpayload, -⟩ := h
      exact ⟨⟨.payload, arg⟩, value :: rest, (takePayload_eq_some_iff.mp hpayload).1, rfl⟩
    | some taken =>
      obtain ⟨slot, hslot⟩ := exists_flag?_of_takeFlag? htake
      simp only [takeAll, takeFlag?_flag hslot, Option.bind_eq_some_iff] at h
      obtain ⟨next, htake, -⟩ := h
      exact ⟨⟨slot, value⟩, rest, fits_of_take htake, by simp [Group.tokens, hslot]⟩

/-- Accepted arguments are made up of groups. -/
theorem exists_tokensOf_of_takeAll {options last : Options} {args : List String}
    (h : takeAll options args = some last) :
    ∃ groups : List Group, (∀ g ∈ groups, g.Fits) ∧ tokensOf groups = args := by
  -- a group is one or two arguments long, so the induction is on the number of arguments
  induction hlength : args.length using Nat.strongRecOn generalizing options args with
  | ind length ih =>
    cases args with
    | nil => exact ⟨[], by simp, rfl⟩
    | cons arg args =>
      obtain ⟨g, rest, hg, hargs⟩ := exists_tokens_of_takeAll h
      rw [hargs, takeAll_tokens_append hg, Option.bind_eq_some_iff] at h
      obtain ⟨next, -, hrest⟩ := h
      have hshorter : rest.length < length := by
        have hpos : 0 < g.tokens.length := List.length_pos_iff.mpr (tokens_ne_nil g)
        rw [← hlength, hargs, List.length_append]
        omega
      obtain ⟨groups, hgroups, rfl⟩ := ih rest.length hshorter hrest rfl
      exact ⟨g :: groups, by simpa [hg] using hgroups, by rw [tokensOf_cons, hargs]⟩

/-- From the beginning, groups that fit are taken in when no slot is filled twice. -/
theorem takeAll_tokensOf_eq_some_iff {groups : List Group} (hfits : ∀ g ∈ groups, g.Fits)
    {options : Options} : takeAll {} (tokensOf groups) = some options ↔
      (slotsOf groups).Nodup ∧ optionsOf groups = options := by
  have hnone : ∀ g ∈ ([] : List Group), g.Fits := by simp
  have hrun : groups.foldlM take (optionsOf []) = some options ↔ _ :=
    foldlM_take_optionsOf hnone List.nodup_nil
  rw [takeAll_tokensOf hfits]
  exact hrun.trans (and_iff_right hfits)

theorem payload_optionsOf_isSome {groups : List Group} :
    (optionsOf groups).payload.isSome ↔ .payload ∈ slotsOf groups := by
  rw [Option.isSome_iff_ne_none, ← not_iff_not, not_not]
  exact valueOf?_eq_none_iff

theorem parse_eq_some_iff {args : List String} {options : Options} :
    parse args = some options ↔
      ∃ groups, Grammatical groups ∧ tokensOf groups = args ∧ optionsOf groups = options := by
  rw [parse, Option.filter_eq_some_iff]
  constructor
  · rintro ⟨htake, hpayload⟩
    obtain ⟨groups, hfits, rfl⟩ := exists_tokensOf_of_takeAll htake
    obtain ⟨hnodup, rfl⟩ := (takeAll_tokensOf_eq_some_iff hfits).mp htake
    have hmem := payload_optionsOf_isSome.mp hpayload
    exact ⟨groups, grammatical_iff.mpr ⟨hfits, hnodup, hmem⟩, rfl, rfl⟩
  · rintro ⟨groups, hgrammatical, rfl, rfl⟩
    obtain ⟨hfits, hnodup, hmem⟩ := grammatical_iff.mp hgrammatical
    exact ⟨(takeAll_tokensOf_eq_some_iff hfits).mpr ⟨hnodup, rfl⟩,
      payload_optionsOf_isSome.mpr hmem⟩

/-- Arguments are accepted exactly when they are made up of groups that fit, with one payload and no
flag twice, and the options are what the groups say. There is one such grouping at most, and in
another order the same groups are accepted with the same options. -/
theorem arguments_read_by_groups (args : List String) :
    (∀ options, parse args = some options ↔
      ∃ groups, Grammatical groups ∧ tokensOf groups = args ∧ optionsOf groups = options) ∧
    ∀ groups, Grammatical groups → tokensOf groups = args →
      (∀ groups', Grammatical groups' → tokensOf groups' = args → groups' = groups) ∧
      ∀ groups', groups.Perm groups' → parse (tokensOf groups') = some (optionsOf groups) := by
  refine ⟨fun options => parse_eq_some_iff, fun groups hgroups htokens => ⟨?_, ?_⟩⟩
  · intro groups' hgroups' htokens'
    exact tokensOf_injective hgroups'.fits hgroups.fits (htokens'.trans htokens.symm)
  · intro groups' hperm
    have hnodup : (slotsOf groups).Nodup := (grammatical_iff.mp hgroups).2.1
    exact parse_eq_some_iff.mpr ⟨groups', hgroups.perm hperm, rfl, optionsOf_perm hperm hnodup⟩

/-- Groups whose values look like flags and like a payload. -/
def mixedGroups : List Group :=
  [⟨.config, "--tab"⟩, ⟨.program, "-"⟩, ⟨.tab, " Diagram"⟩, ⟨.payload, "-"⟩]

theorem grammatical_mixedGroups : Grammatical mixedGroups where
  fits := by
    have htab : (Tab.ofName? " Diagram").isSome = true := by decide
    simp [mixedGroups, Group.Fits, htab]
  payload := by decide
  once slot := by cases slot <;> decide

theorem arguments_read_by_groups_mixed :
    Grammatical mixedGroups ∧
      tokensOf mixedGroups = ["--config", "--tab", "--mmdc", "-", "--tab", " Diagram", "-"] ∧
      parse ["-", "--tab", " Diagram", "--mmdc", "-", "--config", "--tab"] =
        some ⟨some "-", some .flow, none, some "--tab", some "-"⟩ :=
  ⟨grammatical_mixedGroups, rfl,
    ((arguments_read_by_groups (tokensOf mixedGroups)).2 mixedGroups grammatical_mixedGroups
      rfl).2 mixedGroups.reverse (List.reverse_perm mixedGroups).symm⟩

end DiagramView.CommandLine
