import DiagramView.Engine.Config
import DiagramView.Proofs.Written
import DiagramView.RunResult

/-!
# Stored forms are read back

An object is read field by field, and what has been read so far is handed on from one field to the
next (`Json.Takes`). A record whose fields are written in the order of their declaration is filled
by its readers one after the other (`Json.Fills`), whatever its defaults, because no field is
missing. A map is read by putting in one entry after the other, which gives the variables of a theme
back since they are kept in the order of their names (`ThemeVariables.ofList_entries`).

`stored_forms_read_back`: engine settings and results of runs are what their stored forms are read
as, for all strings and all numbers in them.
-/

namespace DiagramView

namespace Json

variable {α β ρ σ : Type}

/-! ## Fields of an object -/

/-- The fields of an object behind the first one. -/
def writeMore (fields : List (String × Json)) : List Char :=
  fields.flatMap fun field => ',' :: writeString field.1 ++ ':' :: field.2.write

theorem writeFields_cons (name : String) (v : Json) (fields : List (String × Json)) :
    writeFields ((name, v) :: fields) =
      writeString name ++ ':' :: v.write ++ writeMore fields := by
  induction fields generalizing name v with
  | nil => simp [writeFields, writeMore]
  | cons field fields ih =>
    rw [writeFields, ih field.1 field.2]
    · simp [writeMore]
    · intro hnil
      cases hnil

theorem delimited_writeMore (fields : List (String × Json)) (rest : List Char) :
    Delimited (writeMore fields ++ '\x7d' :: rest) := by
  cases fields with
  | nil => exact .brace rest
  | cons field fields => exact .comma _

/-- Reading the given fields one after the other leads from one result to another. -/
inductive Takes (member : σ → String → Cursor → Except Failure (σ × Cursor)) :
    σ → List (String × Json) → σ → Prop where
  | nil (acc : σ) : Takes member acc [] acc
  | cons {acc next last : σ} {name : String} {v : Json} {fields : List (String × Json)} :
      (∀ rest, Delimited rest → Reads (member acc name) (':' :: v.write) next rest) →
      Takes member next fields last → Takes member acc ((name, v) :: fields) last

namespace Takes

variable {member : σ → String → Cursor → Except Failure (σ × Cursor)} {acc last : σ}
  {fields : List (String × Json)}

/-- One field is read from behind the opening quotation mark of its name. -/
theorem readMembers_succ {first : Bool} {cur : Cursor} {offset : Nat} {name : String} {v : Json}
    {next : σ} {rest : List Char} (hmember : Reads (member acc name) (':' :: v.write) next rest)
    (hnext : nextKey first cur =
      .ok (some ⟨offset, name.toList.flatMap writeChar ++ ['\x22'] ++ (':' :: v.write ++ rest)⟩))
    (bound : Nat) :
    ∃ behind, readMembers member (bound + 1) first acc cur =
      readMembers member bound false next ⟨behind, rest⟩ := by
  obtain ⟨named, hname⟩ := reads_string name (':' :: v.write ++ rest) offset
  obtain ⟨behind, hvalue⟩ := hmember named
  refine ⟨behind, ?_⟩
  simp only [readMembers, hnext, bind, Except.bind, hname, hvalue]

theorem readMembers_more (h : Takes member acc fields last) (bound offset : Nat)
    (rest : List Char) (hbound : fields.length < bound) :
    ∃ offset', readMembers member bound false acc ⟨offset, writeMore fields ++ '\x7d' :: rest⟩ =
      .ok (last, ⟨offset', rest⟩) := by
  induction h generalizing bound offset with
  | nil acc =>
    obtain ⟨bound, rfl⟩ : ∃ n, bound = n + 1 := ⟨bound - 1, by simp at hbound; omega⟩
    exact ⟨offset + 1, rfl⟩
  | @cons acc next last name v fields hmember htakes ih =>
    obtain ⟨bound, rfl⟩ : ∃ n, bound = n + 1 := ⟨bound - 1, by simp at hbound; omega⟩
    have hnext : nextKey false ⟨offset, writeMore ((name, v) :: fields) ++ '\x7d' :: rest⟩ =
        .ok (some ⟨offset + 2, name.toList.flatMap writeChar ++ ['\x22'] ++
          (':' :: v.write ++ (writeMore fields ++ '\x7d' :: rest))⟩) := by
      simp only [writeMore, writeString, List.flatMap_cons, List.cons_append, List.append_assoc]
      rfl
    obtain ⟨behind, hstep⟩ :=
      readMembers_succ (hmember _ (delimited_writeMore fields rest)) hnext bound
    rw [hstep]
    exact ih bound behind (by simpa using hbound)

/-- An object is read through its fields to the closing brace. -/
theorem readMembers_written (h : Takes member acc fields last) (bound offset : Nat)
    (rest : List Char) (hbound : fields.length < bound) :
    ∃ offset', readMembers member bound true acc ⟨offset, writeFields fields ++ '\x7d' :: rest⟩ =
      .ok (last, ⟨offset', rest⟩) := by
  obtain ⟨bound, rfl⟩ : ∃ n, bound = n + 1 := ⟨bound - 1, by omega⟩
  cases h with
  | nil => exact ⟨offset + 1, rfl⟩
  | @cons acc next last name v fields hmember htakes =>
    have hnext : nextKey true ⟨offset, writeFields ((name, v) :: fields) ++ '\x7d' :: rest⟩ =
        .ok (some ⟨offset + 1, name.toList.flatMap writeChar ++ ['\x22'] ++
          (':' :: v.write ++ (writeMore fields ++ '\x7d' :: rest))⟩) := by
      simp only [writeFields_cons, writeString, List.cons_append, List.append_assoc]
      rfl
    obtain ⟨behind, hstep⟩ :=
      readMembers_succ (hmember _ (delimited_writeMore fields rest)) hnext bound
    rw [hstep]
    exact htakes.readMembers_more bound behind rest (by simpa using hbound)

end Takes

theorem length_le_writeFields (fields : List (String × Json)) :
    fields.length ≤ (writeFields fields).length := by
  cases fields with
  | nil => exact Nat.le_refl 0
  | cons field fields =>
    have hmore : fields.length ≤ (writeMore fields).length := by
      induction fields with
      | nil => exact Nat.le_refl 0
      | cons field fields ih =>
        simp only [writeMore, List.flatMap_cons, List.length_append, List.length_cons] at ih ⊢
        omega
    rw [writeFields_cons]
    simp only [List.length_append, List.length_cons]
    omega

theorem object_write_append (fields : List (String × Json)) (rest : List Char) :
    (Json.object fields).write ++ rest = '\x7b' :: (writeFields fields ++ '\x7d' :: rest) := by
  simp [write]

theorem reads_colon (w rest : List Char) (offset : Nat) :
    readColon ⟨offset, ':' :: w ++ rest⟩ = .ok ⟨offset + 1, w ++ rest⟩ :=
  rfl

/-! ## Records and maps -/

/-- The readers of a record's fields, one after the other, lead from one record to another when
they are given the values that are written under the fields' names. -/
inductive Fills : List (Field ρ) → ρ → List (String × Json) → ρ → Prop where
  | nil (r : ρ) : Fills [] r [] r
  | cons {field : Field ρ} {fields : List (Field ρ)} {r next last : ρ} {v : Json}
      {entries : List (String × Json)} :
      (∀ rest, Delimited rest → Reads (field.read r) v.write next rest) →
      Fills fields next entries last → Fills (field :: fields) r ((field.name, v) :: entries) last

theorem find?_field {before fields : List (Field ρ)} {field : Field ρ}
    (hnodup : ((before ++ field :: fields).map (·.name)).Nodup) :
    (before ++ field :: fields).find? (fun f => f.name == field.name) = some field := by
  have hbefore : before.find? (fun f => f.name == field.name) = none := by
    rw [List.find?_eq_none]
    intro f hf heq
    rw [List.map_append, List.nodup_append] at hnodup
    refine hnodup.2.2 f.name (List.mem_map_of_mem hf) field.name ?_ (beq_iff_eq.mp heq)
    simp
  simp [List.find?_append, hbefore]

/-- A record is filled in whatever was known of it before. -/
theorem Fills.takes {fields : List (Field ρ)} {r last : ρ} {entries : List (String × Json)}
    (h : Fills fields r entries last) (before : List (Field ρ)) (seen : List String)
    (hnodup : ((before ++ fields).map (·.name)).Nodup)
    (hseen : ∀ name ∈ seen, name ∈ before.map (·.name)) :
    ∃ seen', Takes (readRecordField (before ++ fields)) (seen, r) entries (seen', last) := by
  induction h generalizing before seen with
  | nil r => exact ⟨seen, .nil _⟩
  | @cons field fields r next last v entries hread hfills ih =>
    have hsplit : before ++ field :: fields = (before ++ [field]) ++ fields := by simp
    have hnew : seen.contains field.name = false := by
      rw [Bool.eq_false_iff]
      intro hcontains
      have hold := hseen field.name (by simpa using hcontains)
      rw [List.map_append, List.nodup_append] at hnodup
      exact hnodup.2.2 field.name hold field.name (by simp) rfl
    have hseen' : ∀ name ∈ field.name :: seen, name ∈ (before ++ [field]).map (·.name) := by
      intro name hname
      rcases List.mem_cons.mp hname with rfl | hold
      · simp
      · simpa using .inl (List.mem_map.mp (hseen name hold))
    obtain ⟨seen', htakes⟩ := ih _ _ (hsplit ▸ hnodup) hseen'
    refine ⟨seen', .cons (fun rest hrest offset => ?_) (hsplit ▸ htakes)⟩
    obtain ⟨offset', hvalue⟩ := hread rest hrest (offset + 1)
    refine ⟨offset', ?_⟩
    simp only [readRecordField, find?_field hnodup, hnew, Bool.false_eq_true, ↓reduceIte,
      reads_colon, bind, Except.bind, hvalue]

/-- A record with all its fields written out is read back. -/
theorem Fills.reads {fields : List (Field ρ)} {defaults r : ρ} {entries : List (String × Json)}
    (h : Fills fields defaults entries r) (hnodup : (fields.map (·.name)).Nodup) (name : String)
    (rest : List Char) :
    Reads (readRecord name fields defaults) (Json.object entries).write r rest := by
  intro offset
  have hlength := length_le_writeFields entries
  obtain ⟨seen', htakes⟩ : ∃ seen', Takes (readRecordField fields) ([], defaults) entries
      (seen', r) := h.takes [] [] hnodup (by simp)
  obtain ⟨offset', hread⟩ := htakes.readMembers_written
    ((writeFields entries ++ '\x7d' :: rest).length + 1) (offset + 1) rest
    (by rw [List.length_append]; omega)
  refine ⟨offset', ?_⟩
  rw [object_write_append, readRecord, skipSpaces_cons (by decide)]
  simp only [bind, Except.bind]
  rw [hread]

/-- Reads the value of an entry and puts it into a map. -/
def putEntry (value : Cursor → Except Failure (α × Cursor)) (insert : σ → String → α → σ) (acc : σ)
    (key : String) (cur : Cursor) : Except Failure (σ × Cursor) :=
  (readColon cur).bind fun cur => (value cur).bind fun r => .ok (insert acc key r.1, r.2)

section Maps

variable {value : Cursor → Except Failure (α × Cursor)} {toJson : α → Json}
  (hvalue : ∀ x rest, Delimited rest → Reads value (toJson x).write x rest)
  (insert : σ → String → α → σ)
include hvalue

theorem takes_entries (entries : List (String × α)) (acc : σ) :
    Takes (putEntry value insert) acc (entries.map fun entry => (entry.1, toJson entry.2))
      (entries.foldl (fun acc entry => insert acc entry.1 entry.2) acc) := by
  induction entries generalizing acc with
  | nil => exact .nil acc
  | cons entry entries ih =>
    refine .cons (fun rest hrest offset => ?_) (ih _)
    obtain ⟨offset', hread⟩ := hvalue entry.2 rest hrest (offset + 1)
    refine ⟨offset', ?_⟩
    simp only [putEntry, reads_colon, Except.bind, hread]

/-- A map is read back by putting in one entry after the other. -/
theorem reads_map (empty : σ) (entries : List (String × α)) (rest : List Char) :
    Reads (readMap value insert empty)
      (Json.object (entries.map fun entry => (entry.1, toJson entry.2))).write
      (entries.foldl (fun acc entry => insert acc entry.1 entry.2) empty) rest := by
  intro offset
  have htakes := takes_entries hvalue insert entries empty
  generalize (entries.map fun entry => (entry.1, toJson entry.2)) = fields at htakes ⊢
  have hlength := length_le_writeFields fields
  obtain ⟨offset', hread⟩ := htakes.readMembers_written
    ((writeFields fields ++ '\x7d' :: rest).length + 1) (offset + 1) rest
    (by rw [List.length_append]; omega)
  refine ⟨offset', ?_⟩
  rw [object_write_append, readMap, skipSpaces_cons (by decide)]
  exact hread

end Maps

/-- What a reader gives may be taken into a record. -/
theorem Reads.into {reader : Cursor → Except Failure (α × Cursor)} {w : List Char} {x : α}
    {rest : List Char} (h : Reads reader w x rest) (f : α → β) :
    Reads (fun cur => do
      let (x, cur) ← reader cur
      return (f x, cur)) w (f x) rest := by
  intro offset
  obtain ⟨offset', hread⟩ := h offset
  refine ⟨offset', ?_⟩
  simp only [hread, bind, Except.bind, pure, Except.pure]

theorem Reads.whole {reader : Cursor → Except Failure (α × Cursor)} {v : Json} {x : α}
    (h : Reads reader v.write x []) : readWhole reader v.compact = .ok x := by
  obtain ⟨offset', hread⟩ := h 0
  rw [List.append_nil] at hread
  simp only [readWhole, Cursor.start, compact, String.toList_ofList, hread, bind, Except.bind]
  rfl

/-! ## Numbers and alternatives -/

theorem reads_uint32 (n : UInt32) {rest : List Char} (hrest : Delimited rest) :
    Reads readUInt32 (FlowchartConfig.sizeToJson n).write n rest := by
  have hlt := n.toNat_lt_size
  have hsize : UInt32.size ≤ maxSignificand := by decide
  have hwritten : (FlowchartConfig.sizeToJson n).write = Nat.toDigits 10 n.toNat := by
    simp only [FlowchartConfig.sizeToJson, write, writeNumber, UInt32.toNat_toUInt64]
  rw [hwritten]
  refine reads_wholeNumber ?_ (by omega) hrest
  have hrange : (0 : Int) ≤ n.toNat ∧ (n.toNat : Int) < UInt32.size := by omega
  rw [if_pos hrange, Int.toNat_natCast, UInt32.ofNat_toNat]

theorem reads_int64 (code : Int64) {rest : List Char} (hrest : Delimited rest) :
    Reads readInt64 (RunResult.codeToJson code).write code rest := by
  have hrange : Int64.minValue.toInt ≤ code.toInt ∧ code.toInt ≤ Int64.maxValue.toInt :=
    ⟨code.minValue_le_toInt, code.toInt_le⟩
  have hfit : (if Int64.minValue.toInt ≤ code.toInt ∧ code.toInt ≤ Int64.maxValue.toInt then
      some (Int64.ofInt code.toInt) else none) = some code := by
    rw [if_pos hrange, Int64.ofInt_toInt]
  have hmin : Int64.minValue.toInt = -9223372036854775808 := by decide
  have hmax : Int64.maxValue.toInt = 9223372036854775807 := by decide
  by_cases hnegative : code.toInt < 0
  · have hwritten : (RunResult.codeToJson code).write =
        '-' :: Nat.toDigits 10 code.toInt.natAbs := by
      simp only [RunResult.codeToJson, hnegative, ↓reduceIte, write, writeNumber]
    have habs : -(code.toInt.natAbs : Int) = code.toInt := by omega
    have hhalf : Int64.size / 2 = 9223372036854775808 := by decide
    rw [hwritten]
    refine reads_wholeNumber_neg ?_ (by omega) (by omega) hrest
    rw [habs]
    exact hfit
  · have habs : (code.toInt.toNat : Int) = code.toInt := by omega
    have hword : code.toInt.toNat.toUInt64.toNat = code.toInt.toNat := by
      refine UInt64.toNat_ofNat_of_lt ?_
      have hsize : UInt64.size = 18446744073709551616 := by decide
      omega
    have hwritten : (RunResult.codeToJson code).write = Nat.toDigits 10 code.toInt.toNat := by
      simp only [RunResult.codeToJson, hnegative, ↓reduceIte, write, writeNumber, hword]
    have hsignificand : maxSignificand = 18446744073709551615 := by decide
    rw [hwritten]
    refine reads_wholeNumber ?_ (by omega) hrest
    rw [habs]
    exact hfit

theorem reads_some {value : Cursor → Except Failure (α × Cursor)} {c : Char} {cs : List Char}
    {x : α} {rest : List Char} (h : Reads value (c :: cs) x rest) (hspace : isSpace c = false)
    (hnull : c ≠ 'n') : Reads (readOptional value) (c :: cs) (some x) rest := by
  intro offset
  obtain ⟨offset', hread⟩ := h offset
  refine ⟨offset', ?_⟩
  rw [List.cons_append] at hread ⊢
  unfold readOptional
  simp only [skipSpaces_cons hspace]
  split
  · next heq => exact absurd (List.cons.inj heq).1 hnull
  · simp only [hread, bind, Except.bind]

theorem codeToJson_write (code : Int64) : ∃ c cs, (RunResult.codeToJson code).write = c :: cs ∧
    isSpace c = false ∧ c ≠ 'n' := by
  have hdigits : ∀ n, ∃ c cs, Nat.toDigits 10 n = c :: cs ∧ isSpace c = false ∧ c ≠ 'n' := by
    intro n
    obtain ⟨c, cs, hcons⟩ := List.exists_cons_of_ne_nil (Nat.toDigits_ne_nil (n := n) (b := 10))
    have hc : c.isDigit = true := isDigit_of_mem_toDigits (hcons ▸ List.mem_cons_self)
    refine ⟨c, cs, hcons, isSpace_of_isDigit hc, ?_⟩
    rintro rfl
    cases hc
  unfold RunResult.codeToJson
  split
  · next hnegative => simp [write, writeNumber, hnegative, isSpace]
  · exact hdigits _

/-- An exit code is read back, and so is its absence. -/
theorem reads_exitCode (exitCode : Option Int64) {rest : List Char} (hrest : Delimited rest) :
    Reads (readOptional readInt64)
      (Json.write (match exitCode with
        | none => .null
        | some code => RunResult.codeToJson code)) exitCode rest := by
  cases exitCode with
  | none => exact fun offset => ⟨_, rfl⟩
  | some code =>
    obtain ⟨c, cs, hcons, hspace, hnull⟩ := codeToJson_write code
    have hread := reads_int64 code hrest
    dsimp only
    rw [hcons] at hread ⊢
    exact reads_some hread hspace hnull

theorem reads_level (level : SecurityLevel) (rest : List Char) :
    Reads (readVariant (SecurityLevel.all.map fun level => (level.name, level)))
      (Json.string level.name).write level rest := by
  intro offset
  obtain ⟨offset', hread⟩ := reads_string level.name rest (offset + 1)
  have hfound : (SecurityLevel.all.map fun level => (level.name, level)).find?
      (fun v => v.1 == level.name) = some (level.name, level) := by
    cases level <;> decide
  refine ⟨offset', ?_⟩
  rw [write, writeString, List.cons_append, List.cons_append, readVariant,
    skipSpaces_cons (by decide)]
  simp only [readVariantName, hread, bind, Except.bind, hfound]

end Json

/-! ## Variables of a theme -/

/-- A variable whose name comes after all others is put at the end. -/
theorem setVariable_of_lt {entries : List (String × String)} {name : String}
    (h : ∀ entry ∈ entries, entry.1 < name) (value : String) :
    setVariable entries name value = entries ++ [(name, value)] := by
  induction entries with
  | nil => rfl
  | cons entry entries ih =>
    obtain ⟨hentry, hentries⟩ := List.forall_mem_cons.mp h
    have hnotLt : ¬ name < entry.1 := String.lt_asymm hentry
    have hne : name ≠ entry.1 := by
      rintro rfl
      exact String.lt_irrefl _ hentry
    rw [setVariable, if_neg hnotLt, if_neg hne, ih hentries, List.cons_append]

/-- Putting in the variables of a theme one after the other gives the theme's variables. -/
theorem ThemeVariables.ofList_entries (vars : ThemeVariables) :
    ThemeVariables.ofList vars.entries = vars := by
  have hfold : ∀ (later : List (String × String)) (earlier : ThemeVariables),
      (earlier.entries ++ later).Pairwise (fun a b => a.1 < b.1) →
        (later.foldl (fun vars entry => vars.set entry.1 entry.2) earlier).entries =
          earlier.entries ++ later := by
    intro later
    induction later with
    | nil => simp
    | cons entry later ih =>
      intro earlier hsorted
      have hset : (earlier.set entry.1 entry.2).entries = earlier.entries ++ [entry] := by
        refine setVariable_of_lt ?_ entry.2
        intro before hbefore
        exact (List.pairwise_append.mp hsorted).2.2 before hbefore entry List.mem_cons_self
      rw [List.foldl_cons, ih _ (by rw [hset]; simpa using hsorted), hset, List.append_assoc]
      rfl
  obtain ⟨entries, hsorted⟩ := vars
  have hentries := hfold entries .empty hsorted
  simp only [ofList]
  generalize entries.foldl (fun vars entry => vars.set entry.1 entry.2) ThemeVariables.empty = built
    at hentries ⊢
  obtain ⟨found, hfound⟩ := built
  obtain rfl : found = entries := hentries
  rfl

/-! ## Settings and results of runs -/

open Json

theorem FlowchartConfig.reads (c : FlowchartConfig) (rest : List Char) :
    Reads FlowchartConfig.read c.toJson.write c rest := by
  obtain ⟨diagramPadding, padding, htmlLabels, useMaxWidth, nodeSpacing, rankSpacing⟩ := c
  refine Fills.reads ?_ (by decide) "FlowchartConfig" rest
  refine .cons (fun _ h => (reads_uint32 diagramPadding h).into
    fun n => ({ diagramPadding := n } : FlowchartConfig)) ?_
  refine .cons (fun _ h => (reads_uint32 padding h).into
    fun n => ({ diagramPadding, padding := n } : FlowchartConfig)) ?_
  refine .cons (fun rest _ => (reads_bool htmlLabels rest).into
    fun b => ({ diagramPadding, padding, htmlLabels := b } : FlowchartConfig)) ?_
  refine .cons (fun rest _ => (reads_bool useMaxWidth rest).into
    fun b => ({ diagramPadding, padding, htmlLabels, useMaxWidth := b } : FlowchartConfig)) ?_
  refine .cons (fun _ h => (reads_uint32 nodeSpacing h).into
    fun n => FlowchartConfig.mk diagramPadding padding htmlLabels useMaxWidth n 36) ?_
  refine .cons (fun _ h => (reads_uint32 rankSpacing h).into
    fun n => FlowchartConfig.mk diagramPadding padding htmlLabels useMaxWidth nodeSpacing n) ?_
  exact .nil _

theorem EngineConfig.reads (c : EngineConfig) (rest : List Char) :
    Reads EngineConfig.read c.toJson.write c rest := by
  obtain ⟨startOnLoad, level, theme, flowchart, vars⟩ := c
  have hvars : ∀ rest, Reads (readMap readText ThemeVariables.set .empty)
      (Json.object (vars.entries.map fun entry => (entry.1, .string entry.2))).write vars rest := by
    intro rest
    have htext : ∀ s rest, Delimited rest → Reads readText (Json.string s).write s rest :=
      fun s rest _ => reads_text s rest
    have hmap := reads_map htext ThemeVariables.set .empty vars.entries rest
    rwa [show vars.entries.foldl (fun acc entry => acc.set entry.1 entry.2) .empty = vars from
      vars.ofList_entries] at hmap
  refine Fills.reads ?_ (by decide) "EngineConfig" rest
  refine .cons (fun rest _ => (reads_bool startOnLoad rest).into
    fun b => ({ startOnLoad := b } : EngineConfig)) ?_
  refine .cons (fun rest _ => (reads_level level rest).into
    fun l => ({ startOnLoad, securityLevel := l } : EngineConfig)) ?_
  refine .cons (fun rest _ => (reads_text theme rest).into
    fun s => ({ startOnLoad, securityLevel := level, theme := s } : EngineConfig)) ?_
  refine .cons (fun rest _ => (flowchart.reads rest).into
    fun f => EngineConfig.mk startOnLoad level theme f .standard) ?_
  refine .cons (fun rest _ => (hvars rest).into
    fun v => EngineConfig.mk startOnLoad level theme flowchart v) ?_
  exact .nil _

theorem RunResult.reads (r : RunResult) (rest : List Char) :
    Reads RunResult.read r.toJson.write r rest := by
  obtain ⟨stdout, stderr, exitCode⟩ := r
  refine Fills.reads ?_ (by decide) "RunResult" rest
  refine .cons (fun rest _ => (reads_text stdout rest).into
    fun s => ({ stdout := s } : RunResult)) ?_
  refine .cons (fun rest _ => (reads_text stderr rest).into
    fun s => ({ stdout, stderr := s } : RunResult)) ?_
  refine .cons (fun _ h => (reads_exitCode exitCode h).into
    fun code => RunResult.mk stdout stderr code) ?_
  exact .nil _

/-- The stored form of engine settings is read as these settings, and that of the result of a run
as this result. -/
theorem stored_forms_read_back :
    (∀ c : EngineConfig, EngineConfig.parseJson c.text = .ok c) ∧
      ∀ r : RunResult, RunResult.parseJson r.toJson.compact = .ok r :=
  ⟨fun c => (c.reads []).whole, fun r => (r.reads []).whole⟩

end DiagramView
