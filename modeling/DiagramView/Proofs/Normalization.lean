import DiagramView.Diagram.Extraction

/-!
# What normalization finds and where it looks

Every strategy gives a text without blanks at its ends, or none (`Strategy.isTrimmed_of_extract`),
so a text that was found once is found again as it is (`normalize_idempotent`).

An object is looked at under the alias keys and under the key for lines. Two payloads that agree
there, at every depth (`Alike`), have the same diagram by shape; the scan is the only strategy that
sees the other fields, and its turn comes only where the keys lead nowhere
(`extraction_by_named_keys`).
-/

namespace DiagramView

/-! ## Trimming -/

namespace Text

/-- A text that neither begins nor ends with a blank. -/
structure IsTrimmed (cs : List Char) : Prop where
  head : ∀ c, cs.head? = some c → isBlank c = false
  last : ∀ c, cs.getLast? = some c → isBlank c = false

theorem IsTrimmed.nil : IsTrimmed [] := by
  refine ⟨?_, ?_⟩ <;>
    · intro c hc
      cases hc

theorem dropTrailingBlanks_cons (c : Char) (cs : List Char) :
    dropTrailingBlanks (c :: cs) =
      if dropTrailingBlanks cs = [] then if isBlank c then [] else [c]
      else c :: dropTrailingBlanks cs := by
  rw [dropTrailingBlanks]
  cases dropTrailingBlanks cs <;> simp

theorem dropTrailingBlanks_eq_nil {cs : List Char} :
    dropTrailingBlanks cs = [] ↔ ∀ c ∈ cs, isBlank c = true := by
  induction cs with
  | nil => simp [dropTrailingBlanks]
  | cons c cs ih =>
    rw [dropTrailingBlanks_cons]
    by_cases hcs : dropTrailingBlanks cs = []
    · rw [if_pos hcs, List.forall_mem_cons, ← ih]
      simp [hcs]
    · rw [if_neg hcs, List.forall_mem_cons, ← ih]
      simp [hcs]

theorem dropTrailingBlanks_append (cs : List Char) {blanks : List Char}
    (hblanks : ∀ c ∈ blanks, isBlank c = true) :
    dropTrailingBlanks (cs ++ blanks) = dropTrailingBlanks cs := by
  induction cs with
  | nil => exact dropTrailingBlanks_eq_nil.mpr hblanks
  | cons c cs ih => rw [List.cons_append, dropTrailingBlanks_cons, dropTrailingBlanks_cons, ih]

theorem getLast?_dropTrailingBlanks {cs : List Char} {c : Char}
    (h : (dropTrailingBlanks cs).getLast? = some c) : isBlank c = false := by
  induction cs with
  | nil => cases h
  | cons d cs ih =>
    rw [dropTrailingBlanks_cons] at h
    split at h
    · split at h
      · cases h
      · next hblank =>
        cases h
        simpa using hblank
    · next hne =>
      rw [List.getLast?_cons_of_ne_nil hne] at h
      exact ih h

theorem head?_dropTrailingBlanks {cs : List Char} {c : Char}
    (h : (dropTrailingBlanks cs).head? = some c) : cs.head? = some c := by
  cases cs with
  | nil => exact h
  | cons d cs =>
    rw [dropTrailingBlanks_cons] at h
    split at h
    · split at h
      · cases h
      · exact h
    · exact h

theorem dropTrailingBlanks_eq_self {cs : List Char}
    (h : ∀ c, cs.getLast? = some c → isBlank c = false) : dropTrailingBlanks cs = cs := by
  induction cs with
  | nil => rfl
  | cons c cs ih =>
    rw [dropTrailingBlanks_cons]
    by_cases hcs : cs = []
    · subst hcs
      simp [dropTrailingBlanks, h c rfl]
    · have hrest : dropTrailingBlanks cs = cs := by
        refine ih fun d hd => h d ?_
        rw [List.getLast?_cons_of_ne_nil hcs]
        exact hd
      rw [hrest, if_neg hcs]

theorem head?_dropBlanks {cs : List Char} {c : Char} (h : (dropBlanks cs).head? = some c) :
    isBlank c = false := by
  have hhead := List.head?_dropWhile_not isBlank cs
  rw [show cs.dropWhile isBlank = dropBlanks cs from rfl, h] at hhead
  exact hhead

theorem isTrimmed_trimChars (cs : List Char) : IsTrimmed (trimChars cs) :=
  ⟨fun _ h => head?_dropBlanks (head?_dropTrailingBlanks h), fun _ h =>
    getLast?_dropTrailingBlanks h⟩

theorem IsTrimmed.trimChars_eq {cs : List Char} (h : IsTrimmed cs) : trimChars cs = cs := by
  have hbegins : dropBlanks cs = cs := by
    cases cs with
    | nil => rfl
    | cons c cs => simp [dropBlanks, h.head c rfl]
  rw [trimChars, hbegins]
  exact dropTrailingBlanks_eq_self h.last

theorem trimChars_eq_nil {cs : List Char} :
    trimChars cs = [] ↔ ∀ c ∈ cs, isBlank c = true := by
  rw [trimChars, dropTrailingBlanks_eq_nil]
  constructor
  · intro hrest c hc
    rw [← List.takeWhile_append_dropWhile (p := isBlank) (l := cs)] at hc
    rcases List.mem_append.mp hc with hc | hc
    · exact List.all_eq_true.mp List.all_takeWhile c hc
    · exact hrest c hc
  · intro hall c hc
    exact hall c ((List.dropWhile_sublist _).mem hc)

theorem trim_eq_empty {s : String} : trim s = "" ↔ isBlankText s = true := by
  rw [isBlankText, List.all_eq_true, ← trimChars_eq_nil, trim, ← String.toList_inj,
    String.toList_ofList, String.toList_empty]

theorem isTrimmed_trim (s : String) : IsTrimmed (trim s).toList := by
  rw [trim, String.toList_ofList]
  exact isTrimmed_trimChars s.toList

theorem IsTrimmed.trim_eq {s : String} (h : IsTrimmed s.toList) : trim s = s := by
  rw [trim, h.trimChars_eq, String.ofList_toList]

end Text

namespace Diagram

/-! ## What strategies find -/

theorem nonEmpty?_eq_some {s t : String} : nonEmpty? s = some t ↔ s = t ∧ t ≠ "" := by
  unfold nonEmpty?
  split
  · next h =>
    rw [String.isEmpty_iff] at h
    subst h
    simp [eq_comm]
  · next h =>
    rw [String.isEmpty_iff] at h
    constructor
    · rintro ⟨⟩
      exact ⟨rfl, h⟩
    · rintro ⟨rfl, -⟩
      rfl

theorem nonEmpty?_eq_none {s : String} : nonEmpty? s = none ↔ s = "" := by
  rw [← String.isEmpty_iff]
  unfold nonEmpty?
  split <;> simp_all

theorem isTrimmed_of_nonEmpty? {s t : String} (h : nonEmpty? (Text.trim s) = some t) :
    Text.IsTrimmed t.toList := by
  obtain ⟨rfl, -⟩ := nonEmpty?_eq_some.mp h
  exact Text.isTrimmed_trim s

theorem isTrimmed_of_plainText {v : Json} {t : String} (h : plainText v = some t) :
    Text.IsTrimmed t.toList := by
  cases v with
  | string s => exact isTrimmed_of_nonEmpty? h
  | _ => cases h

theorem isTrimmed_of_lineSequence {v : Json} {t : String} (h : lineSequence v = some t) :
    Text.IsTrimmed t.toList := by
  cases v with
  | array items => exact isTrimmed_of_nonEmpty? h
  | _ => cases h

theorem isTrimmed_of_nestedLines {v : Json} {t : String} (h : nestedLines v = some t) :
    Text.IsTrimmed t.toList := by
  cases v with
  | object fields =>
    simp only [nestedLines] at h
    split at h
    · exact isTrimmed_of_nonEmpty? h
    · cases h
  | _ => cases h

/-- What is found under the alias keys is one of the texts. -/
theorem mem_of_firstAliased {texts : List (String × String)} {t : String}
    (h : firstAliased texts = some t) : ∃ key ∈ aliasKeys, (key, t) ∈ texts := by
  obtain ⟨key, hkey, hfound⟩ := List.exists_of_findSome?_eq_some h
  split at hfound
  · next name text hentry =>
    have hmem := List.mem_of_find?_eq_some hentry
    have hname := List.find?_some hentry
    obtain ⟨rfl, -⟩ := nonEmpty?_eq_some.mp hfound
    simp only [beq_iff_eq] at hname
    exact ⟨key, hkey, hname ▸ hmem⟩
  · cases hfound

theorem isTrimmed_getD {o : Option String} (h : ∀ t, o = some t → Text.IsTrimmed t.toList) :
    Text.IsTrimmed (o.getD "").toList := by
  cases o with
  | none => exact .nil
  | some t => exact h t rfl

mutual

theorem isTrimmed_shapeText : ∀ v : Json, Text.IsTrimmed (shapeText v).toList
  | .object fields => by
    rw [shapeText]
    split
    · next text hfound =>
      obtain ⟨key, -, hmem⟩ := mem_of_firstAliased hfound
      exact isTrimmed_shapeTexts fields _ hmem
    · exact isTrimmed_getD fun t => isTrimmed_of_nestedLines
  | .string s => isTrimmed_getD fun t => isTrimmed_of_plainText
  | .array items => isTrimmed_getD fun t => isTrimmed_of_lineSequence
  | .null => .nil
  | .bool _ => .nil
  | .number _ => .nil

theorem isTrimmed_shapeTexts : ∀ (fields : List (String × Json)) (entry : String × String),
    entry ∈ shapeTexts fields → Text.IsTrimmed entry.2.toList
  | [], _, h => by cases h
  | (name, v) :: rest, entry, h => by
    rw [shapeTexts] at h
    rcases List.mem_cons.mp h with rfl | hrest
    · exact isTrimmed_shapeText v
    · exact isTrimmed_shapeTexts rest entry hrest

end

theorem isTrimmed_of_aliasedKey {v : Json} {t : String} (h : aliasedKey v = some t) :
    Text.IsTrimmed t.toList := by
  cases v with
  | object fields =>
    obtain ⟨key, -, hmem⟩ := mem_of_firstAliased h
    exact isTrimmed_shapeTexts fields _ hmem
  | _ => cases h

theorem isTrimmed_of_keywordScan {v : Json} {t : String} (h : keywordScan v = some t) :
    Text.IsTrimmed t.toList := by
  cases v with
  | object fields =>
    obtain ⟨entry, hmem, rfl⟩ := List.mem_map.mp (List.mem_of_find?_eq_some h)
    exact isTrimmed_shapeTexts fields entry hmem
  | _ => cases h

/-- Every strategy gives a text without blanks at its ends. -/
theorem Strategy.isTrimmed_of_extract {s : Strategy} (hs : s ∈ Registry.standard) {v : Json}
    {t : String} (h : s.extract v = some t) : Text.IsTrimmed t.toList := by
  simp only [Registry.standard, Registry.structural, List.cons_append, List.nil_append,
    List.mem_cons, List.not_mem_nil, or_false] at hs
  rcases hs with rfl | rfl | rfl | rfl | rfl
  · exact isTrimmed_of_plainText h
  · exact isTrimmed_of_lineSequence h
  · exact isTrimmed_of_aliasedKey h
  · exact isTrimmed_of_nestedLines h
  · exact isTrimmed_of_keywordScan h

theorem Strategy.find?_eq_some {s : Strategy} {v : Json} {x : Extraction} :
    s.find? v = some x ↔ x.strategy = s.name ∧ s.extract v = some x.text ∧ x.text ≠ "" := by
  obtain ⟨name, text⟩ := x
  simp only [find?, Option.map_eq_some_iff, Option.bind_eq_some_iff, nonEmpty?_eq_some,
    Extraction.mk.injEq]
  constructor
  · rintro ⟨_, ⟨_, hextract, rfl, hne⟩, rfl, rfl⟩
    exact ⟨rfl, hextract, hne⟩
  · rintro ⟨rfl, hextract, hne⟩
    exact ⟨text, ⟨text, hextract, rfl, hne⟩, rfl, rfl⟩

namespace Registry

variable {r : Registry} {v : Json} {x : Extraction}

/-- Whatever a registry finds, one of its strategies finds. -/
theorem exists_of_extract? (h : r.extract? v = some x) :
    ∃ s ∈ r, x.strategy = s.name ∧ s.extract v = some x.text ∧ x.text ≠ "" := by
  obtain ⟨s, hs, hfound⟩ := List.exists_of_findSome?_eq_some h
  exact ⟨s, hs, Strategy.find?_eq_some.mp hfound⟩

theorem normalize_of_some (h : r.extract? v = some x) : r.normalize v = x.text := by
  rw [normalize, h]

theorem normalize_of_none (h : r.extract? v = none) : r.normalize v = "" := by
  rw [normalize, h]

theorem extract?_eq_none_iff : r.extract? v = none ↔ r.normalize v = "" := by
  refine ⟨normalize_of_none, fun hempty => ?_⟩
  cases hfound : r.extract? v with
  | none => rfl
  | some x =>
    obtain ⟨-, -, -, -, hne⟩ := exists_of_extract? hfound
    exact absurd ((normalize_of_some hfound).symm.trans hempty) hne

theorem isTrimmed_normalize (hr : ∀ s ∈ r, s ∈ standard) (v : Json) :
    Text.IsTrimmed (r.normalize v).toList := by
  cases hfound : r.extract? v with
  | none =>
    rw [normalize_of_none hfound]
    exact .nil
  | some x =>
    obtain ⟨s, hs, -, hextract, -⟩ := exists_of_extract? hfound
    rw [normalize_of_some hfound]
    exact Strategy.isTrimmed_of_extract (hr s hs) hextract

end Registry

/-- A string is its own diagram text, but for the blanks at its ends. -/
theorem normalize_string (s : String) : normalize (.string s) = Text.trim s := by
  have hextract : Registry.standard.extract? (.string s) =
      (nonEmpty? (Text.trim s)).map (Extraction.mk "text") := by
    cases hempty : nonEmpty? (Text.trim s) with
    | none =>
      simp [Registry.extract?, Registry.standard, Registry.structural, Strategy.find?,
        Strategy.text, Strategy.lineSequence, Strategy.aliasedKey, Strategy.nestedLines,
        Strategy.keywordScan, plainText, lineSequence, aliasedKey, nestedLines, keywordScan,
        hempty]
    | some t =>
      obtain ⟨-, hne⟩ := nonEmpty?_eq_some.mp hempty
      have hagain : nonEmpty? t = some t := nonEmpty?_eq_some.mpr ⟨rfl, hne⟩
      simp [Registry.extract?, Registry.standard, Registry.structural, Strategy.find?,
        Strategy.text, plainText, hempty, hagain]
  cases hempty : nonEmpty? (Text.trim s) with
  | none =>
    rw [hempty] at hextract
    rw [normalize, Registry.normalize_of_none hextract, nonEmpty?_eq_none.mp hempty]
  | some t =>
    rw [hempty] at hextract
    rw [normalize, Registry.normalize_of_some hextract, (nonEmpty?_eq_some.mp hempty).1]

/-- A text that strategies of the library found, in whatever order they were tried, has no blanks at
its ends, and is found again as it is. None is found exactly where the text is empty. -/
theorem normalize_idempotent {r : Registry} (hr : ∀ s ∈ r, s ∈ Registry.standard) (v : Json) :
    Text.IsTrimmed (r.normalize v).toList ∧
      normalize (.string (r.normalize v)) = r.normalize v ∧
      normalize (.string (normalize v)) = normalize v ∧
      (r.extract? v = none ↔ r.normalize v = "") := by
  have htrimmed := Registry.isTrimmed_normalize hr v
  refine ⟨htrimmed, ?_, ?_, Registry.extract?_eq_none_iff⟩
  · rw [normalize_string, htrimmed.trim_eq]
  · rw [normalize_string, normalize, (Registry.isTrimmed_normalize (fun _ h => h) v).trim_eq]

/-- The strategies may come in another order, more than once, or not at all. -/
theorem normalize_idempotent_shuffled :
    (∀ s ∈ ([.keywordScan, .aliasedKey, .keywordScan] : Registry), s ∈ Registry.standard) ∧
      Registry.normalize [.keywordScan, .aliasedKey, .keywordScan]
        (.object [("chart", .string " graph TD\u3000")]) = "graph TD" ∧
      normalize (.string (Registry.normalize [.keywordScan, .aliasedKey, .keywordScan]
        (.object [("chart", .string " graph TD\u3000")]))) =
      Registry.normalize [.keywordScan, .aliasedKey, .keywordScan]
        (.object [("chart", .string " graph TD\u3000")]) := by
  have hr : ∀ s ∈ ([.keywordScan, .aliasedKey, .keywordScan] : Registry),
      s ∈ Registry.standard := by
    simp [Registry.standard, Registry.structural]
  exact ⟨hr, by decide +kernel, (normalize_idempotent hr _).2.1⟩

/-! ## Where strategies look -/

/-- Two values that agree under the keys that normalization names: the values under each alias key
are alike again, and those under the key for lines are equal. -/
inductive Alike : Json → Json → Prop where
  | refl (v : Json) : Alike v v
  | object {fields fields' : List (String × Json)}
      (present : ∀ key ∈ aliasKeys,
        ((Json.field? fields key).isSome ↔ (Json.field? fields' key).isSome))
      (aliased : ∀ key ∈ aliasKeys, ∀ v w, Json.field? fields key = some v →
        Json.field? fields' key = some w → Alike v w)
      (lines : Json.field? fields linesKey = Json.field? fields' linesKey) :
      Alike (.object fields) (.object fields')

theorem shapeTexts_eq_map (fields : List (String × Json)) :
    shapeTexts fields = fields.map fun entry => (entry.1, shapeText entry.2) := by
  induction fields with
  | nil => rfl
  | cons entry rest ih =>
    rw [shapeTexts, ih]
    rfl

/-- The alias keys are looked up one after the other. -/
theorem firstAliased_shapeTexts (fields : List (String × Json)) :
    firstAliased (shapeTexts fields) =
      aliasKeys.findSome? fun key => (Json.field? fields key).bind (nonEmpty? ∘ shapeText) := by
  unfold firstAliased
  congr 1
  funext key
  rw [shapeTexts_eq_map, List.find?_map, Json.field?]
  simp only [Function.comp_def]
  cases fields.find? (·.1 == key) <;> rfl

theorem findSome?_congr {α β : Type} {f g : α → Option β} {l : List α}
    (h : ∀ a ∈ l, f a = g a) : l.findSome? f = l.findSome? g := by
  induction l with
  | nil => rfl
  | cons a l ih =>
    obtain ⟨ha, hl⟩ := List.forall_mem_cons.mp h
    rw [List.findSome?_cons, List.findSome?_cons, ha, ih hl]

theorem nestedLines_object {fields fields' : List (String × Json)}
    (lines : Json.field? fields linesKey = Json.field? fields' linesKey) :
    nestedLines (.object fields) = nestedLines (.object fields') := by
  rw [nestedLines, nestedLines, lines]

theorem aliasedKey_object {fields fields' : List (String × Json)}
    (present : ∀ key ∈ aliasKeys,
      ((Json.field? fields key).isSome ↔ (Json.field? fields' key).isSome))
    (texts : ∀ key ∈ aliasKeys, ∀ v w, Json.field? fields key = some v →
      Json.field? fields' key = some w → shapeText v = shapeText w) :
    aliasedKey (.object fields) = aliasedKey (.object fields') := by
  rw [aliasedKey, aliasedKey, firstAliased_shapeTexts, firstAliased_shapeTexts]
  refine findSome?_congr fun key hkey => ?_
  have hpresent := present key hkey
  cases hv : Json.field? fields key with
  | none =>
    cases hw : Json.field? fields' key with
    | none => rfl
    | some w => simp [hv, hw] at hpresent
  | some v =>
    cases hw : Json.field? fields' key with
    | none => simp [hv, hw] at hpresent
    | some w => simp [texts key hkey v w hv hw]

theorem Alike.shapeText_eq {v w : Json} (h : Alike v w) : shapeText v = shapeText w := by
  induction h with
  | refl v => rfl
  | object present aliased lines ih =>
    have halias := aliasedKey_object present ih
    simp only [aliasedKey] at halias
    rw [shapeText, shapeText, halias, nestedLines_object lines]

/-- By shape, values that are alike are one and the same to every strategy. -/
theorem Alike.extract_eq {v w : Json} (h : Alike v w) {s : Strategy}
    (hs : s ∈ Registry.structural) : s.extract v = s.extract w := by
  cases h with
  | refl => rfl
  | object present aliased lines =>
    simp only [Registry.structural, List.mem_cons, List.not_mem_nil, or_false] at hs
    rcases hs with rfl | rfl | rfl | rfl
    · rfl
    · rfl
    · exact aliasedKey_object present fun key hkey v w hv hw =>
        (aliased key hkey v w hv hw).shapeText_eq
    · exact nestedLines_object lines

theorem Alike.extract?_eq {v w : Json} (h : Alike v w) :
    Registry.structural.extract? v = Registry.structural.extract? w := by
  refine findSome?_congr fun s hs => ?_
  rw [Strategy.find?, Strategy.find?, h.extract_eq hs]

/-- Whether normalization names a key. -/
def isNamedKey (key : String) : Bool :=
  aliasKeys.contains key || key == linesKey

/-- Fields under other keys may come, go and change places. -/
theorem Alike.of_filter_eq {fields fields' : List (String × Json)}
    (h : fields.filter (isNamedKey ·.1) = fields'.filter (isNamedKey ·.1)) :
    Alike (.object fields) (.object fields') := by
  have hlookup : ∀ {key}, isNamedKey key = true →
      Json.field? fields key = Json.field? fields' key := by
    intro key hkey
    have hfind : ∀ fields : List (String × Json), fields.find? (·.1 == key) =
        (fields.filter (isNamedKey ·.1)).find? (·.1 == key) := by
      intro fields
      rw [List.find?_filter]
      congr 1
      funext entry
      by_cases heq : entry.1 = key
      · simp [heq, hkey]
      · simp [heq]
    rw [Json.field?, Json.field?, hfind fields, hfind fields', h]
  have halias : ∀ key ∈ aliasKeys, Json.field? fields key = Json.field? fields' key := by
    intro key hkey
    exact hlookup (by simp [isNamedKey, hkey])
  refine .object (fun key hkey => by rw [halias key hkey]) ?_ (hlookup (by simp [isNamedKey]))
  intro key hkey v w hv hw
  rw [halias key hkey, hw] at hv
  exact Option.some.inj hv ▸ .refl w

/-! ## The scan comes last -/

theorem Strategy.ne_empty_of_extract {s : Strategy} (hs : s ∈ Registry.structural) {v : Json}
    {t : String} (h : s.extract v = some t) : t ≠ "" := by
  simp only [Registry.structural, List.mem_cons, List.not_mem_nil, or_false] at hs
  rcases hs with rfl | rfl | rfl | rfl
  · cases v with
    | string s =>
      simp only [text, plainText] at h
      exact (nonEmpty?_eq_some.mp h).2
    | _ => cases h
  · cases v with
    | array items =>
      simp only [lineSequence, Diagram.lineSequence] at h
      exact (nonEmpty?_eq_some.mp h).2
    | _ => cases h
  · cases v with
    | object fields =>
      obtain ⟨key, -, hfound⟩ := List.exists_of_findSome?_eq_some h
      split at hfound
      · exact (nonEmpty?_eq_some.mp hfound).2
      · cases hfound
    | _ => cases h
  · cases v with
    | object fields =>
      simp only [nestedLines, Diagram.nestedLines] at h
      split at h
      · exact (nonEmpty?_eq_some.mp h).2
      · cases h
    | _ => cases h

theorem Registry.extract?_cons (s : Strategy) (r : Registry) (v : Json) :
    Registry.extract? (s :: r) v = (s.find? v).or (r.extract? v) := by
  rw [Registry.extract?, List.findSome?_cons]
  cases s.find? v <;> rfl

/-- What goes by the shape of a value tries the four shapes in turn. -/
theorem Registry.extract?_structural (v : Json) :
    Registry.structural.extract? v =
      ((plainText v).map (Extraction.mk "text")).or
        (((lineSequence v).map (Extraction.mk "line-sequence")).or
          (((aliasedKey v).map (Extraction.mk "aliased-key")).or
            ((nestedLines v).map (Extraction.mk "nested-lines")))) := by
  have hfind : ∀ s ∈ Registry.structural,
      s.find? v = (s.extract v).map (Extraction.mk s.name) := by
    intro s hs
    cases hextract : s.extract v with
    | none =>
      rw [Strategy.find?, hextract]
      rfl
    | some t =>
      have hne := Strategy.ne_empty_of_extract hs hextract
      exact Strategy.find?_eq_some.mpr ⟨rfl, hextract, hne⟩
  simp only [Registry.structural, List.forall_mem_cons] at hfind
  obtain ⟨htext, hlines, halias, hnested, -⟩ := hfind
  rw [Registry.structural, extract?_cons, extract?_cons, extract?_cons, extract?_cons, htext,
    hlines, halias, hnested, show Registry.extract? [] v = none from rfl, Option.or_none]
  rfl

/-- The text that the shape of a value leads to is what the strategies find that go by it. -/
theorem shapeText_eq_normalize (v : Json) : shapeText v = Registry.structural.normalize v := by
  rw [Registry.normalize, Registry.extract?_structural]
  cases v with
  | object fields =>
    simp only [shapeText, plainText, lineSequence, aliasedKey, Option.map_none, Option.none_or]
    cases firstAliased (shapeTexts fields) with
    | some t => rfl
    | none => cases nestedLines (.object fields) <;> rfl
  | string s => cases hfound : plainText (.string s) <;> simp [shapeText, hfound, lineSequence,
      aliasedKey, nestedLines]
  | array items => cases hfound : lineSequence (.array items) <;> simp [shapeText, hfound,
      plainText, aliasedKey, nestedLines]
  | null => rfl
  | bool b => rfl
  | number n => rfl

theorem Registry.extract?_standard (v : Json) :
    Registry.standard.extract? v =
      (Registry.structural.extract? v).or (Strategy.keywordScan.find? v) := by
  rw [Registry.extract?, Registry.standard, List.findSome?_append, List.findSome?_singleton]
  rfl

theorem Registry.strategy_ne_of_structural {v : Json} {x : Extraction}
    (h : Registry.structural.extract? v = some x) : x.strategy ≠ Strategy.keywordScan.name := by
  obtain ⟨s, hs, hname, -⟩ := Registry.exists_of_extract? h
  have hnames : ∀ s ∈ Registry.structural, s.name ≠ Strategy.keywordScan.name := by
    simp [Registry.structural, Strategy.text, Strategy.lineSequence, Strategy.aliasedKey,
      Strategy.nestedLines, Strategy.keywordScan]
  rw [hname]
  exact hnames s hs

/-- An object in which the scan finds a text: it is that of the first field that looks like a
diagram, and the keys that normalization names lead to none. -/
structure Scanned (fields : List (String × Json)) (text : String) : Prop where
  first : ∃ before key v after, fields = before ++ (key, v) :: after ∧
    text = Registry.structural.normalize v ∧ looksLikeDiagram text = true ∧
    ∀ entry ∈ before, looksLikeDiagram (Registry.structural.normalize entry.2) = false
  aliases : ∀ key ∈ aliasKeys, ∀ v, Json.field? fields key = some v →
    Registry.structural.normalize v = ""
  lines : ∀ items, Json.field? fields linesKey = some (.array items) →
    Text.isBlankText (joinLines items) = true

theorem scanned_of_extract {v : Json} {x : Extraction}
    (hnone : Registry.structural.extract? v = none)
    (hscan : Strategy.keywordScan.find? v = some x) :
    ∃ fields, v = .object fields ∧ Scanned fields x.text := by
  obtain ⟨-, hextract, -⟩ := Strategy.find?_eq_some.mp hscan
  cases v with
  | object fields =>
    simp only [Registry.extract?_structural, Option.or_eq_none_iff, Option.map_eq_none_iff] at hnone
    obtain ⟨-, -, halias, hlines⟩ := hnone
    refine ⟨fields, rfl, ?_, ?_, ?_⟩
    · change ((shapeTexts fields).map (·.2)).find? looksLikeDiagram = some x.text at hextract
      rw [shapeTexts_eq_map, List.map_map, List.find?_eq_some_iff_append] at hextract
      obtain ⟨hlooks, before, after, hsplit, hbefore⟩ := hextract
      obtain ⟨fields₁, fields₂, rfl, rfl, hrest⟩ := List.map_eq_append_iff.mp hsplit
      obtain ⟨entry, fields₃, rfl, htext, -⟩ := List.map_eq_cons_iff.mp hrest
      refine ⟨fields₁, entry.1, entry.2, fields₃, rfl, ?_, hlooks, fun other hother => ?_⟩
      · rw [← shapeText_eq_normalize]
        exact htext.symm
      · rw [← shapeText_eq_normalize]
        simpa using hbefore _ (List.mem_map_of_mem hother)
    · intro key hkey w hw
      rw [aliasedKey, firstAliased_shapeTexts, List.findSome?_eq_none_iff] at halias
      have hempty := halias key hkey
      rw [hw, Option.bind_some, Function.comp_apply, nonEmpty?_eq_none] at hempty
      rw [← shapeText_eq_normalize]
      exact hempty
    · intro items hitems
      rw [nestedLines, hitems] at hlines
      exact Text.trim_eq_empty.mp (nonEmpty?_eq_none.mp hlines)
  | _ => cases hextract

/-- Normalization reads an object under the keys that it names. Values that are alike have the same
diagram by shape, and the same diagram altogether unless it takes a scan to find one. A scan takes
the first field that looks like a diagram, and only where the named keys lead to none. -/
theorem extraction_by_named_keys {v w : Json} (h : Alike v w) :
    Registry.structural.extract? v = Registry.structural.extract? w ∧
      (∀ x, Registry.standard.extract? v = some x → x.strategy ≠ Strategy.keywordScan.name →
        Registry.standard.extract? w = some x) ∧
      (∀ x, Registry.standard.extract? v = some x → x.strategy = Strategy.keywordScan.name →
        ∃ fields, v = .object fields ∧ Scanned fields x.text) := by
  refine ⟨h.extract?_eq, fun x hx hname => ?_, fun x hx hname => ?_⟩
  · rw [Registry.extract?_standard] at hx ⊢
    rw [← h.extract?_eq]
    rcases Option.or_eq_some_iff.mp hx with hfound | ⟨-, hscan⟩
    · rw [hfound, Option.some_or]
    · exact absurd (Strategy.find?_eq_some.mp hscan).1 hname
  · rw [Registry.extract?_standard] at hx
    rcases Option.or_eq_some_iff.mp hx with hfound | ⟨hnone, hscan⟩
    · exact absurd hname (Registry.strategy_ne_of_structural hfound)
    · exact scanned_of_extract hnone hscan

/-- A payload with a diagram two objects deep. -/
def deepPayload : Json :=
  .object [("title", .string "flowchart LR"),
    ("mermaid", .object [("note", .bool true), ("graph", .array [.string "graph TD"])]),
    ("lines", .array [])]

/-- The same diagram among other fields, in other places. -/
def otherPayload : Json :=
  .object [("lines", .array []), ("other", .string "graph LR"),
    ("mermaid", .object [("graph", .array [.string "graph TD"]), ("text", .null)])]

theorem alike_deepPayload : Alike deepPayload otherPayload := by
  refine .object (by decide) ?_ rfl
  intro key hkey v w hv hw
  simp only [aliasKeys, List.mem_cons, List.not_mem_nil, or_false] at hkey
  rcases hkey with rfl | rfl | rfl | rfl | rfl | rfl <;> try cases hv
  cases hw
  exact .of_filter_eq rfl

theorem extraction_by_named_keys_deep :
    Alike deepPayload otherPayload ∧
      Registry.standard.extract? deepPayload = some ⟨"aliased-key", "graph TD"⟩ ∧
      Registry.standard.extract? otherPayload = some ⟨"aliased-key", "graph TD"⟩ := by
  have hfound : Registry.standard.extract? deepPayload = some ⟨"aliased-key", "graph TD"⟩ := by
    decide +kernel
  exact ⟨alike_deepPayload, hfound,
    (extraction_by_named_keys alike_deepPayload).2.1 _ hfound (by decide)⟩

end Diagram

end DiagramView
