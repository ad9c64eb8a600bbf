import DiagramView.Proofs.Restyling

/-!
# Canonical tags

A start tag is in canonical form when every attribute stands behind one space, with its value
between double quotation marks, and neither names nor values hold what the search for an attribute
goes by. On such a tag the edits of the text are edits of the list of attributes
(`CanonicalTag.setAttribute_text`, `CanonicalTag.restyleRoot_text`), and doing one twice is doing it
once.
-/

namespace DiagramView.Markup

/-- Whether a text can be the name of an attribute in canonical form. -/
def isCanonicalName (name : String) : Bool :=
  !name.toList.isEmpty && name.toList.all fun c =>
    !Text.isBlank c && !(['\x22', '\x27', '=', '<', '>', '/'].contains c)

/-- Whether a text can be the value of an attribute in canonical form. -/
def isCanonicalValue (value : List Char) : Bool :=
  value.all fun c => !(['\x22', '=', '<', '>'].contains c)

/-- An attribute that can be written in canonical form. -/
@[ext]
structure CanonicalAttribute where
  name : String
  value : List Char
  name_canonical : isCanonicalName name
  value_canonical : isCanonicalValue value

/-- An attribute behind one space, with its value between double quotation marks. -/
def CanonicalAttribute.text (a : CanonicalAttribute) : List Char :=
  writtenAttribute a.name a.value

/-- A start tag in canonical form. -/
structure CanonicalTag where
  element : String
  attributes : List CanonicalAttribute
  closed : Bool
  element_known : element = "svg" ∨ element = "rect"
  names_distinct : (attributes.map (·.name)).Nodup

/-- The attributes with one set: in place of the one with its name, or behind all others. -/
def assignAttribute (a : CanonicalAttribute) (attributes : List CanonicalAttribute) :
    List CanonicalAttribute :=
  if attributes.any (·.name == a.name) then attributes.map fun b => if b.name = a.name then a else b
  else attributes ++ [a]

section

variable {a b : CanonicalAttribute} {u w attributes : List CanonicalAttribute}

theorem assignAttribute_of_forall_ne (h : ∀ b ∈ attributes, b.name ≠ a.name) :
    assignAttribute a attributes = attributes ++ [a] := by
  rw [assignAttribute, if_neg (by simpa using h)]

theorem assignAttribute_append_cons (hnodup : ((u ++ b :: w).map (·.name)).Nodup)
    (hb : b.name = a.name) : assignAttribute a (u ++ b :: w) = u ++ a :: w := by
  have hothers : ∀ x ∈ u ++ w, x.name ≠ a.name := by
    intro x hx heq
    rw [List.map_append, List.map_cons, List.nodup_middle, List.nodup_cons, ← List.map_append]
      at hnodup
    exact hnodup.1 (List.mem_map.mpr ⟨x, hx, heq.trans hb.symm⟩)
  have hsame (l : List CanonicalAttribute) (hl : ∀ x ∈ l, x ∈ u ++ w) :
      l.map (fun x => if x.name = a.name then a else x) = l :=
    (List.map_congr_left fun x hx => if_neg (hothers x (hl x hx))).trans (List.map_id' l)
  rw [assignAttribute, if_pos (by simp [hb]), List.map_append, List.map_cons, if_pos hb,
    hsame u (fun x hx => List.mem_append_left w hx),
    hsame w (fun x hx => List.mem_append_right u hx)]

theorem find?_name_cases (attributes : List CanonicalAttribute) (name : String) :
    (∀ b ∈ attributes, b.name ≠ name) ∨
      ∃ u b w, attributes = u ++ b :: w ∧ b.name = name ∧ ∀ x ∈ u, x.name ≠ name := by
  cases hfind : attributes.find? (·.name == name) with
  | none => exact .inl (by simpa using hfind)
  | some b =>
    obtain ⟨hb, u, w, hattributes, hu⟩ := List.find?_eq_some_iff_append.mp hfind
    exact .inr ⟨u, b, w, hattributes, by simpa using hb, by simpa using hu⟩

theorem nodup_names_assignAttribute (a : CanonicalAttribute)
    (h : (attributes.map (·.name)).Nodup) :
    ((assignAttribute a attributes).map (·.name)).Nodup := by
  obtain hnone | ⟨u, b, w, rfl, hb, -⟩ := find?_name_cases attributes a.name
  · rw [assignAttribute_of_forall_ne hnone, List.map_append, List.nodup_append]
    refine ⟨h, List.nodup_singleton _, ?_⟩
    intro name hname name' hname'
    obtain ⟨b, hb, rfl⟩ := List.mem_map.mp hname
    cases List.mem_singleton.mp hname'
    exact hnone b hb
  · rw [assignAttribute_append_cons h hb]
    simpa [hb] using h

theorem mem_assignAttribute_self (h : (attributes.map (·.name)).Nodup) :
    a ∈ assignAttribute a attributes := by
  obtain hnone | ⟨u, b, w, rfl, hb, -⟩ := find?_name_cases attributes a.name
  · simp [assignAttribute_of_forall_ne hnone]
  · simp [assignAttribute_append_cons h hb]

theorem mem_assignAttribute_of_ne (hb : b ∈ attributes) (hne : b.name ≠ a.name) :
    b ∈ assignAttribute a attributes := by
  unfold assignAttribute
  split
  · exact List.mem_map.mpr ⟨b, hb, if_neg hne⟩
  · exact List.mem_append_left _ hb

/-- Setting an attribute to the value that it has changes nothing. -/
theorem assignAttribute_of_mem (h : (attributes.map (·.name)).Nodup) (ha : a ∈ attributes) :
    assignAttribute a attributes = attributes := by
  obtain ⟨u, w, rfl⟩ := List.append_of_mem ha
  exact assignAttribute_append_cons h rfl

end

namespace CanonicalTag

/-- How a tag ends. -/
def ending (t : CanonicalTag) : List Char :=
  if t.closed then ['/', '>'] else ['>']

/-- The tag as it is written. -/
def text (t : CanonicalTag) : List Char :=
  '<' :: (t.element.toList ++ (t.attributes.flatMap (·.text) ++ t.ending))

/-- The value of an attribute. -/
def value? (t : CanonicalTag) (name : String) : Option (List Char) :=
  (t.attributes.find? (·.name == name)).map (·.value)

/-- Sets an attribute. -/
def assign (t : CanonicalTag) (a : CanonicalAttribute) : CanonicalTag :=
  { t with
    attributes := assignAttribute a t.attributes
    names_distinct := nodup_names_assignAttribute a t.names_distinct }

theorem assign_of_mem {t : CanonicalTag} {a : CanonicalAttribute} (ha : a ∈ t.attributes) :
    t.assign a = t := by
  obtain ⟨element, attributes, closed, hknown, hdistinct⟩ := t
  simp only [assign, assignAttribute_of_mem hdistinct ha]

theorem value?_of_mem {t : CanonicalTag} {a : CanonicalAttribute} (ha : a ∈ t.attributes) :
    t.value? a.name = some a.value := by
  obtain hnone | ⟨u, b, w, hattributes, hb, hu⟩ := find?_name_cases t.attributes a.name
  · exact absurd rfl (hnone a ha)
  · have hsame : a = b := by
      have hassign := assignAttribute_append_cons (hattributes ▸ t.names_distinct) hb
      rw [← hattributes, assignAttribute_of_mem t.names_distinct ha, hattributes] at hassign
      exact (List.cons.inj (List.append_cancel_left hassign)).1.symm
    have hfind : t.attributes.find? (·.name == a.name) = some b :=
      List.find?_eq_some_iff_append.mpr ⟨by simpa using hb, u, w, hattributes, by simpa using hu⟩
    rw [value?, hfind, hsame]
    rfl

end CanonicalTag

/-! ## The search in a canonical tag -/

section

variable {name : String} {rest : List Char}

/-- A word does not reach behind a mark that it does not hold. -/
theorem prefix_of_prefix_append_cons {mark : Char} {word text : List Char} (hword : mark ∉ word)
    (h : word <+: text ++ mark :: rest) : word <+: text := by
  obtain h' | ⟨more, rfl⟩ := List.prefix_or_prefix_of_prefix h (List.prefix_append text _)
  · exact h'
  · have hmore : more <+: mark :: rest := (List.prefix_append_right_inj text).mp h
    cases more with
    | nil => simp
    | cons c cs =>
      obtain ⟨rfl, -⟩ := List.cons_prefix_cons.mp hmore
      exact absurd (by simp) hword

theorem dropBlanks_append_cons {mark : Char} (hmark : Text.isBlank mark = false)
    (text rest : List Char) :
    Text.dropBlanks (text ++ mark :: rest) = Text.dropBlanks text ++ mark :: rest := by
  rw [Text.dropBlanks, Text.dropBlanks, List.dropWhile_append,
    List.dropWhile_cons_of_neg (by simp [hmark])]
  split
  case isTrue h => rw [List.isEmpty_iff.mp h, List.nil_append]
  case isFalse => rfl

/-- A stretch before a mark looks like the attribute only if it holds an equals sign. -/
theorem equals_mem_of_head?_dropBlanks {mark : Char} (hmark : Text.isBlank mark = false)
    (hne : mark ≠ '=') {text : List Char}
    (h : (Text.dropBlanks (text ++ mark :: rest)).head? = some '=') : '=' ∈ text := by
  rw [dropBlanks_append_cons hmark] at h
  cases hdrop : Text.dropBlanks text with
  | nil =>
    rw [hdrop] at h
    cases h
    exact absurd rfl hne
  | cons c cs =>
    rw [hdrop] at h
    cases h
    refine (List.dropWhile_sublist Text.isBlank).mem ?_
    rw [← Text.dropBlanks, hdrop]
    exact List.mem_cons_self

theorem beginsAttribute_eq_false {mark : Char} (hmark : Text.isBlank mark = false)
    (hne : mark ≠ '=') (hname : mark ∉ name.toList) {text : List Char} (htext : '=' ∉ text)
    (c : Char) : beginsAttribute name (c :: (text ++ mark :: rest)) = false := by
  rw [Bool.eq_false_iff, ne_eq, beginsAttribute_cons]
  rintro ⟨-, more, heq, hhead⟩
  have hbegins : name.toList <+: text ++ mark :: rest := heq ▸ List.prefix_append ..
  obtain ⟨inner, rfl⟩ := prefix_of_prefix_append_cons hname hbegins
  rw [List.append_assoc] at heq
  rw [← List.append_cancel_left heq] at hhead
  exact htext (List.mem_append_right _ (equals_mem_of_head?_dropBlanks hmark hne hhead))

/-- Before an equals sign the search finds only the name that is searched. -/
theorem eq_of_beginsAttribute (hname : '=' ∉ name.toList) {text : List Char} (htext : '=' ∉ text)
    (hblank : ∀ c ∈ text, Text.isBlank c = false) {c : Char}
    (h : beginsAttribute name (c :: (text ++ '=' :: rest)) = true) : text = name.toList := by
  obtain ⟨-, more, heq, hhead⟩ := beginsAttribute_cons.mp h
  have hbegins : name.toList <+: text ++ '=' :: rest := heq ▸ List.prefix_append ..
  obtain ⟨inner, rfl⟩ := prefix_of_prefix_append_cons hname hbegins
  rw [List.append_assoc] at heq
  rw [← List.append_cancel_left heq] at hhead
  cases inner with
  | nil => rw [List.append_nil]
  | cons d ds =>
    have hd : d ∈ name.toList ++ d :: ds := by simp
    rw [List.cons_append, Text.dropBlanks,
      List.dropWhile_cons_of_neg (by simp [hblank d hd])] at hhead
    cases hhead
    exact absurd hd htext

end

section

variable {name : String}

theorem isBlank_of_isCanonicalName (h : isCanonicalName name) {c : Char} (hc : c ∈ name.toList) :
    Text.isBlank c = false := by
  have hall := List.all_eq_true.mp (Bool.and_eq_true_iff.mp h).2 c hc
  simpa using (Bool.and_eq_true_iff.mp hall).1

theorem not_mem_of_isCanonicalName (h : isCanonicalName name) {c : Char}
    (hc : c ∈ ['\x22', '\x27', '=', '<', '>', '/']) : c ∉ name.toList := by
  intro hmem
  have hall := List.all_eq_true.mp (Bool.and_eq_true_iff.mp h).2 c hmem
  have hfree := (Bool.and_eq_true_iff.mp hall).2
  rw [Bool.not_eq_true', List.contains_eq_mem, decide_eq_false_iff_not] at hfree
  exact hfree hc

theorem not_mem_of_isCanonicalValue {value : List Char} (h : isCanonicalValue value) {c : Char}
    (hc : c ∈ ['\x22', '=', '<', '>']) : c ∉ value := by
  intro hmem
  have hall := List.all_eq_true.mp h c hmem
  rw [Bool.not_eq_true', List.contains_eq_mem, decide_eq_false_iff_not] at hall
  exact hall hc

variable (hname : isCanonicalName name)
include hname

theorem passes_value {value : List Char} (hvalue : '=' ∉ value) (rest : List Char) :
    Passes name ('\x22' :: rest) value := by
  induction value with
  | nil => trivial
  | cons c cs ih =>
    rw [List.mem_cons, not_or] at hvalue
    have hquote := not_mem_of_isCanonicalName hname (c := '\x22') (by decide)
    exact ⟨beginsAttribute_eq_false (by decide) (by decide) hquote hvalue.2 c, ih hvalue.2⟩

/-- The search passes over an attribute with another name. -/
theorem CanonicalAttribute.passes {a : CanonicalAttribute} (hne : a.name ≠ name)
    (rest : List Char) : Passes name rest a.text := by
  have hequals := not_mem_of_isCanonicalName a.name_canonical (c := '=') (by decide)
  have hvalue := not_mem_of_isCanonicalValue a.value_canonical (c := '=') (by decide)
  have hblank : ∀ c ∈ a.name.toList, Text.isBlank c = false :=
    fun _ hc => isBlank_of_isCanonicalName a.name_canonical hc
  have hquoted : Passes name rest ('=' :: '\x22' :: (a.value ++ ['\x22'])) :=
    .cons (by decide) (.cons (by decide)
      (.append (passes_value hname hvalue rest) (.cons (by decide) trivial)))
  have htext : a.text = ' ' :: (a.name.toList ++ '=' :: '\x22' :: (a.value ++ ['\x22'])) := by
    simp [CanonicalAttribute.text, writtenAttribute]
  rw [htext]
  refine ⟨?_, .append (.of_not_blank hblank) hquoted⟩
  rw [List.append_assoc, Bool.eq_false_iff]
  intro hbegins
  have hsame := eq_of_beginsAttribute (not_mem_of_isCanonicalName hname (by decide)) hequals hblank
    hbegins
  exact hne (String.toList_inj.mp hsame)

theorem passes_attributes {attributes : List CanonicalAttribute}
    (h : ∀ a ∈ attributes, a.name ≠ name) (rest : List Char) :
    Passes name rest (attributes.flatMap (·.text)) := by
  induction attributes with
  | nil => trivial
  | cons a attributes ih =>
    obtain ⟨ha, hothers⟩ := List.forall_mem_cons.mp h
    exact (a.passes hname ha _).append (ih hothers)

theorem CanonicalTag.passes (t : CanonicalTag) {u : List CanonicalAttribute}
    (hu : ∀ a ∈ u, a.name ≠ name) (rest : List Char) :
    Passes name rest ('<' :: (t.element.toList ++ u.flatMap (·.text))) := by
  have hblank : ∀ c ∈ t.element.toList, Text.isBlank c = false := by
    have hall : t.element.toList.all (!Text.isBlank ·) = true := by
      obtain h | h := t.element_known <;>
      · rw [h]
        decide
    simpa using hall
  exact .cons (by decide) (.append (.of_not_blank hblank) (passes_attributes hname hu rest))

theorem CanonicalTag.findAttribute?_eq_none {t : CanonicalTag}
    (h : ∀ a ∈ t.attributes, a.name ≠ name) : findAttribute? name t.text = none := by
  have hending : Passes name [] t.ending := by
    refine .of_not_blank ?_
    have hall : t.ending.all (!Text.isBlank ·) = true := by
      unfold ending
      cases t.closed <;> decide
    simpa using hall
  have hall := (t.passes hname h (t.ending ++ [])).append hending
  have htext : t.text =
      '<' :: (t.element.toList ++ t.attributes.flatMap (·.text)) ++ t.ending ++ [] := by
    simp [text]
  rw [htext, findAttribute?_append hall]
  rfl

end

theorem CanonicalAttribute.attributeHead?_text (a : CanonicalAttribute) (rest : List Char) :
    attributeHead? a.name (a.text ++ rest) = some (a.value, rest) := by
  have hquote := not_mem_of_isCanonicalValue a.value_canonical (c := '\x22') (by decide)
  have htext : a.text ++ rest =
      ' ' :: (a.name.toList ++ '=' :: '\x22' :: (a.value ++ '\x22' :: rest)) := by
    simp [text, writtenAttribute]
  have hbegins : a.name.toList.isPrefixOf
      (a.name.toList ++ '=' :: '\x22' :: (a.value ++ '\x22' :: rest)) := by
    rw [List.isPrefixOf_iff_prefix]
    exact List.prefix_append ..
  rw [htext, attributeHead?, if_pos (by simp [hbegins, show Text.isBlank ' ' = true by decide]),
    ← String.length_toList, List.drop_left]
  exact splitAtChar_append hquote rest

theorem CanonicalTag.findAttribute?_eq_some {t : CanonicalTag} {u w : List CanonicalAttribute}
    {b : CanonicalAttribute} (hattributes : t.attributes = u ++ b :: w)
    (hu : ∀ x ∈ u, x.name ≠ b.name) : findAttribute? b.name t.text =
      some ⟨'<' :: (t.element.toList ++ u.flatMap (·.text)), b.value,
        w.flatMap (·.text) ++ t.ending⟩ := by
  have hpasses := t.passes b.name_canonical hu (b.text ++ (w.flatMap (·.text) ++ t.ending))
  have htext : t.text = '<' :: (t.element.toList ++ u.flatMap (·.text)) ++
      (b.text ++ (w.flatMap (·.text) ++ t.ending)) := by
    simp [text, hattributes]
  rw [htext, findAttribute?_append hpasses]
  have hfound : findAttribute? b.name (b.text ++ (w.flatMap (·.text) ++ t.ending)) =
      some ⟨[], b.value, w.flatMap (·.text) ++ t.ending⟩ := by
    have hhead := b.attributeHead?_text (w.flatMap (·.text) ++ t.ending)
    obtain ⟨c, cs, hcs⟩ : ∃ c cs, b.text ++ (w.flatMap (·.text) ++ t.ending) = c :: cs :=
      ⟨' ', _, rfl⟩
    rw [hcs] at hhead ⊢
    rw [findAttribute?, hhead]
  rw [hfound]
  simp

/-! ## Edits of a canonical tag -/

namespace CanonicalTag

theorem attributeValue?_text (t : CanonicalTag) {name : String} (hname : isCanonicalName name) :
    attributeValue? name t.text = t.value? name := by
  obtain hnone | ⟨u, b, w, hattributes, rfl, hu⟩ := find?_name_cases t.attributes name
  · have hfind : t.attributes.find? (·.name == name) = none := by simpa using hnone
    rw [attributeValue?, findAttribute?_eq_none hname hnone, value?, hfind]
    rfl
  · rw [attributeValue?, findAttribute?_eq_some hattributes hu]
    refine (value?_of_mem ?_).symm
    simp [hattributes]

/-- A tag up to its end. -/
def body (t : CanonicalTag) : List Char :=
  '<' :: (t.element.toList ++ t.attributes.flatMap (·.text))

theorem text_eq (t : CanonicalTag) : t.text = t.body ++ t.ending := by
  simp [text, body]

theorem exists_last (t : CanonicalTag) :
    ∃ front c, t.body = front ++ [c] ∧ Text.isBlank c = false ∧ c ≠ '/' := by
  obtain hnil | ⟨u, a, hattributes⟩ := List.eq_nil_or_concat t.attributes
  · obtain h | h := t.element_known
    · exact ⟨['<', 's', 'v'], 'g', by simp [body, hnil, h], by decide, by decide⟩
    · exact ⟨['<', 'r', 'e', 'c'], 't', by simp [body, hnil, h], by decide, by decide⟩
  · refine ⟨'<' :: (t.element.toList ++ u.flatMap (·.text)) ++
      ' ' :: (a.name.toList ++ '=' :: '\x22' :: a.value), '\x22', ?_, by decide, by decide⟩
    simp [body, hattributes, CanonicalAttribute.text, writtenAttribute]

theorem tagEndLength_text (t : CanonicalTag) : tagEndLength t.text = t.ending.length := by
  rw [t.text_eq, ending]
  cases t.closed with
  | true => exact tagEndLength_closed _
  | false =>
    obtain ⟨front, c, hbody, -, hc⟩ := t.exists_last
    have hlength := tagEndLength_opened front hc
    simpa [hbody] using hlength

/-- Setting an attribute in the text is setting it in the list. -/
theorem setAttribute_text (t : CanonicalTag) (a : CanonicalAttribute) :
    setAttribute a.name a.value t.text = (t.assign a).text := by
  obtain hnone | ⟨u, b, w, hattributes, hb, hu⟩ := find?_name_cases t.attributes a.name
  · have hlength : t.text.length - t.ending.length = t.body.length := by
      rw [t.text_eq, List.length_append, Nat.add_sub_cancel]
    have hbody : Text.dropTrailingBlanks t.body = t.body := by
      obtain ⟨front, c, hfront, hc, -⟩ := t.exists_last
      refine Text.dropTrailingBlanks_eq_self fun d hd => ?_
      rw [hfront, List.getLast?_concat] at hd
      cases hd
      exact hc
    rw [setAttribute, findAttribute?_eq_none a.name_canonical hnone]
    dsimp only
    rw [t.tagEndLength_text, hlength, t.text_eq, List.take_left, List.drop_left, hbody]
    simp [text, body, assign, ending, assignAttribute_of_forall_ne hnone, CanonicalAttribute.text]
  · have hdistinct := hattributes ▸ t.names_distinct
    rw [setAttribute, ← hb, findAttribute?_eq_some hattributes (hb ▸ hu), hb]
    simp [text, assign, ending, hattributes, assignAttribute_append_cons hdistinct hb,
      CanonicalAttribute.text]

theorem setAttribute_setAttribute (t : CanonicalTag) (a : CanonicalAttribute) :
    setAttribute a.name a.value (setAttribute a.name a.value t.text) =
      setAttribute a.name a.value t.text := by
  have hmem : a ∈ (t.assign a).attributes := mem_assignAttribute_self t.names_distinct
  rw [t.setAttribute_text, (t.assign a).setAttribute_text, assign_of_mem hmem]

end CanonicalTag

/-! ## Declarations of a style -/

theorem cutAt_append_cons {mark : Char} {text : List Char} (h : mark ∉ text) (rest : List Char) :
    Text.cutAt mark (text ++ mark :: rest) = text :: Text.cutAt mark rest := by
  induction text with
  | nil => simp [Text.cutAt]
  | cons c cs ih =>
    rw [List.mem_cons, not_or] at h
    rw [List.cons_append, Text.cutAt, if_neg (Ne.symm h.1), ih h.2]

theorem mark_not_mem_of_mem_cutAt {mark : Char} {text part : List Char}
    (h : part ∈ Text.cutAt mark text) : mark ∉ part := by
  induction text generalizing part with
  | nil =>
    cases List.mem_singleton.mp h
    exact List.not_mem_nil
  | cons c cs ih =>
    by_cases hc : c = mark
    · rw [Text.cutAt, if_pos hc] at h
      cases h with
      | head => exact List.not_mem_nil
      | tail _ h => exact ih h
    · obtain ⟨first, rest, hcut, hmore⟩ := cutAt_cons_of_ne hc cs
      rw [hmore] at h
      rw [hcut] at ih
      cases h with
      | head => simpa [Ne.symm hc] using ih List.mem_cons_self
      | tail _ h => exact ih (List.mem_cons_of_mem first h)

theorem joinDeclarations_eq (declarations : List (List Char)) :
    joinDeclarations declarations = [';'].intercalate declarations := by
  induction declarations with
  | nil => rfl
  | cons d rest ih =>
    cases rest with
    | nil => simp [joinDeclarations]
    | cons e rest =>
      rw [List.intercalate_cons_cons, ← ih]
      simp [joinDeclarations]

theorem cutAt_joinDeclarations {declarations : List (List Char)} (hne : declarations ≠ [])
    (h : ∀ d ∈ declarations, ';' ∉ d) :
    Text.cutAt ';' (joinDeclarations declarations) = declarations := by
  induction declarations with
  | nil => exact absurd rfl hne
  | cons d rest ih =>
    obtain ⟨hd, hrest⟩ := List.forall_mem_cons.mp h
    cases rest with
    | nil => exact cutAt_of_not_mem hd
    | cons e rest =>
      have hjoin : joinDeclarations (d :: e :: rest) = d ++ ';' :: joinDeclarations (e :: rest) :=
        rfl
      rw [hjoin, cutAt_append_cons hd, ih (by simp) hrest]

section

variable {style declaration : List Char}

theorem mem_keptDeclarations (h : declaration ∈ keptDeclarations style) :
    ';' ∉ declaration ∧ Text.trimChars declaration = declaration ∧ declaration ≠ [] ∧
      isOverridden declaration = false := by
  obtain ⟨h, hkept⟩ := List.mem_filter.mp h
  obtain ⟨h, hne⟩ := List.mem_filter.mp h
  obtain ⟨part, hpart, rfl⟩ := List.mem_map.mp h
  have hmark : ';' ∉ Text.trimChars part := fun hmem => mark_not_mem_of_mem_cutAt hpart
    ((List.dropWhile_sublist _).mem (mem_of_mem_dropTrailingBlanks hmem))
  exact ⟨hmark, (Text.isTrimmed_trimChars part).trimChars_eq, by simpa using hne,
    by simpa using hkept⟩

theorem mem_addedDeclarations (h : declaration ∈ addedDeclarations) :
    ';' ∉ declaration ∧ Text.trimChars declaration = declaration ∧ declaration ≠ [] ∧
      isOverridden declaration = true := by
  have hall : (addedDeclarations.all fun d => !d.contains ';' && Text.trimChars d == d &&
      !d.isEmpty && isOverridden d) = true := by decide
  simpa [and_assoc] using List.all_eq_true.mp hall declaration h

/-- A rewritten style has the declarations that are kept, and behind them those that are added. -/
theorem cutAt_restyled (style : List Char) :
    Text.cutAt ';' (restyled style) = keptDeclarations style ++ addedDeclarations := by
  refine cutAt_joinDeclarations (by simp [addedDeclarations, rootStyle]) fun d hd => ?_
  obtain hd | hd := List.mem_append.mp hd
  · exact (mem_keptDeclarations hd).1
  · exact (mem_addedDeclarations hd).1

theorem keptDeclarations_restyled (style : List Char) :
    keptDeclarations (restyled style) = keptDeclarations style := by
  have htrim : (keptDeclarations style ++ addedDeclarations).map Text.trimChars =
      keptDeclarations style ++ addedDeclarations := by
    refine (List.map_congr_left fun d hd => ?_).trans (List.map_id' _)
    obtain hd | hd := List.mem_append.mp hd
    · exact (mem_keptDeclarations hd).2.1
    · exact (mem_addedDeclarations hd).2.1
  have hempty : (keptDeclarations style ++ addedDeclarations).filter (!·.isEmpty) =
      keptDeclarations style ++ addedDeclarations := by
    refine List.filter_eq_self.mpr fun d hd => ?_
    obtain hd | hd := List.mem_append.mp hd
    · simpa using (mem_keptDeclarations hd).2.2.1
    · simpa using (mem_addedDeclarations hd).2.2.1
  have hkept : (keptDeclarations style).filter (!isOverridden ·) = keptDeclarations style :=
    List.filter_eq_self.mpr fun d hd => by simp [(mem_keptDeclarations hd).2.2.2]
  have hadded : addedDeclarations.filter (!isOverridden ·) = [] :=
    List.filter_eq_nil_iff.mpr fun d hd => by simp [(mem_addedDeclarations hd).2.2.2]
  rw [keptDeclarations, cutAt_restyled, htrim, hempty, List.filter_append, hkept, hadded,
    List.append_nil]

theorem restyled_restyled (style : List Char) : restyled (restyled style) = restyled style := by
  rw [restyled, keptDeclarations_restyled, ← restyled]

theorem isCanonicalValue_restyled (h : isCanonicalValue style) :
    isCanonicalValue (restyled style) := by
  have hadded : (addedDeclarations.all isCanonicalValue) = true := by decide
  refine List.all_eq_true.mpr fun c hc => ?_
  obtain rfl | hc | ⟨d, hd, hcd⟩ := mem_restyled hc
  · decide
  · exact List.all_eq_true.mp h c hc
  · exact List.all_eq_true.mp (List.all_eq_true.mp hadded d hd) c hcd

/-- Whether a declaration sets a property, in whatever case the property is written. -/
def setsProperty (property : String) (declaration : List Char) : Bool :=
  (propertyOf declaration).map Char.toLower == property.toList

/-- A rewritten style, from its declarations. -/
theorem restyled_eq (style : List Char) : restyled style = [';'].intercalate
    ((((Text.cutAt ';' style).map Text.trimChars).filter fun d =>
        !d.isEmpty && rootStyle.all fun entry => !setsProperty entry.1 d) ++
      rootStyle.map fun entry => entry.1.toList ++ ':' :: entry.2.toList) := by
  have hkept (d : List Char) : (!isOverridden d && !d.isEmpty) =
      (!d.isEmpty && rootStyle.all fun entry => !setsProperty entry.1 d) := by
    rw [Bool.and_comm, isOverridden, List.not_any_eq_all_not]
    rfl
  rw [restyled, joinDeclarations_eq, keptDeclarations, List.filter_filter]
  simp only [hkept]
  rfl

/-- Each property of the root's style is set once. -/
theorem filter_setsProperty {entry : String × String} (hentry : entry ∈ rootStyle) :
    (Text.cutAt ';' (restyled style)).filter (setsProperty entry.1) =
      [entry.1.toList ++ ':' :: entry.2.toList] := by
  have hkept : (keptDeclarations style).filter (setsProperty entry.1) = [] := by
    refine List.filter_eq_nil_iff.mpr fun d hd hsets => ?_
    have hnot := List.any_eq_false.mp (mem_keptDeclarations hd).2.2.2 entry hentry
    exact hnot hsets
  have hadded : (rootStyle.all fun entry => addedDeclarations.filter (setsProperty entry.1) ==
      [entry.1.toList ++ ':' :: entry.2.toList]) = true := by decide
  rw [cutAt_restyled, List.filter_append, hkept, List.nil_append]
  exact eq_of_beq (List.all_eq_true.mp hadded entry hentry)

end

namespace CanonicalTag

/-- The style that the root with this tag gets. -/
def style (t : CanonicalTag) : CanonicalAttribute where
  name := "style"
  value := restyled ((t.value? "style").getD [])
  name_canonical := by decide
  value_canonical := by
    refine isCanonicalValue_restyled ?_
    cases hfind : t.attributes.find? (·.name == "style") with
    | none => simp [value?, hfind, isCanonicalValue]
    | some a => simpa [value?, hfind] using a.value_canonical

theorem restyleRoot_text (t : CanonicalTag) : restyleRoot t.text = (t.assign t.style).text := by
  rw [restyleRoot, t.attributeValue?_text (by decide)]
  exact t.setAttribute_text t.style

theorem style_assign_style (t : CanonicalTag) : (t.assign t.style).style = t.style := by
  have hvalue : (t.assign t.style).value? "style" = some t.style.value :=
    value?_of_mem (a := t.style) (mem_assignAttribute_self t.names_distinct)
  refine CanonicalAttribute.ext rfl ?_
  change restyled (((t.assign t.style).value? "style").getD []) = t.style.value
  rw [hvalue]
  exact restyled_restyled _

theorem restyleRoot_restyleRoot (t : CanonicalTag) :
    restyleRoot (restyleRoot t.text) = restyleRoot t.text := by
  have hmem : t.style ∈ (t.assign t.style).attributes :=
    mem_assignAttribute_self t.names_distinct
  rw [t.restyleRoot_text, restyleRoot_text, style_assign_style, assign_of_mem hmem]

/-- A paint that shows nothing. -/
def noPaint (name : String) (hname : isCanonicalName name) : CanonicalAttribute where
  name := name
  value := "transparent".toList
  name_canonical := hname
  value_canonical := by decide

theorem clearRect_clearRect (t : CanonicalTag) :
    clearRect (clearRect t.text) = clearRect t.text := by
  let fill := noPaint "fill" (by decide)
  let stroke := noPaint "stroke" (by decide)
  have hclear (t : CanonicalTag) : clearRect t.text = ((t.assign fill).assign stroke).text := by
    rw [← setAttribute_text, ← setAttribute_text]
    rfl
  have hfill : fill ∈ ((t.assign fill).assign stroke).attributes :=
    mem_assignAttribute_of_ne (mem_assignAttribute_self t.names_distinct) (by decide)
  have hstroke : stroke ∈ ((t.assign fill).assign stroke).attributes :=
    mem_assignAttribute_self (t.assign fill).names_distinct
  rw [hclear, hclear, assign_of_mem hfill, assign_of_mem hstroke]

end CanonicalTag

/-- On canonical tags the edits are updates of the list of attributes, and doing one twice is doing
it once. The style that a root gets is made of its own declarations, but for those that set a
property of the root's style, and of the root's style, each property of which it sets once. -/
theorem canonical_tags_edited_as_lists (t : CanonicalTag) :
    (∀ a : CanonicalAttribute,
      setAttribute a.name a.value t.text = (t.assign a).text ∧
      attributeValue? a.name t.text = t.value? a.name ∧
      setAttribute a.name a.value (setAttribute a.name a.value t.text) =
        setAttribute a.name a.value t.text) ∧
    (∃ style : CanonicalAttribute, style.name = "style" ∧
      style.value = [';'].intercalate
        ((((Text.cutAt ';' ((t.value? "style").getD [])).map Text.trimChars).filter fun d =>
            !d.isEmpty && rootStyle.all fun entry => !setsProperty entry.1 d) ++
          rootStyle.map fun entry => entry.1.toList ++ ':' :: entry.2.toList) ∧
      restyleRoot t.text = (t.assign style).text ∧
      ∀ entry ∈ rootStyle, (Text.cutAt ';' style.value).filter (setsProperty entry.1) =
        [entry.1.toList ++ ':' :: entry.2.toList]) ∧
    restyleRoot (restyleRoot t.text) = restyleRoot t.text ∧
    clearRect (clearRect t.text) = clearRect t.text := by
  refine ⟨fun a => ⟨t.setAttribute_text a, t.attributeValue?_text a.name_canonical,
      t.setAttribute_setAttribute a⟩, ⟨t.style, rfl, restyled_eq _, t.restyleRoot_text, ?_⟩,
    t.restyleRoot_restyleRoot, t.clearRect_clearRect⟩
  exact fun entry hentry => filter_setsProperty hentry

example : restyleRoot "<svg data-style=\x22a\x22 style=\x22 MARGIN : 1px;; a:b:c \x22/>".toList =
    ("<svg data-style=\x22a\x22 style=\x22a:b:c;display:block;margin:0;padding:0;width:100%;" ++
      "height:auto;background:transparent\x22/>").toList := by
  decide +kernel

end DiagramView.Markup
