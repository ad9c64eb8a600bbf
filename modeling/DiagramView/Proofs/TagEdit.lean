import DiagramView.Proofs.Normalization
import DiagramView.Proofs.Redrawing

/-!
# Setting an attribute of a tag

An attribute is set by searching the tag for something that looks like it. In a *plain* tag nothing
else looks like it, and no value holds a greater-than sign. There the search finds the attribute or
shows that there is none, and setting it gives a tag that is read with the same attributes, but the
one that was set (`StartTag.Plain.exists_assigned`).
-/

namespace DiagramView.Markup

/-! ## What looks like an attribute -/

/-- Names of attributes that are set: letters only, and none that declares a namespace. -/
def IsWord (name : String) : Prop :=
  name.toList ≠ [] ∧ (∀ c ∈ name.toList, c.isAlpha) ∧ name.toList ≠ "xmlns".toList

theorem isWord_of_check {name : String} (h : (!name.toList.isEmpty &&
    (name.toList.all Char.isAlpha && name.toList != "xmlns".toList)) = true) : IsWord name := by
  simp only [Bool.and_eq_true, List.all_eq_true, bne_iff_ne, Bool.not_eq_true'] at h
  exact ⟨List.isEmpty_eq_false_iff.mp h.1, h.2⟩

/-- Whether a text begins with a blank, the name and an equals sign, as an attribute does. -/
def beginsAttribute (name : String) : List Char → Bool
  | [] => false
  | c :: cs => Text.isBlank c && name.toList.isPrefixOf cs &&
      (Text.dropBlanks (cs.drop name.length)).head? == some '='

/-- Whether something in a text looks like an attribute. -/
def suggests (name : String) : List Char → Bool
  | [] => false
  | c :: cs => beginsAttribute name (c :: cs) || suggests name cs

theorem beginsAttribute_cons {name : String} {c : Char} {cs : List Char} :
    beginsAttribute name (c :: cs) = true ↔ Text.isBlank c = true ∧
      ∃ more, cs = name.toList ++ more ∧ (Text.dropBlanks more).head? = some '=' := by
  simp only [beginsAttribute, Bool.and_eq_true, beq_iff_eq, List.isPrefixOf_iff_prefix,
    ← String.length_toList]
  constructor
  · rintro ⟨⟨hc, more, rfl⟩, hhead⟩
    exact ⟨hc, more, rfl, by simpa using hhead⟩
  · rintro ⟨hc, more, rfl, hhead⟩
    exact ⟨⟨hc, List.prefix_append ..⟩, by simpa using hhead⟩

theorem attributeHead?_eq_none {name : String} {text : List Char}
    (h : beginsAttribute name text = false) : attributeHead? name text = none := by
  cases text with
  | nil => rfl
  | cons c cs =>
    unfold attributeHead?
    unfold beginsAttribute at h
    cases hc : Text.isBlank c && name.toList.isPrefixOf cs with
    | false => simp [hc]
    | true =>
      simp only [hc, if_true, Bool.true_and] at h ⊢
      split
      case h_1 heq => simp [heq] at h
      case h_2 => rfl

/-- The search finds nothing in a text that is followed by another. -/
def Passes (name : String) (rest : List Char) : List Char → Prop
  | [] => True
  | c :: cs => beginsAttribute name (c :: (cs ++ rest)) = false ∧ Passes name rest cs

theorem findAttribute?_append {name : String} {rest text : List Char}
    (h : Passes name rest text) :
    findAttribute? name (text ++ rest) = (findAttribute? name rest).map fun found =>
      { found with before := text ++ found.before } := by
  induction text with
  | nil => simp
  | cons c cs ih =>
    rw [List.cons_append, findAttribute?, attributeHead?_eq_none h.1, ih h.2]
    cases findAttribute? name rest <;> rfl

namespace Passes

variable {name : String} {rest text text' : List Char}

theorem append (h : Passes name (text' ++ rest) text) (h' : Passes name rest text') :
    Passes name rest (text ++ text') := by
  induction text with
  | nil => exact h'
  | cons c cs ih =>
    refine ⟨?_, ih h.2⟩
    change beginsAttribute name (c :: (cs ++ text' ++ rest)) = false
    rw [List.append_assoc]
    exact h.1

theorem cons {c : Char} (hc : Text.isBlank c = false) (h : Passes name rest text) :
    Passes name rest (c :: text) :=
  ⟨by simp [beginsAttribute, hc], h⟩

theorem of_not_blank (h : ∀ c ∈ text, Text.isBlank c = false) : Passes name rest text := by
  induction text with
  | nil => trivial
  | cons c cs ih =>
    exact .cons (h c List.mem_cons_self) (ih fun d hd => h d (List.mem_cons_of_mem c hd))

end Passes

/-- A word that a text begins with does not reach behind what stops it. -/
theorem prefix_of_prefix_append {word text rest : List Char} (hword : ∀ c ∈ word, c.isAlpha)
    (hrest : StopsClass Char.isAlpha rest) (h : word <+: text ++ rest) : word <+: text := by
  obtain h' | ⟨more, rfl⟩ := List.prefix_or_prefix_of_prefix h (List.prefix_append text rest)
  · exact h'
  · have hmore : more <+: rest := (List.prefix_append_right_inj text).mp h
    cases more with
    | nil => simp
    | cons c cs =>
      obtain ⟨tail, rfl⟩ := hmore
      have hc := hword c (by simp)
      rw [hrest c rfl] at hc
      cases hc

theorem isAlpha_of_isSpace {c : Char} (h : isSpace c) : c.isAlpha = false := by
  simp only [isSpace, Bool.or_eq_true, beq_iff_eq] at h
  obtain ((rfl | rfl) | rfl) | rfl := h <;> decide

theorem isBlank_of_isAlpha {c : Char} (h : c.isAlpha) : Text.isBlank c = false := by
  have hrange : (65 ≤ c.toNat ∧ c.toNat ≤ 90) ∨ (97 ≤ c.toNat ∧ c.toNat ≤ 122) := by
    have hcases : (decide (65 ≤ c.val ∧ c.val ≤ 90) ||
        (decide (97 ≤ c.val) && decide (c.val ≤ 122))) = true := h
    simpa [UInt32.le_iff_toNat_le] using hcases
  simp only [Text.isBlank, Text.blanks, Text.CodeRanges.has, List.any_eq_false]
  simp
  omega

theorem isBlank_of_isSpace {c : Char} (h : isSpace c) : Text.isBlank c := by
  simp only [isSpace, Bool.or_eq_true, beq_iff_eq] at h
  obtain ((rfl | rfl) | rfl) | rfl := h <;> decide

section

variable {name : String} {rest text : List Char}

theorem Passes.of_spaces (hname : IsWord name) (htext : ∀ c ∈ text, isSpace c)
    (hrest : StopsClass Char.isAlpha rest) : Passes name rest text := by
  induction text with
  | nil => trivial
  | cons c cs ih =>
    have hcs : ∀ d ∈ cs, isSpace d := fun d hd => htext d (List.mem_cons_of_mem c hd)
    refine ⟨?_, ih hcs⟩
    have hstops : StopsClass Char.isAlpha (cs ++ rest) :=
      .append (fun d hd => isAlpha_of_isSpace (hcs d hd)) hrest
    have hno : name.toList.isPrefixOf (cs ++ rest) = false := by
      rw [Bool.eq_false_iff, ne_eq, List.isPrefixOf_iff_prefix]
      intro h
      have hnil : name.toList <+: [] := prefix_of_prefix_append hname.2.1 hstops h
      exact hname.1 (List.prefix_nil.mp hnil)
    simp [beginsAttribute, hno]

/-- A value passes when nothing in it looks like the attribute. -/
theorem Passes.of_suggests (hname : IsWord name) {quote : Char}
    (hquote : quote = '\x22' ∨ quote = '\x27') (h : suggests name text = false) :
    Passes name (quote :: rest) text := by
  have hstops : StopsClass Char.isAlpha (quote :: rest) := by
    obtain rfl | rfl := hquote <;> exact .cons (by decide) _
  have hblanks : Text.dropBlanks (quote :: rest) = quote :: rest := by
    obtain rfl | rfl := hquote <;> rfl
  induction text with
  | nil => trivial
  | cons c cs ih =>
    obtain ⟨hhere, hlater⟩ := Bool.or_eq_false_iff.mp h
    refine ⟨?_, ih hlater⟩
    rw [Bool.eq_false_iff, ne_eq, beginsAttribute_cons]
    rintro ⟨hc, more, heq, hhead⟩
    have hcs : name.toList <+: cs :=
      prefix_of_prefix_append hname.2.1 hstops (heq ▸ List.prefix_append ..)
    obtain ⟨inner, rfl⟩ := hcs
    obtain rfl : inner ++ quote :: rest = more := by
      rw [List.append_assoc] at heq
      exact List.append_cancel_left heq
    rw [Text.dropBlanks, List.dropWhile_append] at hhead
    split at hhead
    case isTrue =>
      rw [← Text.dropBlanks, hblanks] at hhead
      obtain rfl | rfl := hquote <;> cases hhead
    case isFalse hinner =>
      obtain ⟨d, ds, hds⟩ := List.exists_cons_of_ne_nil fun h => hinner (List.isEmpty_iff.mpr h)
      rw [hds] at hhead
      have hequals : (Text.dropBlanks inner).head? = some '=' := by rwa [Text.dropBlanks, hds]
      exact Bool.eq_false_iff.mp hhere (beginsAttribute_cons.mpr ⟨hc, inner, rfl, hequals⟩)

end

/-! ## Plain tags -/

/-- An attribute that the search takes for what it is. -/
structure TagAttribute.Plain (name : String) (a : TagAttribute) : Prop where
  spelled_blank : ∀ c ∈ a.spelled, Text.isBlank c = false
  spelled_colon : a.spelled ≠ ':' :: name.toList
  value_mark : '>' ∉ a.value
  value_quiet : suggests name a.value = false

/-- A tag in which the search finds an attribute where it is. -/
structure StartTag.Plain (name : String) (t : StartTag) : Prop where
  spelled_blank : ∀ c ∈ t.spelled, Text.isBlank c = false
  attributes : ∀ a ∈ t.attributes, a.Plain name

section

variable {name : String} {rest : List Char}

theorem isBlank_of_quote {c : Char} (h : c = '\x22' ∨ c = '\x27') : Text.isBlank c = false := by
  obtain rfl | rfl := h <;> decide

/-- What follows the name of an attribute. -/
def WrittenAttribute.tail (a : WrittenAttribute) (rest : List Char) : List Char :=
  a.before ++ '=' :: (a.after ++ a.quote :: (a.value ++ a.quote :: rest))

theorem WrittenAttribute.text_append (a : WrittenAttribute) (rest : List Char) :
    a.text ++ rest = a.spelled ++ a.tail rest := by
  simp [WrittenAttribute.text, WrittenAttribute.tail]

theorem WrittenAttribute.stopsClass_tail (a : WrittenAttribute) (rest : List Char) :
    StopsClass Char.isAlpha (a.tail rest) :=
  .append (fun c hc => isAlpha_of_isSpace (a.before_space c hc)) (.cons (by decide) _)

theorem TagAttribute.Plain.passes_written (hname : IsWord name) {a : TagAttribute}
    (h : a.Plain name) : Passes name rest a.toWrittenAttribute.text := by
  have hquote := isBlank_of_quote a.quote_mark
  have hvalue : Passes name rest (a.quote :: (a.value ++ [a.quote])) :=
    .cons hquote (.append (.of_suggests hname a.quote_mark h.value_quiet) (.cons hquote trivial))
  have hafter : Passes name rest (a.after ++ a.quote :: (a.value ++ [a.quote])) := by
    refine .append (.of_spaces hname a.after_space ?_) hvalue
    obtain hq | hq := a.quote_mark <;>
    · rw [hq]
      exact .cons (by decide) _
  have hequals : Passes name rest
      (a.before ++ '=' :: (a.after ++ a.quote :: (a.value ++ [a.quote]))) :=
    .append (.of_spaces hname a.before_space (.cons (by decide) _)) (.cons (by decide) hafter)
  exact .append (.of_not_blank h.spelled_blank) hequals

/-- What stands behind the last blank before an attribute with another name does not look like
the attribute that is searched. -/
theorem TagAttribute.Plain.beginsAttribute_eq (hname : IsWord name) {a : TagAttribute}
    (h : a.Plain name) (hother : a.spelled ≠ name.toList) (c : Char) :
    beginsAttribute name (c :: (a.toWrittenAttribute.text ++ rest)) = false := by
  rw [Bool.eq_false_iff, ne_eq, beginsAttribute_cons, a.text_append]
  rintro ⟨-, more, heq, hhead⟩
  obtain ⟨inner, hinner⟩ : name.toList <+: a.spelled :=
    prefix_of_prefix_append hname.2.1 (a.stopsClass_tail rest) (heq ▸ List.prefix_append ..)
  cases inner with
  | nil => exact hother (by rw [← hinner, List.append_nil])
  | cons d ds =>
    have hd : d ∈ a.spelled := by simp [← hinner]
    obtain rfl : d :: ds ++ a.tail rest = more := by
      rw [← hinner, List.append_assoc] at heq
      exact List.append_cancel_left heq
    rw [List.cons_append, Text.dropBlanks,
      List.dropWhile_cons_of_neg (by simp [h.spelled_blank d hd])] at hhead
    cases hhead
    exact absurd (a.spelled_char '=' hd) (by decide)

theorem TagAttribute.exists_gap (a : TagAttribute) :
    ∃ gap c, a.gap = gap ++ [c] ∧ (∀ d ∈ gap, isSpace d) ∧ isSpace c := by
  refine ⟨a.gap.dropLast, a.gap.getLast a.gap_ne, (List.dropLast_concat_getLast a.gap_ne).symm, ?_,
    a.gap_space _ (List.getLast_mem a.gap_ne)⟩
  exact fun d hd => a.gap_space d (List.dropLast_subset a.gap hd)

/-- An attribute with another name passes. -/
theorem TagAttribute.Plain.passes (hname : IsWord name) {a : TagAttribute} (h : a.Plain name)
    (hother : a.spelled ≠ name.toList) : Passes name rest a.text := by
  obtain ⟨gap, c, hgap, hspaces, hc⟩ := a.exists_gap
  have hbefore : Passes name (c :: (a.toWrittenAttribute.text ++ rest)) gap :=
    .of_spaces hname hspaces (.cons (isAlpha_of_isSpace hc) _)
  rw [TagAttribute.text, hgap, List.append_assoc]
  exact hbefore.append ⟨h.beginsAttribute_eq hname hother c, h.passes_written hname⟩

theorem dropBlanks_append {blanks : List Char} (hblanks : ∀ c ∈ blanks, isSpace c) {c : Char}
    (hc : Text.isBlank c = false) (rest : List Char) :
    Text.dropBlanks (blanks ++ c :: rest) = c :: rest := by
  rw [Text.dropBlanks, List.dropWhile_append_of_pos fun d hd => isBlank_of_isSpace (hblanks d hd),
    List.dropWhile_cons_of_neg (by simp [hc])]

theorem splitAtChar_append {mark : Char} {text : List Char} (h : mark ∉ text) (rest : List Char) :
    splitAtChar mark (text ++ mark :: rest) = some (text, rest) := by
  induction text with
  | nil => simp [splitAtChar]
  | cons c cs ih =>
    rw [List.mem_cons, not_or] at h
    simp [splitAtChar, Ne.symm h.1, ih h.2]

/-- The attribute that is searched is found behind the last blank before it. -/
theorem attributeHead?_text {a : TagAttribute} (hspelled : a.spelled = name.toList) {c : Char}
    (hc : isSpace c) : attributeHead? name (c :: (a.toWrittenAttribute.text ++ rest)) =
      some (a.value, rest) := by
  have hvalue : a.quote ∉ a.value := fun h => (a.value_char _ h).2.1 rfl
  have hquoted : quotedValue? (a.quote :: (a.value ++ a.quote :: rest)) = some (a.value, rest) := by
    obtain hq | hq := a.quote_mark <;>
    · rw [hq] at hvalue ⊢
      exact splitAtChar_append hvalue rest
  have hbegins : name.toList.isPrefixOf (name.toList ++ a.tail rest) := by
    rw [List.isPrefixOf_iff_prefix]
    exact List.prefix_append ..
  rw [a.text_append, hspelled, attributeHead?, if_pos (by simp [isBlank_of_isSpace hc, hbegins]),
    ← String.length_toList, List.drop_left, WrittenAttribute.tail,
    dropBlanks_append a.before_space (by decide)]
  change quotedValue? (Text.dropBlanks (a.after ++ a.quote :: (a.value ++ a.quote :: rest))) = _
  rw [dropBlanks_append a.after_space (isBlank_of_quote a.quote_mark), hquoted]

theorem StartTag.tail_append (u w : List TagAttribute) (gap : List Char) (tagEnd : TagEnd) :
    StartTag.tail (u ++ w) gap tagEnd = u.flatMap (·.text) ++ StartTag.tail w gap tagEnd := by
  simp [StartTag.tail]

theorem passes_flatMap (hname : IsWord name) {attributes : List TagAttribute}
    (h : ∀ a ∈ attributes, a.Plain name ∧ a.spelled ≠ name.toList) :
    Passes name rest (attributes.flatMap (·.text)) := by
  induction attributes with
  | nil => trivial
  | cons a attributes ih =>
    obtain ⟨hplain, hother⟩ := h a List.mem_cons_self
    exact (hplain.passes hname hother).append (ih fun x hx => h x (List.mem_cons_of_mem a hx))

/-- What a tag begins with passes. -/
theorem StartTag.Plain.passes (hname : IsWord name) {t : StartTag} (h : t.Plain name)
    {u : List TagAttribute} (hu : ∀ a ∈ u, a ∈ t.attributes ∧ a.spelled ≠ name.toList) :
    Passes name rest ('<' :: (t.spelled ++ u.flatMap (·.text))) := by
  refine .cons (by decide) (.append (.of_not_blank h.spelled_blank) (passes_flatMap hname ?_))
  exact fun a ha => ⟨h.attributes a (hu a ha).1, (hu a ha).2⟩

theorem StartTag.Plain.findAttribute?_eq_none (hname : IsWord name) {t : StartTag}
    (h : t.Plain name) (hother : ∀ a ∈ t.attributes, a.spelled ≠ name.toList) :
    findAttribute? name t.text = none := by
  have hstops : StopsClass Char.isAlpha t.tagEnd.text := by
    cases t.tagEnd with
    | opened => exact .cons (by decide) _
    | closed => exact .cons (by decide) _
    | missing => rintro c ⟨⟩
  have hmark : ∀ c ∈ t.tagEnd.text, Text.isBlank c = false := by
    have hall : t.tagEnd.text.all (!Text.isBlank ·) = true := by cases t.tagEnd <;> decide
    simpa using hall
  have hend : Passes name [] (t.gap ++ t.tagEnd.text) :=
    .append (.of_spaces hname t.gap_space (by rwa [List.append_nil])) (.of_not_blank hmark)
  have hall := (h.passes hname fun a ha => ⟨ha, hother a ha⟩).append hend
  have htext : t.text = '<' :: (t.spelled ++ t.attributes.flatMap (·.text)) ++
      (t.gap ++ t.tagEnd.text) ++ [] := by
    simp [StartTag.text, StartTag.tail]
  rw [htext, findAttribute?_append hall]
  rfl

theorem StartTag.Plain.findAttribute?_eq_some (hname : IsWord name) {t : StartTag}
    (h : t.Plain name) {u w : List TagAttribute} {a : TagAttribute}
    (hattributes : t.attributes = u ++ a :: w) (ha : a.spelled = name.toList)
    (hu : ∀ x ∈ u, x.spelled ≠ name.toList) {gap : List Char} {c : Char}
    (hgap : a.gap = gap ++ [c]) : findAttribute? name t.text =
      some ⟨'<' :: (t.spelled ++ u.flatMap (·.text)) ++ gap, a.value,
        StartTag.tail w t.gap t.tagEnd⟩ := by
  have hspaces : ∀ d ∈ gap, isSpace d := fun d hd => a.gap_space d (by simp [hgap, hd])
  have hc : isSpace c := a.gap_space c (by simp [hgap])
  have hu' : ∀ x ∈ u, x ∈ t.attributes ∧ x.spelled ≠ name.toList :=
    fun x hx => ⟨by simp [hattributes, hx], hu x hx⟩
  have hbefore : Passes name (c :: (a.toWrittenAttribute.text ++ StartTag.tail w t.gap t.tagEnd))
      ('<' :: (t.spelled ++ u.flatMap (·.text)) ++ gap) :=
    .append (h.passes hname hu') (.of_spaces hname hspaces (.cons (isAlpha_of_isSpace hc) _))
  have htext : t.text = '<' :: (t.spelled ++ u.flatMap (·.text)) ++ gap ++
      c :: (a.toWrittenAttribute.text ++ StartTag.tail w t.gap t.tagEnd) := by
    rw [StartTag.text, hattributes, StartTag.tail_append, StartTag.tail_cons, TagAttribute.text,
      hgap]
    simp
  rw [htext, findAttribute?_append hbefore, findAttribute?, attributeHead?_text ha hc]
  simp

end

/-! ## Tags with an attribute set -/

/-- A value that stands for itself between double quotation marks. -/
def IsLiteral (value : List Char) : Prop :=
  ∀ c ∈ value, isDocumentChar c ∧ c ≠ '\x22' ∧ c ≠ '<' ∧ c ≠ '&'

theorem IsLiteral.ampersand_not_mem {value : List Char} (h : IsLiteral value) : '&' ∉ value :=
  fun hmem => (h '&' hmem).2.2.2 rfl

theorem isLiteral_of_check {value : List Char} (h : (value.all fun c =>
    isDocumentChar c && (c != '\x22' && (c != '<' && c != '&'))) = true) : IsLiteral value := by
  simpa only [IsLiteral, List.all_eq_true, Bool.and_eq_true, bne_iff_ne] using h

theorem cutAt_of_not_mem {mark : Char} {text : List Char} (h : mark ∉ text) :
    Text.cutAt mark text = [text] := by
  induction text with
  | nil => rfl
  | cons c cs ih =>
    rw [List.mem_cons, not_or] at h
    simp [Text.cutAt, Ne.symm h.1, ih h.2]

theorem cutAt_ne_nil (mark : Char) (text : List Char) : Text.cutAt mark text ≠ [] := by
  cases text with
  | nil => simp [Text.cutAt]
  | cons c cs =>
    unfold Text.cutAt
    split
    case isTrue => simp
    case isFalse => split <;> simp

theorem intercalate_cutAt (mark : Char) (text : List Char) :
    [mark].intercalate (Text.cutAt mark text) = text := by
  induction text with
  | nil => rfl
  | cons c cs ih =>
    obtain ⟨part, rest, hcut⟩ := List.exists_cons_of_ne_nil (cutAt_ne_nil mark cs)
    by_cases hc : c = mark
    · rw [Text.cutAt, if_pos hc, hcut, List.intercalate_cons_cons, ← hcut, ih, hc]
      rfl
    · rw [Text.cutAt, if_neg hc, hcut]
      dsimp only
      rw [hcut] at ih
      cases rest with
      | nil => simpa using ih
      | cons part' rest =>
        rw [List.intercalate_cons_cons] at ih ⊢
        rw [List.cons_append, List.cons_append, ih]

section

variable {name : String} {value : List Char}

/-- A name without a part before its colon is written as it is, or with a colon before it. -/
theorem spelled_of_qname? {spelled part : List Char} (h : qname? spelled = some ⟨[], part⟩) :
    spelled = part ∨ spelled = ':' :: part := by
  simp only [qname?] at h
  split at h
  case h_1 all hcut =>
    obtain ⟨-, heq⟩ := Option.ite_none_right_eq_some.mp h
    cases heq
    have hjoined := intercalate_cutAt ':' spelled
    rw [hcut] at hjoined
    exact .inl (by simpa using hjoined.symm)
  case h_2 space all hcut =>
    obtain ⟨-, heq⟩ := Option.ite_none_right_eq_some.mp h
    cases heq
    have hjoined := intercalate_cutAt ':' spelled
    rw [hcut] at hjoined
    exact .inr (by simpa using hjoined.symm)
  case h_3 => cases h

theorem IsWord.isNameStart (h : IsWord name) {c : Char} (hc : c ∈ name.toList) : isNameStart c := by
  simp [Markup.isNameStart, h.2.1 c hc]

theorem IsWord.qname?_eq (h : IsWord name) : qname? name.toList = some ⟨[], name.toList⟩ := by
  have hcolon : ':' ∉ name.toList := fun hc => absurd (h.2.1 ':' hc) (by decide)
  obtain ⟨c, cs, hcs⟩ := List.exists_cons_of_ne_nil h.1
  have hstart : Markup.isNameStart c := h.isNameStart (by simp [hcs])
  rw [qname?, cutAt_of_not_mem hcolon]
  simp [hcs, beginsAsName, hstart]

/-- An attribute as it is set, behind the blanks that stay before it and a space. -/
def setTagAttribute (hname : IsWord name) (hvalue : IsLiteral value) (gap : List Char)
    (hgap : ∀ c ∈ gap, isSpace c) : TagAttribute where
  spelled := name.toList
  name := ⟨[], name.toList⟩
  before := []
  after := []
  quote := '\x22'
  value := value
  spelled_char c hc := isNameChar_of_isNameStart (hname.isNameStart hc)
  named := hname.qname?_eq
  before_space := by simp
  after_space := by simp
  quote_mark := .inl rfl
  value_char c hc := ⟨(hvalue c hc).1, (hvalue c hc).2.1, (hvalue c hc).2.2.1⟩
  gap := gap ++ [' ']
  gap_ne := by simp
  gap_space c hc := by
    obtain hc | hc := List.mem_append.mp hc
    · exact hgap c hc
    · cases List.mem_singleton.mp hc
      decide

theorem setTagAttribute_text (hname : IsWord name) (hvalue : IsLiteral value) (gap : List Char)
    (hgap : ∀ c ∈ gap, isSpace c) :
    (setTagAttribute hname hvalue gap hgap).text = gap ++ writtenAttribute name value := by
  simp [setTagAttribute, TagAttribute.text, WrittenAttribute.text, writtenAttribute]

/-- Attributes of which one is set: in place of the first with its name, or behind all others. -/
inductive Assigned (name : String) (value : List Char) :
    List TagAttribute → List TagAttribute → Prop
  | replaced {u w : List TagAttribute} {a a' : TagAttribute} (ha : a.name = ⟨[], name.toList⟩)
      (ha' : a'.spelled = name.toList) (hvalue : a'.value = value) :
      Assigned name value (u ++ a :: w) (u ++ a' :: w)
  | added {u : List TagAttribute} {a' : TagAttribute} (hu : ∀ x ∈ u, x.name ≠ ⟨[], name.toList⟩)
      (ha' : a'.spelled = name.toList) (hvalue : a'.value = value) :
      Assigned name value u (u ++ [a'])

/-- A tag up to the blanks before its end. -/
def StartTag.body (t : StartTag) : List Char :=
  '<' :: (t.spelled ++ t.attributes.flatMap (·.text))

theorem StartTag.text_eq (t : StartTag) : t.text = t.body ++ t.gap ++ t.tagEnd.text := by
  simp [StartTag.text, StartTag.tail, StartTag.body]

theorem StartTag.Plain.exists_last {t : StartTag} (h : t.Plain name) :
    ∃ front c, t.body = front ++ [c] ∧ Text.isBlank c = false ∧ c ≠ '/' := by
  obtain hnil | ⟨u, a, hattributes⟩ := List.eq_nil_or_concat t.attributes
  · obtain ⟨c, cs, hcs⟩ := exists_cons_of_qname t.named
    have hne : t.spelled ≠ [] := by simp [hcs]
    have hlast := List.getLast_mem hne
    refine ⟨'<' :: t.spelled.dropLast, t.spelled.getLast hne, ?_, h.spelled_blank _ hlast, ?_⟩
    · simp [StartTag.body, hnil, List.dropLast_concat_getLast]
    · intro heq
      exact absurd (heq ▸ t.spelled_char _ hlast) (by decide)
  · refine ⟨'<' :: (t.spelled ++ u.flatMap (·.text)) ++ (a.gap ++ (a.spelled ++ (a.before ++
      '=' :: (a.after ++ a.quote :: a.value)))), a.quote, ?_, isBlank_of_quote a.quote_mark, ?_⟩
    · simp [StartTag.body, hattributes, TagAttribute.text, WrittenAttribute.text]
    · obtain hq | hq := a.quote_mark <;>
      · rw [hq]
        decide

theorem tagEndLength_opened (front : List Char) {c : Char} (hc : c ≠ '/') :
    tagEndLength (front ++ [c, '>']) = 1 := by
  simp [tagEndLength, Ne.symm hc]

theorem tagEndLength_closed (front : List Char) : tagEndLength (front ++ ['/', '>']) = 2 := by
  simp [tagEndLength]

theorem StartTag.Plain.tagEndLength_eq {t : StartTag} (h : t.Plain name)
    (hend : t.tagEnd ≠ .missing) : tagEndLength t.text = t.tagEnd.text.length := by
  rw [t.text_eq]
  cases htag : t.tagEnd with
  | missing => exact absurd htag hend
  | closed => exact tagEndLength_closed _
  | opened =>
    obtain hnil | ⟨gap, d, hgap⟩ := List.eq_nil_or_concat t.gap
    · obtain ⟨front, c, hbody, -, hc⟩ := h.exists_last
      have := tagEndLength_opened front hc
      simpa [hbody, hnil, TagEnd.text] using this
    · have hd : d ≠ '/' := by
        rintro rfl
        exact absurd (t.gap_space '/' (by simp [hgap])) (by decide)
      have := tagEndLength_opened (t.body ++ gap) hd
      simpa [hgap, TagEnd.text] using this

theorem IsWord.name_eq (h : IsWord name) {a : TagAttribute} (ha : a.spelled = name.toList) :
    a.name = ⟨[], name.toList⟩ := by
  have hnamed := a.named
  rw [ha, h.qname?_eq] at hnamed
  exact (Option.some.inj hnamed).symm

theorem TagAttribute.Plain.spelled_eq {a : TagAttribute} (h : a.Plain name)
    (ha : a.name = ⟨[], name.toList⟩) : a.spelled = name.toList :=
  (spelled_of_qname? (ha ▸ a.named)).resolve_right h.spelled_colon

theorem StartTag.Plain.exists_assigned {t : StartTag} (h : t.Plain name) (hname : IsWord name)
    (hvalue : IsLiteral value) (hend : t.tagEnd ≠ .missing) :
    ∃ t' : StartTag, t'.text = setAttribute name value t.text ∧ t'.spelled = t.spelled ∧
      t'.tagEnd = t.tagEnd ∧ Assigned name value t.attributes t'.attributes := by
  cases hfind : t.attributes.find? fun a => a.spelled == name.toList with
  | some a =>
    obtain ⟨ha, u, w, hattributes, hu⟩ := List.find?_eq_some_iff_append.mp hfind
    have ha : a.spelled = name.toList := by simpa using ha
    have hu : ∀ x ∈ u, x.spelled ≠ name.toList := by simpa using hu
    obtain ⟨gap, c, hgap, hspaces, -⟩ := a.exists_gap
    let t' : StartTag := { t with attributes := u ++ setTagAttribute hname hvalue gap hspaces :: w }
    refine ⟨t', ?_, rfl, rfl, hattributes ▸ .replaced (hname.name_eq ha) rfl rfl⟩
    rw [setAttribute, h.findAttribute?_eq_some hname hattributes ha hu hgap]
    simp [t', StartTag.text, StartTag.tail_append, StartTag.tail_cons, setTagAttribute_text]
  | none =>
    have hu : ∀ x ∈ t.attributes, x.spelled ≠ name.toList := by simpa using hfind
    let t' : StartTag := { t with
      attributes := t.attributes ++ [setTagAttribute hname hvalue [] (by simp)]
      gap := []
      gap_space := by simp
      gap_missing := fun _ => rfl }
    have hu' : ∀ x ∈ t.attributes, x.name ≠ ⟨[], name.toList⟩ :=
      fun x hx heq => hu x hx ((h.attributes x hx).spelled_eq heq)
    refine ⟨t', ?_, rfl, rfl, .added hu' rfl rfl⟩
    have hlen : t.text.length - t.tagEnd.text.length = (t.body ++ t.gap).length := by
      rw [t.text_eq, List.length_append, Nat.add_sub_cancel]
    have hbody : Text.dropTrailingBlanks (t.body ++ t.gap) = t.body := by
      obtain ⟨front, c, hfront, hc, -⟩ := h.exists_last
      rw [Text.dropTrailingBlanks_append _ fun d hd => isBlank_of_isSpace (t.gap_space d hd)]
      refine Text.dropTrailingBlanks_eq_self fun d hd => ?_
      rw [hfront, List.getLast?_concat] at hd
      cases hd
      exact hc
    rw [setAttribute, h.findAttribute?_eq_none hname hu]
    dsimp only
    rw [h.tagEndLength_eq hend, hlen, t.text_eq, List.take_left, List.drop_left, hbody]
    simp [t', StartTag.text, StartTag.tail, StartTag.body, setTagAttribute_text]

end

end DiagramView.Markup
