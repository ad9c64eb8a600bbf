import DiagramView.Markup.Background
import DiagramView.Proofs.TagEdit

/-!
# Telling plain tags

Whether a tag is plain can be told from the text in which it stands (`isPlainTag`): its name and its
attributes are read off the text (`tagName`, `tagAttributes`), whatever stands behind the tag.

The start of a plain tag is searched up to the first greater-than sign, which is the end of the tag
(`StartTag.Plain.startTag?_eq`).
-/

namespace DiagramView.Markup

/-! ## The tag that a text begins with -/

/-- The name of the tag that a text begins with. -/
def tagName (text : List Char) : List Char :=
  (text.drop 1).takeWhile isNameChar

/-- The attributes that come next, each with its name as it is spelled and its value as it is
written. -/
def attributesFrom : Nat → Place → List (List Char × List Char)
  | 0, _ => []
  | bound + 1, p =>
    match readAttribute p.skipSpaces with
    | none => []
    | some (a, q) => (p.skipSpaces.rest.takeWhile isNameChar, a.2) :: attributesFrom bound q

/-- The attributes of the tag that a text begins with. -/
def tagAttributes (text : List Char) : List (List Char × List Char) :=
  attributesFrom text.length (((Place.start text).advance 1).skipWhile isNameChar)

theorem WrittenAttribute.takeWhile_text (a : WrittenAttribute) (rest : List Char) :
    (a.text ++ rest).takeWhile isNameChar = a.spelled := by
  rw [a.text_append]
  refine takeWhile_append_eq a.spelled_char (.append (fun c hc => ?_) (.cons (by decide) _))
  exact isNameChar_of_isSpace (a.before_space c hc)

theorem TagAttribute.skipSpaces_text (a : TagAttribute) (i : Nat) (rest : List Char) :
    Place.skipSpaces ⟨i, a.text ++ rest⟩ =
      ⟨i + a.gap.length, a.toWrittenAttribute.text ++ rest⟩ := by
  obtain ⟨c, cs, hspelled⟩ := exists_cons_of_qname a.named
  have hc : isNameChar c := a.spelled_char c (by simp [hspelled])
  rw [TagAttribute.text, List.append_assoc]
  refine skipWhile_append i a.gap_space ?_
  rw [WrittenAttribute.text, hspelled]
  exact .cons (isSpace_of_isNameChar hc) _

theorem attributesFrom_tail {attributes : List TagAttribute} {gap : List Char} {tagEnd : TagEnd}
    (hgap : ∀ c ∈ gap, isSpace c) (hend : tagEnd ≠ .missing) {bound : Nat}
    (hbound : attributes.length ≤ bound) (i : Nat) (rest : List Char) :
    attributesFrom bound ⟨i, StartTag.tail attributes gap tagEnd ++ rest⟩ =
      attributes.map fun a => (a.spelled, a.value) := by
  induction attributes generalizing bound i with
  | nil =>
    cases bound with
    | zero => rfl
    | succ bound =>
      have hskip {c : Char} (hc : isSpace c = false) (more : List Char) :
          Place.skipSpaces ⟨i, gap ++ c :: more⟩ = ⟨i + gap.length, c :: more⟩ :=
        skipWhile_append i hgap (.cons hc more)
      rw [attributesFrom, StartTag.tail, List.flatMap_nil, List.nil_append, List.append_assoc]
      cases tagEnd with
      | missing => exact absurd rfl hend
      | opened =>
        rw [TagEnd.text, List.singleton_append, hskip (by decide)]
        rfl
      | closed =>
        rw [TagEnd.text, List.cons_append, List.singleton_append, hskip (by decide)]
        rfl
  | cons a attributes ih =>
    obtain ⟨bound, rfl⟩ := Nat.exists_eq_add_one_of_ne_zero (Nat.ne_zero_of_lt hbound)
    rw [attributesFrom, StartTag.tail_cons, List.append_assoc, a.skipSpaces_text,
      readAttribute_text]
    dsimp only
    rw [a.takeWhile_text, ih (Nat.le_of_succ_le_succ hbound)]
    rfl

theorem StartTag.stopsClass_tail_append (t : StartTag) (hend : t.tagEnd ≠ .missing)
    (rest : List Char) :
    StopsClass isNameChar (StartTag.tail t.attributes t.gap t.tagEnd ++ rest) :=
  stopsClass_tail t.attributes t.gap_space fun h => absurd h hend

theorem StartTag.tagName_text (t : StartTag) (hend : t.tagEnd ≠ .missing) (rest : List Char) :
    tagName (t.text ++ rest) = t.spelled := by
  rw [tagName, StartTag.text, List.cons_append, List.drop_one, List.tail_cons, List.append_assoc]
  exact takeWhile_append_eq t.spelled_char (t.stopsClass_tail_append hend rest)

theorem StartTag.tagAttributes_text (t : StartTag) (hend : t.tagEnd ≠ .missing)
    (rest : List Char) :
    tagAttributes (t.text ++ rest) = t.attributes.map fun a => (a.spelled, a.value) := by
  have hplace : ((Place.start (t.text ++ rest)).advance 1).skipWhile isNameChar =
      ⟨1 + t.spelled.length, StartTag.tail t.attributes t.gap t.tagEnd ++ rest⟩ := by
    have hskip := skipWhile_append 1 t.spelled_char (t.stopsClass_tail_append hend rest)
    rw [← hskip, Place.start, Place.advance, StartTag.text]
    simp
  have hlen := t.length_attributes_lt
  rw [tagAttributes, hplace]
  refine attributesFrom_tail t.gap_space hend ?_ _ rest
  rw [List.length_append]
  omega

/-! ## Plain tags -/

/-- Whether the tag that a text begins with is plain: no name in it holds a blank, no value holds a
greater-than sign or something that looks like the attribute, and the attribute is not written with
a colon before its name. -/
def isPlainTag (name : String) (text : List Char) : Bool :=
  (tagName text).all (!Text.isBlank ·) && (tagAttributes text).all fun a =>
    a.1.all (!Text.isBlank ·) && a.1 != ':' :: name.toList &&
      !a.2.contains '>' && !suggests name a.2

section

variable {name : String} {t : StartTag}

theorem StartTag.plain_iff_isPlainTag (hend : t.tagEnd ≠ .missing) (rest : List Char) :
    t.Plain name ↔ isPlainTag name (t.text ++ rest) := by
  simp only [isPlainTag, t.tagName_text hend, t.tagAttributes_text hend, List.all_map,
    Bool.and_eq_true, List.all_eq_true, Function.comp_apply, Bool.not_eq_true', bne_iff_ne,
    List.contains_eq_mem, decide_eq_false_iff_not]
  constructor
  · rintro ⟨hspelled, hattributes⟩
    refine ⟨hspelled, fun a ha => ?_⟩
    obtain ⟨hblank, hcolon, hmark, hquiet⟩ := hattributes a ha
    exact ⟨⟨⟨hblank, hcolon⟩, hmark⟩, hquiet⟩
  · rintro ⟨hspelled, hattributes⟩
    refine ⟨hspelled, fun a ha => ?_⟩
    obtain ⟨⟨⟨hblank, hcolon⟩, hmark⟩, hquiet⟩ := hattributes a ha
    exact ⟨hblank, hcolon, hmark, hquiet⟩

theorem mark_not_mem_of_isSpace {text : List Char} (h : ∀ c ∈ text, isSpace c) : '>' ∉ text :=
  fun hmem => absurd (h '>' hmem) (by decide)

theorem mark_not_mem_of_isNameChar {text : List Char} (h : ∀ c ∈ text, isNameChar c) :
    '>' ∉ text :=
  fun hmem => absurd (h '>' hmem) (by decide)

theorem TagAttribute.Plain.mark_not_mem {a : TagAttribute} (h : a.Plain name) : '>' ∉ a.text := by
  have hquote : '>' ≠ a.quote := by
    obtain hq | hq := a.quote_mark <;>
    · rw [hq]
      decide
  simp [TagAttribute.text, WrittenAttribute.text, mark_not_mem_of_isSpace a.gap_space,
    mark_not_mem_of_isNameChar a.spelled_char, mark_not_mem_of_isSpace a.before_space,
    mark_not_mem_of_isSpace a.after_space, h.value_mark, hquote]

/-- The only greater-than sign of a plain tag is at its end. -/
theorem StartTag.Plain.exists_text (h : t.Plain name) (hend : t.tagEnd ≠ .missing) :
    ∃ inner, t.text = '<' :: (inner ++ ['>']) ∧ '>' ∉ inner := by
  have hspelled := mark_not_mem_of_isNameChar t.spelled_char
  have hgap := mark_not_mem_of_isSpace t.gap_space
  have hattributes : '>' ∉ t.attributes.flatMap (·.text) := by
    intro hmem
    obtain ⟨a, ha, hmem⟩ := List.mem_flatMap.mp hmem
    exact (h.attributes a ha).mark_not_mem hmem
  rw [StartTag.text, StartTag.tail]
  cases htag : t.tagEnd with
  | missing => exact absurd htag hend
  | opened =>
    refine ⟨t.spelled ++ (t.attributes.flatMap (·.text) ++ t.gap), by simp [TagEnd.text], ?_⟩
    simpa using ⟨hspelled, by simpa using hattributes, hgap⟩
  | closed =>
    refine ⟨t.spelled ++ (t.attributes.flatMap (·.text) ++ (t.gap ++ ['/'])),
      by simp [TagEnd.text], ?_⟩
    simpa using ⟨hspelled, by simpa using hattributes, hgap⟩

/-- An element is found only at a tag whose name begins with that of the element. -/
theorem StartTag.prefix_of_startTag? (hend : t.tagEnd ≠ .missing) {word : String}
    (hword : IsWord word) {rest tag : List Char}
    (hfound : startTag? word (t.text ++ rest) = some tag) : word.toList <+: t.spelled := by
  have hstop : StopsClass Char.isAlpha (StartTag.tail t.attributes t.gap t.tagEnd ++ rest) := by
    intro c hc
    have hname := t.stopsClass_tail_append hend rest c hc
    cases halpha : c.isAlpha with
    | false => rfl
    | true => simp [isNameChar, isNameStart, halpha] at hname
  unfold startTag? at hfound
  dsimp only at hfound
  split at hfound
  case isFalse => cases hfound
  case isTrue hopens =>
    obtain ⟨hopens, -⟩ := Bool.and_eq_true_iff.mp hopens
    refine prefix_of_prefix_append hword.2.1 hstop ?_
    simpa [StartTag.text] using List.isPrefixOf_iff_prefix.mp hopens

/-- The start of an element that is found at a plain tag is the tag. -/
theorem StartTag.Plain.startTag?_eq (h : t.Plain name) (hend : t.tagEnd ≠ .missing)
    {word : String} (hword : IsWord word) {rest tag : List Char}
    (hfound : startTag? word (t.text ++ rest) = some tag) : tag = t.text := by
  obtain ⟨inner, htext, hmark⟩ := h.exists_text hend
  rw [htext]
  rw [htext, List.cons_append, List.append_assoc, List.singleton_append] at hfound
  unfold startTag? at hfound
  dsimp only at hfound
  split at hfound
  case isFalse => cases hfound
  case isTrue hopens =>
    obtain ⟨hopens, -⟩ := Bool.and_eq_true_iff.mp hopens
    have hbegins : word.toList <+: inner ++ '>' :: rest := by
      simpa using List.isPrefixOf_iff_prefix.mp hopens
    obtain ⟨more, rfl⟩ : word.toList <+: inner :=
      prefix_of_prefix_append hword.2.1 (.cons (by decide) _) hbegins
    have hmore : '>' ∉ more := fun hmem => hmark (List.mem_append_right _ hmem)
    have hsplit := splitAtChar_append hmore rest
    simp only [List.length_cons, List.drop_succ_cons, List.append_assoc, List.drop_left,
      hsplit] at hfound
    cases hfound
    simp

theorem splitAtChar_isSome {mark : Char} {text : List Char} (h : mark ∈ text) :
    (splitAtChar mark text).isSome := by
  obtain ⟨before, after, rfl, hbefore⟩ := List.eq_append_cons_of_mem h
  rw [splitAtChar_append hbefore]
  rfl

/-- A tag goes on behind its name with a blank, or it ends there. -/
theorem StartTag.continuesWord_tail (t : StartTag) (hend : t.tagEnd ≠ .missing)
    (rest : List Char) :
    Text.continuesWord (StartTag.tail t.attributes t.gap t.tagEnd ++ rest) = false := by
  have hspace {c : Char} (hc : isSpace c) : Text.isWordChar c = false := by
    simp only [isSpace, Bool.or_eq_true, beq_iff_eq] at hc
    obtain ((rfl | rfl) | rfl) | rfl := hc <;> decide +kernel
  cases hattributes : t.attributes with
  | cons a attributes =>
    obtain ⟨c, cs, hcs⟩ := List.exists_cons_of_ne_nil a.gap_ne
    rw [StartTag.tail_cons, TagAttribute.text, hcs]
    exact hspace (a.gap_space c (by simp [hcs]))
  | nil =>
    rw [StartTag.tail, List.flatMap_nil, List.nil_append]
    cases hgap : t.gap with
    | cons c cs => exact hspace (t.gap_space c (by simp [hgap]))
    | nil =>
      cases htag : t.tagEnd with
      | missing => exact absurd htag hend
      | opened => exact (by decide +kernel : Text.isWordChar '>' = false)
      | closed => exact (by decide +kernel : Text.isWordChar '/' = false)

/-- The start of an element is found at its tag. -/
theorem StartTag.Plain.startTag?_text (h : t.Plain name) (hend : t.tagEnd ≠ .missing)
    {word : String} (hword : IsWord word) (hspelled : t.spelled = word.toList) (rest : List Char) :
    startTag? word (t.text ++ rest) = some t.text := by
  have hsome : (startTag? word (t.text ++ rest)).isSome := by
    have htext : t.text ++ rest =
        ('<' :: word.toList) ++ (StartTag.tail t.attributes t.gap t.tagEnd ++ rest) := by
      simp [StartTag.text, hspelled]
    have hmark : '>' ∈ StartTag.tail t.attributes t.gap t.tagEnd ++ rest := by
      cases htag : t.tagEnd with
      | missing => exact absurd htag hend
      | opened => simp [StartTag.tail, TagEnd.text]
      | closed => simp [StartTag.tail, TagEnd.text]
    have hopens : ('<' :: word.toList).isPrefixOf (t.text ++ rest) := by
      rw [List.isPrefixOf_iff_prefix, htext]
      exact List.prefix_append ..
    obtain ⟨found, hsplit⟩ := Option.isSome_iff_exists.mp (splitAtChar_isSome hmark)
    unfold startTag?
    dsimp only
    rw [hopens, htext, List.drop_left, t.continuesWord_tail hend, hsplit]
    rfl
  obtain ⟨tag, hfound⟩ := Option.isSome_iff_exists.mp hsome
  rw [hfound, h.startTag?_eq hend hword hfound]

end

end DiagramView.Markup
