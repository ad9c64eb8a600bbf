import DiagramView.Proofs.NoDoctype

/-!
# What an edit leaves as it is

Making a background transparent replaces the root's start tag and perhaps a rectangle's, and leaves
everything before, between and behind them as it is.

The tags are found in the tree of a well-formed artifact, and by scanning any other. Either way they
are start tags at the places where they are said to stand, the rectangle's behind the root's
(`Located.Fits`), as long as no document type lets an entity hold an element.

A tag that was edited ends, as before, with its only greater-than sign (`EndsTag`). So the text comes
out as it was only if no tag was located in it, or each of them already was what it is replaced
with.
-/

namespace DiagramView.Markup

/-! ## Start tags -/

/-- A start tag of an element as text: behind its name no word goes on, and it ends with the first
greater-than sign. -/
def IsStartTag (name : String) (tag : List Char) : Prop :=
  ∃ inner, tag = '<' :: (name.toList ++ (inner ++ ['>'])) ∧ '>' ∉ inner ∧
    Text.continuesWord (inner ++ ['>']) = false

section

variable {name : String} {text tag : List Char}

theorem splitAtChar_eq_some {mark : Char} {text before after : List Char}
    (h : splitAtChar mark text = some (before, after)) :
    text = before ++ mark :: after ∧ mark ∉ before := by
  induction text generalizing before with
  | nil => cases h
  | cons c cs ih =>
    unfold splitAtChar at h
    by_cases hc : c = mark
    · rw [if_pos hc] at h
      cases h
      exact ⟨by rw [hc]; rfl, List.not_mem_nil⟩
    · rw [if_neg hc] at h
      cases hsplit : splitAtChar mark cs with
      | none =>
        rw [hsplit] at h
        cases h
      | some found =>
        rw [hsplit] at h
        cases h
        obtain ⟨hcs, hmark⟩ := ih hsplit
        refine ⟨by rw [hcs]; rfl, ?_⟩
        simpa [Ne.symm hc] using hmark

theorem continuesWord_append_cons (inner : List Char) (c : Char) (rest : List Char) :
    Text.continuesWord (inner ++ c :: rest) = Text.continuesWord (inner ++ [c]) := by
  cases inner <;> rfl

theorem isStartTag_of_startTag? (h : startTag? name text = some tag) :
    IsStartTag name tag ∧ tag <+: text := by
  unfold startTag? at h
  dsimp only at h
  split at h
  case isFalse => cases h
  case isTrue hopens =>
    obtain ⟨hopens, hword⟩ := Bool.and_eq_true_iff.mp hopens
    obtain ⟨body, rfl⟩ := List.isPrefixOf_iff_prefix.mp hopens
    rw [List.drop_left] at h hword
    cases hsplit : splitAtChar '>' body with
    | none =>
      rw [hsplit] at h
      cases h
    | some found =>
      obtain ⟨inner, rest⟩ := found
      rw [hsplit] at h
      cases h
      obtain ⟨rfl, hmark⟩ := splitAtChar_eq_some hsplit
      rw [Bool.not_eq_true', continuesWord_append_cons] at hword
      exact ⟨⟨inner, by simp, hmark, hword⟩, rest, by simp⟩

theorem startTag?_nil (name : String) : startTag? name [] = none :=
  rfl

/-- A text with a start tag at an index. -/
theorem exists_cut {index : Nat} (h : startTag? name (text.drop index) = some tag) :
    ∃ before after, text = before ++ (tag ++ after) ∧ before.length = index := by
  obtain ⟨-, after, hafter⟩ := isStartTag_of_startTag? h
  have hle : index ≤ text.length := by
    apply Nat.le_of_not_lt
    intro hlt
    rw [List.drop_eq_nil_of_le (Nat.le_of_lt hlt), startTag?_nil] at h
    cases h
  refine ⟨text.take index, after, ?_, List.length_take_of_le hle⟩
  rw [hafter, List.take_append_drop]

/-- The start tag that is found where a tag stands ends with that tag or before. -/
theorem StartTag.length_le_of_startTag? {t : StartTag} (hend : t.tagEnd ≠ .missing)
    {word : String} (hword : IsWord word) {rest : List Char}
    (h : startTag? word (t.text ++ rest) = some tag) : tag.length ≤ t.text.length := by
  obtain ⟨⟨inner, rfl, hmark, -⟩, hbegins⟩ := isStartTag_of_startTag? h
  obtain ⟨front, hfront⟩ : ∃ front, t.text = front ++ ['>'] := by
    rw [StartTag.text, StartTag.tail]
    cases htag : t.tagEnd with
    | missing => exact absurd htag hend
    | opened =>
      refine ⟨'<' :: (t.spelled ++ (t.attributes.flatMap (·.text) ++ t.gap)), ?_⟩
      simp [TagEnd.text]
    | closed =>
      refine ⟨'<' :: (t.spelled ++ (t.attributes.flatMap (·.text) ++ (t.gap ++ ['/']))), ?_⟩
      simp [TagEnd.text]
  have hfree : '>' ∉ '<' :: (word.toList ++ inner) := by
    have hname : '>' ∉ word.toList := fun hmem => absurd (hword.2.1 _ hmem) (by decide)
    simp [hname, hmark]
  -- the tag's own end would stand before the first greater-than sign
  apply Nat.le_of_not_lt
  intro hlt
  have hshort : t.text.length ≤ ('<' :: (word.toList ++ inner)).length := by
    simp only [List.length_cons, List.length_append, List.length_nil] at hlt ⊢
    omega
  have hinside : t.text <+: '<' :: (word.toList ++ inner) := by
    refine List.prefix_of_prefix_length_le (List.prefix_append t.text rest) ?_ hshort
    refine List.IsPrefix.trans ⟨['>'], ?_⟩ hbegins
    simp
  refine hfree (hinside.subset ?_)
  rw [hfront]
  exact List.mem_append_right _ List.mem_cons_self

end

/-! ## Scanning -/

section

variable {name : String} {text tag : List Char} {n i k : Nat}

theorem exists_of_mem_startTagsFrom (h : (i, tag) ∈ startTagsFrom name n k text) :
    ∃ j, i = n + j ∧ startTag? name (text.drop j) = some tag := by
  induction text generalizing n k with
  | nil => cases k <;> cases h
  | cons c cs ih =>
    have hbehind {k : Nat} (h : (i, tag) ∈ startTagsFrom name (n + 1) k cs) :
        ∃ j, i = n + j ∧ startTag? name ((c :: cs).drop j) = some tag := by
      obtain ⟨j, rfl, hj⟩ := ih h
      exact ⟨j + 1, by omega, hj⟩
    cases k with
    | succ k => exact hbehind h
    | zero =>
      rw [startTagsFrom] at h
      cases hfound : startTag? name (c :: cs) with
      | none =>
        rw [hfound] at h
        exact hbehind h
      | some found =>
        rw [hfound] at h
        obtain heq | h := List.mem_cons.mp h
        · cases heq
          exact ⟨0, rfl, hfound⟩
        · exact hbehind h

theorem startTag?_of_mem_startTags (h : (i, tag) ∈ startTags name text) :
    startTag? name (text.drop i) = some tag := by
  obtain ⟨j, rfl, hj⟩ := exists_of_mem_startTagsFrom h
  rwa [Nat.zero_add]

/-- No start tag stands before the first that is found. -/
theorem startTag?_of_forall_head?
    (h : ∀ found ∈ (startTagsFrom name n 0 text).head?, n + i < found.1) :
    startTag? name (text.drop i) = none := by
  induction text generalizing n i with
  | nil => rw [List.drop_nil, startTag?_nil]
  | cons c cs ih =>
    cases hfound : startTag? name (c :: cs) with
    | none =>
      cases i with
      | zero => exact hfound
      | succ i =>
        refine ih (n := n + 1) fun found hmem => ?_
        have := h found (by rw [startTagsFrom, hfound]; exact hmem)
        omega
    | some tag =>
      have := h (n, tag) (by rw [startTagsFrom, hfound]; rfl)
      exact absurd this (by simp)

end

/-! ## Located tags -/

/-- Tags that stand where they were located, the rectangle's behind the root's. -/
structure Located.Fits (l : Located) (markup : List Char) : Prop where
  root : startTag? "svg" (markup.drop l.root.start) = some l.root.tag
  rect : ∀ rect ∈ l.rect, startTag? "rect" (markup.drop rect.start) = some rect.tag ∧
    l.root.stop ≤ rect.start

/-- Finds the tags that change. -/
def locate (markup : List Char) : Option Located :=
  match readDocument markup with
  | .ok d => locateInDocument d markup
  | .error _ => locateByScan markup

/-- Whether the root's start tag is looked for at an index: where the root starts, if it is an
`svg` element, or anywhere in an artifact that is not well-formed. -/
def SeeksRootAt (markup : List Char) (start : Nat) : Prop :=
  ∀ d, readDocument markup = .ok d →
    ∃ root, d.root? = some root ∧ root.hasName "svg" ∧ root.start? = some start

section

variable {markup : List Char} {d : Document} {l : Located} {root rect : Node}

theorem locate_of_ok (h : readDocument markup = .ok d) :
    locate markup = locateInDocument d markup := by
  rw [locate, h]

theorem locate_of_error {fault : Fault} (h : readDocument markup = .error fault) :
    locate markup = locateByScan markup := by
  rw [locate, h]

theorem startTagAt_eq_some {name : String} {index : Nat} {t : LocatedTag} :
    startTagAt name markup index = some t ↔
      t.start = index ∧ startTag? name (markup.drop index) = some t.tag := by
  unfold startTagAt
  rw [Option.map_eq_some_iff]
  constructor
  · rintro ⟨tag, htag, rfl⟩
    exact ⟨rfl, htag⟩
  · rintro ⟨rfl, htag⟩
    exact ⟨t.tag, htag, rfl⟩

theorem locateInDocument_eq_some (h : locateInDocument d markup = some l) :
    ∃ root start, d.root? = some root ∧ root.hasName "svg" ∧ root.start? = some start ∧
      startTagAt "svg" markup start = some l.root ∧
      l.rect = (backgroundRect? root).bind fun rect =>
        rect.start?.bind (startTagAt "rect" markup) := by
  obtain ⟨root, hroot, h⟩ := Option.bind_eq_some_iff.mp h
  cases hsvg : root.hasName "svg" with
  | false => simp [hsvg] at h
  | true =>
    simp only [hsvg] at h
    obtain ⟨start, hstart, h⟩ := Option.bind_eq_some_iff.mp h
    obtain ⟨rootTag, hrootTag, h⟩ := Option.bind_eq_some_iff.mp h
    cases h
    exact ⟨root, start, hroot, hsvg, hstart, hrootTag, rfl⟩

/-- The background rectangle is an element below the root. -/
theorem start_mem_children {start k : Nat} {name : ExpandedName} {attributes : List Attribute}
    {children : List Node}
    (hsvg : (Node.element start name attributes children).hasName "svg")
    (h : backgroundRect? (.element start name attributes children) = some rect)
    (hk : rect.start? = some k) : k ∈ Node.startsAll children := by
  have hrect : rect.hasName "rect" := by
    unfold backgroundRect? at h
    simp only [Option.map_eq_some_iff, Option.or_eq_some_iff] at h
    obtain ⟨⟨parent, node⟩, hfound, rfl⟩ := h
    obtain hfound | ⟨-, hfound | ⟨-, hfound⟩⟩ := hfound <;>
      exact (List.mem_filter.mp (List.mem_of_find?_eq_some hfound)).2
  obtain ⟨parent, hmem⟩ := mem_walk_of_backgroundRect? h
  rw [Node.walk, List.mem_cons] at hmem
  obtain heq | hmem := hmem
  · cases heq
    simp only [Node.hasName, beq_iff_eq] at hsvg hrect
    exact absurd (hsvg.symm.trans hrect) (by decide)
  · obtain ⟨name', attributes', children', rfl⟩ := exists_of_start? hk
    exact Node.start_mem_startsAll children hmem

theorem fits_of_locateInDocument (hdoctype : hasDoctype markup = false)
    (hread : readDocument markup = .ok d) (h : locateInDocument d markup = some l) :
    l.Fits markup := by
  obtain ⟨root, start, hroot, hsvg, hstart, htag, hrect⟩ := locateInDocument_eq_some h
  obtain ⟨hplace, htag⟩ := startTagAt_eq_some.mp htag
  refine ⟨hplace ▸ htag, fun rect hmem => ?_⟩
  rw [hrect] at hmem
  obtain ⟨node, hbackground, hmem⟩ := Option.bind_eq_some_iff.mp hmem
  obtain ⟨k, hk, hmem⟩ := Option.bind_eq_some_iff.mp hmem
  obtain ⟨rfl, hrectTag⟩ := startTagAt_eq_some.mp hmem
  refine ⟨hrectTag, ?_⟩
  obtain ⟨name, attributes, children, rfl⟩ := exists_of_start? hstart
  obtain ⟨t, hend, ⟨rest, hdrop⟩, hbehind⟩ := exists_tag_of_root hdoctype hread hroot
  have hstop := hbehind rect.start (start_mem_children hsvg hbackground hk)
  rw [hdrop] at htag
  have hlength := t.length_le_of_startTag? hend (isWord_of_check (by decide)) htag
  rw [LocatedTag.stop, hplace]
  omega

/-- What a scan finds: the first tag of the root's name, and rectangles in the text behind it. -/
theorem locateByScan_eq_some (h : locateByScan markup = some l) :
    (startTags "svg" markup).head? = some (l.root.start, l.root.tag) ∧
      ∀ rect ∈ l.rect, ∃ start, rect.start = l.root.stop + start ∧
        (start, rect.tag) ∈ startTags "rect" (markup.drop l.root.stop) := by
  unfold locateByScan at h
  cases hfound : startTags "svg" markup with
  | nil =>
    rw [hfound] at h
    cases h
  | cons first others =>
    rw [hfound] at h
    cases h
    refine ⟨rfl, fun rect hrect => ?_⟩
    obtain ⟨⟨start, tag⟩, hchosen, rfl⟩ := Option.map_eq_some_iff.mp hrect
    refine ⟨start, rfl, ?_⟩
    simp only [Option.or_eq_some_iff] at hchosen
    obtain hchosen | ⟨-, hchosen | ⟨-, hchosen⟩⟩ := hchosen
    · exact List.mem_of_find?_eq_some hchosen
    · exact List.mem_of_find?_eq_some hchosen
    · exact List.mem_of_head? (Option.filter_eq_some_iff.mp hchosen).1

theorem fits_of_locateByScan (h : locateByScan markup = some l) : l.Fits markup := by
  obtain ⟨hhead, hrects⟩ := locateByScan_eq_some h
  refine ⟨startTag?_of_mem_startTags (List.mem_of_head? hhead), fun rect hrect => ?_⟩
  obtain ⟨start, hstart, hmem⟩ := hrects rect hrect
  have htag := startTag?_of_mem_startTags hmem
  rw [List.drop_drop, ← hstart] at htag
  exact ⟨htag, by omega⟩

theorem fits_of_locate (hdoctype : hasDoctype markup = false) (h : locate markup = some l) :
    l.Fits markup := by
  cases hread : readDocument markup with
  | ok d =>
    rw [locate_of_ok hread] at h
    exact fits_of_locateInDocument hdoctype hread h
  | error fault =>
    rw [locate_of_error hread] at h
    exact fits_of_locateByScan h

/-- The root's tag is located at the first index where one is looked for and found. -/
theorem locate_root (h : locate markup = some l) : SeeksRootAt markup l.root.start ∧
    ∀ start < l.root.start, SeeksRootAt markup start →
      startTag? "svg" (markup.drop start) = none := by
  cases hread : readDocument markup with
  | ok d =>
    rw [locate_of_ok hread] at h
    obtain ⟨root, start, hroot, hsvg, hstart, htag, -⟩ := locateInDocument_eq_some h
    obtain ⟨rfl, -⟩ := startTagAt_eq_some.mp htag
    refine ⟨fun d' hd' => ?_, fun start hlt hseeks => ?_⟩
    · cases hread.symm.trans hd'
      exact ⟨root, hroot, hsvg, hstart⟩
    · obtain ⟨root', hroot', -, hstart'⟩ := hseeks d hread
      cases hroot.symm.trans hroot'
      cases hstart.symm.trans hstart'
      omega
  | error fault =>
    rw [locate_of_error hread] at h
    obtain ⟨hhead, -⟩ := locateByScan_eq_some h
    refine ⟨fun d hd => (by cases hread.symm.trans hd), fun start hlt _ => ?_⟩
    refine startTag?_of_forall_head? (n := 0) fun found hfound => ?_
    cases hhead.symm.trans hfound
    rwa [Nat.zero_add]

/-- Nothing is located only where no start tag stands that could be the root's. -/
theorem locate_eq_none (h : locate markup = none) {start : Nat}
    (hseeks : SeeksRootAt markup start) : startTag? "svg" (markup.drop start) = none := by
  cases hread : readDocument markup with
  | ok d =>
    rw [locate_of_ok hread] at h
    obtain ⟨root, hroot, hsvg, hstart⟩ := hseeks d hread
    cases htag : startTag? "svg" (markup.drop start) with
    | none => rfl
    | some tag =>
      rw [locateInDocument_eq hroot hstart hsvg htag] at h
      cases h
  | error fault =>
    rw [locate_of_error hread] at h
    refine startTag?_of_forall_head? (n := 0) fun found hfound => ?_
    dsimp only [locateByScan] at h
    cases hfound' : startTags "svg" markup with
    | nil =>
      rw [startTags] at hfound'
      rw [hfound'] at hfound
      cases hfound
    | cons first others =>
      rw [hfound'] at h
      cases h

end

/-! ## Edited tags -/

/-- A text that ends with its only greater-than sign. -/
def EndsTag (tag : List Char) : Prop :=
  ∃ front, tag = front ++ ['>'] ∧ '>' ∉ front

section

variable {name : String} {text tag value after u w : List Char}

theorem IsStartTag.endsTag (h : IsStartTag name tag) (hname : '>' ∉ name.toList) :
    EndsTag tag := by
  obtain ⟨inner, rfl, hinner, -⟩ := h
  exact ⟨'<' :: (name.toList ++ inner), by simp, by simp [hname, hinner]⟩

theorem EndsTag.append (hu : '>' ∉ u) (h : EndsTag w) : EndsTag (u ++ w) := by
  obtain ⟨front, rfl, hfront⟩ := h
  exact ⟨u ++ front, by simp, by simp [hu, hfront]⟩

theorem EndsTag.of_append (h : EndsTag (u ++ w)) (hw : w ≠ []) : '>' ∉ u ∧ EndsTag w := by
  obtain ⟨front, heq, hfront⟩ := h
  rw [← List.dropLast_append_getLast hw, ← List.append_assoc] at heq
  obtain ⟨rfl, hlast⟩ := List.append_inj' heq rfl
  rw [List.mem_append, not_or] at hfront
  exact ⟨hfront.1, w.dropLast, by rw [← hlast, List.dropLast_append_getLast hw], hfront.2⟩

/-- Of two texts that begin with such tags, equal ones begin with the same tag. -/
theorem EndsTag.append_inj {tag' rest rest' : List Char} (h : EndsTag tag) (h' : EndsTag tag')
    (heq : tag ++ rest = tag' ++ rest') : tag = tag' ∧ rest = rest' := by
  obtain ⟨front, rfl, hfront⟩ := h
  obtain ⟨front', rfl, hfront'⟩ := h'
  have hcut := congrArg (splitAtChar '>') heq
  simp only [List.append_assoc, List.singleton_append, splitAtChar_append hfront,
    splitAtChar_append hfront', Option.some.injEq, Prod.mk.injEq] at hcut
  exact ⟨by rw [hcut.1], hcut.2⟩

theorem exists_of_quotedValue? (h : quotedValue? text = some (value, after)) :
    ∃ quote, quote ≠ '>' ∧ text = quote :: (value ++ quote :: after) := by
  unfold quotedValue? at h
  split at h
  case h_1 cs => exact ⟨'\x22', by decide, by rw [← (splitAtChar_eq_some h).1]⟩
  case h_2 cs => exact ⟨'\x27', by decide, by rw [← (splitAtChar_eq_some h).1]⟩
  case h_3 => cases h

theorem suffix_of_attributeHead? (h : attributeHead? name text = some (value, after)) :
    ∃ quote, quote ≠ '>' ∧ value ++ quote :: after <:+ text := by
  unfold attributeHead? at h
  split at h
  case h_1 => cases h
  case h_2 c cs =>
    split at h
    case isFalse => cases h
    case isTrue =>
      split at h
      case h_2 => cases h
      case h_1 rest hrest =>
        obtain ⟨quote, hquote, hvalue⟩ := exists_of_quotedValue? h
        refine ⟨quote, hquote, ?_⟩
        have hname : rest <:+ cs := by
          have hblanks : '=' :: rest <:+ cs.drop name.length := hrest ▸ List.dropWhile_suffix _
          exact ((List.suffix_cons '=' rest).trans hblanks).trans (List.drop_suffix _ cs)
        have hquoted : quote :: (value ++ quote :: after) <:+ rest :=
          hvalue ▸ List.dropWhile_suffix _
        exact (((List.suffix_cons quote _).trans hquoted).trans hname).trans (List.suffix_cons c cs)

/-- An attribute that is found ends with a quotation mark. -/
theorem exists_of_findAttribute? {found : FoundAttribute}
    (h : findAttribute? name text = some found) : ∃ opening quote, quote ≠ '>' ∧
      text = found.before ++ (opening ++ (found.value ++ quote :: found.after)) := by
  induction text generalizing found with
  | nil => cases h
  | cons c cs ih =>
    unfold findAttribute? at h
    cases hhead : attributeHead? name (c :: cs) with
    | some head =>
      rw [hhead] at h
      cases h
      obtain ⟨quote, hquote, opening, hopening⟩ := suffix_of_attributeHead? hhead
      exact ⟨opening, quote, hquote, hopening.symm⟩
    | none =>
      rw [hhead] at h
      cases hrest : findAttribute? name cs with
      | none =>
        rw [hrest] at h
        cases h
      | some later =>
        rw [hrest] at h
        cases h
        obtain ⟨opening, quote, hquote, hcs⟩ := ih hrest
        exact ⟨opening, quote, hquote, by rw [List.cons_append, ← hcs]⟩

/-- Around an attribute of a tag stand a text without a greater-than sign and the tag's end. -/
theorem EndsTag.around {found : FoundAttribute} (h : EndsTag tag)
    (hfound : findAttribute? name tag = some found) :
    '>' ∉ found.before ∧ '>' ∉ found.value ∧ EndsTag found.after := by
  obtain ⟨opening, quote, hquote, rfl⟩ := exists_of_findAttribute? hfound
  obtain ⟨hbefore, h⟩ := h.of_append (by simp)
  obtain ⟨-, h⟩ := h.of_append (by simp)
  obtain ⟨hvalue, h⟩ := h.of_append (List.cons_ne_nil _ _)
  have hafter : found.after ≠ [] := by
    intro hnil
    obtain ⟨front, heq, -⟩ := h
    have hlast : [] ++ [quote] = front ++ ['>'] := by rw [← heq, hnil, List.nil_append]
    exact hquote (List.singleton_inj.mp (List.append_inj' hlast rfl).2)
  have h : EndsTag ([quote] ++ found.after) := h
  exact ⟨hbefore, hvalue, (h.of_append hafter).2⟩

theorem EndsTag.setAttribute (h : EndsTag tag) (hname : '>' ∉ name.toList) (hvalue : '>' ∉ value) :
    EndsTag (setAttribute name value tag) := by
  have hwritten : '>' ∉ writtenAttribute name value := by simp [writtenAttribute, hname, hvalue]
  unfold Markup.setAttribute
  cases hfound : findAttribute? name tag with
  | some found =>
    obtain ⟨hbefore, -, hafter⟩ := h.around hfound
    exact .append (by simp [hbefore, hwritten]) hafter
  | none =>
    -- the end of the tag is not empty, so that the greater-than sign is in it
    have hshort : tag.length - tagEndLength tag < tag.length := by
      obtain ⟨front, rfl, -⟩ := h
      have hpositive : 0 < tagEndLength (front ++ ['>']) := by
        unfold tagEndLength
        split <;> decide
      rw [List.length_append, List.length_singleton]
      omega
    have hend : tag.drop (tag.length - tagEndLength tag) ≠ [] := by
      rw [Ne, List.drop_eq_nil_iff]
      omega
    rw [← List.take_append_drop (tag.length - tagEndLength tag) tag] at h
    obtain ⟨hbefore, hafter⟩ := h.of_append hend
    refine .append ?_ hafter
    rw [List.mem_append, not_or]
    exact ⟨fun hmem => hbefore (mem_of_mem_dropTrailingBlanks hmem), hwritten⟩

theorem EndsTag.restyleRoot (h : EndsTag tag) : EndsTag (restyleRoot tag) := by
  refine h.setAttribute (by decide) fun hmem => ?_
  have hstyle : '>' ∉ (attributeValue? "style" tag).getD [] := by
    unfold attributeValue?
    cases hfound : findAttribute? "style" tag with
    | none => exact List.not_mem_nil
    | some found => exact (h.around hfound).2.1
  obtain hsemicolon | hmem | ⟨declaration, hadded, hmem⟩ := mem_restyled hmem
  · exact absurd hsemicolon (by decide)
  · exact hstyle hmem
  · have hall : (addedDeclarations.all fun d => !d.contains '>') = true := by decide
    simpa [hmem] using List.all_eq_true.mp hall declaration hadded

/-- An edit leaves a text as it was only if it leaves each of the two tags so. -/
theorem edited_eq_iff {P R M X F S : List Char} (h : IsStartTag "svg" R) :
    P ++ (restyleRoot R ++ (M ++ (F ++ S))) = P ++ (R ++ (M ++ (X ++ S))) ↔
      restyleRoot R = R ∧ F = X := by
  constructor
  · intro heq
    have hroot : EndsTag R := h.endsTag (by decide)
    obtain ⟨hR, hrest⟩ := hroot.restyleRoot.append_inj hroot (List.append_cancel_left heq)
    exact ⟨hR, List.append_cancel_right (List.append_cancel_left hrest)⟩
  · rintro ⟨hR, rfl⟩
    rw [hR]

end

/-! ## Editing -/

section

variable {markup : List Char} {l : Located}

/-- A text cut at the tags that were located in it. -/
theorem Located.Fits.exists_cut (h : l.Fits markup) : ∃ P R M X S,
    markup = P ++ (R ++ (M ++ (X ++ S))) ∧ l.root = ⟨P.length, R⟩ ∧ IsStartTag "svg" R ∧
      (l.rect = none ∧ X = [] ∨
        l.rect = some ⟨P.length + R.length + M.length, X⟩ ∧ IsStartTag "rect" X) := by
  obtain ⟨⟨start, tag⟩, rect⟩ := l
  have hroot : startTag? "svg" (markup.drop start) = some tag := h.root
  obtain ⟨hsvg, -⟩ := isStartTag_of_startTag? hroot
  obtain ⟨before, after, hmarkup, rfl⟩ := Markup.exists_cut hroot
  cases rect with
  | none => exact ⟨before, tag, after, [], [], by simpa using hmarkup, rfl, hsvg, .inl ⟨rfl, rfl⟩⟩
  | some rect =>
    obtain ⟨hrect, hstop⟩ := h.rect rect rfl
    have hstop : before.length + tag.length ≤ rect.start := hstop
    have hdrop : markup.drop rect.start =
        after.drop (rect.start - (before.length + tag.length)) := by
      rw [hmarkup, ← List.append_assoc, List.drop_append, List.length_append,
        List.drop_eq_nil_of_le (by rwa [List.length_append]), List.nil_append]
    rw [hdrop] at hrect
    obtain ⟨between, behind, hafter, hlength⟩ := Markup.exists_cut hrect
    refine ⟨before, tag, between, rect.tag, behind, by rw [hmarkup, hafter], rfl, hsvg, .inr ⟨?_,
      (isStartTag_of_startTag? hrect).1⟩⟩
    have hplace : before.length + tag.length + between.length = rect.start := by omega
    rw [hplace]

theorem editTags_root (P R S : List Char) : editTags (P ++ (R ++ S)) ⟨⟨P.length, R⟩, none⟩ =
    some (P ++ (restyleRoot R ++ S)) := by
  have hdrop : (P ++ (R ++ S)).drop (P.length + R.length) = S := by
    rw [← List.drop_drop, List.drop_left, List.drop_left]
  simp [editTags, LocatedTag.stop, hdrop]

theorem editTags_both (P R M X S : List Char) :
    editTags (P ++ (R ++ (M ++ (X ++ S))))
      ⟨⟨P.length, R⟩, some ⟨P.length + R.length + M.length, X⟩⟩ =
        some (P ++ (restyleRoot R ++ (M ++ (clearRect X ++ S)))) := by
  have hdrop : (P ++ (R ++ (M ++ (X ++ S)))).drop (P.length + R.length) = M ++ (X ++ S) := by
    rw [← List.drop_drop, List.drop_left, List.drop_left]
  have hrest : (P ++ (R ++ (M ++ (X ++ S)))).drop
      (P.length + R.length + M.length + X.length) = S := by
    rw [← List.drop_drop, ← List.drop_drop, hdrop, List.drop_left, List.drop_left]
  simp [editTags, LocatedTag.stop, hdrop, hrest]

end

theorem neutralize_markup_eq {markup : String} (h : hasDoctype markup.toList = false) :
    (neutralize markup).markup = editLocated markup.toList (locate markup.toList) := by
  have hcloses := (closes_readDocument h).ne_overclosed
  cases hread : readDocument markup.toList with
  | ok d => simp [neutralize, hread, locate_of_ok hread]
  | error fault =>
    cases fault with
    | malformed => simp [neutralize, hread, locate_of_error hread]
    | overclosed => exact absurd hread hcloses

/-- Without a document type, making the background transparent always gives a text. It is the text
itself when no root's start tag is located; otherwise only that tag and the rectangle's, if one is
located, are replaced, and it is the text itself exactly if both are replaced with themselves. -/
theorem neutralize_edits_two_tags {markup : String} (h : hasDoctype markup.toList = false) :
    ∃ result, (neutralize markup).markup = some result ∧
      ((result = markup ∧ locate markup.toList = none ∧
        ∀ start, SeeksRootAt markup.toList start →
          startTag? "svg" (markup.toList.drop start) = none) ∨
      ∃ P R M X F S rect, markup.toList = P ++ (R ++ (M ++ (X ++ S))) ∧
        result.toList = P ++ (restyleRoot R ++ (M ++ (F ++ S))) ∧
        locate markup.toList = some ⟨⟨P.length, R⟩, rect⟩ ∧ IsStartTag "svg" R ∧
        (SeeksRootAt markup.toList P.length ∧ ∀ start < P.length,
          SeeksRootAt markup.toList start → startTag? "svg" (markup.toList.drop start) = none) ∧
        (rect = none ∧ X = [] ∧ F = [] ∨
          rect = some ⟨P.length + R.length + M.length, X⟩ ∧ IsStartTag "rect" X ∧
            F = setAttribute "stroke" "transparent".toList
              (setAttribute "fill" "transparent".toList X)) ∧
        (result = markup ↔ restyleRoot R = R ∧ F = X)) := by
  rw [neutralize_markup_eq h]
  cases hlocate : locate markup.toList with
  | none =>
    refine ⟨markup, by simp [editLocated], .inl ⟨rfl, rfl, fun start hseeks => ?_⟩⟩
    exact locate_eq_none hlocate hseeks
  | some l =>
    have hfits := fits_of_locate h hlocate
    have hseeks := locate_root hlocate
    obtain ⟨root, rect⟩ := l
    obtain ⟨P, R, M, X, S, hmarkup, rfl, hsvg, ⟨rfl, rfl⟩ | ⟨rfl, hrect⟩⟩ := hfits.exists_cut
    · have hedit := editTags_root P R (M ++ S)
      rw [List.nil_append] at hmarkup
      rw [editLocated, hmarkup, hedit]
      refine ⟨_, rfl, .inr ⟨P, R, M, [], [], S, none, rfl, ?_, rfl, hsvg, ?_, .inl ⟨rfl, rfl, rfl⟩,
        ?_⟩⟩
      · simp
      · rwa [hmarkup] at hseeks
      · rw [← String.toList_inj, hmarkup, String.toList_ofList]
        exact edited_eq_iff (F := []) (X := []) hsvg
    · have hedit := editTags_both P R M X S
      rw [editLocated, hmarkup, hedit]
      refine ⟨_, rfl, .inr ⟨P, R, M, X, clearRect X, S, _, rfl, ?_, rfl, hsvg, ?_,
        .inr ⟨rfl, hrect, rfl⟩, ?_⟩⟩
      · simp
      · rwa [hmarkup] at hseeks
      · rw [← String.toList_inj, hmarkup, String.toList_ofList]
        exact edited_eq_iff hsvg

/-- An artifact whose root's tag ends, for the edit, inside a value, with a rectangle deep in it. -/
def marked : String :=
  "<!-- \u00e9 --><svg title='a>b' x='&gt;'><g><rect class='background' fill='#fff'/></g></svg>"

theorem neutralize_edits_marked : hasDoctype marked.toList = false ∧
    ∃ result P R M X S, (neutralize marked).markup = some result ∧
      marked.toList = P ++ (R ++ (M ++ (X ++ S))) ∧
      result.toList = P ++ (restyleRoot R ++ (M ++ (clearRect X ++ S))) ∧
      P = "<!-- \u00e9 -->".toList ∧ R = "<svg title='a>".toList ∧
      M = "b' x='&gt;'><g>".toList ∧ X = "<rect class='background' fill='#fff'/>".toList := by
  have hdoctype : hasDoctype marked.toList = false := hasDoctype_eq_false (by decide +kernel)
  have hfound : (locate marked.toList).any fun l =>
      l.root.start == 10 && l.root.tag == "<svg title='a>".toList && l.rect.any fun rect =>
        rect.start == 39 && rect.tag == "<rect class='background' fill='#fff'/>".toList := by
    decide +kernel
  obtain ⟨⟨⟨start, tag⟩, found⟩, hlocate, hfound⟩ := (Option.any_eq_true _ _).mp hfound
  simp only [Bool.and_eq_true, beq_iff_eq] at hfound
  obtain ⟨⟨rfl, rfl⟩, hrect⟩ := hfound
  obtain ⟨⟨k, rectTag⟩, rfl, hplace⟩ := (Option.any_eq_true _ _).mp hrect
  simp only [Bool.and_eq_true, beq_iff_eq] at hplace
  obtain ⟨rfl, rfl⟩ := hplace
  obtain ⟨result, hresult, ⟨-, hnone, -⟩ |
    ⟨P, R, M, X, F, S, rect, hmarkup, hout, hcut, -, -, hcases, -⟩⟩ :=
      neutralize_edits_two_tags hdoctype
  · cases hlocate.symm.trans hnone
  · have hsame := Option.some.inj (hlocate.symm.trans hcut)
    simp only [Located.mk.injEq, LocatedTag.mk.injEq] at hsame
    obtain ⟨⟨hP, rfl⟩, rfl⟩ := hsame
    obtain ⟨hno, -, -⟩ | ⟨hrect, -, rfl⟩ := hcases
    · cases hno
    · simp only [Option.some.injEq, LocatedTag.mk.injEq] at hrect
      obtain ⟨hM, rfl⟩ := hrect
      have hP' : P = marked.toList.take 10 := by
        rw [hmarkup, hP, List.take_left]
      have hM' : M = (marked.toList.drop 24).take 15 := by
        have hR : "<svg title='a>".toList.length = 14 := rfl
        have hlength : M.length = 15 := by omega
        rw [hmarkup, ← List.append_assoc, List.drop_left' (by rw [List.length_append]; omega),
          ← hlength, List.take_left]
      refine ⟨hdoctype, result, P, _, M, _, S, hresult, hmarkup, hout, ?_, rfl, ?_, rfl⟩
      · rw [hP']
        decide +kernel
      · rw [hM']
        decide +kernel

/-- An artifact whose root's tag is as an edit writes it. -/
def neutral : String :=
  "<svg style=\"display:block;margin:0;padding:0;width:100%;height:auto;background:transparent\"/>"

/-- A text can come out as it was although a root's start tag is located in it. -/
theorem neutral_kept_though_located : hasDoctype neutral.toList = false ∧
    ¬((neutralize neutral).markup = some neutral ↔ locate neutral.toList = none) := by
  have hkept : (neutralize neutral).markup = some neutral := by decide +kernel
  have hlocated : (locate neutral.toList).isSome := by decide +kernel
  refine ⟨hasDoctype_eq_false (by decide +kernel), fun hiff => ?_⟩
  rw [hiff.mp hkept] at hlocated
  cases hlocated

end DiagramView.Markup
