import DiagramView.Markup.Background
import DiagramView.Proofs.Assignment

/-!
# Restyling and line ends

A style is rewritten as it stands in its tag, where line ends and tabs are still what they are. An
element has it with spaces in their place. Both views agree: rewriting the style of a tag gives the
tag of an element whose style is rewritten (`restyled_plainValue`), as rewriting cuts at semicolons,
trims, and compares words.
-/

namespace DiagramView.Markup

/-! ## Characters of values -/

theorem valueChar_of_not_isSpace {c : Char} (h : isSpace c = false) (next : List Char) :
    valueChar c next = [c] := by
  have hreturn : c ≠ '\r' := by
    rintro rfl
    cases h
  simp [valueChar, h, hreturn]

theorem valueChar_of_isSpace {c : Char} (h : isSpace c) (next : List Char) :
    valueChar c next = [] ∧ next.head? = some '\n' ∨ valueChar c next = [' '] := by
  unfold valueChar
  split
  case isTrue hline => exact .inl ⟨rfl, hline.2⟩
  case isFalse => exact .inr rfl

/-- Of what follows, only a line feed matters. -/
theorem valueChar_congr {c : Char} {next next' : List Char}
    (h : next.head? = some '\n' ↔ next'.head? = some '\n') :
    valueChar c next = valueChar c next' := by
  simp only [valueChar, h]

theorem isBlank_of_mem_valueChar {c d : Char} {next : List Char} (hc : Text.isBlank c)
    (h : d ∈ valueChar c next) : Text.isBlank d := by
  cases hspace : isSpace c with
  | false =>
    rw [valueChar_of_not_isSpace hspace] at h
    exact List.mem_singleton.mp h ▸ hc
  | true =>
    obtain ⟨hnil, -⟩ | hone := valueChar_of_isSpace hspace next
    · rw [hnil] at h
      cases h
    · rw [hone] at h
      cases List.mem_singleton.mp h
      decide

theorem isSpace_of_isBlank {c : Char} (h : Text.isBlank c = false) : isSpace c = false := by
  cases hc : isSpace c with
  | false => rfl
  | true => rw [isBlank_of_isSpace hc] at h; cases h

theorem plainValue_eq_nil {value : List Char} : plainValue value = [] ↔ value = [] := by
  refine ⟨fun h => ?_, fun h => by rw [h]; rfl⟩
  induction value with
  | nil => rfl
  | cons c cs ih =>
    obtain ⟨hhere, hlater⟩ := List.append_eq_nil_iff.mp h
    cases ih hlater
    cases hc : isSpace c with
    | false =>
      rw [valueChar_of_not_isSpace hc] at hhere
      cases hhere
    | true =>
      obtain ⟨-, hnext⟩ | hone := valueChar_of_isSpace hc []
      · cases hnext
      · rw [hone] at hhere
        cases hhere

theorem plainValue_append (text : List Char) {rest : List Char} (h : rest.head? ≠ some '\n') :
    plainValue (text ++ rest) = plainValue text ++ plainValue rest := by
  induction text with
  | nil => rfl
  | cons c cs ih =>
    have hnext : (cs ++ rest).head? = some '\n' ↔ cs.head? = some '\n' := by
      cases cs with
      | nil => simp [h]
      | cons d ds => rfl
    rw [List.cons_append, plainValue, plainValue, valueChar_congr hnext, ih, List.append_assoc]

theorem plainValue_eq_self {value : List Char} (h : ∀ c ∈ value, isSpace c = false) :
    plainValue value = value := by
  induction value with
  | nil => rfl
  | cons c cs ih =>
    rw [plainValue, valueChar_of_not_isSpace (h c List.mem_cons_self),
      ih fun d hd => h d (List.mem_cons_of_mem c hd)]
    rfl

theorem space_mem_plainValue {c : Char} {value : List Char} (h : c ∈ value) (hc : isSpace c) :
    ' ' ∈ plainValue value := by
  induction value with
  | nil => cases h
  | cons d ds ih =>
    rw [plainValue, List.mem_append]
    cases h with
    | tail _ h => exact .inr (ih h)
    | head =>
      obtain ⟨-, hnext⟩ | hone := valueChar_of_isSpace hc ds
      · -- the line feed behind a carriage return becomes the space
        cases ds with
        | nil => cases hnext
        | cons e es =>
          cases hnext
          exact .inr List.mem_cons_self
      · exact .inl (hone ▸ List.mem_cons_self)

/-! ## Cutting and trimming -/

theorem cutAt_cons_of_ne {mark c : Char} (h : c ≠ mark) (cs : List Char) :
    ∃ part rest, Text.cutAt mark cs = part :: rest ∧
      Text.cutAt mark (c :: cs) = (c :: part) :: rest := by
  obtain ⟨part, rest, hcut⟩ := List.exists_cons_of_ne_nil (cutAt_ne_nil mark cs)
  exact ⟨part, rest, hcut, by rw [Text.cutAt, if_neg h, hcut]⟩

/-- The first part of a text begins as the text does, unless it is empty. -/
theorem head?_cutAt {mark c : Char} (hc : c ≠ mark) {cs part : List Char} {rest : List (List Char)}
    (h : Text.cutAt mark cs = part :: rest) : part.head? = some c ↔ cs.head? = some c := by
  cases cs with
  | nil =>
    cases h
    rfl
  | cons d ds =>
    by_cases hd : d = mark
    · rw [Text.cutAt, if_pos hd] at h
      cases h
      simp [hd, Ne.symm hc]
    · obtain ⟨part', rest', -, hcut⟩ := cutAt_cons_of_ne hd ds
      cases hcut.symm.trans h
      rfl

theorem cutAt_plainValue {mark : Char} (hmark : isSpace mark = false) (text : List Char) :
    Text.cutAt mark (plainValue text) = (Text.cutAt mark text).map plainValue := by
  have hfeed : '\n' ≠ mark := by
    rintro rfl
    cases hmark
  induction text with
  | nil => rfl
  | cons c cs ih =>
    by_cases hc : c = mark
    · subst hc
      rw [plainValue, valueChar_of_not_isSpace hmark, List.singleton_append, Text.cutAt, if_pos rfl,
        ih, Text.cutAt, if_pos rfl]
      rfl
    · obtain ⟨part, rest, hcut, hmore⟩ := cutAt_cons_of_ne hc cs
      rw [hcut] at ih
      have hsame : valueChar c part = valueChar c cs := valueChar_congr (head?_cutAt hfeed hcut)
      have hprepend (d : Char) (hd : d ≠ mark) : Text.cutAt mark (d :: plainValue cs) =
          (d :: plainValue part) :: rest.map plainValue := by
        rw [Text.cutAt, if_neg hd, ih]
        rfl
      rw [hmore, List.map_cons, plainValue, plainValue, hsame]
      cases hspace : isSpace c with
      | false =>
        rw [valueChar_of_not_isSpace hspace]
        exact hprepend c hc
      | true =>
        obtain ⟨hnil, -⟩ | hone := valueChar_of_isSpace hspace cs
        · rw [hnil]
          exact ih
        · rw [hone]
          exact hprepend ' ' fun h => by rw [← h] at hmark; cases hmark

theorem takeWhile_eq_head_cutAt (mark : Char) (text : List Char) :
    (Text.cutAt mark text).head? = some (text.takeWhile (· != mark)) := by
  induction text with
  | nil => rfl
  | cons c cs ih =>
    by_cases hc : c = mark
    · simp [Text.cutAt, hc]
    · obtain ⟨part, rest, hcut, hmore⟩ := cutAt_cons_of_ne hc cs
      rw [hcut] at ih
      cases ih
      simp [hmore, hc]

theorem dropBlanks_plainValue (text : List Char) :
    Text.dropBlanks (plainValue text) = plainValue (Text.dropBlanks text) := by
  induction text with
  | nil => rfl
  | cons c cs ih =>
    rw [plainValue]
    cases hc : Text.isBlank c with
    | true =>
      have hblank : ∀ d ∈ valueChar c cs, Text.isBlank d := fun d hd =>
        isBlank_of_mem_valueChar hc hd
      rw [Text.dropBlanks, List.dropWhile_append_of_pos hblank, ← Text.dropBlanks, ih,
        Text.dropBlanks, Text.dropBlanks, List.dropWhile_cons_of_pos hc]
    | false =>
      have hword := valueChar_of_not_isSpace (isSpace_of_isBlank hc)
      rw [hword, List.singleton_append, Text.dropBlanks, List.dropWhile_cons_of_neg (by simp [hc]),
        Text.dropBlanks, List.dropWhile_cons_of_neg (by simp [hc]), plainValue, hword]
      rfl

theorem dropTrailingBlanks_plainValue (text : List Char) :
    Text.dropTrailingBlanks (plainValue text) = plainValue (Text.dropTrailingBlanks text) := by
  induction text with
  | nil => rfl
  | cons c cs ih =>
    rw [Text.dropTrailingBlanks_cons, plainValue]
    by_cases hcs : Text.dropTrailingBlanks cs = []
    · have hrest : ∀ d ∈ plainValue cs, Text.isBlank d := by
        rw [← Text.dropTrailingBlanks_eq_nil, ih, hcs]
        rfl
      rw [if_pos hcs, Text.dropTrailingBlanks_append _ hrest]
      cases hc : Text.isBlank c with
      | true => exact Text.dropTrailingBlanks_eq_nil.mpr fun d hd => isBlank_of_mem_valueChar hc hd
      | false =>
        have hword := valueChar_of_not_isSpace (isSpace_of_isBlank hc)
        simp [hword, plainValue, Text.dropTrailingBlanks, hc]
    · obtain ⟨d, ds, hds⟩ := List.exists_cons_of_ne_nil hcs
      have hhead : cs.head? = some d := Text.head?_dropTrailingBlanks (by rw [hds]; rfl)
      have hsame : valueChar c (Text.dropTrailingBlanks cs) = valueChar c cs :=
        valueChar_congr (by rw [hds, hhead]; rfl)
      have hmore : Text.dropTrailingBlanks (plainValue cs) ≠ [] := by
        rw [ih, ne_eq, plainValue_eq_nil]
        exact hcs
      rw [if_neg hcs, plainValue, hsame, ← ih]
      have hone (e : Char) : Text.dropTrailingBlanks (e :: plainValue cs) =
          e :: Text.dropTrailingBlanks (plainValue cs) := by
        rw [Text.dropTrailingBlanks_cons, if_neg hmore]
      cases hc : isSpace c with
      | false =>
        rw [valueChar_of_not_isSpace hc]
        exact hone c
      | true =>
        obtain ⟨hnil, -⟩ | hspace := valueChar_of_isSpace hc cs
        · rw [hnil]
          rfl
        · rw [hspace]
          exact hone ' '

theorem trimChars_plainValue (text : List Char) :
    Text.trimChars (plainValue text) = plainValue (Text.trimChars text) := by
  rw [Text.trimChars, dropBlanks_plainValue, dropTrailingBlanks_plainValue, ← Text.trimChars]

/-! ## Declarations -/

theorem propertyOf_plainValue (declaration : List Char) :
    propertyOf (plainValue declaration) = plainValue (propertyOf declaration) := by
  have hcolon : isSpace ':' = false := rfl
  have hcut := congrArg List.head? (cutAt_plainValue hcolon declaration)
  rw [List.head?_map, takeWhile_eq_head_cutAt, takeWhile_eq_head_cutAt] at hcut
  rw [propertyOf, Option.some.inj hcut, trimChars_plainValue, ← propertyOf]

theorem isSpace_toLower {c : Char} (h : isSpace c) : isSpace c.toLower := by
  simp only [isSpace, Bool.or_eq_true, beq_iff_eq] at h
  obtain ((rfl | rfl) | rfl) | rfl := h <;> decide

/-- Comparing with a word does not see which blank stands somewhere. -/
theorem map_toLower_plainValue {property word : List Char} (h : ∀ c ∈ word, isSpace c = false) :
    (plainValue property).map Char.toLower = word ↔ property.map Char.toLower = word := by
  by_cases hspaces : ∀ c ∈ property, isSpace c = false
  · rw [plainValue_eq_self hspaces]
  · have hno {text : List Char} {c : Char} (hmem : c ∈ text) (hc : isSpace c)
        (heq : text.map Char.toLower = word) : False := by
      have hword := h c.toLower (heq ▸ List.mem_map_of_mem hmem)
      rw [isSpace_toLower hc] at hword
      cases hword
    simp only [not_forall, Bool.not_eq_false] at hspaces
    obtain ⟨c, hmem, hc⟩ := hspaces
    refine ⟨fun heq => (hno (space_mem_plainValue hmem hc) (by decide) heq).elim, fun heq => ?_⟩
    exact (hno hmem hc heq).elim

theorem isOverridden_plainValue (declaration : List Char) :
    isOverridden (plainValue declaration) = isOverridden declaration := by
  have hwords : ∀ entry ∈ rootStyle, ∀ c ∈ entry.1.toList, isSpace c = false := by
    have hall : (rootStyle.all fun entry => entry.1.toList.all (!isSpace ·)) = true := by decide
    simpa only [List.all_eq_true, Bool.not_eq_true'] using hall
  rw [Bool.eq_iff_iff]
  simp only [isOverridden, List.any_eq_true, beq_iff_eq, propertyOf_plainValue]
  refine exists_congr fun entry => and_congr_right fun hentry => ?_
  exact map_toLower_plainValue (hwords entry hentry)

theorem keptDeclarations_plainValue (style : List Char) :
    keptDeclarations (plainValue style) = (keptDeclarations style).map plainValue := by
  have htrim : Text.trimChars ∘ plainValue = plainValue ∘ Text.trimChars :=
    funext trimChars_plainValue
  have hempty : (fun part : List Char => !part.isEmpty) ∘ plainValue =
      fun part : List Char => !part.isEmpty := by
    funext part
    have hnil : (plainValue part).isEmpty = part.isEmpty := by
      rw [Bool.eq_iff_iff, List.isEmpty_iff, List.isEmpty_iff, plainValue_eq_nil]
    exact congrArg (!·) hnil
  have hkept : (fun part => !isOverridden part) ∘ plainValue = fun part => !isOverridden part := by
    funext part
    exact congrArg (!·) (isOverridden_plainValue part)
  rw [keptDeclarations, cutAt_plainValue (by decide), List.map_map, htrim, ← List.map_map,
    List.filter_map, hempty, List.filter_map, hkept, ← keptDeclarations]

theorem joinDeclarations_map (declarations : List (List Char)) :
    joinDeclarations (declarations.map plainValue) =
      plainValue (joinDeclarations declarations) := by
  induction declarations with
  | nil => rfl
  | cons d rest ih =>
    cases rest with
    | nil => rfl
    | cons e rest =>
      have hjoin : joinDeclarations (d :: e :: rest) =
          d ++ ';' :: joinDeclarations (e :: rest) := rfl
      rw [hjoin, plainValue_append _ (by simp), plainValue,
        valueChar_of_not_isSpace (by decide), ← ih]
      rfl

/-- A style that is rewritten in its tag is the rewritten style of the element. -/
theorem restyled_plainValue (style : List Char) :
    restyled (plainValue style) = plainValue (restyled style) := by
  have hadded : addedDeclarations.map plainValue = addedDeclarations := by decide
  rw [restyled, keptDeclarations_plainValue, restyled, ← joinDeclarations_map, List.map_append,
    hadded]

/-! ## What a style holds -/

theorem mem_of_mem_cutAt {mark c : Char} {text part : List Char} (h : part ∈ Text.cutAt mark text)
    (hc : c ∈ part) : c ∈ text := by
  induction text generalizing part with
  | nil =>
    cases List.mem_singleton.mp h
    cases hc
  | cons d ds ih =>
    by_cases hd : d = mark
    · rw [Text.cutAt, if_pos hd] at h
      cases h with
      | head => cases hc
      | tail _ h => exact List.mem_cons_of_mem d (ih h hc)
    · obtain ⟨part', rest, hcut, hmore⟩ := cutAt_cons_of_ne hd ds
      rw [hmore] at h
      rw [hcut] at ih
      cases h with
      | tail _ h => exact List.mem_cons_of_mem d (ih (List.mem_cons_of_mem part' h) hc)
      | head =>
        cases hc with
        | head => exact List.mem_cons_self
        | tail _ hc => exact List.mem_cons_of_mem d (ih List.mem_cons_self hc)

theorem mem_of_mem_dropTrailingBlanks {c : Char} {text : List Char}
    (h : c ∈ Text.dropTrailingBlanks text) : c ∈ text := by
  induction text with
  | nil => exact h
  | cons d ds ih =>
    rw [Text.dropTrailingBlanks_cons] at h
    split at h
    case isTrue =>
      split at h
      case isTrue => cases h
      case isFalse => exact List.mem_singleton.mp h ▸ List.mem_cons_self
    case isFalse =>
      cases h with
      | head => exact List.mem_cons_self
      | tail _ h => exact List.mem_cons_of_mem d (ih h)

theorem mem_of_mem_keptDeclarations {c : Char} {style declaration : List Char}
    (h : declaration ∈ keptDeclarations style) (hc : c ∈ declaration) : c ∈ style := by
  obtain ⟨part, hpart, rfl⟩ :=
    List.mem_map.mp (List.mem_of_mem_filter (List.mem_of_mem_filter h))
  exact mem_of_mem_cutAt hpart
    ((List.dropWhile_sublist _).mem (mem_of_mem_dropTrailingBlanks hc))

theorem mem_joinDeclarations {c : Char} {declarations : List (List Char)}
    (h : c ∈ joinDeclarations declarations) : c = ';' ∨ ∃ d ∈ declarations, c ∈ d := by
  induction declarations with
  | nil => cases h
  | cons d rest ih =>
    cases rest with
    | nil => exact .inr ⟨d, List.mem_cons_self, h⟩
    | cons e rest =>
      obtain h | h := List.mem_append.mp h
      · exact .inr ⟨d, List.mem_cons_self, h⟩
      · cases h with
        | head => exact .inl rfl
        | tail _ h =>
          obtain hc | ⟨x, hx, hc⟩ := ih h
          · exact .inl hc
          · exact .inr ⟨x, List.mem_cons_of_mem d hx, hc⟩

theorem mem_restyled {c : Char} {style : List Char} (h : c ∈ restyled style) :
    c = ';' ∨ c ∈ style ∨ ∃ d ∈ addedDeclarations, c ∈ d := by
  obtain hc | ⟨d, hd, hcd⟩ := mem_joinDeclarations h
  · exact .inl hc
  · obtain hkept | hadded := List.mem_append.mp hd
    · exact .inr (.inl (mem_of_mem_keptDeclarations hkept hcd))
    · exact .inr (.inr ⟨d, hadded, hcd⟩)

/-- A rewritten style stands for itself when the style did. -/
theorem IsLiteral.restyled {style : List Char} (h : IsLiteral style) :
    IsLiteral (restyled style) := by
  have hadded : ∀ d ∈ addedDeclarations, IsLiteral d := by
    have hall : (addedDeclarations.all fun d => d.all fun c =>
        isDocumentChar c && (c != '\x22' && (c != '<' && c != '&'))) = true := by decide
    exact fun d hd => isLiteral_of_check (List.all_eq_true.mp hall d hd)
  intro c hc
  obtain rfl | hc | ⟨d, hd, hcd⟩ := mem_restyled hc
  · decide
  · exact h c hc
  · exact hadded d hd c hcd

end DiagramView.Markup
