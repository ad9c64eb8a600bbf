import DiagramView.Proofs.PlainTags
import DiagramView.Proofs.Restyling
import DiagramView.Proofs.Splice

/-!
# Transparency keeps the document

Making the background of a well-formed artifact transparent gives a well-formed artifact with the
same tree, but for the style of its root and the paint of one rectangle.

The tags are edited as text, so this holds of tags that the edit reads as the reader of documents
does: the root's tag is plain, and its style is written without double quotation marks and
references (`isRestylable`); the rectangle stands in the document itself and not in an entity, its
tag is plain, and what paint it has comes from its tag (`isClearable`).
-/

namespace DiagramView.Markup

/-! ## Elements of documents -/

/-- One redrawing behind another. -/
def Redrawing.trans (φ ψ : Redrawing) : Redrawing where
  place s := ψ.place (φ.place s)
  attributes s attributes := ψ.attributes (φ.place s) (φ.attributes s attributes)

mutual

theorem Node.redraw_redraw (φ ψ : Redrawing) :
    (node : Node) → (node.redraw φ).redraw ψ = node.redraw (φ.trans ψ)
  | .element start name attributes children => by
    simp only [Node.redraw, Node.redrawAll_redrawAll φ ψ children]
    rfl
  | .text _ => rfl
  | .comment _ => rfl
  | .instruction _ _ => rfl

theorem Node.redrawAll_redrawAll (φ ψ : Redrawing) : (nodes : List Node) →
    Node.redrawAll ψ (Node.redrawAll φ nodes) = Node.redrawAll (φ.trans ψ) nodes
  | [] => rfl
  | node :: rest => by
    simp only [Node.redrawAll, Node.redraw_redraw φ ψ node, Node.redrawAll_redrawAll φ ψ rest]

end

theorem Document.redraw_redraw (φ ψ : Redrawing) (d : Document) :
    (d.redraw φ).redraw ψ = d.redraw (φ.trans ψ) := by
  simp [Document.redraw, Node.redraw_redraw]

section

variable {start : Nat} {name : ExpandedName} {attributes : List Attribute} {children : List Node}
  {above : Option Node} {φ : Redrawing}

mutual

theorem Node.start_mem_starts : (node : Node) → {parent : Option Node} →
    (above, .element start name attributes children) ∈ node.walk parent → start ∈ node.starts
  | .element .., _, h => by
    rw [Node.walk, List.mem_cons] at h
    rw [Node.starts, List.mem_cons]
    obtain heq | h := h
    · cases heq
      exact .inl rfl
    · exact .inr (Node.start_mem_startsAll _ h)
  | .text _, _, h => by cases List.mem_singleton.mp h
  | .comment _, _, h => by cases List.mem_singleton.mp h
  | .instruction _ _, _, h => by cases List.mem_singleton.mp h

theorem Node.start_mem_startsAll : (nodes : List Node) → {parent : Option Node} →
    (above, .element start name attributes children) ∈ Node.walkAll parent nodes →
    start ∈ Node.startsAll nodes
  | [], _, h => by cases h
  | node :: rest, _, h => by
    rw [Node.walkAll, List.mem_append] at h
    rw [Node.startsAll, List.mem_append]
    exact h.imp (Node.start_mem_starts node) (Node.start_mem_startsAll rest)

end

mutual

/-- A redrawing that changes nothing changes the attributes of no element. -/
theorem Node.attributes_of_redraw_eq : (node : Node) → {parent : Option Node} →
    node.redraw φ = node → (above, .element start name attributes children) ∈ node.walk parent →
    φ.attributes start attributes = attributes
  | .element .., _, hsame, h => by
    rw [Node.walk, List.mem_cons] at h
    rw [Node.redraw, Node.element.injEq] at hsame
    obtain heq | h := h
    · cases heq
      exact hsame.2.2.1
    · exact Node.attributes_of_redrawAll_eq _ hsame.2.2.2 h
  | .text _, _, _, h => by cases List.mem_singleton.mp h
  | .comment _, _, _, h => by cases List.mem_singleton.mp h
  | .instruction _ _, _, _, h => by cases List.mem_singleton.mp h

theorem Node.attributes_of_redrawAll_eq : (nodes : List Node) → {parent : Option Node} →
    Node.redrawAll φ nodes = nodes →
    (above, .element start name attributes children) ∈ Node.walkAll parent nodes →
    φ.attributes start attributes = attributes
  | [], _, _, h => by cases h
  | node :: rest, _, hsame, h => by
    rw [Node.walkAll, List.mem_append] at h
    rw [Node.redrawAll, List.cons.injEq] at hsame
    obtain h | h := h
    · exact Node.attributes_of_redraw_eq node hsame.1 h
    · exact Node.attributes_of_redrawAll_eq rest hsame.2 h

end

theorem Document.attributes_of_redraw_eq {d : Document} (h : d.redraw φ = d)
    (hmem : (above, .element start name attributes children) ∈ Node.walkAll none d.nodes) :
    φ.attributes start attributes = attributes := by
  refine Node.attributes_of_redrawAll_eq d.nodes ?_ hmem
  rw [Node.redrawAll_eq_map]
  exact congrArg Document.nodes h

end

theorem Node.mem_walkAll {nodes : List Node} {node : Node} (h : node ∈ nodes)
    {parent : Option Node} {entry : Option Node × Node} (hentry : entry ∈ node.walk parent) :
    entry ∈ Node.walkAll parent nodes := by
  induction nodes with
  | nil => cases h
  | cons node' rest ih =>
    rw [Node.walkAll, List.mem_append]
    cases h with
    | head => exact .inl hentry
    | tail _ h => exact .inr (ih h)

theorem mem_walk_of_backgroundRect? {root rect : Node} (h : backgroundRect? root = some rect) :
    ∃ parent, (parent, rect) ∈ root.walk none := by
  unfold backgroundRect? at h
  simp only [Option.map_eq_some_iff, Option.or_eq_some_iff] at h
  obtain ⟨⟨parent, node⟩, hfound, rfl⟩ := h
  refine ⟨parent, ?_⟩
  obtain hfound | ⟨-, hfound | ⟨-, hfound⟩⟩ := hfound <;>
    exact List.mem_of_mem_filter (List.mem_of_find?_eq_some hfound)

/-! ## Rewriting a tag -/

section

variable {markup : List Char} {d : Document} {start : Nat}

theorem Site.take_eq {reads : List Char → Redrawing → Prop} (S : Site reads 0 start markup) :
    markup.take start = S.before :=
  (congrArg (List.take start) S.text_eq).trans
    (List.take_left' (S.start_eq.trans (Nat.zero_add _)).symm)

theorem Site.drop_eq {reads : List Char → Redrawing → Prop} (S : Site reads 0 start markup) :
    markup.drop start = S.tag.text ++ S.after :=
  (congrArg (List.drop start) S.text_eq).trans
    (List.drop_left' (S.start_eq.trans (Nat.zero_add _)).symm)

theorem Site.drop_stop_eq {reads : List Char → Redrawing → Prop} (S : Site reads 0 start markup) :
    markup.drop (start + S.tag.text.length) = S.after := by
  rw [← List.drop_drop, S.drop_eq, List.drop_left]

/-- What a tag gives its element, in all documents in which other tags stand in its place, and in
the document as it is. -/
theorem Site.exists_rewrite (S : Site (ReadsDocument d) 0 start markup)
    (hlong : 3 ≤ S.tag.spelled.length) :
    ∃ frame resolved,
      Holds maxEntityDepth { S.b with tag := some ⟨start, S.tag.name⟩ } frame S.tag.attributes
        resolved ∧
      ∀ {t' : StartTag} {f : List Attribute → List Attribute}, t'.spelled = S.tag.spelled →
        t'.tagEnd = S.tag.tagEnd →
        Holds maxEntityDepth { S.b with tag := some ⟨start, S.tag.name⟩ } frame t'.attributes
          (f resolved) →
        readDocument (S.before ++ (t'.text ++ S.after)) =
          .ok (d.redraw (.edit start S.tag.text.length t'.text.length f)) := by
  obtain ⟨frame, resolved, hholds, hrule⟩ := S.tag.exists_holds S.take S.ended
  refine ⟨frame, resolved, hholds, ?_⟩
  intro t' f hspelled htagEnd hholds'
  have hlength : 0 < S.tag.text.length := Nat.zero_lt_of_lt S.tag.length_attributes_lt
  have hedits := Redrawing.edit_edits start t'.text.length hlength f
  have hname : t'.name = S.tag.name := by
    have hnamed := t'.named
    rw [hspelled, S.tag.named] at hnamed
    exact (Option.some.inj hnamed).symm
  have htake : t'.take maxEntityDepth
      ((Redrawing.edit start S.tag.text.length t'.text.length f).place start)
      (S.b.redraw (.edit start S.tag.text.length t'.text.length f)) =
      .ok (S.c.redraw (.edit start S.tag.text.length t'.text.length f)) := by
    refine hrule hname htagEnd ?_
    rw [Redrawing.edit_attributes]
    exact hholds'
  rw [hedits.fixes.place start (Nat.le_refl _)] at htake
  exact S.splice ⟨hspelled, hlong, htagEnd⟩ hedits htake

end

/-! ## The rectangle -/

/-- The attributes that paint a rectangle. -/
def paints : List String :=
  ["fill", "stroke"]

/-- The attributes of a rectangle without paint. -/
def clearAttributes (attributes : List Attribute) : List Attribute :=
  setValue "stroke" "transparent".toList (setValue "fill" "transparent".toList attributes)

/-- Whether the paint of a rectangle can be set in its tag, which a text begins with: the tag is
plain, and the rectangle has no paint but what its tag gives it. -/
def isClearable (rect : Node) (text : List Char) : Bool :=
  paints.all fun name => isPlainTag name text &&
    ((rect.attribute? name).isNone || (tagAttributes text).any fun a => a.1 == name.toList)

theorem isLiteral_transparent : IsLiteral "transparent".toList :=
  isLiteral_of_check (by decide)

theorem isWord_of_mem_paints {paint : String} (h : paint ∈ paints) : IsWord paint := by
  simp only [paints, List.mem_cons, List.not_mem_nil, or_false] at h
  obtain rfl | rfl := h <;> exact isWord_of_check (by decide)

section

variable {start : Nat} {name : ExpandedName} {attributes : List Attribute} {children : List Node}
  {t : StartTag} {rest : List Char} {paint : String}

theorem plain_of_isClearable {rect : Node} (hend : t.tagEnd ≠ .missing)
    (h : isClearable rect (t.text ++ rest)) (hpaint : paint ∈ paints) : t.Plain paint := by
  have hpaint := List.all_eq_true.mp h paint hpaint
  exact (StartTag.plain_iff_isPlainTag hend rest).mpr (Bool.and_eq_true_iff.mp hpaint).1

theorem owns_of_isClearable (hend : t.tagEnd ≠ .missing)
    (h : isClearable (.element start name attributes children) (t.text ++ rest))
    (hpaint : paint ∈ paints) : Owns paint t.attributes attributes := by
  have hword := isWord_of_mem_paints hpaint
  have hpaint := List.all_eq_true.mp h paint hpaint
  rw [Bool.and_eq_true, Bool.or_eq_true, t.tagAttributes_text hend, List.any_map,
    List.any_eq_true, Option.isNone_iff_eq_none] at hpaint
  rintro ⟨a, ha, haname⟩
  obtain hnone | ⟨a', ha', hspelled⟩ := hpaint.2
  · exact absurd haname (valueOf?_eq_none.mp hnone a ha)
  · exact ⟨a', ha', hword.name_eq (by simpa using hspelled)⟩

/-- A plain tag without paint gives its element without paint. -/
theorem StartTag.exists_clearRect (hend : t.tagEnd ≠ .missing) {b frame : Builder}
    {resolved : List Attribute} (hholds : Holds maxEntityDepth b frame t.attributes resolved)
    (hb : b.references = 0) (hplain : ∀ paint ∈ paints, t.Plain paint)
    (howns : ∀ paint ∈ paints, Owns paint t.attributes resolved) :
    ∃ t' : StartTag, t'.text = clearRect t.text ∧ t'.spelled = t.spelled ∧ t'.tagEnd = t.tagEnd ∧
      Holds maxEntityDepth b frame t'.attributes (clearAttributes resolved) := by
  have hfill : "fill" ∈ paints := by decide
  have hstroke : "stroke" ∈ paints := by decide
  obtain ⟨t₁, htext₁, hspelled₁, hend₁, hassigned₁⟩ := (hplain "fill" hfill).exists_assigned
    (isWord_of_mem_paints hfill) isLiteral_transparent hend
  have hplain₁ : t₁.Plain "stroke" :=
    ⟨hspelled₁ ▸ (hplain "stroke" hstroke).spelled_blank,
      hassigned₁.plain (isWord_of_mem_paints hfill) (by decide) (by decide)
        (hplain "stroke" hstroke).attributes⟩
  obtain ⟨t₂, htext₂, hspelled₂, hend₂, hassigned₂⟩ := hplain₁.exists_assigned
    (isWord_of_mem_paints hstroke) isLiteral_transparent (hend₁ ▸ hend)
  have hholds₁ := hassigned₁.holds (isWord_of_mem_paints hfill)
    isLiteral_transparent.ampersand_not_mem hholds hb (howns "fill" hfill)
  have hholds₂ := hassigned₂.holds (isWord_of_mem_paints hstroke)
    isLiteral_transparent.ampersand_not_mem hholds₁ hb
    (hassigned₁.owns (by decide) (howns "stroke" hstroke))
  refine ⟨t₂, ?_, hspelled₂.trans hspelled₁, hend₂.trans hend₁, hholds₂⟩
  rw [htext₂, htext₁, clearRect]

end

/-- Clearing a rectangle that stands behind the root's tag. -/
theorem readDocument_clearRect {markup : List Char} {d : Document} {root start : Nat}
    {name : ExpandedName} {attributes : List Attribute} {children : List Node}
    {above : Option Node} (h : readDocument markup = .ok d)
    (hroot : d.starts.head? = some root) (hlt : root < start)
    (hmem : (above, .element start name attributes children) ∈ Node.walkAll none d.nodes)
    (hclear : isClearable (.element start name attributes children) (markup.drop start))
    {tag : List Char} (htag : startTag? "rect" (markup.drop start) = some tag) :
    readDocument (markup.take start ++ (clearRect tag ++ markup.drop (start + tag.length))) =
      .ok (d.redraw (.edit start tag.length (clearRect tag).length clearAttributes)) := by
  have hrect : IsWord "rect" := isWord_of_check (by decide)
  obtain ⟨R⟩ := exists_reading h
  obtain rfl := R.root_eq hroot
  obtain ⟨S⟩ := R.exists_innerSite hlt (Node.start_mem_startsAll _ hmem)
  rw [S.drop_eq] at hclear htag
  have hplain : ∀ paint ∈ paints, S.tag.Plain paint :=
    fun _ hpaint => plain_of_isClearable S.ended hclear hpaint
  have hlong : 3 ≤ S.tag.spelled.length :=
    Nat.le_trans (by decide) (S.tag.prefix_of_startTag? S.ended hrect htag).length_le
  obtain rfl := (hplain "fill" (by decide)).startTag?_eq S.ended hrect htag
  obtain ⟨frame, resolved, hholds, hrewrite⟩ := S.exists_rewrite hlong
  -- the tag as it stands gives every element that starts there the attributes that it holds
  have hsame : attributes = resolved := by
    have hagain := hrewrite (f := fun _ => resolved) rfl rfl hholds
    have htext := S.text_eq
    rw [← htext, h] at hagain
    have hkept := Document.attributes_of_redraw_eq (Except.ok.inj hagain).symm hmem
    rw [← hkept, Redrawing.edit_attributes]
  subst hsame
  obtain ⟨t', htext, hspelled, hend, hholds'⟩ := S.tag.exists_clearRect S.ended hholds S.references
    hplain fun _ hpaint => owns_of_isClearable S.ended hclear hpaint
  rw [S.take_eq, S.drop_stop_eq, ← htext]
  exact hrewrite hspelled hend hholds'

/-! ## The root -/

/-- The attributes of a root with its new style. -/
def restyleAttributes (attributes : List Attribute) : List Attribute :=
  setValue "style" (restyled ((valueOf? "style" attributes).getD [])) attributes

/-- Whether the style of a root can be set in its tag, which a text begins with: the tag is plain,
and the style is written without double quotation marks and references. -/
def isRestylable (text : List Char) : Bool :=
  isPlainTag "style" text && (tagAttributes text).all fun a =>
    a.1 != "style".toList || !a.2.contains '\x22' && !a.2.contains '&'

section

variable {t : StartTag}

/-- What stands behind a tag does not matter. -/
theorem isRestylable_text (hend : t.tagEnd ≠ .missing) (rest rest' : List Char) :
    isRestylable (t.text ++ rest) = isRestylable (t.text ++ rest') := by
  simp only [isRestylable, isPlainTag, t.tagName_text hend, t.tagAttributes_text hend]

theorem plain_of_isRestylable (hend : t.tagEnd ≠ .missing) {rest : List Char}
    (h : isRestylable (t.text ++ rest)) : t.Plain "style" :=
  (StartTag.plain_iff_isPlainTag hend rest).mpr (Bool.and_eq_true_iff.mp h).1

theorem literal_of_isRestylable (hend : t.tagEnd ≠ .missing) {rest : List Char}
    (h : isRestylable (t.text ++ rest)) {a : TagAttribute} (ha : a ∈ t.attributes)
    (hspelled : a.spelled = "style".toList) : IsLiteral a.value := by
  have hall := (Bool.and_eq_true_iff.mp h).2
  rw [t.tagAttributes_text hend, List.all_map, List.all_eq_true] at hall
  have hquiet : '\x22' ∉ a.value ∧ '&' ∉ a.value := by simpa [hspelled] using hall a ha
  intro c hc
  obtain ⟨hdoc, -, hopen⟩ := a.value_char c hc
  exact ⟨hdoc, fun h => hquiet.1 (h ▸ hc), hopen, fun h => hquiet.2 (h ▸ hc)⟩

/-- The style as the tag writes it, and as the element has it. -/
theorem style_of_isRestylable (hend : t.tagEnd ≠ .missing) {rest : List Char}
    (h : isRestylable (t.text ++ rest)) {b frame : Builder} {resolved : List Attribute}
    (hholds : Holds maxEntityDepth b frame t.attributes resolved) (hb : b.references = 0)
    (howns : Owns "style" t.attributes resolved) :
    IsLiteral ((attributeValue? "style" t.text).getD []) ∧
      (valueOf? "style" resolved).getD [] =
        plainValue ((attributeValue? "style" t.text).getD []) := by
  have hstyle : IsWord "style" := isWord_of_check (by decide)
  have hplain := plain_of_isRestylable hend h
  cases hfind : t.attributes.find? fun a => a.spelled == "style".toList with
  | none =>
    have hother : ∀ a ∈ t.attributes, a.spelled ≠ "style".toList := by simpa using hfind
    have hnone : valueOf? "style" resolved = none := by
      refine valueOf?_eq_none.mpr fun a ha hname => ?_
      obtain ⟨a', ha', hname'⟩ := howns ⟨a, ha, hname⟩
      exact hother a' ha' ((hplain.attributes a' ha').spelled_eq hname')
    rw [attributeValue?, hplain.findAttribute?_eq_none hstyle hother, hnone]
    exact ⟨by simp [IsLiteral], rfl⟩
  | some a =>
    obtain ⟨ha, u, w, hattributes, hu⟩ := List.find?_eq_some_iff_append.mp hfind
    have ha : a.spelled = "style".toList := by simpa using ha
    have hu : ∀ x ∈ u, x.spelled ≠ "style".toList := by simpa using hu
    have hliteral := literal_of_isRestylable hend h (by simp [hattributes]) ha
    obtain ⟨gap, c, hgap, -, -⟩ := a.exists_gap
    rw [attributeValue?, hplain.findAttribute?_eq_some hstyle hattributes ha hu hgap]
    refine ⟨hliteral, ?_⟩
    rw [hattributes] at hholds
    rw [hholds.valueOf?_eq hstyle hb ha hliteral.ampersand_not_mem]
    rfl

end

section

variable {markup : List Char} {d : Document} {start : Nat}

theorem readDocument_restyleRoot (h : readDocument markup = .ok d)
    (hroot : d.starts.head? = some start) (hname : tagName (markup.drop start) = "svg".toList)
    (hstyle : isRestylable (markup.drop start)) {tag : List Char}
    (htag : startTag? "svg" (markup.drop start) = some tag) :
    readDocument (markup.take start ++ (restyleRoot tag ++ markup.drop (start + tag.length))) =
      .ok (d.redraw (.edit start tag.length (restyleRoot tag).length restyleAttributes)) := by
  have hsvg : IsWord "svg" := isWord_of_check (by decide)
  have hword : IsWord "style" := isWord_of_check (by decide)
  obtain ⟨R⟩ := exists_reading h
  obtain rfl := R.root_eq hroot
  let S := R.rootSite
  rw [S.drop_eq] at hname hstyle htag
  have hplain := plain_of_isRestylable S.ended hstyle
  have hlong : 3 ≤ S.tag.spelled.length := by
    rw [S.tag.tagName_text S.ended] at hname
    rw [hname]
    decide
  obtain rfl := hplain.startTag?_eq S.ended hsvg htag
  obtain ⟨frame, resolved, hholds, hrewrite⟩ := S.exists_rewrite hlong
  have howns := hholds.owns R.prefaced.attributes "style"
  obtain ⟨hliteral, hvalue⟩ := style_of_isRestylable S.ended hstyle hholds S.references howns
  have hrestyled := hliteral.restyled
  obtain ⟨t', htext, hspelled, hend, hassigned⟩ :=
    hplain.exists_assigned hword hrestyled S.ended
  have hholds' := hassigned.holds hword hrestyled.ampersand_not_mem hholds S.references howns
  rw [← restyled_plainValue, ← hvalue] at hholds'
  rw [S.take_eq, S.drop_stop_eq, restyleRoot, ← htext]
  exact hrewrite hspelled hend hholds'

/-- The root's tag, and where the other elements of the document itself start. -/
theorem exists_rootTag (h : readDocument markup = .ok d) (hroot : d.starts.head? = some start) :
    d.starts.count start = 1 ∧ ∃ t : StartTag, t.tagEnd ≠ .missing ∧
      (∃ rest, markup.drop start = t.text ++ rest) ∧
      ∀ s ∈ d.starts, start < s → start + t.text.length ≤ s ∧ d.starts.count s = 1 := by
  obtain ⟨R⟩ := exists_reading h
  obtain rfl := R.root_eq hroot
  obtain ⟨new, hstarts, hstrewn⟩ := R.exists_starts
  have hinner := R.past_tag.index
  have hlength : 0 < R.tag.text.length := Nat.zero_lt_of_lt R.tag.length_attributes_lt
  have hnew : R.root.index ∉ new := fun hmem => by
    have := hstrewn.within _ hmem
    omega
  rw [hstarts]
  refine ⟨by simp [List.count_eq_zero.mpr hnew], R.tag, R.ended, ⟨_, R.rootSite.drop_eq⟩, ?_⟩
  intro s hs hlt
  have hs : s ∈ new := by
    cases hs with
    | head => omega
    | tail _ hs => exact hs
  refine ⟨by have := hstrewn.within s hs; omega, ?_⟩
  have hbehind : (R.root.index :: new).count s = (new.filter (R.root.index ≤ ·)).count s := by
    rw [List.count_cons_of_ne (by omega), List.count_filter (by simpa using Nat.le_of_lt hlt)]
  have hnodup : (new.filter (R.root.index ≤ ·)).Nodup :=
    hstrewn.increasing.imp fun hlt => Nat.ne_of_lt hlt
  rw [hbehind]
  refine List.count_eq_one_of_mem hnodup (List.mem_filter.mpr ⟨hs, ?_⟩)
  simpa using Nat.le_of_lt hlt

end

/-! ## Documents -/

/-- Where the rectangle that is cleared starts: the background rectangle of the root, when a tag of
that name is found at its start. -/
def clearedStart? (root : Node) (markup : List Char) : Option Nat :=
  (backgroundRect? root).bind fun rect => rect.start?.filter fun start =>
    (startTag? "rect" (markup.drop start)).isSome

/-- What becomes of the attributes of an element, by where it starts. -/
def transparentAttributes (root : Nat) (rect : Option Nat) (start : Nat)
    (attributes : List Attribute) : List Attribute :=
  if start = root then restyleAttributes attributes
  else if rect = some start then clearAttributes attributes
  else attributes

section

variable {cs : List Char} {d : Document} {root rect : Node} {start k : Nat}

theorem exists_of_start? (h : rect.start? = some k) :
    ∃ name attributes children, rect = .element k name attributes children := by
  cases rect with
  | element start name attributes children =>
    cases h
    exact ⟨_, _, _, rfl⟩
  | text => cases h
  | comment => cases h
  | instruction => cases h

theorem exists_of_clearedStart? (h : clearedStart? root cs = some k) :
    ∃ rect tag, backgroundRect? root = some rect ∧ rect.start? = some k ∧
      startTag? "rect" (cs.drop k) = some tag := by
  obtain ⟨rect, hrect, hk⟩ := Option.bind_eq_some_iff.mp h
  obtain ⟨hk, htag⟩ := Option.filter_eq_some_iff.mp hk
  obtain ⟨tag, htag⟩ := Option.isSome_iff_exists.mp htag
  exact ⟨rect, tag, hrect, hk, htag⟩

theorem locateInDocument_eq (hroot : d.root? = some root) (hstart : root.start? = some start)
    (hsvg : root.hasName "svg") {tag : List Char}
    (htag : startTag? "svg" (cs.drop start) = some tag) : locateInDocument d cs =
      some ⟨⟨start, tag⟩, (clearedStart? root cs).bind (startTagAt "rect" cs)⟩ := by
  have hrect : ((backgroundRect? root).bind fun rect => rect.start?.bind (startTagAt "rect" cs)) =
      (clearedStart? root cs).bind (startTagAt "rect" cs) := by
    unfold clearedStart?
    cases backgroundRect? root with
    | none => rfl
    | some rect =>
      rw [Option.bind_some, Option.bind_some]
      cases rect.start? with
      | none => rfl
      | some k => cases hk : startTag? "rect" (cs.drop k) <;> simp [startTagAt, Option.filter, hk]
  have htag : startTagAt "svg" cs start = some ⟨start, tag⟩ := by rw [startTagAt, htag]; rfl
  simp [locateInDocument, hroot, hsvg, hstart, htag, ← hrect]

/-- The text before a tag, the new tag and the text behind it, with another edit behind that. -/
theorem editTags_eq {tag tag' : List Char} (hstop : start + tag.length ≤ k) (hk : k ≤ cs.length) :
    let cs' := cs.take k ++ (clearRect tag' ++ cs.drop (k + tag'.length))
    editTags cs ⟨⟨start, tag⟩, some ⟨k, tag'⟩⟩ =
      some (cs'.take start ++ (restyleRoot tag ++ cs'.drop (start + tag.length))) := by
  have hlen : (cs.take k).length = k := List.length_take_of_le hk
  intro cs'
  have htake : cs'.take start = cs.take start := by
    rw [List.take_append_of_le_length (by omega), List.take_take, Nat.min_eq_left (by omega)]
  have hdrop : cs'.drop (start + tag.length) =
      (cs.drop (start + tag.length)).take (k - (start + tag.length)) ++
        (clearRect tag' ++ cs.drop (k + tag'.length)) := by
    rw [List.drop_append_of_le_length (by omega), List.drop_take]
  rw [htake, hdrop]
  simp [editTags, LocatedTag.stop, hstop]

theorem attributes_edit_restyle (start length length' : Nat) :
    (Redrawing.edit start length length' restyleAttributes).attributes =
      transparentAttributes start none := by
  funext s attributes
  simp only [Redrawing.edit, transparentAttributes]
  split <;> rfl

theorem attributes_edit_both (hlt : start < k) (n n' m m' : Nat) :
    ((Redrawing.edit k n n' clearAttributes).trans
      (.edit start m m' restyleAttributes)).attributes = transparentAttributes start (some k) := by
  funext s attributes
  have hplace : (if s < k + n then s else s - n + n') = start ↔ s = start := by
    split <;> omega
  simp only [Redrawing.trans, Redrawing.edit, transparentAttributes, hplace, Option.some_inj]
  by_cases hs : s = start
  · rw [if_pos hs, if_neg (by omega), if_pos hs]
    rfl
  · rw [if_neg hs, if_neg hs]
    by_cases hk : s = k
    · rw [if_pos hk, if_pos hk.symm]
      rfl
    · rw [if_neg hk, if_neg (Ne.symm hk)]
      rfl

theorem Document.head?_starts_redraw (hroot : d.root? = some root)
    (hstart : root.start? = some start) (φ : Redrawing) :
    (d.redraw φ).starts.head? = some (φ.place start) := by
  have hroot' : (d.redraw φ).root? = some (root.redraw φ) := by
    rw [Document.root?_redraw, hroot]
    rfl
  rw [Document.head?_starts hroot', start?_redraw, hstart]
  rfl

/-- The root's tag edited in a document whose rectangle has been cleared before. -/
theorem readDocument_both {t : StartTag} {rest tag : List Char} {d' : Document}
    (h : readDocument (cs.take k ++ (clearRect tag ++ cs.drop (k + tag.length))) = .ok d')
    (hhead : d'.starts.head? = some start) (hend : t.tagEnd ≠ .missing)
    (hdrop : cs.drop start = t.text ++ rest) (hname : t.spelled = "svg".toList)
    (hstyle : isRestylable (t.text ++ rest)) (hstop : start + t.text.length ≤ k)
    (hk : k ≤ cs.length) :
    ∃ text, editTags cs ⟨⟨start, t.text⟩, some ⟨k, tag⟩⟩ = some text ∧
      readDocument text = .ok (d'.redraw
        (.edit start t.text.length (restyleRoot t.text).length restyleAttributes)) := by
  have hlen : (cs.take k).length = k := List.length_take_of_le hk
  have hplain := plain_of_isRestylable hend hstyle
  -- the tag stands where it stood, with the same text up to the rectangle behind it
  have hfront : (cs.drop start).take (k - start) =
      t.text ++ rest.take (k - start - t.text.length) := by
    rw [hdrop, List.take_append, List.take_of_length_le (by omega)]
  obtain ⟨rest', hdrop'⟩ : ∃ rest',
      (cs.take k ++ (clearRect tag ++ cs.drop (k + tag.length))).drop start = t.text ++ rest' := by
    rw [List.drop_append_of_le_length (by omega), List.drop_take, hfront, List.append_assoc]
    exact ⟨_, rfl⟩
  refine ⟨_, editTags_eq hstop hk, readDocument_restyleRoot h hhead ?_ ?_ ?_⟩
  · rw [hdrop', t.tagName_text hend, hname]
  · rw [hdrop', isRestylable_text hend rest' rest]
    exact hstyle
  · rw [hdrop']
    exact hplain.startTag?_text hend (isWord_of_check (by decide)) hname rest'

end

/-- Making the background transparent keeps a well-formed artifact well-formed, and changes nothing
but the style of the root and the paint of the background rectangle. -/
theorem neutralize_keeps_document {markup : String} {d : Document} {root : Node} {start : Nat}
    (h : readDocument markup.toList = .ok d) (hroot : d.root? = some root)
    (hstart : root.start? = some start) (hsvg : root.hasName "svg")
    (hname : tagName (markup.toList.drop start) = "svg".toList)
    (hstyle : isRestylable (markup.toList.drop start))
    (hrect : ∀ rect ∈ backgroundRect? root, ∀ k ∈ clearedStart? root markup.toList,
      start < k ∧ isClearable rect (markup.toList.drop k)) :
    ∃ out φ, (neutralize markup).markup = some out ∧
      readDocument out.toList = .ok (d.redraw φ) ∧
      φ.attributes = transparentAttributes start (clearedStart? root markup.toList) ∧
      d.starts.count start = 1 ∧
      ∀ k ∈ clearedStart? root markup.toList, d.starts.count k = 1 := by
  have hhead : d.starts.head? = some start := (Document.head?_starts hroot).trans hstart
  obtain ⟨hcount, t, hend, ⟨rest, hdrop⟩, hbehind⟩ := exists_rootTag h hhead
  rw [hdrop, t.tagName_text hend] at hname
  rw [hdrop] at hstyle
  have hplain := plain_of_isRestylable hend hstyle
  have hfound (rest : List Char) : startTag? "svg" (t.text ++ rest) = some t.text :=
    hplain.startTag?_text hend (isWord_of_check (by decide)) hname rest
  have hlocate := locateInDocument_eq hroot hstart hsvg (by rw [hdrop]; exact hfound rest)
  have hneutral : (neutralize markup).markup =
      editLocated markup.toList (locateInDocument d markup.toList) := by
    simp [neutralize, h]
  suffices hsuffices : ∃ text φ, editTags markup.toList ⟨⟨start, t.text⟩,
      (clearedStart? root markup.toList).bind (startTagAt "rect" markup.toList)⟩ = some text ∧
      readDocument text = .ok (d.redraw φ) ∧
      φ.attributes = transparentAttributes start (clearedStart? root markup.toList) ∧
      ∀ k ∈ clearedStart? root markup.toList, d.starts.count k = 1 by
    obtain ⟨text, φ, hedit, hread, hattributes, hrects⟩ := hsuffices
    refine ⟨String.ofList text, φ, ?_, by rwa [String.toList_ofList], hattributes, hcount, hrects⟩
    rw [hneutral, hlocate, editLocated, hedit]
    rfl
  cases hcleared : clearedStart? root markup.toList with
  | none =>
    have hout := readDocument_restyleRoot h hhead (by rw [hdrop, t.tagName_text hend, hname])
      (by rw [hdrop]; exact hstyle) (by rw [hdrop]; exact hfound rest)
    exact ⟨_, _, rfl, by simpa [LocatedTag.stop] using hout, attributes_edit_restyle .., by simp⟩
  | some k =>
    obtain ⟨rect, tag, hbackground, hk, htag⟩ := exists_of_clearedStart? hcleared
    obtain ⟨hlt, hclear⟩ := hrect rect hbackground k hcleared
    obtain ⟨name, attributes, children, rfl⟩ := exists_of_start? hk
    obtain ⟨above, hmem⟩ := mem_walk_of_backgroundRect? hbackground
    have hmem := Node.mem_walkAll (List.mem_of_find?_eq_some hroot) hmem
    obtain ⟨hstop, hcount'⟩ := hbehind k (Node.start_mem_startsAll _ hmem) hlt
    have hcut := readDocument_clearRect h hhead hlt hmem hclear htag
    have hhead' : (d.redraw (.edit k tag.length (clearRect tag).length
        clearAttributes)).starts.head? = some start := by
      rw [Document.head?_starts_redraw hroot hstart]
      exact congrArg some (if_pos (Nat.lt_of_lt_of_le hlt (Nat.le_add_right ..)))
    have hlen : k ≤ markup.toList.length := by
      refine Nat.le_of_not_lt fun hlong => ?_
      rw [List.drop_eq_nil_of_le (Nat.le_of_lt hlong)] at htag
      cases htag
    obtain ⟨text, hedit, hread⟩ := readDocument_both hcut hhead' hend hdrop hname hstyle hstop hlen
    rw [Document.redraw_redraw] at hread
    refine ⟨text, _, ?_, hread, attributes_edit_both hlt .., by simpa using hcount'⟩
    rw [Option.bind_some, startTagAt, htag]
    exact hedit

/-- What can be computed of the root of a document that is read. -/
theorem exists_root_of_any {markup : List Char} {p : Node → Bool}
    (h : ((readDocument markup).toOption.bind Document.root?).any p) :
    ∃ d root, readDocument markup = .ok d ∧ d.root? = some root ∧ p root := by
  cases hread : readDocument markup with
  | error =>
    rw [hread] at h
    cases h
  | ok d =>
    rw [hread] at h
    obtain ⟨root, hroot, hp⟩ := (Option.any_eq_true _ _).mp h
    exact ⟨d, root, rfl, hroot, hp⟩

/-- An artifact with an entity, a style on two lines and two rectangles. -/
def framed : String :=
  "<!DOCTYPE svg [<!ENTITY e '<g/>'>]><svg xmlns='u' style='color: red;\n MARGIN:1px' >&e;" ++
  "<rect/><g><rect class='x background' fill='#fff' data-fill='1'/></g></svg>"

theorem neutralize_keeps_framed : ∃ d root, readDocument framed.toList = .ok d ∧
    d.root? = some root ∧ root.start? = some 35 ∧ root.hasName "svg" ∧
    clearedStart? root framed.toList = some 96 ∧
    ∃ out φ, (neutralize framed).markup = some out ∧ readDocument out.toList = .ok (d.redraw φ) ∧
      φ.attributes = transparentAttributes 35 (some 96) ∧ d.starts.count 35 = 1 ∧
      d.starts.count 96 = 1 := by
  obtain ⟨d, root, h, hroot, hcheck⟩ : ∃ d root, readDocument framed.toList = .ok d ∧
      d.root? = some root ∧ (root.start? == some 35 && root.hasName "svg" &&
        clearedStart? root framed.toList == some 96 &&
        (backgroundRect? root).any fun rect => isClearable rect (framed.toList.drop 96)) :=
    exists_root_of_any (by decide +kernel)
  simp only [Bool.and_eq_true, beq_iff_eq] at hcheck
  obtain ⟨⟨⟨hstart, hsvg⟩, hcleared⟩, hclear⟩ := hcheck
  obtain ⟨rect, hbackground, hclear⟩ := (Option.any_eq_true _ _).mp hclear
  have hrect : ∀ rect ∈ backgroundRect? root, ∀ k ∈ clearedStart? root framed.toList,
      35 < k ∧ isClearable rect (framed.toList.drop k) := by
    intro rect' hrect' k hk
    cases hbackground.symm.trans hrect'
    cases hcleared.symm.trans hk
    exact ⟨by decide, hclear⟩
  obtain ⟨out, φ, hout, hread, hattributes, hcount, hcounts⟩ :=
    neutralize_keeps_document h hroot hstart hsvg (by decide +kernel) (by decide +kernel) hrect
  refine ⟨d, root, h, hroot, hstart, hsvg, hcleared, out, φ, hout, hread, ?_, hcount, ?_⟩
  · rw [hattributes, hcleared]
  · exact hcounts 96 hcleared

/-- A greater-than sign in a value ends the tag for the edit, and what comes out is no document. -/
theorem neutralize_breaks_quoted_mark : ∃ d root out,
    readDocument "<svg title=\x22a>b\x22/>".toList = .ok d ∧ d.root? = some root ∧
      root.start? = some 0 ∧ root.hasName "svg" ∧
      tagName "<svg title=\x22a>b\x22/>".toList = "svg".toList ∧
      (neutralize "<svg title=\x22a>b\x22/>").markup = some out ∧
      ∀ d', readDocument out.toList ≠ .ok d' := by
  obtain ⟨d, root, h, hroot, hcheck⟩ : ∃ d root,
      readDocument "<svg title=\x22a>b\x22/>".toList = .ok d ∧ d.root? = some root ∧
        (root.start? == some 0 && root.hasName "svg") :=
    exists_root_of_any (by decide +kernel)
  obtain ⟨hstart, hsvg⟩ := Bool.and_eq_true_iff.mp hcheck
  have hbroken : (neutralize "<svg title=\x22a>b\x22/>").markup.any fun out =>
      (readDocument out.toList).toOption.isNone := by decide +kernel
  obtain ⟨out, hout, hbroken⟩ := (Option.any_eq_true _ _).mp hbroken
  refine ⟨d, root, out, h, hroot, eq_of_beq hstart, hsvg, by decide +kernel, hout, ?_⟩
  intro d' hread
  rw [hread] at hbroken
  cases hbroken

end DiagramView.Markup
