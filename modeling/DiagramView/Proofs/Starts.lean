import DiagramView.Proofs.Tokens

/-!
# Where elements start

An element knows where it starts. The elements of a text start in the order in which they stand in
it, at different places; only those that come from entities start before all of them, in the text of
the entity (`Strewn`).

A reader adds elements behind those that were read before, and nothing else changes what is known
of the document so far (`Builder.Grown`).
-/

namespace DiagramView.Markup

mutual

/-- Where the elements of a tree start, in the order in which they are opened. -/
def Node.starts : Node → List Nat
  | .element start _ _ children => start :: Node.startsAll children
  | _ => []

def Node.startsAll : List Node → List Nat
  | [] => []
  | node :: rest => node.starts ++ Node.startsAll rest

end

theorem Node.startsAll_append (nodes nodes' : List Node) :
    Node.startsAll (nodes ++ nodes') = Node.startsAll nodes ++ Node.startsAll nodes' := by
  induction nodes with
  | nil => rfl
  | cons node rest ih => simp [Node.startsAll, ih]

namespace Builder

/-- Where open elements and those inside them start, the outermost first. -/
def openStarts : List OpenElement → List Nat
  | [] => []
  | e :: outer => openStarts outer ++ e.tag.start :: Node.startsAll e.children.reverse

/-- Where the elements that were read so far start. -/
def starts (b : Builder) : List Nat :=
  Node.startsAll b.nodes.reverse ++ openStarts b.opened

theorem starts_append (b : Builder) (node : Node) :
    (b.append node).starts = b.starts ++ node.starts := by
  unfold starts append
  cases h : b.opened with
  | nil => simp [openStarts, Node.startsAll_append, Node.startsAll]
  | cons e outer => simp [openStarts, Node.startsAll_append, Node.startsAll]

theorem startsAll_joinText (content : List Char) (nodes : List Node) :
    Node.startsAll (joinText content nodes).reverse = Node.startsAll nodes.reverse := by
  cases nodes with
  | nil => rfl
  | cons node rest =>
    cases node <;> simp [joinText, Node.startsAll_append, Node.startsAll, Node.starts]

theorem starts_appendText (b : Builder) (content : List Char) :
    (b.appendText content).starts = b.starts := by
  unfold appendText
  cases content.isEmpty with
  | true => rfl
  | false =>
    unfold starts
    cases h : b.opened with
    | nil => simp [startsAll_joinText]
    | cons e outer => simp [openStarts, startsAll_joinText]

theorem starts_finish (e : OpenElement) :
    (finish e).starts = e.tag.start :: Node.startsAll e.children.reverse := by
  simp [finish, Node.starts]

variable {b c : Builder}

theorem starts_of_endTag {closed : Bool} (h : b.endTag closed = .ok c) :
    ∃ tag, b.tag = some tag ∧ c.starts = b.starts ++ [tag.start] := by
  obtain ⟨tag, attributes, name, htag, -, -, rfl⟩ := endTag_eq_ok.mp h
  refine ⟨tag, htag, ?_⟩
  cases closed with
  | true => exact starts_append ..
  | false => simp [starts, openStarts, forgetTag, Node.startsAll]

theorem starts_of_closeTag {name : QName} (h : b.closeTag name = .ok c) : c.starts = b.starts := by
  obtain ⟨-, attributes, e, outer, -, hopened, -, rfl⟩ := closeTag_eq_ok.mp h
  rw [starts_append, starts_finish]
  simp [starts, hopened, openStarts, forgetTag]

end Builder

/-! ## References that were followed -/

theorem readValueWith_references {b : Builder}
    {nested : List Char → Nat → Except Fault (List Char × Nat)} {bound : Nat} {p : Place}
    {value : List Char} {references : Nat}
    (h : readValueWith b maxEntityDepth nested bound 0 p = .ok (value, references)) :
    references = 0 := by
  induction bound generalizing p value with
  | zero =>
    cases h
    rfl
  | succ bound ih =>
    simp only [readValueWith] at h
    split at h
    case h_1 =>
      cases h
      rfl
    case h_2 =>
      obtain ⟨⟨reference, q⟩, -, h⟩ := bind_eq_ok.mp h
      cases reference with
      | char d =>
        obtain ⟨read, -, h⟩ := bind_eq_ok.mp h
        obtain ⟨⟨more, r⟩, hmore, heq⟩ := bind_eq_ok.mp h
        cases heq
        exact ih hmore
      | entity name =>
        obtain ⟨found, -, h⟩ := bind_eq_ok.mp h
        obtain ⟨count, -, h⟩ := bind_eq_ok.mp h
        obtain ⟨⟨read, r⟩, -, h⟩ := bind_eq_ok.mp h
        obtain ⟨⟨more, r'⟩, hmore, heq⟩ := bind_eq_ok.mp h
        cases heq
        exact ih hmore
    case h_3 =>
      obtain ⟨⟨more, r⟩, hmore, heq⟩ := bind_eq_ok.mp h
      cases heq
      exact ih hmore

theorem readValue_references {b : Builder} {left : Nat} (hleft : left = maxEntityDepth)
    {value value' : List Char} {references : Nat}
    (h : readValue b left value 0 = .ok (value', references)) : references = 0 := by
  subst hleft
  exact readValueWith_references h

/-! ## Growth -/

/-- Starts of elements in a stretch of text, in increasing order, besides any that stand before
`low`. -/
structure Strewn (low first last : Nat) (starts : List Nat) : Prop where
  within : ∀ s ∈ starts, s < low ∨ first ≤ s ∧ s < last
  increasing : (starts.filter (low ≤ ·)).Pairwise (· < ·)

namespace Strewn

variable {low first mid last : Nat} {starts starts' : List Nat}

theorem of_lt (h : ∀ s ∈ starts, s < low) : Strewn low first last starts where
  within s hs := .inl (h s hs)
  increasing := by
    have hnone : starts.filter (low ≤ ·) = [] :=
      List.filter_eq_nil_iff.mpr fun s hs => by simpa using h s hs
    rw [hnone]
    exact .nil

theorem nil : Strewn low first last [] :=
  .of_lt (by simp)

theorem singleton {s : Nat} (hfirst : first ≤ s) (hlast : s < last) :
    Strewn low first last [s] where
  within := by simp [hfirst, hlast]
  increasing := (List.pairwise_singleton ..).sublist List.filter_sublist

theorem append (h : Strewn low first mid starts) (h' : Strewn low mid last starts')
    (hfirst : first ≤ mid) (hlast : mid ≤ last) : Strewn low first last (starts ++ starts') where
  within s hs := by
    obtain hs | hs := List.mem_append.mp hs
    · have := h.within s hs
      omega
    · have := h'.within s hs
      omega
  increasing := by
    rw [List.filter_append, List.pairwise_append]
    refine ⟨h.increasing, h'.increasing, fun s hs t ht => ?_⟩
    obtain ⟨hs, hlow⟩ := List.mem_filter.mp hs
    obtain ⟨ht, hlow'⟩ := List.mem_filter.mp ht
    have := h.within s hs
    have := h'.within t ht
    simp only [decide_eq_true_eq] at hlow hlow'
    omega

end Strewn

/-- A builder that has read on from one place to another. -/
structure Builder.Grown (left low first last : Nat) (b c : Builder) : Prop where
  entities : c.entities = b.entities
  references : left = maxEntityDepth → b.references = 0 → c.references = 0
  starts : ∃ new, c.starts = b.starts ++ new ∧ Strewn low first last new

namespace Builder.Grown

variable {left low first mid last : Nat} {b c d : Builder}

theorem trans (h : Grown left low first mid b c) (h' : Grown left low mid last c d)
    (hfirst : first ≤ mid) (hlast : mid ≤ last) : Grown left low first last b d where
  entities := h'.entities.trans h.entities
  references hleft hb := h'.references hleft (h.references hleft hb)
  starts := by
    obtain ⟨new, hnew, hstrewn⟩ := h.starts
    obtain ⟨new', hnew', hstrewn'⟩ := h'.starts
    exact ⟨new ++ new', by rw [hnew', hnew, List.append_assoc],
      hstrewn.append hstrewn' hfirst hlast⟩

/-- Nothing was read but what holds no elements. -/
theorem of_starts_eq (hentities : c.entities = b.entities)
    (hreferences : c.references = b.references) (hstarts : c.starts = b.starts) :
    Grown left low first last b c where
  entities := hentities
  references _ hb := hreferences.trans hb
  starts := ⟨[], by rw [hstarts, List.append_nil], .nil⟩

theorem append (b : Builder) {node : Node} (hnode : node.starts = []) :
    Grown left low first last b (b.append node) :=
  of_starts_eq (by simp) (by simp) (by rw [starts_append, hnode, List.append_nil])

theorem appendText (b : Builder) (content : List Char) :
    Grown left low first last b (b.appendText content) :=
  of_starts_eq (by simp) (by simp) (starts_appendText b content)

theorem closeTag {name : QName} (h : b.closeTag name = .ok c) : Grown left low first last b c := by
  have hstarts := starts_of_closeTag h
  obtain ⟨-, attributes, e, outer, -, -, -, rfl⟩ := closeTag_eq_ok.mp h
  exact of_starts_eq (by simp [forgetTag]) (by simp [forgetTag]) hstarts

end Builder.Grown

section

variable {left low first last start : Nat} {b c : Builder}

theorem Builder.Grown.mono (h : Grown left low first start b c) (hlast : start ≤ last) :
    Grown left low first last b c where
  entities := h.entities
  references := h.references
  starts := by
    obtain ⟨new, hnew, hstrewn⟩ := h.starts
    refine ⟨new, hnew, fun s hs => ?_, hstrewn.increasing⟩
    have := hstrewn.within s hs
    omega

theorem foldlM_take_references {attributes : List TagAttribute}
    (h : attributes.foldlM (TagAttribute.take left) b = .ok c) (hleft : left = maxEntityDepth)
    (hb : b.references = 0) : c.references = 0 := by
  induction attributes generalizing b with
  | nil =>
    cases h
    exact hb
  | cons a attributes ih =>
    rw [List.foldlM_cons] at h
    obtain ⟨b', ha, h⟩ := bind_eq_ok.mp h
    obtain ⟨⟨value, references⟩, hvalue, hadd⟩ := bind_eq_ok.mp ha
    rw [hb] at hvalue
    obtain ⟨added, -, rfl⟩ := Builder.addAttribute_eq_ok.mp hadd
    exact ih h (readValue_references hleft hvalue)

theorem StartTag.starts_of_take {t : StartTag} (h : t.take left start b = .ok c) :
    c.starts = b.starts ++ if t.tagEnd = .missing then [] else [start] := by
  obtain ⟨b₁, hbegin, h⟩ := bind_eq_ok.mp h
  obtain ⟨b₂, hfold, hfinish⟩ := bind_eq_ok.mp h
  obtain ⟨-, rfl⟩ := Builder.beginTag_eq_ok.mp hbegin
  obtain ⟨attributes, declared, references, rfl⟩ := exists_of_foldlM_take hfold
  by_cases hend : t.tagEnd = .missing
  · rw [hend] at hfinish ⊢
    cases hfinish
    exact (List.append_nil _).symm
  · obtain ⟨closed, hclosed⟩ := TagEnd.exists_finish hend
    rw [hclosed] at hfinish
    obtain ⟨tag, htag, hstarts⟩ := Builder.starts_of_endTag hfinish
    cases htag
    rw [if_neg hend]
    exact hstarts

theorem StartTag.keeps_of_take {t : StartTag} (h : t.take left start b = .ok c) :
    c.entities = b.entities ∧
      (left = maxEntityDepth → b.references = 0 → c.references = 0) := by
  obtain ⟨b₁, hbegin, h⟩ := bind_eq_ok.mp h
  obtain ⟨b₂, hfold, hfinish⟩ := bind_eq_ok.mp h
  obtain ⟨-, rfl⟩ := Builder.beginTag_eq_ok.mp hbegin
  have hreferences (hleft : left = maxEntityDepth) (hb : b.references = 0) :=
    foldlM_take_references hfold hleft hb
  obtain ⟨attributes, declared, references, rfl⟩ := exists_of_foldlM_take hfold
  by_cases hend : t.tagEnd = .missing
  · rw [hend] at hfinish
    cases hfinish
    exact ⟨rfl, hreferences⟩
  · obtain ⟨closed, hclosed⟩ := TagEnd.exists_finish hend
    rw [hclosed] at hfinish
    obtain ⟨_, resolved, _, -, -, -, rfl⟩ := Builder.endTag_eq_ok.mp hfinish
    cases closed <;> simpa [Builder.forgetTag] using hreferences

theorem StartTag.grown {t : StartTag} (h : t.take left start b = .ok c) :
    Builder.Grown left low start (start + 1) b c := by
  obtain ⟨hentities, hreferences⟩ := t.keeps_of_take h
  refine ⟨hentities, hreferences, _, t.starts_of_take h, ?_⟩
  split
  case isTrue => exact .nil
  case isFalse => exact .singleton (Nat.le_refl _) (Nat.lt_succ_self _)

end

/-! ## Growth by tokens and content -/

/-- A text that ends at an index or before. -/
def Place.EndsBy (low : Nat) (p : Place) : Prop :=
  p.index + p.rest.length ≤ low

/-- Entities whose texts end at an index or before. -/
def Builder.EntitiesEndBy (low : Nat) (b : Builder) : Prop :=
  ∀ e ∈ b.entities, e.value.EndsBy low

/-- A reader of entities that adds only elements that start before an index. -/
def GrowsBelow (low : Nat) (nested : Place → Builder → Except Fault Builder) : Prop :=
  ∀ ⦃value b c⦄, nested value b = .ok c → value.EndsBy low → b.EntitiesEndBy low →
    c.entities = b.entities ∧ ∃ new, c.starts = b.starts ++ new ∧ ∀ s ∈ new, s < low

theorem Builder.mem_of_entity? {b : Builder} {name : List Char} {value : Place}
    (h : b.entity? name = some value) : ∃ e ∈ b.entities, e.value = value := by
  obtain ⟨e, he, rfl⟩ := Option.map_eq_some_iff.mp h
  exact ⟨e, List.mem_of_find?_eq_some he, rfl⟩

section

variable {left low bound : Nat} {nested : Place → Builder → Except Fault Builder} {p q : Place}
  {b c : Builder} {turn : Turn}

theorem readTextWith_grown (hnested : GrowsBelow low nested) {read : List Char}
    (h : readTextWith left nested bound read p b = .ok c) (hb : b.EntitiesEndBy low)
    (first : Nat) : Builder.Grown left low first first b c := by
  induction bound generalizing read p b with
  | zero =>
    cases h
    exact .appendText b _
  | succ bound ih =>
    rw [readTextWith_succ] at h
    cases hhead : textHead p.rest with
    | nothing =>
      rw [hhead] at h
      cases h
      exact .appendText b _
    | source content =>
      rw [hhead] at h
      exact ih h hb
    | reference =>
      rw [hhead] at h
      obtain ⟨⟨reference, r⟩, -, h⟩ := bind_eq_ok.mp h
      cases reference with
      | char d => exact ih h hb
      | entity name =>
        obtain ⟨value, hvalue, h⟩ := bind_eq_ok.mp h
        obtain ⟨count, hcount, h⟩ := bind_eq_ok.mp h
        obtain ⟨after, hafter, hmore⟩ := bind_eq_ok.mp h
        obtain ⟨e, he, rfl⟩ := b.mem_of_entity? (need_eq_ok.mp hvalue)
        obtain ⟨hentities, new, hnew, hlow⟩ := hnested hafter (hb e he) (by
          simpa [Builder.EntitiesEndBy] using hb)
        have hentities : after.entities = b.entities := by simpa using hentities
        have hstarts : after.starts = b.starts ++ new := by
          rw [hnew, ← b.starts_appendText read.reverse]
          rfl
        have hfirst : Builder.Grown left low first first b { after with
            tag := (b.appendText read.reverse).tag
            references := settleReference left after.references } :=
          ⟨hentities, fun hleft _ => if_pos hleft, new, hstarts, .of_lt hlow⟩
        have hafter : ∀ e ∈ after.entities, e.value.EndsBy low := by rwa [hentities]
        exact hfirst.trans (ih hmore hafter) (Nat.le_refl _) (Nat.le_refl _)

theorem Token.grown (hnested : GrowsBelow low nested) (h : Token left nested bound p b turn q c)
    (hb : b.EntitiesEndBy low) (hbound : p.rest.length ≤ bound) :
    Builder.Grown left low p.index (p.index + 1) b c := by
  cases h with
  | comment hsees h =>
    obtain ⟨content, -, -, rfl⟩ := readComment_eq_ok.mp ⟨hsees, h⟩
    exact .append b rfl
  | characters hsees h =>
    obtain ⟨content, -, rfl⟩ := readSection_eq_ok.mp ⟨hsees, h⟩
    exact .appendText b content
  | instruction hsees h =>
    obtain ⟨target, content, -, -, rfl⟩ := readInstruction_eq_ok.mp ⟨hsees, h⟩
    exact .append b rfl
  | endTag hsees h =>
    obtain ⟨name, -, hclose⟩ := readEndTag_eq_ok.mp ⟨hsees, h⟩
    exact .closeTag hclose
  | startTag hrest hd h =>
    obtain ⟨t, -, -, -, htake⟩ := exists_of_readStartTag h hbound (by rw [hrest]; rfl)
    exact t.grown htake
  | text hrest hd h =>
    obtain ⟨content, -, -, hc⟩ := readText_eq_ok.mp h
    exact (readTextWith_grown hnested hc hb p.index).mono (Nat.le_succ _)

theorem readContentWith_grown (hnested : GrowsBelow low nested) {levels : Nat}
    (h : readContentWith left nested bound levels p b = .ok (q, c)) (hb : b.EntitiesEndBy low)
    (hbound : p.rest.length < bound) :
    (∃ read, Past p read q) ∧ Builder.Grown left low p.index q.index b c := by
  induction bound generalizing levels p b with
  | zero => cases hbound
  | succ bound ih =>
    by_cases hrest : p.rest = []
    · simp only [readContentWith, hrest] at h
      cases h
      exact ⟨⟨[], rfl, rfl⟩, .of_starts_eq rfl rfl rfl⟩
    · obtain ⟨turn, r, b', htoken⟩ := exists_token hrest h
      obtain ⟨hlt, read, hpast⟩ := htoken.past (Nat.le_of_lt_succ hbound)
      have hgrown : Builder.Grown left low p.index r.index b b' :=
        (htoken.grown hnested hb (Nat.le_of_lt_succ hbound)).mono hlt
      rw [htoken.readContentWith_eq] at h
      by_cases hout : turn = .out ∧ levels ≤ 1
      · rw [if_pos hout] at h
        cases h
        exact ⟨⟨read, hpast⟩, hgrown⟩
      · rw [if_neg hout] at h
        have hshort : r.rest.length < bound := by
          have := congrArg List.length hpast.rest
          have := hpast.index
          simp only [List.length_append] at *
          omega
        have hb' : b'.EntitiesEndBy low := by
          unfold Builder.EntitiesEndBy
          rwa [hgrown.entities]
        obtain ⟨⟨more, hmore⟩, hgrown'⟩ := ih h hb' hshort
        refine ⟨⟨read ++ more, hpast.trans hmore⟩, hgrown.trans hgrown' (Nat.le_of_lt hlt) ?_⟩
        have := hmore.index
        omega

theorem growsBelow_readNested (low left : Nat) : GrowsBelow low (readNested left) := by
  intro value b c h hvalue hb
  induction left generalizing value b c with
  | zero => cases h
  | succ left ih =>
    obtain ⟨q, hq⟩ := readNested_eq_ok.mp h
    rw [readContent_eq] at hq
    obtain ⟨⟨read, hpast⟩, hgrown⟩ := readContentWith_grown ih hq hb (Nat.lt_succ_self _)
    obtain ⟨new, hnew, hstrewn⟩ := hgrown.starts
    refine ⟨hgrown.entities, new, hnew, fun s hs => ?_⟩
    have hlen := congrArg List.length hpast.rest
    have := hpast.index
    have := hstrewn.within s hs
    simp only [List.length_append, Place.EndsBy] at hlen hvalue
    omega

end

end DiagramView.Markup
