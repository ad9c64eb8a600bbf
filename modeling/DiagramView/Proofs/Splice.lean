import DiagramView.Proofs.Prolog

/-!
# Another tag in place of one

A start tag of a document is read at some point of the reading, into what has been read so far
(`Site`). Another tag that does the same up to a redrawing can stand in its place: what comes before
it is read as it was, what comes behind it is moved, and the document is read with the redrawn
result (`Reading.rootSite`, `Reading.exists_innerSite`).
-/

namespace DiagramView.Markup

/-! ## Edits -/

/-- The redrawing of an edit: the element at `start` gets other attributes, its tag has `length'`
characters in place of `length`, and what stands behind moves along. -/
def Redrawing.edit (start length length' : Nat) (f : List Attribute → List Attribute) :
    Redrawing where
  place s := if s < start + length then s else s - length + length'
  attributes s := if s = start then f else id

theorem Redrawing.edit_attributes (start length length' : Nat)
    (f : List Attribute → List Attribute) :
    (Redrawing.edit start length length' f).attributes start = f :=
  if_pos rfl

/-- A redrawing that moves what stands behind a tag and leaves all else as it is. -/
structure Redrawing.Edits (φ : Redrawing) (start length length' : Nat) : Prop where
  fixes : φ.FixesBelow start
  stop : φ.place (start + length) = start + length'
  keeps : ∀ n, φ.Keeps (start + length) n

theorem Redrawing.edit_edits (start length' : Nat) {length : Nat} (hlength : 0 < length)
    (f : List Attribute → List Attribute) :
    (Redrawing.edit start length length' f).Edits start length length' := by
  have hbehind (j : Nat) : (Redrawing.edit start length length' f).place (start + length + j) =
      start + length' + j := by
    simp only [Redrawing.edit]
    rw [if_neg (by omega)]
    omega
  have hstop : (Redrawing.edit start length length' f).place (start + length) = start + length' :=
    hbehind 0
  refine ⟨⟨fun s hs => if_pos (by omega), fun s hs => if_neg (Nat.ne_of_lt hs)⟩, hstop, fun n => ?_⟩
  refine ⟨fun j _ => ?_, fun j _ => if_neg (by omega)⟩
  rw [hbehind j, hstop]

theorem Redrawing.FixesBelow.mono {φ : Redrawing} {low low' : Nat} (h : φ.FixesBelow low')
    (hle : low ≤ low') : φ.FixesBelow low where
  place s hs := h.place s (Nat.le_trans hs hle)
  attributes s hs := h.attributes s (Nat.lt_of_lt_of_le hs hle)

/-- Two tags that begin alike, with names that no reader needs to look beyond, and end alike. -/
structure StartTag.Alike (t t' : StartTag) : Prop where
  spelled : t'.spelled = t.spelled
  long : 3 ≤ t.spelled.length
  tagEnd : t'.tagEnd = t.tagEnd

theorem StartTag.Alike.sameFront {t t' : StartTag} (h : t.Alike t') (rest rest' : List Char) :
    SameFront (t'.text ++ rest') (t.text ++ rest) := by
  have hfront (t : StartTag) (hlong : 3 ≤ t.spelled.length) (rest : List Char) :
      (t.text ++ rest).take 4 = ('<' :: t.spelled).take 4 := by
    rw [StartTag.text, ← List.cons_append, List.append_assoc]
    exact List.take_append_of_le_length (by rw [List.length_cons]; omega)
  rw [SameFront, hfront t h.long, hfront t' (h.spelled ▸ h.long), h.spelled]

/-- A start tag in a text, with the builders before and behind it, and what another tag in its
place comes to: `reads` says of a text that it is read with the redrawn result. -/
structure Site (reads : List Char → Redrawing → Prop) (first start : Nat) (text : List Char) where
  before : List Char
  tag : StartTag
  after : List Char
  b : Builder
  c : Builder
  text_eq : text = before ++ (tag.text ++ after)
  start_eq : start = first + before.length
  ended : tag.tagEnd ≠ .missing
  references : b.references = 0
  take : tag.take maxEntityDepth start b = .ok c
  splice : ∀ {φ : Redrawing} {t' : StartTag}, tag.Alike t' →
    φ.Edits start tag.text.length t'.text.length →
    t'.take maxEntityDepth start (b.redraw φ) = .ok (c.redraw φ) →
    reads (before ++ (t'.text ++ after)) φ

/-! ## Content -/

/-- A text that is read as content in place of another, with the redrawn result. -/
def ReadsContent (levels : Nat) (p : Place) (b : Builder) (q : Place) (c : Builder)
    (text : List Char) (φ : Redrawing) : Prop :=
  ∀ ⦃rest' bound⦄, SameFront rest' q.rest → (text ++ rest').length < bound →
    readContentWith maxEntityDepth (readNested maxEntityDepth) bound levels
      ⟨p.index, text ++ rest'⟩ (b.redraw φ) = .ok (⟨φ.place q.index, rest'⟩, c.redraw φ)

section

variable {low bound levels start : Nat} {p q r : Place} {b c : Builder} {turn : Turn}
  {text : List Char} {reads : List Char → Redrawing → Prop}

/-- The token at which an element starts is its start tag. -/
theorem Token.exists_startTag {left : Nat} {nested : Place → Builder → Except Fault Builder}
    (hgrows : GrowsBelow low nested) (h : Token left nested bound p b turn q c)
    (hb : b.EntitiesEndBy low) (hbound : p.rest.length ≤ bound) (hlow : low ≤ p.index)
    (hnew : p.index ∉ b.starts) (hmem : p.index ∈ c.starts) :
    ∃ t : StartTag, t.tagEnd ≠ .missing ∧ t.tagEnd.turn = turn ∧ Past p t.text q ∧
      t.take left p.index b = .ok c := by
  have hsame (hstarts : c.starts = b.starts) : False := hnew (hstarts ▸ hmem)
  cases h with
  | comment hsees h =>
    obtain ⟨content, -, -, rfl⟩ := readComment_eq_ok.mp ⟨hsees, h⟩
    exact (hsame (by rw [Builder.starts_append]; exact List.append_nil _)).elim
  | characters hsees h =>
    obtain ⟨content, -, rfl⟩ := readSection_eq_ok.mp ⟨hsees, h⟩
    exact (hsame (Builder.starts_appendText ..)).elim
  | instruction hsees h =>
    obtain ⟨target, content, -, -, rfl⟩ := readInstruction_eq_ok.mp ⟨hsees, h⟩
    exact (hsame (by rw [Builder.starts_append]; exact List.append_nil _)).elim
  | endTag hsees h =>
    obtain ⟨name, -, hclose⟩ := readEndTag_eq_ok.mp ⟨hsees, h⟩
    exact (hsame (Builder.starts_of_closeTag hclose)).elim
  | text hrest hd h =>
    obtain ⟨content, -, -, hc⟩ := readText_eq_ok.mp h
    obtain ⟨new, hstarts, hstrewn⟩ := (readTextWith_grown hgrows hc hb p.index).starts
    rw [hstarts, List.mem_append] at hmem
    have := hstrewn.within _ (hmem.resolve_left hnew)
    omega
  | startTag hrest hd h =>
    obtain ⟨t, rfl, -, hpast, htake⟩ := exists_of_readStartTag h hbound (by rw [hrest]; rfl)
    refine ⟨t, fun hmissing => hsame ?_, rfl, hpast, htake⟩
    rw [t.starts_of_take htake, if_pos hmissing, List.append_nil]

/-- A tag that stands at once where content is read. -/
def Site.here (t : StartTag) (hended : t.tagEnd ≠ .missing) (hreferences : b.references = 0)
    (htake : t.take maxEntityDepth p.index b = .ok c) {more : List Char}
    (hsplice : ∀ {φ : Redrawing} {t' : StartTag}, t.Alike t' →
      φ.Edits p.index t.text.length t'.text.length →
      t'.take maxEntityDepth p.index (b.redraw φ) = .ok (c.redraw φ) → reads (t'.text ++ more) φ) :
    Site reads p.index p.index (t.text ++ more) where
  before := []
  tag := t
  after := more
  b := b
  c := c
  text_eq := rfl
  start_eq := rfl
  ended := hended
  references := hreferences
  take := htake
  splice := hsplice

theorem TagEnd.turn_ne_out (tagEnd : TagEnd) : tagEnd.turn ≠ .out := by
  cases tagEnd <;> decide

/-- Another tag in place of one, and the content behind it. -/
theorem readsContent_tag {φ : Redrawing} {t t' : StartTag} {b' : Builder}
    (hended : t.tagEnd ≠ .missing)
    (h : readContentWith maxEntityDepth (readNested maxEntityDepth) bound
      (t.tagEnd.turn.levels levels) r b' = .ok (q, c))
    (hbound : r.rest.length < bound) (hb' : b'.EntitiesEndBy low) (hlow : low ≤ p.index)
    (hpast : Past p t.text r) (hmore : Past r text q) (halike : t.Alike t')
    (hedits : φ.Edits p.index t.text.length t'.text.length)
    (htake : t'.take maxEntityDepth p.index (b.redraw φ) = .ok (b'.redraw φ)) :
    ReadsContent levels p b q c (t'.text ++ text) φ := by
  intro rest' bound' hrest hbound'
  obtain ⟨bound', rfl⟩ := Nat.exists_eq_add_one_of_ne_zero (Nat.ne_zero_of_lt hbound')
  have hcarries := carriesBelow_readNested (hedits.fixes.mono hlow) maxEntityDepth
  obtain ⟨text', hmore', hcarry⟩ :=
    readContentWith_redraw (growsBelow_readNested low maxEntityDepth) hcarries h hb' hbound
  obtain rfl := hmore.unique hmore'
  rw [hpast.index] at hcarry
  simp only [List.length_append] at hbound'
  have hpos := t'.length_attributes_lt
  have hshort : (text ++ rest').length < bound' := by
    rw [List.length_append]
    omega
  have htoken : Token maxEntityDepth (readNested maxEntityDepth) bound'
      ⟨p.index, t'.text ++ (text ++ rest')⟩ (b.redraw φ) t'.tagEnd.turn
      ⟨p.index + t'.text.length, text ++ rest'⟩ (b'.redraw φ) :=
    t'.token (fun hmissing => absurd (halike.tagEnd ▸ hmissing) hended) (by omega) htake
  rw [List.append_assoc, htoken.readContentWith_eq,
    if_neg (fun hout => t'.tagEnd.turn_ne_out hout.1), halike.tagEnd, ← hedits.stop]
  exact hcarry (hedits.keeps _) hrest hshort

/-- A token before what is read in another form. -/
theorem ReadsContent.behind {φ : Redrawing} {b' : Builder} {text' : List Char}
    (htoken : Token maxEntityDepth (readNested maxEntityDepth) bound p b turn r b')
    (hbound : p.rest.length ≤ bound) (hb : b.EntitiesEndBy low) {read : List Char}
    (hpast : Past p read r) (hout : ¬(turn = .out ∧ levels ≤ 1)) (hφ : φ.FixesBelow start)
    (hlow : low ≤ start) (hstart : r.index ≤ start)
    (hfront : ∀ {rest'}, SameFront rest' q.rest → SameFront (text' ++ rest') r.rest)
    (h : ReadsContent (turn.levels levels) r b' q c text' φ) :
    ReadsContent levels p b q c (read ++ text') φ := by
  intro rest' bound' hrest hbound'
  obtain ⟨bound', rfl⟩ := Nat.exists_eq_add_one_of_ne_zero (Nat.ne_zero_of_lt hbound')
  have hcarries := carriesBelow_readNested (hφ.mono hlow) maxEntityDepth
  obtain ⟨read', hpast', hcarry⟩ :=
    htoken.redraw (growsBelow_readNested low maxEntityDepth) hcarries hb hbound
  obtain rfl := hpast.unique hpast'
  have hindex := hpast.index
  have hkeeps : φ.Keeps p.index read.length := hφ.keeps (by omega)
  simp only [List.length_append] at hbound'
  have hlt := (htoken.past hbound).1
  have hall : (read ++ (text' ++ rest')).length ≤ bound' := by
    simp only [List.length_append]
    omega
  have hshort : (text' ++ rest').length < bound' := by
    rw [List.length_append]
    omega
  have htoken' := hcarry hkeeps (hfront hrest) hall
  rw [hφ.place p.index (by omega), hφ.place r.index hstart] at htoken'
  rw [List.append_assoc, htoken'.readContentWith_eq, if_neg hout]
  exact h hrest hshort

theorem exists_site_of_readContentWith
    (h : readContentWith maxEntityDepth (readNested maxEntityDepth) bound levels p b = .ok (q, c))
    (hbound : p.rest.length < bound) (hb : b.EntitiesEndBy low) (hreferences : b.references = 0)
    (hlow : low ≤ start) (hnew : start ∉ b.starts) (hmem : start ∈ c.starts) :
    ∃ text, Past p text q ∧ Nonempty (Site (ReadsContent levels p b q c) p.index start text) := by
  have hgrows := growsBelow_readNested low maxEntityDepth
  induction bound generalizing levels p b with
  | zero => cases hbound
  | succ bound ih =>
    have hle := Nat.le_of_lt_succ hbound
    by_cases hempty : p.rest = []
    · simp only [readContentWith, hempty] at h
      cases h
      exact absurd hmem hnew
    · obtain ⟨turn, r, b', htoken⟩ := exists_token hempty h
      have hgrown := htoken.grown hgrows hb hle
      have hb' : b'.EntitiesEndBy low := by
        unfold Builder.EntitiesEndBy
        rwa [hgrown.entities]
      obtain ⟨hlt, read, hpast⟩ := htoken.past hle
      have hlen := congrArg List.length hpast.rest
      have hindex := hpast.index
      rw [List.length_append] at hlen
      rw [htoken.readContentWith_eq] at h
      by_cases hhere : start ∈ b'.starts
      · obtain ⟨new, hstarts, hstrewn⟩ := hgrown.starts
        rw [hstarts, List.mem_append] at hhere
        obtain rfl : start = p.index := by
          have := hstrewn.within start (hhere.resolve_left hnew)
          omega
        obtain ⟨t, hended, rfl, hpast, htake⟩ := htoken.exists_startTag hgrows hb hle hlow hnew
          (by rw [hstarts]; exact List.mem_append.mpr hhere)
        rw [if_neg fun hout => t.tagEnd.turn_ne_out hout.1] at h
        obtain ⟨⟨more, hmore⟩, -⟩ := readContentWith_grown hgrows h hb' (by omega)
        refine ⟨t.text ++ more, hpast.trans hmore, ⟨.here t hended hreferences htake ?_⟩⟩
        intro φ t' halike hedits htake'
        exact readsContent_tag hended h (by omega) hb' hlow hpast hmore halike hedits htake'
      · by_cases hout : turn = .out ∧ levels ≤ 1
        · rw [if_pos hout] at h
          cases h
          exact absurd hmem hhere
        · rw [if_neg hout] at h
          obtain ⟨text, hmore, ⟨s⟩⟩ := ih h (by omega) hb' (hgrown.references rfl hreferences) hhere
          have hstart := s.start_eq
          refine ⟨read ++ text, hpast.trans hmore, ⟨{ s with
            before := read ++ s.before
            text_eq := (congrArg (read ++ ·) s.text_eq).trans (List.append_assoc ..).symm
            start_eq := by rw [List.length_append]; omega
            splice := ?_ }⟩⟩
          intro φ t' halike hedits htake'
          have hreads := s.splice halike hedits htake'
          rw [List.append_assoc]
          refine .behind htoken hle hb hpast hout hedits.fixes hlow (by omega) ?_ hreads
          intro rest' hrest
          have htext : r.rest = s.before ++ (s.tag.text ++ (s.after ++ q.rest)) := by
            have htext := congrArg (· ++ q.rest) s.text_eq
            simpa [hmore.rest] using htext
          rw [htext]
          simp only [List.append_assoc]
          exact (halike.sameFront _ _).append s.before

end

/-! ## Documents -/

/-- Where the elements of a document start. -/
def Document.starts (d : Document) : List Nat :=
  Node.startsAll d.nodes

/-- Reads the content of the root, if its tag leaves it open. -/
def readOn (tagEnd : TagEnd) (p : Place) (b : Builder) : Except Fault (Place × Builder) :=
  if tagEnd = .opened then readContent maxEntityDepth p b else .ok (p, b)

/-- Reads what stands behind the root. -/
def readTail (p : Place) (b : Builder) : Except Fault Document := do
  let (p, b) ← readMisc (p.rest.length + 1) p b
  if p.rest.isEmpty then b.document else .error .malformed

theorem start?_redraw (φ : Redrawing) (node : Node) :
    (node.redraw φ).start? = node.start?.map φ.place := by
  cases node <;> rfl

theorem Document.root?_redraw (φ : Redrawing) (d : Document) :
    (d.redraw φ).root? = d.root?.map (·.redraw φ) := by
  have hstart : (fun node : Node => node.start?.isSome) ∘ Node.redraw φ =
      fun node : Node => node.start?.isSome := by
    funext node
    exact (congrArg Option.isSome (start?_redraw φ node)).trans Option.isSome_map
  unfold root? redraw
  rw [List.find?_map, hstart]

theorem Node.head?_starts {nodes : List Node} {root : Node}
    (h : nodes.find? (fun node => node.start?.isSome) = some root) :
    (Node.startsAll nodes).head? = root.start? := by
  induction nodes with
  | nil => cases h
  | cons node nodes ih =>
    cases node with
    | element start name attributes children =>
      cases h
      rfl
    | text => exact ih h
    | comment => exact ih h
    | instruction => exact ih h

theorem Document.head?_starts {d : Document} {root : Node} (h : d.root? = some root) :
    d.starts.head? = root.start? :=
  Node.head?_starts h

section

variable {p q : Place} {b c : Builder} {d : Document}

theorem document_eq_ok : b.document = .ok d ↔
    b.opened = [] ∧ d = ⟨b.nodes.reverse⟩ ∧ d.root?.isSome := by
  unfold Builder.document
  dsimp only
  split
  case isTrue h =>
    obtain ⟨hopened, hroot⟩ := Bool.and_eq_true_iff.mp h
    refine ⟨fun heq => ?_, fun heq => by rw [heq.2.1]⟩
    cases heq
    exact ⟨List.isEmpty_iff.mp hopened, rfl, hroot⟩
  case isFalse h =>
    refine ⟨by rintro ⟨⟩, ?_⟩
    rintro ⟨hopened, rfl, hroot⟩
    exact absurd (by rw [hopened, hroot]; rfl) h

theorem document_redraw (φ : Redrawing) (h : b.document = .ok d) :
    (b.redraw φ).document = .ok (d.redraw φ) := by
  obtain ⟨hopened, rfl, hroot⟩ := document_eq_ok.mp h
  refine document_eq_ok.mpr ⟨by simp [Builder.redraw, hopened], ?_, ?_⟩
  · simp [Builder.redraw, Document.redraw]
  · rw [Document.root?_redraw, Option.isSome_map]
    exact hroot

theorem readTail_redraw (h : readTail q c = .ok d) :
    d.starts = c.starts ∧ d.starts ≠ [] ∧
      ∀ i φ, readTail ⟨i, q.rest⟩ (c.redraw φ) = .ok (d.redraw φ) := by
  obtain ⟨⟨r, e⟩, hmisc, h⟩ := bind_eq_ok.mp h
  dsimp only at h
  split at h
  case isFalse => cases h
  case isTrue hempty =>
    have hempty := List.isEmpty_iff.mp hempty
    obtain ⟨hopened, hnodes, hroot⟩ := document_eq_ok.mp h
    obtain ⟨root, hroot⟩ := Option.isSome_iff_exists.mp hroot
    have hlt := Nat.lt_succ_self q.rest.length
    refine ⟨?_, fun hnil => ?_, fun i φ => ?_⟩
    · obtain ⟨hprefaced, -⟩ := readMisc_redraw ⟨id, fun _ => id⟩ hmisc hlt
      rw [← hprefaced.starts, Document.starts, Builder.starts, hopened, hnodes]
      exact (List.append_nil _).symm
    · have hstart := Document.head?_starts hroot
      have hsome := List.find?_some hroot
      rw [hnil] at hstart
      rw [← hstart] at hsome
      cases hsome
    · obtain ⟨-, read, hpast, hcarry⟩ := readMisc_redraw φ hmisc hlt
      have hagain := hcarry i (.refl r.rest) (hpast.rest ▸ hlt)
      rw [← hpast.rest] at hagain
      refine bind_eq_ok.mpr ⟨_, hagain, ?_⟩
      dsimp only
      rw [hempty]
      exact document_redraw φ h

theorem readBody_eq (p : Place) (b : Builder) : readBody p b =
    (if seesTag p.rest then readElement p b else .ok (p, b)) >>= fun r => readTail r.1 r.2 := by
  unfold readBody
  cases seesTag p.rest <;> rfl

theorem readElement_eq (p : Place) (b : Builder) : readElement p b =
    readStartTag maxEntityDepth p.rest.length p b >>= fun r => readOn r.1 r.2.1 r.2.2 := by
  unfold readElement readOn
  cases readStartTag maxEntityDepth p.rest.length p b with
  | error => rfl
  | ok r => obtain ⟨tagEnd, q, c⟩ := r; cases tagEnd <;> rfl

/-- A root's tag, and what it is followed by. -/
theorem readBody_text {t : StartTag} {i : Nat} (htake : t.take maxEntityDepth i b = .ok c)
    (hended : t.tagEnd ≠ .missing) (rest : List Char) : readBody ⟨i, t.text ++ rest⟩ b =
      readOn t.tagEnd ⟨i + t.text.length, rest⟩ c >>= fun r => readTail r.1 r.2 := by
  have hlen := t.length_attributes_lt
  have htag : readStartTag maxEntityDepth (t.text ++ rest).length ⟨i, t.text ++ rest⟩ b =
      .ok (t.tagEnd, ⟨i + t.text.length, rest⟩, c) :=
    readStartTag_text t (fun hmissing => absurd hmissing hended)
      (by rw [List.length_append]; omega) htake
  have hsees : seesTag (t.text ++ rest) := rfl
  rw [readBody_eq, if_pos hsees, readElement_eq, htag]
  rfl

/-- A document as it is read: the prolog, the root's tag and its content, and what stands
behind. -/
structure Reading (markup : List Char) (d : Document) where
  read : List Char
  root : Place
  b : Builder
  tag : StartTag
  inner : Place
  b' : Builder
  q : Place
  c : Builder
  prolog : readProlog markup = .ok (root, b)
  prefaced : Prefaced (Place.start markup) {} root b
  past_root : Past (Place.start markup) read root
  past_tag : Past root tag.text inner
  ended : tag.tagEnd ≠ .missing
  take : tag.take maxEntityDepth root.index b = .ok b'
  content : readOn tag.tagEnd inner b' = .ok (q, c)
  tail : readTail q c = .ok d

theorem prefaced_of_readProlog {markup : List Char} (h : readProlog markup = .ok (p, b)) :
    Prefaced (Place.start markup) {} p b := by
  -- that nothing else is added does not depend on what stands behind
  have htag : SameTag ['<', 'a'] ['<', 'a'] := ⟨.refl _, 'a', [], rfl, by decide, by decide⟩
  exact (readProlog_swap htag ⟨id, fun _ => id⟩ h).1

theorem exists_reading {markup : List Char} (h : readDocument markup = .ok d) :
    Nonempty (Reading markup d) := by
  rw [readDocument_eq] at h
  obtain ⟨⟨p, b⟩, hprolog, hbody⟩ := bind_eq_ok.mp h
  have hprefaced := prefaced_of_readProlog hprolog
  obtain ⟨read, hpast⟩ := hprefaced.past
  rw [readBody_eq] at hbody
  obtain ⟨⟨q, c⟩, helement, htail⟩ := bind_eq_ok.mp hbody
  obtain ⟨hstarts, hne, -⟩ := readTail_redraw htail
  dsimp only at helement htail hstarts
  have hbare : c.starts ≠ b.starts := by
    rw [← hstarts, hprefaced.starts]
    exact hne
  split at helement
  case isFalse =>
    cases helement
    exact absurd rfl hbare
  case isTrue hsees =>
    rw [readElement_eq] at helement
    obtain ⟨⟨tagEnd, r, b'⟩, htag, hcontent⟩ := bind_eq_ok.mp helement
    obtain ⟨t, rfl, -, hpast', htake⟩ := exists_of_readStartTag htag (Nat.le_refl _) hsees
    have hended : t.tagEnd ≠ .missing := by
      intro hmissing
      dsimp only at hcontent
      rw [hmissing] at hcontent
      cases hcontent
      refine hbare ?_
      rw [t.starts_of_take htake, if_pos hmissing, List.append_nil]
    exact ⟨⟨read, p, b, t, r, b', q, c, hprolog, hprefaced, hpast, hpast', hended, htake, hcontent,
      htail⟩⟩

theorem readOn_grown {tagEnd : TagEnd} {low : Nat} (h : readOn tagEnd p b = .ok (q, c))
    (hb : b.EntitiesEndBy low) :
    (∃ read, Past p read q) ∧ Builder.Grown maxEntityDepth low p.index q.index b c := by
  unfold readOn at h
  split at h
  case isTrue =>
    rw [readContent_eq] at h
    exact readContentWith_grown (growsBelow_readNested low maxEntityDepth) h hb
      (Nat.lt_succ_self _)
  case isFalse =>
    cases h
    exact ⟨⟨[], .refl _⟩, .of_starts_eq rfl rfl rfl⟩

theorem readOn_redraw {φ : Redrawing} {tagEnd : TagEnd} {low : Nat}
    (h : readOn tagEnd p b = .ok (q, c)) (hb : b.EntitiesEndBy low) (hφ : φ.FixesBelow low)
    (hkeeps : ∀ n, φ.Keeps p.index n) : readOn tagEnd ⟨φ.place p.index, p.rest⟩ (b.redraw φ) =
      .ok (⟨φ.place q.index, q.rest⟩, c.redraw φ) := by
  unfold readOn at h ⊢
  split at h
  case isTrue hopened =>
    rw [readContent_eq] at h
    obtain ⟨read, hpast, hcarry⟩ := readContentWith_redraw
      (growsBelow_readNested low maxEntityDepth) (carriesBelow_readNested hφ maxEntityDepth) h hb
      (Nat.lt_succ_self _)
    have hlt : (read ++ q.rest).length < p.rest.length + 1 := by
      rw [← hpast.rest]
      exact Nat.lt_succ_self _
    have hagain := hcarry (hkeeps _) (.refl q.rest) hlt
    rw [← hpast.rest] at hagain
    rw [if_pos hopened, readContent_eq]
    exact hagain
  case isFalse hopened =>
    cases h
    rw [if_neg hopened]

end

/-- Texts that are read with a redrawn document as result. -/
def ReadsDocument (d : Document) (text : List Char) (φ : Redrawing) : Prop :=
  readDocument text = .ok (d.redraw φ)

namespace Reading

variable {markup : List Char} {d : Document} (R : Reading markup d)

theorem entitiesEndBy : R.b.EntitiesEndBy R.root.index :=
  R.prefaced.entities (by simp [Builder.EntitiesEndBy])

theorem entitiesEndBy' : R.b'.EntitiesEndBy R.root.index := by
  unfold Builder.EntitiesEndBy
  rw [(R.tag.keeps_of_take R.take).1]
  exact R.entitiesEndBy

theorem starts_inner : R.b'.starts = [R.root.index] := by
  rw [R.tag.starts_of_take R.take, if_neg R.ended, R.prefaced.starts]
  rfl

theorem exists_starts : ∃ new, d.starts = R.root.index :: new ∧
    Strewn R.root.index R.inner.index R.q.index new := by
  obtain ⟨new, hnew, hstrewn⟩ := (readOn_grown R.content R.entitiesEndBy').2.starts
  refine ⟨new, ?_, hstrewn⟩
  rw [(readTail_redraw R.tail).1, hnew, R.starts_inner]
  rfl

theorem root_eq {root : Nat} (h : d.starts.head? = some root) : root = R.root.index := by
  obtain ⟨new, hstarts, -⟩ := R.exists_starts
  rw [hstarts] at h
  exact (Option.some.inj h).symm

theorem references : R.b.references = 0 :=
  R.prefaced.references

/-- Another text in place of the root and what follows it. -/
theorem readDocument_swap {rest' : List Char} (htag : SameFront rest' R.root.rest)
    (φ : Redrawing) : readDocument (R.read ++ rest') =
      readBody ⟨R.root.index, rest'⟩ (R.b.redraw φ) := by
  obtain ⟨c, hc, hfront⟩ := R.tag.exists_text_append
  obtain ⟨more, hmore⟩ := hfront R.inner.rest
  have htag : SameTag R.root.rest rest' := by
    refine ⟨htag, c, more, R.past_tag.rest.trans hmore, ?_, ?_⟩ <;>
    · rintro rfl
      exact absurd hc (by decide)
  have hswap := (readProlog_swap htag φ R.prolog).2 (List.suffix_refl _)
  rw [swap_eq (List.nil_append _).symm, swap_eq R.past_root.rest] at hswap
  rw [readDocument_eq, hswap]
  rfl

theorem root_index : R.root.index = 0 + R.read.length :=
  R.past_root.index

/-- The site of the root's tag. -/
def rootSite : Site (ReadsDocument d) 0 R.root.index markup where
  before := R.read
  tag := R.tag
  after := R.inner.rest
  b := R.b
  c := R.b'
  text_eq := by
    rw [← R.past_tag.rest]
    exact R.past_root.rest
  start_eq := R.root_index
  ended := R.ended
  references := R.references
  take := R.take
  splice := by
    intro φ t' halike hedits htake
    have hfront : SameFront (t'.text ++ R.inner.rest) R.root.rest := by
      rw [R.past_tag.rest]
      exact halike.sameFront _ _
    have hcontent := readOn_redraw R.content R.entitiesEndBy' hedits.fixes (by
      rw [R.past_tag.index]
      exact hedits.keeps)
    rw [R.past_tag.index, hedits.stop] at hcontent
    rw [ReadsDocument, R.readDocument_swap hfront φ,
      readBody_text htake (halike.tagEnd ▸ R.ended), halike.tagEnd, hcontent]
    exact (readTail_redraw R.tail).2.2 _ φ

/-- The site of a tag behind the root's. -/
theorem exists_innerSite {start : Nat} (hlt : R.root.index < start) (hmem : start ∈ d.starts) :
    Nonempty (Site (ReadsDocument d) 0 start markup) := by
  have hmem : start ∈ R.c.starts := (readTail_redraw R.tail).1 ▸ hmem
  have hnew : start ∉ R.b'.starts := by
    rw [R.starts_inner, List.mem_singleton]
    omega
  have hopened : R.tag.tagEnd = .opened := by
    refine Decidable.byContradiction fun hother => hnew ?_
    have hcontent := R.content
    rw [readOn, if_neg hother] at hcontent
    rwa [show R.b' = R.c from (Prod.ext_iff.mp (Except.ok.inj hcontent)).2]
  have hcontent : readContentWith maxEntityDepth (readNested maxEntityDepth)
      (R.inner.rest.length + 1) 1 R.inner R.b' = .ok (R.q, R.c) := by
    have hcontent := R.content
    rwa [readOn, if_pos hopened, readContent_eq] at hcontent
  obtain ⟨text, hpast, ⟨s⟩⟩ := exists_site_of_readContentWith hcontent (Nat.lt_succ_self _)
    R.entitiesEndBy' ((R.tag.keeps_of_take R.take).2 rfl R.references) (Nat.le_of_lt hlt) hnew hmem
  have htext : R.inner.rest = s.before ++ (s.tag.text ++ (s.after ++ R.q.rest)) := by
    have htext := congrArg (· ++ R.q.rest) s.text_eq
    simpa [hpast.rest] using htext
  refine ⟨{ s with
    before := R.read ++ (R.tag.text ++ s.before)
    after := s.after ++ R.q.rest
    text_eq := ?_
    start_eq := ?_
    splice := ?_ }⟩
  · have hall := (R.past_root.trans R.past_tag).rest
    rw [htext] at hall
    simpa [Place.start] using hall
  · have := s.start_eq
    have := R.past_tag.index
    have := R.root_index
    simp only [List.length_append]
    omega
  · intro φ t' halike hedits htake
    have hfront : SameFront
        (R.tag.text ++ (s.before ++ (t'.text ++ (s.after ++ R.q.rest)))) R.root.rest := by
      rw [R.past_tag.rest, htext]
      exact ((halike.sameFront _ _).append s.before).append R.tag.text
    have hroot : R.tag.take maxEntityDepth R.root.index (R.b.redraw φ) = .ok (R.b'.redraw φ) := by
      have hroot := R.tag.take_redraw R.take (hedits.fixes.attributes _ hlt)
      rwa [hedits.fixes.place _ (Nat.le_of_lt hlt)] at hroot
    have hreads := s.splice halike hedits htake (.refl R.q.rest) (Nat.lt_succ_self _)
    simp only [List.append_assoc] at hreads
    have hcontent : readOn R.tag.tagEnd
        ⟨R.root.index + R.tag.text.length, s.before ++ (t'.text ++ (s.after ++ R.q.rest))⟩
        (R.b'.redraw φ) = .ok (⟨φ.place R.q.index, R.q.rest⟩, R.c.redraw φ) := by
      rw [readOn, if_pos hopened, readContent_eq, ← R.past_tag.index]
      exact hreads
    rw [ReadsDocument, List.append_assoc, List.append_assoc, R.readDocument_swap hfront φ,
      readBody_text hroot R.ended, hcontent]
    exact (readTail_redraw R.tail).2.2 _ φ

end Reading

end DiagramView.Markup
