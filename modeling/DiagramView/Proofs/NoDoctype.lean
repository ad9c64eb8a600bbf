import DiagramView.Proofs.Transparency

/-!
# Documents without a document type

A document without a document type (`hasDoctype`) declares no entities, so that nothing is read but
its own text, once and in order. Then no end tag closes more than is open
(`closes_readDocument`), and every element below the root starts behind the root's tag
(`exists_tag_of_root`).
-/

theorem DiagramView.Text.occursIn_of_suffix {pattern rest cs : List Char}
    (h : pattern <+: rest) (hrest : rest <:+ cs) : occursIn pattern cs = true := by
  have hself : occursIn pattern rest = true := by
    cases rest with
    | nil => simpa [occursIn] using h
    | cons c rest => simp [occursIn, List.isPrefixOf_iff_prefix.mpr h]
  obtain ⟨front, rfl⟩ := hrest
  induction front with
  | nil => exact hself
  | cons c front ih => simp [occursIn, ih]

namespace DiagramView.Markup

/-- Reads what may stand before a document type. -/
def readPreface (markup : List Char) : Except Fault (Place × Builder) := do
  let p := skipOrderMark (Place.start markup)
  let p ← need (if p.sees "<?xml " then skipDeclaration p else some p)
  readMisc (p.rest.length + 1) p {}

/-- Whether a text has a document type where one is read. -/
def hasDoctype (markup : List Char) : Bool :=
  match readPreface markup with
  | .ok (p, _) => p.skipSpaces.sees "<!DOCTYPE"
  | .error _ => false

/-! ## Faults -/

/-- An answer that is not the complaint about an end tag too many. -/
structure Closes {α : Type} (x : Except Fault α) : Prop where
  ne_overclosed : x ≠ .error .overclosed

section

variable {α β : Type}

theorem Closes.ok (a : α) : Closes (.ok a : Except Fault α) :=
  ⟨by rintro ⟨⟩⟩

theorem Closes.malformed : Closes (.error .malformed : Except Fault α) :=
  ⟨by rintro ⟨⟩⟩

theorem Closes.bind {x : Except Fault α} {f : α → Except Fault β} (hx : Closes x)
    (hf : ∀ a, x = .ok a → Closes (f a)) : Closes (x >>= f) := by
  cases x with
  | ok a => exact hf a rfl
  | error fault =>
    refine ⟨fun h => ?_⟩
    cases h
    exact hx.ne_overclosed rfl

theorem closes_need (result : Option α) : Closes (need result) := by
  cases result with
  | none => exact .malformed
  | some a => exact .ok a

end

section

variable {b : Builder}

theorem closes_countReference (left references : Nat) :
    Closes (countReference left references) := by
  unfold countReference
  split
  · exact .ok _
  · split
    · exact .malformed
    · exact .ok _

theorem closes_referencedChar (left : Nat) (c : Char) : Closes (referencedChar left c) := by
  unfold referencedChar
  split
  · exact .ok _
  · split
    · exact .malformed
    · exact .ok _

theorem closes_readValueWith {left : Nat}
    {nested : List Char → Nat → Except Fault (List Char × Nat)}
    (hnested : ∀ value references, Closes (nested value references)) (bound references : Nat)
    (p : Place) : Closes (readValueWith b left nested bound references p) := by
  induction bound generalizing references p with
  | zero => exact .ok _
  | succ bound ih =>
    simp only [readValueWith]
    split
    · exact .ok _
    · refine .bind (closes_need _) fun r _ => ?_
      split
      · refine .bind (closes_referencedChar ..) fun _ _ => ?_
        exact .bind (ih ..) fun _ _ => .ok _
      · refine .bind (closes_need _) fun _ _ => .bind (closes_countReference ..) fun _ _ => ?_
        exact .bind (hnested ..) fun _ _ => .bind (ih ..) fun _ _ => .ok _
    · exact .bind (ih ..) fun _ _ => .ok _

theorem closes_readValue (left : Nat) (value : List Char) (references : Nat) :
    Closes (readValue b left value references) := by
  induction left generalizing value references with
  | zero => exact closes_readValueWith (fun _ _ => .malformed) ..
  | succ left ih => exact closes_readValueWith ih ..

theorem closes_addAttribute (name : QName) (value : List Char) :
    Closes (b.addAttribute name value) := by
  unfold Builder.addAttribute
  dsimp only
  repeat' split
  all_goals first | exact .malformed | exact .ok _

theorem closes_resolveTag : Closes b.resolveTag := by
  unfold Builder.resolveTag
  dsimp only
  split
  · exact .malformed
  · exact .ok _

theorem closes_endTag (closed : Bool) : Closes (b.endTag closed) := by
  unfold Builder.endTag
  split
  · exact .malformed
  · refine .bind closes_resolveTag fun r _ => ?_
    dsimp only
    split
    · exact .malformed
    · split <;> exact .ok _

theorem closes_closeTag (name : QName) (hopened : b.opened ≠ []) : Closes (b.closeTag name) := by
  unfold Builder.closeTag
  split
  · exact .malformed
  · refine .bind closes_resolveTag fun r hr => ?_
    obtain ⟨scope, attributes, c⟩ := r
    obtain ⟨-, -, rfl⟩ := Builder.resolveTag_eq_ok.mp hr
    obtain ⟨e, outer, hcons⟩ := List.exists_cons_of_ne_nil hopened
    simp only [Builder.forgetTag, hcons]
    split
    · exact .ok _
    · exact .malformed

end

section

variable {left : Nat} {p : Place} {b : Builder}

theorem closes_readTagEnd (bound : Nat) : Closes (readTagEnd left bound p b) := by
  induction bound generalizing p b with
  | zero => exact .ok _
  | succ bound ih =>
    simp only [readTagEnd]
    split
    · exact .ok _
    · split
      · exact .malformed
      · exact .bind (closes_need _) fun _ _ => .bind (closes_endTag _) fun _ _ => .ok _
      · exact .bind (closes_endTag _) fun _ _ => .ok _
      · split
        · exact .malformed
        · refine .bind (closes_need _) fun _ _ => .bind (closes_readValue ..) fun _ _ => ?_
          exact .bind (closes_addAttribute ..) fun _ _ => ih

theorem closes_readStartTag (bound : Nat) : Closes (readStartTag left bound p b) := by
  refine .bind (closes_need _) fun r _ => .bind ?_ fun _ _ => closes_readTagEnd _
  unfold Builder.beginTag
  split
  · exact .malformed
  · exact .ok _

theorem closes_readEndTag (hopened : b.opened ≠ []) : Closes (readEndTag p b) := by
  refine .bind (closes_need _) fun _ _ => .bind (closes_need _) fun _ _ => ?_
  exact .bind (closes_closeTag _ hopened) fun _ _ => .ok _

theorem closes_readComment : Closes (readComment p b) := by
  refine .bind (closes_need _) fun r _ => ?_
  dsimp only
  split
  · exact .malformed
  · exact .ok _

theorem closes_readInstruction : Closes (readInstruction p b) := by
  unfold readInstruction
  split
  · exact .malformed
  · exact .bind (closes_need _) fun _ _ => .bind (closes_need _) fun _ _ => .ok _

theorem closes_readSection : Closes (readSection p b) :=
  .bind (closes_need _) fun _ _ => .ok _

theorem closes_readMisc (bound : Nat) : Closes (readMisc bound p b) := by
  induction bound generalizing p b with
  | zero => exact .ok _
  | succ bound ih =>
    simp only [readMisc]
    split
    · exact .bind closes_readComment fun _ _ => ih
    · split
      · exact .bind closes_readInstruction fun _ _ => ih
      · exact .ok _

theorem closes_document : Closes b.document := by
  unfold Builder.document
  dsimp only
  split
  · exact .ok _
  · exact .malformed

end

/-! ## How many elements are open -/

namespace Builder

@[simp] theorem length_opened_append (b : Builder) (node : Node) :
    (b.append node).opened.length = b.opened.length := by
  unfold append
  cases b.opened <;> rfl

@[simp] theorem length_opened_appendText (b : Builder) (content : List Char) :
    (b.appendText content).opened.length = b.opened.length := by
  unfold appendText
  cases content.isEmpty <;> cases h : b.opened <;> simp [h]

/-- A builder without entities finds none. -/
theorem entity?_eq_none {b : Builder} (h : b.entities = []) (name : List Char) :
    b.entity? name = none := by
  rw [entity?, h]
  rfl

end Builder

section

variable {left bound : Nat} {nested : Place → Builder → Except Fault Builder} {p q : Place}
  {b c : Builder} {turn : Turn}

theorem StartTag.length_opened_of_take {t : StartTag} {start : Nat}
    (h : t.take left start b = .ok c) :
    c.opened.length = t.tagEnd.turn.levels b.opened.length := by
  obtain ⟨b₁, hbegin, h⟩ := bind_eq_ok.mp h
  obtain ⟨b₂, hfold, hfinish⟩ := bind_eq_ok.mp h
  obtain ⟨-, rfl⟩ := Builder.beginTag_eq_ok.mp hbegin
  obtain ⟨attributes, declared, references, rfl⟩ := exists_of_foldlM_take hfold
  cases hend : t.tagEnd with
  | missing =>
    rw [hend] at hfinish
    cases hfinish
    rfl
  | opened =>
    rw [hend, TagEnd.finish] at hfinish
    obtain ⟨_, _, _, -, -, -, rfl⟩ := Builder.endTag_eq_ok.mp hfinish
    rfl
  | closed =>
    rw [hend, TagEnd.finish] at hfinish
    obtain ⟨_, _, _, -, -, -, rfl⟩ := Builder.endTag_eq_ok.mp hfinish
    simp [Builder.forgetTag, TagEnd.turn, Turn.levels]

/-- A text without references to entities opens and closes nothing. -/
theorem readTextWith_keeps (hentities : b.entities = []) {read : List Char}
    (h : readTextWith left nested bound read p b = .ok c) :
    c.entities = [] ∧ c.opened.length = b.opened.length := by
  induction bound generalizing read p with
  | zero =>
    cases h
    simp [hentities]
  | succ bound ih =>
    rw [readTextWith_succ] at h
    cases hhead : textHead p.rest with
    | nothing =>
      rw [hhead] at h
      cases h
      simp [hentities]
    | source content =>
      rw [hhead] at h
      exact ih h
    | reference =>
      rw [hhead] at h
      obtain ⟨⟨reference, r⟩, -, h⟩ := bind_eq_ok.mp h
      cases reference with
      | char c => exact ih h
      | entity name =>
        obtain ⟨value, hvalue, -⟩ := bind_eq_ok.mp h
        rw [need_eq_ok, Builder.entity?_eq_none hentities] at hvalue
        cases hvalue

theorem closes_readTextWith (hentities : b.entities = []) (read : List Char) :
    Closes (readTextWith left nested bound read p b) := by
  induction bound generalizing read p with
  | zero => exact .ok _
  | succ bound ih =>
    rw [readTextWith_succ]
    cases textHead p.rest with
    | nothing => exact .ok _
    | source content => exact ih _
    | reference =>
      refine .bind (closes_need _) fun r _ => ?_
      obtain ⟨reference, r⟩ := r
      cases reference with
      | char c => exact ih _
      | entity name =>
        refine .bind (closes_need _) fun value hvalue => ?_
        rw [need_eq_ok, Builder.entity?_eq_none hentities] at hvalue
        cases hvalue

theorem closes_readText (hentities : b.entities = []) : Closes (readText left nested p b) := by
  refine .bind (closes_need _) fun r _ => ?_
  dsimp only
  split
  · exact .malformed
  · exact .bind (closes_readTextWith hentities _) fun _ _ => .ok _

/-- What a token does to the elements that are open. -/
theorem Token.keeps (h : Token left nested bound p b turn q c) (hentities : b.entities = [])
    (hbound : p.rest.length ≤ bound) :
    c.entities = [] ∧ c.opened.length = turn.levels b.opened.length := by
  cases h with
  | comment hsees h =>
    obtain ⟨content, -, -, rfl⟩ := readComment_eq_ok.mp ⟨hsees, h⟩
    simp [hentities, Turn.levels]
  | characters hsees h =>
    obtain ⟨content, -, rfl⟩ := readSection_eq_ok.mp ⟨hsees, h⟩
    simp [hentities, Turn.levels]
  | instruction hsees h =>
    obtain ⟨target, content, -, -, rfl⟩ := readInstruction_eq_ok.mp ⟨hsees, h⟩
    simp [hentities, Turn.levels]
  | endTag hsees h =>
    obtain ⟨name, -, hclose⟩ := readEndTag_eq_ok.mp ⟨hsees, h⟩
    obtain ⟨-, attributes, e, outer, -, hopened, -, rfl⟩ := Builder.closeTag_eq_ok.mp hclose
    simp [Builder.forgetTag, hentities, hopened, Turn.levels]
  | startTag hrest hd h =>
    obtain ⟨t, rfl, -, -, htake⟩ := exists_of_readStartTag h hbound (by rw [hrest]; rfl)
    exact ⟨(t.keeps_of_take htake).1.trans hentities, t.length_opened_of_take htake⟩
  | text hrest hd h =>
    obtain ⟨content, -, -, hc⟩ := readText_eq_ok.mp h
    exact readTextWith_keeps hentities hc

/-- Content is faultless in this respect when it is so behind each token it can go on with. -/
theorem closes_readContentWith_succ {levels : Nat} (hentities : b.entities = [])
    (hopened : b.opened ≠ [])
    (h : ∀ {turn q c}, Token left nested bound p b turn q c → ¬(turn = .out ∧ levels ≤ 1) →
      Closes (readContentWith left nested bound (turn.levels levels) q c)) :
    Closes (readContentWith left nested (bound + 1) levels p b) := by
  simp only [readContentWith]
  split
  case h_1 => exact .ok _
  case h_2 hrest =>
    by_cases hcomment : p.sees "<!--"
    · rw [if_pos hcomment]
      exact .bind closes_readComment fun r hr => h (.comment hcomment hr) (by simp)
    · rw [if_neg hcomment]
      by_cases hdata : p.sees "<![CDATA["
      · rw [if_pos hdata]
        exact .bind closes_readSection fun r hr => h (.characters hdata hr) (by simp)
      · rw [if_neg hdata]
        exact .bind .malformed fun r hr => by cases hr
  case h_3 hrest =>
    refine .bind closes_readInstruction fun r hr => ?_
    exact h (.instruction (sees_iff.mpr ⟨_, hrest⟩) hr) (by simp)
  case h_4 hrest =>
    refine .bind (closes_readEndTag hopened) fun r hr => ?_
    split
    case isTrue => exact .ok _
    case isFalse hlevels =>
      exact h (.endTag (sees_iff.mpr ⟨_, hrest⟩) hr) fun hout => hlevels hout.2
  case h_5 => exact .malformed
  case h_6 more hbang hquestion hslash hlone hrest =>
    refine .bind (closes_readStartTag _) fun r hr => ?_
    obtain ⟨tagEnd, q, c⟩ := r
    obtain ⟨d, more, rfl⟩ := List.exists_cons_of_ne_nil hlone
    have hd : d ≠ '!' ∧ d ≠ '?' ∧ d ≠ '/' := by
      refine ⟨?_, ?_, ?_⟩
      · rintro rfl; exact hbang _ rfl
      · rintro rfl; exact hquestion _ rfl
      · rintro rfl; exact hslash _ rfl
    have hclosed := h (.startTag hrest hd hr) fun hout => tagEnd.turn_ne_out hout.1
    cases tagEnd <;> exact hclosed
  case h_7 hempty _ _ _ _ hno =>
    refine .bind (closes_readText hentities) fun r hr => ?_
    obtain ⟨d, more, hrest⟩ := List.exists_cons_of_ne_nil hempty
    refine h (.text hrest ?_ hr) (by simp)
    rintro rfl
    exact hno _ hrest

/-- The levels that are read are the elements that are open, so that none is closed too often. -/
theorem closes_readContentWith {levels : Nat} (hentities : b.entities = [])
    (hopened : b.opened.length = levels) (hlevels : 1 ≤ levels) (hbound : p.rest.length < bound) :
    Closes (readContentWith left nested bound levels p b) := by
  induction bound generalizing levels p b with
  | zero => cases hbound
  | succ bound ih =>
    have hle := Nat.le_of_lt_succ hbound
    have hne : b.opened ≠ [] := by
      intro hnil
      rw [hnil, List.length_nil] at hopened
      omega
    refine closes_readContentWith_succ hentities hne fun {turn q c} htoken hout => ?_
    obtain ⟨hentities', hopened'⟩ := htoken.keeps hentities hle
    obtain ⟨hlt, read, hpast⟩ := htoken.past hle
    have hlen := congrArg List.length hpast.rest
    have hindex := hpast.index
    rw [List.length_append] at hlen
    rw [hopened] at hopened'
    refine ih hentities' hopened' ?_ (by omega)
    cases turn with
    | into => exact Nat.le_add_left ..
    | along => exact hlevels
    | out =>
      have : ¬levels ≤ 1 := fun hle => hout ⟨rfl, hle⟩
      simp only [Turn.levels]
      omega

theorem readMisc_keeps (h : readMisc bound p b = .ok (q, c)) :
    c.entities = b.entities ∧ c.opened.length = b.opened.length := by
  induction bound generalizing p b with
  | zero =>
    cases h
    exact ⟨rfl, rfl⟩
  | succ bound ih =>
    simp only [readMisc] at h
    split at h
    case isTrue hsees =>
      obtain ⟨⟨r, b'⟩, hcomment, h⟩ := bind_eq_ok.mp h
      obtain ⟨content, -, -, rfl⟩ := readComment_eq_ok.mp ⟨hsees, hcomment⟩
      simpa using ih h
    case isFalse =>
      split at h
      case isTrue hsees =>
        obtain ⟨⟨r, b'⟩, hinstruction, h⟩ := bind_eq_ok.mp h
        obtain ⟨target, content, -, -, rfl⟩ := readInstruction_eq_ok.mp ⟨hsees, hinstruction⟩
        simpa using ih h
      case isFalse =>
        cases h
        exact ⟨rfl, rfl⟩

end

/-! ## Documents -/

section

variable {markup : List Char} {p : Place} {b : Builder} {d : Document}

theorem readPreface_keeps (h : readPreface markup = .ok (p, b)) :
    b.entities = [] ∧ b.opened = [] := by
  obtain ⟨r, -, h⟩ := bind_eq_ok.mp h
  obtain ⟨hentities, hopened⟩ := readMisc_keeps h
  exact ⟨hentities, List.length_eq_zero_iff.mp hopened⟩

theorem exists_past_of_readPreface (h : readPreface markup = .ok (p, b)) :
    ∃ read, Past (Place.start markup) read p := by
  have htag : SameTag ['<', 'a'] ['<', 'a'] := ⟨.refl _, 'a', [], rfl, by decide, by decide⟩
  obtain ⟨r, hdeclaration, h⟩ := bind_eq_ok.mp h
  obtain ⟨⟨read, hread⟩, -⟩ := steady_skipDeclaration htag
    (congrArg (Option.map (Prod.mk ())) (need_eq_ok.mp hdeclaration))
  have hmark : ∃ mark, Past (Place.start markup) mark (skipOrderMark (Place.start markup)) := by
    unfold skipOrderMark
    split
    case isTrue hsees => exact ⟨_, past_advance_of_sees hsees (by decide)⟩
    case isFalse => exact ⟨[], .refl _⟩
  obtain ⟨mark, hmark⟩ := hmark
  obtain ⟨hprefaced, -⟩ := readMisc_redraw ⟨id, fun _ => id⟩ h (Nat.lt_succ_self _)
  obtain ⟨more, hmore⟩ := hprefaced.past
  exact ⟨_, (hmark.trans hread).trans hmore⟩

/-- A text in which the word does not occur has no document type. -/
theorem hasDoctype_eq_false (h : Text.occursIn "<!DOCTYPE".toList markup = false) :
    hasDoctype markup = false := by
  unfold hasDoctype
  cases hpreface : readPreface markup with
  | error fault => rfl
  | ok r =>
    obtain ⟨p, b⟩ := r
    dsimp only
    refine Bool.eq_false_iff.mpr fun hsees => ?_
    obtain ⟨read, hpast⟩ := exists_past_of_readPreface hpreface
    obtain ⟨more, hmore⟩ := sees_iff.mp hsees
    have hsuffix := (hpast.trans (past_skipWhile p isSpace)).suffix (List.suffix_refl _)
    exact Bool.false_ne_true (h.symm.trans (Text.occursIn_of_suffix ⟨more, hmore.symm⟩ hsuffix))

theorem closes_readPreface : Closes (readPreface markup) :=
  .bind (closes_need _) fun _ _ => closes_readMisc _

theorem readProlog_eq (h : hasDoctype markup = false) : readProlog markup =
    readPreface markup >>= fun r => .ok (r.1.skipSpaces.skipSpaces, r.2) := by
  have hprolog : readProlog markup = readPreface markup >>= fun r =>
      readOptionalDoctype r.1 r.2 >>= fun r => .ok (r.1.skipSpaces, r.2) := by
    simp only [readProlog, readPreface, bind_assoc]
    rfl
  rw [hprolog]
  cases hpreface : readPreface markup with
  | error fault => rfl
  | ok r =>
    obtain ⟨p, b⟩ := r
    have hsees : p.skipSpaces.sees "<!DOCTYPE" = false := by simpa [hasDoctype, hpreface] using h
    have hnone : readOptionalDoctype p b = .ok (p.skipSpaces, b) := by
      simp only [readOptionalDoctype, hsees]
      rfl
    change readOptionalDoctype p b >>= _ = _
    rw [hnone]
    rfl

theorem readProlog_keeps (hdoctype : hasDoctype markup = false)
    (h : readProlog markup = .ok (p, b)) : b.entities = [] ∧ b.opened = [] := by
  rw [readProlog_eq hdoctype] at h
  obtain ⟨⟨r, b'⟩, hpreface, heq⟩ := bind_eq_ok.mp h
  cases heq
  exact readPreface_keeps hpreface

theorem closes_readElement (hentities : b.entities = []) (hopened : b.opened = [])
    (hsees : seesTag p.rest) : Closes (readElement p b) := by
  rw [readElement_eq]
  refine .bind (closes_readStartTag _) fun r hr => ?_
  obtain ⟨tagEnd, q, c⟩ := r
  obtain ⟨t, rfl, -, -, htake⟩ := exists_of_readStartTag hr (Nat.le_refl _) hsees
  have hlength := t.length_opened_of_take htake
  rw [hopened] at hlength
  unfold readOn
  dsimp only
  split
  case isFalse => exact .ok _
  case isTrue hend =>
    rw [hend] at hlength
    rw [readContent_eq]
    exact closes_readContentWith ((t.keeps_of_take htake).1.trans hentities) hlength (Nat.le_refl 1)
      (Nat.lt_succ_self _)

/-- Without a document type no end tag closes what is not open. -/
theorem closes_readDocument (h : hasDoctype markup = false) : Closes (readDocument markup) := by
  rw [readDocument_eq]
  refine .bind ?_ fun r hr => ?_
  · rw [readProlog_eq h]
    exact .bind closes_readPreface fun _ _ => .ok _
  · obtain ⟨p, b⟩ := r
    obtain ⟨hentities, hopened⟩ := readProlog_keeps h hr
    rw [readBody_eq]
    refine .bind ?_ fun r _ => ?_
    · dsimp only
      split
      case isTrue hsees => exact closes_readElement hentities hopened hsees
      case isFalse => exact .ok _
    · refine .bind (closes_readMisc _) fun r _ => ?_
      dsimp only
      split
      · exact closes_document
      · exact .malformed

/-! ## Elements below the root -/

theorem Reading.exists_starts_behind (R : Reading markup d) (h : hasDoctype markup = false) :
    ∃ new, d.starts = R.root.index :: new ∧ ∀ s ∈ new, R.root.index + R.tag.text.length ≤ s := by
  have hentities : R.b'.entities = [] :=
    (R.tag.keeps_of_take R.take).1.trans (readProlog_keeps h R.prolog).1
  have hb : R.b'.EntitiesEndBy 0 := by simp [Builder.EntitiesEndBy, hentities]
  obtain ⟨new, hnew, hstrewn⟩ := (readOn_grown R.content hb).2.starts
  refine ⟨new, ?_, fun s hs => ?_⟩
  · rw [(readTail_redraw R.tail).1, hnew, R.starts_inner]
    rfl
  · have := hstrewn.within s hs
    have := R.past_tag.index
    omega

theorem Node.exists_startsAll_eq {nodes : List Node} {root : Node}
    (h : nodes.find? (fun node => node.start?.isSome) = some root) :
    ∃ later, Node.startsAll nodes = root.starts ++ later := by
  induction nodes with
  | nil => cases h
  | cons node nodes ih =>
    cases node with
    | element start name attributes children =>
      cases h
      exact ⟨_, rfl⟩
    | text => exact ih h
    | comment => exact ih h
    | instruction => exact ih h

/-- The root's tag, and all elements below the root behind it. -/
theorem exists_tag_of_root (hdoctype : hasDoctype markup = false)
    (h : readDocument markup = .ok d) {start : Nat} {name : ExpandedName}
    {attributes : List Attribute} {children : List Node}
    (hroot : d.root? = some (.element start name attributes children)) :
    ∃ t : StartTag, t.tagEnd ≠ .missing ∧ (∃ rest, markup.drop start = t.text ++ rest) ∧
      ∀ s ∈ Node.startsAll children, start + t.text.length ≤ s := by
  obtain ⟨R⟩ := exists_reading h
  obtain ⟨new, hstarts, hbehind⟩ := R.exists_starts_behind hdoctype
  obtain ⟨later, hlater⟩ := Node.exists_startsAll_eq hroot
  have hsplit : start :: (Node.startsAll children ++ later) = R.root.index :: new :=
    hlater.symm.trans hstarts
  rw [List.cons.injEq] at hsplit
  obtain ⟨rfl, rfl⟩ := hsplit
  exact ⟨R.tag, R.ended, ⟨_, R.rootSite.drop_eq⟩,
    fun s hs => hbehind s (List.mem_append_left _ hs)⟩

end

end DiagramView.Markup
