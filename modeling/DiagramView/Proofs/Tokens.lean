import DiagramView.Proofs.StartTags

/-!
# Content, token by token

Content is a sequence of tokens: comments, instructions, sections, tags and stretches of text
(`Token`). Reading it is reading a token and going on behind it (`Token.readContentWith_eq`).
-/

namespace DiagramView.Markup

/-! ## Steps of the builder -/

namespace Builder

variable {b c : Builder}

@[simp] theorem append_entities (b : Builder) (node : Node) :
    (b.append node).entities = b.entities := by
  unfold append
  cases b.opened <;> rfl

@[simp] theorem append_references (b : Builder) (node : Node) :
    (b.append node).references = b.references := by
  unfold append
  cases b.opened <;> rfl

@[simp] theorem append_attributes (b : Builder) (node : Node) :
    (b.append node).attributes = b.attributes := by
  unfold append
  cases b.opened <;> rfl

@[simp] theorem appendText_entities (b : Builder) (content : List Char) :
    (b.appendText content).entities = b.entities := by
  unfold appendText
  cases content.isEmpty <;> cases b.opened <;> rfl

@[simp] theorem appendText_references (b : Builder) (content : List Char) :
    (b.appendText content).references = b.references := by
  unfold appendText
  cases content.isEmpty <;> cases b.opened <;> rfl

theorem beginTag_eq_ok {start : Nat} {name : QName} : b.beginTag start name = .ok c ↔
    name.space ≠ "xmlns".toList ∧ c = { b with tag := some ⟨start, name⟩ } := by
  unfold beginTag
  by_cases h : name.space = "xmlns".toList
  · rw [if_pos h]
    simp [h]
  · rw [if_neg h, Except.ok.injEq, eq_comm]
    exact ⟨fun hc => ⟨h, hc⟩, And.right⟩

/-- Attributes are taken in by what was taken in of the same tag. -/
theorem addAttribute_eq (b : Builder) (name : QName) (value : List Char) :
    b.addAttribute name value =
      (addAttribute { attributes := b.attributes, declared := b.declared } name value).map fun c =>
        { b with attributes := c.attributes, declared := c.declared } := by
  simp only [addAttribute, apply_ite (Except.map _)]
  rfl

theorem addAttribute_eq_ok {name : QName} {value : List Char} :
    b.addAttribute name value = .ok c ↔ ∃ c',
      addAttribute { attributes := b.attributes, declared := b.declared } name value = .ok c' ∧
      c = { b with attributes := c'.attributes, declared := c'.declared } := by
  rw [addAttribute_eq]
  cases addAttribute { attributes := b.attributes, declared := b.declared } name value with
  | error fault => simp [Except.map]
  | ok c' => simp [Except.map, eq_comm]

/-- The scope inside the tag that ends here. -/
def innerScope (b : Builder) : Scope :=
  b.outerScope.extend b.declared

/-- The builder without the attributes and declarations of the tag that ends here. -/
def forgetTag (b : Builder) : Builder :=
  { b with attributes := [], declared := [] }

theorem resolveTag_eq_ok {scope : Scope} {attributes : List Attribute} :
    b.resolveTag = .ok (scope, attributes, c) ↔ scope = b.innerScope ∧
      b.innerScope.resolveAttributes b.attributes [] = some attributes ∧ c = b.forgetTag := by
  unfold resolveTag innerScope
  dsimp only
  cases hfound : (b.outerScope.extend b.declared).resolveAttributes b.attributes [] with
  | none => simp
  | some found => simp [forgetTag, eq_comm]

theorem endTag_eq_ok {closed : Bool} : b.endTag closed = .ok c ↔
    ∃ tag attributes name, b.tag = some tag ∧
      b.innerScope.resolveAttributes b.attributes [] = some attributes ∧
      b.innerScope.resolve tag.name = some name ∧
      c = if closed then b.forgetTag.append (.element tag.start name attributes [])
        else { b.forgetTag with
          opened := ⟨tag, name, attributes, b.innerScope, []⟩ :: b.opened } := by
  unfold endTag
  cases b.tag with
  | none => simp
  | some tag =>
    simp only [bind_eq_ok, Prod.exists, resolveTag_eq_ok, Option.some_inj]
    constructor
    · rintro ⟨scope, attributes, b', ⟨rfl, hattributes, rfl⟩, h⟩
      cases hname : b.innerScope.resolve tag.name with
      | none => simp [hname] at h
      | some name =>
        simp only [hname] at h
        refine ⟨tag, attributes, name, rfl, hattributes, hname, ?_⟩
        cases closed <;> exact (Except.ok.inj h).symm
    · rintro ⟨tag, attributes, name, rfl, hattributes, hname, rfl⟩
      refine ⟨_, attributes, _, ⟨rfl, hattributes, rfl⟩, ?_⟩
      simp only [hname]
      cases closed <;> rfl

theorem closeTag_eq_ok {name : QName} : b.closeTag name = .ok c ↔
    b.tag.isSome ∧ ∃ attributes e outer,
      b.innerScope.resolveAttributes b.attributes [] = some attributes ∧
      b.opened = e :: outer ∧ e.tag.name = name ∧
      c = { b.forgetTag with opened := outer }.append (finish e) := by
  unfold closeTag
  cases b.tag with
  | none => simp
  | some tag =>
    simp only [bind_eq_ok, Prod.exists, resolveTag_eq_ok, Option.isSome_some, true_and]
    constructor
    · rintro ⟨scope, attributes, b', ⟨rfl, hattributes, rfl⟩, h⟩
      cases hopened : b.opened with
      | nil => simp [forgetTag, hopened] at h
      | cons e outer =>
        simp only [forgetTag, hopened] at h
        by_cases hname : e.tag.name = name
        · rw [if_pos hname] at h
          exact ⟨attributes, e, outer, hattributes, rfl, hname, (Except.ok.inj h).symm⟩
        · rw [if_neg hname] at h
          cases h
    · rintro ⟨attributes, e, outer, hattributes, hopened, rfl, rfl⟩
      refine ⟨_, attributes, _, ⟨rfl, hattributes, rfl⟩, ?_⟩
      simp only [forgetTag, hopened, if_true]

end Builder

/-- The attributes of a tag change nothing but what is kept of that tag. -/
theorem exists_of_foldlM_take {left : Nat} {b c : Builder} {attributes : List TagAttribute}
    (h : attributes.foldlM (TagAttribute.take left) b = .ok c) :
    ∃ attributes declared references, c = { b with attributes, declared, references } := by
  induction attributes generalizing b with
  | nil =>
    cases h
    exact ⟨_, _, _, rfl⟩
  | cons a attributes ih =>
    rw [List.foldlM_cons] at h
    obtain ⟨b', ha, h⟩ := bind_eq_ok.mp h
    obtain ⟨⟨value, references⟩, -, hadd⟩ := bind_eq_ok.mp ha
    obtain ⟨added, -, rfl⟩ := Builder.addAttribute_eq_ok.mp hadd
    obtain ⟨_, _, _, rfl⟩ := ih h
    exact ⟨_, _, _, rfl⟩

/-! ## What tokens hold -/

theorem sees_iff {p : Place} {word : String} :
    p.sees word ↔ ∃ more, p.rest = word.toList ++ more := by
  rw [Place.sees, List.isPrefixOf_iff_prefix]
  constructor
  · rintro ⟨more, h⟩
    exact ⟨more, h.symm⟩
  · rintro ⟨more, h⟩
    exact ⟨more, h.symm⟩

/-- Reads a word and what follows it. -/
def readBehind {α : Type} (word : String) (reader : Place → Option (α × Place)) (p : Place) :
    Option (α × Place) :=
  p.expect word >>= reader

section

variable {α : Type} {word : String} {reader : Place → Option (α × Place)} {p q : Place} {x : α}

theorem readBehind_eq_some : readBehind word reader p = some (x, q) ↔
    p.sees word ∧ reader (p.advance word.length) = some (x, q) := by
  unfold readBehind Place.expect
  by_cases h : p.sees word <;> simp [h]

theorem Local.behind (h : Local reader) (word : String) : Local (readBehind word reader) :=
  (local_expect word).andThen h

theorem Local.index_lt (h : Local reader) (hword : word.toList ≠ [])
    (hx : readBehind word reader p = some (x, q)) : p.index < q.index := by
  obtain ⟨r, hr, hx⟩ := Option.bind_eq_some_iff.mp hx
  obtain ⟨read, hpast, -⟩ := h hx
  have hpos := List.length_pos_iff.mpr hword
  have := (expect_eq_some.mp hr).index
  have := hpast.index
  omega

end

/-- The target and the content of an instruction. -/
def readInstructionTail (p : Place) : Option ((List Char × List Char) × Place) := do
  let (target, p) ← readName p
  let (content, p) ← readThrough "?>" p.skipSpaces
  return ((target, content), p)

/-- The name and the end of an end tag. -/
def readEndTagTail (p : Place) : Option (QName × Place) := do
  let (name, p) ← readQName p
  let p ← expectChar '>' p.skipSpaces
  return (name, p)

theorem local_readInstructionTail : Local readInstructionTail := by
  refine local_readName.bind fun target => ?_
  exact .bind (f := fun p => readThrough "?>" p.skipSpaces)
    (local_readThrough (by decide)).skipSpaces fun content => .pure (target, content)

theorem closedBy_readInstructionTail : ClosedBy "?>".toList readInstructionTail := by
  refine .bind local_readName fun target p x q h => ?_
  obtain ⟨⟨content, r⟩, hr, heq⟩ := Option.bind_eq_some_iff.mp h
  cases heq
  obtain ⟨read, hpast⟩ := closedBy_readThrough (by decide) hr
  have hall := (past_skipWhile p isSpace).trans hpast
  rw [← List.append_assoc] at hall
  exact ⟨_, hall⟩

theorem local_readEndTagTail : Local readEndTagTail := by
  refine local_readQName.bind fun name => ?_
  exact .andThen (f := fun p => expectChar '>' p.skipSpaces) (local_expectChar '>').skipSpaces
    (.pure name)

section

variable {p q : Place} {b c : Builder}

theorem readComment_eq_ok : (p.sees "<!--" ∧ readComment p b = .ok (q, c)) ↔
    ∃ content, readBehind "<!--" (readThrough "-->") p = some (content, q) ∧
      isBadComment content = false ∧
      c = b.append (.comment content) := by
  simp only [readBehind_eq_some, readComment, bind_eq_ok, need_eq_ok, Prod.exists]
  constructor
  · rintro ⟨hsees, content, r, hread, h⟩
    cases hbad : isBadComment content with
    | true => simp [hbad] at h
    | false =>
      simp only [hbad] at h
      cases h
      exact ⟨content, ⟨hsees, hread⟩, hbad, rfl⟩
  · rintro ⟨content, ⟨hsees, hread⟩, hbad, rfl⟩
    exact ⟨hsees, content, q, hread, by simp [hbad]; rfl⟩

theorem readSection_eq_ok : (p.sees "<![CDATA[" ∧ readSection p b = .ok (q, c)) ↔
    ∃ content, readBehind "<![CDATA[" (readThrough "]]>") p = some (content, q) ∧
      c = b.appendText content := by
  simp only [readBehind_eq_some, readSection, bind_eq_ok, need_eq_ok, Prod.exists]
  constructor
  · rintro ⟨hsees, content, r, hread, h⟩
    cases h
    exact ⟨content, ⟨hsees, hread⟩, rfl⟩
  · rintro ⟨content, ⟨hsees, hread⟩, rfl⟩
    exact ⟨hsees, content, q, hread, rfl⟩

theorem readInstruction_eq_ok : (p.sees "<?" ∧ readInstruction p b = .ok (q, c)) ↔
    ∃ target content, readBehind "<?" readInstructionTail p = some ((target, content), q) ∧
      p.sees "<?xml " = false ∧ c = b.append (.instruction target content) := by
  simp only [readBehind_eq_some, readInstructionTail, readInstruction]
  cases hxml : p.sees "<?xml " with
  | true => simp
  | false =>
    simp only [Bool.false_eq_true, if_false, bind_eq_ok, need_eq_ok, Prod.exists,
      Option.bind_eq_bind, Option.bind_eq_some_iff]
    constructor
    · rintro ⟨hsees, target, r, hname, content, r', hread, h⟩
      cases h
      exact ⟨target, content, ⟨hsees, target, r, hname, content, _, hread, rfl⟩, trivial, rfl⟩
    · rintro ⟨target, content, ⟨hsees, _, r, hname, _, r', hread, h⟩, -, rfl⟩
      cases h
      exact ⟨hsees, target, r, hname, content, _, hread, rfl⟩

theorem readEndTag_eq_ok : (p.sees "</" ∧ readEndTag p b = .ok (q, c)) ↔
    ∃ name, readBehind "</" readEndTagTail p = some (name, q) ∧ b.closeTag name = .ok c := by
  simp only [readBehind_eq_some, readEndTagTail, readEndTag, bind_eq_ok, need_eq_ok, Prod.exists,
    Option.bind_eq_bind, Option.bind_eq_some_iff]
  constructor
  · rintro ⟨hsees, name, r, hname, r', hclose, c', hc', h⟩
    cases h
    exact ⟨name, ⟨hsees, name, r, hname, _, hclose, rfl⟩, hc'⟩
  · rintro ⟨name, ⟨hsees, _, r, hname, r', hclose, h⟩, hc'⟩
    cases h
    exact ⟨hsees, name, r, hname, _, hclose, c, hc', rfl⟩

theorem readText_eq_ok {left : Nat} {nested : Place → Builder → Except Fault Builder} :
    readText left nested p b = .ok (q, c) ↔
      ∃ content, readUntil seesTag p.index p.rest = some (content, q) ∧
        Text.occursIn "]]>".toList content = false ∧
        readTextWith left nested content.length [] ⟨p.index, content⟩ b = .ok c := by
  simp only [readText, bind_eq_ok, need_eq_ok, Prod.exists]
  constructor
  · rintro ⟨content, r, hread, h⟩
    cases hbad : Text.occursIn "]]>".toList content with
    | true => simp only [hbad, if_true, reduceCtorEq] at h
    | false =>
      simp only [hbad, Bool.false_eq_true, if_false] at h
      obtain ⟨c', hc', heq⟩ := bind_eq_ok.mp h
      cases heq
      exact ⟨content, hread, hbad, hc'⟩
  · rintro ⟨content, hread, hbad, hc⟩
    refine ⟨content, q, hread, ?_⟩
    simp only [hbad, Bool.false_eq_true, if_false]
    exact bind_eq_ok.mpr ⟨c, hc, rfl⟩

end

theorem seesTag_cons (c : Char) (cs : List Char) : seesTag (c :: cs) = (c == '<') := by
  unfold seesTag
  split
  case h_1 heq =>
    cases heq
    rfl
  case h_2 hno =>
    have hc : c ≠ '<' := fun h => hno cs (by rw [h])
    exact (beq_eq_false_iff_ne.mpr hc).symm

theorem exists_cons_of_readUntil {i : Nat} {d : Char} {more content : List Char} {q : Place}
    (hd : d ≠ '<') (h : readUntil seesTag i (d :: more) = some (content, q)) :
    ∃ cs, content = d :: cs := by
  obtain ⟨-, ⟨hs, -⟩ | ⟨-, cs, -, rfl⟩⟩ := readUntil_cons_eq_some.mp h
  · exact absurd (by simpa [seesTag_cons] using hs) hd
  · exact ⟨cs, rfl⟩

theorem SameFront.seesTag_eq {text text' : List Char} (h : SameFront text text') :
    seesTag text = seesTag text' := by
  have hhead := h.head?_eq
  cases text <;> cases text' <;> simp_all [seesTag_cons]

/-! ## Text, character by character -/

/-- What a text goes on with. -/
inductive TextHead where
  | nothing
  | reference
  /-- A character of the source, and the characters that it stands for. -/
  | source (content : List Char)

def textHead : List Char → TextHead
  | [] => .nothing
  | '&' :: _ => .reference
  | '\r' :: '\n' :: _ => .source []
  | '\r' :: _ => .source ['\n']
  | c :: _ => .source [c]

theorem readTextWith_succ (left : Nat) (nested : Place → Builder → Except Fault Builder)
    (bound : Nat) (read : List Char) (p : Place) (b : Builder) :
    readTextWith left nested (bound + 1) read p b =
      match textHead p.rest with
      | .nothing => .ok (b.appendText read.reverse)
      | .reference => do
        let (reference, p) ← need (readReference (p.advance 1))
        match reference with
        | .char c => readTextWith left nested bound (c :: read) p b
        | .entity name =>
          let value ← need (b.entity? name)
          let references ← countReference left b.references
          let b := { b.appendText read.reverse with references }
          let after ← nested value { b with tag := none }
          readTextWith left nested bound [] p
            { after with tag := b.tag, references := settleReference left after.references }
      | .source content => readTextWith left nested bound (content ++ read) (p.advance 1) b := by
  obtain ⟨i, text⟩ := p
  dsimp only
  fun_cases textHead text with
  | case1 => rfl
  | case2 => rfl
  | case3 => rfl
  | case4 cs hpair => simp [readTextWith]
  | case5 c cs hamp hpair hreturn => simp [readTextWith]

/-! ## Tokens of content -/

/-- Where a token leads: into an element, out of one, or along. -/
inductive Turn where
  | into
  | out
  | along
  deriving DecidableEq

/-- The levels behind a token. -/
def Turn.levels (levels : Nat) : Turn → Nat
  | .into => levels + 1
  | .out => levels - 1
  | .along => levels

/-- What the end of a tag leads to. -/
def TagEnd.turn (tagEnd : TagEnd) : Turn :=
  if tagEnd = .opened then .into else .along

/-- A token that content goes on with. -/
inductive Token (left : Nat) (nested : Place → Builder → Except Fault Builder) (bound : Nat)
    (p : Place) (b : Builder) : Turn → Place → Builder → Prop
  | comment {q c} (hsees : p.sees "<!--") (h : readComment p b = .ok (q, c)) :
      Token left nested bound p b .along q c
  | characters {q c} (hsees : p.sees "<![CDATA[") (h : readSection p b = .ok (q, c)) :
      Token left nested bound p b .along q c
  | instruction {q c} (hsees : p.sees "<?") (h : readInstruction p b = .ok (q, c)) :
      Token left nested bound p b .along q c
  | endTag {q c} (hsees : p.sees "</") (h : readEndTag p b = .ok (q, c)) :
      Token left nested bound p b .out q c
  | startTag {d more tagEnd q c} (hrest : p.rest = '<' :: d :: more)
      (hd : d ≠ '!' ∧ d ≠ '?' ∧ d ≠ '/') (h : readStartTag left bound p b = .ok (tagEnd, q, c)) :
      Token left nested bound p b tagEnd.turn q c
  | text {d more q c} (hrest : p.rest = d :: more) (hd : d ≠ '<')
      (h : readText left nested p b = .ok (q, c)) : Token left nested bound p b .along q c

section

variable {left bound : Nat} {nested : Place → Builder → Except Fault Builder} {p q : Place}
  {b c : Builder} {turn : Turn}

theorem Token.readContentWith_eq (h : Token left nested bound p b turn q c) (levels : Nat) :
    readContentWith left nested (bound + 1) levels p b =
      if turn = .out ∧ levels ≤ 1 then .ok (q, c)
      else readContentWith left nested bound (turn.levels levels) q c := by
  cases h with
  | comment hsees h =>
    obtain ⟨more, hrest⟩ := sees_iff.mp hsees
    have hrest : p.rest = '<' :: '!' :: '-' :: '-' :: more := hrest
    simp only [readContentWith, hrest, hsees, if_true, h]
    rfl
  | characters hsees h =>
    obtain ⟨more, hrest⟩ := sees_iff.mp hsees
    have hrest : p.rest = '<' :: '!' :: '[' :: ("CDATA[".toList ++ more) := hrest
    have hcomment : p.sees "<!--" = false := by rw [Place.sees, hrest]; rfl
    simp only [readContentWith, hrest, hcomment, hsees, Bool.false_eq_true, if_false, if_true, h]
    rfl
  | instruction hsees h =>
    obtain ⟨more, hrest⟩ := sees_iff.mp hsees
    have hrest : p.rest = '<' :: '?' :: more := hrest
    simp only [readContentWith, hrest, h]
    rfl
  | endTag hsees h =>
    obtain ⟨more, hrest⟩ := sees_iff.mp hsees
    have hrest : p.rest = '<' :: '/' :: more := hrest
    simp only [readContentWith, hrest, h, Turn.levels, true_and]
    rfl
  | @startTag _ _ tagEnd _ _ hrest hd h =>
    simp only [readContentWith, hrest]
    split
    case h_1 heq => cases heq
    case h_2 heq => cases heq; exact absurd rfl hd.1
    case h_3 heq => cases heq; exact absurd rfl hd.2.1
    case h_4 heq => cases heq; exact absurd rfl hd.2.2
    case h_5 heq => cases heq
    case h_6 =>
      rw [h]
      cases tagEnd <;> rfl
    case h_7 hno => exact absurd rfl (hno _)
  | text hrest hd h =>
    simp only [readContentWith, hrest]
    split
    case h_1 heq => cases heq
    case h_2 heq => cases heq; exact absurd rfl hd
    case h_3 heq => cases heq; exact absurd rfl hd
    case h_4 heq => cases heq; exact absurd rfl hd
    case h_5 heq => cases heq; exact absurd rfl hd
    case h_6 heq => cases heq; exact absurd rfl hd
    case h_7 =>
      rw [h]
      rfl

theorem exists_token {levels : Nat} (hne : p.rest ≠ [])
    (h : readContentWith left nested (bound + 1) levels p b = .ok (q, c)) :
    ∃ turn r b', Token left nested bound p b turn r b' := by
  simp only [readContentWith] at h
  split at h
  case h_1 hrest => exact absurd hrest hne
  case h_2 hrest =>
    by_cases hcomment : p.sees "<!--"
    · simp only [hcomment, if_true] at h
      obtain ⟨⟨r, b'⟩, h, -⟩ := bind_eq_ok.mp h
      exact ⟨_, r, b', .comment hcomment h⟩
    · by_cases hdata : p.sees "<![CDATA["
      · simp only [hcomment, hdata, if_true] at h
        obtain ⟨⟨r, b'⟩, h, -⟩ := bind_eq_ok.mp h
        exact ⟨_, r, b', .characters hdata h⟩
      · simp only [hcomment, hdata] at h
        cases h
  case h_3 hrest =>
    obtain ⟨⟨r, b'⟩, h, -⟩ := bind_eq_ok.mp h
    exact ⟨_, r, b', .instruction (sees_iff.mpr ⟨_, hrest⟩) h⟩
  case h_4 hrest =>
    obtain ⟨⟨r, b'⟩, h, -⟩ := bind_eq_ok.mp h
    exact ⟨_, r, b', .endTag (sees_iff.mpr ⟨_, hrest⟩) h⟩
  case h_5 => cases h
  case h_6 more hbang hquestion hslash hlone hrest =>
    obtain ⟨⟨tagEnd, r, b'⟩, h, -⟩ := bind_eq_ok.mp h
    obtain ⟨d, more, rfl⟩ := List.exists_cons_of_ne_nil hlone
    refine ⟨_, r, b', .startTag hrest ⟨?_, ?_, ?_⟩ h⟩
    · rintro rfl; exact hbang _ rfl
    · rintro rfl; exact hquestion _ rfl
    · rintro rfl; exact hslash _ rfl
  case h_7 hno =>
    obtain ⟨⟨r, b'⟩, h, -⟩ := bind_eq_ok.mp h
    obtain ⟨d, more, hrest⟩ := List.exists_cons_of_ne_nil hne
    refine ⟨_, r, b', .text hrest ?_ h⟩
    rintro rfl
    exact hno _ hrest

/-- A start tag as it is written is a token. -/
theorem StartTag.token (t : StartTag) {rest : List Char} (hrest : t.tagEnd = .missing → rest = [])
    (hbound : t.text.length ≤ bound) {i : Nat} (htake : t.take left i b = .ok c) :
    Token left nested bound ⟨i, t.text ++ rest⟩ b t.tagEnd.turn ⟨i + t.text.length, rest⟩ c := by
  obtain ⟨d, hd, hfront⟩ := t.exists_text_append
  obtain ⟨more, hmore⟩ := hfront rest
  have hlen := t.length_attributes_lt
  refine .startTag hmore ?_ (readStartTag_text t hrest (by omega) htake)
  refine ⟨?_, ?_, ?_⟩ <;>
  · rintro rfl
    exact absurd hd (by decide)

/-- A token is read off the text, and reading moves on. -/
theorem Token.past (h : Token left nested bound p b turn q c) (hbound : p.rest.length ≤ bound) :
    p.index < q.index ∧ ∃ read, Past p read q := by
  have hbody {α : Type} {reader : Place → Option (α × Place)} {word : String} {x : α}
      (hlocal : Local reader) (hword : word.toList ≠ [])
      (hx : readBehind word reader p = some (x, q)) :
      p.index < q.index ∧ ∃ read, Past p read q := by
    obtain ⟨read, hpast, -⟩ := hlocal.behind word hx
    exact ⟨hlocal.index_lt hword hx, read, hpast⟩
  cases h with
  | comment hsees h =>
    obtain ⟨content, hx, -, -⟩ := readComment_eq_ok.mp ⟨hsees, h⟩
    exact hbody (local_readThrough (by decide)) (by decide) hx
  | characters hsees h =>
    obtain ⟨content, hx, -⟩ := readSection_eq_ok.mp ⟨hsees, h⟩
    exact hbody (local_readThrough (by decide)) (by decide) hx
  | instruction hsees h =>
    obtain ⟨target, content, hx, -, -⟩ := readInstruction_eq_ok.mp ⟨hsees, h⟩
    exact hbody local_readInstructionTail (by decide) hx
  | endTag hsees h =>
    obtain ⟨name, hx, -⟩ := readEndTag_eq_ok.mp ⟨hsees, h⟩
    exact hbody local_readEndTagTail (by decide) hx
  | startTag hrest hd h =>
    obtain ⟨t, -, -, hpast, -⟩ := exists_of_readStartTag h hbound (by rw [hrest]; rfl)
    refine ⟨?_, _, hpast⟩
    rw [hpast.index]
    simp [StartTag.text]
  | text hrest hd h =>
    obtain ⟨content, hread, -, -⟩ := readText_eq_ok.mp h
    obtain ⟨hpast, -⟩ := past_of_readUntil seesTag_cons hread
    refine ⟨?_, content, hpast⟩
    rw [hrest] at hread
    obtain ⟨cs, rfl⟩ := exists_cons_of_readUntil hd hread
    rw [hpast.index, List.length_cons]
    exact Nat.lt_add_of_pos_right (Nat.succ_pos _)

end

/-- How the text of an entity is read where references may be followed `left` more levels deep. -/
def readNested : Nat → Place → Builder → Except Fault Builder
  | 0, _, _ => .error .malformed
  | left + 1, value, b => (readContent left value b).map (·.2)

theorem readContent_eq (left : Nat) (p : Place) (b : Builder) :
    readContent left p b =
      readContentWith left (readNested left) (p.rest.length + 1) 1 p b := by
  cases left <;> rfl

theorem readNested_eq_ok {left : Nat} {value : Place} {b c : Builder} :
    readNested (left + 1) value b = .ok c ↔ ∃ q, readContent left value b = .ok (q, c) := by
  rw [readNested]
  cases readContent left value b with
  | error fault => simp [Except.map]
  | ok found => simp [Except.map, Prod.ext_iff]

end DiagramView.Markup
