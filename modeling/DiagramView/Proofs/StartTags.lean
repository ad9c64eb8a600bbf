import DiagramView.Proofs.Locality
import DiagramView.Markup.StartTag

/-!
# How start tags are written

A start tag that the reader accepts is a name and attributes with blanks between them
(`StartTag`), and every such text is accepted with the same effect (`readStartTag_eq_ok`,
`readStartTag_text`).
-/

namespace DiagramView.Markup

variable {α β : Type}

/-! ## Steps that succeed -/

theorem need_eq_ok {result : Option α} {x : α} : need result = .ok x ↔ result = some x := by
  cases result <;> simp [need]

theorem bind_eq_ok {x : Except Fault α} {f : α → Except Fault β} {y : β} :
    (x >>= f) = .ok y ↔ ∃ a, x = .ok a ∧ f a = .ok y := by
  cases x with
  | error e => simp [Bind.bind, Except.bind]
  | ok a => simp [Bind.bind, Except.bind]

/-! ## Attributes -/

/-- An attribute as it is written. -/
structure WrittenAttribute where
  spelled : List Char
  name : QName
  before : List Char
  after : List Char
  quote : Char
  value : List Char
  spelled_char : ∀ c ∈ spelled, isNameChar c
  named : qname? spelled = some name
  before_space : ∀ c ∈ before, isSpace c
  after_space : ∀ c ∈ after, isSpace c
  quote_mark : quote = '\x22' ∨ quote = '\x27'
  value_char : ∀ c ∈ value, isDocumentChar c ∧ c ≠ quote ∧ c ≠ '<'

def WrittenAttribute.text (a : WrittenAttribute) : List Char :=
  a.spelled ++ (a.before ++ '=' :: (a.after ++ a.quote :: (a.value ++ [a.quote])))

/-- A text that does not go on with a character of a class. -/
def StopsClass (inside : Char → Bool) (rest : List Char) : Prop :=
  ∀ c ∈ rest.head?, inside c = false

theorem StopsClass.cons {inside : Char → Bool} {c : Char} (h : inside c = false)
    (rest : List Char) : StopsClass inside (c :: rest) := by
  rintro d ⟨⟩
  exact h

theorem StopsClass.append {inside : Char → Bool} {read rest : List Char}
    (hread : ∀ c ∈ read, inside c = false) (hrest : StopsClass inside rest) :
    StopsClass inside (read ++ rest) := by
  cases read with
  | nil => exact hrest
  | cons c cs => exact .cons (hread c List.mem_cons_self) _

theorem isNameChar_of_isSpace {c : Char} (h : isSpace c) : isNameChar c = false := by
  simp only [isSpace, Bool.or_eq_true, beq_iff_eq] at h
  obtain ((rfl | rfl) | rfl) | rfl := h <;> decide

theorem takeWhile_append_eq {inside : Char → Bool} {read rest : List Char}
    (hread : ∀ c ∈ read, inside c) (hrest : StopsClass inside rest) :
    (read ++ rest).takeWhile inside = read := by
  rw [List.takeWhile_append_of_pos hread]
  cases rest with
  | nil => simp
  | cons c cs => simp [hrest c rfl]

theorem skipWhile_append {inside : Char → Bool} {read rest : List Char} (i : Nat)
    (hread : ∀ c ∈ read, inside c) (hrest : StopsClass inside rest) :
    Place.skipWhile ⟨i, read ++ rest⟩ inside = ⟨i + read.length, rest⟩ := by
  simp [Place.skipWhile, Place.advance, takeWhile_append_eq hread hrest]

theorem stopsClass_skipWhile (p : Place) (inside : Char → Bool) :
    StopsClass inside (p.skipWhile inside).rest := by
  intro c hc
  have h := List.head?_dropWhile_not inside p.rest
  rw [skipWhile_rest] at hc
  rw [Option.mem_def.mp hc] at h
  exact h

theorem readQName_append {spelled rest : List Char} {name : QName} (i : Nat)
    (hspelled : ∀ c ∈ spelled, isNameChar c) (hname : qname? spelled = some name)
    (hrest : StopsClass isNameChar rest) :
    readQName ⟨i, spelled ++ rest⟩ = some (name, ⟨i + spelled.length, rest⟩) := by
  rw [readQName_eq, takeWhile_append_eq hspelled hrest, hname, skipWhile_append i hspelled hrest]
  rfl

theorem exists_of_readQName {p q : Place} {name : QName} (h : readQName p = some (name, q)) :
    ∃ spelled, Past p spelled q ∧ (∀ c ∈ spelled, isNameChar c) ∧ qname? spelled = some name := by
  rw [readQName_eq] at h
  obtain ⟨name', hname, heq⟩ := Option.map_eq_some_iff.mp h
  cases heq
  exact ⟨_, past_skipWhile p isNameChar, fun c hc => List.all_eq_true.mp List.all_takeWhile c hc,
    hname⟩

theorem readUntil_append {stop : List Char → Bool} {f : Char → Bool}
    (hstop : ∀ c cs, stop (c :: cs) = f c) {read rest : List Char} (i : Nat)
    (hread : ∀ c ∈ read, isDocumentChar c ∧ f c = false)
    (hrest : ∀ c ∈ rest.head?, isDocumentChar c ∧ f c = true) :
    readUntil stop i (read ++ rest) = some (read, ⟨i + read.length, rest⟩) := by
  induction read generalizing i with
  | nil =>
    cases rest with
    | nil => rfl
    | cons c cs =>
      obtain ⟨hdoc, hc⟩ := hrest c rfl
      exact readUntil_cons_eq_some.mpr ⟨hdoc, .inl ⟨hstop c cs ▸ hc, rfl, rfl⟩⟩
  | cons c read ih =>
    obtain ⟨hdoc, hc⟩ := hread c List.mem_cons_self
    have hmore := ih (i + 1) fun d hd => hread d (List.mem_cons_of_mem c hd)
    rw [Nat.add_assoc, Nat.add_comm 1] at hmore
    exact readUntil_cons_eq_some.mpr ⟨hdoc, .inr ⟨(hstop ..).trans hc, read, hmore, rfl⟩⟩

theorem past_of_readUntil {stop : List Char → Bool} {f : Char → Bool}
    (hstop : ∀ c cs, stop (c :: cs) = f c) {i : Nat} {text read : List Char} {q : Place}
    (h : readUntil stop i text = some (read, q)) :
    Past ⟨i, text⟩ read q ∧ ∀ c ∈ read, isDocumentChar c ∧ f c = false := by
  induction text generalizing i read with
  | nil =>
    cases h
    exact ⟨⟨rfl, rfl⟩, by simp⟩
  | cons c cs ih =>
    obtain ⟨hdoc, ⟨hs, rfl, rfl⟩ | ⟨hs, more, hmore, rfl⟩⟩ := readUntil_cons_eq_some.mp h
    · exact ⟨⟨rfl, rfl⟩, by simp⟩
    · obtain ⟨hpast, hchars⟩ := ih hmore
      refine ⟨(Past.cons i c cs).trans hpast, fun d hd => ?_⟩
      cases hd with
      | head => exact ⟨hdoc, (hstop c cs).symm.trans hs⟩
      | tail _ hd => exact hchars d hd

theorem isSpace_of_quote {c : Char} (h : c = '\x22' ∨ c = '\x27') : isSpace c = false := by
  obtain rfl | rfl := h <;> decide

theorem isDocumentChar_of_quote {c : Char} (h : c = '\x22' ∨ c = '\x27') : isDocumentChar c := by
  obtain rfl | rfl := h <;> decide

theorem readAttribute_text (a : WrittenAttribute) (i : Nat) (rest : List Char) :
    readAttribute ⟨i, a.text ++ rest⟩ =
      some ((a.name, a.value), ⟨i + a.text.length, rest⟩) := by
  have hbefore (c) (hc : c ∈ a.before) : isNameChar c = false :=
    isNameChar_of_isSpace (a.before_space c hc)
  have hvalue (c) (hc : c ∈ a.value) :
      isDocumentChar c ∧ (c == a.quote || c == '<') = false := by
    simpa using a.value_char c hc
  have hclose : ∀ c ∈ (a.quote :: rest).head?,
      isDocumentChar c ∧ (c == a.quote || c == '<') = true := by
    rintro c ⟨⟩
    exact ⟨isDocumentChar_of_quote a.quote_mark, by simp⟩
  simp only [readAttribute, WrittenAttribute.text, List.append_assoc, List.cons_append,
    List.nil_append, Place.skipSpaces, Option.bind_eq_bind]
  rw [readQName_append i a.spelled_char a.named (.append hbefore (.cons (by decide) _)),
    Option.bind_some]
  dsimp only
  rw [skipWhile_append _ a.before_space (.cons (by decide) _), expectChar_cons, Option.bind_some,
    skipWhile_append _ a.after_space (.cons (isSpace_of_quote a.quote_mark) _),
    readQuote_cons a.quote_mark, Option.bind_some]
  dsimp only
  rw [readUntil_append (f := fun c => c == a.quote || c == '<') (fun _ _ => rfl) _ hvalue hclose,
    Option.bind_some]
  dsimp only
  rw [expectChar_cons, Option.bind_some]
  simp only [pure, Option.some_inj, Prod.mk.injEq, Place.mk.injEq, true_and, and_true,
    List.length_append, List.length_cons, List.length_nil]
  omega

theorem exists_of_readAttribute {p q : Place} {x : QName × List Char}
    (h : readAttribute p = some (x, q)) :
    ∃ a : WrittenAttribute, Past p a.text q ∧ x = (a.name, a.value) := by
  simp only [readAttribute, Option.bind_eq_bind, Option.bind_eq_some_iff, Prod.exists] at h
  obtain ⟨name, p₁, hname, p₂, hequals, quote, p₃, hquote, value, p₄, hvalue, p₅, hclose, heq⟩ := h
  obtain ⟨spelled, hspelled, hchars, hnamed⟩ := exists_of_readQName hname
  obtain ⟨hmark, hquote⟩ := readQuote_eq_some.mp hquote
  obtain ⟨hvalue, hvalueChars⟩ :=
    past_of_readUntil (f := fun c => c == quote || c == '<') (fun _ _ => rfl) hvalue
  cases heq
  have hspaces (p : Place) (c) (hc : c ∈ p.rest.takeWhile isSpace) : isSpace c :=
    List.all_eq_true.mp List.all_takeWhile c hc
  refine ⟨⟨spelled, name, _, _, quote, value, hchars, hnamed, hspaces p₁, hspaces p₂, hmark,
    fun c hc => by simpa using hvalueChars c hc⟩, ?_, rfl⟩
  have hpast := hspelled.trans <| (past_skipWhile p₁ isSpace).trans <|
    (expectChar_eq_some.mp hequals).trans <| (past_skipWhile p₂ isSpace).trans <|
    hquote.trans <| hvalue.trans <| expectChar_eq_some.mp hclose
  exact hpast

/-! ## Tags -/

/-- An attribute with the blanks before it. -/
structure TagAttribute extends WrittenAttribute where
  gap : List Char
  gap_ne : gap ≠ []
  gap_space : ∀ c ∈ gap, isSpace c

def TagAttribute.text (a : TagAttribute) : List Char :=
  a.gap ++ a.toWrittenAttribute.text

/-- The end of a tag as it is written. -/
def TagEnd.text : TagEnd → List Char
  | .opened => ['>']
  | .closed => ['/', '>']
  | .missing => []

/-- What the end of a tag does. -/
def TagEnd.finish : TagEnd → Builder → Except Fault Builder
  | .opened, b => b.endTag false
  | .closed, b => b.endTag true
  | .missing, b => .ok b

theorem TagEnd.exists_finish {tagEnd : TagEnd} (h : tagEnd ≠ .missing) :
    ∃ closed, ∀ b, tagEnd.finish b = b.endTag closed := by
  cases tagEnd with
  | opened => exact ⟨false, fun _ => rfl⟩
  | closed => exact ⟨true, fun _ => rfl⟩
  | missing => exact absurd rfl h

/-- Takes in an attribute as it is written. -/
def TagAttribute.take (left : Nat) (b : Builder) (a : TagAttribute) : Except Fault Builder := do
  let (value, references) ← readValue b left a.value b.references
  { b with references }.addAttribute a.name value

/-- A start tag as it is written. -/
structure StartTag where
  spelled : List Char
  name : QName
  attributes : List TagAttribute
  gap : List Char
  tagEnd : TagEnd
  spelled_char : ∀ c ∈ spelled, isNameChar c
  named : qname? spelled = some name
  gap_space : ∀ c ∈ gap, isSpace c
  gap_missing : tagEnd = .missing → gap = []

/-- What follows the name of a tag. -/
def StartTag.tail (attributes : List TagAttribute) (gap : List Char) (tagEnd : TagEnd) :
    List Char :=
  attributes.flatMap (·.text) ++ (gap ++ tagEnd.text)

theorem StartTag.tail_cons (a : TagAttribute) (attributes : List TagAttribute) (gap : List Char)
    (tagEnd : TagEnd) : StartTag.tail (a :: attributes) gap tagEnd =
      a.text ++ StartTag.tail attributes gap tagEnd := by
  simp [StartTag.tail]

def StartTag.text (t : StartTag) : List Char :=
  '<' :: (t.spelled ++ StartTag.tail t.attributes t.gap t.tagEnd)

/-- What a start tag does. -/
def StartTag.take (t : StartTag) (left start : Nat) (b : Builder) : Except Fault Builder := do
  let b ← b.beginTag start t.name
  let b ← t.attributes.foldlM (TagAttribute.take left) b
  t.tagEnd.finish b

theorem exists_cons_of_qname {spelled : List Char} {name : QName} (h : qname? spelled = some name) :
    ∃ c cs, spelled = c :: cs := by
  cases spelled with
  | nil => cases h
  | cons c cs => exact ⟨c, cs, rfl⟩

theorem isSpace_of_isNameChar {c : Char} (h : isNameChar c) : isSpace c = false := by
  cases hc : isSpace c with
  | false => rfl
  | true => rw [isNameChar_of_isSpace hc] at h; cases h

/-- The reader passes to an attribute when one comes next. -/
theorem readTagEnd_attribute (left bound : Nat) (a : TagAttribute) (i : Nat) (rest : List Char)
    (b : Builder) : readTagEnd left (bound + 1) ⟨i, a.text ++ rest⟩ b =
      a.take left b >>= readTagEnd left bound ⟨i + a.text.length, rest⟩ := by
  obtain ⟨c, cs, hspelled⟩ := exists_cons_of_qname a.named
  have hc : isNameChar c := a.spelled_char c (by simp [hspelled])
  obtain ⟨g, gs, hgap⟩ := List.exists_cons_of_ne_nil a.gap_ne
  have hg : isSpace g := a.gap_space g (by simp [hgap])
  have hskip : Place.skipSpaces ⟨i, a.text ++ rest⟩ =
      ⟨i + a.gap.length, a.toWrittenAttribute.text ++ rest⟩ := by
    rw [TagAttribute.text, List.append_assoc]
    refine skipWhile_append i a.gap_space ?_
    simpa [WrittenAttribute.text, hspelled] using StopsClass.cons (isSpace_of_isNameChar hc) _
  have hhead : ∃ more, a.toWrittenAttribute.text ++ rest = c :: more :=
    ⟨_, by rw [WrittenAttribute.text, hspelled]; rfl⟩
  obtain ⟨more, hmore⟩ := hhead
  have hlen : a.text.length = a.gap.length + a.toWrittenAttribute.text.length := by
    simp [TagAttribute.text]
  have hsees : Place.seesSpace ⟨i, a.text ++ rest⟩ := by
    simpa [Place.seesSpace, TagAttribute.text, hgap] using hg
  have hnonempty : (a.text ++ rest).isEmpty = false := by simp [TagAttribute.text, hgap]
  simp only [readTagEnd, hskip, hnonempty, hsees, Bool.not_true, Bool.false_eq_true, if_false]
  split
  case h_1 heq => cases hmore.symm.trans heq
  case h_2 heq =>
    cases hmore.symm.trans heq
    exact absurd hc (by decide)
  case h_3 heq =>
    cases hmore.symm.trans heq
    exact absurd hc (by decide)
  case h_4 =>
    rw [readAttribute_text, hlen, ← Nat.add_assoc]
    simp only [need, TagAttribute.take, bind_assoc]
    rfl

/-- The reader comes to the end of the tag. -/
theorem readTagEnd_end (left bound : Nat) {gap : List Char} {tagEnd : TagEnd}
    (hgap : ∀ c ∈ gap, isSpace c) (hmissing : tagEnd = .missing → gap = [])
    {rest : List Char} (hrest : tagEnd = .missing → rest = []) (i : Nat) (b : Builder) :
    readTagEnd left (bound + 1) ⟨i, gap ++ tagEnd.text ++ rest⟩ b =
      (tagEnd.finish b).map (tagEnd, ⟨i + (gap ++ tagEnd.text).length, rest⟩, ·) := by
  cases tagEnd with
  | missing => simp [hmissing rfl, hrest rfl, TagEnd.text, readTagEnd, TagEnd.finish, Except.map]
  | opened =>
    have hskip : Place.skipSpaces ⟨i, gap ++ '>' :: rest⟩ = ⟨i + gap.length, '>' :: rest⟩ :=
      skipWhile_append i hgap (.cons (by decide) _)
    simp only [TagEnd.text, List.append_assoc, List.singleton_append, readTagEnd, hskip]
    simp [TagEnd.finish, Place.advance, Nat.add_assoc]
    rfl
  | closed =>
    have hskip : Place.skipSpaces ⟨i, gap ++ '/' :: '>' :: rest⟩ =
        ⟨i + gap.length, '/' :: '>' :: rest⟩ := skipWhile_append i hgap (.cons (by decide) _)
    have hend : Place.expect ⟨i + gap.length, '/' :: '>' :: rest⟩ "/>" =
        some ⟨i + gap.length + 2, rest⟩ := expect_eq_some.mpr ⟨rfl, rfl⟩
    simp [TagEnd.text, readTagEnd, hskip, hend, need, TagEnd.finish, Nat.add_assoc]
    rfl

theorem readTagEnd_tail {left bound : Nat} {attributes : List TagAttribute} {gap : List Char}
    {tagEnd : TagEnd} (hgap : ∀ c ∈ gap, isSpace c) (hmissing : tagEnd = .missing → gap = [])
    {rest : List Char} (hrest : tagEnd = .missing → rest = []) {b c : Builder}
    (hbound : attributes.length < bound)
    (htake : (attributes.foldlM (TagAttribute.take left) b >>= tagEnd.finish) = .ok c) (i : Nat) :
    readTagEnd left bound ⟨i, StartTag.tail attributes gap tagEnd ++ rest⟩ b =
      .ok (tagEnd, ⟨i + (StartTag.tail attributes gap tagEnd).length, rest⟩, c) := by
  induction attributes generalizing bound b i with
  | nil =>
    obtain ⟨bound, rfl⟩ := Nat.exists_eq_add_one_of_ne_zero (Nat.ne_of_gt hbound)
    have hfinish : tagEnd.finish b = .ok c := htake
    have hend := readTagEnd_end left bound hgap hmissing hrest i b
    rw [hfinish] at hend
    exact hend
  | cons a attributes ih =>
    obtain ⟨bound, rfl⟩ := Nat.exists_eq_add_one_of_ne_zero (Nat.ne_zero_of_lt hbound)
    rw [List.foldlM_cons, bind_assoc] at htake
    obtain ⟨b', ha, htake⟩ := bind_eq_ok.mp htake
    have hmore := ih (Nat.lt_of_succ_lt_succ hbound) htake (i + a.text.length)
    rw [StartTag.tail_cons, List.append_assoc, readTagEnd_attribute, ha, List.length_append,
      ← Nat.add_assoc]
    exact hmore

theorem takeWhile_ne_nil_of_seesSpace {p : Place} (h : p.seesSpace) :
    p.rest.takeWhile isSpace ≠ [] := by
  obtain ⟨i, text⟩ := p
  cases text with
  | nil => cases h
  | cons c cs => simp [List.takeWhile_cons_of_pos (show isSpace c from h)]

theorem exists_of_readTagEnd {left bound : Nat} {p q : Place} {b c : Builder} {tagEnd : TagEnd}
    (h : readTagEnd left bound p b = .ok (tagEnd, q, c)) (hbound : p.rest.length < bound) :
    ∃ attributes gap, (∀ c ∈ gap, isSpace c) ∧ (tagEnd = .missing → gap = [] ∧ q.rest = []) ∧
      Past p (StartTag.tail attributes gap tagEnd) q ∧
      (attributes.foldlM (TagAttribute.take left) b >>= tagEnd.finish) = .ok c := by
  induction bound generalizing p b with
  | zero => cases hbound
  | succ bound ih =>
    have hspaces : ∀ c ∈ p.rest.takeWhile isSpace, isSpace c :=
      fun c hc => List.all_eq_true.mp List.all_takeWhile c hc
    have hskip := past_skipWhile p isSpace
    simp only [readTagEnd] at h
    split at h
    case isTrue hempty =>
      cases h
      exact ⟨[], [], by simp, fun _ => ⟨rfl, List.isEmpty_iff.mp hempty⟩, ⟨rfl, rfl⟩, rfl⟩
    case isFalse =>
      split at h
      case h_1 => cases h
      case h_2 =>
        obtain ⟨r, hexpect, h⟩ := bind_eq_ok.mp h
        obtain ⟨b', hend, heq⟩ := bind_eq_ok.mp h
        cases heq
        have hslash := expect_eq_some.mp (need_eq_ok.mp hexpect)
        exact ⟨[], _, hspaces, by rintro ⟨⟩, hskip.trans hslash, hend⟩
      case h_3 more hmore =>
        obtain ⟨b', hend, heq⟩ := bind_eq_ok.mp h
        cases heq
        have hmark : Past p.skipSpaces ['>'] (p.skipSpaces.advance 1) :=
          ⟨by rw [Place.advance, hmore]; rfl, rfl⟩
        exact ⟨[], _, hspaces, by rintro ⟨⟩, hskip.trans hmark, hend⟩
      case h_4 =>
        cases hsees : p.seesSpace with
        | false => simp [hsees] at h
        | true =>
          simp only [hsees, Bool.not_true, Bool.false_eq_true, if_false] at h
          obtain ⟨⟨x, r⟩, hattr, h⟩ := bind_eq_ok.mp h
          obtain ⟨⟨value, references⟩, hvalue, h⟩ := bind_eq_ok.mp h
          obtain ⟨b', hadd, h⟩ := bind_eq_ok.mp h
          obtain ⟨a, hpast, rfl⟩ := exists_of_readAttribute (need_eq_ok.mp hattr)
          let first : TagAttribute := ⟨a, _, takeWhile_ne_nil_of_seesSpace hsees, hspaces⟩
          have hfirst : Past p first.text r := hskip.trans hpast
          have hshort : r.rest.length < bound := by
            have hlen := congrArg List.length hfirst.rest
            have hpos := List.length_pos_iff.mpr first.gap_ne
            simp only [TagAttribute.text, List.length_append] at hlen
            omega
          obtain ⟨attributes, gap, hgap, hmissing, htail, hfold⟩ := ih h hshort
          refine ⟨first :: attributes, gap, hgap, hmissing, ?_, ?_⟩
          · rw [StartTag.tail_cons]
            exact hfirst.trans htail
          · rw [List.foldlM_cons, bind_assoc]
            refine bind_eq_ok.mpr ⟨b', bind_eq_ok.mpr ⟨_, hvalue, hadd⟩, hfold⟩

theorem stopsClass_tail (attributes : List TagAttribute) {gap : List Char} {tagEnd : TagEnd}
    (hgap : ∀ c ∈ gap, isSpace c) {rest : List Char} (hrest : tagEnd = .missing → rest = []) :
    StopsClass isNameChar (StartTag.tail attributes gap tagEnd ++ rest) := by
  cases attributes with
  | nil =>
    rw [StartTag.tail, List.flatMap_nil, List.nil_append, List.append_assoc]
    refine .append (fun c hc => isNameChar_of_isSpace (hgap c hc)) ?_
    cases tagEnd with
    | opened => exact .cons (by decide) _
    | closed => exact .cons (by decide) _
    | missing => simp [hrest rfl, TagEnd.text, StopsClass]
  | cons a attributes =>
    obtain ⟨c, cs, hcs⟩ := List.exists_cons_of_ne_nil a.gap_ne
    have hc := a.gap_space c (by simp [hcs])
    rw [StartTag.tail_cons, TagAttribute.text, hcs]
    exact .cons (isNameChar_of_isSpace hc) _

theorem readStartTag_text {left bound : Nat} (t : StartTag) {rest : List Char}
    (hrest : t.tagEnd = .missing → rest = []) (hbound : t.attributes.length < bound) {i : Nat}
    {b c : Builder} (htake : t.take left i b = .ok c) :
    readStartTag left bound ⟨i, t.text ++ rest⟩ b =
      .ok (t.tagEnd, ⟨i + t.text.length, rest⟩, c) := by
  obtain ⟨b', hbegin, htail⟩ := bind_eq_ok.mp htake
  have hname := readQName_append (i + 1) t.spelled_char t.named
    (stopsClass_tail t.attributes t.gap_space hrest)
  have hend := readTagEnd_tail t.gap_space t.gap_missing hrest hbound htail
    (i + 1 + t.spelled.length)
  have hadvance : Place.advance ⟨i, t.text ++ rest⟩ 1 = ⟨i + 1, t.spelled ++
      (StartTag.tail t.attributes t.gap t.tagEnd ++ rest)⟩ := by
    simp [Place.advance, StartTag.text]
  have hlen : t.text.length =
      1 + t.spelled.length + (StartTag.tail t.attributes t.gap t.tagEnd).length := by
    simp only [StartTag.text, List.length_cons, List.length_append]
    omega
  rw [hlen, ← Nat.add_assoc, ← Nat.add_assoc]
  exact bind_eq_ok.mpr ⟨_, need_eq_ok.mpr (hadvance ▸ hname), bind_eq_ok.mpr ⟨b', hbegin, hend⟩⟩

theorem past_of_seesTag {p : Place} (h : seesTag p.rest) : Past p ['<'] (p.advance 1) := by
  obtain ⟨i, text⟩ := p
  simp only [seesTag] at h
  split at h
  · exact ⟨rfl, rfl⟩
  · cases h

theorem StartTag.length_attributes_lt (t : StartTag) : t.attributes.length < t.text.length := by
  have hflat (attributes : List TagAttribute) :
      attributes.length ≤ (attributes.flatMap (·.text)).length := by
    induction attributes with
    | nil => exact Nat.le_refl _
    | cons a attributes ih =>
      have hpos : 0 < a.text.length := by
        rw [TagAttribute.text, List.length_append]
        exact Nat.add_pos_left (List.length_pos_iff.mpr a.gap_ne) _
      simp only [List.flatMap_cons, List.length_append, List.length_cons]
      omega
  have := hflat t.attributes
  simp only [StartTag.text, StartTag.tail, List.length_cons, List.length_append]
  omega

/-- A tag begins with a less-than sign and a character of a name. -/
theorem StartTag.exists_text_append (t : StartTag) :
    ∃ c, isNameChar c ∧ ∀ rest, ∃ more, t.text ++ rest = '<' :: c :: more := by
  obtain ⟨c, cs, hcs⟩ := exists_cons_of_qname t.named
  refine ⟨c, t.spelled_char c (by simp [hcs]), fun rest => ?_⟩
  exact ⟨cs ++ StartTag.tail t.attributes t.gap t.tagEnd ++ rest, by simp [StartTag.text, hcs]⟩

theorem exists_of_readStartTag {left bound : Nat} {p q : Place} {b c : Builder} {tagEnd : TagEnd}
    (h : readStartTag left bound p b = .ok (tagEnd, q, c)) (hbound : p.rest.length ≤ bound)
    (hopen : seesTag p.rest) :
    ∃ t : StartTag, t.tagEnd = tagEnd ∧ (tagEnd = .missing → q.rest = []) ∧ Past p t.text q ∧
      t.take left p.index b = .ok c := by
  obtain ⟨⟨name, r⟩, hname, h⟩ := bind_eq_ok.mp h
  obtain ⟨b', hbegin, h⟩ := bind_eq_ok.mp h
  obtain ⟨spelled, hspelled, hchars, hnamed⟩ := exists_of_readQName (need_eq_ok.mp hname)
  have hmark := past_of_seesTag hopen
  have hshort : r.rest.length < bound := by
    have hlen := congrArg List.length (hmark.trans hspelled).rest
    obtain ⟨c, cs, rfl⟩ := exists_cons_of_qname hnamed
    simp only [List.length_append, List.length_cons] at hlen
    omega
  obtain ⟨attributes, gap, hgap, hmissing, htail, hfold⟩ := exists_of_readTagEnd h hshort
  refine ⟨⟨spelled, name, attributes, gap, tagEnd, hchars, hnamed, hgap, fun h => (hmissing h).1⟩,
    rfl, fun h => (hmissing h).2, hmark.trans (hspelled.trans htail), ?_⟩
  exact bind_eq_ok.mpr ⟨b', hbegin, hfold⟩

end DiagramView.Markup
