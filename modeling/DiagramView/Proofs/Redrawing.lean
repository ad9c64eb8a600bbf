import DiagramView.Proofs.Starts

/-!
# The same content elsewhere

When a text is edited, what stands behind the edit moves, and an element may get other attributes.
A redrawing says where each element comes to stand, and what becomes of its attributes. Reading
commutes with it: content that is read at one place is read at the other with the redrawn result,
as long as the redrawing moves it in one piece and leaves it as it is (`Redrawing.Keeps`).
-/

namespace DiagramView.Markup

/-! ## Redrawing -/

/-- Where elements come to stand, and what becomes of the attributes of each. -/
structure Redrawing where
  place : Nat → Nat
  attributes : Nat → List Attribute → List Attribute

mutual

/-- A node redrawn. -/
def Node.redraw (φ : Redrawing) : Node → Node
  | .element start name attributes children =>
    .element (φ.place start) name (φ.attributes start attributes) (Node.redrawAll φ children)
  | .text content => .text content
  | .comment content => .comment content
  | .instruction target content => .instruction target content

def Node.redrawAll (φ : Redrawing) : List Node → List Node
  | [] => []
  | node :: rest => node.redraw φ :: Node.redrawAll φ rest

end

theorem Node.redrawAll_eq_map (φ : Redrawing) (nodes : List Node) :
    Node.redrawAll φ nodes = nodes.map (·.redraw φ) := by
  induction nodes with
  | nil => rfl
  | cons node rest ih => rw [Node.redrawAll, ih, List.map_cons]

def PendingTag.redraw (φ : Redrawing) (tag : PendingTag) : PendingTag :=
  { tag with start := φ.place tag.start }

def OpenElement.redraw (φ : Redrawing) (e : OpenElement) : OpenElement :=
  { e with
    tag := e.tag.redraw φ
    attributes := φ.attributes e.tag.start e.attributes
    children := e.children.map (·.redraw φ) }

def Document.redraw (φ : Redrawing) (d : Document) : Document :=
  ⟨d.nodes.map (·.redraw φ)⟩

namespace Builder

variable {φ : Redrawing} {b c : Builder}

def redraw (φ : Redrawing) (b : Builder) : Builder :=
  { b with
    tag := b.tag.map (·.redraw φ)
    opened := b.opened.map (·.redraw φ)
    nodes := b.nodes.map (·.redraw φ) }

theorem redraw_append (φ : Redrawing) (b : Builder) (node : Node) :
    (b.append node).redraw φ = (b.redraw φ).append (node.redraw φ) := by
  unfold append redraw
  cases b.opened <;> rfl

theorem joinText_redraw (φ : Redrawing) (content : List Char) (nodes : List Node) :
    (joinText content nodes).map (·.redraw φ) = joinText content (nodes.map (·.redraw φ)) := by
  cases nodes with
  | nil => rfl
  | cons node rest => cases node <;> rfl

theorem redraw_appendText (φ : Redrawing) (b : Builder) (content : List Char) :
    (b.appendText content).redraw φ = (b.redraw φ).appendText content := by
  unfold appendText redraw
  cases content.isEmpty with
  | true => rfl
  | false => cases b.opened <;> simp [joinText_redraw, OpenElement.redraw]

theorem beginTag_redraw {start : Nat} {name : QName} (h : b.beginTag start name = .ok c) :
    (b.redraw φ).beginTag (φ.place start) name = .ok (c.redraw φ) := by
  obtain ⟨hname, rfl⟩ := beginTag_eq_ok.mp h
  exact beginTag_eq_ok.mpr ⟨hname, rfl⟩

theorem addAttribute_redraw {name : QName} {value : List Char}
    (h : b.addAttribute name value = .ok c) :
    (b.redraw φ).addAttribute name value = .ok (c.redraw φ) := by
  obtain ⟨c', hc', rfl⟩ := addAttribute_eq_ok.mp h
  exact addAttribute_eq_ok.mpr ⟨c', hc', rfl⟩

theorem redraw_finish (φ : Redrawing) (e : OpenElement) :
    (finish e).redraw φ = finish (e.redraw φ) := by
  simp [finish, Node.redraw, Node.redrawAll_eq_map, OpenElement.redraw, PendingTag.redraw]

theorem innerScope_redraw (φ : Redrawing) (b : Builder) :
    (b.redraw φ).innerScope = b.innerScope := by
  unfold innerScope outerScope redraw
  cases b.opened <;> rfl

/-- A tag whose attributes are written anew, so that they are redrawn. -/
theorem endTag_rewritten {closed : Bool} (h : b.endTag closed = .ok c)
    {written : List (QName × List Char)}
    (hwritten : ∀ tag ∈ b.tag, ∀ attributes,
      b.innerScope.resolveAttributes b.attributes [] = some attributes →
      b.innerScope.resolveAttributes written [] = some (φ.attributes tag.start attributes)) :
    { b.redraw φ with attributes := written }.endTag closed = .ok (c.redraw φ) := by
  obtain ⟨tag, attributes, name, htag, hattributes, hname, rfl⟩ := endTag_eq_ok.mp h
  have hscope : { b.redraw φ with attributes := written }.innerScope = b.innerScope :=
    innerScope_redraw φ b
  refine endTag_eq_ok.mpr ⟨tag.redraw φ, φ.attributes tag.start attributes, name,
    congrArg (Option.map _) htag, ?_, ?_, ?_⟩
  · rw [hscope]
    exact hwritten tag htag attributes hattributes
  · rw [hscope]
    exact hname
  · cases closed with
    | false =>
      rw [hscope]
      rfl
    | true =>
      rw [if_pos rfl, if_pos rfl, redraw_append, Node.redraw, Node.redrawAll]
      rfl

theorem endTag_redraw {closed : Bool} (h : b.endTag closed = .ok c)
    (hkept : ∀ tag ∈ b.tag, φ.attributes tag.start = id) :
    (b.redraw φ).endTag closed = .ok (c.redraw φ) := by
  have hwritten : ∀ tag ∈ b.tag, ∀ attributes,
      b.innerScope.resolveAttributes b.attributes [] = some attributes →
      b.innerScope.resolveAttributes b.attributes [] =
        some (φ.attributes tag.start attributes) := by
    intro tag htag attributes hattributes
    rw [hkept tag htag]
    exact hattributes
  exact endTag_rewritten h hwritten

theorem closeTag_redraw {name : QName} (h : b.closeTag name = .ok c) :
    (b.redraw φ).closeTag name = .ok (c.redraw φ) := by
  obtain ⟨htag, attributes, e, outer, hattributes, hopened, rfl, rfl⟩ := closeTag_eq_ok.mp h
  refine closeTag_eq_ok.mpr ⟨?_, attributes, e.redraw φ, outer.map (·.redraw φ), ?_, ?_, rfl, ?_⟩
  · simpa [redraw] using htag
  · rw [innerScope_redraw]
    exact hattributes
  · simp [redraw, hopened]
  · rw [redraw_append, redraw_finish]
    rfl

end Builder

/-! ## Start tags -/

section

variable {φ : Redrawing} {b c : Builder} {left : Nat}

theorem readValueWith_congr {b b' : Builder} (h : b.entities = b'.entities)
    (nested : List Char → Nat → Except Fault (List Char × Nat)) (bound references : Nat)
    (p : Place) : readValueWith b left nested bound references p =
      readValueWith b' left nested bound references p := by
  induction bound generalizing references p with
  | zero => rfl
  | succ bound ih => simp only [readValueWith, ih, Builder.entity?, h]

theorem readValue_congr {b b' : Builder} (h : b.entities = b'.entities) :
    readValue b = readValue b' := by
  funext left
  induction left with
  | zero =>
    funext value references
    exact readValueWith_congr h ..
  | succ left ih =>
    funext value references
    rw [readValue, readValue, ih]
    exact readValueWith_congr h ..

theorem TagAttribute.take_redraw {a : TagAttribute} (h : a.take left b = .ok c) :
    a.take left (b.redraw φ) = .ok (c.redraw φ) := by
  obtain ⟨⟨value, references⟩, hvalue, hadd⟩ := bind_eq_ok.mp h
  have hsame : readValue (b.redraw φ) = readValue b := readValue_congr rfl
  refine bind_eq_ok.mpr ⟨(value, references), ?_, Builder.addAttribute_redraw hadd⟩
  rw [hsame]
  exact hvalue

theorem foldlM_take_redraw {attributes : List TagAttribute}
    (h : attributes.foldlM (TagAttribute.take left) b = .ok c) :
    attributes.foldlM (TagAttribute.take left) (b.redraw φ) = .ok (c.redraw φ) := by
  induction attributes generalizing b with
  | nil =>
    cases h
    rfl
  | cons a attributes ih =>
    rw [List.foldlM_cons] at h ⊢
    obtain ⟨b', ha, h⟩ := bind_eq_ok.mp h
    exact bind_eq_ok.mpr ⟨b'.redraw φ, a.take_redraw ha, ih h⟩

theorem StartTag.take_redraw {t : StartTag} {start : Nat} (h : t.take left start b = .ok c)
    (hkept : φ.attributes start = id) :
    t.take left (φ.place start) (b.redraw φ) = .ok (c.redraw φ) := by
  obtain ⟨b₁, hbegin, h⟩ := bind_eq_ok.mp h
  obtain ⟨b₂, hfold, hfinish⟩ := bind_eq_ok.mp h
  refine bind_eq_ok.mpr ⟨b₁.redraw φ, Builder.beginTag_redraw hbegin, ?_⟩
  refine bind_eq_ok.mpr ⟨b₂.redraw φ, foldlM_take_redraw hfold, ?_⟩
  have hstart : ∀ tag ∈ b₂.tag, φ.attributes tag.start = id := by
    obtain ⟨-, rfl⟩ := Builder.beginTag_eq_ok.mp hbegin
    obtain ⟨_, _, _, rfl⟩ := exists_of_foldlM_take hfold
    rintro tag ⟨⟩
    exact hkept
  by_cases hend : t.tagEnd = .missing
  · rw [hend] at hfinish ⊢
    cases hfinish
    rfl
  · obtain ⟨closed, hclosed⟩ := TagEnd.exists_finish hend
    rw [hclosed] at hfinish ⊢
    exact Builder.endTag_redraw hfinish hstart

end

/-! ## Stretches of text that stay as they are -/

/-- A stretch of text that is moved in one piece, and in which elements keep their attributes. -/
structure Redrawing.Keeps (φ : Redrawing) (start length : Nat) : Prop where
  place : ∀ j ≤ length, φ.place (start + j) = φ.place start + j
  attributes : ∀ j < length, φ.attributes (start + j) = id

/-- All text before an index stays as it is. -/
structure Redrawing.FixesBelow (φ : Redrawing) (low : Nat) : Prop where
  place : ∀ s ≤ low, φ.place s = s
  attributes : ∀ s < low, φ.attributes s = id

namespace Redrawing

variable {φ : Redrawing} {start low m n : Nat}

theorem Keeps.take (h : φ.Keeps start (m + n)) : φ.Keeps start m where
  place j hj := h.place j (by omega)
  attributes j hj := h.attributes j (by omega)

theorem Keeps.drop (h : φ.Keeps start (m + n)) : φ.Keeps (start + m) n where
  place j hj := by
    rw [Nat.add_assoc, h.place (m + j) (by omega), h.place m (by omega), Nat.add_assoc]
  attributes j hj := by rw [Nat.add_assoc, h.attributes (m + j) (by omega)]

theorem FixesBelow.keeps (h : φ.FixesBelow low) (hlow : start + n ≤ low) : φ.Keeps start n where
  place j hj := by rw [h.place (start + j) (by omega), h.place start (by omega)]
  attributes j hj := h.attributes (start + j) (by omega)

end Redrawing

/-- A reader of entities that reads the same into a redrawn builder. -/
def CarriesBelow (φ : Redrawing) (low : Nat) (nested : Place → Builder → Except Fault Builder) :
    Prop :=
  ∀ ⦃value b c⦄, nested value b = .ok c → value.EndsBy low → b.EntitiesEndBy low →
    nested value (b.redraw φ) = .ok (c.redraw φ)

section

variable {φ : Redrawing} {left low bound : Nat} {nested : Place → Builder → Except Fault Builder}
  {p q : Place} {b c : Builder} {turn : Turn}

theorem Local.moved {α : Type} {reader : Place → Option (α × Place)} (h : Local reader) {x : α}
    (hx : reader p = some (x, q)) (i : Nat) :
    ∃ j, reader ⟨i, p.rest⟩ = some (x, ⟨j, q.rest⟩) := by
  obtain ⟨read, hpast, hgives⟩ := h hx
  refine ⟨i + read.length, ?_⟩
  rw [hpast.rest]
  exact hgives i q.rest (.refl _)

theorem readTextWith_redraw (hgrows : GrowsBelow low nested) (hnested : CarriesBelow φ low nested)
    {read : List Char} (h : readTextWith left nested bound read p b = .ok c)
    (hb : b.EntitiesEndBy low) (i : Nat) :
    readTextWith left nested bound read ⟨i, p.rest⟩ (b.redraw φ) = .ok (c.redraw φ) := by
  induction bound generalizing read p b i with
  | zero =>
    cases h
    rw [Builder.redraw_appendText]
    rfl
  | succ bound ih =>
    rw [readTextWith_succ] at h ⊢
    cases hhead : textHead p.rest with
    | nothing =>
      simp only [hhead] at h ⊢
      cases h
      rw [Builder.redraw_appendText]
    | source content =>
      simp only [hhead] at h ⊢
      exact ih h hb (i + 1)
    | reference =>
      simp only [hhead] at h ⊢
      obtain ⟨⟨reference, r⟩, hreference, h⟩ := bind_eq_ok.mp h
      obtain ⟨j, hmoved⟩ := local_readReference.moved (need_eq_ok.mp hreference) (i + 1)
      refine bind_eq_ok.mpr ⟨_, need_eq_ok.mpr hmoved, ?_⟩
      cases reference with
      | char d => exact ih h hb j
      | entity name =>
        obtain ⟨value, hvalue, h⟩ := bind_eq_ok.mp h
        obtain ⟨count, hcount, h⟩ := bind_eq_ok.mp h
        obtain ⟨after, hafter, hmore⟩ := bind_eq_ok.mp h
        refine bind_eq_ok.mpr ⟨value, hvalue, bind_eq_ok.mpr ⟨count, hcount, ?_⟩⟩
        obtain ⟨e, he, rfl⟩ := b.mem_of_entity? (need_eq_ok.mp hvalue)
        have hbefore : Builder.EntitiesEndBy low
            { b.appendText read.reverse with tag := none, references := count } := by
          simpa [Builder.EntitiesEndBy] using hb
        have hentities : after.entities = b.entities := by
          simpa using (hgrows hafter (hb e he) hbefore).1
        have hcarried := hnested hafter (hb e he) hbefore
        rw [← Builder.redraw_appendText]
        refine bind_eq_ok.mpr ⟨after.redraw φ, hcarried, ih hmore ?_ j⟩
        simpa [Builder.EntitiesEndBy, hentities] using hb

theorem readComment_redraw (φ : Redrawing) (hsees : p.sees "<!--")
    (h : readComment p b = .ok (q, c)) :
    ∃ read, Past p read q ∧ ∀ i {rest'}, SameFront rest' q.rest →
      Place.sees ⟨i, read ++ rest'⟩ "<!--" ∧ readComment ⟨i, read ++ rest'⟩ (b.redraw φ) =
        .ok (⟨i + read.length, rest'⟩, c.redraw φ) := by
  obtain ⟨content, hx, hbad, rfl⟩ := readComment_eq_ok.mp ⟨hsees, h⟩
  obtain ⟨read, hpast, hgives⟩ := (local_readThrough (by decide)).behind _ hx
  refine ⟨read, hpast, fun i rest' hrest => ?_⟩
  rw [Builder.redraw_append]
  exact readComment_eq_ok.mpr ⟨content, hgives i rest' hrest, hbad, rfl⟩

theorem readInstruction_redraw (φ : Redrawing) (hsees : p.sees "<?")
    (h : readInstruction p b = .ok (q, c)) :
    ∃ read, Past p read q ∧ ∀ i {rest'}, SameFront rest' q.rest →
      Place.sees ⟨i, read ++ rest'⟩ "<?" ∧ readInstruction ⟨i, read ++ rest'⟩ (b.redraw φ) =
        .ok (⟨i + read.length, rest'⟩, c.redraw φ) := by
  obtain ⟨target, content, hx, hxml, rfl⟩ := readInstruction_eq_ok.mp ⟨hsees, h⟩
  obtain ⟨read, hpast, hgives⟩ := local_readInstructionTail.behind _ hx
  refine ⟨read, hpast, fun i rest' hrest => ?_⟩
  have hclosed := ClosedBy.andThen (local_expect "<?") closedBy_readInstructionTail
  have hxml' : Place.sees ⟨i, read ++ rest'⟩ "<?xml " = false := by
    rw [hclosed.sees_eq (c := '>') (by decide) (by decide) hx hpast]
    exact hxml
  rw [Builder.redraw_append]
  exact readInstruction_eq_ok.mpr ⟨target, content, hgives i rest' hrest, hxml', rfl⟩

/-- A token is carried over to where the redrawing puts it, whatever stands behind it there. -/
theorem Token.redraw (hgrows : GrowsBelow low nested) (hnested : CarriesBelow φ low nested)
    (h : Token left nested bound p b turn q c) (hb : b.EntitiesEndBy low)
    (hbound : p.rest.length ≤ bound) :
    ∃ read, Past p read q ∧ (φ.Keeps p.index read.length →
      ∀ {rest' bound'}, SameFront rest' q.rest → (read ++ rest').length ≤ bound' →
        Token left nested bound' ⟨φ.place p.index, read ++ rest'⟩ (b.redraw φ) turn
          ⟨φ.place q.index, rest'⟩ (c.redraw φ)) := by
  have hplace {read : List Char} (hpast : Past p read q) (hkeeps : φ.Keeps p.index read.length) :
      φ.place q.index = φ.place p.index + read.length := by
    rw [hpast.index, hkeeps.place _ (Nat.le_refl _)]
  cases h with
  | comment hsees h =>
    obtain ⟨read, hpast, hcarry⟩ := readComment_redraw φ hsees h
    refine ⟨read, hpast, fun hkeeps rest' bound' hrest _ => ?_⟩
    obtain ⟨hsees', h'⟩ := hcarry (φ.place p.index) hrest
    rw [hplace hpast hkeeps]
    exact .comment hsees' h'
  | characters hsees h =>
    obtain ⟨content, hx, rfl⟩ := readSection_eq_ok.mp ⟨hsees, h⟩
    obtain ⟨read, hpast, hgives⟩ := (local_readThrough (by decide)).behind _ hx
    refine ⟨read, hpast, fun hkeeps rest' bound' hrest _ => ?_⟩
    rw [hplace hpast hkeeps, Builder.redraw_appendText]
    obtain ⟨hsees', h'⟩ := readSection_eq_ok.mpr ⟨content, hgives _ rest' hrest, rfl⟩
    exact .characters hsees' h'
  | instruction hsees h =>
    obtain ⟨read, hpast, hcarry⟩ := readInstruction_redraw φ hsees h
    refine ⟨read, hpast, fun hkeeps rest' bound' hrest _ => ?_⟩
    obtain ⟨hsees', h'⟩ := hcarry (φ.place p.index) hrest
    rw [hplace hpast hkeeps]
    exact .instruction hsees' h'
  | endTag hsees h =>
    obtain ⟨name, hx, hclose⟩ := readEndTag_eq_ok.mp ⟨hsees, h⟩
    obtain ⟨read, hpast, hgives⟩ := local_readEndTagTail.behind _ hx
    refine ⟨read, hpast, fun hkeeps rest' bound' hrest _ => ?_⟩
    rw [hplace hpast hkeeps]
    obtain ⟨hsees', h'⟩ := readEndTag_eq_ok.mpr
      ⟨name, hgives _ rest' hrest, Builder.closeTag_redraw hclose⟩
    exact .endTag hsees' h'
  | startTag hrest hd h =>
    obtain ⟨t, rfl, hmissing, hpast, htake⟩ := exists_of_readStartTag h hbound (by rw [hrest]; rfl)
    refine ⟨t.text, hpast, fun hkeeps rest' bound' hrest' hbound' => ?_⟩
    have hkept : φ.attributes p.index = id := hkeeps.attributes 0 (by simp [StartTag.text])
    have hend : t.tagEnd = .missing → rest' = [] := fun h =>
      SameFront.eq_nil (hmissing h ▸ hrest')
    rw [List.length_append] at hbound'
    rw [hplace hpast hkeeps]
    exact t.token hend (by omega) (t.take_redraw htake hkept)
  | text hrest hd h =>
    obtain ⟨content, hread, hbad, hc⟩ := readText_eq_ok.mp h
    obtain ⟨hpast, -⟩ := past_of_readUntil seesTag_cons hread
    obtain ⟨read, hpast', hgives⟩ := local_readUntil SameFront.seesTag_eq hread
    obtain rfl := hpast.unique hpast'
    refine ⟨content, hpast, fun hkeeps rest' bound' hrest' _ => ?_⟩
    have htext : readText left nested ⟨φ.place p.index, content ++ rest'⟩ (b.redraw φ) =
        .ok (⟨φ.place p.index + content.length, rest'⟩, c.redraw φ) :=
      readText_eq_ok.mpr ⟨content, hgives _ rest' hrest', hbad,
        readTextWith_redraw hgrows hnested hc hb _⟩
    rw [hrest] at hread
    obtain ⟨cs, rfl⟩ := exists_cons_of_readUntil hd hread
    rw [hplace hpast hkeeps]
    exact .text rfl hd htext

theorem readContentWith_redraw (hgrows : GrowsBelow low nested)
    (hnested : CarriesBelow φ low nested) {levels : Nat}
    (h : readContentWith left nested bound levels p b = .ok (q, c)) (hb : b.EntitiesEndBy low)
    (hbound : p.rest.length < bound) :
    ∃ read, Past p read q ∧ (φ.Keeps p.index read.length →
      ∀ {rest' bound'}, SameFront rest' q.rest → (read ++ rest').length < bound' →
        readContentWith left nested bound' levels ⟨φ.place p.index, read ++ rest'⟩ (b.redraw φ) =
          .ok (⟨φ.place q.index, rest'⟩, c.redraw φ)) := by
  induction bound generalizing levels p b with
  | zero => cases hbound
  | succ bound ih =>
    by_cases hempty : p.rest = []
    · simp only [readContentWith, hempty] at h
      cases h
      refine ⟨[], ⟨rfl, rfl⟩, fun _ rest' bound' hrest hbound' => ?_⟩
      rw [hempty] at hrest
      obtain ⟨bound', rfl⟩ := Nat.exists_eq_add_one_of_ne_zero (Nat.ne_zero_of_lt hbound')
      rw [hrest.eq_nil]
      rfl
    · obtain ⟨turn, r, b', htoken⟩ := exists_token hempty h
      have hle := Nat.le_of_lt_succ hbound
      have hlt := (htoken.past hle).1
      obtain ⟨read, hpast, hcarry⟩ := htoken.redraw hgrows hnested hb hle
      have hindex := hpast.index
      have hlen := congrArg List.length hpast.rest
      rw [List.length_append] at hlen
      rw [htoken.readContentWith_eq] at h
      by_cases hout : turn = .out ∧ levels ≤ 1
      · rw [if_pos hout] at h
        cases h
        refine ⟨read, hpast, fun hkeeps rest' bound' hrest hbound' => ?_⟩
        obtain ⟨bound', rfl⟩ := Nat.exists_eq_add_one_of_ne_zero (Nat.ne_zero_of_lt hbound')
        rw [(hcarry hkeeps hrest (Nat.le_of_lt_succ hbound')).readContentWith_eq, if_pos hout]
      · rw [if_neg hout] at h
        have hb' : b'.EntitiesEndBy low := by
          unfold Builder.EntitiesEndBy
          rwa [(htoken.grown hgrows hb hle).entities]
        obtain ⟨more, hmore, hcarry'⟩ := ih h hb' (by omega)
        refine ⟨read ++ more, hpast.trans hmore, fun hkeeps rest' bound' hrest hbound' => ?_⟩
        obtain ⟨bound', rfl⟩ := Nat.exists_eq_add_one_of_ne_zero (Nat.ne_zero_of_lt hbound')
        rw [List.length_append] at hkeeps
        have hkeeps' : φ.Keeps r.index more.length := by
          rw [hindex]
          exact hkeeps.drop
        have hfront : SameFront (more ++ rest') r.rest := by
          rw [hmore.rest]
          exact hrest.append more
        rw [List.append_assoc] at hbound' ⊢
        have hshort : (more ++ rest').length < bound' := by
          rw [List.length_append] at hbound'
          omega
        rw [(hcarry hkeeps.take hfront (Nat.le_of_lt_succ hbound')).readContentWith_eq, if_neg hout]
        exact hcarry' hkeeps' hrest hshort

theorem carriesBelow_readNested (hφ : φ.FixesBelow low) (left : Nat) :
    CarriesBelow φ low (readNested left) := by
  intro value b c h hvalue hb
  induction left generalizing value b c with
  | zero => cases h
  | succ left ih =>
    obtain ⟨q, hq⟩ := readNested_eq_ok.mp h
    rw [readContent_eq] at hq
    obtain ⟨read, hpast, hcarry⟩ :=
      readContentWith_redraw (growsBelow_readNested low left) ih hq hb (Nat.lt_succ_self _)
    have hlen := congrArg List.length hpast.rest
    rw [List.length_append] at hlen
    unfold Place.EndsBy at hvalue
    have hagain := hcarry (hφ.keeps (by omega)) (.refl q.rest) (Nat.lt_succ_self _)
    rw [hφ.place _ (by omega), ← hpast.rest] at hagain
    exact readNested_eq_ok.mpr ⟨_, (readContent_eq ..).trans hagain⟩

end

end DiagramView.Markup
