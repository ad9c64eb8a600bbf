import Mathlib.Data.List.Forall2
import Mathlib.Data.List.Nodup
import DiagramView.Proofs.TagEdit

/-!
# What setting an attribute does to an element

A tag with an attribute set gives the element that the tag gave before, with the value of that
attribute replaced, or with the attribute behind the others (`Assigned.holds`). The element may also
have attributes that the tag does not hold: those of a tag that an entity's text broke off. Such an
attribute must not be the one that is set (`Owns`), or the element would have it twice.
-/

namespace DiagramView.Markup

/-! ## Attributes of elements -/

/-- Attributes with the value of one of them replaced, or with that one behind them. -/
def setValue (name : String) (value : List Char) (attributes : List Attribute) : List Attribute :=
  if attributes.any fun a => a.name == ⟨none, name.toList⟩ then
    attributes.map fun a => if a.name = ⟨none, name.toList⟩ then { a with value } else a
  else attributes ++ [⟨⟨none, name.toList⟩, value⟩]

/-- The value of an attribute without namespace. -/
def valueOf? (name : String) (attributes : List Attribute) : Option (List Char) :=
  (attributes.find? fun a => a.name == ⟨none, name.toList⟩).map (·.value)

section

variable {name : String} {value : List Char} {attributes : List Attribute}

theorem valueOf?_eq_none :
    valueOf? name attributes = none ↔ ∀ a ∈ attributes, a.name ≠ ⟨none, name.toList⟩ := by
  simp [valueOf?]

theorem valueOf?_setValue (name : String) (value : List Char) (attributes : List Attribute) :
    valueOf? name (setValue name value attributes) = some value := by
  unfold setValue
  split
  case isTrue hany =>
    have hsame : ((fun a : Attribute => a.name == ⟨none, name.toList⟩) ∘ fun a =>
        if a.name = ⟨none, name.toList⟩ then { a with value } else a) =
        fun a => a.name == ⟨none, name.toList⟩ := by
      funext a
      rw [Function.comp_apply]
      split <;> rfl
    obtain ⟨a, hfound⟩ := Option.isSome_iff_exists.mp (List.find?_isSome.mpr
      (List.any_eq_true.mp hany))
    have ha : a.name = ⟨none, name.toList⟩ := by simpa using List.find?_some hfound
    rw [valueOf?, List.find?_map, hsame, hfound, Option.map_some, Option.map_some, if_pos ha]
  case isFalse hnone =>
    have hnone : attributes.find? (fun a => a.name == ⟨none, name.toList⟩) = none := by
      simpa using hnone
    rw [valueOf?, List.find?_append, hnone]
    simp

theorem setValue_replaced {before after : List Attribute} {a : Attribute}
    (ha : a.name = ⟨none, name.toList⟩)
    (hnodup : ((before ++ a :: after).map (·.name)).Nodup) :
    setValue name value (before ++ a :: after) = before ++ { a with value } :: after := by
  have hother : ∀ x, x ∈ before ∨ x ∈ after → x.name ≠ ⟨none, name.toList⟩ := by
    intro x hx heq
    rw [List.map_append, List.map_cons, List.nodup_middle, List.nodup_cons, ha, ← heq] at hnodup
    refine hnodup.1 (List.mem_append.mpr ?_)
    exact hx.imp List.mem_map_of_mem List.mem_map_of_mem
  have hkept {l : List Attribute} (hl : ∀ x ∈ l, x ∈ before ∨ x ∈ after) :
      (l.map fun x => if x.name = ⟨none, name.toList⟩ then { x with value } else x) = l := by
    refine (List.map_congr_left fun x hx => ?_).trans (List.map_id l)
    exact if_neg (hother x (hl x hx))
  rw [setValue, if_pos (by simp [ha]), List.map_append, List.map_cons, if_pos ha,
    hkept fun x hx => .inl hx, hkept fun x hx => .inr hx]

theorem setValue_added (h : ∀ a ∈ attributes, a.name ≠ ⟨none, name.toList⟩) :
    setValue name value attributes = attributes ++ [⟨⟨none, name.toList⟩, value⟩] := by
  rw [setValue, if_neg (by simpa using h)]

/-- Setting an attribute brings in no other name. -/
theorem exists_of_mem_setValue {a : Attribute} (h : a ∈ setValue name value attributes)
    (ha : a.name ≠ ⟨none, name.toList⟩) : a ∈ attributes := by
  rw [setValue] at h
  split at h
  case isTrue =>
    obtain ⟨x, hx, heq⟩ := List.mem_map.mp h
    split at heq
    case isTrue hname => exact absurd (heq ▸ hname) ha
    case isFalse => exact heq ▸ hx
  case isFalse =>
    obtain h | h := List.mem_append.mp h
    · exact h
    · exact absurd (by rw [List.mem_singleton.mp h]) ha

end

/-! ## Resolving -/

/-- An attribute as it is read and as it is resolved. -/
def Scope.Resolves (s : Scope) (written : QName × List Char) (a : Attribute) : Prop :=
  s.resolveAttribute written.1 = some a.name ∧ written.2 = a.value

section

variable {s : Scope} {written : List (QName × List Char)} {attributes : List Attribute}

theorem resolveAttributes_eq_some {done : List Attribute} :
    s.resolveAttributes written done = some attributes ↔
      ∃ new, attributes = done.reverse ++ new ∧ List.Forall₂ s.Resolves written new ∧
        (new.map (·.name)).Nodup ∧ ∀ a ∈ new, ∀ b ∈ done, b.name ≠ a.name := by
  induction written generalizing done with
  | nil =>
    simp only [Scope.resolveAttributes, List.forall₂_nil_left_iff]
    constructor
    · intro h
      cases h
      exact ⟨[], by simp, rfl, by simp, by simp⟩
    · rintro ⟨_, rfl, rfl, -⟩
      simp
  | cons x rest ih =>
    obtain ⟨n, v⟩ := x
    simp only [Scope.resolveAttributes, List.forall₂_cons_left_iff]
    cases hn : s.resolveAttribute n with
    | none =>
      refine ⟨by rintro ⟨⟩, ?_⟩
      rintro ⟨_, -, ⟨a, new, ⟨ha, -⟩, -, -⟩, -⟩
      cases hn.symm.trans ha
    | some m =>
      dsimp only
      rw [Option.ite_none_left_eq_some, ih]
      constructor
      · rintro ⟨hany, new, rfl, hnew, hnodup, hfree⟩
        refine ⟨⟨m, v⟩ :: new, by simp, ⟨_, new, ⟨hn, rfl⟩, hnew, rfl⟩, ?_, ?_⟩
        · refine List.nodup_cons.mpr ⟨fun hm => ?_, hnodup⟩
          obtain ⟨a, ha, heq⟩ := List.mem_map.mp hm
          exact hfree a ha _ List.mem_cons_self heq.symm
        · intro a ha b hb
          cases ha with
          | head => simpa using fun heq => hany (by simpa using ⟨b, hb, heq⟩)
          | tail _ ha => exact hfree a ha b (List.mem_cons_of_mem _ hb)
      · rintro ⟨_, rfl, ⟨⟨m', v'⟩, new, ⟨ha, hv⟩, hnew, rfl⟩, hnodup, hfree⟩
        obtain rfl : m = m' := Option.some.inj (hn.symm.trans ha)
        obtain rfl : v = v' := hv
        obtain ⟨hm, hnodup⟩ := List.nodup_cons.mp hnodup
        refine ⟨?_, new, by simp, hnew, hnodup, ?_⟩
        · simpa using fun b hb => hfree _ List.mem_cons_self b hb
        · intro a ha b hb
          cases hb with
          | head => exact fun heq => hm (List.mem_map.mpr ⟨a, ha, heq.symm⟩)
          | tail _ hb => exact hfree a (List.mem_cons_of_mem _ ha) b hb

theorem resolveAttribute_eq_some_unbound {name : QName} {part : List Char} :
    s.resolveAttribute name = some ⟨none, part⟩ ↔ name = ⟨[], part⟩ := by
  obtain ⟨space, local'⟩ := name
  unfold Scope.resolveAttribute
  constructor
  · intro h
    split at h
    case isTrue => cases h
    case isFalse =>
      split at h
      case isTrue hspace =>
        cases h
        obtain rfl : space = [] := List.isEmpty_iff.mp hspace
        rfl
      case isFalse hspace =>
        rw [Scope.resolve] at h
        split at h
        case h_1 => cases h
        case h_2 => simp [hspace] at h
  · intro h
    cases h
    rfl

theorem resolveAttributes_nil_eq_some : s.resolveAttributes written [] = some attributes ↔
    List.Forall₂ s.Resolves written attributes ∧ (attributes.map (·.name)).Nodup := by
  simp [resolveAttributes_eq_some]

theorem exists_resolves (h : List.Forall₂ s.Resolves written attributes) {a : Attribute}
    (ha : a ∈ attributes) : ∃ x ∈ written, s.Resolves x a := by
  induction h with
  | nil => cases ha
  | @cons x a' written attributes hx _ ih =>
    cases ha with
    | head => exact ⟨x, List.mem_cons_self, hx⟩
    | tail _ ha =>
      obtain ⟨x', hx', hresolves⟩ := ih ha
      exact ⟨x', List.mem_cons_of_mem x hx', hresolves⟩

theorem resolveAttributes_replaced {name : String} {value value' : List Char}
    {before after : List (QName × List Char)}
    (h : s.resolveAttributes (before ++ (⟨[], name.toList⟩, value) :: after) [] = some attributes) :
    s.resolveAttributes (before ++ (⟨[], name.toList⟩, value') :: after) [] =
      some (setValue name value' attributes) := by
  obtain ⟨hall, hnodup⟩ := resolveAttributes_nil_eq_some.mp h
  have hfront := List.forall₂_take before.length hall
  have htail := List.forall₂_drop before.length hall
  rw [List.take_left] at hfront
  rw [List.drop_left] at htail
  obtain ⟨a, rest, ⟨hname, -⟩, hrest, hdrop⟩ := List.forall₂_cons_left_iff.mp htail
  have ha : a.name = ⟨none, name.toList⟩ :=
    Option.some.inj (hname.symm.trans (resolveAttribute_eq_some_unbound.mpr rfl))
  rw [← List.take_append_drop before.length attributes, hdrop] at hnodup ⊢
  rw [setValue_replaced ha hnodup]
  refine resolveAttributes_nil_eq_some.mpr ⟨?_, by simpa using hnodup⟩
  exact List.rel_append hfront (.cons ⟨hname, rfl⟩ hrest)

theorem resolveAttributes_added {name : String} {value : List Char}
    (h : s.resolveAttributes written [] = some attributes)
    (hfree : ∀ a ∈ attributes, a.name ≠ ⟨none, name.toList⟩) :
    s.resolveAttributes (written ++ [(⟨[], name.toList⟩, value)]) [] =
      some (setValue name value attributes) := by
  obtain ⟨hall, hnodup⟩ := resolveAttributes_nil_eq_some.mp h
  rw [setValue_added hfree]
  refine resolveAttributes_nil_eq_some.mpr ⟨List.rel_append hall (.cons ⟨rfl, rfl⟩ .nil), ?_⟩
  rw [List.map_append, List.nodup_append]
  refine ⟨hnodup, by simp, ?_⟩
  intro n hn m hm
  obtain ⟨a, ha, rfl⟩ := List.mem_map.mp hn
  cases List.mem_singleton.mp hm
  exact hfree a ha

end

/-! ## Values without references -/

/-- The value of an attribute that holds no reference. -/
def plainValue : List Char → List Char
  | [] => []
  | c :: cs => valueChar c cs ++ plainValue cs

theorem readValueWith_plain (b : Builder) (left : Nat)
    (nested : List Char → Nat → Except Fault (List Char × Nat)) (references : Nat) {p : Place}
    (h : '&' ∉ p.rest) {bound : Nat} (hbound : p.rest.length ≤ bound) :
    readValueWith b left nested bound references p = .ok (plainValue p.rest, references) := by
  induction bound generalizing p with
  | zero =>
    rw [List.eq_nil_of_length_eq_zero (Nat.le_zero.mp hbound)]
    rfl
  | succ bound ih =>
    obtain ⟨i, text⟩ := p
    simp only [readValueWith]
    split
    case h_1 => rfl
    case h_2 => exact absurd List.mem_cons_self h
    case h_3 c cs hc =>
      rw [List.mem_cons, not_or] at h
      have hmore := ih (p := Place.advance ⟨i, c :: cs⟩ 1) h.2 (Nat.le_of_succ_le_succ hbound)
      exact bind_eq_ok.mpr ⟨_, hmore, rfl⟩

theorem readValue_plain (b : Builder) (left references : Nat) {value : List Char}
    (h : '&' ∉ value) : readValue b left value references = .ok (plainValue value, references) := by
  cases left <;> exact readValueWith_plain _ _ _ _ (p := ⟨0, value⟩) h (Nat.le_refl _)

/-! ## Tags -/

/-- The attributes of a tag with what an entity left before them, as the element has them. What
they leave of the builder besides is `frame`. -/
def Holds (left : Nat) (b frame : Builder) (attributes : List TagAttribute)
    (resolved : List Attribute) : Prop :=
  ∃ written, attributes.foldlM (TagAttribute.take left) b =
      .ok { frame with attributes := written } ∧
    frame.innerScope.resolveAttributes written [] = some resolved

/-- An element that has an attribute only when it is written in its tag. -/
def Owns (name : String) (attributes : List TagAttribute) (resolved : List Attribute) : Prop :=
  (∃ a ∈ resolved, a.name = ⟨none, name.toList⟩) → ∃ a ∈ attributes, a.name = ⟨[], name.toList⟩

section

variable {left : Nat} {b c : Builder}

theorem Builder.addAttribute_of_ne {name : QName} (b : Builder)
    (hspace : name.space ≠ "xmlns".toList) (hname : name.name ≠ "xmlns".toList)
    (value : List Char) : b.addAttribute name value =
      .ok { b with attributes := b.attributes ++ [(name, value)] } := by
  rw [addAttribute, if_neg hspace, if_neg hname]

/-- An attribute is taken in behind whatever was taken in before it. -/
theorem Builder.addAttribute_behind {name : QName} {value : List Char}
    (h : b.addAttribute name value = .ok c) :
    ∃ added, (∀ x ∈ added, x.1 = name) ∧ ∀ written,
      { b with attributes := written }.addAttribute name value =
        .ok { c with attributes := written ++ added } := by
  have hmap (added written : List (QName × List Char))
      (heq : { b with attributes := written }.addAttribute name value =
        (b.addAttribute name value).map fun c => { c with attributes := written ++ added }) :
      { b with attributes := written }.addAttribute name value =
        .ok { c with attributes := written ++ added } := by
    rw [heq, h]
    rfl
  by_cases hspace : name.space = "xmlns".toList
  · refine ⟨[], by simp, fun written => hmap [] written ?_⟩
    simp only [addAttribute, hspace, if_true, apply_ite (Except.map _), List.append_nil]
    rfl
  · by_cases hname : name.name = "xmlns".toList
    · refine ⟨[], by simp, fun written => hmap [] written ?_⟩
      simp only [addAttribute, hspace, hname, if_true, if_false, apply_ite (Except.map _),
        List.append_nil]
      rfl
    · refine ⟨[(name, value)], by simp, fun written => ?_⟩
      rw [b.addAttribute_of_ne hspace hname] at h
      cases h
      exact Builder.addAttribute_of_ne _ hspace hname value

theorem TagAttribute.take_behind {a : TagAttribute} (h : a.take left b = .ok c) :
    ∃ added, (∀ x ∈ added, x.1 = a.name) ∧ ∀ written,
      a.take left { b with attributes := written } =
        .ok { c with attributes := written ++ added } := by
  obtain ⟨⟨value, references⟩, hvalue, hadd⟩ := bind_eq_ok.mp h
  obtain ⟨added, hnames, hadded⟩ := Builder.addAttribute_behind hadd
  refine ⟨added, hnames, fun written => bind_eq_ok.mpr ⟨(value, references), ?_, hadded written⟩⟩
  have hsame : readValue { b with attributes := written } = readValue b := readValue_congr rfl
  rw [hsame]
  exact hvalue

theorem foldlM_take_behind {attributes : List TagAttribute}
    (h : attributes.foldlM (TagAttribute.take left) b = .ok c) :
    ∃ added, (∀ x ∈ added, ∃ a ∈ attributes, x.1 = a.name) ∧ ∀ written,
      attributes.foldlM (TagAttribute.take left) { b with attributes := written } =
        .ok { c with attributes := written ++ added } := by
  induction attributes generalizing b with
  | nil =>
    cases h
    exact ⟨[], by simp, fun written => by rw [List.append_nil]; rfl⟩
  | cons a attributes ih =>
    rw [List.foldlM_cons] at h
    obtain ⟨b', ha, h⟩ := bind_eq_ok.mp h
    obtain ⟨added, hname, hadded⟩ := a.take_behind ha
    obtain ⟨added', hnames, hadded'⟩ := ih h
    refine ⟨added ++ added', fun x hx => ?_, fun written => ?_⟩
    · obtain hx | hx := List.mem_append.mp hx
      · exact ⟨a, List.mem_cons_self, hname x hx⟩
      · obtain ⟨a', ha', hx⟩ := hnames x hx
        exact ⟨a', List.mem_cons_of_mem a ha', hx⟩
    · rw [List.foldlM_cons, ← List.append_assoc]
      exact bind_eq_ok.mpr ⟨_, hadded written, hadded' (written ++ added)⟩

/-- An element has every attribute from its tag when nothing came before the tag. -/
theorem Holds.owns {frame : Builder} {attributes : List TagAttribute} {resolved : List Attribute}
    (h : Holds left b frame attributes resolved) (hb : b.attributes = []) (name : String) :
    Owns name attributes resolved := by
  obtain ⟨written, hfold, hresolved⟩ := h
  obtain ⟨added, hnames, hadded⟩ := foldlM_take_behind hfold
  have hwritten : written = b.attributes ++ added :=
    congrArg Builder.attributes (Except.ok.inj (hfold.symm.trans (hadded b.attributes)))
  rw [hwritten, hb, List.nil_append, resolveAttributes_nil_eq_some] at hresolved
  rintro ⟨a, ha, hname⟩
  obtain ⟨x, hx, hresolves⟩ := exists_resolves hresolved.1 ha
  obtain ⟨a', ha', hx⟩ := hnames x hx
  have hspelled := hresolves.1
  rw [hname, resolveAttribute_eq_some_unbound, hx] at hspelled
  exact ⟨a', ha', hspelled⟩

theorem Holds.unique {frame : Builder} {attributes : List TagAttribute}
    {resolved resolved' : List Attribute} (h : Holds left b frame attributes resolved)
    (h' : Holds left b frame attributes resolved') : resolved = resolved' := by
  obtain ⟨written, hfold, hresolved⟩ := h
  obtain ⟨written', hfold', hresolved'⟩ := h'
  obtain rfl : written = written' :=
    congrArg Builder.attributes (Except.ok.inj (hfold.symm.trans hfold'))
  exact Option.some.inj (hresolved.symm.trans hresolved')

theorem TagAttribute.take_word {name : String} (hname : IsWord name) {a : TagAttribute}
    (ha : a.name = ⟨[], name.toList⟩) (h : a.take left b = .ok c) (hleft : left = maxEntityDepth)
    (hb : b.references = 0) :
    ∃ value, c = { b with attributes := b.attributes ++ [(⟨[], name.toList⟩, value)] } := by
  obtain ⟨⟨value, references⟩, hvalue, hadd⟩ := bind_eq_ok.mp h
  rw [hb] at hvalue
  obtain rfl := readValue_references hleft hvalue
  rw [ha] at hadd
  dsimp only at hadd
  rw [Builder.addAttribute_of_ne _ (by simp) hname.2.2] at hadd
  cases hadd
  exact ⟨value, by rw [hb]⟩

theorem TagAttribute.take_literal {name : String} (hname : IsWord name) {a : TagAttribute}
    (ha : a.spelled = name.toList) (hvalue : '&' ∉ a.value) : a.take left b =
      .ok { b with attributes := b.attributes ++ [(⟨[], name.toList⟩, plainValue a.value)] } := by
  refine bind_eq_ok.mpr ⟨_, readValue_plain b left b.references hvalue, ?_⟩
  rw [hname.name_eq ha]
  exact Builder.addAttribute_of_ne _ (by simp) hname.2.2 _

/-- Setting an attribute in a tag sets it in the element. -/
theorem Assigned.holds {name : String} {value : List Char} {u u' : List TagAttribute}
    (h : Assigned name value u u') (hname : IsWord name) (hvalue : '&' ∉ value)
    {frame : Builder} {resolved : List Attribute} (hholds : Holds maxEntityDepth b frame u resolved)
    (hb : b.references = 0) (howns : Owns name u resolved) :
    Holds maxEntityDepth b frame u' (setValue name (plainValue value) resolved) := by
  obtain ⟨written, hfold, hresolved⟩ := hholds
  cases h with
  | @replaced u w a a' ha ha' hvalue' =>
    subst hvalue'
    rw [List.foldlM_append] at hfold
    obtain ⟨b₁, hu, hfold⟩ := bind_eq_ok.mp hfold
    rw [List.foldlM_cons] at hfold
    obtain ⟨b₂, htake, hw⟩ := bind_eq_ok.mp hfold
    obtain ⟨old, rfl⟩ := a.take_word hname ha htake rfl (foldlM_take_references hu rfl hb)
    obtain ⟨added, -, hadded⟩ := foldlM_take_behind hw
    have hwritten : written = b₁.attributes ++ (⟨[], name.toList⟩, old) :: added := by
      have heq := congrArg Builder.attributes (Except.ok.inj (hw.symm.trans (hadded _)))
      rwa [List.append_assoc] at heq
    refine ⟨b₁.attributes ++ (⟨[], name.toList⟩, plainValue a'.value) :: added, ?_, ?_⟩
    · rw [List.foldlM_append]
      refine bind_eq_ok.mpr ⟨b₁, hu, ?_⟩
      rw [List.foldlM_cons]
      refine bind_eq_ok.mpr ⟨_, a'.take_literal hname ha' hvalue, ?_⟩
      have hmore := hadded (b₁.attributes ++ [(⟨[], name.toList⟩, plainValue a'.value)])
      rwa [List.append_assoc] at hmore
    · rw [hwritten] at hresolved
      exact resolveAttributes_replaced hresolved
  | @added u a' hu ha' hvalue' =>
    subst hvalue'
    refine ⟨written ++ [(⟨[], name.toList⟩, plainValue a'.value)], ?_, ?_⟩
    · rw [List.foldlM_append]
      refine bind_eq_ok.mpr ⟨_, hfold, ?_⟩
      rw [List.foldlM_cons]
      exact bind_eq_ok.mpr ⟨_, a'.take_literal hname ha' hvalue, rfl⟩
    · refine resolveAttributes_added hresolved fun a ha heq => ?_
      obtain ⟨x, hx, hxname⟩ := howns ⟨a, ha, heq⟩
      exact hu x hx hxname

/-- An element has an attribute with the value that its tag gives it. -/
theorem Holds.valueOf?_eq {name : String} (hname : IsWord name) {frame : Builder}
    {u w : List TagAttribute} {a : TagAttribute} {resolved : List Attribute}
    (h : Holds maxEntityDepth b frame (u ++ a :: w) resolved) (hb : b.references = 0)
    (ha : a.spelled = name.toList) (hvalue : '&' ∉ a.value) :
    valueOf? name resolved = some (plainValue a.value) := by
  -- setting the attribute to the value that it has changes nothing
  have hsame : Assigned name a.value (u ++ a :: w) (u ++ a :: w) :=
    .replaced (hname.name_eq ha) ha rfl
  have howns : Owns name (u ++ a :: w) resolved := fun _ => ⟨a, by simp, hname.name_eq ha⟩
  rw [h.unique (hsame.holds hname hvalue h hb howns)]
  exact valueOf?_setValue ..

/-- Another attribute that is owned stays so. -/
theorem Assigned.owns {name other : String} {value value' : List Char} {u u' : List TagAttribute}
    {resolved : List Attribute} (h : Assigned name value u u')
    (hother : other.toList ≠ name.toList) (howns : Owns other u resolved) :
    Owns other u' (setValue name value' resolved) := by
  rintro ⟨a, ha, hname⟩
  have ha' := exists_of_mem_setValue ha (by simpa [hname] using hother)
  obtain ⟨x, hx, hxname⟩ := howns ⟨a, ha', hname⟩
  refine ⟨x, ?_, hxname⟩
  cases h with
  | added => exact List.mem_append_left _ hx
  | @replaced u w a a' ha =>
    have hne : x ≠ a := by
      rintro rfl
      exact hother (by simpa using hxname.symm.trans ha)
    simp only [List.mem_append, List.mem_cons] at hx ⊢
    exact hx.imp_right fun hx => .inr (hx.resolve_left hne)

/-- A tag stays plain when an attribute is set to a value that looks like no other. -/
theorem Assigned.plain {name other : String} {value : List Char} {u u' : List TagAttribute}
    (h : Assigned name value u u') (hname : IsWord name) (hmark : '>' ∉ value)
    (hquiet : suggests other value = false) (hplain : ∀ x ∈ u, x.Plain other) :
    ∀ x ∈ u', x.Plain other := by
  have hnew {a' : TagAttribute} (ha' : a'.spelled = name.toList) (hvalue : a'.value = value) :
      a'.Plain other := by
    refine ⟨fun c hc => ?_, fun hcolon => ?_, hvalue ▸ hmark, hvalue ▸ hquiet⟩
    · exact isBlank_of_isAlpha (hname.2.1 c (ha' ▸ hc))
    · have hmem : ':' ∈ name.toList := by rw [← ha', hcolon]; exact List.mem_cons_self
      exact absurd (hname.2.1 ':' hmem) (by decide)
  cases h with
  | added hu ha' hvalue =>
    intro x hx
    obtain hx | hx := List.mem_append.mp hx
    · exact hplain x hx
    · exact List.mem_singleton.mp hx ▸ hnew ha' hvalue
  | replaced ha ha' hvalue =>
    intro x hx
    simp only [List.mem_append, List.mem_cons] at hx hplain
    obtain hx | rfl | hx := hx
    · exact hplain x (.inl hx)
    · exact hnew ha' hvalue
    · exact hplain x (.inr (.inr hx))

/-- What a tag does, in terms of the attributes of its element: a tag with other attributes gives
the element redrawn with what they hold. -/
theorem StartTag.exists_holds {t : StartTag} {start : Nat} (h : t.take left start b = .ok c)
    (hend : t.tagEnd ≠ .missing) :
    ∃ frame resolved,
      Holds left { b with tag := some ⟨start, t.name⟩ } frame t.attributes resolved ∧
      ∀ {φ : Redrawing} {t' : StartTag}, t'.name = t.name → t'.tagEnd = t.tagEnd →
        Holds left { b with tag := some ⟨start, t.name⟩ } frame t'.attributes
          (φ.attributes start resolved) →
        t'.take left (φ.place start) (b.redraw φ) = .ok (c.redraw φ) := by
  obtain ⟨b₁, hbegin, h⟩ := bind_eq_ok.mp h
  obtain ⟨b₂, hfold, hfinish⟩ := bind_eq_ok.mp h
  obtain ⟨hspace, rfl⟩ := Builder.beginTag_eq_ok.mp hbegin
  obtain ⟨closed, hclosed⟩ := TagEnd.exists_finish hend
  rw [hclosed] at hfinish
  obtain ⟨tag, resolved, name, htag, hresolved, -, -⟩ := Builder.endTag_eq_ok.mp hfinish
  refine ⟨b₂, resolved, ⟨b₂.attributes, hfold, hresolved⟩, ?_⟩
  rintro φ t' hname htagEnd ⟨written, hfold', hresolved'⟩
  have hstart : tag.start = start := by
    obtain ⟨_, _, _, rfl⟩ := exists_of_foldlM_take hfold
    cases htag
    rfl
  have hframe : { b₂ with attributes := written }.redraw φ =
      { b₂.redraw φ with attributes := written } := rfl
  rw [StartTag.take, hname, htagEnd]
  refine bind_eq_ok.mpr ⟨_, Builder.beginTag_redraw hbegin, ?_⟩
  refine bind_eq_ok.mpr ⟨_, foldlM_take_redraw hfold', ?_⟩
  rw [hclosed, hframe]
  refine Builder.endTag_rewritten hfinish fun tag' htag' attributes hattributes => ?_
  cases htag.symm.trans htag'
  cases hresolved.symm.trans hattributes
  rw [hstart]
  exact hresolved'

end

end DiagramView.Markup
