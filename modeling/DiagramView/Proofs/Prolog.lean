import DiagramView.Proofs.Steady

/-!
# What stands before the root

The prolog of a document is read by its own characters. Another text may stand in place of the
root's and all that follows it, as long as it begins with a tag in the same way
(`readProlog_swap`).

The prolog adds no elements, and the entities that it declares stand inside it (`Prefaced`).
-/

namespace DiagramView.Markup

variable {α β : Type}

/-! ## What the prolog does -/

/-- A builder that has read on through the prolog, or behind the root. -/
structure Prefaced (p : Place) (b : Builder) (q : Place) (c : Builder) : Prop where
  past : ∃ read, Past p read q
  starts : c.starts = b.starts
  attributes : c.attributes = b.attributes
  references : c.references = b.references
  entities : b.EntitiesEndBy p.index → c.EntitiesEndBy q.index

namespace Prefaced

variable {p q r : Place} {b c d : Builder}

theorem suffix (h : Prefaced p b q c) {rest : List Char} (hrest : rest <:+ q.rest) :
    rest <:+ p.rest := by
  obtain ⟨read, hpast⟩ := h.past
  exact hpast.suffix hrest

theorem trans (h : Prefaced p b q c) (h' : Prefaced q c r d) : Prefaced p b r d where
  past := by
    obtain ⟨read, hpast⟩ := h.past
    obtain ⟨more, hpast'⟩ := h'.past
    exact ⟨_, hpast.trans hpast'⟩
  starts := h'.starts.trans h.starts
  attributes := h'.attributes.trans h.attributes
  references := h'.references.trans h.references
  entities := h'.entities ∘ h.entities

theorem of_past {read : List Char} (h : Past p read q) (b : Builder) : Prefaced p b q b where
  past := ⟨read, h⟩
  starts := rfl
  attributes := rfl
  references := rfl
  entities hb e he := Nat.le_trans (hb e he) (h.index ▸ Nat.le_add_right ..)

theorem append {read : List Char} (h : Past p read q) (b : Builder) {node : Node}
    (hnode : node.starts = []) : Prefaced p b q (b.append node) where
  past := ⟨read, h⟩
  starts := by rw [Builder.starts_append, hnode, List.append_nil]
  attributes := by simp
  references := by simp
  entities := by
    unfold Builder.EntitiesEndBy
    rw [Builder.append_entities]
    exact (of_past h b).entities

theorem comment (hsees : p.sees "<!--") (h : readComment p b = .ok (q, c)) : Prefaced p b q c := by
  obtain ⟨content, hx, -, rfl⟩ := readComment_eq_ok.mp ⟨hsees, h⟩
  obtain ⟨read, hpast, -⟩ := (local_readThrough (by decide)).behind _ hx
  exact .append hpast b rfl

theorem instruction (hsees : p.sees "<?") (h : readInstruction p b = .ok (q, c)) :
    Prefaced p b q c := by
  obtain ⟨target, content, hx, -, rfl⟩ := readInstruction_eq_ok.mp ⟨hsees, h⟩
  obtain ⟨read, hpast, -⟩ := local_readInstructionTail.behind _ hx
  exact .append hpast b rfl

end Prefaced

section

variable {p q : Place} {b c : Builder}

theorem index_lt_of_readComment (hsees : p.sees "<!--") (h : readComment p b = .ok (q, c)) :
    p.index < q.index := by
  have htoken : Token 0 (fun _ b => .ok b) p.rest.length p b .along q c := .comment hsees h
  exact (htoken.past (Nat.le_refl _)).1

theorem index_lt_of_readInstruction (hsees : p.sees "<?") (h : readInstruction p b = .ok (q, c)) :
    p.index < q.index := by
  have htoken : Token 0 (fun _ b => .ok b) p.rest.length p b .along q c := .instruction hsees h
  exact (htoken.past (Nat.le_refl _)).1

theorem skipSpaces_moved (p : Place) (i : Nat) {rest' : List Char}
    (h : SameFront rest' p.skipSpaces.rest) :
    Place.skipSpaces ⟨i, p.rest.takeWhile isSpace ++ rest'⟩ =
      ⟨i + (p.rest.takeWhile isSpace).length, rest'⟩ := by
  refine skipWhile_append i (fun c hc => List.all_eq_true.mp List.all_takeWhile c hc) ?_
  intro c hc
  rw [h.head?_eq] at hc
  exact stopsClass_skipWhile p isSpace c hc

/-- What `readMisc` reads, read again anywhere else into a redrawn builder. -/
def MiscRedraws (φ : Redrawing) (p : Place) (b : Builder) (q : Place) (c : Builder) : Prop :=
  ∃ read, Past p read q ∧ ∀ i {rest' bound'}, SameFront rest' q.rest →
    (read ++ rest').length < bound' → readMisc bound' ⟨i, read ++ rest'⟩ (b.redraw φ) =
      .ok (⟨i + read.length, rest'⟩, c.redraw φ)

/-- One comment or instruction behind blanks, and what follows it. -/
theorem MiscRedraws.behind {φ : Redrawing} {r : Place} {b' : Builder} {read : List Char}
    (h : MiscRedraws φ r b' q c) (hread : Past p.skipSpaces read r)
    (hlt : p.skipSpaces.index < r.index)
    (hcarry : ∀ i {rest' bound'}, SameFront rest' r.rest →
      readMisc (bound' + 1) ⟨i, p.rest.takeWhile isSpace ++ (read ++ rest')⟩ (b.redraw φ) =
        readMisc bound' ⟨i + (p.rest.takeWhile isSpace).length + read.length, rest'⟩
          (b'.redraw φ)) : MiscRedraws φ p b q c := by
  have hindex := hread.index
  obtain ⟨more, hpast, hcarry'⟩ := h
  refine ⟨_, ((past_skipWhile p isSpace).trans hread).trans hpast,
    fun i rest' bound' hrest hbound' => ?_⟩
  obtain ⟨bound', rfl⟩ := Nat.exists_eq_add_one_of_ne_zero (Nat.ne_zero_of_lt hbound')
  have hfront : SameFront (more ++ rest') r.rest := by
    rw [hpast.rest]
    exact hrest.append more
  have hshort : (more ++ rest').length < bound' := by
    simp only [List.length_append] at hbound' ⊢
    omega
  rw [List.append_assoc, List.append_assoc, hcarry i hfront, hcarry' _ hrest hshort]
  simp only [List.length_append, Nat.add_assoc]

theorem readMisc_redraw (φ : Redrawing) {bound : Nat} (h : readMisc bound p b = .ok (q, c))
    (hbound : p.rest.length < bound) : Prefaced p b q c ∧ MiscRedraws φ p b q c := by
  induction bound generalizing p b with
  | zero => cases hbound
  | succ bound ih =>
    have hblanks := past_skipWhile p isSpace
    have hstep {r : Place} {b' : Builder} {read : List Char} (hread : Past p.skipSpaces read r)
        (hlt : p.skipSpaces.index < r.index) (hmore : readMisc bound r b' = .ok (q, c)) :
        Prefaced r b' q c ∧ MiscRedraws φ r b' q c := by
      have hindex := hread.index
      have hlen := congrArg List.length (hblanks.trans hread).rest
      simp only [List.length_append] at hlen
      exact ih hmore (by omega)
    simp only [readMisc] at h
    split at h
    case isTrue hsees =>
      obtain ⟨⟨r, b'⟩, hcomment, hmore⟩ := bind_eq_ok.mp h
      obtain ⟨read, hread, hcarry⟩ := readComment_redraw φ hsees hcomment
      have hlt := index_lt_of_readComment hsees hcomment
      obtain ⟨hprefaced, hredraws⟩ := hstep hread hlt hmore
      refine ⟨((Prefaced.of_past hblanks b).trans (.comment hsees hcomment)).trans hprefaced,
        hredraws.behind hread hlt fun i rest' bound' hrest => ?_⟩
      obtain ⟨hsees', hcomment'⟩ := hcarry (i + (p.rest.takeWhile isSpace).length) hrest
      have hfront : SameFront (read ++ rest') p.skipSpaces.rest := by
        rw [hread.rest]
        exact hrest.append read
      simp only [readMisc, skipSpaces_moved p i hfront, hsees', if_true, hcomment']
      rfl
    case isFalse hcomment =>
      split at h
      case isTrue hsees =>
        obtain ⟨⟨r, b'⟩, hinstruction, hmore⟩ := bind_eq_ok.mp h
        obtain ⟨read, hread, hcarry⟩ := readInstruction_redraw φ hsees hinstruction
        have hlt := index_lt_of_readInstruction hsees hinstruction
        obtain ⟨hprefaced, hredraws⟩ := hstep hread hlt hmore
        refine ⟨((Prefaced.of_past hblanks b).trans (.instruction hsees hinstruction)).trans
          hprefaced, hredraws.behind hread hlt fun i rest' bound' hrest => ?_⟩
        obtain ⟨hsees', hinstruction'⟩ := hcarry (i + (p.rest.takeWhile isSpace).length) hrest
        have hfront : SameFront (read ++ rest') p.skipSpaces.rest := by
          rw [hread.rest]
          exact hrest.append read
        have hcomment' : Place.sees ⟨i + (p.rest.takeWhile isSpace).length, read ++ rest'⟩ "<!--" =
            false := by
          rw [Place.sees, hfront.isPrefixOf_eq (by decide)]
          exact Bool.eq_false_iff.mpr hcomment
        simp only [readMisc, skipSpaces_moved p i hfront, hcomment', hsees', if_true,
          Bool.false_eq_true, if_false, hinstruction']
        rfl
      case isFalse hinstruction =>
        cases h
        refine ⟨.of_past hblanks _, _, hblanks, fun i rest' bound' hrest hbound' => ?_⟩
        obtain ⟨bound', rfl⟩ := Nat.exists_eq_add_one_of_ne_zero (Nat.ne_zero_of_lt hbound')
        have hunseen {word : String} (hword : word.toList.length ≤ 4)
            (h : ¬p.skipSpaces.sees word) (i : Nat) : Place.sees ⟨i, rest'⟩ word = false := by
          rw [Place.sees, hrest.isPrefixOf_eq hword]
          exact Bool.eq_false_iff.mpr h
        simp only [readMisc, skipSpaces_moved p i hrest, hunseen (by decide) hcomment,
          hunseen (by decide) hinstruction, Bool.false_eq_true, if_false]
        rfl

end

section

variable {rest rest' : List Char} {φ : Redrawing} {p q : Place} {b c : Builder}

theorem Past.start_eq {read : List Char} (h : Past p read q) : p = ⟨p.index, read ++ q.rest⟩ := by
  rw [← h.rest]

theorem Past.stop_eq {read : List Char} (h : Past p read q) :
    q = ⟨p.index + read.length, q.rest⟩ := by
  rw [← h.index]

theorem readComment_swap (htag : SameTag rest rest') (hsees : p.sees "<!--")
    (h : readComment p b = .ok (q, c)) (hrest : rest <:+ q.rest) :
    readComment (p.swap rest rest') (b.redraw φ) = .ok (q.swap rest rest', c.redraw φ) := by
  obtain ⟨read, hpast, hcarry⟩ := readComment_redraw φ hsees h
  have hswap := hpast.swap rest' hrest
  rw [hswap.start_eq, hswap.stop_eq]
  exact (hcarry p.index (htag.sameFront_swap hrest)).2

theorem readInstruction_swap (htag : SameTag rest rest') (hsees : p.sees "<?")
    (h : readInstruction p b = .ok (q, c)) (hrest : rest <:+ q.rest) :
    readInstruction (p.swap rest rest') (b.redraw φ) = .ok (q.swap rest rest', c.redraw φ) := by
  obtain ⟨read, hpast, hcarry⟩ := readInstruction_redraw φ hsees h
  have hswap := hpast.swap rest' hrest
  rw [hswap.start_eq, hswap.stop_eq]
  exact (hcarry p.index (htag.sameFront_swap hrest)).2

theorem readMisc_swap (htag : SameTag rest rest') {bound : Nat}
    (h : readMisc bound p b = .ok (q, c)) (hbound : p.rest.length < bound)
    (hrest : rest <:+ q.rest) {bound' : Nat} (hbound' : (p.swap rest rest').rest.length < bound') :
    readMisc bound' (p.swap rest rest') (b.redraw φ) = .ok (q.swap rest rest', c.redraw φ) := by
  obtain ⟨-, read, hpast, hcarry⟩ := readMisc_redraw φ h hbound
  have hswap := hpast.swap rest' hrest
  rw [hswap.start_eq] at hbound' ⊢
  rw [hswap.stop_eq]
  exact hcarry p.index (htag.sameFront_swap hrest) hbound'

theorem local_skipMarkupDeclaration : Local (valueless skipMarkupDeclaration) :=
  (local_takeWhile (· != '>') fun _ => some ()).bind
    (g := fun r => valueless (expectChar '>') r.2) fun _ => local_expectChar '>'

theorem Prefaced.declared {read : List Char} (h : Past p read q) (b : Builder)
    {found : List Char × Option Place} (hfound : ∀ value ∈ found.2, value.EndsBy q.index) :
    Prefaced p b q (b.declared? found) := by
  have hsame := of_past h b
  unfold Builder.declared?
  cases hvalue : found.2 with
  | none => exact hsame
  | some value =>
    refine ⟨hsame.past, rfl, rfl, rfl, fun hb e he => ?_⟩
    obtain he | he := List.mem_append.mp he
    · exact hsame.entities hb e he
    · cases List.mem_singleton.mp he
      exact hfound value hvalue

theorem Builder.redraw_declared? (φ : Redrawing) (b : Builder) (found : List Char × Option Place) :
    (b.declared? found).redraw φ = (b.redraw φ).declared? found := by
  unfold declared?
  cases found.2 <;> rfl

/-- Reads a declaration of a document type, or its end; the flag says whether more may follow. -/
def readSubsetItem (p : Place) (b : Builder) : Except Fault (Bool × Place × Builder) :=
  if p.sees "<!ENTITY" then (need (readEntity p b)).map (true, ·)
  else if p.sees "<!--" then (readComment p b).map (true, ·)
  else if p.sees "<?" then (readInstruction p b).map (true, ·)
  else if p.sees "]" then (need (expectChar '>' (p.advance 1).skipSpaces)).map (false, ·, b)
  else if p.sees "<!ELEMENT" || p.sees "<!ATTLIST" || p.sees "<!NOTATION" then
    (need (skipMarkupDeclaration p)).map (true, ·, b)
  else .error .malformed

theorem map_eq_ok {f : α → β} {x : Except Fault α} {y : β} :
    x.map f = .ok y ↔ ∃ a, x = .ok a ∧ f a = y := by
  cases x <;> simp [Except.map]

theorem map_bind {γ : Type} (x : Except Fault α) (f : α → β) (g : β → Except Fault γ) :
    (x.map f >>= g) = x >>= fun a => g (f a) := by
  cases x <;> rfl

theorem readSubset_succ (bound : Nat) (p : Place) (b : Builder) : readSubset (bound + 1) p b =
    if p.rest.isEmpty then .ok (p, b)
    else readSubsetItem p.skipSpaces b >>= fun r =>
      if r.1 then readSubset bound r.2.1 r.2.2 else .ok r.2 := by
  simp only [readSubset, readSubsetItem]
  split
  case isTrue => rfl
  case isFalse =>
    repeat' split
    all_goals
      try rw [map_bind]
      rfl

/-- A reader of declarations that reads on, and does not notice another text behind. -/
def ItemSteady (rest rest' : List Char) (φ : Redrawing)
    (reader : Place → Builder → Except Fault (Bool × Place × Builder)) : Prop :=
  ∀ ⦃p b go q c⦄, reader p b = .ok (go, q, c) → p.index < q.index ∧ Prefaced p b q c ∧
    (rest <:+ q.rest →
      reader (p.swap rest rest') (b.redraw φ) = .ok (go, q.swap rest rest', c.redraw φ))

namespace ItemSteady

theorem ite (htag : SameTag rest rest') {word : String} (hword : isMark word.toList)
    {f g : Place → Builder → Except Fault (Bool × Place × Builder)}
    (hf : ItemSteady rest rest' φ fun p b => if p.sees word then f p b else .error .malformed)
    (hg : ItemSteady rest rest' φ g) :
    ItemSteady rest rest' φ fun p b => if p.sees word then f p b else g p b := by
  intro p b go q c h
  cases hsees : p.sees word with
  | true =>
    have hx : f p b = .ok (go, q, c) := by simpa [hsees] using h
    have hx : (if p.sees word then f p b else .error .malformed) = .ok (go, q, c) := by
      rw [hsees]
      exact hx
    obtain ⟨hlt, hprefaced, hswap⟩ := hf hx
    refine ⟨hlt, hprefaced, fun hrest => ?_⟩
    obtain ⟨read, hpast⟩ := hprefaced.past
    simpa [htag.sees_swap hword (hpast.suffix hrest), hsees] using hswap hrest
  | false =>
    obtain ⟨hlt, hprefaced, hswap⟩ := hg (by simpa [hsees] using h)
    refine ⟨hlt, hprefaced, fun hrest => ?_⟩
    obtain ⟨read, hpast⟩ := hprefaced.past
    simpa [htag.sees_swap hword (hpast.suffix hrest), hsees] using hswap hrest

theorem of_reader (htag : SameTag rest rest') {word : String} (hword : isMark word.toList)
    {f : Place → Builder → Except Fault (Place × Builder)}
    (hf : ∀ {p b q c}, p.sees word → f p b = .ok (q, c) → p.index < q.index ∧ Prefaced p b q c ∧
      (rest <:+ q.rest → f (p.swap rest rest') (b.redraw φ) =
        .ok (q.swap rest rest', c.redraw φ))) :
    ItemSteady rest rest' φ fun p b =>
      if p.sees word then (f p b).map (true, ·) else .error .malformed := by
  intro p b go q c h
  dsimp only at h ⊢
  split at h
  case isFalse => cases h
  case isTrue hsees =>
    obtain ⟨r, hr, heq⟩ := map_eq_ok.mp h
    cases heq
    obtain ⟨hlt, hprefaced, hswap⟩ := hf hsees hr
    obtain ⟨read, hpast⟩ := hprefaced.past
    refine ⟨hlt, hprefaced, fun hrest => ?_⟩
    rw [htag.sees_swap hword (hpast.suffix hrest), if_pos hsees, hswap hrest]
    rfl

/-- What leaves the builder as it is. -/
theorem of_guarded {guard : Place → Bool} {f : Place → Option Place} {go : Bool}
    (hf : Steady rest rest' (valueless fun p => if guard p then f p else none))
    (hlt : ∀ {p q}, f p = some q → p.index < q.index) :
    ItemSteady rest rest' φ fun p b =>
      if guard p then (need (f p)).map (go, ·, b) else .error .malformed := by
  intro p b go' q c h
  dsimp only at h ⊢
  split at h
  case isFalse => cases h
  case isTrue hguard =>
    obtain ⟨r, hr, heq⟩ := map_eq_ok.mp h
    cases heq
    have hr := need_eq_ok.mp hr
    obtain ⟨⟨read, hpast⟩, hswap⟩ := hf (Option.map_eq_some_iff.mpr
      ⟨q, Option.ite_none_right_eq_some.mpr ⟨hguard, hr⟩, rfl⟩)
    refine ⟨hlt hr, .of_past hpast b, fun hrest => ?_⟩
    obtain ⟨r', hr', heq⟩ := Option.map_eq_some_iff.mp (hswap hrest)
    obtain ⟨hguard', hr'⟩ := Option.ite_none_right_eq_some.mp hr'
    cases heq
    rw [if_pos hguard', need_eq_ok.mpr hr']
    rfl

end ItemSteady

theorem readEntity_swap (htag : SameTag rest rest') (hsees : p.sees "<!ENTITY")
    (h : readEntity p b = some (q, c)) : p.index < q.index ∧ Prefaced p b q c ∧
      (rest <:+ q.rest →
        readEntity (p.swap rest rest') (b.redraw φ) = some (q.swap rest rest', c.redraw φ)) := by
  rw [readEntity_eq] at h
  obtain ⟨⟨found, r⟩, hread, heq⟩ := Option.map_eq_some_iff.mp h
  cases heq
  have hentity : Steady rest rest' fun p =>
      if p.sees "<!ENTITY" then readEntityTail (p.advance 8) else none :=
    .behind htag (by decide) (by decide) (steady_readEntityTail htag)
  obtain ⟨⟨read, hpast⟩, hswap⟩ := hentity (Option.ite_none_right_eq_some.mpr ⟨hsees, hread⟩)
  refine ⟨?_, .declared hpast b ?_, fun hrest => ?_⟩
  · obtain ⟨⟨tail, htail⟩, -⟩ := steady_readEntityTail htag hread
    have hindex : r.index = p.index + 8 + tail.length := htail.index
    change p.index < r.index
    omega
  · obtain ⟨name, value⟩ := found
    rintro value ⟨⟩
    exact endsBy_of_readEntityTail hread
  · obtain ⟨-, hread'⟩ := Option.ite_none_right_eq_some.mp (hswap hrest)
    rw [readEntity_eq, hread', Builder.redraw_declared?]
    rfl

theorem valueless_ite (guard : Place → Bool) (f : Place → Option Place) :
    (valueless fun p => if guard p then f p else none) =
      fun p => if guard p then valueless f p else none := by
  funext p
  unfold valueless
  dsimp only
  cases guard p <;> rfl

theorem index_lt_of_expectChar {p q : Place} {c : Char} (h : expectChar c p = some q) :
    p.index < q.index := by
  rw [(expectChar_eq_some.mp h).index]
  exact Nat.lt_succ_self _

theorem index_le_skipWhile (p : Place) (inside : Char → Bool) :
    p.index ≤ (p.skipWhile inside).index :=
  Nat.le_add_right ..

theorem itemSteady_readSubsetItem (htag : SameTag rest rest') :
    ItemSteady rest rest' φ readSubsetItem := by
  have hclose : ItemSteady rest rest' φ fun p b =>
      if p.sees "]" then (need (expectChar '>' (p.advance 1).skipSpaces)).map (false, ·, b)
      else .error .malformed := by
    have hsteady : Steady rest rest' (valueless fun p =>
        if p.sees "]" then expectChar '>' (p.advance 1).skipSpaces else none) := by
      rw [valueless_ite]
      exact .behind htag (by decide) (by decide)
        (.skipSpaces htag (.of_local htag (local_expectChar '>')))
    refine .of_guarded hsteady fun {p q} h => ?_
    have := index_lt_of_expectChar h
    have := index_le_skipWhile (p.advance 1) isSpace
    simp only [Place.advance, Place.skipSpaces] at *
    omega
  have hother : ItemSteady rest rest' φ fun p b =>
      if p.sees "<!ELEMENT" || p.sees "<!ATTLIST" || p.sees "<!NOTATION" then
        (need (skipMarkupDeclaration p)).map (true, ·, b)
      else .error .malformed := by
    have hskip := Steady.of_local htag local_skipMarkupDeclaration
    have hsteady : Steady rest rest' (valueless fun p =>
        if p.sees "<!ELEMENT" || p.sees "<!ATTLIST" || p.sees "<!NOTATION" then
          skipMarkupDeclaration p else none) := by
      have heq : (valueless fun p =>
          if p.sees "<!ELEMENT" || p.sees "<!ATTLIST" || p.sees "<!NOTATION" then
            skipMarkupDeclaration p else none) =
          fun p => if p.sees "<!ELEMENT" then valueless skipMarkupDeclaration p
            else if p.sees "<!ATTLIST" then valueless skipMarkupDeclaration p
            else if p.sees "<!NOTATION" then valueless skipMarkupDeclaration p else none := by
        rw [valueless_ite]
        funext p
        cases p.sees "<!ELEMENT" <;> cases p.sees "<!ATTLIST" <;> cases p.sees "<!NOTATION" <;> rfl
      rw [heq]
      refine .ite htag (by decide) (.seeing htag (by decide) hskip) ?_
      exact .ite htag (by decide) (.seeing htag (by decide) hskip)
        (.seeing htag (by decide) hskip)
    refine .of_guarded hsteady fun {p q} h => ?_
    have := index_lt_of_expectChar h
    have := index_le_skipWhile p (· != '>')
    omega
  refine .ite htag (by decide) (.of_reader htag (by decide) fun hsees h => ?_) ?_
  · obtain ⟨hlt, hprefaced, hswap⟩ := readEntity_swap htag hsees (need_eq_ok.mp h)
    exact ⟨hlt, hprefaced, fun hrest => need_eq_ok.mpr (hswap hrest)⟩
  refine .ite htag (by decide) (.of_reader htag (by decide) fun hsees h => ?_) ?_
  · exact ⟨index_lt_of_readComment hsees h, .comment hsees h, readComment_swap htag hsees h⟩
  refine .ite htag (by decide) (.of_reader htag (by decide) fun hsees h => ?_) ?_
  · exact ⟨index_lt_of_readInstruction hsees h, .instruction hsees h,
      readInstruction_swap htag hsees h⟩
  exact .ite htag (by decide) hclose hother

theorem readSubset_swap (htag : SameTag rest rest') {bound : Nat}
    (h : readSubset bound p b = .ok (q, c)) (hbound : p.rest.length < bound) :
    Prefaced p b q c ∧ (rest <:+ q.rest → ∀ {bound'}, (p.swap rest rest').rest.length < bound' →
      readSubset bound' (p.swap rest rest') (b.redraw φ) =
        .ok (q.swap rest rest', c.redraw φ)) := by
  induction bound generalizing p b with
  | zero => cases hbound
  | succ bound ih =>
    rw [readSubset_succ] at h
    split at h
    case isTrue hempty =>
      cases h
      refine ⟨.of_past (Past.refl _) _, fun hrest => ?_⟩
      obtain ⟨c, more, rfl, -⟩ := htag.opens
      rw [List.isEmpty_iff.mp hempty] at hrest
      cases List.suffix_nil.mp hrest
    case isFalse =>
      obtain ⟨⟨go, r, b'⟩, hitem, hmore⟩ := bind_eq_ok.mp h
      obtain ⟨hlt, hfirst, hswap⟩ := itemSteady_readSubsetItem (φ := φ) htag hitem
      have hblanks := past_skipWhile p isSpace
      have hbefore := (Prefaced.of_past hblanks b).trans hfirst
      obtain ⟨read, hread⟩ := hbefore.past
      have hlonger : 0 < read.length := by
        have := hread.index
        have := index_le_skipWhile p isSpace
        simp only [Place.skipSpaces] at hlt
        omega
      have hcarry (hrest : rest <:+ r.rest) (bound' : Nat) :
          readSubset (bound' + 1) (p.swap rest rest') (b.redraw φ) =
            if go then readSubset bound' (r.swap rest rest') (b'.redraw φ)
            else .ok (r.swap rest rest', b'.redraw φ) := by
        have hempty : (p.swap rest rest').rest.isEmpty = false := by
          obtain ⟨c, more, heq, -⟩ := htag.opens'
          simp [Place.swap, heq]
        rw [readSubset_succ, hempty, htag.skipSpaces_swap (hread.suffix hrest), hswap hrest]
        rfl
      cases go with
      | false =>
        cases hmore
        refine ⟨hbefore, fun hrest bound' hbound' => ?_⟩
        obtain ⟨bound', rfl⟩ := Nat.exists_eq_add_one_of_ne_zero (Nat.ne_zero_of_lt hbound')
        exact hcarry hrest bound'
      | true =>
        have hlen := congrArg List.length hread.rest
        rw [List.length_append] at hlen
        have hmore : readSubset bound r b' = .ok (q, c) := hmore
        obtain ⟨hafter, hswap'⟩ := ih hmore (by omega)
        refine ⟨hbefore.trans hafter, fun hrest bound' hbound' => ?_⟩
        obtain ⟨bound', rfl⟩ := Nat.exists_eq_add_one_of_ne_zero (Nat.ne_zero_of_lt hbound')
        obtain ⟨more, hmore⟩ := hafter.past
        have hrest' := hmore.suffix hrest
        have hlen' := congrArg List.length (hread.swap rest' hrest').rest
        rw [List.length_append] at hlen'
        rw [hcarry hrest', if_pos rfl]
        exact hswap' hrest (by omega)

/-- The name and the external id of a document type, whose mark has been read. -/
def readDoctypeHead (p : Place) : Option (Unit × Place) := do
  let p ← p.expectSpaces
  let (_, p) ← readName p
  let (_, p) ← skipExternalId p.skipSpaces
  some ((), p.skipSpaces)

theorem need_bind (x : Option α) (f : α → Option β) :
    need (x >>= f) = need x >>= fun a => need (f a) := by
  cases x <;> rfl

theorem readDoctype_eq (p : Place) (b : Builder) : readDoctype p b =
    need (readDoctypeHead (p.advance 9)) >>= fun r =>
      if r.2.sees ">" then .ok (r.2.advance 1, b)
      else if r.2.sees "[" then readSubset (r.2.rest.length + 1) (r.2.advance 1) b
      else .error .malformed := by
  unfold readDoctype readDoctypeHead
  simp only [need_bind, bind_assoc]
  congr 1
  funext p
  congr 1
  funext r
  congr 1
  funext r
  generalize r.2.skipSpaces = q
  obtain ⟨i, text⟩ := q
  dsimp only [need]
  split
  case h_1 => rfl
  case h_2 => rfl
  case h_3 hgreater hbracket =>
    have hclose : Place.sees ⟨i, text⟩ ">" = false := sees_eq_false_of_ne i hgreater rfl
    have hopen : Place.sees ⟨i, text⟩ "[" = false := sees_eq_false_of_ne i hbracket rfl
    simp [Bind.bind, Except.bind, hclose, hopen]

/-- Reads the document type when there is one, but nothing behind it. -/
theorem readDoctype_swap (htag : SameTag rest rest') (hsees : p.sees "<!DOCTYPE")
    (h : readDoctype p b = .ok (q, c)) : Prefaced p b q c ∧ (rest <:+ q.rest →
      readDoctype (p.swap rest rest') (b.redraw φ) = .ok (q.swap rest rest', c.redraw φ)) := by
  have hspaces := Steady.of_local htag local_expectSpaces
  have hhead : Steady rest rest' fun p =>
      if p.sees "<!DOCTYPE" then readDoctypeHead (p.advance 9) else none := by
    refine .behind htag (by decide) (by decide) (.andThen hspaces ?_)
    refine .bind (.of_local htag local_readName) fun _ => ?_
    refine .bind (f := fun p => skipExternalId p.skipSpaces)
      (.skipSpaces htag (steady_skipExternalId htag)) fun _ => ?_
    exact .skipSpaces htag (.pure ())
  rw [readDoctype_eq] at h
  obtain ⟨⟨_, r⟩, hr, h⟩ := bind_eq_ok.mp h
  obtain ⟨⟨read, hpast⟩, hswap⟩ := hhead (Option.ite_none_right_eq_some.mpr
    ⟨hsees, need_eq_ok.mp hr⟩)
  have hbefore := Prefaced.of_past hpast b
  have hagain (hrest : rest <:+ r.rest) :
      need (readDoctypeHead ((p.swap rest rest').advance 9)) = .ok ((), r.swap rest rest') :=
    need_eq_ok.mpr (Option.ite_none_right_eq_some.mp (hswap hrest)).2
  dsimp only at h
  split at h
  case isTrue hclose =>
    cases h
    have hmark := past_advance_of_sees hclose (n := 1) (by decide)
    refine ⟨hbefore.trans (.of_past hmark _), fun hrest => ?_⟩
    have hrest' := hmark.suffix hrest
    rw [readDoctype_eq]
    refine bind_eq_ok.mpr ⟨_, hagain hrest', ?_⟩
    dsimp only
    rw [htag.sees_swap (by decide) hrest', if_pos hclose, (hmark.swap rest' hrest).eq_advance]
    rfl
  case isFalse hclose =>
    split at h
    case isFalse => cases h
    case isTrue hopen =>
      have hmark := past_advance_of_sees hopen (n := 1) (by decide)
      have hlen := congrArg List.length hmark.rest
      rw [List.length_append] at hlen
      obtain ⟨hsubset, hswap'⟩ := readSubset_swap (φ := φ) htag h (by omega)
      refine ⟨(hbefore.trans (.of_past hmark b)).trans hsubset, fun hrest => ?_⟩
      obtain ⟨more, hmore⟩ := hsubset.past
      have hrest₁ := hmore.suffix hrest
      have hrest₂ := hmark.suffix hrest₁
      have hmark' := hmark.swap rest' hrest₁
      have hlen' := congrArg List.length hmark'.rest
      rw [List.length_append] at hlen'
      rw [readDoctype_eq]
      refine bind_eq_ok.mpr ⟨_, hagain hrest₂, ?_⟩
      dsimp only
      rw [htag.sees_swap (by decide) hrest₂, if_neg hclose, htag.sees_swap (by decide) hrest₂,
        if_pos hopen]
      have hsubset' : readSubset ((r.swap rest rest').rest.length + 1)
          ((r.advance 1).swap rest rest') (b.redraw φ) = .ok (q.swap rest rest', c.redraw φ) :=
        hswap' hrest (by omega)
      rwa [hmark'.eq_advance] at hsubset'

theorem readOptionalDoctype_swap (htag : SameTag rest rest')
    (h : readOptionalDoctype p b = .ok (q, c)) : Prefaced p b q c ∧ (rest <:+ q.rest →
      readOptionalDoctype (p.swap rest rest') (b.redraw φ) =
        .ok (q.swap rest rest', c.redraw φ)) := by
  have hbefore := Prefaced.of_past (past_skipWhile p isSpace) b
  simp only [readOptionalDoctype] at h ⊢
  split at h
  case isTrue hsees =>
    obtain ⟨⟨r, b'⟩, hdoctype, hmisc⟩ := bind_eq_ok.mp h
    obtain ⟨hfirst, hswap⟩ := readDoctype_swap (φ := φ) htag hsees hdoctype
    have hmisc : readMisc (r.rest.length + 1) r b' = .ok (q, c) := hmisc
    obtain ⟨hafter, -⟩ := readMisc_redraw φ hmisc (Nat.lt_succ_self _)
    refine ⟨(hbefore.trans hfirst).trans hafter, fun hrest => ?_⟩
    have hrest₁ := hafter.suffix hrest
    have hrest₂ := hfirst.suffix hrest₁
    rw [htag.skipSpaces_swap (hbefore.suffix hrest₂), htag.sees_swap (by decide) hrest₂,
      if_pos hsees]
    refine bind_eq_ok.mpr ⟨_, hswap hrest₁, ?_⟩
    exact readMisc_swap htag hmisc (Nat.lt_succ_self _) hrest (Nat.lt_succ_self _)
  case isFalse hsees =>
    cases h
    refine ⟨hbefore, fun hrest => ?_⟩
    rw [htag.skipSpaces_swap (hbefore.suffix hrest), htag.sees_swap (by decide) hrest,
      if_neg hsees]
    rfl

end

/-! ## Documents -/

/-- Passes over a byte order mark. -/
def skipOrderMark (p : Place) : Place :=
  if p.sees "\ufeff" then p.advance 1 else p

/-- Reads what stands before the root. -/
def readProlog (markup : List Char) : Except Fault (Place × Builder) := do
  let p := skipOrderMark (Place.start markup)
  let p ← need (if p.sees "<?xml " then skipDeclaration p else some p)
  let (p, b) ← readMisc (p.rest.length + 1) p {}
  let (p, b) ← readOptionalDoctype p b
  return (p.skipSpaces, b)

/-- Reads the root and what stands behind it. -/
def readBody (p : Place) (b : Builder) : Except Fault Document := do
  let (p, b) ← if seesTag p.rest then readElement p b else pure (p, b)
  let (p, b) ← readMisc (p.rest.length + 1) p b
  if p.rest.isEmpty then b.document else .error .malformed

theorem readDocument_eq (markup : List Char) :
    readDocument markup = readProlog markup >>= fun r => readBody r.1 r.2 := by
  unfold readDocument readProlog
  dsimp only
  rw [← skipOrderMark]
  generalize skipOrderMark (Place.start markup) = p
  cases p.sees "<?xml " with
  | true =>
    simp only [if_true, bind_assoc, pure_bind]
    rfl
  | false =>
    simp only [Bool.false_eq_true, if_false, bind_assoc, pure_bind]
    rfl

theorem readProlog_swap {rest rest' markup : List Char} (htag : SameTag rest rest') (φ : Redrawing)
    {q : Place} {c : Builder} (h : readProlog markup = .ok (q, c)) :
    Prefaced (Place.start markup) {} q c ∧ (rest <:+ q.rest →
      readProlog ((Place.start markup).swap rest rest').rest =
        .ok (q.swap rest rest', c.redraw φ)) := by
  have hmark : Steady rest rest' fun p => some ((), skipOrderMark p) := by
    simp only [skipOrderMark, apply_ite (Prod.mk ()), apply_ite some]
    exact .ite htag (by decide) (.behind htag (by decide) (by decide) (.pure ())) (.pure ())
  unfold readProlog at h
  obtain ⟨p₂, hdeclaration, h⟩ := bind_eq_ok.mp h
  obtain ⟨⟨p₃, b₁⟩, hmisc, h⟩ := bind_eq_ok.mp h
  obtain ⟨⟨p₄, b₂⟩, hdoctype, h⟩ := bind_eq_ok.mp h
  cases h
  obtain ⟨⟨read₁, hpast₁⟩, hswap₁⟩ := hmark (p := Place.start markup) rfl
  obtain ⟨⟨read₂, hpast₂⟩, hswap₂⟩ := steady_skipDeclaration htag
    (congrArg (Option.map (Prod.mk ())) (need_eq_ok.mp hdeclaration))
  have hmisc : readMisc (p₂.rest.length + 1) p₂ {} = .ok (p₃, b₁) := hmisc
  obtain ⟨hfirst, -⟩ := readMisc_redraw φ hmisc (Nat.lt_succ_self _)
  obtain ⟨hsecond, hswap₄⟩ := readOptionalDoctype_swap (φ := φ) htag hdoctype
  have hspaces := Prefaced.of_past (past_skipWhile p₄ isSpace) c
  have hstart := Prefaced.of_past (hpast₁.trans hpast₂) {}
  refine ⟨((hstart.trans hfirst).trans hsecond).trans hspaces, fun hrest => ?_⟩
  have hrest₄ := hspaces.suffix hrest
  have hrest₃ := hsecond.suffix hrest₄
  have hrest₂ := hfirst.suffix hrest₃
  have hmark' : skipOrderMark ((Place.start markup).swap rest rest') =
      (skipOrderMark (Place.start markup)).swap rest rest' :=
    (Prod.ext_iff.mp (Option.some.inj (hswap₁ (hpast₂.suffix hrest₂)))).2
  obtain ⟨p₂', hdeclaration', heq⟩ := Option.map_eq_some_iff.mp (hswap₂ hrest₂)
  cases heq
  have hmisc' : readMisc ((p₂.swap rest rest').rest.length + 1) (p₂.swap rest rest') {} =
      .ok (p₃.swap rest rest', b₁.redraw φ) :=
    readMisc_swap htag hmisc (Nat.lt_succ_self _) hrest₃ (Nat.lt_succ_self _)
  dsimp only at hdeclaration'
  rw [← hmark'] at hdeclaration'
  refine bind_eq_ok.mpr ⟨_, need_eq_ok.mpr hdeclaration', bind_eq_ok.mpr ⟨_, hmisc', ?_⟩⟩
  refine bind_eq_ok.mpr ⟨_, hswap₄ hrest₄, ?_⟩
  dsimp only
  rw [htag.skipSpaces_swap hrest₄]
  rfl

end DiagramView.Markup
