import DiagramView.Proofs.Redrawing

/-!
# Readers that do not notice another text behind

Readers of the prolog look further ahead than those of content, and entities know where they stand.
But no word that they look for begins like a start tag. So when another text is put in place of one
that begins with a tag, and begins in the same way, they read the same before it (`Steady`).
-/

namespace DiagramView.Markup

variable {α β : Type}

/-! ## Another text behind -/

/-- Two texts that begin with the same characters of a start tag. -/
structure SameTag (rest rest' : List Char) : Prop where
  front : SameFront rest' rest
  opens : ∃ c more, rest = '<' :: c :: more ∧ c ≠ '!' ∧ c ≠ '?'

/-- Words that never begin a start tag, and none of which goes on behind the start of one. -/
def isMark : List Char → Bool
  | '<' :: c :: cs => (c == '!' || c == '?') && !cs.contains '<'
  | cs => !cs.contains '<'

theorem not_mem_tail_of_isMark {word : List Char} (h : isMark word) : '<' ∉ word.tail := by
  unfold isMark at h
  split at h
  case h_1 c cs =>
    simp only [Bool.and_eq_true, Bool.or_eq_true, beq_iff_eq] at h
    obtain ⟨rfl | rfl, hcs⟩ := h <;> simpa using hcs
  case h_2 => exact fun hmem => by simp [List.mem_of_mem_tail hmem] at h

theorem prefix_append_iff_of_isMark {word mid rest : List Char} (hword : isMark word)
    (hrest : ∃ c more, rest = '<' :: c :: more ∧ c ≠ '!' ∧ c ≠ '?') :
    word <+: mid ++ rest ↔ word <+: mid := by
  refine ⟨fun h => ?_, fun h => h.trans (List.prefix_append mid rest)⟩
  obtain hle | ⟨more, rfl⟩ := List.prefix_or_prefix_of_prefix h (List.prefix_append mid rest)
  · exact hle
  · have hmore : more <+: rest := (List.prefix_append_right_inj mid).mp h
    cases more with
    | nil => simp
    | cons d ds =>
      -- the word would go on with a less-than sign, which it only begins with
      obtain ⟨c, cs, rfl, hbang, hquestion⟩ := hrest
      obtain ⟨rfl, hds⟩ := List.cons_prefix_cons.mp hmore
      cases mid with
      | cons m ms => exact absurd (by simp) (not_mem_tail_of_isMark hword)
      | nil =>
        cases ds with
        | nil => cases hword
        | cons e es =>
          obtain ⟨rfl, -⟩ := List.cons_prefix_cons.mp hds
          simp [isMark, hbang, hquestion] at hword

namespace SameTag

variable {rest rest' : List Char}

theorem opens' (h : SameTag rest rest') :
    ∃ c more, rest' = '<' :: c :: more ∧ c ≠ '!' ∧ c ≠ '?' := by
  obtain ⟨c, more, rfl, hc⟩ := h.opens
  have htwo := h.front.take_eq (n := 2) (by decide)
  match rest', htwo with
  | d :: e :: more', htwo =>
    cases htwo
    exact ⟨c, more', rfl, hc⟩

theorem isPrefixOf_eq (h : SameTag rest rest') {word : List Char} (hword : isMark word)
    (mid : List Char) : word.isPrefixOf (mid ++ rest') = word.isPrefixOf (mid ++ rest) := by
  rw [Bool.eq_iff_iff, List.isPrefixOf_iff_prefix, List.isPrefixOf_iff_prefix,
    prefix_append_iff_of_isMark hword h.opens', prefix_append_iff_of_isMark hword h.opens]

end SameTag

/-- A place with another text in place of the one it ends with. -/
def Place.swap (rest rest' : List Char) (p : Place) : Place :=
  ⟨p.index, p.rest.take (p.rest.length - rest.length) ++ rest'⟩

/-- A reader that does not notice when another text is put in behind what it reads. -/
def Steady (rest rest' : List Char) (reader : Place → Option (α × Place)) : Prop :=
  ∀ ⦃p x q⦄, reader p = some (x, q) → (∃ read, Past p read q) ∧
    (rest <:+ q.rest → reader (p.swap rest rest') = some (x, q.swap rest rest'))

section

variable {rest rest' : List Char} {p q : Place}

theorem swap_eq {mid : List Char} (h : p.rest = mid ++ rest) :
    p.swap rest rest' = ⟨p.index, mid ++ rest'⟩ := by
  simp [Place.swap, h]

theorem Past.suffix {read : List Char} (h : Past p read q) (hrest : rest <:+ q.rest) :
    rest <:+ p.rest :=
  hrest.trans ⟨read, h.rest.symm⟩

theorem Past.refl (p : Place) : Past p [] p :=
  ⟨rfl, rfl⟩

theorem Past.eq_advance {read : List Char} (h : Past p read q) : q = p.advance read.length := by
  obtain ⟨i, text⟩ := p
  obtain ⟨j, more⟩ := q
  obtain ⟨hrest, hindex⟩ := h
  dsimp only at hrest hindex
  subst hrest hindex
  simp [Place.advance]

theorem past_advance_of_sees {word : String} (h : p.sees word) {n : Nat}
    (hn : n ≤ word.toList.length) : Past p (word.toList.take n) (p.advance n) := by
  obtain ⟨more, hmore⟩ := sees_iff.mp h
  refine ⟨?_, by simp [Place.advance, List.length_take_of_le hn]⟩
  rw [Place.advance, hmore, List.drop_append_of_le_length hn, ← List.append_assoc,
    List.take_append_drop]

theorem Past.swap {read : List Char} (h : Past p read q) (rest' : List Char)
    (hrest : rest <:+ q.rest) :
    Past (p.swap rest rest') read (q.swap rest rest') := by
  obtain ⟨mid, hmid⟩ := hrest
  have hp : p.rest = read ++ mid ++ rest := by rw [h.rest, ← hmid, List.append_assoc]
  rw [swap_eq hmid.symm, swap_eq hp]
  exact ⟨List.append_assoc .., h.index⟩

theorem SameTag.sees_swap (h : SameTag rest rest') {word : String} (hword : isMark word.toList)
    (hrest : rest <:+ p.rest) : (p.swap rest rest').sees word = p.sees word := by
  obtain ⟨mid, hmid⟩ := hrest
  rw [swap_eq hmid.symm, Place.sees, Place.sees, ← hmid]
  exact h.isPrefixOf_eq hword mid

theorem SameTag.sameFront_swap (h : SameTag rest rest') (hrest : rest <:+ p.rest) :
    SameFront (p.swap rest rest').rest p.rest := by
  obtain ⟨mid, hmid⟩ := hrest
  rw [swap_eq hmid.symm, ← hmid]
  exact h.front.append mid

end

namespace Steady

variable {rest rest' : List Char}

theorem of_local {reader : Place → Option (α × Place)} (htag : SameTag rest rest')
    (h : Local reader) : Steady rest rest' reader := by
  intro p x q hx
  obtain ⟨read, hpast, hgives⟩ := h hx
  refine ⟨⟨read, hpast⟩, fun hrest => ?_⟩
  have hswap := hpast.swap rest' hrest
  have hread := hgives p.index _ (htag.sameFront_swap hrest)
  rw [← hswap.rest] at hread
  rw [← hpast.index] at hread
  exact hread

theorem pure (x : α) : Steady rest rest' fun p => some (x, p) := by
  intro p y q h
  cases h
  exact ⟨⟨[], rfl, rfl⟩, fun _ => rfl⟩

theorem bind {f : Place → Option (α × Place)} {g : α × Place → Option (β × Place)}
    (hf : Steady rest rest' f) (hg : ∀ x, Steady rest rest' fun p => g (x, p)) :
    Steady rest rest' fun p => f p >>= g := by
  intro p y r h
  obtain ⟨⟨x, q⟩, hx, hy⟩ := Option.bind_eq_some_iff.mp h
  obtain ⟨⟨read, hpast⟩, hswap⟩ := hf hx
  obtain ⟨⟨more, hpast'⟩, hswap'⟩ := hg x hy
  refine ⟨⟨read ++ more, hpast.trans hpast'⟩, fun hrest => ?_⟩
  exact Option.bind_eq_some_iff.mpr ⟨_, hswap (hpast'.suffix hrest), hswap' hrest⟩

theorem andThen {f : Place → Option Place} {g : Place → Option (β × Place)}
    (hf : Steady rest rest' (valueless f)) (hg : Steady rest rest' g) :
    Steady rest rest' fun p => f p >>= g := by
  have h := hf.bind (g := fun r => g r.2) fun _ => hg
  simpa [valueless, Option.bind_map, Function.comp_def] using h

/-- A reader that first asks whether a word comes next. -/
theorem ite (htag : SameTag rest rest') {word : String} (hword : isMark word.toList)
    {f g : Place → Option (α × Place)}
    (hf : Steady rest rest' fun p => if p.sees word then f p else none)
    (hg : Steady rest rest' g) :
    Steady rest rest' fun p => if p.sees word then f p else g p := by
  intro p x q h
  cases hsees : p.sees word with
  | true =>
    have hx : f p = some (x, q) := by simpa [hsees] using h
    obtain ⟨⟨read, hpast⟩, hswap⟩ := hf (Option.ite_none_right_eq_some.mpr ⟨hsees, hx⟩)
    refine ⟨⟨read, hpast⟩, fun hrest => ?_⟩
    simpa [htag.sees_swap hword (hpast.suffix hrest), hsees] using hswap hrest
  | false =>
    obtain ⟨⟨read, hpast⟩, hswap⟩ := hg (by simpa [hsees] using h)
    refine ⟨⟨read, hpast⟩, fun hrest => ?_⟩
    simpa [htag.sees_swap hword (hpast.suffix hrest), hsees] using hswap hrest

/-- A reader that reads behind a word that comes next. -/
theorem behind (htag : SameTag rest rest') {word : String} (hword : isMark word.toList) {n : Nat}
    (hn : n ≤ word.toList.length) {f : Place → Option (α × Place)} (hf : Steady rest rest' f) :
    Steady rest rest' fun p => if p.sees word then f (p.advance n) else none := by
  intro p x q h
  obtain ⟨hsees, hx⟩ := Option.ite_none_right_eq_some.mp h
  obtain ⟨⟨read, hpast⟩, hswap⟩ := hf hx
  have hadvance := past_advance_of_sees hsees hn
  refine ⟨⟨_, hadvance.trans hpast⟩, fun hrest => ?_⟩
  have hrest' := hpast.suffix hrest
  have hmoved := (hadvance.swap rest' hrest').eq_advance
  rw [List.length_take_of_le hn] at hmoved
  refine Option.ite_none_right_eq_some.mpr ⟨?_, hmoved ▸ hswap hrest⟩
  rw [htag.sees_swap hword (hadvance.suffix hrest'), hsees]

theorem seeing (htag : SameTag rest rest') {word : String} (hword : isMark word.toList)
    {f : Place → Option (α × Place)} (hf : Steady rest rest' f) :
    Steady rest rest' fun p => if p.sees word then f p else none :=
  behind htag hword (Nat.zero_le _) hf

theorem skipSpaces (htag : SameTag rest rest') {f : Place → Option (α × Place)}
    (hf : Steady rest rest' f) : Steady rest rest' fun p => f p.skipSpaces :=
  (of_local htag (local_takeWhile isSpace fun _ => some ())).bind (g := fun r => f r.2) fun _ => hf

end Steady

/-! ## Readers of the prolog -/

section

variable {rest rest' : List Char}

theorem Local.none : Local fun _ => (none : Option (α × Place)) := by
  rintro p x q ⟨⟩

theorem local_declarationSpaces : Local (valueless declarationSpaces) := by
  have heq : valueless declarationSpaces = fun p =>
      if (p.rest.head?.map isSpace).getD false then (some ()).map (·, p.skipWhile isSpace)
      else if "?>".toList.isPrefixOf p.rest || p.rest.head?.isNone then some ((), p) else none := by
    funext ⟨i, text⟩
    simp only [valueless, declarationSpaces, apply_ite (Option.map _)]
    cases text <;> rfl
  have hspace {text text' : List Char} (h : SameFront text text') :
      (text.head?.map isSpace).getD false = (text'.head?.map isSpace).getD false := by
    rw [h.head?_eq]
  have hclose {text text' : List Char} (h : SameFront text text') :
      ("?>".toList.isPrefixOf text || text.head?.isNone) =
        ("?>".toList.isPrefixOf text' || text'.head?.isNone) := by
    rw [h.isPrefixOf_eq (by decide), h.head?_eq]
  rw [heq]
  exact (local_takeWhile isSpace fun _ => some ()).ite hspace ((Local.pure ()).ite hclose .none)

/-- An attribute of the declaration that may be missing. -/
def skipOptional (word : String) (tail : Place → Option Place) (p : Place) :
    Option (Unit × Place) :=
  if p.sees word then readAttribute p >>= fun r => valueless tail r.2 else some ((), p)

theorem skipOptional_bind (word : String) (tail : Place → Option Place) (p : Place)
    (f : Unit × Place → Option β) : (skipOptional word tail p).bind f =
      if p.sees word then (readAttribute p).bind fun r => (tail r.2).bind fun q => f ((), q)
      else f ((), p) := by
  unfold skipOptional
  cases p.sees word with
  | false => rfl
  | true =>
    simp only [valueless, if_true, Option.bind_eq_bind, Option.bind_assoc, Option.bind_map]
    rfl

/-- The attribute that every declaration begins with. -/
def readVersion (p : Place) : Option ((QName × List Char) × Place) :=
  if p.sees "version" then readAttribute p else none

/-- What follows the mark of a declaration. -/
def skipDeclarationTail (p : Place) : Option (Unit × Place) := do
  let p ← declarationSpaces p
  let (_, p) ← readVersion p
  let p ← declarationSpaces p
  let (_, p) ← skipOptional "encoding" declarationSpaces p
  let (_, p) ← skipOptional "standalone" some p
  valueless (·.expect "?>") p.skipSpaces

theorem skipDeclaration_eq (p : Place) :
    (skipDeclaration p).map (Prod.mk ()) = skipDeclarationTail (p.advance 5) := by
  unfold skipDeclaration skipDeclarationTail
  cases declarationSpaces (p.advance 5) with
  | none => rfl
  | some p =>
    cases hversion : p.sees "version" with
    | false => simp [readVersion, hversion]
    | true =>
      simp only [readVersion, hversion, Bool.not_true, Bool.false_eq_true, if_false, if_true,
        Option.bind_eq_bind, Option.bind_some, skipOptional_bind, Option.map_bind,
        apply_ite (Option.map _), Function.comp_def, valueless]

theorem steady_skipOptional (htag : SameTag rest rest') {word : String}
    (hword : isMark word.toList) {tail : Place → Option Place} (htail : Local (valueless tail)) :
    Steady rest rest' (skipOptional word tail) := by
  refine .ite htag hword (.seeing htag hword ?_) (.pure ())
  exact .bind (.of_local htag local_readAttribute) fun _ => .of_local htag htail

theorem steady_skipDeclarationTail (htag : SameTag rest rest') :
    Steady rest rest' skipDeclarationTail := by
  have hspaces := Steady.of_local htag local_declarationSpaces
  have hversion : Steady rest rest' readVersion :=
    .seeing htag (by decide) (.of_local htag local_readAttribute)
  refine .andThen hspaces (.bind hversion fun _ => .andThen hspaces ?_)
  refine .bind (steady_skipOptional htag (by decide) local_declarationSpaces) fun _ => ?_
  refine .bind (steady_skipOptional htag (by decide) (.pure ())) fun _ => ?_
  exact .skipSpaces htag (.of_local htag (local_expect "?>"))

theorem steady_skipDeclaration (htag : SameTag rest rest') :
    Steady rest rest' (valueless fun p =>
      if p.sees "<?xml " then skipDeclaration p else some p) := by
  have heq : (valueless fun p => if p.sees "<?xml " then skipDeclaration p else some p) =
      fun p => if p.sees "<?xml " then skipDeclarationTail (p.advance 5) else some ((), p) := by
    funext p
    simp only [valueless, apply_ite (Option.map _), skipDeclaration_eq]
    rfl
  rw [heq]
  exact .ite htag (by decide)
    (.behind htag (by decide) (by decide) (steady_skipDeclarationTail htag)) (.pure ())

theorem readLiteral_eq_some {p value q : Place} : readLiteral p = some (value, q) ↔
    ∃ quote, (quote = '\x22' ∨ quote = '\x27') ∧ quote ∉ value.rest ∧ value.index = p.index + 1 ∧
      Past p (quote :: (value.rest ++ [quote])) q := by
  simp only [readLiteral, Option.bind_eq_bind, Option.bind_eq_some_iff, Prod.exists]
  constructor
  · rintro ⟨quote, r, hquote, after, hafter, heq⟩
    cases heq
    obtain ⟨hmark, hquote⟩ := readQuote_eq_some.mp hquote
    have hvalue := past_skipWhile r (· != quote)
    refine ⟨quote, hmark, fun hmem => ?_, hquote.index, ?_⟩
    · simpa using List.all_eq_true.mp List.all_takeWhile quote hmem
    · exact hquote.trans (hvalue.trans (expectChar_eq_some.mp hafter))
  · rintro ⟨quote, hmark, hvalue, hindex, hpast⟩
    obtain ⟨i, text⟩ := p
    obtain ⟨j, text'⟩ := value
    obtain ⟨k, rest⟩ := q
    obtain ⟨hrest, hend⟩ := hpast
    dsimp only at hrest hend hindex hvalue
    subst hrest hend hindex
    have hother : ∀ c ∈ text', (c != quote) = true := by
      intro c hc
      rw [bne_iff_ne]
      rintro rfl
      exact hvalue hc
    have htake : (text' ++ quote :: rest).takeWhile (· != quote) = text' :=
      takeWhile_append_eq hother (.cons (by simp) _)
    refine ⟨quote, ⟨i + 1, text' ++ quote :: rest⟩, by simpa using readQuote_cons hmark i _,
      ⟨i + 1 + text'.length + 1, rest⟩, ?_, ?_⟩
    · simpa [htake, Place.advance] using expectChar_cons quote (i + 1 + text'.length) rest
    · simp only [htake, List.length_cons, List.length_append, List.length_nil]
      congr 3
      omega

theorem endsBy_of_readLiteral {p value q : Place} (h : readLiteral p = some (value, q)) :
    value.EndsBy q.index := by
  obtain ⟨quote, -, -, hindex, hpast⟩ := readLiteral_eq_some.mp h
  have := hpast.index
  simp only [List.length_cons, List.length_append] at this
  unfold Place.EndsBy
  omega

theorem steady_readLiteral : Steady rest rest' readLiteral := by
  intro p value q h
  obtain ⟨quote, hquote, hvalue, hindex, hpast⟩ := readLiteral_eq_some.mp h
  refine ⟨⟨_, hpast⟩, fun hrest => ?_⟩
  exact readLiteral_eq_some.mpr ⟨quote, hquote, hvalue, hindex, hpast.swap rest' hrest⟩

theorem steady_skipExternalId (htag : SameTag rest rest') : Steady rest rest' skipExternalId := by
  have hspaces := Steady.of_local htag local_expectSpaces
  have hsystem : Steady rest rest' fun p => p.expectSpaces >>= fun p =>
      readLiteral p >>= fun r => some (true, r.2) :=
    .andThen hspaces (.bind steady_readLiteral fun _ => .pure true)
  have hpublic : Steady rest rest' fun p => p.expectSpaces >>= fun p =>
      readLiteral p >>= fun r => r.2.expectSpaces >>= fun p =>
      readLiteral p >>= fun r => some (true, r.2) :=
    .andThen hspaces (.bind steady_readLiteral fun _ => hsystem)
  refine .ite htag (by decide) (.behind htag (by decide) (by decide) hsystem) ?_
  exact .ite htag (by decide) (.behind htag (by decide) (by decide) hpublic) (.pure false)

/-- A notation behind an external id, which is passed over. -/
def skipNotation (general : Bool) (p : Place) : Option (Option Place × Place) :=
  if general && p.skipSpaces.sees "NDATA" then do
    let (_, p) ← readName (← (p.skipSpaces.advance 5).expectSpaces)
    return (none, p)
  else some (none, p)

theorem sees_eq_false_of_ne (i : Nat) {text : List Char} {c : Char} (h : ∀ cs, text ≠ c :: cs)
    {word : String} (hword : word.toList = [c]) : Place.sees ⟨i, text⟩ word = false := by
  cases text with
  | nil => simp [Place.sees, hword]
  | cons d ds =>
    have hd : c ≠ d := fun heq => h ds (by rw [heq])
    simp [Place.sees, hword, List.isPrefixOf, hd]

theorem readEntityValue_eq (general : Bool) (p : Place) : readEntityValue general p =
    if p.sees "\x22" then readLiteral p >>= fun r => some (some r.1, r.2)
    else if p.sees "\x27" then readLiteral p >>= fun r => some (some r.1, r.2)
    else skipExternalId p >>= fun r => if r.1 then skipNotation general r.2 else none := by
  obtain ⟨i, text⟩ := p
  unfold readEntityValue skipNotation
  dsimp only
  split
  case h_1 => rfl
  case h_2 => rfl
  case h_3 hdouble hsingle =>
    rw [sees_eq_false_of_ne i hdouble rfl, sees_eq_false_of_ne i hsingle rfl]
    cases skipExternalId ⟨i, text⟩ with
    | none => rfl
    | some r => obtain ⟨found, q⟩ := r; cases found <;> rfl

theorem SameTag.suffix_skipSpaces (htag : SameTag rest rest') {p : Place} (h : rest <:+ p.rest) :
    rest <:+ p.skipSpaces.rest := by
  obtain ⟨mid, hmid⟩ := h
  obtain ⟨c, more, hrest, -⟩ := htag.opens
  rw [Place.skipSpaces, skipWhile_rest, ← hmid, List.dropWhile_append]
  split
  case isTrue => simp [hrest, isSpace]
  case isFalse => exact ⟨_, rfl⟩

theorem SameTag.skipSpaces_swap (htag : SameTag rest rest') {p : Place} (h : rest <:+ p.rest) :
    (p.swap rest rest').skipSpaces = p.skipSpaces.swap rest rest' := by
  have hskip : Steady rest rest' fun p => some ((), p.skipSpaces) := .skipSpaces htag (.pure ())
  have hswap := (hskip (p := p) rfl).2 (htag.suffix_skipSpaces h)
  exact (Prod.ext_iff.mp (Option.some.inj hswap)).2

theorem steady_skipNotation (htag : SameTag rest rest') (general : Bool) :
    Steady rest rest' (skipNotation general) := by
  have hname : Steady rest rest' fun p => p.expectSpaces >>= fun p =>
      readName p >>= fun r => some ((none : Option Place), r.2) :=
    .andThen (.of_local htag local_expectSpaces) (.bind (.of_local htag local_readName) fun _ =>
      .pure none)
  have hnotation : Steady rest rest' fun p => if p.skipSpaces.sees "NDATA" then
      (p.skipSpaces.advance 5).expectSpaces >>= fun p =>
        readName p >>= fun r => some ((none : Option Place), r.2)
      else none :=
    .skipSpaces htag (.behind htag (by decide) (by decide) hname)
  intro p x q h
  unfold skipNotation at h ⊢
  cases hsees : general && p.skipSpaces.sees "NDATA" with
  | true =>
    rw [hsees, if_pos rfl] at h
    obtain ⟨rfl, hsees⟩ := Bool.and_eq_true_iff.mp hsees
    obtain ⟨hpast, hswap⟩ := hnotation (Option.ite_none_right_eq_some.mpr ⟨hsees, h⟩)
    refine ⟨hpast, fun hrest => ?_⟩
    obtain ⟨hsees', h'⟩ := Option.ite_none_right_eq_some.mp (hswap hrest)
    rw [hsees', Bool.true_and, if_pos rfl]
    exact h'
  | false =>
    rw [hsees] at h
    cases h
    refine ⟨⟨[], rfl, rfl⟩, fun hrest => ?_⟩
    rw [htag.skipSpaces_swap hrest, htag.sees_swap (by decide) (htag.suffix_skipSpaces hrest),
      hsees]
    rfl

theorem steady_readEntityValue (htag : SameTag rest rest') (general : Bool) :
    Steady rest rest' (readEntityValue general) := by
  have hliteral : Steady rest rest' fun p => readLiteral p >>= fun r => some (some r.1, r.2) :=
    .bind steady_readLiteral fun value => .pure (some value)
  have hexternal : Steady rest rest' fun p => skipExternalId p >>= fun r =>
      if r.1 then skipNotation general r.2 else none := by
    refine .bind (steady_skipExternalId htag) fun found => ?_
    cases found with
    | true => exact steady_skipNotation htag general
    | false => exact .of_local htag .none
  rw [funext (readEntityValue_eq general)]
  refine .ite htag (by decide) (.seeing htag (by decide) hliteral) ?_
  exact .ite htag (by decide) (.seeing htag (by decide) hliteral) hexternal

/-- The name and the value of a declaration of an entity, whose mark has been read. -/
def readDeclared (general : Bool) (p : Place) : Option ((List Char × Option Place) × Place) := do
  let (name, p) ← readName p
  let p ← p.expectSpaces
  let (value, p) ← readEntityValue general p
  let p ← expectChar '>' p.skipSpaces
  return ((name, value), p)

/-- A builder with the entity that was declared, if it has a value. -/
def Builder.declared? (b : Builder) (found : List Char × Option Place) : Builder :=
  match found.2 with
  | none => b
  | some value => b.declare found.1 value

/-- What follows the mark of a declaration of an entity. -/
def readEntityTail (p : Place) : Option ((List Char × Option Place) × Place) :=
  p.expectSpaces >>= fun p =>
    if p.sees "%" then (p.advance 1).expectSpaces >>= readDeclared false else readDeclared true p

theorem readEntity_eq (p : Place) (b : Builder) : readEntity p b =
    (readEntityTail (p.advance 8)).map fun r => (r.2, b.declared? r.1) := by
  unfold readEntity readEntityTail readDeclared
  cases (p.advance 8).expectSpaces with
  | none => rfl
  | some p =>
    cases hsees : p.sees "%" with
    | true =>
      simp only [Option.bind_eq_bind, Option.bind_some, hsees, Bool.not_true, Bool.false_eq_true,
        if_false, if_true, Option.map_bind, Function.comp_def]
      rfl
    | false =>
      simp only [Option.bind_eq_bind, Option.bind_some, hsees, Bool.not_false, Bool.false_eq_true,
        if_false, if_true, Option.map_bind, Function.comp_def]
      rfl

theorem steady_readDeclared (htag : SameTag rest rest') (general : Bool) :
    Steady rest rest' (readDeclared general) := by
  refine .bind (.of_local htag local_readName) fun name => ?_
  refine .andThen (.of_local htag local_expectSpaces) ?_
  refine .bind (steady_readEntityValue htag general) fun value => ?_
  exact .andThen (f := fun p => expectChar '>' p.skipSpaces)
    (.of_local htag (local_expectChar '>').skipSpaces) (.pure (name, value))

theorem steady_readEntityTail (htag : SameTag rest rest') : Steady rest rest' readEntityTail := by
  have hspaces := Steady.of_local htag local_expectSpaces
  refine .andThen hspaces (.ite htag (by decide) ?_ (steady_readDeclared htag true))
  exact .behind htag (by decide) (by decide) (.andThen hspaces (steady_readDeclared htag false))

theorem readLiteral_of_readEntityValue {general : Bool} {p q value : Place}
    (h : readEntityValue general p = some (some value, q)) : readLiteral p = some (value, q) := by
  have hliteral (h : (readLiteral p >>= fun r => some (some r.1, r.2)) = some (some value, q)) :
      readLiteral p = some (value, q) := by
    obtain ⟨⟨found, r⟩, hread, heq⟩ := Option.bind_eq_some_iff.mp h
    cases heq
    exact hread
  rw [readEntityValue_eq] at h
  split at h
  case isTrue => exact hliteral h
  case isFalse =>
    split at h
    case isTrue => exact hliteral h
    case isFalse =>
      obtain ⟨r, -, h⟩ := Option.bind_eq_some_iff.mp h
      obtain ⟨-, h⟩ := Option.ite_none_right_eq_some.mp h
      unfold skipNotation at h
      split at h
      case isTrue =>
        obtain ⟨_, -, h⟩ := Option.bind_eq_some_iff.mp h
        obtain ⟨_, -, h⟩ := Option.bind_eq_some_iff.mp h
        cases h
      case isFalse => cases h

theorem endsBy_of_readDeclared {general : Bool} {p q value : Place} {name : List Char}
    (h : readDeclared general p = some ((name, some value), q)) : value.EndsBy q.index := by
  simp only [readDeclared, Option.bind_eq_bind, Option.bind_eq_some_iff, Prod.exists] at h
  obtain ⟨_, r, -, p, -, found, p₁, hvalue, p₂, hclose, heq⟩ := h
  cases heq
  have hafter := (past_skipWhile p₁ isSpace).trans (expectChar_eq_some.mp hclose)
  have := endsBy_of_readLiteral (readLiteral_of_readEntityValue hvalue)
  have := hafter.index
  unfold Place.EndsBy at *
  omega

theorem endsBy_of_readEntityTail {p q value : Place} {name : List Char}
    (h : readEntityTail p = some ((name, some value), q)) : value.EndsBy q.index := by
  obtain ⟨r, -, h⟩ := Option.bind_eq_some_iff.mp h
  split at h
  case isTrue =>
    obtain ⟨r', -, h⟩ := Option.bind_eq_some_iff.mp h
    exact endsBy_of_readDeclared h
  case isFalse => exact endsBy_of_readDeclared h

end

end DiagramView.Markup
