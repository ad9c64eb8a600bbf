import DiagramView.Markup.Reader

/-!
# Readers look no further than they read

A reader of markup decides by the characters that it reads and by at most four behind them. So it
reads the same characters in the same way wherever they stand, and whatever text follows, as long as
that text begins in the same way (`SameFront`). A reader with this property is *local* (`Local`),
and readers that are put together from local ones are local.

What a reader gives as its value must not depend on where it stands. All readers that content is
made of are like that; literals of the document type are not, since entities know where they stand.
-/

namespace DiagramView.Markup

variable {α β : Type}

/-! ## Texts that begin alike -/

/-- Two texts that no reader tells apart before it reads on. -/
def SameFront (text text' : List Char) : Prop :=
  text.take 4 = text'.take 4

namespace SameFront

variable {text text' : List Char}

theorem refl (text : List Char) : SameFront text text :=
  rfl

theorem take_eq (h : SameFront text text') {n : Nat} (hn : n ≤ 4) :
    text.take n = text'.take n := by
  rw [← Nat.min_eq_left hn, ← List.take_take, h, List.take_take]

theorem append (h : SameFront text text') (read : List Char) :
    SameFront (read ++ text) (read ++ text') := by
  unfold SameFront
  rw [List.take_append, List.take_append, h.take_eq (Nat.sub_le ..)]

theorem head?_eq (h : SameFront text text') : text.head? = text'.head? := by
  have hone := h.take_eq (n := 1) (by decide)
  cases text <;> cases text' <;> simp_all

theorem eq_nil (h : SameFront text []) : text = [] := by
  simpa [SameFront] using h

/-- Whether a word of at most four characters comes next. -/
theorem isPrefixOf_eq (h : SameFront text text') {word : List Char} (hword : word.length ≤ 4) :
    word.isPrefixOf text = word.isPrefixOf text' := by
  have hiff : word <+: text ↔ word <+: text' := by
    have htake : word <+: text.take 4 ↔ word <+: text'.take 4 := by rw [h]
    simpa [List.prefix_take_iff, hword] using htake
  rw [Bool.eq_iff_iff, List.isPrefixOf_iff_prefix, List.isPrefixOf_iff_prefix, hiff]

end SameFront

/-! ## Local readers -/

/-- The place behind some characters that were read. -/
structure Past (p : Place) (read : List Char) (q : Place) : Prop where
  rest : p.rest = read ++ q.rest
  index : q.index = p.index + read.length

theorem Past.cons (i : Nat) (c : Char) (cs : List Char) : Past ⟨i, c :: cs⟩ [c] ⟨i + 1, cs⟩ :=
  ⟨rfl, rfl⟩

theorem Past.trans {p q r : Place} {read read' : List Char} (h : Past p read q)
    (h' : Past q read' r) : Past p (read ++ read') r where
  rest := by rw [h.rest, h'.rest, List.append_assoc]
  index := by rw [h'.index, h.index, List.length_append, Nat.add_assoc]

theorem Past.unique {p q : Place} {read read' : List Char} (h : Past p read q)
    (h' : Past p read' q) : read = read' :=
  List.append_cancel_right (h.rest.symm.trans h'.rest)

/-- A reader gives a value for some characters, wherever they stand and whatever comes behind them,
as long as that begins like the given text. -/
def Gives (reader : Place → Option (α × Place)) (read : List Char) (x : α) (rest : List Char) :
    Prop :=
  ∀ i rest', SameFront rest' rest →
    reader ⟨i, read ++ rest'⟩ = some (x, ⟨i + read.length, rest'⟩)

/-- A reader that decides by what it reads and by how the text behind that begins. -/
def Local (reader : Place → Option (α × Place)) : Prop :=
  ∀ ⦃p x q⦄, reader p = some (x, q) → ∃ read, Past p read q ∧ Gives reader read x q.rest

/-- A reader that gives no value, as one that gives a trivial one. -/
def valueless (reader : Place → Option Place) (p : Place) : Option (Unit × Place) :=
  (reader p).map (Prod.mk ())

/-- A reader whose last characters are the given ones. -/
def ClosedBy (word : List Char) (reader : Place → Option (α × Place)) : Prop :=
  ∀ ⦃p x q⦄, reader p = some (x, q) → ∃ read, Past p (read ++ word) q

namespace Local

theorem pure (x : α) : Local fun p => some (x, p) := by
  intro p y q h
  cases h
  exact ⟨[], ⟨rfl, rfl⟩, fun i rest' _ => rfl⟩

theorem bind {f : Place → Option (α × Place)} {g : α × Place → Option (β × Place)}
    (hf : Local f) (hg : ∀ x, Local fun p => g (x, p)) : Local fun p => f p >>= g := by
  intro p y r h
  obtain ⟨⟨x, q⟩, hx, hy⟩ := Option.bind_eq_some_iff.mp h
  obtain ⟨read, hpast, hgives⟩ := hf hx
  obtain ⟨more, hpast', hgives'⟩ := hg x hy
  refine ⟨read ++ more, hpast.trans hpast', fun i rest' hrest => ?_⟩
  have hfirst := hgives i (more ++ rest') (by rw [hpast'.rest]; exact hrest.append more)
  have hsecond := hgives' (i + read.length) rest' hrest
  simp only [List.append_assoc, hfirst, List.length_append, ← Nat.add_assoc]
  exact hsecond

theorem andThen {f : Place → Option Place} {g : Place → Option (β × Place)}
    (hf : Local (valueless f)) (hg : Local g) : Local fun p => f p >>= g := by
  have h := hf.bind (g := fun r => g r.2) fun _ => hg
  simpa [valueless, Option.bind_map, Function.comp_def] using h

theorem map {f : Place → Option (α × Place)} (hf : Local f) (g : α → β) :
    Local fun p => (f p).map fun r => (g r.1, r.2) := by
  have h := hf.bind (g := fun r => some (g r.1, r.2)) fun x => .pure (g x)
  simpa [Option.map_eq_bind, Function.comp_def] using h

/-- A reader that first asks how the text begins. -/
theorem ite {f g : Place → Option (α × Place)} {cond : List Char → Bool}
    (hcond : ∀ {text text'}, SameFront text text' → cond text = cond text')
    (hf : Local f) (hg : Local g) : Local fun p => if cond p.rest then f p else g p := by
  intro p x q h
  have hcond' {read : List Char} (hpast : Past p read q) {rest' : List Char}
      (hrest : SameFront rest' q.rest) : cond (read ++ rest') = cond p.rest :=
    hcond (by rw [hpast.rest]; exact hrest.append read)
  cases hc : cond p.rest with
  | true =>
    obtain ⟨read, hpast, hgives⟩ := hf (by simpa [hc] using h)
    exact ⟨read, hpast, fun i rest' hrest => by
      simpa [hcond' hpast hrest, hc] using hgives i rest' hrest⟩
  | false =>
    obtain ⟨read, hpast, hgives⟩ := hg (by simpa [hc] using h)
    exact ⟨read, hpast, fun i rest' hrest => by
      simpa [hcond' hpast hrest, hc] using hgives i rest' hrest⟩

end Local

namespace ClosedBy

variable {word : List Char}

theorem bind {f : Place → Option (α × Place)} {g : α × Place → Option (β × Place)}
    (hf : Local f) (hg : ∀ x, ClosedBy word fun p => g (x, p)) :
    ClosedBy word fun p => f p >>= g := by
  intro p y r h
  obtain ⟨⟨x, q⟩, hx, hy⟩ := Option.bind_eq_some_iff.mp h
  obtain ⟨read, hpast, -⟩ := hf hx
  obtain ⟨more, hpast'⟩ := hg x hy
  exact ⟨read ++ more, by rw [List.append_assoc]; exact hpast.trans hpast'⟩

theorem andThen {f : Place → Option Place} {g : Place → Option (β × Place)}
    (hf : Local (valueless f)) (hg : ClosedBy word g) : ClosedBy word fun p => f p >>= g := by
  have h := bind hf (g := fun r => g r.2) fun _ => hg
  simpa [valueless, Option.bind_map, Function.comp_def] using h

end ClosedBy

/-- What is read decides whether a word comes next that does not hold all of it. -/
theorem isPrefixOf_append_eq {word read rest rest' : List Char} (hread : ¬read <+: word) :
    word.isPrefixOf (read ++ rest) = word.isPrefixOf (read ++ rest') := by
  have hiff (more : List Char) : word <+: read ++ more ↔ word <+: read := by
    refine ⟨fun h => ?_, fun h => h.trans (List.prefix_append read more)⟩
    exact (List.prefix_or_prefix_of_prefix h (List.prefix_append read more)).resolve_right hread
  rw [Bool.eq_iff_iff, List.isPrefixOf_iff_prefix, List.isPrefixOf_iff_prefix, hiff, hiff]

/-- A reader that ends with a character which a word does not hold sees the word or not by what it
reads. -/
theorem ClosedBy.sees_eq {reader : Place → Option (α × Place)} {close : List Char}
    (h : ClosedBy close reader) {word : String} {c : Char} (hclose : c ∈ close)
    (hword : c ∉ word.toList) {p q : Place} {x : α} (hx : reader p = some (x, q))
    {read : List Char} (hpast : Past p read q) (i : Nat) (rest' : List Char) :
    Place.sees ⟨i, read ++ rest'⟩ word = p.sees word := by
  obtain ⟨front, hfront⟩ := h hx
  have hread : ¬read <+: word.toList := by
    intro hle
    rw [hpast.unique hfront] at hle
    exact hword (hle.subset (List.mem_append_right front hclose))
  rw [Place.sees, Place.sees, hpast.rest]
  exact isPrefixOf_append_eq hread

/-! ## Readers of the lexis -/

theorem takeWhile_eq_nil_of_sameFront {inside : Char → Bool} {text rest' : List Char}
    (h : SameFront rest' (text.dropWhile inside)) : rest'.takeWhile inside = [] := by
  have hhead := h.head?_eq
  cases rest' with
  | nil => rfl
  | cons c cs =>
    have hc := List.head?_dropWhile_not inside text
    rw [← hhead] at hc
    exact List.takeWhile_cons_of_neg (by simpa using hc)

theorem past_skipWhile (p : Place) (inside : Char → Bool) :
    Past p (p.rest.takeWhile inside) (p.skipWhile inside) := by
  refine ⟨?_, rfl⟩
  have hdrop := congrArg (List.drop (p.rest.takeWhile inside).length)
    (List.takeWhile_append_dropWhile (p := inside) (l := p.rest))
  rw [List.drop_left] at hdrop
  rw [Place.skipWhile, Place.advance, ← hdrop, List.takeWhile_append_dropWhile]

theorem skipWhile_rest (p : Place) (inside : Char → Bool) :
    (p.skipWhile inside).rest = p.rest.dropWhile inside := by
  have h := (past_skipWhile p inside).rest
  conv at h => lhs; rw [← List.takeWhile_append_dropWhile (p := inside) (l := p.rest)]
  exact (List.append_cancel_left h).symm

/-- A reader that takes all characters of a class that come next. -/
theorem local_takeWhile (inside : Char → Bool) (f : List Char → Option α) :
    Local fun p => (f (p.rest.takeWhile inside)).map (·, p.skipWhile inside) := by
  intro p x q h
  obtain ⟨y, hy, heq⟩ := Option.map_eq_some_iff.mp h
  cases heq
  refine ⟨p.rest.takeWhile inside, past_skipWhile p inside, fun i rest' hrest => ?_⟩
  have htake : (p.rest.takeWhile inside ++ rest').takeWhile inside = p.rest.takeWhile inside := by
    rw [skipWhile_rest] at hrest
    rw [List.takeWhile_append_of_pos (fun c hc => List.all_eq_true.mp List.all_takeWhile c hc),
      takeWhile_eq_nil_of_sameFront hrest, List.append_nil]
  simp only [Place.skipWhile, Place.advance, htake, hy, Option.map_some, List.drop_left]

theorem Local.skipSpaces {f : Place → Option (α × Place)} (hf : Local f) :
    Local fun p => f p.skipSpaces :=
  (local_takeWhile isSpace fun _ => some ()).bind (g := fun r => f r.2) fun _ => hf

theorem local_expectSpaces : Local (valueless Place.expectSpaces) := by
  have heq : valueless Place.expectSpaces = fun p => ((fun read : List Char =>
      if read.isEmpty then none else some ()) (p.rest.takeWhile isSpace)).map
        (·, p.skipWhile isSpace) := by
    funext ⟨i, rest⟩
    cases rest with
    | nil => rfl
    | cons c cs =>
      by_cases hc : isSpace c <;>
        simp [valueless, Place.expectSpaces, Place.seesSpace, Place.skipSpaces, hc]
  exact heq ▸ local_takeWhile isSpace fun read => if read.isEmpty then none else some ()

theorem expect_eq_some {p q : Place} {word : String} :
    p.expect word = some q ↔ Past p word.toList q := by
  obtain ⟨i, text⟩ := p
  obtain ⟨j, rest⟩ := q
  rw [Place.expect, Option.ite_none_right_eq_some, Place.sees, List.isPrefixOf_iff_prefix,
    Place.advance, Option.some_inj, ← String.length_toList]
  constructor
  · rintro ⟨⟨more, rfl⟩, heq⟩
    cases heq
    exact ⟨by simp, rfl⟩
  · rintro ⟨hrest, hindex⟩
    dsimp only at hrest hindex
    subst hrest hindex
    exact ⟨⟨rest, rfl⟩, by simp⟩

theorem expectChar_eq_some {p q : Place} {c : Char} :
    expectChar c p = some q ↔ Past p [c] q := by
  obtain ⟨i, text⟩ := p
  obtain ⟨j, rest⟩ := q
  constructor
  · intro h
    cases text with
    | nil => cases h
    | cons d text =>
      obtain ⟨rfl, heq⟩ := Option.ite_none_right_eq_some.mp h
      cases heq
      exact ⟨rfl, rfl⟩
  · rintro ⟨hrest, hindex⟩
    dsimp only at hrest hindex
    subst hrest hindex
    simp [expectChar, Place.advance]

theorem readQuote_eq_some {p q : Place} {c : Char} :
    readQuote p = some (c, q) ↔ (c = '\x22' ∨ c = '\x27') ∧ Past p [c] q := by
  obtain ⟨i, text⟩ := p
  obtain ⟨j, rest⟩ := q
  constructor
  · intro h
    simp only [readQuote] at h
    split at h <;> cases h
    · exact ⟨.inl rfl, rfl, rfl⟩
    · exact ⟨.inr rfl, rfl, rfl⟩
  · rintro ⟨rfl | rfl, hrest, hindex⟩ <;>
    · dsimp only at hrest hindex
      subst hrest hindex
      rfl

theorem expectChar_cons (c : Char) (i : Nat) (rest : List Char) :
    expectChar c ⟨i, c :: rest⟩ = some ⟨i + 1, rest⟩ :=
  expectChar_eq_some.mpr ⟨rfl, rfl⟩

theorem readQuote_cons {c : Char} (hc : c = '\x22' ∨ c = '\x27') (i : Nat) (rest : List Char) :
    readQuote ⟨i, c :: rest⟩ = some (c, ⟨i + 1, rest⟩) :=
  readQuote_eq_some.mpr ⟨hc, rfl, rfl⟩

theorem local_expect (word : String) : Local (valueless (·.expect word)) := by
  intro p x q h
  obtain ⟨r, hr, heq⟩ := Option.map_eq_some_iff.mp h
  cases heq
  have hgives (i rest') : Place.expect ⟨i, word.toList ++ rest'⟩ word =
      some ⟨i + word.toList.length, rest'⟩ := expect_eq_some.mpr ⟨rfl, rfl⟩
  exact ⟨word.toList, expect_eq_some.mp hr, fun i rest' _ => by simp [valueless, hgives]⟩

theorem local_expectChar (c : Char) : Local (valueless (expectChar c)) := by
  intro p x q h
  obtain ⟨r, hr, heq⟩ := Option.map_eq_some_iff.mp h
  cases heq
  exact ⟨[c], expectChar_eq_some.mp hr, fun i rest' _ =>
    congrArg (Option.map (Prod.mk ())) (expectChar_cons c i rest')⟩

theorem local_readQuote : Local readQuote := by
  intro p c q h
  obtain ⟨hc, hpast⟩ := readQuote_eq_some.mp h
  exact ⟨[c], hpast, fun i rest' _ => readQuote_cons hc i rest'⟩

theorem readUntil_cons_eq_some {stop : List Char → Bool} {i : Nat} {c : Char}
    {cs read : List Char} {q : Place} : readUntil stop i (c :: cs) = some (read, q) ↔
      isDocumentChar c = true ∧
        (stop (c :: cs) = true ∧ read = [] ∧ q = ⟨i, c :: cs⟩ ∨
          stop (c :: cs) = false ∧
            ∃ more, readUntil stop (i + 1) cs = some (more, q) ∧ read = c :: more) := by
  simp only [readUntil]
  cases isDocumentChar c with
  | false => simp
  | true =>
    cases stop (c :: cs) with
    | true => simp [eq_comm]
    | false =>
      cases hmore : readUntil stop (i + 1) cs with
      | none => simp
      | some found =>
        constructor
        · intro h
          cases h
          exact ⟨rfl, .inr ⟨rfl, _, rfl, rfl⟩⟩
        · rintro ⟨-, ⟨h, -⟩ | ⟨-, more, heq, rfl⟩⟩
          · cases h
          · cases heq
            rfl

theorem local_readUntil {stop : List Char → Bool}
    (hstop : ∀ {text text'}, SameFront text text' → stop text = stop text') :
    Local fun p => readUntil stop p.index p.rest := by
  rintro ⟨i, text⟩ x q h
  induction text generalizing i x with
  | nil =>
    cases h
    exact ⟨[], ⟨rfl, rfl⟩, fun i rest' hrest => by rw [hrest.eq_nil]; rfl⟩
  | cons c cs ih =>
    obtain ⟨hdoc, ⟨hs, rfl, rfl⟩ | ⟨hs, more, hmore, rfl⟩⟩ := readUntil_cons_eq_some.mp h
    · refine ⟨[], ⟨rfl, rfl⟩, fun i rest' hrest => ?_⟩
      cases rest' with
      | nil => cases hrest.head?_eq
      | cons d ds =>
        obtain rfl : d = c := Option.some.inj hrest.head?_eq
        exact readUntil_cons_eq_some.mpr ⟨hdoc, .inl ⟨hstop hrest ▸ hs, rfl, rfl⟩⟩
    · obtain ⟨read, hpast, hgives⟩ := ih (i + 1) hmore
      have hpast : Past ⟨i, c :: cs⟩ (c :: read) q :=
        (Past.cons i c cs).trans hpast
      refine ⟨c :: read, hpast, fun i rest' hrest => ?_⟩
      have hfront : SameFront (c :: (read ++ rest')) (c :: cs) := by
        rw [show c :: cs = c :: read ++ q.rest from hpast.rest]
        exact hrest.append (c :: read)
      have hgo := hgives (i + 1) rest' hrest
      rw [Nat.add_assoc, Nat.add_comm 1] at hgo
      exact readUntil_cons_eq_some.mpr ⟨hdoc, .inr ⟨(hstop hfront).trans hs, more, hgo, rfl⟩⟩

theorem local_readThrough {word : String} (hword : word.toList.length ≤ 4) :
    Local (readThrough word) :=
  (local_readUntil fun h => h.isPrefixOf_eq hword).bind fun read =>
    (local_expect word).andThen (.pure read)

theorem closedBy_readThrough {word : String} (hword : word.toList.length ≤ 4) :
    ClosedBy word.toList (readThrough word) := by
  refine .bind (local_readUntil fun h => h.isPrefixOf_eq hword) fun read p x q h => ?_
  obtain ⟨r, hexpect, heq⟩ := Option.bind_eq_some_iff.mp h
  cases heq
  exact ⟨[], expect_eq_some.mp hexpect⟩

/-- A name as a whole, when it may begin as it does. -/
def wholeName? (name : List Char) : Option (List Char) :=
  match name with
  | [] => none
  | c :: _ => if isNameStart c then some name else none

theorem isNameChar_of_isNameStart {c : Char} (h : isNameStart c) : isNameChar c := by
  simp [isNameChar, h]

theorem readName_eq (p : Place) : readName p =
    (wholeName? (p.rest.takeWhile isNameChar)).map (·, p.skipWhile isNameChar) := by
  obtain ⟨i, text⟩ := p
  cases text with
  | nil => rfl
  | cons c cs =>
    by_cases hc : isNameStart c
    · simp [readName, wholeName?, hc, isNameChar_of_isNameStart hc, Place.skipWhile]
    · by_cases hname : isNameChar c <;> simp [readName, wholeName?, hc, hname]

/-- A name with at most one colon, cut at it. -/
def qname? (name : List Char) : Option QName :=
  let finish (space name : List Char) : Option QName :=
    if beginsAsName space && beginsAsName name && !name.isEmpty then some ⟨space, name⟩ else none
  match Text.cutAt ':' name with
  | [name] => finish [] name
  | [space, name] => finish space name
  | _ => none

theorem readQName_eq (p : Place) : readQName p =
    (qname? (p.rest.takeWhile isNameChar)).map (·, p.skipWhile isNameChar) := by
  simp only [readQName, qname?, Place.skipWhile]
  generalize Text.cutAt ':' (p.rest.takeWhile isNameChar) = parts
  rcases parts with _ | ⟨a, _ | ⟨b, _ | _⟩⟩
  · rfl
  · dsimp only
    rw [apply_ite (Option.map _)]
    rfl
  · dsimp only
    rw [apply_ite (Option.map _)]
    rfl
  · rfl

theorem local_readName : Local readName := by
  rw [funext readName_eq]
  exact local_takeWhile isNameChar wholeName?

theorem local_readQName : Local readQName := by
  rw [funext readQName_eq]
  exact local_takeWhile isNameChar qname?

theorem local_readCharNumber (base : Nat) : Local (readCharNumber base) := by
  let number (digits : List Char) : Option Char :=
    let n := digits.foldl (fun n c => base * n + (digitIn? base c).getD 0) 0
    if digits.isEmpty || decide (UInt32.size ≤ n) || !isDocumentChar (charOfNumber n) then none
    else some (charOfNumber n)
  have heq : readCharNumber base = fun p =>
      (number (p.rest.takeWhile fun c => (digitIn? base c).isSome)).map
        (·, p.skipWhile fun c => (digitIn? base c).isSome) := by
    funext p
    simp only [number, apply_ite (Option.map _)]
    rfl
  rw [heq]
  exact local_takeWhile _ number

theorem local_readAttribute : Local readAttribute := by
  refine local_readQName.bind fun name => ?_
  refine .andThen (f := fun p => expectChar '=' p.skipSpaces) (local_expectChar '=').skipSpaces ?_
  refine .bind (f := fun p => readQuote p.skipSpaces) local_readQuote.skipSpaces fun quote => ?_
  refine (local_readUntil fun {text text'} h => ?_).bind fun value =>
    (local_expectChar quote).andThen (.pure (name, value))
  have hhead := h.head?_eq
  cases text <;> cases text' <;> simp_all

/-- What a reference stands for, before the semicolon behind it is read. -/
def readReferent (p : Place) : Option (Reference × Place) :=
  if "#x".toList.isPrefixOf p.rest then
    (p.expect "#x" >>= readCharNumber 16).map fun r => (.char r.1, r.2)
  else if "#".toList.isPrefixOf p.rest then
    (p.expect "#" >>= readCharNumber 10).map fun r => (.char r.1, r.2)
  else (readName p).map fun r => (.ofName r.1, r.2)

theorem local_readReferent : Local readReferent := by
  have hnumber (word : String) (base : Nat) : Local fun p =>
      (p.expect word >>= readCharNumber base).map fun r => (Reference.char r.1, r.2) :=
    ((local_expect word).andThen (local_readCharNumber base)).map Reference.char
  refine (hnumber "#x" 16).ite (fun h => h.isPrefixOf_eq (by decide)) ?_
  refine (hnumber "#" 10).ite (fun h => h.isPrefixOf_eq (by decide)) ?_
  exact local_readName.map Reference.ofName

theorem readReference_eq (p : Place) : readReference p =
    readReferent p >>= fun r => expectChar ';' r.2 >>= fun q => some (r.1, q) := by
  simp only [readReference, readReferent, Place.expect, Place.sees]
  by_cases hx : "#x".toList.isPrefixOf p.rest
  · simp only [hx, if_true]
    rfl
  · by_cases hsharp : "#".toList.isPrefixOf p.rest
    · simp only [hx, hsharp, if_true]
      rfl
    · simp only [hx, hsharp]
      rfl

theorem local_readReference : Local readReference := by
  rw [funext readReference_eq]
  exact local_readReferent.bind fun reference => (local_expectChar ';').andThen (.pure reference)

end DiagramView.Markup
