import DiagramView.Proofs.JsonText

/-!
# What typed readers make of JSON texts

For each reader of typed values a function on written values says what it gives, and where it gives
nothing the reader fails (`Decodes`). A reader that gives a value stops right behind the text of the
value, so that values are read one after the other whatever they are.
-/

namespace DiagramView.Json

variable {α β : Type}

/-- Reading fails. -/
def Fails (result : Except Failure α) : Prop :=
  ∃ failure, result = .error failure

theorem Fails.bind {result : Except Failure α} (h : Fails result) (f : α → Except Failure β) :
    Fails (result >>= f) := by
  obtain ⟨failure, rfl⟩ := h
  exact ⟨failure, rfl⟩

theorem Fails.of_bind (result : Except Failure α) {f : α → Except Failure β}
    (h : ∀ x, Fails (f x)) : Fails (result >>= f) := by
  cases result with
  | error failure => exact ⟨failure, rfl⟩
  | ok x => exact h x

/-- What a reader gives is what a meaning says: a value and the text behind it, or a failure. -/
def Agrees (result : Except Failure (α × Cursor)) (meaning : Option α) (rest : List Char) : Prop :=
  match meaning with
  | some x => ∃ offset, result = .ok (x, ⟨offset, rest⟩)
  | none => Fails result

namespace Agrees

variable {result : Except Failure (α × Cursor)} {meaning : Option α} {rest behind : List Char}

theorem bind {f : α × Cursor → Except Failure (β × Cursor)} {g : α → Option β}
    (h : Agrees result meaning behind)
    (hf : ∀ x offset, Agrees (f (x, ⟨offset, behind⟩)) (g x) rest) :
    Agrees (result >>= f) (meaning.bind g) rest := by
  cases meaning with
  | none => exact Fails.bind h f
  | some x =>
    obtain ⟨offset, rfl⟩ := h
    exact hf x offset

theorem map (h : Agrees result meaning rest) (f : α → β) :
    Agrees (do
      let (x, cur) ← result
      return (f x, cur)) (meaning.map f) rest := by
  rw [Option.map_eq_bind]
  exact h.bind fun x offset => ⟨offset, rfl⟩

end Agrees

/-! ## Strings -/

section

variable {rest : List Char}

/-- The rest of a string behind an escape. -/
theorem Agrees.readStringFrom_escape {c : Char} {meaning : Option (List Char)}
    {offset bound : Nat} {text behind : List Char}
    (hescape : Agrees (readEscape ⟨offset + '\\'.utf8Size, text⟩) (some c) behind)
    (hbehind : ∀ offset', Agrees (readStringFrom bound ⟨offset', behind⟩) meaning rest) :
    Agrees (readStringFrom (bound + 1) ⟨offset, '\\' :: text⟩) (meaning.map (c :: ·)) rest := by
  obtain ⟨offset', hescape⟩ := hescape
  have hrest := (hbehind offset').map (c :: ·)
  simp only [readStringFrom, Cursor.past, hescape, ↓reduceIte]
  exact hrest

theorem Agrees.readStringFrom_badEscape {offset bound : Nat} {text behind : List Char}
    (hescape : Agrees (readEscape ⟨offset + '\\'.utf8Size, text⟩) none behind) :
    Agrees (readStringFrom (bound + 1) ⟨offset, '\\' :: text⟩) none rest := by
  obtain ⟨failure, hescape⟩ := hescape
  refine ⟨failure, ?_⟩
  simp only [readStringFrom, Cursor.past, hescape, ↓reduceIte]
  rfl

theorem readStringFrom_plain {c : Char} (h : c ≠ '\x22' ∧ c ≠ '\\' ∧ ¬c.toNat < 0x20)
    (bound offset : Nat) (text : List Char) :
    readStringFrom (bound + 1) ⟨offset, c :: text⟩ = (do
      let (cs, cur) ← readStringFrom bound ⟨offset + c.utf8Size, text⟩
      return (c :: cs, cur)) := by
  simp only [readStringFrom, Cursor.past, h.1, h.2.1, h.2.2, ↓reduceIte]
  rfl

theorem readEscape_letter {c x : Char} (h : simpleEscape? c = some x) (offset : Nat)
    (text : List Char) : Agrees (readEscape ⟨offset, c :: text⟩) (some x) text := by
  refine ⟨offset + c.utf8Size, ?_⟩
  simp only [readEscape, simpleEscape?_ne_u h, h, Cursor.past, ↓reduceIte]

/-- The first half of a surrogate pair needs the escape of the second half behind it. -/
theorem readPairMark_pieces {ps : List Piece} (h : ∀ a b c d m hm qs, ps ≠ .code a b c d m hm :: qs)
    (offset : Nat) (next : Cursor → Except Failure α) : ∃ failure, (do
      let cur ← readPairMark '\\' ⟨offset, piecesText ps rest⟩
      let cur ← readPairMark 'u' cur
      next cur) = .error failure := by
  cases ps with
  | nil => exact ⟨_, rfl⟩
  | cons p ps =>
    rw [piecesText_cons]
    cases p with
    | plain c hc =>
      refine ⟨⟨.hexEscapeUnfinished, offset + 1⟩, ?_⟩
      simp only [Piece.text, List.cons_append, readPairMark, hc.2.1, ↓reduceIte, Bind.bind,
        Except.bind]
    | letter c x hc =>
      refine ⟨⟨.hexEscapeUnfinished, offset + '\\'.utf8Size + 1⟩, ?_⟩
      simp only [Piece.text, List.cons_append, readPairMark, simpleEscape?_ne_u hc, ↓reduceIte,
        Bind.bind, Except.bind, Cursor.past]
    | code a b c d m hm => exact absurd rfl (h a b c d m hm ps)

section

variable {a b c d : Char} {n : Nat} (h : hexNumber? a b c d = some n) (offset : Nat)
include h

theorem readEscape_code_scalar (htrailing : ¬isTrailingSurrogate n = true)
    (hleading : ¬isLeadingSurrogate n = true) (text : List Char) :
    Agrees (readEscape ⟨offset, 'u' :: a :: b :: c :: d :: text⟩) (some (Char.ofNat n)) text := by
  refine ⟨offset + 'u'.utf8Size + 4, ?_⟩
  simp only [readEscape, readUnicodeEscape, Cursor.past, readHex_of_hexNumber? h, Bind.bind,
    Except.bind, htrailing, hleading, Bool.false_eq_true, ↓reduceIte]

theorem readEscape_code_trailing (htrailing : isTrailingSurrogate n = true) (text : List Char) :
    Agrees (readEscape ⟨offset, 'u' :: a :: b :: c :: d :: text⟩) none text := by
  refine ⟨⟨.loneSurrogate, offset + 'u'.utf8Size + 4⟩, ?_⟩
  simp only [readEscape, readUnicodeEscape, Cursor.past, readHex_of_hexNumber? h, Bind.bind,
    Except.bind, htrailing, ↓reduceIte]
  rfl

variable (htrailing : ¬isTrailingSurrogate n = true) (hleading : isLeadingSurrogate n = true)
include htrailing hleading

theorem readEscape_code_pair {a' b' c' d' : Char} {m : Nat} (h' : hexNumber? a' b' c' d' = some m)
    (text : List Char) :
    Agrees (readEscape
        ⟨offset, 'u' :: a :: b :: c :: d :: '\\' :: 'u' :: a' :: b' :: c' :: d' :: text⟩)
      (if isTrailingSurrogate m then
        some (Char.ofNat (0x10000 + (n - 0xd800) * 0x400 + (m - 0xdc00)))
      else none) text := by
  have hread (next : Nat) :
      readHex ⟨next, a' :: b' :: c' :: d' :: text⟩ = .ok (m, ⟨next + 4, text⟩) :=
    readHex_of_hexNumber? h' next text
  by_cases hm : isTrailingSurrogate m = true
  · rw [if_pos hm]
    refine ⟨offset + 'u'.utf8Size + 4 + '\\'.utf8Size + 'u'.utf8Size + 4, ?_⟩
    simp only [readEscape, readUnicodeEscape, Cursor.past, readHex_of_hexNumber? h, Bind.bind,
      Except.bind, htrailing, hleading, readPairMark, hread, hm, Bool.false_eq_true, ↓reduceIte]
  · rw [if_neg hm]
    refine ⟨⟨.loneSurrogate,
      offset + 'u'.utf8Size + 4 + '\\'.utf8Size + 'u'.utf8Size + 4⟩, ?_⟩
    simp only [readEscape, readUnicodeEscape, Cursor.past, readHex_of_hexNumber? h, Bind.bind,
      Except.bind, htrailing, hleading, readPairMark, hread, hm, Bool.false_eq_true, ↓reduceIte]
    rfl

theorem readEscape_code_leading {ps : List Piece}
    (hps : ∀ a b c d m hm qs, ps ≠ .code a b c d m hm :: qs) :
    Agrees (readEscape ⟨offset, 'u' :: a :: b :: c :: d :: piecesText ps rest⟩) none
      (piecesText ps rest) := by
  simp only [readEscape, readUnicodeEscape, Cursor.past, readHex_of_hexNumber? h, ↓reduceIte]
  change Agrees (if isTrailingSurrogate n = true then _ else if isLeadingSurrogate n = true then _
    else _) _ _
  rw [if_neg htrailing, if_pos hleading]
  exact readPairMark_pieces hps _ _

end

/-- A string is read as the characters it stands for, and it is refused when an escape in it stands
for none. -/
theorem readStringFrom_agrees (ps : List Piece) (bound offset : Nat) (hbound : ps.length ≤ bound) :
    Agrees (readStringFrom (bound + 1) ⟨offset, piecesText ps rest⟩) (meaning? ps) rest := by
  fun_induction meaning? ps generalizing bound offset with
  | case1 => exact ⟨_, rfl⟩
  | case2 c hc ps ih =>
    obtain ⟨bound, rfl⟩ := Nat.exists_eq_add_one_of_ne_zero (Nat.ne_zero_of_lt hbound)
    rw [piecesText_cons, Piece.text, List.singleton_append, readStringFrom_plain hc]
    exact (ih bound _ (Nat.le_of_succ_le_succ hbound)).map _
  | case3 c x hc ps ih =>
    obtain ⟨bound, rfl⟩ := Nat.exists_eq_add_one_of_ne_zero (Nat.ne_zero_of_lt hbound)
    rw [piecesText_cons]
    exact (readEscape_letter hc _ _).readStringFrom_escape fun next =>
      ih bound next (Nat.le_of_succ_le_succ hbound)
  | case4 a b c d n hn ps htrailing =>
    rw [piecesText_cons]
    exact (readEscape_code_trailing hn _ htrailing _).readStringFrom_badEscape
  | case5 a b c d n hn htrailing hleading a' b' c' d' m hm ps hpair ih =>
    obtain ⟨bound, rfl⟩ := Nat.exists_eq_add_one_of_ne_zero (Nat.ne_zero_of_lt hbound)
    have hescape := readEscape_code_pair hn (offset + '\\'.utf8Size) htrailing hleading hm
      (piecesText ps rest)
    rw [if_pos hpair] at hescape
    rw [piecesText_cons, piecesText_cons]
    exact hescape.readStringFrom_escape fun next =>
      ih bound next (Nat.le_of_lt (Nat.le_of_succ_le_succ hbound))
  | case6 a b c d n hn htrailing hleading a' b' c' d' m hm ps hpair =>
    have hescape := readEscape_code_pair hn (offset + '\\'.utf8Size) htrailing hleading hm
      (piecesText ps rest)
    rw [if_neg hpair] at hescape
    rw [piecesText_cons, piecesText_cons]
    exact hescape.readStringFrom_badEscape
  | case7 a b c d n hn ps htrailing hleading hps =>
    rw [piecesText_cons]
    exact (readEscape_code_leading hn _ htrailing hleading hps).readStringFrom_badEscape
  | case8 a b c d n hn ps htrailing hleading ih =>
    obtain ⟨bound, rfl⟩ := Nat.exists_eq_add_one_of_ne_zero (Nat.ne_zero_of_lt hbound)
    rw [piecesText_cons]
    exact (readEscape_code_scalar hn _ htrailing hleading _).readStringFrom_escape fun next =>
      ih bound next (Nat.le_of_succ_le_succ hbound)

theorem readString_agrees (ps : List Piece) (offset : Nat) :
    Agrees (readString ⟨offset, piecesText ps rest⟩) (stringOf? ps) rest := by
  have hlength := length_lt_piecesText ps rest
  exact (readStringFrom_agrees ps _ offset (Nat.le_of_lt hlength)).map String.ofList

end

/-! ## Single values -/

/-- A reader gives what a value means, and stops behind its text. -/
def Decodes (reader : Cursor → Except Failure (α × Cursor)) (meaning : Value → Option α) : Prop :=
  ∀ (v : Value) (before : Blanks) (offset : Nat) {rest : List Char}, Delimited rest →
    Agrees (reader ⟨offset, before.chars ++ v.text rest⟩) (meaning v) rest

theorem unexpected_fails (expected : String) (cur : Cursor) :
    Fails (unexpected expected cur : Except Failure α) := by
  unfold unexpected
  split
  · exact ⟨_, rfl⟩
  · dsimp only
    -- six kinds of values are read before the message is made, lists and objects are not
    iterate 6
      split
      · exact Fails.of_bind _ fun _ => ⟨_, rfl⟩
    repeat' split
    all_goals exact ⟨_, rfl⟩

def Value.bool? : Value → Option Bool
  | .bool b => some b
  | _ => none

def Value.string? : Value → Option String
  | .string ps => stringOf? ps
  | _ => none

def Value.null? : Value → Option Unit
  | .null => some ()
  | _ => none

/-- No numeral begins like a value of another kind. -/
theorem Numeral.head_notMem (n : Numeral) {rest cs : List Char} {c : Char}
    (htext : n.text rest = c :: cs) : c ∉ ['n', 't', 'f', '\x22', '[', '\x7b'] := by
  obtain ⟨c', cs', htext', hcase⟩ := n.exists_text rest
  cases htext.symm.trans htext'
  rcases hcase with ⟨-, rfl, -⟩ | ⟨-, hc, -⟩
  · decide
  · intro hmem
    simp only [List.mem_cons, List.not_mem_nil, or_false] at hmem
    rcases hmem with rfl | rfl | rfl | rfl | rfl | rfl <;> cases hc

theorem readText_decodes : Decodes readText Value.string? := by
  intro v before offset rest hrest
  obtain ⟨behind, hskip⟩ := before.skipSpaces_append (v.unspaced_text rest) offset
  simp only [readText, hskip]
  cases v with
  | string ps => exact readString_agrees ps (behind + 1)
  | number n =>
    split
    · exact ⟨_, rfl⟩
    · next htext => exact absurd (by simp) (n.head_notMem htext)
    · exact unexpected_fails _ _
  | bool b => cases b <;> exact unexpected_fails _ _
  | _ => exact unexpected_fails _ _

theorem readBool_decodes : Decodes readBool Value.bool? := by
  intro v before offset rest hrest
  obtain ⟨behind, hskip⟩ := before.skipSpaces_append (v.unspaced_text rest) offset
  simp only [readBool, hskip]
  cases v with
  | bool b => cases b <;> exact ⟨_, rfl⟩
  | number n =>
    split
    · exact ⟨_, rfl⟩
    · next htext => exact absurd (by simp) (n.head_notMem htext)
    · next htext => exact absurd (by simp) (n.head_notMem htext)
    · exact unexpected_fails _ _
  | _ => exact unexpected_fails _ _

theorem readNull_decodes : Decodes readNull Value.null? := by
  intro v before offset rest hrest
  obtain ⟨behind, hskip⟩ := before.skipSpaces_append (v.unspaced_text rest) offset
  simp only [readNull, hskip]
  cases v with
  | null => exact ⟨_, rfl⟩
  | number n =>
    split
    · exact ⟨_, rfl⟩
    · next htext => exact absurd (by simp) (n.head_notMem htext)
    · exact unexpected_fails _ _
  | bool b => cases b <;> exact unexpected_fails _ _
  | _ => exact unexpected_fails _ _

/-! ## Whole numbers -/

/-- A numeral was not read as a natural number. -/
inductive Unnatural : Except Failure (Number × Cursor) → Prop where
  | error (failure : Failure) : Unnatural (.error failure)
  | real (x : Decimal.Binary64) (cur : Cursor) : Unnatural (.ok (.real x, cur))
  | negative {n : Int64} (h : n.toInt < 0) (cur : Cursor) : Unnatural (.ok (.negative n, cur))

section

variable (positive : Bool) (significand : Nat) (shift : Int) (cur : Cursor)

theorem finishReal_unnatural : Unnatural (finishReal positive significand shift cur) := by
  unfold finishReal
  split
  · exact .error _
  · exact .real _ _

theorem readExponent_unnatural : Unnatural (readExponent positive significand shift cur) := by
  unfold readExponent
  dsimp only
  split
  · exact .error _
  · split
    · exact .error _
    · split
      · exact finishReal_unnatural _ _ _ _
      · split
        · exact .error _
        · exact .real _ _

theorem readOptionalExponent_unnatural :
    Unnatural (readOptionalExponent positive significand shift cur) := by
  unfold readOptionalExponent
  split
  · exact readExponent_unnatural _ _ _ _
  · exact readExponent_unnatural _ _ _ _
  · exact finishReal_unnatural _ _ _ _

theorem readRealParts_unnatural : Unnatural (readRealParts positive significand shift cur) := by
  unfold readRealParts
  split
  · unfold readFraction
    dsimp only
    split
    · exact readOptionalExponent_unnatural _ _ _ _
    · split
      · split <;> exact .error _
      · exact readOptionalExponent_unnatural _ _ _ _
  · exact readOptionalExponent_unnatural _ _ _ _

/-- Minus zero and what 64 bits cannot hold are rounded. -/
theorem readAfterInteger_false_unnatural : Unnatural (readAfterInteger false significand cur) := by
  unfold readAfterInteger
  split
  · exact readRealParts_unnatural _ _ _ _
  · unfold wholeNumber
    rw [if_neg Bool.false_ne_true]
    split
    · next hrange =>
      refine .negative ?_ cur
      rw [toInt_ofInt_neg hrange.2]
      omega
    · exact .real _ _

theorem readNumeral_false_unnatural : Unnatural (readNumeral false cur) := by
  unfold readNumeral
  split
  · exact .error _
  · split
    · exact .error _
    · split
      · exact .error _
      · exact readAfterInteger_false_unnatural _ _
    · dsimp only
      split
      · exact readRealParts_unnatural _ _ _ _
      · exact readAfterInteger_false_unnatural _ _

end

theorem gatherDigits_full {digits rest : List Char} (hdigits : ∀ c ∈ digits, c.isDigit = true)
    (significand count offset : Nat) (hfits : significand ≤ maxSignificand)
    (hgreat : maxSignificand < Nat.ofDigitChars 10 digits significand) :
    (gatherDigits significand count offset (digits ++ rest)).full = true := by
  induction digits generalizing significand count offset with
  | nil => exact absurd hgreat (Nat.not_lt_of_le hfits)
  | cons c cs ih =>
    obtain ⟨hc, hcs⟩ := List.forall_mem_cons.mp hdigits
    rw [Nat.ofDigitChars_cons, Nat.mul_comm] at hgreat
    simp only [List.cons_append, gatherDigits, digitValue?_of_isDigit hc]
    split
    · rfl
    · next hstep => exact ih hcs _ _ _ (Nat.le_of_not_lt hstep) hgreat

section

variable (n : Numeral) {tail : List Char} (positive : Bool) (offset : Nat)

theorem Numeral.readNumeral_of_fits (htail : beginsWithDigit tail = false)
    (hfits : Nat.ofDigitChars 10 n.whole.chars 0 ≤ maxSignificand) :
    ∃ offset', readNumeral positive ⟨offset, n.whole.chars ++ tail⟩ =
      readAfterInteger positive (Nat.ofDigitChars 10 n.whole.chars 0) ⟨offset', tail⟩ := by
  rcases n.whole_cases with hzero | ⟨c, cs, k, hcons, hcs, hc, hk⟩
  · refine ⟨offset + 1, ?_⟩
    rw [hzero, List.singleton_append]
    simp only [readNumeral, digitValue?_of_isDigit (by decide : '0'.isDigit = true), Nat.sub_self,
      htail, Bool.false_eq_true, ↓reduceIte]
    rfl
  · rw [hcons, Nat.ofDigitChars_cons, Nat.mul_zero, Nat.zero_add, hk] at hfits ⊢
    obtain ⟨count, offset', hgather⟩ := gatherDigits_append hcs htail _ 0 (offset + 1) hfits
    refine ⟨offset', ?_⟩
    simp only [List.cons_append, readNumeral, digitValue?_of_isDigit hc, hk, hgather,
      Bool.false_eq_true, ↓reduceIte]

theorem Numeral.readNumeral_of_great
    (hgreat : maxSignificand < Nat.ofDigitChars 10 n.whole.chars 0) :
    Unnatural (readNumeral positive ⟨offset, n.whole.chars ++ tail⟩) := by
  rcases n.whole_cases with hzero | ⟨c, cs, k, hcons, hcs, hc, hk⟩
  · rw [hzero] at hgreat
    exact absurd hgreat (by decide)
  · rw [hcons, Nat.ofDigitChars_cons, Nat.mul_zero, Nat.zero_add, hk] at hgreat
    have hdigit : k + 1 ≤ maxSignificand := by
      have hrange := Char.isDigit_iff_toNat.mp hc
      have hten : 10 ≤ maxSignificand := by decide
      have hnine : '9'.toNat = 57 := rfl
      have hzero : '0'.toNat = 48 := rfl
      omega
    have hfull : (gatherDigits (k + 1) 0 (offset + 1) (cs ++ tail)).full = true :=
      gatherDigits_full hcs _ _ _ hdigit hgreat
    rw [hcons]
    simp only [List.cons_append, readNumeral, digitValue?_of_isDigit hc, hk, hfull, ↓reduceIte]
    exact readRealParts_unnatural _ _ _ _

end

/-- A number as a value of a type of whole numbers. -/
def fitNumber (expected : String) (fit : Int → Option α) (read : Number × Cursor) :
    Except Failure (α × Cursor) :=
  let whole (value : Int) : Except Failure (α × Cursor) :=
    match fit value with
    | some x => .ok (x, read.2)
    | none => read.2.fail (.outOfRange (.integer value) expected)
  match read.1 with
  | .natural n => whole n.toNat
  | .negative n => whole n.toInt
  | .real x => read.2.fail (.wrongKind (.ofNumber (.real x)) expected)

theorem Unnatural.fails {result : Except Failure (Number × Cursor)} (h : Unnatural result)
    (expected : String) {fit : Int → Option α} (hfit : ∀ n < 0, fit n = none) :
    Fails (result >>= fitNumber expected fit) := by
  cases h with
  | error failure => exact ⟨failure, rfl⟩
  | real x cur => exact ⟨_, rfl⟩
  | @negative n hn cur =>
    refine ⟨⟨.outOfRange (.integer n.toInt) expected, cur.offset⟩, ?_⟩
    simp only [Bind.bind, Except.bind, fitNumber, hfit _ hn]
    rfl

theorem fitNumber_natural {expected : String} {fit : Int → Option α} {n : UInt64} {k : Nat}
    (hword : n.toNat = k) {offset : Nat} {rest : List Char} :
    Agrees (.ok (.natural n, ⟨offset, rest⟩) >>= fitNumber expected fit)
      ((some k).bind fun k => fit k) rest := by
  subst hword
  simp only [Bind.bind, Except.bind, fitNumber, Option.bind_some]
  cases fit n.toNat with
  | none => exact ⟨_, rfl⟩
  | some x => exact ⟨offset, rfl⟩

theorem readWholeNumber_cons (expected : String) (fit : Int → Option α) {cur : Cursor} {c : Char}
    {cs : List Char} {offset : Nat} (h : cur.skipSpaces = ⟨offset, c :: cs⟩) :
    readWholeNumber expected fit cur =
      if c = '-' then readNumeral false ⟨offset + 1, cs⟩ >>= fitNumber expected fit
      else if (digitValue? c).isSome then
        readNumeral true ⟨offset, c :: cs⟩ >>= fitNumber expected fit
      else unexpected expected ⟨offset, c :: cs⟩ := by
  simp only [readWholeNumber, h]
  rfl

/-- A number without sign that a type holds. -/
def Value.natural? (fit : Int → Option α) : Value → Option α
  | .number n => n.natural?.bind fun k => fit k
  | _ => none

theorem realPartsNext_fractionText {fraction : Option Digits} {exponent : Option Exponent}
    (h : (fraction.isSome || exponent.isSome) = true) (rest : List Char) :
    realPartsNext (fractionText fraction (exponentText exponent rest)) = true := by
  cases fraction with
  | some f => rfl
  | none =>
    cases exponent with
    | none => cases h
    | some e =>
      rw [fractionText, exponentText]
      rcases e.mark_known with hmark | hmark <;> (rw [hmark]; rfl)

section

variable {expected : String} {fit : Int → Option α} (hnegative : ∀ n < 0, fit n = none)
  (hgreat : ∀ n : Nat, maxSignificand < n → fit n = none)
include hnegative hgreat

theorem Numeral.readNumeral_agrees (n : Numeral) (hn : n.negative = false) {rest : List Char}
    (hrest : Delimited rest) (offset : Nat) :
    Agrees (readNumeral true ⟨offset, n.body rest⟩ >>= fitNumber expected fit)
      (n.natural?.bind fun k => fit k) rest := by
  by_cases hfits : maxSignificand < Nat.ofDigitChars 10 n.whole.chars 0
  · have hnone : (n.natural?.bind fun k => fit k) = none := by
      unfold Numeral.natural?
      split
      · rfl
      · exact hgreat _ hfits
    rw [hnone]
    exact (n.readNumeral_of_great true offset hfits).fails expected hnegative
  · have htail := beginsWithDigit_fractionText hrest n.fraction n.exponent
    obtain ⟨offset', hread⟩ :=
      n.readNumeral_of_fits true offset htail (Nat.le_of_not_lt hfits)
    rw [Numeral.body, hread]
    by_cases hparts : (n.fraction.isSome || n.exponent.isSome) = true
    · have hnone : n.natural? = none := by
        rw [Numeral.natural?, hn, Bool.false_or, if_pos hparts]
      rw [hnone, readAfterInteger, if_pos (realPartsNext_fractionText hparts rest)]
      exact (readRealParts_unnatural _ _ _ _).fails expected hnegative
    · obtain ⟨hfraction, hexponent⟩ : n.fraction = none ∧ n.exponent = none := by
        simpa using hparts
      have hsome : n.natural? = some (Nat.ofDigitChars 10 n.whole.chars 0) := by
        rw [Numeral.natural?, hn, Bool.false_or, if_neg hparts]
      have hword : (Nat.ofDigitChars 10 n.whole.chars 0).toUInt64.toNat =
          Nat.ofDigitChars 10 n.whole.chars 0 :=
        UInt64.toNat_ofNat_of_lt (Nat.lt_of_le_pred (by decide) (Nat.le_of_not_lt hfits))
      rw [hsome, hfraction, hexponent, fractionText, exponentText, readAfterInteger,
        hrest.realPartsNext_eq_false, if_neg Bool.false_ne_true, wholeNumber, if_pos rfl]
      exact fitNumber_natural hword

theorem readWholeNumber_decodes : Decodes (readWholeNumber expected fit) (Value.natural? fit) := by
  intro v before offset rest hrest
  obtain ⟨behind, hskip⟩ := before.skipSpaces_append (v.unspaced_text rest) offset
  cases v with
  | number n =>
    obtain ⟨c, cs, htext, hcase⟩ := n.exists_text rest
    rw [Value.text, htext] at hskip
    rw [Value.text, htext, readWholeNumber_cons expected fit hskip]
    rcases hcase with ⟨hn, rfl, rfl⟩ | ⟨hn, hc, hbody⟩
    · have hnone : n.natural? = none := by rw [Numeral.natural?, hn, Bool.true_or]; rfl
      rw [if_pos rfl, Value.natural?, hnone]
      exact (readNumeral_false_unnatural _).fails expected hnegative
    · have hminus : c ≠ '-' := by
        rintro rfl
        cases hc
      rw [if_neg hminus, digitValue?_of_isDigit hc, Option.isSome_some, if_pos rfl, hbody]
      exact n.readNumeral_agrees hnegative hgreat hn hrest behind
  | bool b =>
    cases b <;>
    · rw [readWholeNumber_cons expected fit hskip, if_neg (by decide), if_neg (by decide)]
      exact unexpected_fails _ _
  | _ =>
    rw [readWholeNumber_cons expected fit hskip, if_neg (by decide), if_neg (by decide)]
    exact unexpected_fails _ _

end

/-- A number that 32 bits hold, without sign. -/
def Value.uint32? : Value → Option UInt32 :=
  natural? fun n => if 0 ≤ n ∧ n < UInt32.size then some (UInt32.ofNat n.toNat) else none

theorem readUInt32_decodes : Decodes readUInt32 Value.uint32? := by
  refine readWholeNumber_decodes ?_ ?_
  · intro n hn
    exact if_neg fun h => Int.not_lt.mpr h.1 hn
  · intro n hn
    refine if_neg fun h => ?_
    have hsize : UInt32.size ≤ maxSignificand := by decide
    omega

/-! ## Alternatives -/

/-- The alternative with a name. -/
def variantOf? (variants : List (String × α)) (name : String) : Option α :=
  (variants.find? fun v => v.1 == name).map (·.2)

/-- One of some alternatives: its name, or an object with nothing but its name and null. -/
def Value.variant? (variants : List (String × α)) : Value → Option α
  | .string ps => (stringOf? ps).bind (variantOf? variants)
  | .object (.member _ key _ .null (.close _)) => (stringOf? key).bind (variantOf? variants)
  | _ => none

section

variable (variants : List (String × α)) (rest : List Char) (offset : Nat)

theorem readVariantName_agrees (ps : List Piece) :
    Agrees (readVariantName variants ⟨offset, piecesText ps rest⟩)
      ((stringOf? ps).bind (variantOf? variants)) rest := by
  refine (readString_agrees ps offset).bind fun name behind => ?_
  unfold variantOf?
  dsimp only
  cases variants.find? fun v => v.1 == name with
  | none => exact ⟨_, rfl⟩
  | some v => exact ⟨behind, rfl⟩

/-- What follows the name of an alternative in an object. -/
def closeVariant (r : α × Cursor) : Except Failure (α × Cursor) := do
  let cur ← readColon r.2
  let (_, cur) ← readNull cur
  let cur := cur.skipSpaces
  match cur.rest with
  | [] => cur.fail .objectUnfinished
  | '\x7d' :: cs => .ok (r.1, ⟨cur.offset + 1, cs⟩)
  | _ => cur.fail .valueExpected

theorem closeVariant_agrees (x : α) (colon : Separator) (v : Value) (more : Members) :
    Agrees (closeVariant (x, ⟨offset, colon.text [':'] (v.text (more.text false rest))⟩))
      (match v, more with
        | .null, .close _ => some x
        | _, _ => none) rest := by
  obtain ⟨behind, hcolon⟩ := colon.readColon_text (v.text (more.text false rest)) offset
  have hnull := readNull_decodes v colon.after behind (more.delimited_text rest)
  simp only [closeVariant, hcolon]
  cases v with
  | null =>
    obtain ⟨offset', hnull⟩ := hnull
    simp only [Bind.bind, Except.bind, hnull]
    cases more with
    | close gap =>
      obtain ⟨closed, hskip⟩ := gap.skipSpaces_brace rest offset'
      rw [Members.text, hskip]
      exact ⟨closed + 1, rfl⟩
    | member separator key colon v more =>
      obtain ⟨closed, hskip⟩ := separator.skipSpaces_comma _ offset'
      rw [Members.text, comma, if_neg Bool.false_ne_true, hskip]
      exact ⟨_, rfl⟩
  | _ => exact Fails.bind hnull _

theorem Value.variant?_object_member (separator : Separator) (key : List Piece) (colon : Separator)
    (v : Value) (more : Members) :
    (Value.object (.member separator key colon v more)).variant? variants =
      ((stringOf? key).bind (variantOf? variants)).bind fun x =>
        match v, more with
        | .null, .close _ => some x
        | _, _ => none := by
  cases v with
  | null =>
    cases more with
    | close gap => exact (Option.bind_fun_some _).symm
    | member => exact (Option.bind_fun_none _).symm
  | _ => exact (Option.bind_fun_none _).symm

theorem readVariantObject_agrees (members : Members) :
    Agrees (readVariantObject variants ⟨offset, members.text true rest⟩)
      ((Value.object members).variant? variants) rest := by
  cases members with
  | close gap =>
    obtain ⟨behind, hskip⟩ := gap.skipSpaces_brace rest offset
    rw [Members.text, readVariantObject]
    simp only [hskip]
    exact ⟨_, rfl⟩
  | member separator key colon v more =>
    obtain ⟨behind, hskip⟩ := separator.skipSpaces_blank
      (unspaced_cons beginsValue_quote.unspaced
        (piecesText key (colon.text [':'] (v.text (more.text false rest))))) offset
    rw [Members.text, readVariantObject, Value.variant?_object_member]
    simp only [comma, ↓reduceIte, hskip]
    exact (readVariantName_agrees variants _ (behind + 1) key).bind fun x named =>
      closeVariant_agrees rest named x colon v more

theorem readVariant_decodes : Decodes (readVariant variants) (Value.variant? variants) := by
  intro v before offset rest hrest
  obtain ⟨behind, hskip⟩ := before.skipSpaces_append (v.unspaced_text rest) offset
  simp only [readVariant, hskip]
  cases v with
  | string ps => exact readVariantName_agrees variants rest (behind + 1) ps
  | object members => exact readVariantObject_agrees variants rest (behind + 1) members
  | number n =>
    split
    · exact ⟨_, rfl⟩
    · next htext => exact absurd (by simp) (n.head_notMem htext)
    · next htext => exact absurd (by simp) (n.head_notMem htext)
    · exact ⟨_, rfl⟩
  | bool b => cases b <;> exact ⟨_, rfl⟩
  | _ => exact ⟨_, rfl⟩

end

end DiagramView.Json
