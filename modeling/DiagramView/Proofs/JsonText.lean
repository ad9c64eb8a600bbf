import DiagramView.Proofs.Written

/-!
# JSON texts

A value as it is written: with the blanks between its parts, the escapes in its strings and the
digits of its numerals (`Value`). Every JSON text is the text of such a tree, with blanks around it.
-/

namespace DiagramView.Json

/-! ## Blanks -/

/-- Blanks as they are written. -/
structure Blanks where
  chars : List Char
  blank : ∀ c ∈ chars, isSpace c = true

/-- A text that does not go on with a blank. -/
def Unspaced (rest : List Char) : Prop :=
  ∀ c ∈ rest.head?, isSpace c = false

theorem skipSpaces_of_unspaced {rest : List Char} (h : Unspaced rest) (offset : Nat) :
    Cursor.skipSpaces ⟨offset, rest⟩ = ⟨offset, rest⟩ := by
  cases rest with
  | nil => rfl
  | cons c cs => exact skipSpaces_cons (h c rfl) offset cs

theorem Blanks.skipSpaces_append (b : Blanks) {rest : List Char} (h : Unspaced rest)
    (offset : Nat) :
    ∃ offset', Cursor.skipSpaces ⟨offset, b.chars ++ rest⟩ = ⟨offset', rest⟩ := by
  obtain ⟨chars, hblank⟩ := b
  induction chars generalizing offset with
  | nil => exact ⟨offset, skipSpaces_of_unspaced h offset⟩
  | cons c cs ih =>
    obtain ⟨hc, hcs⟩ := List.forall_mem_cons.mp hblank
    obtain ⟨offset', hskip⟩ := ih (offset + 1) hcs
    refine ⟨offset', ?_⟩
    rw [← hskip]
    simp [Cursor.skipSpaces, skipSpacesFrom, hc]

theorem Blanks.delimited_append (b : Blanks) {rest : List Char} (h : Delimited rest) :
    Delimited (b.chars ++ rest) := by
  obtain ⟨chars, hblank⟩ := b
  cases chars with
  | nil => exact h
  | cons c cs => exact .space (hblank c List.mem_cons_self) _

def Blanks.empty : Blanks where
  chars := []
  blank _ hc := absurd hc List.not_mem_nil

def Blanks.append (b b' : Blanks) : Blanks where
  chars := b.chars ++ b'.chars
  blank c hc := (List.mem_append.mp hc).elim (b.blank c) (b'.blank c)

/-- Blanks on both sides of a mark, or just blanks. -/
structure Separator where
  before : Blanks
  after : Blanks

def Separator.text (s : Separator) (mark rest : List Char) : List Char :=
  s.before.chars ++ (mark ++ (s.after.chars ++ rest))

/-! ## Strings -/

/-- The number that four hexadecimal digits name. -/
def hexNumber? (a b c d : Char) : Option Nat :=
  match hexValue? a, hexValue? b, hexValue? c, hexValue? d with
  | some w, some x, some y, some z => some (((w * 16 + x) * 16 + y) * 16 + z)
  | _, _, _, _ => none

/-- A part of a string: a character as it is, one behind a backslash, or a numeric escape. -/
inductive Piece where
  | plain (c : Char) (h : c ≠ '\x22' ∧ c ≠ '\\' ∧ ¬c.toNat < 0x20)
  | letter (c x : Char) (h : simpleEscape? c = some x)
  | code (a b c d : Char) (n : Nat) (h : hexNumber? a b c d = some n)

def Piece.text : Piece → List Char
  | .plain c _ => [c]
  | .letter c _ _ => ['\\', c]
  | .code a b c d _ _ => ['\\', 'u', a, b, c, d]

/-- The pieces of a string up to its closing quotation mark. -/
def piecesText (ps : List Piece) (rest : List Char) : List Char :=
  ps.flatMap Piece.text ++ '\x22' :: rest

theorem piecesText_cons (p : Piece) (ps : List Piece) (rest : List Char) :
    piecesText (p :: ps) rest = p.text ++ piecesText ps rest := by
  simp [piecesText]

/-- The characters that pieces stand for. Half of a surrogate pair stands for none. -/
def meaning? : List Piece → Option (List Char)
  | [] => some []
  | .plain c _ :: ps => (meaning? ps).map (c :: ·)
  | .letter _ x _ :: ps => (meaning? ps).map (x :: ·)
  | .code _ _ _ _ n _ :: ps =>
    if isTrailingSurrogate n then none
    else if isLeadingSurrogate n then
      match ps with
      | .code _ _ _ _ m _ :: ps =>
        if isTrailingSurrogate m then
          (meaning? ps).map (Char.ofNat (0x10000 + (n - 0xd800) * 0x400 + (m - 0xdc00)) :: ·)
        else none
      | _ => none
    else (meaning? ps).map (Char.ofNat n :: ·)

/-- The string that pieces stand for. -/
def stringOf? (ps : List Piece) : Option String :=
  (meaning? ps).map String.ofList

theorem readHex_of_hexNumber? {a b c d : Char} {n : Nat} (h : hexNumber? a b c d = some n)
    (offset : Nat) (rest : List Char) :
    readHex ⟨offset, a :: b :: c :: d :: rest⟩ = .ok (n, ⟨offset + 4, rest⟩) := by
  unfold hexNumber? at h
  split at h
  · next hw hx hy hz =>
    cases h
    simp only [readHex, hw, hx, hy, hz]
  · cases h

theorem simpleEscape?_ne_u {c x : Char} (h : simpleEscape? c = some x) : c ≠ 'u' := by
  rintro rfl
  cases h

theorem length_lt_piecesText (ps : List Piece) (rest : List Char) :
    ps.length < (piecesText ps rest).length := by
  induction ps with
  | nil => simp [piecesText]
  | cons p ps ih =>
    have hp : 0 < p.text.length := by cases p <;> simp [Piece.text]
    rw [piecesText_cons, List.length_append, List.length_cons]
    omega

/-! ## Numerals -/

/-- At least one decimal digit. -/
structure Digits where
  chars : List Char
  ne_nil : chars ≠ []
  digit : ∀ c ∈ chars, c.isDigit = true

/-- The exponent of a numeral. -/
structure Exponent where
  mark : Char
  sign : List Char
  digits : Digits
  mark_known : mark = 'e' ∨ mark = 'E'
  sign_known : sign = [] ∨ sign = ['+'] ∨ sign = ['-']

/-- A numeral; what stands before the point has no zero at its head unless it is one. -/
structure Numeral where
  negative : Bool
  whole : Digits
  fraction : Option Digits
  exponent : Option Exponent
  whole_short : whole.chars = ['0'] ∨ whole.chars.head? ≠ some '0'

/-- An exponent, if there is one, before a text. -/
def exponentText : Option Exponent → List Char → List Char
  | none, rest => rest
  | some e, rest => e.mark :: (e.sign ++ (e.digits.chars ++ rest))

/-- A fraction, if there is one, before a text. -/
def fractionText : Option Digits → List Char → List Char
  | none, rest => rest
  | some f, rest => '.' :: (f.chars ++ rest)

namespace Numeral

/-- A numeral without its sign, before a text. -/
def body (n : Numeral) (rest : List Char) : List Char :=
  n.whole.chars ++ fractionText n.fraction (exponentText n.exponent rest)

def text (n : Numeral) (rest : List Char) : List Char :=
  (if n.negative then ['-'] else []) ++ n.body rest

/-- The natural number that a numeral without sign, fraction and exponent writes. -/
def natural? (n : Numeral) : Option Nat :=
  if n.negative || n.fraction.isSome || n.exponent.isSome then none
  else some (Nat.ofDigitChars 10 n.whole.chars 0)

end Numeral

theorem Digits.exists_cons (d : Digits) :
    ∃ c cs, d.chars = c :: cs ∧ c.isDigit = true ∧ ∀ c ∈ cs, c.isDigit = true := by
  obtain ⟨c, cs, hcons⟩ := List.exists_cons_of_ne_nil d.ne_nil
  have hall := d.digit
  rw [hcons, List.forall_mem_cons] at hall
  exact ⟨c, cs, hcons, hall⟩

/-- Before the point stands a zero, or digits of which the first is none. -/
theorem Numeral.whole_cases (n : Numeral) : n.whole.chars = ['0'] ∨ ∃ c cs k,
    n.whole.chars = c :: cs ∧ (∀ c ∈ cs, c.isDigit = true) ∧ c.isDigit = true ∧
      c.toNat - '0'.toNat = k + 1 := by
  obtain ⟨c, cs, hcons, hc, hcs⟩ := n.whole.exists_cons
  have hshort := n.whole_short
  rw [hcons] at hshort ⊢
  rcases hshort with hzero | hhead
  · exact .inl hzero
  · have hne : c ≠ '0' := by simpa using hhead
    have hcode : c.toNat ≠ '0'.toNat := mt Char.toNat_inj.mp hne
    have hrange := Char.isDigit_iff_toNat.mp hc
    have hzero : '0'.toNat = 48 := rfl
    exact .inr ⟨c, cs, c.toNat - '0'.toNat - 1, rfl, hcs, hc, by omega⟩

section

variable {rest : List Char} (hrest : Delimited rest)
include hrest

theorem beginsWithDigit_exponentText (exponent : Option Exponent) :
    beginsWithDigit (exponentText exponent rest) = false := by
  cases exponent with
  | none => exact hrest.beginsWithDigit_eq_false
  | some e =>
    rw [exponentText]
    rcases e.mark_known with h | h <;> (rw [h]; rfl)

theorem beginsWithDigit_fractionText (fraction : Option Digits) (exponent : Option Exponent) :
    beginsWithDigit (fractionText fraction (exponentText exponent rest)) = false := by
  cases fraction with
  | none => exact beginsWithDigit_exponentText hrest exponent
  | some f => rfl

end

/-! ## Values -/

mutual

/-- A value as it is written. -/
inductive Value where
  | null
  | bool (b : Bool)
  | number (n : Numeral)
  | string (ps : List Piece)
  | array (items : Items)
  | object (members : Members)

/-- What follows the opening bracket of a list. -/
inductive Items where
  | close (gap : Blanks)
  | item (separator : Separator) (v : Value) (more : Items)

/-- What follows the opening brace of an object. -/
inductive Members where
  | close (gap : Blanks)
  | member (separator : Separator) (key : List Piece) (colon : Separator) (v : Value)
      (more : Members)

end

/-- The comma before every item but the first. -/
def comma (first : Bool) : List Char :=
  if first then [] else [',']

mutual

/-- A value before a text. -/
def Value.text : Value → List Char → List Char
  | .null, rest => 'n' :: 'u' :: 'l' :: 'l' :: rest
  | .bool true, rest => 't' :: 'r' :: 'u' :: 'e' :: rest
  | .bool false, rest => 'f' :: 'a' :: 'l' :: 's' :: 'e' :: rest
  | .number n, rest => n.text rest
  | .string ps, rest => '\x22' :: piecesText ps rest
  | .array items, rest => '[' :: items.text true rest
  | .object members, rest => '\x7b' :: members.text true rest

def Items.text : Items → Bool → List Char → List Char
  | .close gap, _, rest => gap.chars ++ ']' :: rest
  | .item separator v more, first, rest =>
    separator.text (comma first) (v.text (more.text false rest))

def Members.text : Members → Bool → List Char → List Char
  | .close gap, _, rest => gap.chars ++ '\x7d' :: rest
  | .member separator key colon v more, first, rest =>
    separator.text (comma first)
      ('\x22' :: piecesText key (colon.text [':'] (v.text (more.text false rest))))

end

mutual

/-- The number of values in a value, itself included. -/
def Value.size : Value → Nat
  | .array items => items.size + 1
  | .object members => members.size + 1
  | _ => 1

def Items.size : Items → Nat
  | .close _ => 0
  | .item _ v more => more.size + v.size

def Members.size : Members → Nat
  | .close _ => 0
  | .member _ _ _ v more => more.size + v.size

end

theorem Items.delimited_text (items : Items) (rest : List Char) :
    Delimited (items.text false rest) := by
  cases items with
  | close gap => exact gap.delimited_append (.bracket rest)
  | item separator v more => exact separator.before.delimited_append (.comma _)

theorem Members.delimited_text (members : Members) (rest : List Char) :
    Delimited (members.text false rest) := by
  cases members with
  | close gap => exact gap.delimited_append (.brace rest)
  | member separator key colon v more => exact separator.before.delimited_append (.comma _)

theorem Numeral.exists_text (n : Numeral) (rest : List Char) : ∃ c cs, n.text rest = c :: cs ∧
    (n.negative = true ∧ c = '-' ∧ cs = n.body rest ∨
      n.negative = false ∧ c.isDigit = true ∧ c :: cs = n.body rest) := by
  unfold Numeral.text
  cases n.negative with
  | true => exact ⟨'-', n.body rest, rfl, .inl ⟨rfl, rfl, rfl⟩⟩
  | false =>
    obtain ⟨c, cs, hcons, hc, -⟩ := n.whole.exists_cons
    have hbody : n.body rest =
        c :: (cs ++ fractionText n.fraction (exponentText n.exponent rest)) := by
      rw [Numeral.body, hcons, List.cons_append]
    exact ⟨c, _, hbody, .inr ⟨rfl, hc, hbody.symm⟩⟩

/-- A character that a value may begin with. -/
structure BeginsValue (c : Char) : Prop where
  unspaced : isSpace c = false
  ne_bracket : c ≠ ']'
  ne_brace : c ≠ '\x7d'

theorem Value.exists_text (v : Value) (rest : List Char) :
    ∃ c cs, v.text rest = c :: cs ∧ BeginsValue c := by
  cases v with
  | number n =>
    obtain ⟨c, cs, htext, ⟨-, rfl, -⟩ | ⟨-, hc, -⟩⟩ := n.exists_text rest
    · exact ⟨'-', cs, htext, by decide, by decide, by decide⟩
    · refine ⟨c, cs, htext, isSpace_of_isDigit hc, ?_, ?_⟩ <;>
      · rintro rfl
        cases hc
  | bool b => cases b <;> exact ⟨_, _, rfl, by decide, by decide, by decide⟩
  | _ => exact ⟨_, _, rfl, by decide, by decide, by decide⟩

theorem Value.unspaced_text (v : Value) (rest : List Char) : Unspaced (v.text rest) := by
  obtain ⟨c, cs, htext, hc⟩ := v.exists_text rest
  rw [htext]
  rintro d ⟨⟩
  exact hc.unspaced

theorem unspaced_cons {c : Char} (hc : isSpace c = false) (cs : List Char) :
    Unspaced (c :: cs) := by
  rintro d ⟨⟩
  exact hc

theorem Separator.skipSpaces_blank (s : Separator) {rest : List Char} (h : Unspaced rest)
    (offset : Nat) : ∃ offset', Cursor.skipSpaces ⟨offset, s.text [] rest⟩ = ⟨offset', rest⟩ := by
  obtain ⟨offset', hskip⟩ := (s.before.append s.after).skipSpaces_append h offset
  refine ⟨offset', ?_⟩
  rw [← hskip, Blanks.append, List.append_assoc]
  rfl

theorem Separator.skipSpaces_mark (s : Separator) {mark : Char} (hmark : isSpace mark = false)
    (rest : List Char) (offset : Nat) : ∃ offset',
      Cursor.skipSpaces ⟨offset, s.text [mark] rest⟩ = ⟨offset', mark :: (s.after.chars ++ rest)⟩ :=
  s.before.skipSpaces_append (unspaced_cons hmark _) offset

theorem Separator.skipSpaces_comma (s : Separator) (rest : List Char) (offset : Nat) : ∃ offset',
    Cursor.skipSpaces ⟨offset, s.text [','] rest⟩ = ⟨offset', ',' :: (s.after.chars ++ rest)⟩ :=
  s.skipSpaces_mark (by decide) rest offset

theorem Blanks.skipSpaces_bracket (gap : Blanks) (rest : List Char) (offset : Nat) : ∃ offset',
    Cursor.skipSpaces ⟨offset, gap.chars ++ ']' :: rest⟩ = ⟨offset', ']' :: rest⟩ :=
  gap.skipSpaces_append (unspaced_cons (by decide) rest) offset

theorem Blanks.skipSpaces_brace (gap : Blanks) (rest : List Char) (offset : Nat) : ∃ offset',
    Cursor.skipSpaces ⟨offset, gap.chars ++ '\x7d' :: rest⟩ = ⟨offset', '\x7d' :: rest⟩ :=
  gap.skipSpaces_append (unspaced_cons (by decide) rest) offset

theorem Separator.readColon_text (s : Separator) (rest : List Char) (offset : Nat) :
    ∃ offset', readColon ⟨offset, s.text [':'] rest⟩ = .ok ⟨offset', s.after.chars ++ rest⟩ := by
  obtain ⟨offset', hskip⟩ := s.skipSpaces_mark (by decide : isSpace ':' = false) rest offset
  refine ⟨offset' + 1, ?_⟩
  simp only [readColon, hskip]

theorem beginsValue_quote : BeginsValue '\x22' := by
  constructor <;> decide

/-! ## Sizes -/

theorem Separator.length_le_text (s : Separator) (mark rest : List Char) :
    rest.length ≤ (s.text mark rest).length := by
  simp only [Separator.text, List.length_append]
  omega

theorem Numeral.length_lt_text (n : Numeral) (rest : List Char) :
    rest.length < (n.text rest).length := by
  have hexponent : rest.length ≤ (exponentText n.exponent rest).length := by
    cases n.exponent with
    | none => exact Nat.le_refl _
    | some e =>
      simp only [exponentText, List.length_cons, List.length_append]
      omega
  have hfraction : (exponentText n.exponent rest).length ≤
      (fractionText n.fraction (exponentText n.exponent rest)).length := by
    cases n.fraction with
    | none => exact Nat.le_refl _
    | some f =>
      simp only [fractionText, List.length_cons, List.length_append]
      omega
  have hwhole := List.length_pos_iff.mpr n.whole.ne_nil
  simp only [Numeral.text, Numeral.body, List.length_append]
  omega

mutual

/-- Every value takes at least one character. -/
theorem Value.size_add_length_le : (v : Value) → (rest : List Char) →
    v.size + rest.length ≤ (v.text rest).length
  | .null, rest => by
    simp only [Value.size, Value.text, List.length_cons]
    omega
  | .bool b, rest => by
    cases b <;>
    · simp only [Value.size, Value.text, List.length_cons]
      omega
  | .number n, rest => by
    have := n.length_lt_text rest
    simp only [Value.size, Value.text]
    omega
  | .string ps, rest => by
    simp only [Value.size, Value.text, piecesText, List.length_cons, List.length_append]
    omega
  | .array items, rest => by
    have := items.size_add_length_le true rest
    simp only [Value.size, Value.text, List.length_cons]
    omega
  | .object members, rest => by
    have := members.size_add_length_le true rest
    simp only [Value.size, Value.text, List.length_cons]
    omega

theorem Items.size_add_length_le : (items : Items) → (first : Bool) → (rest : List Char) →
    items.size + rest.length ≤ (items.text first rest).length
  | .close gap, first, rest => by
    simp only [Items.size, Items.text, List.length_append, List.length_cons]
    omega
  | .item separator v more, first, rest => by
    have := separator.length_le_text (comma first) (v.text (more.text false rest))
    have := v.size_add_length_le (more.text false rest)
    have := more.size_add_length_le false rest
    simp only [Items.size, Items.text]
    omega

theorem Members.size_add_length_le : (members : Members) → (first : Bool) → (rest : List Char) →
    members.size + rest.length ≤ (members.text first rest).length
  | .close gap, first, rest => by
    simp only [Members.size, Members.text, List.length_append, List.length_cons]
    omega
  | .member separator key colon v more, first, rest => by
    have := separator.length_le_text (comma first)
      ('\x22' :: piecesText key (colon.text [':'] (v.text (more.text false rest))))
    have := colon.length_le_text [':'] (v.text (more.text false rest))
    have := v.size_add_length_le (more.text false rest)
    have := more.size_add_length_le false rest
    simp only [Members.size, Members.text, piecesText, List.length_cons, List.length_append] at *
    omega

end

/-- The keys and the values of an object. A key may stand for no string. -/
def Members.entries : Members → List (Option String × Value)
  | .close _ => []
  | .member _ key _ v more => (stringOf? key, v) :: more.entries

theorem Members.length_entries_lt : (members : Members) → (first : Bool) → (rest : List Char) →
    members.entries.length < (members.text first rest).length
  | .close gap, first, rest => by
    simp only [Members.entries, Members.text, List.length_append, List.length_cons, List.length_nil]
    omega
  | .member separator key colon v more, first, rest => by
    have := separator.length_le_text (comma first)
      ('\x22' :: piecesText key (colon.text [':'] (v.text (more.text false rest))))
    have := colon.length_le_text [':'] (v.text (more.text false rest))
    have := v.size_add_length_le (more.text false rest)
    have := more.length_entries_lt false rest
    simp only [Members.entries, Members.text, piecesText, List.length_cons, List.length_append] at *
    omega

end DiagramView.Json
