import DiagramView.Json.Decode

/-!
# Written values are read back

Strings, numbers and truth values are written so that the reader of their kind takes exactly what
was written and gives back the value (`Json.Reads`). A string ends with its own quotation mark. A
numeral ends where no digit, point or exponent follows, so that what comes next matters there: a
comma, a closing bracket or brace, a blank, or nothing (`Json.Delimited`).

The readers count bytes for their messages. No statement here depends on that count.
-/

namespace DiagramView.Json

variable {α : Type}

/-- A reader takes a written text for a value, and stops behind it. -/
def Reads (reader : Cursor → Except Failure (α × Cursor)) (written : List Char) (x : α)
    (rest : List Char) : Prop :=
  ∀ offset, ∃ offset', reader ⟨offset, written ++ rest⟩ = .ok (x, ⟨offset', rest⟩)

/-- What may follow a value. -/
inductive Delimited : List Char → Prop where
  | nil : Delimited []
  | comma (rest : List Char) : Delimited (',' :: rest)
  | brace (rest : List Char) : Delimited ('\x7d' :: rest)
  | bracket (rest : List Char) : Delimited (']' :: rest)
  | space {c : Char} (hc : isSpace c = true) (rest : List Char) : Delimited (c :: rest)

theorem skipSpaces_cons {c : Char} (hc : isSpace c = false) (offset : Nat) (cs : List Char) :
    Cursor.skipSpaces ⟨offset, c :: cs⟩ = ⟨offset, c :: cs⟩ := by
  simp [Cursor.skipSpaces, skipSpacesFrom, hc]

/-! ## Strings -/

theorem hexValue?_digitChar : ∀ n < 16, hexValue? (Nat.digitChar n) = some n := by
  decide

theorem hexValue?_hexDigit (n : Nat) : hexValue? (hexDigit n) = some (n % 16) :=
  hexValue?_digitChar (n % 16) (Nat.mod_lt n (by decide))

/-- A control character is escaped by its code point, which is read back. -/
theorem readEscape_code {c : Char} (hc : c.toNat < 0x20) (offset : Nat) (rest : List Char) :
    ∃ offset', readEscape ⟨offset, 'u' :: '0' :: '0' :: hexDigit (c.toNat / 16) ::
      hexDigit c.toNat :: rest⟩ = .ok (c, ⟨offset', rest⟩) := by
  have hzero : hexValue? '0' = some 0 := by decide
  have hhigh : c.toNat / 16 % 16 = c.toNat / 16 := by omega
  have hcode : ((0 * 16 + 0) * 16 + c.toNat / 16) * 16 + c.toNat % 16 = c.toNat := by omega
  have htrailing : isTrailingSurrogate c.toNat = false := by
    simp [isTrailingSurrogate]
    omega
  have hleading : isLeadingSurrogate c.toNat = false := by
    simp [isLeadingSurrogate]
    omega
  refine ⟨offset + 'u'.utf8Size + 4, ?_⟩
  simp only [readEscape, ↓reduceIte, readUnicodeEscape, Cursor.past, readHex, hzero,
    hexValue?_hexDigit, hhigh, bind, Except.bind, hcode, htrailing, hleading, Bool.false_eq_true,
    Char.ofNat_toNat]

theorem readStringFrom_escape {c x : Char} (hc : simpleEscape? c = some x) (bound offset : Nat)
    (rest : List Char) :
    ∃ offset', readStringFrom (bound + 1) ⟨offset, '\\' :: c :: rest⟩ =
      (readStringFrom bound ⟨offset', rest⟩).bind fun r => .ok (x :: r.1, r.2) := by
  have hnotCode : c ≠ 'u' := by
    rintro rfl
    have hnone : simpleEscape? 'u' = none := by decide
    rw [hnone] at hc
    cases hc
  refine ⟨offset + '\\'.utf8Size + c.utf8Size, ?_⟩
  simp only [readStringFrom, Cursor.past, readEscape, hnotCode, hc, bind, Except.bind, ↓reduceIte]
  rfl

/-- A character is written with a letter that stands for it, by its code point, or as it is. -/
theorem writeChar_cases (c : Char) :
    (∃ letter, simpleEscape? letter = some c ∧ writeChar c = ['\\', letter]) ∨
      (c.toNat < 0x20 ∧ writeChar c =
        ['\\', 'u', '0', '0', hexDigit (c.toNat / 16), hexDigit c.toNat]) ∨
      (c ≠ '\x22' ∧ c ≠ '\\' ∧ ¬c.toNat < 0x20 ∧ writeChar c = [c]) := by
  unfold writeChar
  iterate 7
    split
    · next hc =>
      subst hc
      exact .inl ⟨_, by decide, rfl⟩
  split
  · next hcontrol => exact .inr (.inl ⟨hcontrol, rfl⟩)
  · next hquote hbackslash _ _ _ _ _ hcontrol =>
    exact .inr (.inr ⟨hquote, hbackslash, hcontrol, rfl⟩)

theorem readStringFrom_writeChar (c : Char) (bound offset : Nat) (rest : List Char) :
    ∃ offset', readStringFrom (bound + 1) ⟨offset, writeChar c ++ rest⟩ =
      (readStringFrom bound ⟨offset', rest⟩).bind fun r => .ok (c :: r.1, r.2) := by
  rcases writeChar_cases c with
    ⟨letter, hletter, hwrite⟩ | ⟨hcontrol, hwrite⟩ | ⟨hquote, hbackslash, hcontrol, hwrite⟩ <;>
    rw [hwrite]
  · exact readStringFrom_escape hletter bound offset rest
  · obtain ⟨offset', hescape⟩ := readEscape_code hcontrol (offset + '\\'.utf8Size) rest
    refine ⟨offset', ?_⟩
    simp only [List.cons_append, List.nil_append, readStringFrom, Cursor.past, hescape, bind,
      Except.bind, ↓reduceIte]
    rfl
  · refine ⟨offset + c.utf8Size, ?_⟩
    simp only [List.cons_append, List.nil_append, readStringFrom, Cursor.past, hquote, hbackslash,
      hcontrol, ↓reduceIte]
    rfl

theorem readStringFrom_written (cs rest : List Char) (bound offset : Nat)
    (hbound : cs.length < bound) :
    ∃ offset', readStringFrom bound ⟨offset, cs.flatMap writeChar ++ '\x22' :: rest⟩ =
      .ok (cs, ⟨offset', rest⟩) := by
  induction cs generalizing bound offset with
  | nil =>
    obtain ⟨bound, rfl⟩ : ∃ n, bound = n + 1 := ⟨bound - 1, by simp at hbound; omega⟩
    exact ⟨_, rfl⟩
  | cons c cs ih =>
    obtain ⟨bound, rfl⟩ : ∃ n, bound = n + 1 := ⟨bound - 1, by simp at hbound; omega⟩
    have hrest : cs.length < bound := by simpa using hbound
    rw [List.flatMap_cons, List.append_assoc]
    obtain ⟨behind, hc⟩ := readStringFrom_writeChar c bound offset
      (cs.flatMap writeChar ++ '\x22' :: rest)
    obtain ⟨offset', hcs⟩ := ih bound behind hrest
    refine ⟨offset', ?_⟩
    rw [hc, hcs]
    rfl

theorem length_le_flatMap_writeChar (cs : List Char) :
    cs.length ≤ (cs.flatMap writeChar).length := by
  have hchar : ∀ c, 1 ≤ (writeChar c).length := by
    intro c
    rcases writeChar_cases c with ⟨letter, -, hwrite⟩ | ⟨-, hwrite⟩ | ⟨-, -, -, hwrite⟩ <;>
      simp [hwrite]
  induction cs with
  | nil => simp
  | cons c cs ih =>
    have hc := hchar c
    rw [List.flatMap_cons, List.length_append, List.length_cons]
    omega

/-- Behind its opening quotation mark a written string is read back. -/
theorem reads_string (s : String) (rest : List Char) :
    Reads readString (s.toList.flatMap writeChar ++ ['\x22']) s rest := by
  intro offset
  have hlength := length_le_flatMap_writeChar s.toList
  obtain ⟨offset', hread⟩ := readStringFrom_written s.toList rest
    ((s.toList.flatMap writeChar ++ '\x22' :: rest).length + 1) offset
    (by rw [List.length_append]; omega)
  refine ⟨offset', ?_⟩
  rw [List.append_assoc]
  simp only [readString, bind, Except.bind, List.singleton_append, hread, String.ofList_toList]

theorem reads_text (s : String) (rest : List Char) : Reads readText (writeString s) s rest := by
  intro offset
  obtain ⟨offset', hread⟩ := reads_string s rest (offset + 1)
  refine ⟨offset', ?_⟩
  rw [writeString, List.cons_append, List.cons_append, readText, skipSpaces_cons (by decide)]
  exact hread

/-! ## Letters -/

theorem reads_bool (b : Bool) (rest : List Char) : Reads readBool (writeBool b) b rest := by
  intro offset
  cases b <;> exact ⟨_, rfl⟩

/-! ## Numbers -/

theorem eq_of_isSpace {c : Char} (hc : isSpace c = true) :
    c = ' ' ∨ c = '\n' ∨ c = '\t' ∨ c = '\r' := by
  simpa [isSpace, or_assoc] using hc

theorem Delimited.realPartsNext_eq_false {rest : List Char} (h : Delimited rest) :
    realPartsNext rest = false := by
  cases h with
  | space hc => rcases eq_of_isSpace hc with rfl | rfl | rfl | rfl <;> rfl
  | _ => rfl

theorem Delimited.beginsWithDigit_eq_false {rest : List Char} (h : Delimited rest) :
    beginsWithDigit rest = false := by
  cases h with
  | space hc => rcases eq_of_isSpace hc with rfl | rfl | rfl | rfl <;> rfl
  | _ => rfl

theorem digitValue?_of_isDigit {c : Char} (hc : c.isDigit = true) :
    digitValue? c = some (c.toNat - '0'.toNat) := by
  have hrange : '0' ≤ c ∧ c ≤ '9' := by
    simp only [Char.isDigit, Bool.and_eq_true, decide_eq_true_eq] at hc
    exact hc
  simp only [digitValue?, hrange, and_self, ↓reduceIte]

theorem isSpace_of_isDigit {c : Char} (hc : c.isDigit = true) : isSpace c = false := by
  rw [Bool.eq_false_iff]
  intro hspace
  simp only [isSpace, Bool.or_eq_true, beq_iff_eq] at hspace
  rcases hspace with ((rfl | rfl) | rfl) | rfl <;> cases hc

theorem le_ofDigitChars (cs : List Char) (n : Nat) : n ≤ Nat.ofDigitChars 10 cs n := by
  induction cs generalizing n with
  | nil => exact Nat.le_refl n
  | cons c cs ih =>
    rw [Nat.ofDigitChars_cons]
    have hrest := ih (10 * n + (c.toNat - '0'.toNat))
    omega

/-- Digits whose value 64 bits hold are gathered to the last one. -/
theorem gatherDigits_append {digits rest : List Char} (hdigits : ∀ c ∈ digits, c.isDigit = true)
    (hrest : beginsWithDigit rest = false) (significand count offset : Nat)
    (hfits : Nat.ofDigitChars 10 digits significand ≤ maxSignificand) :
    ∃ count' offset', gatherDigits significand count offset (digits ++ rest) =
      ⟨Nat.ofDigitChars 10 digits significand, count', false, ⟨offset', rest⟩⟩ := by
  induction digits generalizing significand count offset with
  | nil =>
    refine ⟨count, offset, ?_⟩
    cases rest with
    | nil => rfl
    | cons c cs =>
      have hnone : digitValue? c = none := by simpa [beginsWithDigit] using hrest
      simp [gatherDigits, hnone]
  | cons c cs ih =>
    obtain ⟨hc, hcs⟩ := List.forall_mem_cons.mp hdigits
    rw [Nat.ofDigitChars_cons, Nat.mul_comm] at hfits ⊢
    have hstep : ¬ maxSignificand < significand * 10 + (c.toNat - '0'.toNat) :=
      Nat.not_lt_of_le (Nat.le_trans (le_ofDigitChars cs _) hfits)
    obtain ⟨count', offset', hgather⟩ := ih hcs _ (count + 1) (offset + 1) hfits
    refine ⟨count', offset', ?_⟩
    simp only [List.cons_append, gatherDigits, digitValue?_of_isDigit hc, if_neg hstep, hgather]

theorem isDigit_of_mem_toDigits {n : Nat} {c : Char} (hc : c ∈ Nat.toDigits 10 n) :
    c.isDigit = true :=
  Nat.isDigit_of_mem_toDigits (by decide) (by decide) hc

theorem digitChar_ne_zero : ∀ n < 10, 0 < n → (Nat.digitChar n).toNat - '0'.toNat ≠ 0 := by
  decide

/-- A number other than zero is written without a leading zero. -/
theorem toDigits_eq_cons {n : Nat} (hn : 0 < n) :
    ∃ c cs, Nat.toDigits 10 n = c :: cs ∧ c.toNat - '0'.toNat ≠ 0 := by
  induction n using Nat.strongRecOn with
  | ind n ih =>
    rw [Nat.toDigits_eq_if (by decide)]
    split
    · next hlt => exact ⟨_, [], rfl, digitChar_ne_zero n hlt hn⟩
    · next hge =>
      obtain ⟨c, cs, hdigits, hc⟩ := ih (n / 10) (by omega) (by omega)
      exact ⟨c, cs ++ [Nat.digitChar (n % 10)], by rw [hdigits, List.cons_append], hc⟩

/-- The digits of a whole number that 64 bits hold are read back, with the sign before them. -/
theorem reads_numeral (positive : Bool) {n : Nat} (hn : n ≤ maxSignificand) {rest : List Char}
    (hrest : Delimited rest) :
    Reads (readNumeral positive) (Nat.toDigits 10 n) (wholeNumber positive n) rest := by
  intro offset
  by_cases hzero : n = 0
  · subst hzero
    refine ⟨offset + 1, ?_⟩
    have hdigit : digitValue? '0' = some 0 := by decide
    rw [show Nat.toDigits 10 0 = ['0'] from rfl, List.singleton_append]
    simp only [readNumeral, hdigit, hrest.beginsWithDigit_eq_false, readAfterInteger,
      hrest.realPartsNext_eq_false, Bool.false_eq_true, ↓reduceIte]
  · obtain ⟨c, cs, hdigits, hc⟩ := toDigits_eq_cons (Nat.pos_of_ne_zero hzero)
    have hall : ∀ d ∈ c :: cs, d.isDigit = true := by
      intro d hd
      exact isDigit_of_mem_toDigits (hdigits ▸ hd)
    obtain ⟨hfirst, hothers⟩ := List.forall_mem_cons.mp hall
    have hvalue : Nat.ofDigitChars 10 cs (c.toNat - '0'.toNat) = n := by
      have hwhole : Nat.ofDigitChars 10 (c :: cs) 0 = n := by
        rw [← hdigits]
        exact Nat.ofDigitChars_ten_toDigits
      simpa [Nat.ofDigitChars_cons] using hwhole
    obtain ⟨count', offset', hgather⟩ := gatherDigits_append hothers hrest.beginsWithDigit_eq_false
      (c.toNat - '0'.toNat) 0 (offset + 1) (by rw [hvalue]; exact hn)
    rw [hvalue] at hgather
    refine ⟨offset', ?_⟩
    rw [hdigits, List.cons_append]
    obtain ⟨d, hd⟩ := Nat.exists_eq_succ_of_ne_zero hc
    rw [hd] at hgather
    simp only [readNumeral, digitValue?_of_isDigit hfirst, hd, hgather, readAfterInteger,
      hrest.realPartsNext_eq_false, Bool.false_eq_true, ↓reduceIte]

/-- A number that is not negative is read as what its type has for it. -/
theorem reads_wholeNumber {expected : String} {fit : Int → Option α} {n : Nat} {x : α}
    (hfit : fit n = some x) (hn : n ≤ maxSignificand) {rest : List Char} (hrest : Delimited rest) :
    Reads (readWholeNumber expected fit) (Nat.toDigits 10 n) x rest := by
  intro offset
  obtain ⟨offset', hread⟩ := reads_numeral true hn hrest offset
  refine ⟨offset', ?_⟩
  obtain ⟨c, cs, hdigits⟩ : ∃ c cs, Nat.toDigits 10 n = c :: cs :=
    List.exists_cons_of_ne_nil Nat.toDigits_ne_nil
  have hc : c.isDigit = true := isDigit_of_mem_toDigits (hdigits ▸ List.mem_cons_self)
  have hvalue := digitValue?_of_isDigit hc
  have hspace := isSpace_of_isDigit hc
  have hminus : c ≠ '-' := by
    rintro rfl
    cases hc
  have hword : (UInt64.ofNat n).toNat = n := by
    refine UInt64.toNat_ofNat_of_lt ?_
    simp only [maxSignificand] at hn
    have hsize : 0 < UInt64.size := by decide
    omega
  rw [hdigits, List.cons_append] at hread ⊢
  simp only [readWholeNumber, skipSpaces_cons hspace, hminus, hvalue, Option.isSome_some, hread,
    bind, Except.bind, wholeNumber, ↓reduceIte, Nat.toUInt64, hword, hfit]

theorem toInt_ofInt_neg {n : Nat} (hn : n ≤ Int64.size / 2) :
    (Int64.ofInt (-n)).toInt = -n := by
  have hhalf : Int64.size / 2 = 9223372036854775808 := by decide
  refine Int64.toInt_ofInt_of_le ?_ ?_
  · omega
  · omega

/-- So is a negative number, behind its sign. -/
theorem reads_wholeNumber_neg {expected : String} {fit : Int → Option α} {n : Nat} {x : α}
    (hfit : fit (-n) = some x) (hpos : 0 < n) (hn : n ≤ Int64.size / 2) {rest : List Char}
    (hrest : Delimited rest) :
    Reads (readWholeNumber expected fit) ('-' :: Nat.toDigits 10 n) x rest := by
  intro offset
  have hsignificand : n ≤ maxSignificand :=
    Nat.le_trans hn (by decide)
  obtain ⟨offset', hread⟩ := reads_numeral false hsignificand hrest (offset + 1)
  refine ⟨offset', ?_⟩
  rw [List.cons_append, readWholeNumber, skipSpaces_cons (by decide)]
  simp only [↓reduceIte, hread, bind, Except.bind, wholeNumber, hpos, hn, and_self,
    Bool.false_eq_true, toInt_ofInt_neg hn, hfit]

end DiagramView.Json
