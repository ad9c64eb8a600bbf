import DiagramView.Proofs.JsonText

/-!
# Passing over values

A value is passed over whole, however deep it nests (`skipValue_text`), even where its strings hold
escapes that stand for no character. Nothing is kept of it but the frames that are still open, and
the head of a value leads to the next value or to the end (`nextTurn`).
-/

namespace DiagramView.Json

/-! ## Strings -/

section

variable (rest : List Char)

theorem skipStringFrom_piece (p : Piece) (bound offset : Nat) :
    ∃ offset', skipStringFrom (bound + 1) ⟨offset, p.text ++ rest⟩ =
      skipStringFrom bound ⟨offset', rest⟩ := by
  cases p with
  | plain c h =>
    refine ⟨offset + c.utf8Size, ?_⟩
    simp only [Piece.text, List.cons_append, List.nil_append, skipStringFrom, Cursor.past, h.1,
      h.2.1, h.2.2, ↓reduceIte]
  | letter c x h =>
    refine ⟨offset + '\\'.utf8Size + c.utf8Size, ?_⟩
    have hletter := simpleEscape?_ne_u h
    simp only [Piece.text, List.cons_append, List.nil_append, skipStringFrom, Cursor.past,
      skipEscape, hletter, h, Option.isSome_some, bind, Except.bind, ↓reduceIte]
    rfl
  | code a b c d n h =>
    refine ⟨offset + '\\'.utf8Size + 'u'.utf8Size + 4, ?_⟩
    simp only [Piece.text, List.cons_append, List.nil_append, skipStringFrom, Cursor.past,
      skipEscape, readHex_of_hexNumber? h, bind, Except.bind, pure, Except.pure, ↓reduceIte]
    rfl

theorem skipStringFrom_pieces (ps : List Piece) (bound offset : Nat) (hbound : ps.length < bound) :
    ∃ offset', skipStringFrom bound ⟨offset, piecesText ps rest⟩ = .ok ⟨offset', rest⟩ := by
  induction ps generalizing bound offset with
  | nil =>
    obtain ⟨bound, rfl⟩ := Nat.exists_eq_add_one_of_ne_zero (Nat.ne_zero_of_lt hbound)
    exact ⟨_, rfl⟩
  | cons p ps ih =>
    obtain ⟨bound, rfl⟩ := Nat.exists_eq_add_one_of_ne_zero (Nat.ne_zero_of_lt hbound)
    obtain ⟨behind, hstep⟩ := skipStringFrom_piece (piecesText ps rest) p bound offset
    rw [piecesText_cons, hstep]
    exact ih bound behind (by simpa using hbound)

theorem skipString_pieces (ps : List Piece) (offset : Nat) :
    ∃ offset', skipString ⟨offset, piecesText ps rest⟩ = .ok ⟨offset', rest⟩ := by
  have hlength := length_lt_piecesText ps rest
  exact skipStringFrom_pieces rest ps _ offset (by dsimp only; omega)

end

/-! ## Numerals -/

theorem skipDigits_append {digits rest : List Char} (hdigits : ∀ c ∈ digits, c.isDigit = true)
    (hrest : beginsWithDigit rest = false) (count offset : Nat) :
    ∃ offset', skipDigits count offset (digits ++ rest) =
      (count + digits.length, ⟨offset', rest⟩) := by
  induction digits generalizing count offset with
  | nil =>
    refine ⟨offset, ?_⟩
    cases rest with
    | nil => rfl
    | cons c cs =>
      have hc : (digitValue? c).isSome = false := hrest
      simp [skipDigits, hc]
  | cons c cs ih =>
    obtain ⟨hc, hcs⟩ := List.forall_mem_cons.mp hdigits
    obtain ⟨offset', hskip⟩ := ih hcs (count + 1) (offset + 1)
    refine ⟨offset', ?_⟩
    simp only [List.cons_append, skipDigits, digitValue?_of_isDigit hc, Option.isSome_some,
      ↓reduceIte, hskip, List.length_cons]
    rw [Nat.add_right_comm, Nat.add_assoc]

section

variable {rest : List Char} (hrest : Delimited rest)
include hrest

theorem Exponent.skipExponent_text (e : Exponent) (offset : Nat) :
    ∃ offset', skipExponent ⟨offset, e.sign ++ (e.digits.chars ++ rest)⟩ =
      .ok ⟨offset', rest⟩ := by
  obtain ⟨c, cs, hcons, hc, hcs⟩ := e.digits.exists_cons
  have hsign (sign : Bool) : c ≠ (if sign then '+' else '-') := by
    rintro rfl
    cases sign <;> cases hc
  have hvalue := digitValue?_of_isDigit hc
  have hread : ∃ raising offset', readExponentSign ⟨offset, e.sign ++ (c :: cs ++ rest)⟩ =
      (raising, ⟨offset', c :: (cs ++ rest)⟩) := by
    rcases e.sign_known with h | h | h
    · refine ⟨true, offset, ?_⟩
      rw [h]
      unfold readExponentSign
      dsimp only [List.nil_append, List.cons_append]
      split
      · next heq => exact absurd (List.cons.inj heq).1 (hsign true)
      · next heq => exact absurd (List.cons.inj heq).1 (hsign false)
      · rfl
    · exact ⟨true, offset + 1, by rw [h]; rfl⟩
    · exact ⟨false, offset + 1, by rw [h]; rfl⟩
  obtain ⟨raising, behind, hread⟩ := hread
  obtain ⟨offset', hskip⟩ :=
    skipDigits_append hcs hrest.beginsWithDigit_eq_false 0 (behind + 1)
  refine ⟨offset', ?_⟩
  rw [hcons]
  simp only [skipExponent, hread, hvalue, Option.isSome_some, ↓reduceIte, hskip]

theorem skipOptionalExponent_text (exponent : Option Exponent) (offset : Nat) :
    ∃ offset', skipOptionalExponent ⟨offset, exponentText exponent rest⟩ =
      .ok ⟨offset', rest⟩ := by
  cases exponent with
  | none =>
    refine ⟨offset, ?_⟩
    have hnext := hrest.realPartsNext_eq_false
    unfold skipOptionalExponent exponentText
    dsimp only
    split
    · cases hnext
    · cases hnext
    · rfl
  | some e =>
    obtain ⟨offset', hskip⟩ := e.skipExponent_text hrest (offset + 1)
    refine ⟨offset', ?_⟩
    rw [← hskip, exponentText]
    rcases e.mark_known with h | h <;> (rw [h]; rfl)

theorem skipRealParts_text (fraction : Option Digits) (exponent : Option Exponent) (offset : Nat) :
    ∃ offset', skipRealParts ⟨offset, fractionText fraction (exponentText exponent rest)⟩ =
      .ok ⟨offset', rest⟩ := by
  cases fraction with
  | none =>
    obtain ⟨offset', hskip⟩ := skipOptionalExponent_text hrest exponent offset
    refine ⟨offset', ?_⟩
    rw [← hskip]
    unfold skipRealParts fractionText
    dsimp only
    split
    · next heq =>
      -- neither an exponent nor what follows a value begins with a point
      cases exponent with
      | none =>
        have hnext := hrest.realPartsNext_eq_false
        rw [show rest = _ from heq] at hnext
        cases hnext
      | some e =>
        have hmark := (List.cons.inj heq).1
        rcases e.mark_known with h | h <;> (rw [h] at hmark; cases hmark)
    · rfl
  | some f =>
    obtain ⟨behind, hdigits⟩ :=
      skipDigits_append f.digit (beginsWithDigit_exponentText hrest exponent) 0 (offset + 1)
    obtain ⟨offset', hskip⟩ := skipOptionalExponent_text hrest exponent behind
    refine ⟨offset', ?_⟩
    have hne : ¬0 + f.chars.length = 0 := by
      rw [Nat.zero_add, List.length_eq_zero_iff]
      exact f.ne_nil
    simp only [skipRealParts, fractionText, hdigits, hne, ↓reduceIte, hskip]

theorem Numeral.skipNumeral_body (n : Numeral) (offset : Nat) :
    ∃ offset', skipNumeral ⟨offset, n.body rest⟩ = .ok ⟨offset', rest⟩ := by
  have htail := beginsWithDigit_fractionText hrest n.fraction n.exponent
  rw [Numeral.body]
  rcases n.whole_cases with hzero | ⟨c, cs, k, hcons, hcs, hc, hk⟩
  · obtain ⟨offset', hskip⟩ := skipRealParts_text hrest n.fraction n.exponent (offset + 1)
    refine ⟨offset', ?_⟩
    rw [hzero, List.singleton_append]
    simp only [skipNumeral, digitValue?_of_isDigit (by decide : '0'.isDigit = true), Nat.sub_self,
      htail, Bool.false_eq_true, ↓reduceIte, hskip]
  · obtain ⟨behind, hdigits⟩ := skipDigits_append hcs htail 0 (offset + 1)
    obtain ⟨offset', hskip⟩ := skipRealParts_text hrest n.fraction n.exponent behind
    refine ⟨offset', ?_⟩
    rw [hcons, List.cons_append]
    simp only [skipNumeral, digitValue?_of_isDigit hc, hk, hdigits, hskip]

end

/-! ## Values -/

/-- Goes on behind the head of a value. -/
def follow (bound : Nat) : Turn → Except Failure Cursor
  | .value frames cur => skipValueFrom bound frames cur
  | .done cur => .ok cur

/-- Passes over the head of a value, and over what closes behind it. -/
def skipHead (frames : List Frame) (c : Char) (cur next : Cursor) : Except Failure Turn :=
  if c = 'n' then readLetters ['u', 'l', 'l'] next >>= nextTurn true frames
  else if c = 't' then readLetters ['r', 'u', 'e'] next >>= nextTurn true frames
  else if c = 'f' then readLetters ['a', 'l', 's', 'e'] next >>= nextTurn true frames
  else if c = '-' then skipNumeral next >>= nextTurn true frames
  else if (digitValue? c).isSome then skipNumeral cur >>= nextTurn true frames
  else if c = '\x22' then skipString next >>= nextTurn true frames
  else if c = '[' then nextTurn false (.list :: frames) next
  else if c = '\x7b' then nextTurn false (.object :: frames) next
  else cur.failAhead .valueExpected

theorem skipValueFrom_cons (bound : Nat) (frames : List Frame) {cur : Cursor} {offset : Nat}
    {c : Char} {cs : List Char} (h : cur.skipSpaces = ⟨offset, c :: cs⟩) :
    skipValueFrom (bound + 1) frames cur =
      skipHead frames c ⟨offset, c :: cs⟩ ⟨offset + 1, cs⟩ >>= follow bound := by
  simp only [skipValueFrom, h, skipHead]
  repeat' split
  all_goals
    try rw [bind_assoc]
    rfl

section

variable {rest : List Char} (frames : List Frame)

theorem skipHead_numeral (hrest : Delimited rest) (n : Numeral) {c : Char} {cs : List Char}
    (htext : n.text rest = c :: cs) (offset : Nat) :
    ∃ offset', skipHead frames c ⟨offset, c :: cs⟩ ⟨offset + 1, cs⟩ =
      nextTurn true frames ⟨offset', rest⟩ := by
  obtain ⟨c', cs', htext', hcase⟩ := n.exists_text rest
  cases htext.symm.trans htext'
  rcases hcase with ⟨-, rfl, rfl⟩ | ⟨-, hc, hbody⟩
  · obtain ⟨offset', hskip⟩ := n.skipNumeral_body hrest (offset + 1)
    refine ⟨offset', ?_⟩
    simp only [skipHead, hskip, bind, Except.bind, ↓reduceIte]
    rfl
  · obtain ⟨offset', hskip⟩ := n.skipNumeral_body hrest offset
    have hother : ∀ d ∈ ['n', 't', 'f', '-'], c ≠ d := by
      rintro d hd rfl
      simp only [List.mem_cons, List.not_mem_nil, or_false] at hd
      rcases hd with rfl | rfl | rfl | rfl <;> cases hc
    refine ⟨offset', ?_⟩
    rw [hbody]
    simp only [skipHead, hother 'n' (by simp), hother 't' (by simp), hother 'f' (by simp),
      hother '-' (by simp), digitValue?_of_isDigit hc, Option.isSome_some, hskip, bind, Except.bind,
      ↓reduceIte]

/-- A separator leads into the innermost container. -/
theorem nextTurn_separator (frame : Frame) (separator : Separator) (first : Bool) {c : Char}
    (hc : BeginsValue c) (cs : List Char) (offset : Nat) :
    ∃ before : Blanks, ∃ offset', nextTurn (!first) (frame :: frames)
      ⟨offset, separator.text (comma first) (c :: cs)⟩ =
        enterFrame (frame :: frames) ⟨offset', before.chars ++ c :: cs⟩ := by
  cases first with
  | false =>
    obtain ⟨offset', hskip⟩ := separator.skipSpaces_comma (c :: cs) offset
    refine ⟨separator.after, offset' + 1, ?_⟩
    simp [comma, nextTurn, hskip]
  | true =>
    obtain ⟨offset', hskip⟩ := separator.skipSpaces_blank (unspaced_cons hc.unspaced cs) offset
    have hopen : frame.closedBy c = false := by
      cases frame with
      | list => simpa [Frame.closedBy] using hc.ne_bracket
      | object => simpa [Frame.closedBy] using hc.ne_brace
    refine ⟨.empty, offset', ?_⟩
    simp [comma, nextTurn, hskip, hopen, Blanks.empty]

theorem skipKey_text (before : Blanks) (key : List Piece) (colon : Separator) (text : List Char)
    (offset : Nat) : ∃ offset', skipKey
      ⟨offset, before.chars ++ '\x22' :: piecesText key (colon.text [':'] text)⟩ =
        .ok ⟨offset', colon.after.chars ++ text⟩ := by
  obtain ⟨behind, hskip⟩ := before.skipSpaces_append (unspaced_cons beginsValue_quote.unspaced
    (piecesText key (colon.text [':'] text))) offset
  obtain ⟨named, hkey⟩ := skipString_pieces (colon.text [':'] text) key (behind + 1)
  obtain ⟨offset', hcolon⟩ := colon.readColon_text text named
  refine ⟨offset', ?_⟩
  simp only [skipKey, hskip, hkey, hcolon, bind, Except.bind]

mutual

theorem skipValueFrom_text : (v : Value) → {rest : List Char} → Delimited rest →
    ∀ (frames : List Frame) (bound : Nat) (before : Blanks) (offset : Nat),
      ∃ offset', skipValueFrom (bound + v.size) frames ⟨offset, before.chars ++ v.text rest⟩ =
        nextTurn true frames ⟨offset', rest⟩ >>= follow bound
  | .null, rest, _, frames, bound, before, offset => by
    obtain ⟨behind, hskip⟩ := before.skipSpaces_append (Value.null.unspaced_text rest) offset
    exact ⟨behind + 4, skipValueFrom_cons bound frames hskip⟩
  | .bool b, rest, _, frames, bound, before, offset => by
    obtain ⟨behind, hskip⟩ := before.skipSpaces_append ((Value.bool b).unspaced_text rest) offset
    cases b with
    | true => exact ⟨behind + 4, skipValueFrom_cons bound frames hskip⟩
    | false => exact ⟨behind + 5, skipValueFrom_cons bound frames hskip⟩
  | .number n, rest, hrest, frames, bound, before, offset => by
    obtain ⟨behind, hskip⟩ := before.skipSpaces_append ((Value.number n).unspaced_text rest) offset
    obtain ⟨c, cs, htext, -⟩ := n.exists_text rest
    obtain ⟨offset', hhead⟩ := skipHead_numeral frames hrest n htext behind
    rw [Value.text] at hskip ⊢
    rw [htext] at hskip ⊢
    exact ⟨offset', (skipValueFrom_cons bound frames hskip).trans (by rw [hhead])⟩
  | .string ps, rest, _, frames, bound, before, offset => by
    obtain ⟨behind, hskip⟩ := before.skipSpaces_append ((Value.string ps).unspaced_text rest) offset
    obtain ⟨offset', hstring⟩ := skipString_pieces rest ps (behind + 1)
    refine ⟨offset', (skipValueFrom_cons bound frames hskip).trans ?_⟩
    simp [skipHead, digitValue?, hstring, bind, Except.bind]
  | .array items, rest, _, frames, bound, before, offset => by
    obtain ⟨behind, hskip⟩ :=
      before.skipSpaces_append ((Value.array items).unspaced_text rest) offset
    obtain ⟨offset', hitems⟩ := nextTurn_items items true frames bound rest (behind + 1)
    exact ⟨offset', (skipValueFrom_cons (bound + items.size) frames hskip).trans hitems⟩
  | .object members, rest, _, frames, bound, before, offset => by
    obtain ⟨behind, hskip⟩ :=
      before.skipSpaces_append ((Value.object members).unspaced_text rest) offset
    obtain ⟨offset', hmembers⟩ := nextTurn_members members true frames bound rest (behind + 1)
    exact ⟨offset', (skipValueFrom_cons (bound + members.size) frames hskip).trans hmembers⟩

theorem nextTurn_items : (items : Items) → ∀ (first : Bool) (frames : List Frame) (bound : Nat)
    (rest : List Char) (offset : Nat), ∃ offset',
      (nextTurn (!first) (.list :: frames) ⟨offset, items.text first rest⟩ >>=
        follow (bound + items.size)) = nextTurn true frames ⟨offset', rest⟩ >>= follow bound
  | .close gap, first, frames, bound, rest, offset => by
    obtain ⟨behind, hskip⟩ := gap.skipSpaces_bracket rest offset
    refine ⟨behind + 1, ?_⟩
    simp [Items.text, nextTurn, hskip, Frame.closedBy, Items.size]
  | .item separator v more, first, frames, bound, rest, offset => by
    obtain ⟨c, cs, htext, hc⟩ := v.exists_text (more.text false rest)
    obtain ⟨before, behind, hnext⟩ :=
      nextTurn_separator frames .list separator first hc cs offset
    rw [← htext] at hnext
    obtain ⟨settled, hvalue⟩ := skipValueFrom_text v (more.delimited_text rest) (.list :: frames)
      (bound + more.size) before behind
    obtain ⟨offset', hmore⟩ := nextTurn_items more false frames bound rest settled
    refine ⟨offset', ?_⟩
    rw [Items.text, hnext, Items.size, ← Nat.add_assoc]
    exact hvalue.trans hmore

theorem nextTurn_members : (members : Members) → ∀ (first : Bool) (frames : List Frame)
    (bound : Nat) (rest : List Char) (offset : Nat), ∃ offset',
      (nextTurn (!first) (.object :: frames) ⟨offset, members.text first rest⟩ >>=
        follow (bound + members.size)) = nextTurn true frames ⟨offset', rest⟩ >>= follow bound
  | .close gap, first, frames, bound, rest, offset => by
    obtain ⟨behind, hskip⟩ := gap.skipSpaces_brace rest offset
    refine ⟨behind + 1, ?_⟩
    simp [Members.text, nextTurn, hskip, Frame.closedBy, Members.size]
  | .member separator key colon v more, first, frames, bound, rest, offset => by
    obtain ⟨before, behind, hnext⟩ :=
      nextTurn_separator frames .object separator first beginsValue_quote
        (piecesText key (colon.text [':'] (v.text (more.text false rest)))) offset
    obtain ⟨named, hkey⟩ :=
      skipKey_text before key colon (v.text (more.text false rest)) behind
    obtain ⟨settled, hvalue⟩ := skipValueFrom_text v (more.delimited_text rest)
      (.object :: frames) (bound + more.size) colon.after named
    obtain ⟨offset', hmore⟩ := nextTurn_members more false frames bound rest settled
    refine ⟨offset', ?_⟩
    rw [Members.text, hnext, Members.size, ← Nat.add_assoc, enterFrame, hkey]
    exact hvalue.trans hmore

end

end

/-- A value is passed over whole. -/
theorem skipValue_text (v : Value) {rest : List Char} (hrest : Delimited rest) (before : Blanks)
    (offset : Nat) :
    ∃ offset', skipValue ⟨offset, before.chars ++ v.text rest⟩ = .ok ⟨offset', rest⟩ := by
  have hsize := v.size_add_length_le rest
  obtain ⟨bound, hbound⟩ : ∃ bound, (before.chars ++ v.text rest).length + 1 = bound + v.size := by
    refine ⟨(before.chars ++ v.text rest).length + 1 - v.size, ?_⟩
    rw [List.length_append]
    omega
  obtain ⟨offset', hskip⟩ := skipValueFrom_text v hrest [] bound before offset
  refine ⟨offset', ?_⟩
  rw [skipValue, hbound, hskip]
  rfl

end DiagramView.Json
