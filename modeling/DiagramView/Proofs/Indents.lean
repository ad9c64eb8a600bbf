import DiagramView.Proofs.KeywordGate
import DiagramView.Proofs.Renderings

/-!
# Indents in both notations

The indent of a line is a number or a numeral, with blanks around it or not. Up to 64 bits the two
mean the same, a level that is clamped to the greatest one (`indentLevel_natural`,
`indentLevel_numeral`). A numeral beyond 64 bits is none for the reader, and its line is not
indented at all; `indents_clamped` says that this is the one exception.
-/

namespace DiagramView

/-! ## Numerals -/

namespace Decimal

theorem digitsValue_toDigits (n : Nat) : digitsValue (Nat.toDigits 10 n) = n := by
  have hvalue : digitsValue (Nat.toDigits 10 n) = Nat.ofDigitChars 10 (Nat.toDigits 10 n) 0 := rfl
  rw [hvalue, Nat.ofDigitChars_ten_toDigits]

/-- The digits of a number are a numeral as long as 64 bits hold it. -/
theorem natural64?_toDigits (n : Nat) :
    natural64? (Nat.toDigits 10 n) = if n < UInt64.size then some n else none := by
  obtain ⟨c, cs, hdigits⟩ : ∃ c cs, Nat.toDigits 10 n = c :: cs :=
    List.exists_cons_of_ne_nil Nat.toDigits_ne_nil
  have hall : (Nat.toDigits 10 n).all Char.isDigit = true :=
    List.all_eq_true.mpr fun _ => Json.isDigit_of_mem_toDigits
  have hplus : c ≠ '+' := by
    rintro rfl
    cases Json.isDigit_of_mem_toDigits (hdigits ▸ List.mem_cons_self)
  have hvalue := digitsValue_toDigits n
  rw [hdigits] at hall hvalue ⊢
  simp [natural64?, hplus, hall, hvalue]

end Decimal

namespace Text

theorem isBlank_of_isDigit {c : Char} (hc : c.isDigit = true) : isBlank c = false := by
  have hrange : CodeRanges.has [(48, 57)] c = true := by
    simpa [CodeRanges.has] using Char.isDigit_iff_toNat.mp hc
  exact CodeRanges.has_eq_false (by decide) hrange

theorem isTrimmed_toDigits (n : Nat) : IsTrimmed (Nat.toDigits 10 n) := by
  have hdigit {c : Char} (hc : c ∈ Nat.toDigits 10 n) : isBlank c = false :=
    isBlank_of_isDigit (Json.isDigit_of_mem_toDigits hc)
  exact ⟨fun _ hc => hdigit (List.mem_of_head? hc), fun _ hc => hdigit (List.mem_of_getLast? hc)⟩

theorem trimChars_append {before after : List Char} (hbefore : ∀ c ∈ before, isBlank c = true)
    (hafter : ∀ c ∈ after, isBlank c = true) {cs : List Char} (hcs : cs ≠ []) (h : IsTrimmed cs) :
    trimChars (before ++ cs ++ after) = cs := by
  have hdrop : dropBlanks (before ++ cs ++ after) = cs ++ after := by
    obtain ⟨c, cs, rfl⟩ := List.exists_cons_of_ne_nil hcs
    rw [dropBlanks, List.append_assoc, List.dropWhile_append_of_pos hbefore]
    simp [h.head c rfl]
  rw [trimChars, hdrop, dropTrailingBlanks_append cs hafter, dropTrailingBlanks_eq_self h.last]

end Text

/-! ## Levels -/

open Diagram

theorem indentLevel_natural (m : UInt64) : indentLevel (.number (.natural m)) = min m.toNat 256 :=
  rfl

/-- A numeral with blanks around it stands for its number as long as 64 bits hold that. -/
theorem indentLevel_numeral {before after : String} (hbefore : Text.isBlankText before = true)
    (hafter : Text.isBlankText after = true) (n : Nat) :
    indentLevel (.string (before ++ toString n ++ after)) =
      if n < UInt64.size then min n 256 else 0 := by
  have htrim : Text.trimChars (before ++ toString n ++ after).toList = Nat.toDigits 10 n := by
    have hchars : (before ++ toString n ++ after).toList =
        before.toList ++ Nat.toDigits 10 n ++ after.toList := by
      simp
    rw [hchars]
    exact Text.trimChars_append (List.all_eq_true.mp hbefore) (List.all_eq_true.mp hafter)
      Nat.toDigits_ne_nil (Text.isTrimmed_toDigits n)
  simp only [indentLevel, htrim, Decimal.natural64?_toDigits, maxIndent]
  by_cases hn : n < UInt64.size
  · simp only [hn, ↓reduceIte, Option.getD_some]
  · simp only [hn, ↓reduceIte, Option.getD_none, Nat.zero_min]

namespace Json

variable {fields : List (String × Json)} {name : String} {v : Json}

theorem field?_setField_self : field? (setField fields name v) name = some v := by
  induction fields with
  | nil => simp [setField, field?]
  | cons entry rest ih =>
    by_cases hname : entry.1 = name
    · simp [setField, field?, hname]
    · simpa [setField, field?, hname] using ih

end Json

theorem indentOf_setField (fields : List (String × Json)) (v : Json) :
    indentOf (Json.setField fields "indent" v) = indentLevel v := by
  rw [indentOf, Json.field?_setField_self]

/-! ## Lines -/

/-- Among any other lines, an object is rendered in both ways with its text behind a number of
spaces. -/
def IndentedBy (spaces : Nat) (fields : List (String × Json)) : Prop :=
  ∀ before after : List Json,
    joinLines (before ++ .object fields :: after) =
      Text.join "\n" (before.map diagramLine ++
        (String.ofList (List.replicate spaces ' ') ++ (textOf? fields).getD "") ::
          after.map diagramLine) ∧
    renderExplanation (some (.array (before ++ .object fields :: after))) =
      Text.join "\n" (before.map explanationLine ++
        (String.ofList (List.replicate spaces ' ') ++
          (textOf? fields).getD (Json.object fields).compact) :: after.map explanationLine)

theorem indentedBy_iff {spaces : Nat} {fields : List (String × Json)} :
    IndentedBy spaces fields ↔ 2 * indentOf fields = spaces := by
  constructor
  · intro h
    have hline := congrArg String.length (h [] []).1
    simpa [joinLines, Text.join, diagramLine, indentation] using hline
  · rintro rfl before after
    simp [joinLines, renderExplanation, diagramLine, explanationLine_object, indentation]

/-- An indent that is given as a numeral, with blanks around it or not, is clamped exactly when 64
bits hold it, and then it counts like the number itself. A greater one is no indent at all. -/
theorem indents_clamped (fields : List (String × Json)) (n : Nat) {before after : String}
    (hbefore : Text.isBlankText before = true) (hafter : Text.isBlankText after = true) :
    let numeral := Json.string (before ++ toString n ++ after)
    (IndentedBy (2 * min n 256) (Json.setField fields "indent" numeral) ↔ n < UInt64.size) ∧
    (UInt64.size ≤ n → IndentedBy 0 (Json.setField fields "indent" numeral)) ∧
    ∀ m : UInt64, m.toNat = n →
      IndentedBy (2 * min n 256) (Json.setField fields "indent" (.number (.natural m))) := by
  intro numeral
  have hlevel : indentLevel numeral = if n < UInt64.size then min n 256 else 0 :=
    indentLevel_numeral hbefore hafter n
  simp only [indentedBy_iff, indentOf_setField, hlevel]
  refine ⟨?_, ?_, ?_⟩
  · by_cases hn : n < UInt64.size
    · simp [hn]
    · have hclamped : min n 256 = 256 := by
        have hsize : 256 < UInt64.size := by decide
        omega
      simp [hn, hclamped]
  · intro hn
    simp [Nat.not_lt.mpr hn]
  · rintro m rfl
    rw [indentLevel_natural]

theorem indents_clamped_padded :
    Text.isBlankText "\t " = true ∧ Text.isBlankText "\n" = true ∧ 300 < UInt64.size ∧
      IndentedBy (2 * 256) [("text", .string "x"), ("indent", .string "\t 300\n")] := by
  have hbefore : Text.isBlankText "\t " = true := by decide
  have hafter : Text.isBlankText "\n" = true := by decide
  have hsize : 300 < UInt64.size := by decide
  have hnumeral : "\t " ++ toString 300 ++ "\n" = "\t 300\n" := by decide
  have hline := (indents_clamped [("text", .string "x")] 300 hbefore hafter).1.mpr hsize
  rw [hnumeral] at hline
  exact ⟨hbefore, hafter, hsize, by simpa [Json.setField] using hline⟩

/-- A numeral beyond 64 bits is not clamped but dropped. -/
theorem indent_dropped_beyond_word :
    let fields : List (String × Json) :=
      [("text", .string "x"), ("indent", .string "18446744073709551616")]
    joinLines [.object fields] = "x" ∧ renderExplanation (some (.array [.object fields])) = "x" ∧
      ¬IndentedBy (2 * min 18446744073709551616 256) fields := by
  intro fields
  have hlevel : indentOf fields = 0 := by decide
  refine ⟨?_, ?_, ?_⟩
  · rfl
  · rfl
  · rw [indentedBy_iff, hlevel]
    decide

end DiagramView
