import Mathlib.Data.List.Forall2
import DiagramView.Proofs.TagEdit
import DiagramView.Proofs.Written
import DiagramView.View.Panel

/-!
# The two renderings of lines

The lines of an array are rendered in two ways, for a diagram and for an explanation. They differ on
the lines that have no text: a diagram leaves these empty but for their indent, and an explanation
shows their JSON form behind it (`explanationLine_eq`). What is added to the lines adds up in the
joined text (`length_join_map`), and so the renderings agree on an array only if nothing is added to
any of its lines (`renderings_agree_iff`).

Lines may hold line feeds, but what is added does not (`newline_not_mem_write`), so the line breaks
of the two renderings correspond as well (`forall₂_cutAt_join_map`).
-/

namespace DiagramView

/-! ## Compact forms hold no line feed -/

namespace Json

theorem newline_not_mem_toDigits (n : Nat) : '\n' ∉ Nat.toDigits 10 n := by
  intro hmem
  cases isDigit_of_mem_toDigits hmem

theorem hexDigit_ne_newline (n : Nat) : hexDigit n ≠ '\n' := by
  have hall : ∀ k < 16, Nat.digitChar k ≠ '\n' := by decide
  exact hall (n % 16) (Nat.mod_lt n (by decide))

theorem newline_not_mem_writeChar (c : Char) : '\n' ∉ writeChar c := by
  rcases writeChar_cases c with ⟨letter, hletter, hwrite⟩ | ⟨-, hwrite⟩ | ⟨-, -, hcontrol, hwrite⟩
  · have hne : letter ≠ '\n' := by
      rintro rfl
      exact absurd hletter (by simp [simpleEscape?])
    simp [hwrite, hne.symm]
  · simp [hwrite, (hexDigit_ne_newline _).symm]
  · have hne : c ≠ '\n' := by
      rintro rfl
      exact hcontrol (by decide)
    simp [hwrite, hne.symm]

theorem newline_not_mem_writeString (s : String) : '\n' ∉ writeString s := by
  simp [writeString, newline_not_mem_writeChar]

theorem newline_not_mem_positional {digits : List Char} (h : '\n' ∉ digits) (exponent : Int) :
    '\n' ∉ positional digits exponent := by
  have htake (n : Nat) : '\n' ∉ digits.take n := fun hmem => h (List.mem_of_mem_take hmem)
  have hdrop (n : Nat) : '\n' ∉ digits.drop n := fun hmem => h (List.mem_of_mem_drop hmem)
  unfold positional
  split
  · simp [h]
  · dsimp only
    split
    · simp [h]
    · simp [htake, hdrop]

theorem newline_not_mem_scientific {digits : List Char} (h : '\n' ∉ digits) (exponent : Int) :
    '\n' ∉ scientific digits exponent := by
  have hsign : '\n' ≠ if exponent < 0 then '-' else '+' := by split <;> decide
  have hexponent := newline_not_mem_toDigits exponent.natAbs
  cases digits with
  | nil => simp [scientific, hsign, hexponent]
  | cons d rest => cases rest <;> simp_all [scientific]

theorem newline_not_mem_writeReal (x : Decimal.Binary64) : '\n' ∉ writeReal x := by
  have hdigits : '\n' ∉ (Decimal.shortest x).normalized.1 := by
    intro hmem
    have hkept := (List.dropWhile_sublist _).mem (List.mem_reverse.mp hmem)
    exact newline_not_mem_toDigits _ (List.mem_reverse.mp hkept)
  have hshown (isPositional : Prop) [Decidable isPositional] (exponent : Int) :
      '\n' ∉ if isPositional then positional (Decimal.shortest x).normalized.1 exponent
        else scientific (Decimal.shortest x).normalized.1 exponent := by
    split
    · exact newline_not_mem_positional hdigits exponent
    · exact newline_not_mem_scientific hdigits exponent
  cases hzero : x.isZero <;> cases hnegative : x.negative <;>
    simp [writeReal, hzero, hnegative, hshown]

theorem newline_not_mem_writeNumber (n : Number) : '\n' ∉ writeNumber n := by
  cases n with
  | natural n => exact newline_not_mem_toDigits n.toNat
  | negative n => simp only [writeNumber]; split <;> simp [newline_not_mem_toDigits]
  | real x => exact newline_not_mem_writeReal x

mutual

theorem newline_not_mem_write : ∀ v : Json, '\n' ∉ v.write
  | .null => by simp [write]
  | .bool b => by cases b <;> simp [write, writeBool]
  | .number n => by simpa [write] using newline_not_mem_writeNumber n
  | .string s => by simpa [write] using newline_not_mem_writeString s
  | .array items => by simpa [write] using newline_not_mem_writeItems items
  | .object fields => by simpa [write] using newline_not_mem_writeFields fields

theorem newline_not_mem_writeItems : ∀ items : List Json, '\n' ∉ writeItems items
  | [] => by simp [writeItems]
  | [v] => by simpa [writeItems] using newline_not_mem_write v
  | v :: w :: rest => by
    simpa [writeItems] using ⟨newline_not_mem_write v, newline_not_mem_writeItems (w :: rest)⟩

theorem newline_not_mem_writeFields :
    ∀ fields : List (String × Json), '\n' ∉ writeFields fields
  | [] => by simp [writeFields]
  | [(name, v)] => by
    simpa [writeFields] using ⟨newline_not_mem_writeString name, newline_not_mem_write v⟩
  | (name, v) :: field :: rest => by
    simpa [writeFields] using ⟨newline_not_mem_writeString name, newline_not_mem_write v,
      newline_not_mem_writeFields (field :: rest)⟩

end

end Json

/-! ## Joined lines -/

namespace Text

theorem foldl_append_append (sep s t : String) (rest : List String) :
    rest.foldl (fun joined u => joined ++ sep ++ u) (s ++ t) =
      s ++ rest.foldl (fun joined u => joined ++ sep ++ u) t := by
  induction rest generalizing t with
  | nil => rfl
  | cons u rest ih =>
    have hassoc : s ++ t ++ sep ++ u = s ++ (t ++ sep ++ u) := by simp only [String.append_assoc]
    rw [List.foldl_cons, List.foldl_cons, hassoc, ih]

theorem join_cons_cons (sep s t : String) (rest : List String) :
    join sep (s :: t :: rest) = s ++ sep ++ join sep (t :: rest) := by
  simp only [join, List.foldl_cons, foldl_append_append]

/-- A text is cut at a mark of its own and on both sides of it. -/
theorem cutAt_append_mark (mark : Char) (cs ds : List Char) :
    cutAt mark (cs ++ mark :: ds) = cutAt mark cs ++ cutAt mark ds := by
  induction cs with
  | nil => simp [cutAt]
  | cons c cs ih =>
    obtain ⟨part, parts, hcut⟩ := List.exists_cons_of_ne_nil (Markup.cutAt_ne_nil mark cs)
    by_cases hc : c = mark
    · simp [cutAt, hc, ih]
    · simp [cutAt, hc, ih, hcut]

/-- What is added behind a text without a mark makes its last part longer. -/
theorem forall₂_cutAt_append {mark : Char} (cs : List Char) {added : List Char}
    (h : mark ∉ added) :
    List.Forall₂ (· <+: ·) (cutAt mark cs) (cutAt mark (cs ++ added)) := by
  induction cs with
  | nil => simp [cutAt, Markup.cutAt_of_not_mem h]
  | cons c cs ih =>
    by_cases hc : c = mark
    · simpa [cutAt, hc] using ih
    · obtain ⟨part, parts, hcut⟩ := List.exists_cons_of_ne_nil (Markup.cutAt_ne_nil mark cs)
      obtain ⟨part', parts', hcut'⟩ :=
        List.exists_cons_of_ne_nil (Markup.cutAt_ne_nil mark (cs ++ added))
      rw [hcut, hcut', List.forall₂_cons] at ih
      simpa [cutAt, hc, hcut, hcut'] using ih

section

variable {α : Type} {f added : α → String}

/-- What is added to lines is added to the length of the joined text. -/
theorem length_join_map (sep : String) (lines : List α) :
    (join sep (lines.map fun line => f line ++ added line)).length =
      (join sep (lines.map f)).length +
        lines.foldr (fun line total => (added line).length + total) 0 := by
  induction lines with
  | nil => rfl
  | cons line lines ih =>
    cases lines with
    | nil => simp [join]
    | cons next lines =>
      simp only [List.map_cons, join_cons_cons, String.length_append, List.foldr_cons] at ih ⊢
      omega

/-- An addition to one line is not made up for by another. -/
theorem join_map_eq_iff (sep : String) {lines : List α} :
    join sep (lines.map fun line => f line ++ added line) = join sep (lines.map f) ↔
      ∀ line ∈ lines, added line = "" := by
  constructor
  · intro heq
    have hlength := congrArg String.length heq
    have htotal : lines.foldr (fun line total => (added line).length + total) 0 = 0 := by
      rw [length_join_map] at hlength
      omega
    clear heq hlength
    induction lines with
    | nil => simp
    | cons line lines ih =>
      obtain ⟨hline, hlines⟩ := Nat.add_eq_zero_iff.mp htotal
      exact List.forall_mem_cons.mpr ⟨String.length_eq_zero_iff.mp hline, ih hlines⟩
  · intro hempty
    congr 1
    refine List.map_congr_left fun line hline => ?_
    rw [hempty line hline, String.append_empty]

/-- What is added to lines without a line feed makes some lines of the joined text longer. -/
theorem forall₂_cutAt_join_map (h : ∀ line, '\n' ∉ (added line).toList) (lines : List α) :
    List.Forall₂ (· <+: ·) (cutAt '\n' (join "\n" (lines.map f)).toList)
      (cutAt '\n' (join "\n" (lines.map fun line => f line ++ added line)).toList) := by
  induction lines with
  | nil => simp [join, cutAt]
  | cons line lines ih =>
    have hline := forall₂_cutAt_append (f line).toList (h line)
    cases lines with
    | nil => simpa [join] using hline
    | cons next lines =>
      simp only [List.map_cons, join_cons_cons, String.toList_append] at ih ⊢
      rw [show "\n".toList = ['\n'] from rfl]
      simp only [List.append_assoc, List.singleton_append, cutAt_append_mark]
      simp only [← List.append_assoc, cutAt_append_mark]
      exact List.rel_append hline ih

end

end Text

/-! ## Lines without text -/

open Diagram

/-- A line that has no text: null, or an object whose text is missing or null. -/
inductive Textless : Json → Prop where
  | null : Textless .null
  | missing {fields : List (String × Json)} (h : Json.field? fields "text" = none) :
    Textless (.object fields)
  | nullText {fields : List (String × Json)} (h : Json.field? fields "text" = some .null) :
    Textless (.object fields)

theorem textOf?_eq_none_iff {fields : List (String × Json)} :
    textOf? fields = none ↔ Textless (.object fields) := by
  constructor
  · intro h
    unfold textOf? at h
    split at h
    · next hmissing => exact .missing hmissing
    · next hnull => exact .nullText hnull
    · cases h
    · cases h
  · intro h
    cases h with
    | missing h => simp [textOf?, h]
    | nullText h => simp [textOf?, h]

/-- What an explanation shows in the place of the text that a line does not have. -/
def standIn : Json → String
  | .null => Json.null.compact
  | .object fields => if (textOf? fields).isNone then (Json.object fields).compact else ""
  | _ => ""

/-- Two spaces per level are as many as twice the level. -/
theorem join_replicate_spaces (level : Nat) :
    String.join (List.replicate level "  ") = indentation level := by
  rw [← String.toList_inj, indentation, String.toList_ofList]
  induction level with
  | zero => rfl
  | succ level ih =>
    rw [List.replicate_succ, String.join_cons, String.toList_append, ih]
    rfl

/-- An object is indented as in a diagram, and its text, if it has one, is the same. -/
theorem explanationLine_object (fields : List (String × Json)) :
    explanationLine (.object fields) = indentation (indentOf fields) ++
      (textOf? fields).getD (Json.object fields).compact := by
  rw [explanationLine, join_replicate_spaces, textOf?]
  cases Json.field? fields "text" with
  | none => rfl
  | some v => cases v <;> rfl

theorem explanationLine_eq (line : Json) :
    explanationLine line = diagramLine line ++ standIn line := by
  cases line with
  | null => simp [explanationLine, diagramLine, standIn]
  | object fields =>
    rw [explanationLine_object]
    cases htext : textOf? fields <;> simp [diagramLine, standIn, htext]
  | _ => simp [explanationLine, diagramLine, standIn]

theorem newline_not_mem_standIn (line : Json) : '\n' ∉ (standIn line).toList := by
  cases line with
  | null => decide
  | object fields =>
    simp only [standIn]
    split
    · simpa [Json.compact] using Json.newline_not_mem_write (.object fields)
    · simp
  | _ => simp [standIn]

theorem standIn_eq_empty_iff {line : Json} : standIn line = "" ↔ ¬Textless line := by
  cases line with
  | null => exact iff_of_false (by decide) (not_not_intro .null)
  | object fields =>
    rw [← textOf?_eq_none_iff]
    cases htext : textOf? fields with
    | none => simp [standIn, htext, Json.compact, Json.write]
    | some text => simp [standIn, htext]
  | _ => exact iff_of_true rfl (by rintro ⟨⟩)

theorem renderExplanation_array (lines : List Json) :
    renderExplanation (some (.array lines)) =
      Text.join "\n" (lines.map fun line => diagramLine line ++ standIn line) := by
  simp only [renderExplanation, funext explanationLine_eq]

theorem renderings_agree_iff {lines : List Json} :
    renderExplanation (some (.array lines)) = joinLines lines ↔ ∀ line ∈ lines, ¬Textless line := by
  rw [renderExplanation_array, joinLines, Text.join_map_eq_iff]
  exact forall₂_congr fun line _ => standIn_eq_empty_iff

/-! ## Indents -/

/-- The number of spaces that a text begins with. -/
def leadingSpaces (s : String) : Nat :=
  (s.toList.takeWhile (· == ' ')).length

theorem leadingSpaces_indentation (level : Nat) {rest : String}
    (h : rest.toList.head? ≠ some ' ') : leadingSpaces (indentation level ++ rest) = 2 * level := by
  have hrest : rest.toList.takeWhile (· == ' ') = [] := by
    cases hchars : rest.toList with
    | nil => rfl
    | cons c cs => simp_all
  simp [leadingSpaces, indentation, hrest]

theorem leadingSpaces_explanationLine (fields : List (String × Json)) :
    leadingSpaces (explanationLine (.object fields)) =
      leadingSpaces (diagramLine (.object fields)) := by
  rw [explanationLine_eq]
  cases htext : textOf? fields with
  | none =>
    have hline : diagramLine (.object fields) = indentation (indentOf fields) ++ "" := by
      simp [diagramLine, htext]
    have hshown : standIn (.object fields) = (Json.object fields).compact := by
      simp [standIn, htext]
    rw [hshown, hline, leadingSpaces_indentation _ (by simp), String.append_empty,
      leadingSpaces_indentation _ (by simp [Json.compact, Json.write])]
  | some text => simp [standIn, htext]

/-- The two renderings of an array agree exactly when every line has a text. In any case a line of
an explanation begins with the line of the diagram, and so is as long at least; this holds of the
items of the array and of the lines of the joined texts, which may be more. The line of an object
is indented alike in both. -/
theorem line_renderings_compared (lines : List Json) :
    (renderExplanation (some (.array lines)) = joinLines lines ↔
      ∀ line ∈ lines, ¬Textless line) ∧
    (∀ line ∈ lines, (diagramLine line).toList <+: (explanationLine line).toList) ∧
    List.Forall₂ (· <+: ·) (Text.cutAt '\n' (joinLines lines).toList)
      (Text.cutAt '\n' (renderExplanation (some (.array lines))).toList) ∧
    ∀ fields, .object fields ∈ lines →
      leadingSpaces (explanationLine (.object fields)) =
        leadingSpaces (diagramLine (.object fields)) ∧
      (indentation (indentOf fields)).toList <+: (diagramLine (.object fields)).toList := by
  refine ⟨renderings_agree_iff, ?_, ?_, ?_⟩
  · intro line _
    rw [explanationLine_eq, String.toList_append]
    exact List.prefix_append _ _
  · rw [renderExplanation_array]
    exact Text.forall₂_cutAt_join_map newline_not_mem_standIn lines
  · intro fields _
    refine ⟨leadingSpaces_explanationLine fields, ?_⟩
    rw [diagramLine, String.toList_append]
    exact List.prefix_append _ _

/-- A text of two lines, an indented text, an indent without a text, and null. -/
def mixedLines : List Json :=
  [.string "a\nb", .object [("text", .string " c"), ("indent", .number (.natural 1))],
    .object [("indent", .string "2")], .null]

theorem line_renderings_compared_mixed :
    .object [("indent", .string "2")] ∈ mixedLines ∧
      leadingSpaces (explanationLine (.object [("indent", .string "2")])) =
        leadingSpaces (diagramLine (.object [("indent", .string "2")])) ∧
      renderExplanation (some (.array mixedLines)) ≠ joinLines mixedLines := by
  have hmem : .object [("indent", .string "2")] ∈ mixedLines := by simp [mixedLines]
  have hnull : .null ∈ mixedLines := by simp [mixedLines]
  obtain ⟨hagree, -, -, hindents⟩ := line_renderings_compared mixedLines
  exact ⟨hmem, (hindents _ hmem).1, fun heq => hagree.mp heq .null hnull .null⟩

end DiagramView
