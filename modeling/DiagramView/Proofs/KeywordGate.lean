import DiagramView.Proofs.Normalization

/-!
# The keyword gate reads the trimmed text

Three kinds of characters meet at the gate. Lines end at a line feed, with or without a carriage
return before it; trimming drops every blank; and a keyword ends where no word character follows.
They agree because what ends a line is blank (`firstLine?_eq`) and no blank is a word character
(`isWordChar_of_isBlank`), so that the gate sees a text as it is after trimming
(`keyword_gate_reads_trimmed`).
-/

namespace DiagramView

namespace Text

/-! ## First lines -/

/-- A text up to its first line feed. -/
def upToLineFeed (cs : List Char) : List Char :=
  cs.takeWhile (· != '\n')

theorem upToLineFeed_cons {c : Char} (hc : c ≠ '\n') (cs : List Char) :
    upToLineFeed (c :: cs) = c :: upToLineFeed cs :=
  List.takeWhile_cons_of_pos (by simpa using hc)

theorem dropBlanks_cons_of_isBlank {c : Char} (hc : isBlank c = true) (cs : List Char) :
    dropBlanks (c :: cs) = dropBlanks cs :=
  List.dropWhile_cons_of_pos hc

theorem dropBlanks_cons_of_not_isBlank {c : Char} (hc : isBlank c = false) (cs : List Char) :
    dropBlanks (c :: cs) = c :: cs :=
  List.dropWhile_cons_of_neg (by simp [hc])

theorem trimChars_cons_of_isBlank {c : Char} (hc : isBlank c = true) (cs : List Char) :
    trimChars (c :: cs) = trimChars cs := by
  rw [trimChars, dropBlanks_cons_of_isBlank hc, ← trimChars]

theorem trimChars_cons_of_not_isBlank {c : Char} (hc : isBlank c = false) (cs : List Char) :
    trimChars (c :: cs) = dropTrailingBlanks (c :: cs) := by
  rw [trimChars, dropBlanks_cons_of_not_isBlank hc]

theorem dropTrailingBlanks_cons_of_ne_nil {c : Char} {cs : List Char}
    (h : dropTrailingBlanks (c :: cs) ≠ []) :
    dropTrailingBlanks (c :: cs) = c :: dropTrailingBlanks cs := by
  rw [dropTrailingBlanks_cons] at h ⊢
  by_cases hcs : dropTrailingBlanks cs = []
  · rw [if_pos hcs] at h ⊢
    by_cases hc : isBlank c = true
    · exact absurd (if_pos hc) h
    · rw [if_neg hc, hcs]
  · rw [if_neg hcs]

theorem dropTrailingBlanks_ne_nil {c : Char} (hc : isBlank c = false) (cs : List Char) :
    dropTrailingBlanks (c :: cs) ≠ [] := by
  intro hnil
  have hblank := dropTrailingBlanks_eq_nil.mp hnil c List.mem_cons_self
  rw [hc] at hblank
  cases hblank

theorem linesOf_eq_nil {cs : List Char} : linesOf cs = [] ↔ cs = [] := by
  fun_cases linesOf cs <;> simp_all

/-- But for the blanks behind it, the first line is the text up to the first line feed. -/
theorem dropTrailingBlanks_head?_linesOf (cs : List Char) (hcs : cs ≠ []) :
    (linesOf cs).head?.map dropTrailingBlanks = some (dropTrailingBlanks (upToLineFeed cs)) := by
  induction cs using linesOf.induct with
  | case1 => exact absurd rfl hcs
  | case2 cs ih => rfl
  | case3 cs ih => rfl
  | case4 c cs hfeed hreturn hnil ih =>
    rw [linesOf.eq_4 c cs hfeed hreturn, hnil, linesOf_eq_nil.mp hnil, upToLineFeed_cons hfeed]
    rfl
  | case5 c cs hfeed hreturn line rest hlines ih =>
    have hne : cs ≠ [] := fun h => by simp [linesOf_eq_nil.mpr h] at hlines
    have hline : dropTrailingBlanks line = dropTrailingBlanks (upToLineFeed cs) := by
      simpa [hlines] using ih hne
    rw [linesOf.eq_4 c cs hfeed hreturn, hlines, upToLineFeed_cons hfeed]
    simp only [List.head?_cons, Option.map_some, dropTrailingBlanks_cons, hline]

/-- Blanks at the end of a text are not missed on its first line. -/
theorem dropTrailingBlanks_upToLineFeed (cs : List Char) :
    dropTrailingBlanks (upToLineFeed (dropTrailingBlanks cs)) =
      dropTrailingBlanks (upToLineFeed cs) := by
  induction cs with
  | nil => rfl
  | cons c cs ih =>
    by_cases hblank : ∀ d ∈ c :: cs, isBlank d = true
    · have hfront : ∀ d ∈ upToLineFeed (c :: cs), isBlank d = true :=
        fun d hd => hblank d ((List.takeWhile_sublist _).mem hd)
      rw [dropTrailingBlanks_eq_nil.mpr hblank, dropTrailingBlanks_eq_nil.mpr hfront]
      rfl
    · have hkept := dropTrailingBlanks_cons_of_ne_nil (mt dropTrailingBlanks_eq_nil.mp hblank)
      rw [hkept]
      by_cases hc : c = '\n'
      · rw [hc]
        rfl
      · rw [upToLineFeed_cons hc, upToLineFeed_cons hc, dropTrailingBlanks_cons,
          dropTrailingBlanks_cons, ih]

/-! ## Word characters -/

/-- Whether no code point is in both tables. -/
def CodeRanges.areDisjoint (table table' : CodeRanges) : Bool :=
  table.all fun range => table'.all fun range' =>
    decide (range.2 < range'.1) || decide (range'.2 < range.1)

theorem CodeRanges.has_eq_false {table table' : CodeRanges} (h : table.areDisjoint table')
    {c : Char} (hc : table.has c = true) : table'.has c = false := by
  obtain ⟨range, hrange, hin⟩ := List.any_eq_true.mp hc
  refine List.any_eq_false.mpr fun range' hrange' hin' => ?_
  have hapart := List.all_eq_true.mp (List.all_eq_true.mp h range hrange) range' hrange'
  simp only [Bool.and_eq_true, Bool.or_eq_true, decide_eq_true_eq] at hin hin' hapart
  omega

theorem isWordChar_of_isBlank {c : Char} (hc : isBlank c = true) : isWordChar c = false :=
  CodeRanges.has_eq_false (by decide +kernel : blanks.areDisjoint wordChars) hc

/-- A text that is cut before a blank, or not at all. -/
def EndsAtBlank (rest : List Char) : Prop :=
  ∀ c ∈ rest.head?, isBlank c = true

theorem continuesWord_append {rest : List Char} (hrest : EndsAtBlank rest) (cs : List Char) :
    continuesWord (cs ++ rest) = continuesWord cs := by
  cases cs with
  | cons c cs => rfl
  | nil =>
    cases rest with
    | nil => rfl
    | cons c rest => exact isWordChar_of_isBlank (hrest c rfl)

/-- What is dropped behind a text begins with a blank. -/
theorem exists_dropTrailingBlanks_append (cs : List Char) :
    ∃ dropped, cs = dropTrailingBlanks cs ++ dropped ∧ EndsAtBlank dropped := by
  induction cs with
  | nil => exact ⟨[], rfl, by simp [EndsAtBlank]⟩
  | cons c cs ih =>
    by_cases hnil : dropTrailingBlanks (c :: cs) = []
    · refine ⟨c :: cs, by rw [hnil]; rfl, ?_⟩
      rintro d ⟨⟩
      exact dropTrailingBlanks_eq_nil.mp hnil c List.mem_cons_self
    · obtain ⟨dropped, hcs, hblank⟩ := ih
      refine ⟨dropped, ?_, hblank⟩
      rw [dropTrailingBlanks_cons_of_ne_nil hnil, List.cons_append, ← hcs]

end Text

namespace Diagram

open Text

/-! ## The first line that is not blank -/

theorem firstLine?_cons_of_isBlank {c : Char} (hc : isBlank c = true) (cs : List Char) :
    firstLine? (c :: cs) = firstLine? cs := by
  by_cases hfeed : c = '\n'
  · subst hfeed
    rfl
  by_cases hreturn : c = '\r' ∧ ∃ more, cs = '\n' :: more
  · obtain ⟨rfl, more, rfl⟩ := hreturn
    rfl
  have hlines := linesOf.eq_4 c cs hfeed fun more hc hcs => hreturn ⟨hc, more, hcs⟩
  cases hrest : linesOf cs with
  | nil =>
    have hblank : trimChars [c] = [] := trimChars_cons_of_isBlank hc []
    rw [hrest] at hlines
    simp [firstLine?, hlines, hrest, hblank]
  | cons line rest =>
    rw [hrest] at hlines
    simp [firstLine?, hlines, hrest, trimChars_cons_of_isBlank hc]

theorem firstLine?_dropBlanks (cs : List Char) : firstLine? (dropBlanks cs) = firstLine? cs := by
  induction cs with
  | nil => rfl
  | cons c cs ih =>
    cases hc : isBlank c with
    | true => rw [dropBlanks_cons_of_isBlank hc, ih, firstLine?_cons_of_isBlank hc]
    | false => rw [dropBlanks_cons_of_not_isBlank hc]

theorem firstLine?_cons_of_not_isBlank {c : Char} (hc : isBlank c = false) (cs : List Char) :
    firstLine? (c :: cs) = some (dropTrailingBlanks (upToLineFeed (c :: cs))) := by
  have hfeed : c ≠ '\n' := by
    rintro rfl
    cases hc
  have hfirst := dropTrailingBlanks_head?_linesOf (c :: cs) (by simp)
  obtain ⟨line, hhead, hline⟩ := Option.map_eq_some_iff.mp hfirst
  obtain ⟨rest, hlines⟩ := List.head?_eq_some_iff.mp hhead
  rw [upToLineFeed_cons hfeed] at hline
  have hne := dropTrailingBlanks_ne_nil hc (upToLineFeed cs)
  -- the first line begins with the same character, so that nothing is dropped before it
  obtain ⟨more, rfl⟩ : ∃ more, line = c :: more := by
    refine List.head?_eq_some_iff.mp (head?_dropTrailingBlanks ?_)
    rw [hline, dropTrailingBlanks_cons_of_ne_nil hne]
    rfl
  rw [upToLineFeed_cons hfeed, firstLine?, hlines, List.map_cons, trimChars_cons_of_not_isBlank hc,
    hline, List.find?_cons_of_pos (by simpa using hne)]

/-- The first line that is not blank is the first line of the trimmed text, without the blanks
behind it. -/
theorem firstLine?_eq (cs : List Char) :
    firstLine? cs = (linesOf (trimChars cs)).head?.map dropTrailingBlanks := by
  rw [← firstLine?_dropBlanks, trimChars]
  cases hcs : dropBlanks cs with
  | nil => rfl
  | cons c ds =>
    have hc : isBlank c = false := head?_dropBlanks (by rw [hcs]; rfl)
    rw [dropTrailingBlanks_head?_linesOf _ (dropTrailingBlanks_ne_nil hc ds),
      dropTrailingBlanks_upToLineFeed, firstLine?_cons_of_not_isBlank hc]

theorem firstLine?_eq_none {cs : List Char} : firstLine? cs = none ↔ trimChars cs = [] := by
  rw [firstLine?_eq, Option.map_eq_none_iff, List.head?_eq_none_iff, linesOf_eq_nil]

theorem firstLine?_trimChars (cs : List Char) : firstLine? (trimChars cs) = firstLine? cs := by
  rw [firstLine?_eq, (isTrimmed_trimChars cs).trimChars_eq, ← firstLine?_eq]

/-- The trimmed text goes on behind the first line that is not blank with a blank, if at all. -/
theorem exists_firstLine?_append {cs line : List Char} (h : firstLine? cs = some line) :
    ∃ rest, trimChars cs = line ++ rest ∧ EndsAtBlank rest := by
  have hne : trimChars cs ≠ [] := by
    intro hnil
    rw [firstLine?_eq_none.mpr hnil] at h
    cases h
  rw [firstLine?_eq, dropTrailingBlanks_head?_linesOf _ hne] at h
  obtain ⟨dropped, hfront, hdropped⟩ :=
    exists_dropTrailingBlanks_append (upToLineFeed (trimChars cs))
  rw [Option.some.inj h] at hfront
  have hsplit : trimChars cs =
      upToLineFeed (trimChars cs) ++ (trimChars cs).dropWhile (· != '\n') :=
    List.takeWhile_append_dropWhile.symm
  refine ⟨dropped ++ (trimChars cs).dropWhile (· != '\n'), ?_, ?_⟩
  · rw [← List.append_assoc, ← hfront, ← hsplit]
  · cases dropped with
    | cons d ds => exact hdropped
    | nil =>
      intro c hc
      have hfeed := List.head?_dropWhile_not (· != '\n') (trimChars cs)
      rw [List.nil_append] at hc
      rw [Option.mem_def.mp hc] at hfeed
      obtain rfl : c = '\n' := by simpa using hfeed
      decide

/-! ## Keywords -/

theorem Keyword.isBlank_of_mem_word {k : Keyword} {c : Char} (hc : c ∈ k.word.toList) :
    isBlank c = false := by
  have hall : k.word.toList.all (!isBlank ·) = true := by cases k <;> decide
  simpa using List.all_eq_true.mp hall c hc

theorem isPrefixOf_append_of_endsAtBlank {word rest : List Char}
    (hword : ∀ c ∈ word, isBlank c = false) (hrest : EndsAtBlank rest) (cs : List Char) :
    word.isPrefixOf (cs ++ rest) = word.isPrefixOf cs := by
  induction word generalizing cs with
  | nil => simp
  | cons w word ih =>
    obtain ⟨hw, hword⟩ := List.forall_mem_cons.mp hword
    cases cs with
    | cons c cs => rw [List.cons_append, List.isPrefixOf, List.isPrefixOf, ih hword]
    | nil =>
      cases rest with
      | nil => rfl
      | cons r rest =>
        have hne : w ≠ r := by
          rintro rfl
          rw [hrest w rfl] at hw
          cases hw
        simp [List.isPrefixOf, hne]

/-- What stands behind a blank does not matter to a keyword. -/
theorem Keyword.opens_append (k : Keyword) {rest : List Char} (hrest : EndsAtBlank rest)
    (cs : List Char) : k.opens (cs ++ rest) = k.opens cs := by
  rw [opens, opens,
    isPrefixOf_append_of_endsAtBlank (fun _ hc => isBlank_of_mem_word hc) hrest]
  cases hword : k.word.toList.isPrefixOf cs with
  | false => rfl
  | true =>
    have hlength := (List.isPrefixOf_iff_prefix.mp hword).length_le
    rw [String.length_toList] at hlength
    rw [List.drop_append_of_le_length hlength, continuesWord_append hrest]

theorem Keyword.opens_iff {k : Keyword} {cs : List Char} :
    k.opens cs = true ↔
      ∃ rest, cs = k.word.toList ++ rest ∧ ∀ c ∈ rest.head?, isWordChar c = false := by
  have hnext (rest : List Char) :
      continuesWord rest = false ↔ ∀ c ∈ rest.head?, isWordChar c = false := by
    cases rest <;> simp [continuesWord]
  simp only [opens, Bool.and_eq_true, Bool.not_eq_true', List.isPrefixOf_iff_prefix]
  constructor
  · rintro ⟨⟨rest, rfl⟩, hrest⟩
    rw [← String.length_toList, List.drop_left] at hrest
    exact ⟨rest, rfl, (hnext rest).mp hrest⟩
  · rintro ⟨rest, rfl, hrest⟩
    rw [← String.length_toList, List.drop_left]
    exact ⟨List.prefix_append .., (hnext rest).mpr hrest⟩

/-- No text begins with two keywords. -/
theorem Keyword.opens_unique {k k' : Keyword} {cs : List Char} (h : k.opens cs = true)
    (h' : k'.opens cs = true) : k = k' := by
  have hfirst (k : Keyword) (rest : List Char) :
      (k.word.toList ++ rest).head? = k.word.toList.head? := by cases k <;> rfl
  obtain ⟨rest, rfl, -⟩ := opens_iff.mp h
  obtain ⟨rest', heq, -⟩ := opens_iff.mp h'
  have hhead : k.word.toList.head? = k'.word.toList.head? := by
    rw [← hfirst k rest, heq, hfirst]
  cases k <;> cases k' <;> first | rfl | exact absurd hhead (by decide)

theorem find?_opens {k : Keyword} {cs : List Char} :
    Keyword.all.find? (·.opens cs) = some k ↔ k.opens cs = true := by
  have hopens {k' : Keyword} (hfound : Keyword.all.find? (·.opens cs) = some k') :
      k'.opens cs = true := List.find?_some (p := fun k : Keyword => k.opens cs) hfound
  refine ⟨hopens, fun h => ?_⟩
  have hmem : k ∈ Keyword.all := by cases k <;> decide
  cases hfound : Keyword.all.find? (·.opens cs) with
  | none => exact absurd h (List.find?_eq_none.mp hfound k hmem)
  | some k' => rw [Keyword.opens_unique h (hopens hfound)]

theorem keyword?_eq_some_iff {t : String} {k : Keyword} :
    keyword? t = some k ↔ k.opens (trimChars t.toList) = true := by
  unfold keyword?
  cases hline : firstLine? t.toList with
  | none =>
    rw [firstLine?_eq_none.mp hline]
    cases k <;> decide
  | some line =>
    obtain ⟨rest, htrim, hrest⟩ := exists_firstLine?_append hline
    dsimp only
    rw [htrim, k.opens_append hrest, find?_opens]

/-! ## Line ends -/

/-- A text with a carriage return before each line feed. -/
def withReturns (cs : List Char) : List Char :=
  cs.flatMap fun c => if c = '\n' then ['\r', '\n'] else [c]

theorem withReturns_cons {c : Char} (hc : c ≠ '\n') (cs : List Char) :
    withReturns (c :: cs) = c :: withReturns cs := by
  simp [withReturns, hc]

theorem replaceAll_lineFeed (t : String) :
    replaceAll t "\n" "\r\n" = String.ofList (withReturns t.toList) := by
  have hreplace : ∀ cs, replaceFrom ['\n'] ['\r', '\n'] 0 cs = withReturns cs := by
    intro cs
    induction cs with
    | nil => rfl
    | cons c cs ih =>
      rw [replaceFrom, withReturns, List.flatMap_cons, ← withReturns, ← ih]
      by_cases hc : c = '\n' <;> simp [List.isPrefixOf, hc, Ne.symm]
  exact congrArg String.ofList (hreplace t.toList)

theorem dropBlanks_withReturns (cs : List Char) :
    dropBlanks (withReturns cs) = withReturns (dropBlanks cs) := by
  induction cs with
  | nil => rfl
  | cons c cs ih =>
    by_cases hfeed : c = '\n'
    · rw [hfeed]
      exact ih
    · rw [withReturns_cons hfeed]
      cases hc : isBlank c with
      | true => rw [dropBlanks_cons_of_isBlank hc, ih, dropBlanks_cons_of_isBlank hc]
      | false =>
        rw [dropBlanks_cons_of_not_isBlank hc, dropBlanks_cons_of_not_isBlank hc,
          withReturns_cons hfeed]

theorem dropTrailingBlanks_withReturns (cs : List Char) :
    dropTrailingBlanks (upToLineFeed (withReturns cs)) = dropTrailingBlanks (upToLineFeed cs) := by
  induction cs with
  | nil => rfl
  | cons c cs ih =>
    by_cases hc : c = '\n'
    · rw [hc]
      rfl
    · rw [withReturns_cons hc, upToLineFeed_cons hc, upToLineFeed_cons hc, dropTrailingBlanks_cons,
        dropTrailingBlanks_cons, ih]

theorem firstLine?_withReturns (cs : List Char) : firstLine? (withReturns cs) = firstLine? cs := by
  rw [← firstLine?_dropBlanks, dropBlanks_withReturns, ← firstLine?_dropBlanks cs]
  cases hcs : dropBlanks cs with
  | nil => rfl
  | cons c ds =>
    have hc : isBlank c = false := head?_dropBlanks (by rw [hcs]; rfl)
    have hfeed : c ≠ '\n' := by
      rintro rfl
      cases hc
    rw [firstLine?_cons_of_not_isBlank hc, ← dropTrailingBlanks_withReturns,
      withReturns_cons hfeed, firstLine?_cons_of_not_isBlank hc]

/-- The first line that is not blank is that of the trimmed text, and so is the keyword, whichever
way lines end. -/
theorem keyword_gate_reads_trimmed (t : String) :
    (firstNonBlankLine? t = none ↔ trim t = "") ∧
      (trim t = "" ↔ isBlankText t = true) ∧
      firstNonBlankLine? t = (linesOf (trim t).toList).head?.map
        (fun line => String.ofList (dropTrailingBlanks line)) ∧
      firstNonBlankLine? (trim t) = firstNonBlankLine? t ∧
      (∀ k : Keyword, keyword? t = some k ↔ ∃ rest, (trim t).toList = k.word.toList ++ rest ∧
        ∀ c ∈ rest.head?, isWordChar c = false) ∧
      keyword? (normalize (.string t)) = keyword? t ∧
      keyword? (replaceAll t "\n" "\r\n") = keyword? t := by
  have htrim : (trim t).toList = trimChars t.toList := by rw [trim, String.toList_ofList]
  refine ⟨?_, trim_eq_empty, ?_, ?_, fun k => ?_, ?_, ?_⟩
  · rw [firstNonBlankLine?, Option.map_eq_none_iff, firstLine?_eq_none, ← htrim,
      String.toList_eq_nil_iff]
  · rw [firstNonBlankLine?, firstLine?_eq, htrim, Option.map_map]
    rfl
  · rw [firstNonBlankLine?, firstNonBlankLine?, htrim, firstLine?_trimChars]
  · rw [htrim, keyword?_eq_some_iff, Keyword.opens_iff]
  · rw [normalize_string, keyword?, keyword?, htrim, firstLine?_trimChars]
  · rw [replaceAll_lineFeed, keyword?, keyword?, String.toList_ofList, firstLine?_withReturns]

end Diagram

end DiagramView
