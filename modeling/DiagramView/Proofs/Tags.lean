import DiagramView.Id

/-!
# Ids tell sessions apart

A node belongs to a session when its id is the session's id, or that id with a hyphen and anything
behind it. A sequence number is written in digits, so a hyphen or the end of the id shows where the
number ends, and session 1 does not reach into session 10.

* `RenderId.owns_iff`: which ids belong to a session, as a decomposition of the id.
* `InstanceId.seq_eq_of_owns`: a node belongs to at most one session of an instance.
* `InstanceId.covers_of_owns`: what belongs to a session belongs to its instance.
-/

namespace DiagramView

/-! ## What may follow a number -/

/-- What may stand behind the id of a session in the id of a node of its: nothing, or a hyphen and
more. -/
inductive IdTail : List Char → Prop where
  | nil : IdTail []
  | hyphen (rest : List Char) : IdTail ('-' :: rest)

theorem hyphen_not_mem_digits (n : Nat) : '-' ∉ (toString n).toList := by
  intro h
  rw [Nat.toString_eq_repr, Nat.toList_repr] at h
  have hdigit := Nat.isDigit_of_mem_toDigits (by decide) (by decide) h
  exact absurd hdigit (by decide)

theorem digits_injective {m n : Nat} (h : (toString m).toList = (toString n).toList) : m = n := by
  rw [Nat.toString_eq_repr, Nat.toString_eq_repr, Nat.toList_repr, Nat.toList_repr] at h
  calc m = Nat.ofDigitChars 10 (Nat.toDigits 10 m) 0 := Nat.ofDigitChars_ten_toDigits.symm
    _ = Nat.ofDigitChars 10 (Nat.toDigits 10 n) 0 := by rw [h]
    _ = n := Nat.ofDigitChars_ten_toDigits

/-- A tail begins where the characters other than hyphens end. -/
theorem IdTail.takeWhile_append {tail : List Char} (ht : IdTail tail) {word : List Char}
    (hw : '-' ∉ word) : (word ++ tail).takeWhile (· != '-') = word := by
  have hword : ∀ c ∈ word, (c != '-') = true := by
    intro c hc
    rw [bne_iff_ne]
    rintro rfl
    exact hw hc
  rw [List.takeWhile_append_of_pos hword]
  cases ht with
  | nil => simp
  | hyphen rest => simp

/-- A number that is followed by a tail can be read back. -/
theorem IdTail.number_eq {t u : List Char} (ht : IdTail t) (hu : IdTail u) {m n : Nat}
    (h : (toString m).toList ++ t = (toString n).toList ++ u) : m = n := by
  apply digits_injective
  rw [← ht.takeWhile_append (hyphen_not_mem_digits m), h,
    hu.takeWhile_append (hyphen_not_mem_digits n)]

/-! ## Nodes of a session -/

theorem Text.startsWith_iff {s start : String} :
    Text.startsWith s start = true ↔ ∃ rest, s.toList = start.toList ++ rest := by
  rw [Text.startsWith, List.isPrefixOf_iff_prefix]
  constructor
  · rintro ⟨rest, h⟩
    exact ⟨rest, h.symm⟩
  · rintro ⟨rest, h⟩
    exact ⟨rest, h.symm⟩

namespace RenderId

theorem above_iff {r : RenderId} {node : String} :
    r.above node = true ↔ ∃ rest, node.toList = r.text.toList ++ '-' :: rest := by
  rw [above, Text.startsWith_iff]
  simp

/-- The ids that belong to a session are its own id followed by a tail. -/
theorem owns_iff {r : RenderId} {node : String} :
    r.owns node = true ↔ ∃ tail, IdTail tail ∧ node.toList = r.text.toList ++ tail := by
  rw [owns, Bool.or_eq_true, beq_iff_eq, above_iff]
  constructor
  · rintro (rfl | ⟨rest, h⟩)
    · exact ⟨[], .nil, by simp⟩
    · exact ⟨'-' :: rest, .hyphen rest, h⟩
  · rintro ⟨tail, ht, h⟩
    cases ht with
    | nil => exact .inl (String.toList_inj.mp (by simpa using h))
    | hyphen rest => exact .inr ⟨rest, h⟩

@[simp] theorem owns_text (r : RenderId) : r.owns r.text = true := by
  simp [owns]

/-- A session does not lie below itself. -/
@[simp] theorem above_text (r : RenderId) : r.above r.text = false := by
  rw [Bool.eq_false_iff, Ne, above_iff]
  rintro ⟨rest, h⟩
  have hlength := congrArg List.length h
  simp at hlength

end RenderId

namespace InstanceId

@[simp] theorem renderId_toList (i : InstanceId) (seq : Nat) :
    (i.renderId seq).text.toList = i.scope.toList ++ (toString seq).toList := by
  simp [renderId]

/-- A node belongs to at most one session of an instance. -/
theorem seq_eq_of_owns {i : InstanceId} {m n : Nat} {node : String}
    (hm : (i.renderId m).owns node = true) (hn : (i.renderId n).owns node = true) : m = n := by
  obtain ⟨t, ht, hmt⟩ := RenderId.owns_iff.mp hm
  obtain ⟨u, hu, hnu⟩ := RenderId.owns_iff.mp hn
  rw [hmt, renderId_toList, renderId_toList, List.append_assoc, List.append_assoc] at hnu
  exact ht.number_eq hu (List.append_cancel_left hnu)

/-- The id of a session belongs to no other session. -/
theorem owns_renderId_eq_false {i : InstanceId} {m n : Nat} (h : m ≠ n) :
    (i.renderId m).owns (i.renderId n).text = false := by
  rw [Bool.eq_false_iff]
  intro howns
  exact h (seq_eq_of_owns howns (RenderId.owns_text _))

/-- Sessions of an instance have different ids. -/
theorem renderId_injective {i : InstanceId} {m n : Nat} (h : i.renderId m = i.renderId n) :
    m = n := by
  apply seq_eq_of_owns (RenderId.owns_text (i.renderId m))
  rw [h]
  exact RenderId.owns_text _

/-- What belongs to a session belongs to its instance. -/
theorem covers_of_owns {i : InstanceId} {seq : Nat} {node : String}
    (h : (i.renderId seq).owns node = true) : i.covers node = true := by
  obtain ⟨tail, -, htail⟩ := RenderId.owns_iff.mp h
  rw [covers, Text.startsWith_iff]
  refine ⟨(toString seq).toList ++ tail, ?_⟩
  rw [htail, renderId_toList, List.append_assoc]

end InstanceId

end DiagramView
