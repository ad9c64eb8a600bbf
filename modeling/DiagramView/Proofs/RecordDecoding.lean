import DiagramView.Proofs.Decoding
import DiagramView.Proofs.Skipping

/-!
# What maps and records are read as

An object is read field by field, and what has been read so far is handed on (`takeAll`). In a
record what a field's value means is an update of the record (`TypedField`); unknown fields change
nothing, and a known field that comes again is a failure (`takeField`). A record may also be
written as a list of its first fields (`takePositional`).

One field is taken in by `takeField_cases`, and what that says about the fields left and those taken
in carries over to all of them (`count_le_one_of_takeAll`, `exists_takeAll`).
-/

namespace DiagramView.Json

variable {α ρ σ : Type}

/-! ## Objects -/

/-- Takes in the fields of an object one after the other. Every key has to stand for a string. -/
def takeAll (take : σ → String → Value → Option σ) : σ → List (Option String × Value) → Option σ
  | acc, [] => some acc
  | acc, entry :: entries =>
    entry.1.bind fun key => (take acc key entry.2).bind fun acc => takeAll take acc entries

/-- A field is read from behind its key as what its value means. -/
def DecodesMember (member : σ → String → Cursor → Except Failure (σ × Cursor))
    (take : σ → String → Value → Option σ) : Prop :=
  ∀ (acc : σ) (key : String) (colon : Separator) (v : Value) (offset : Nat) {rest : List Char},
    Delimited rest →
      Agrees (member acc key ⟨offset, colon.text [':'] (v.text rest)⟩) (take acc key v) rest

section

variable (first : Bool) (offset : Nat) (rest : List Char)

theorem nextKey_member (separator : Separator) : ∃ offset',
    nextKey first ⟨offset, separator.text (comma first) ('\x22' :: rest)⟩ =
      .ok (some ⟨offset', rest⟩) := by
  have hquote : Unspaced ('\x22' :: rest) := unspaced_cons beginsValue_quote.unspaced rest
  cases first with
  | true =>
    obtain ⟨behind, hskip⟩ := separator.skipSpaces_blank hquote offset
    exact ⟨behind + 1, by simp only [comma, ↓reduceIte, nextKey, hskip]⟩
  | false =>
    obtain ⟨behind, hskip⟩ := separator.skipSpaces_comma ('\x22' :: rest) offset
    obtain ⟨named, hskip'⟩ := separator.after.skipSpaces_append hquote (behind + 1)
    exact ⟨named + 1, by simp only [comma, Bool.false_eq_true, ↓reduceIte, nextKey, hskip, hskip']⟩

theorem close_object (gap : Blanks) :
    nextKey first ⟨offset, gap.chars ++ '\x7d' :: rest⟩ = .ok none ∧ ∃ offset',
      closeObject ⟨offset, gap.chars ++ '\x7d' :: rest⟩ = .ok ⟨offset', rest⟩ := by
  obtain ⟨behind, hskip⟩ := gap.skipSpaces_brace rest offset
  exact ⟨by simp only [nextKey, hskip], behind + 1, by simp only [closeObject, hskip]⟩

end

/-- An object is read through its fields to the closing brace. -/
theorem DecodesMember.readMembers {member : σ → String → Cursor → Except Failure (σ × Cursor)}
    {take : σ → String → Value → Option σ} (h : DecodesMember member take) :
    (members : Members) → ∀ (first : Bool) (acc : σ) (bound offset : Nat) (rest : List Char),
      members.entries.length < bound →
        Agrees (readMembers member bound first acc ⟨offset, members.text first rest⟩)
          (takeAll take acc members.entries) rest
  | .close gap, first, acc, bound + 1, offset, rest, _ => by
    obtain ⟨hnext, offset', hclose⟩ := close_object first offset rest gap
    refine ⟨offset', ?_⟩
    simp only [Members.text, Json.readMembers, hnext, hclose, Bind.bind, Except.bind]
  | .member separator key colon v more, first, acc, bound + 1, offset, rest, hbound => by
    obtain ⟨behind, hnext⟩ := nextKey_member first offset
      (piecesText key (colon.text [':'] (v.text (more.text false rest)))) separator
    simp only [Members.text, Json.readMembers, hnext]
    refine (readString_agrees key behind).bind fun name named => ?_
    refine (h acc name colon v named (more.delimited_text rest)).bind fun next settled => ?_
    exact h.readMembers more false next bound settled rest (Nat.lt_of_succ_lt_succ hbound)

/-- The fields of an object as a map. -/
def Value.map? (as : Value → Option α) (insert : σ → String → α → σ) (empty : σ) :
    Value → Option σ
  | .object members =>
    takeAll (fun acc key v => (as v).map (insert acc key)) empty members.entries
  | _ => none

theorem readMap_decodes {value : Cursor → Except Failure (α × Cursor)} {as : Value → Option α}
    (h : Decodes value as) (insert : σ → String → α → σ) (empty : σ) :
    Decodes (readMap value insert empty) (Value.map? as insert empty) := by
  intro v before offset rest hrest
  obtain ⟨behind, hskip⟩ := before.skipSpaces_append (v.unspaced_text rest) offset
  simp only [readMap, hskip]
  cases v with
  | object members =>
    refine DecodesMember.readMembers ?_ members true empty _ (behind + 1) rest
      (Nat.lt_succ_of_lt (members.length_entries_lt true rest))
    intro acc key colon v offset rest hrest
    obtain ⟨behind, hcolon⟩ := colon.readColon_text (v.text rest) offset
    have hvalue := (h v colon.after behind hrest).map (insert acc key)
    simp only [hcolon]
    exact hvalue
  | number n =>
    split
    · exact ⟨_, rfl⟩
    · next htext => exact absurd (by simp) (n.head_notMem htext)
    · exact unexpected_fails _ _
  | bool b => cases b <;> exact unexpected_fails _ _
  | _ => exact unexpected_fails _ _

/-! ## Records -/

/-- A field of a record whose values have a meaning, which is how they change the record. -/
structure TypedField (ρ : Type) extends Field ρ where
  update : Value → Option (ρ → ρ)
  decodes : ∀ r, Decodes (read r) fun v => (update v).map fun change => change r

/-- A field that puts what it reads into the record. -/
def TypedField.of (name : String) {reader : Cursor → Except Failure (α × Cursor)}
    {meaning : Value → Option α} (h : Decodes reader meaning) (set : α → ρ → ρ) : TypedField ρ where
  name := name
  read r cur := do
    let (x, cur) ← reader cur
    return (set x r, cur)
  update v := (meaning v).map set
  decodes r v before offset rest hrest := by
    have hvalue := (h v before offset hrest).map fun x => set x r
    dsimp only
    rw [Option.map_map]
    exact hvalue

/-- Takes in a field of a record. A field that the record does not know changes nothing, and one
that it knows must not come again. -/
def takeField (fields : List (TypedField ρ)) (acc : List String × ρ) (key : String) (v : Value) :
    Option (List String × ρ) :=
  match fields.find? fun f => f.name == key with
  | none => some acc
  | some f =>
    if acc.1.contains key then none
    else (f.update v).map fun change => (key :: acc.1, change acc.2)

/-- The values of a list. -/
def Items.values : Items → List Value
  | .close _ => []
  | .item _ v more => v :: more.values

/-- Takes in the first fields of a record from the values of a list. -/
def takePositional : List (TypedField ρ) → ρ → List Value → Option ρ
  | _, r, [] => some r
  | [], _, _ :: _ => none
  | f :: fields, r, v :: values =>
    (f.update v).bind fun change => takePositional fields (change r) values

/-- A record over its defaults. -/
def Value.record? (fields : List (TypedField ρ)) (defaults : ρ) : Value → Option ρ
  | .array items => takePositional fields defaults items.values
  | .object members => (takeAll (takeField fields) ([], defaults) members.entries).map (·.2)
  | _ => none

theorem readRecordField_decodes (fields : List (TypedField ρ)) :
    DecodesMember (readRecordField (fields.map (·.toField))) (takeField fields) := by
  intro acc key colon v offset rest hrest
  obtain ⟨behind, hcolon⟩ := colon.readColon_text (v.text rest) offset
  have hfind : (fields.map (·.toField)).find? (fun f => f.name == key) =
      (fields.find? fun f => f.name == key).map (·.toField) := List.find?_map
  unfold readRecordField takeField
  rw [hfind]
  cases fields.find? fun f => f.name == key with
  | none =>
    obtain ⟨offset', hskip⟩ := skipValue_text v hrest colon.after behind
    refine ⟨offset', ?_⟩
    simp only [Option.map_none, hcolon, hskip, Bind.bind, Except.bind]
  | some f =>
    have hvalue := (f.decodes acc.2 v colon.after behind hrest).map fun r => (key :: acc.1, r)
    rw [Option.map_map] at hvalue
    simp only [Option.map_some, hcolon]
    split
    · exact ⟨_, rfl⟩
    · exact hvalue

section

variable (first : Bool) (offset : Nat) (rest : List Char)

theorem nextItem_item (separator : Separator) {c : Char} (hc : BeginsValue c) : ∃ offset',
    nextItem first ⟨offset, separator.text (comma first) (c :: rest)⟩ =
      .ok (some ⟨offset', c :: rest⟩) := by
  have hhead : Unspaced (c :: rest) := unspaced_cons hc.unspaced rest
  cases first with
  | true =>
    obtain ⟨behind, hskip⟩ := separator.skipSpaces_blank hhead offset
    refine ⟨behind, ?_⟩
    simp only [comma, ↓reduceIte, nextItem, hskip]
    split
    · next heq => cases heq
    · next heq => exact absurd (List.cons.inj heq).1 hc.ne_bracket
    · rfl
    · rfl
  | false =>
    obtain ⟨behind, hskip⟩ := separator.skipSpaces_comma (c :: rest) offset
    obtain ⟨settled, hskip'⟩ := separator.after.skipSpaces_append hhead (behind + 1)
    refine ⟨settled, ?_⟩
    simp only [comma, Bool.false_eq_true, ↓reduceIte, nextItem, hskip, hskip']
    split
    · next heq => cases heq
    · next heq => exact absurd (List.cons.inj heq).1 hc.ne_bracket
    · rfl

theorem close_list (gap : Blanks) :
    nextItem first ⟨offset, gap.chars ++ ']' :: rest⟩ = .ok none ∧ ∃ offset',
      closeList ⟨offset, gap.chars ++ ']' :: rest⟩ = .ok ⟨offset', rest⟩ := by
  obtain ⟨behind, hskip⟩ := gap.skipSpaces_bracket rest offset
  exact ⟨by simp only [nextItem, hskip], behind + 1, by simp only [closeList, hskip]⟩

theorem closeList_item (separator : Separator) {c : Char} (hc : BeginsValue c) :
    Fails (closeList ⟨offset, separator.text (comma first) (c :: rest)⟩) := by
  cases first with
  | true =>
    obtain ⟨behind, hskip⟩ := separator.skipSpaces_blank (unspaced_cons hc.unspaced rest) offset
    simp only [comma, ↓reduceIte, closeList, hskip]
    split
    · exact ⟨_, rfl⟩
    · next heq => exact absurd (List.cons.inj heq).1 hc.ne_bracket
    · split <;> exact ⟨_, rfl⟩
    · exact ⟨_, rfl⟩
  | false =>
    obtain ⟨behind, hskip⟩ := separator.skipSpaces_comma (c :: rest) offset
    simp only [comma, Bool.false_eq_true, ↓reduceIte, closeList, hskip]
    split <;> exact ⟨_, rfl⟩

end

/-- The fields of a record are read from a list until one of the two is at its end. -/
theorem readPositional_agrees (fields : List (TypedField ρ)) (items : Items) (first : Bool) (r : ρ)
    (offset : Nat) (rest : List Char) :
    Agrees (do
      let (r, cur) ←
        readPositional (fields.map (·.toField)) first r ⟨offset, items.text first rest⟩
      .ok (r, ← closeList cur)) (takePositional fields r items.values) rest := by
  induction fields generalizing items first r offset with
  | nil =>
    cases items with
    | close gap =>
      obtain ⟨-, offset', hclose⟩ := close_list first offset rest gap
      refine ⟨offset', ?_⟩
      simp only [List.map_nil, readPositional, Items.text, Bind.bind, Except.bind, hclose]
    | item separator v more =>
      obtain ⟨c, cs, htext, hc⟩ := v.exists_text (more.text false rest)
      have hclose := closeList_item first offset cs separator hc
      rw [Items.text, htext]
      exact hclose.bind _
  | cons f fields ih =>
    cases items with
    | close gap =>
      obtain ⟨hnext, offset', hclose⟩ := close_list first offset rest gap
      refine ⟨offset', ?_⟩
      simp only [List.map_cons, readPositional, Items.text, Bind.bind, Except.bind, hnext, hclose]
    | item separator v more =>
      obtain ⟨c, cs, htext, hc⟩ := v.exists_text (more.text false rest)
      obtain ⟨behind, hnext⟩ := nextItem_item first offset cs separator hc
      rw [← htext] at hnext
      have hvalue := f.decodes r v .empty behind (more.delimited_text rest)
      have hmeaning : takePositional (f :: fields) r (Items.item separator v more).values =
          ((f.update v).map fun change => change r).bind fun r =>
            takePositional fields r more.values := by
        rw [Option.bind_map]
        rfl
      simp only [List.map_cons, readPositional, Items.text, hnext, hmeaning]
      change Agrees ((f.read r _ >>= _) >>= _) _ _
      rw [bind_assoc]
      exact hvalue.bind fun r settled => ih more false r settled

theorem readRecord_decodes (name : String) (fields : List (TypedField ρ)) (defaults : ρ) :
    Decodes (readRecord name (fields.map (·.toField)) defaults)
      (Value.record? fields defaults) := by
  intro v before offset rest hrest
  obtain ⟨behind, hskip⟩ := before.skipSpaces_append (v.unspaced_text rest) offset
  simp only [readRecord, hskip]
  cases v with
  | array items => exact readPositional_agrees fields items true defaults (behind + 1) rest
  | object members =>
    have hread := (readRecordField_decodes fields).readMembers members true ([], defaults)
      ((members.text true rest).length + 1) (behind + 1) rest
      (Nat.lt_succ_of_lt (members.length_entries_lt true rest))
    exact hread.map (·.2)
  | number n =>
    split
    · exact ⟨_, rfl⟩
    · next htext => exact absurd (by simp) (n.head_notMem htext)
    · next htext => exact absurd (by simp) (n.head_notMem htext)
    · exact unexpected_fails _ _
  | bool b => cases b <;> exact unexpected_fails _ _
  | _ => exact unexpected_fails _ _

/-! ## Taking in fields -/

section

variable {fields : List (TypedField ρ)}

/-- A field is unknown, or its value changes the record. -/
theorem takeField_cases {acc next : List String × ρ} {key : String} {v : Value}
    (h : takeField fields acc key v = some next) :
    (∀ f ∈ fields, f.name ≠ key) ∧ next = acc ∨
      ∃ f ∈ fields, f.name = key ∧ key ∉ acc.1 ∧
        ∃ change, f.update v = some change ∧ next = (key :: acc.1, change acc.2) := by
  unfold takeField at h
  split at h
  · next hfind =>
    refine .inl ⟨fun f hf => ?_, (Option.some.inj h).symm⟩
    simpa using List.find?_eq_none.mp hfind f hf
  · next f hfind =>
    have hname : f.name = key := by simpa using List.find?_some hfind
    split at h
    · cases h
    · next hseen =>
      obtain ⟨change, hchange, hnext⟩ := Option.map_eq_some_iff.mp h
      exact .inr ⟨f, List.mem_of_find?_eq_some hfind, hname, by simpa using hseen, change, hchange,
        hnext.symm⟩

theorem takeAll_cons_cases {take : σ → String → Value → Option σ} {acc last : σ}
    {entry : Option String × Value} {entries : List (Option String × Value)}
    (h : takeAll take acc (entry :: entries) = some last) :
    ∃ key next, entry.1 = some key ∧ take acc key entry.2 = some next ∧
      takeAll take next entries = some last := by
  obtain ⟨key, hkey, h⟩ := Option.bind_eq_some_iff.mp h
  obtain ⟨next, hnext, h⟩ := Option.bind_eq_some_iff.mp h
  exact ⟨key, next, hkey, hnext, h⟩

theorem isSome_key_of_takeAll {take : σ → String → Value → Option σ} {acc last : σ}
    {entries : List (Option String × Value)} (h : takeAll take acc entries = some last) :
    ∀ entry ∈ entries, entry.1.isSome = true := by
  induction entries generalizing acc with
  | nil =>
    intro entry hentry
    cases hentry
  | cons entry entries ih =>
    obtain ⟨key, next, hkey, -, hrest⟩ := takeAll_cons_cases h
    refine List.forall_mem_cons.mpr ⟨?_, ih hrest⟩
    rw [hkey, Option.isSome_some]

section

variable {acc next : List String × ρ} {key : String} {v : Value}
  (htake : takeField fields acc key v = some next)
include htake

/-- A known field moves from the fields that are left to those taken in. -/
theorem count_takeField {f : TypedField ρ} (hf : f ∈ fields) (keys : List (Option String)) :
    keys.count (some f.name) + next.1.count f.name =
      (some key :: keys).count (some f.name) + acc.1.count f.name := by
  rcases takeField_cases htake with ⟨hunknown, rfl⟩ | ⟨g, -, rfl, -, change, -, rfl⟩
  · have hother : some key ≠ some f.name := fun heq => hunknown f hf (Option.some.inj heq).symm
    rw [List.count_cons_of_ne hother]
  · by_cases hname : g.name = f.name
    · rw [hname, List.count_cons_self, List.count_cons_self]
      omega
    · rw [List.count_cons_of_ne hname, List.count_cons_of_ne (by simpa using hname)]

theorem nodup_takeField (hnodup : acc.1.Nodup) : next.1.Nodup := by
  rcases takeField_cases htake with ⟨-, rfl⟩ | ⟨g, -, -, hfresh, change, -, rfl⟩
  · exact hnodup
  · exact List.nodup_cons.mpr ⟨hfresh, hnodup⟩

end

/-- No known field is taken in twice. -/
theorem count_le_one_of_takeAll {entries : List (Option String × Value)}
    {acc last : List String × ρ} (h : takeAll (takeField fields) acc entries = some last)
    {f : TypedField ρ} (hf : f ∈ fields) (hnodup : acc.1.Nodup) :
    (entries.map (·.1)).count (some f.name) + acc.1.count f.name ≤ 1 := by
  induction entries generalizing acc with
  | nil =>
    rw [List.map_nil, List.count_nil, Nat.zero_add]
    exact List.nodup_iff_count.mp hnodup f.name
  | cons entry entries ih =>
    obtain ⟨key, next, hkey, htake, hrest⟩ := takeAll_cons_cases h
    rw [List.map_cons, hkey, ← count_takeField htake hf]
    exact ih hrest (nodup_takeField htake hnodup)

theorem exists_takeField {acc : List String × ρ} {key : String} {v : Value}
    (h : ∀ f ∈ fields, f.name = key → key ∉ acc.1 ∧ (f.update v).isSome = true) :
    ∃ next, takeField fields acc key v = some next := by
  unfold takeField
  split
  · exact ⟨acc, rfl⟩
  · next f hfind =>
    have hname : f.name = key := by simpa using List.find?_some hfind
    obtain ⟨hfresh, hupdate⟩ := h f (List.mem_of_find?_eq_some hfind) hname
    obtain ⟨change, hchange⟩ := Option.isSome_iff_exists.mp hupdate
    rw [if_neg (by simpa using hfresh), hchange]
    exact ⟨_, rfl⟩

/-- Fields that come once with values that change the record are all taken in, whatever stands
between them. -/
theorem exists_takeAll {entries : List (Option String × Value)} {acc : List String × ρ}
    (hstrings : ∀ entry ∈ entries, entry.1.isSome = true)
    (honce : ∀ f ∈ fields, (entries.map (·.1)).count (some f.name) + acc.1.count f.name ≤ 1)
    (htyped : ∀ entry ∈ entries, ∀ f ∈ fields, entry.1 = some f.name →
      (f.update entry.2).isSome = true) :
    ∃ last, takeAll (takeField fields) acc entries = some last := by
  induction entries generalizing acc with
  | nil => exact ⟨acc, rfl⟩
  | cons entry entries ih =>
    obtain ⟨hstring, hstrings⟩ := List.forall_mem_cons.mp hstrings
    obtain ⟨hupdate, htyped⟩ := List.forall_mem_cons.mp htyped
    obtain ⟨key, hkey⟩ := Option.isSome_iff_exists.mp hstring
    simp only [List.map_cons, hkey] at honce
    obtain ⟨next, htake⟩ : ∃ next, takeField fields acc key entry.2 = some next := by
      refine exists_takeField fun f hf hname => ⟨?_, hupdate f hf (by rw [hkey, hname])⟩
      have hcount := honce f hf
      rw [hname, List.count_cons_self] at hcount
      exact List.count_eq_zero.mp (by omega)
    obtain ⟨last, hrest⟩ := ih hstrings (fun f hf => by
      rw [count_takeField htake hf]
      exact honce f hf) htyped
    exact ⟨last, by rw [takeAll, hkey, Option.bind_some, htake, Option.bind_some, hrest]⟩

end

end DiagramView.Json
