import DiagramView.Proofs.Books

/-!
# What a scheduler shows

At any time a scheduler shows one of four things (`Scene.Display`): nothing, because nothing was
asked for; that the last text was blank; the session under way; or how the last session settled,
which the engine's record bears out. Each comes with its own state of the books, of the status and
of the container. A scene is *sound* when its books are well kept and one of the four holds.

Soundness is proved operation by operation: first the moves that make up a turn, then a turn of a
session's task and of a sweep, then the calls of the owner. The engine is one that makes no
requests. A turn only ever sweeps up after sessions that were given up, and what is in the container
belongs to one that was not (`Sound.container_remove`).
-/

namespace DiagramView

/-- Whether a session is between its beginning and its end. -/
def Phase.isUnderWay : Phase → Bool
  | .scheduled | .validating | .rendering => true
  | _ => false

namespace Scene

variable {σ ο : Type} {s : Scene σ ο}

/-- What a scheduler shows, and how that comes about. -/
inductive Display (s : Scene σ ο) : Prop where
  /-- No text was asked for since the last teardown. -/
  | nothing (live : s.live = none) (status : s.status = {})
      (container : s.surface.container = none)
  /-- The last text was blank. -/
  | noDiagram (live : s.live = none)
      (status : s.status = ⟨some (s.renderId s.lastSeq), .noDiagram, none⟩)
      (container : s.surface.container = none) (earlier : ∀ x ∈ s.sessions, x.seq < s.lastSeq)
  /-- The last session has not settled. -/
  | underWay (x : Session) (mem : x ∈ s.sessions) (last : x.seq = s.lastSeq)
      (live : s.live = some s.lastSeq) (kept : x.cancelled = false)
      (unsettled : ∀ outcome, x.progress ≠ .ended (.settled outcome)) (phase : Phase)
      (active : phase.isUnderWay = true)
      (status : s.status = ⟨some (s.renderId s.lastSeq), phase, none⟩)
      (container : s.surface.container = none)
  /-- The last session has settled. -/
  | settled (x : Session) (mem : x ∈ s.sessions) (last : x.seq = s.lastSeq)
      (live : s.live = none) (kept : x.cancelled = false) (outcome : Outcome)
      (progress : x.progress = .ended (.settled outcome)) (markup : Option String)
      (supports : s.toRenderer.Supports (s.renderId s.lastSeq) x.text outcome markup)
      (status : s.status = ⟨some (s.renderId s.lastSeq), outcome.phase, outcome.message?⟩)
      (container : s.surface.container =
        markup.map fun m => ⟨(s.renderId s.lastSeq).text, m⟩)

namespace Display

/-- The display reads the books, the record and the container alone. -/
theorem frame (h : s.Display) {s' : Scene σ ο} (hbooks : s'.toSchedule = s.toSchedule)
    (hcontainer : s'.surface.container = s.surface.container)
    (hgrows : s.toBench.Grows s'.toBench) : s'.Display := by
  have hid : s'.renderId s'.lastSeq = s.renderId s.lastSeq := by
    rw [renderId, renderId, hbooks]
  cases h with
  | nothing live status container =>
    exact .nothing (by rw [hbooks, live]) (by rw [hbooks, status]) (by rw [hcontainer, container])
  | noDiagram live status container earlier =>
    refine .noDiagram (by rw [hbooks, live]) (by rw [hid, hbooks, status])
      (by rw [hcontainer, container]) ?_
    rw [hbooks]
    exact earlier
  | underWay x mem last live kept unsettled phase active status container =>
    exact .underWay x (by rw [hbooks]; exact mem) (by rw [hbooks, last]) (by rw [hbooks, live])
      kept unsettled phase active (by rw [hid, hbooks, status]) (by rw [hcontainer, container])
  | settled x mem last live kept outcome progress markup supports status container =>
    refine .settled x (by rw [hbooks]; exact mem) (by rw [hbooks, last]) (by rw [hbooks, live])
      kept outcome progress markup ?_ (by rw [hid, hbooks, status])
      (by rw [hcontainer, container, hid])
    rw [hid]
    exact supports.mono hgrows.within

/-- A record may change as long as it neither gives its session up nor settles it. -/
theorem update (h : s.Display) {seq : Nat} {f : Session → Session}
    (hseq : ∀ x, (f x).seq = x.seq) (htext : ∀ x, (f x).text = x.text)
    (hcancelled : ∀ x, (f x).cancelled = x.cancelled)
    (hsettled : ∀ x ∈ s.sessions, x.seq = seq → ∀ outcome,
      (f x).progress = .ended (.settled outcome) ↔ x.progress = .ended (.settled outcome)) :
    (s.update seq f).Display := by
  have hmem : ∀ x ∈ s.sessions, (if x.seq = seq then f x else x) ∈ (s.update seq f).sessions :=
    fun x hx => mem_update.mpr ⟨x, hx, rfl⟩
  cases h with
  | nothing live status container => exact .nothing live status container
  | noDiagram live status container earlier =>
    refine .noDiagram live status container ?_
    intro x hx
    obtain ⟨y, hy, rfl⟩ := mem_update.mp hx
    split
    · rw [hseq]
      exact earlier y hy
    · exact earlier y hy
  | underWay x mem last live kept unsettled phase active status container =>
    refine .underWay _ (hmem x mem) ?_ live ?_ ?_ phase active status container <;> split
    · exact (hseq x).trans last
    · exact last
    · exact (hcancelled x).trans kept
    · exact kept
    · next heq => exact fun outcome hp => unsettled outcome ((hsettled x mem heq outcome).mp hp)
    · exact unsettled
  | settled x mem last live kept outcome progress markup supports status container =>
    refine .settled _ (hmem x mem) ?_ live ?_ outcome ?_ markup ?_ status container <;> split
    · exact (hseq x).trans last
    · exact last
    · exact (hcancelled x).trans kept
    · exact kept
    · next heq => exact (hsettled x mem heq outcome).mpr progress
    · exact progress
    · rw [htext]
      exact supports
    · exact supports

end Display

/-! ## Sound scenes -/

/-- The books of a scene are in order, and it shows what they say. -/
structure Sound (s : Scene σ ο) : Prop where
  books : s.WellKept
  display : s.Display

namespace Sound

theorem frame (h : s.Sound) {s' : Scene σ ο} (hbooks : s'.toSchedule = s.toSchedule)
    (hcontainer : s'.surface.container = s.surface.container)
    (hgrows : s.toBench.Grows s'.toBench) : s'.Sound :=
  ⟨h.books.frame hbooks hgrows, h.display.frame hbooks hcontainer hgrows⟩

/-- The live session is the last one, it was not given up, and nothing is in the container. -/
theorem of_live (h : s.Sound) {x : Session} (hx : x ∈ s.sessions)
    (hlive : s.live = some x.seq) :
    x.seq = s.lastSeq ∧ x.cancelled = false ∧ s.surface.container = none := by
  cases h.display with
  | nothing live => rw [live] at hlive; cases hlive
  | noDiagram live => rw [live] at hlive; cases hlive
  | underWay y mem last live kept unsettled phase active status container =>
    have hseq : s.lastSeq = x.seq := Option.some.inj (live.symm.trans hlive)
    rw [h.books.eq_of_seq_eq hx mem (hseq.symm.trans last.symm)]
    exact ⟨last, kept, container⟩
  | settled y mem last live => rw [live] at hlive; cases hlive

/-- Sweeping up after a session that was given up leaves the container as it is. -/
theorem container_remove (h : s.Sound) {x : Session} (hx : x ∈ s.sessions)
    (hcancelled : x.cancelled = true) :
    (s.surface.remove (s.renderId x.seq).owns).container = s.surface.container := by
  simp only [Surface.remove]
  cases h.display with
  | nothing _ _ container => rw [container]; rfl
  | noDiagram _ _ container => rw [container]; rfl
  | underWay _ _ _ _ _ _ _ _ _ container => rw [container]; rfl
  | settled y mem last live kept outcome progress markup supports status container =>
    have hne : x.seq ≠ s.lastSeq := by
      intro heq
      rw [h.books.eq_of_seq_eq hx mem (heq.trans last.symm), kept] at hcancelled
      cases hcancelled
    rw [container]
    cases markup with
    | none => rfl
    | some m =>
      simp only [renderId, Option.map_some, Option.filter_some,
        InstanceId.owns_renderId_eq_false hne, Bool.not_false, ↓reduceIte]

theorem update (h : s.Sound) {x : Session} (hx : x ∈ s.sessions) {f : Session → Session}
    (hseq : ∀ x, (f x).seq = x.seq) (htext : ∀ x, (f x).text = x.text)
    (hcancelled : ∀ x, (f x).cancelled = x.cancelled)
    (hopen : (f x).end? = none → x.end? = none)
    (habandoned : (f x).abandoned ≠ none → x.cancelled = true)
    (hsettled : ∀ outcome, (f x).progress = .ended (.settled outcome) ↔
      x.progress = .ended (.settled outcome))
    (hbegan : ∀ host, (f x).Holds host →
      s.toRenderer.Began (s.renderId x.seq) x.text host) : (s.update x.seq f).Sound := by
  refine ⟨h.books.update hseq htext ?_ ?_ ?_, h.display.update hseq htext hcancelled ?_⟩
  all_goals
    intro y hy heq
    rw [h.books.eq_of_seq_eq hy hx heq]
  · intro hkept hend
    exact h.books.unfinished x hx ((hcancelled x).symm.trans hkept) (hopen hend)
  · intro hleft
    rw [hcancelled]
    exact habandoned hleft
  · exact hbegan
  · exact hsettled

/-- A session that is not over may come further, as long as it does not settle. -/
theorem setProgress (h : s.Sound) {x : Session} (hx : x ∈ s.sessions) (hopen : x.end? = none)
    {progress : Progress} (hunsettled : ∀ outcome, progress ≠ .ended (.settled outcome))
    (hbegan : ∀ host, progress = .waiting host →
      s.toRenderer.Began (s.renderId x.seq) x.text host) :
    (s.setProgress x.seq progress).Sound := by
  refine h.update hx (fun _ => rfl) (fun _ => rfl) (fun _ => rfl) (fun _ => hopen)
    (h.books.abandoned x hx) ?_ ?_
  · intro outcome
    have hx' := Session.end?_eq_none_iff.mp hopen (.settled outcome)
    exact iff_of_false (hunsettled outcome) hx'
  · rintro host (hwaiting | habandoned)
    · exact hbegan host hwaiting
    · exact h.books.begun x hx host (.inr habandoned)

/-- A session that was given up may end with its own nodes swept up. -/
theorem discard (h : s.Sound) {x : Session} (hx : x ∈ s.sessions) (hopen : x.end? = none)
    (hcancelled : x.cancelled = true) : (s.discard x.seq).Sound := by
  have hswept : ((s.sweep (s.renderId x.seq).owns).1.report
      (.staleDiscarded (s.renderId x.seq).text (s.sweep (s.renderId x.seq).owns).2)).Sound :=
    h.frame rfl (h.container_remove hx hcancelled) (.of_eq rfl rfl rfl)
  refine hswept.setProgress hx hopen ?_ ?_
  · intro outcome heq
    cases heq
  · intro host heq
    cases heq

end Sound

end Scene

end DiagramView
