import DiagramView.Proofs.Display
import DiagramView.Proofs.Turn

/-!
# Turns and calls keep a scene sound

Every turn of a task and every call of the owner takes a sound scene to a sound one, whatever the
engine answers and inserts in the meantime. A turn is taken act by act (`Sound.act`).
-/

namespace DiagramView

namespace Scene

variable {σ ο : Type} {s : Scene σ ο}

/-! ## Phases and outcomes -/

theorem Sound.setPhase (h : s.Sound) {seq : Nat} (hlive : s.live = some seq) {phase : Phase}
    (hphase : phase.isUnderWay = true) : (s.setPhase seq phase).Sound := by
  rw [setPhase_of_live hlive]
  refine ⟨⟨h.books.ascending, h.books.numbered, h.books.worded, h.books.unfinished,
    h.books.abandoned, h.books.begun, h.books.hosts⟩, ?_⟩
  cases h.display with
  | nothing live => rw [live] at hlive; cases hlive
  | noDiagram live => rw [live] at hlive; cases hlive
  | underWay x mem last live kept unsettled shown active status container =>
    exact .underWay x mem last live kept unsettled phase hphase (by simp [status, renderId])
      container
  | settled x mem last live => rw [live] at hlive; cases hlive

/-- The live session may settle in a way that the record bears out, once the container holds what
goes with that outcome. -/
theorem Sound.settle (h : s.Sound) {x : Session} (hx : x ∈ s.sessions)
    (hlive : s.live = some x.seq) {s' : Scene σ ο} (hbooks : s'.toSchedule = s.toSchedule)
    (hrecord : s'.toRenderer = s.toRenderer)
    (hattached : s'.surface.attached = s.surface.attached) {outcome : Outcome}
    {markup : Option String}
    (hsupports : s.toRenderer.Supports (s.renderId x.seq) x.text outcome markup)
    (hcontainer : s'.surface.container =
      markup.map fun m => ⟨(s.renderId x.seq).text, m⟩) : (s'.settle x.seq outcome).Sound := by
  obtain ⟨hlast, hkept, -⟩ := h.of_live hx hlive
  have hsame : s'.WellKept :=
    h.books.frame hbooks (.of_eq (by rw [hrecord]) (by rw [hrecord]) hattached)
  have hid : ∀ seq, s'.renderId seq = s.renderId seq := by
    intro seq
    rw [renderId, renderId, hbooks]
  rw [← hbooks] at hx hlive hlast
  have hended : (s'.setProgress x.seq (.ended (.settled outcome))).WellKept := by
    refine hsame.update (fun _ => rfl) (fun _ => rfl) ?_ ?_ ?_
    · intro y hy heq _ hend
      exact absurd rfl (Session.end?_eq_none_iff.mp hend (.settled outcome))
    · intro y hy heq
      exact hsame.abandoned y hy
    · rintro y hy heq host (hwaiting | habandoned)
      · cases hwaiting
      · rw [← heq]
        exact hsame.begun y hy host (.inr habandoned)
  refine ⟨⟨hended.ascending, hended.numbered, hended.worded, ?_, hended.abandoned,
    hended.begun, hended.hosts⟩, ?_⟩
  · -- no other session was open, and this one is over now
    intro y hy hcancelled hend
    have hseq : x.seq = y.seq :=
      Option.some.inj (hlive.symm.trans (hended.unfinished y hy hcancelled hend))
    obtain ⟨z, hz, rfl⟩ := mem_update.mp hy
    split at hend
    · exact absurd rfl (Session.end?_eq_none_iff.mp hend (.settled outcome))
    · next hne =>
      rw [if_neg hne] at hseq
      exact absurd hseq.symm hne
  · rw [← hid, hlast] at hsupports hcontainer
    rw [← hrecord] at hsupports
    refine .settled { x with progress := .ended (.settled outcome) }
      (mem_update.mpr ⟨x, hx, by simp⟩) hlast rfl hkept outcome rfl markup hsupports ?_ hcontainer
    rw [hlast]
    rfl

/-- The result of a call may be shown if it is the one on record. -/
theorem Sound.showResult (h : s.Sound) {x : Session} (hx : x ∈ s.sessions)
    (hopen : x.end? = none) (hlive : s.live = some x.seq) {result : RenderResult}
    (hartifact : ∀ markup, result = .artifact markup →
      s.toRenderer.Supports (s.renderId x.seq) x.text .rendered (some markup))
    (hfailed : ∀ message, result = .failed message →
      s.toRenderer.Supports (s.renderId x.seq) x.text (.renderError message) none) :
    (s.showResult x.seq result).Sound := by
  have hisLive : s.isLive x.seq = true := by simp [isLive, hlive]
  cases result with
  | crashed =>
    refine h.setProgress hx hopen ?_ ?_
    · intro outcome heq
      cases heq
    · intro host heq
      cases heq
  | artifact markup =>
    simp only [Scene.showResult, hisLive, ↓reduceIte]
    refine h.settle hx hlive ?_ ?_ ?_ (hartifact markup rfl) ?_
    · rfl
    · rfl
    · rfl
    · -- the sweep takes what lies below the session's id, and so not the mounted node
      simp [sweep, Surface.sweep, Surface.remove, Surface.mount, report, Bench.report, renderId]
  | failed message =>
    simp only [Scene.showResult, hisLive, ↓reduceIte]
    refine h.settle hx hlive ?_ ?_ ?_ (hfailed message rfl) ?_ <;> rfl

/-! ## Acts -/

variable {e : Engine σ Empty}

/-- A scene may take over a bench on which the record has grown. -/
theorem Sound.onBench (h : s.Sound) {b : Bench σ}
    (hcontainer : b.surface.container = s.surface.container) (hgrows : s.toBench.Grows b) :
    (s.onBench b).Sound :=
  h.frame rfl hcontainer hgrows

theorem Sound.conclude (h : s.Sound) (host : HostId) (answer : Except String String) :
    (s.onBench (s.toBench.conclude host answer).1).Sound := by
  refine h.onBench ?_ (Bench.conclude_grows host answer s.toBench)
  rw [Bench.conclude_surface]
  rfl

/-- A scene in which the engine has answered for the call of the live session shows the answer. -/
theorem Sound.takeResult (h : s.Sound) {x : Session} (hx : x ∈ s.sessions)
    (hopen : x.end? = none) (hlive : s.live = some x.seq) {host : HostId}
    (hbegan : s.toRenderer.Began (s.renderId x.seq) x.text host)
    {answer : Except String String} (hanswer : .result host answer ∈ s.answers) :
    (s.takeResult x.seq host answer).Sound := by
  have hrenderer : (s.onBench (s.toBench.conclude host answer).1).toRenderer = s.toRenderer :=
    Bench.conclude_toRenderer host answer s.toBench
  refine (h.conclude host answer).showResult (x := x) hx hopen hlive ?_ ?_
  · intro markup hresult
    obtain ⟨raw, rfl, hmarkup⟩ := Bench.answer_of_conclude_artifact hresult
    rw [hrenderer]
    exact .rendered host raw markup hbegan hanswer hmarkup
  · intro message hresult
    cases Bench.answer_of_conclude_failed hresult
    rw [hrenderer]
    exact .failed host message hbegan hanswer

/-- A session that was given up may leave its call to a sweep. -/
theorem Sound.abandon (h : s.Sound) {x : Session} (hx : x ∈ s.sessions) {host : HostId}
    (hprogress : x.progress = .waiting host) (hcancelled : x.cancelled = true) :
    (s.abandon x.seq host).Sound := by
  have hopen : x.end? = none := by simp [Session.end?, hprogress]
  let left : Session → Session := fun session => { session with abandoned := some host }
  have hleft : (s.update x.seq left).Sound := by
    refine h.update hx (fun _ => rfl) (fun _ => rfl) (fun _ => rfl) id (fun _ => hcancelled)
      (fun _ => Iff.rfl) ?_
    rintro other (hwaiting | habandoned)
    · exact h.books.begun x hx other (.inl hwaiting)
    · cases habandoned
      exact h.books.begun x hx host (.inl hprogress)
  have hmem : left x ∈ (s.update x.seq left).sessions := mem_update.mpr ⟨x, hx, by simp⟩
  have hwoken : ((s.update x.seq left).wake x.seq .sweep).Sound :=
    hleft.frame rfl rfl (.of_eq rfl rfl rfl)
  exact hwoken.discard (x := left x) hmem hopen hcancelled

/-- What an abandoned call left may be swept up, and its host detached. -/
theorem Sound.cleanUp (h : s.Sound) {x : Session} (hx : x ∈ s.sessions)
    (hcancelled : x.cancelled = true) (host : HostId) (answer : Except String String) :
    (s.cleanUp x.seq host answer).Sound := by
  have hconcluded := h.conclude host answer
  let left : Session → Session := fun session => { session with abandoned := none }
  have hleft : ((s.onBench (s.toBench.conclude host answer).1).update x.seq left).Sound := by
    refine hconcluded.update hx (fun _ => rfl) (fun _ => rfl) (fun _ => rfl) id
      (fun hsome => absurd rfl hsome) (fun _ => Iff.rfl) ?_
    rintro other (hwaiting | hsome)
    · exact hconcluded.books.begun x hx other (.inl hwaiting)
    · cases hsome
  have hmem : left x ∈
      ((s.onBench (s.toBench.conclude host answer).1).update x.seq left).sessions :=
    mem_update.mpr ⟨x, hx, by simp⟩
  have hswept := hleft.container_remove hmem hcancelled
  unfold Scene.cleanUp
  dsimp only
  split
  · exact hleft
  · exact hleft.frame rfl hswept (.of_eq rfl rfl rfl)
  · exact hleft.frame rfl hswept (.of_eq rfl rfl rfl)

/-- Every act leaves a sound scene sound. -/
theorem Sound.act (h : s.Sound) {x : Session} {s' : Scene σ ο} (hact : s.Act e x s') :
    s'.Sound := by
  cases hact with
  | stepBack hx hprogress hkept =>
    have hdeferred : (s.setProgress x.seq .deferred).Sound := by
      refine h.setProgress hx (by simp [Session.end?, hprogress]) ?_ ?_
      · intro outcome heq
        cases heq
      · intro host heq
        cases heq
    exact hdeferred.frame rfl rfl (.of_eq rfl rfl rfl)
  | discard hx hprogress hcancelled =>
    refine h.discard hx ?_ hcancelled
    rcases hprogress with hprogress | hprogress <;> simp [Session.end?, hprogress]
  | abandon host hx hprogress hcancelled => exact h.abandon hx hprogress hcancelled
  | refuse error hx hprogress hkept hverdict =>
    have hlive := h.books.unfinished x hx hkept (by simp [Session.end?, hprogress])
    have hsupports := Bench.supports_of_validate_error hverdict (s.renderId x.seq)
    rw [← Response.after_toRenderer] at hsupports
    have hanswered := h.onBench (s.verdict_container e x) (s.verdict_grows e x)
    refine hanswered.settle (x := x) hx hlive ?_ ?_ ?_ hsupports ?_ <;> rfl
  | begin keyword hx hprogress hkept hverdict =>
    have hopen : x.end? = none := by simp [Session.end?, hprogress]
    have hlive : (s.onBench (s.opening e x).after).live = some x.seq :=
      h.books.unfinished x hx hkept hopen
    have hopened := h.onBench (s.opening_container e x)
      ((s.verdict_grows e x).trans (s.opening_grows e x))
    have hphase := hopened.setPhase hlive (show Phase.rendering.isUnderWay = true from rfl)
    rw [setPhase_of_live hlive] at hphase
    rw [beginAwait_eq hlive]
    refine hphase.setProgress (x := x) hx hopen ?_ ?_
    · intro outcome heq
      cases heq
    · intro host heq
      cases heq
      exact began_of_opening hverdict
  | takeResult host response hx hprogress hkept hpoll =>
    have hopen : x.end? = none := by simp [Session.end?, hprogress]
    obtain ⟨hsurface, hgrows, hanswer⟩ := Bench.poll_eq_some hpoll
    have hanswered := h.onBench (b := response.after)
      (by rw [Response.after_container, hsurface]) (hgrows.trans response.after_grows)
    refine hanswered.takeResult (x := x) hx hopen (h.books.unfinished x hx hkept hopen) ?_ ?_
    · exact (h.books.begun x hx host (.inl hprogress)).mono
        (hgrows.trans response.after_grows).within
    · exact response.after_grows.answers hanswer
  | cleanUp host response hx habandoned hpoll =>
    obtain ⟨hsurface, hgrows, -⟩ := Bench.poll_eq_some hpoll
    have hanswered := h.onBench (b := response.after)
      (by rw [Response.after_container, hsurface]) (hgrows.trans response.after_grows)
    exact hanswered.cleanUp hx (h.books.abandoned x hx (by simp [habandoned])) host _

theorem Sound.resume (h : s.Sound) (e : Engine σ Empty) (obey : Empty → Scene σ ο → Scene σ ο)
    (task : Task) : (s.resume e obey task).Sound :=
  resume_induction (fun hs hact => hs.act hact) h.books h task

/-! ## Calls of the owner -/

theorem Sound.teardown (h : s.Sound) : s.teardown.Sound := by
  have hbooks := h.books.cancelLive .teardown
  refine ⟨⟨hbooks.ascending, hbooks.numbered, hbooks.worded, hbooks.unfinished,
    hbooks.abandoned, hbooks.begun, hbooks.hosts⟩, .nothing ?_ rfl ?_⟩
  · simp [Scene.teardown]
  · simp [Scene.teardown, Surface.remove, Surface.clearContainer]

theorem Sound.schedule (h : s.Sound) (text : String) : (s.schedule text).1.Sound := by
  have hbooks := h.books.cancelLive .superseded
  have hlive : (s.cancelLive .superseded).live = none := by simp
  have hcontainer : (s.cancelLive .superseded).surface.container = none := by
    simp [Surface.remove, Surface.clearContainer]
  unfold Scene.schedule
  generalize s.cancelLive .superseded = s₁ at hbooks hlive hcontainer ⊢
  have hnumbered : ∀ x ∈ s₁.sessions, x.seq < s₁.lastSeq + 1 :=
    fun x hx => Nat.lt_succ_of_le (hbooks.numbered x hx)
  obtain ⟨hhosts, hattached⟩ := hbooks.hosts
  simp only
  split
  · refine ⟨⟨hbooks.ascending, fun x hx => Nat.le_of_lt (hnumbered x hx), hbooks.worded,
      hbooks.unfinished, hbooks.abandoned, hbooks.begun, hhosts, hattached⟩, ?_⟩
    exact .noDiagram hlive rfl hcontainer hnumbered
  · next hblank =>
    have hworded : Text.isBlankText text = false := by simpa using hblank
    refine ⟨(hbooks.enter hlive hworded _).frame rfl (.of_eq rfl rfl rfl), ?_⟩
    refine .underWay { seq := s₁.lastSeq + 1, text }
      (List.mem_append_right _ (List.mem_singleton_self _)) rfl rfl rfl ?_ .scheduled rfl rfl
      hcontainer
    intro outcome heq
    cases heq

end Scene

end DiagramView
