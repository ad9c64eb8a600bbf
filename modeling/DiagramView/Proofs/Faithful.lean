import DiagramView.Proofs.Coherence
import DiagramView.Proofs.Outline
import DiagramView.View.Controller

/-!
# Views show their latest payload

Nothing in a view records which payload the diagram on show was made from. That it was made from
the latest one follows from the order in which a view calls its scheduler: every new payload and
every return to the tab of the diagram begins a session for the text of the moment, and leaving
that tab tears the scheduler down. So the outline of a view's scene (`Outline.Attuned`) always ties
the last session to the text in hand, and what is shown is how that session came out
(`view_faithful`).
-/

namespace DiagramView

variable {σ : Type}

/-! ## Requests -/

/-- Whether a step is one of the view's own, and does not go around it to its scheduler. -/
def ViewStep.isOwn : ViewStep → Bool
  | .order _ | .close => false
  | _ => true

/-- Something that is asked of a view itself. -/
abbrev ViewRequest := { step : ViewStep // step.isOwn = true }

/-- Does what a view is asked for. -/
def ViewRequest.obey (request : ViewRequest) (s : Scene σ View) : Scene σ View :=
  (request.1.take s).1

/-! ## The outline of a view's scene -/

/-- The text and the strategy of a view are those found in its payload. -/
structure View.Extracted (registry : Diagram.Registry) (v : View) : Prop where
  unchanged : v.registry = registry
  text : v.diagramText = ((v.payload.bind registry.extract?).map (·.text)).getD ""
  strategy : v.strategy = (v.payload.bind registry.extract?).map (·.strategy)

/-- The last session is for the text of the view while the diagram's tab is active, and there is
none otherwise. A blank text has no session of its own. -/
structure Outline.Attuned (registry : Diagram.Registry) (o : Outline View) : Prop where
  extracted : o.owner.Extracted registry
  away : o.owner.tab ≠ .flow → o.session = none
  session : o.owner.tab = .flow → o.session = some (o.instanceId.renderId o.lastSeq)
  latest : o.owner.tab = .flow → ∀ text, (o.lastSeq, text) ∈ o.texts ↔
    text = o.owner.diagramText ∧ Text.isBlankText text = false

namespace Scene

variable {s : Scene σ View} {registry : Diagram.Registry}

/-- The scene of a view is sound and attuned. -/
structure InTune (registry : Diagram.Registry) (s : Scene σ View) : Prop where
  sound : s.Sound
  attuned : s.outline.Attuned registry

/-- A view that has nothing on show is attuned again after it has rendered what it should. -/
theorem InTune.renderIfActive (hsound : s.Sound) (hextracted : s.owner.Extracted registry)
    (haway : s.owner.tab ≠ .flow → s.status.session = none) :
    s.renderIfActive.1.InTune registry := by
  unfold Scene.renderIfActive
  split
  · next htab =>
    refine ⟨hsound.schedule _, ?_⟩
    rw [schedule_outline]
    refine ⟨hextracted, fun hne => absurd htab hne, fun _ => rfl, ?_⟩
    intro _ text
    have hnew : ∀ text, (s.lastSeq + 1, text) ∉ s.outline.texts := by
      intro text hmem
      obtain ⟨x, hx, heq⟩ := List.mem_map.mp hmem
      have hle := hsound.books.numbered x hx
      have hseq : x.seq = s.lastSeq + 1 := congrArg Prod.fst heq
      omega
    simp only [List.mem_append, hnew, false_or]
    by_cases hblank : Text.isBlankText s.owner.diagramText = true
    · simp only [hblank, ↓reduceIte, List.not_mem_nil, false_iff]
      rintro ⟨rfl, hworded⟩
      exact absurd (hblank.symm.trans hworded) (by decide)
    · have hworded : Text.isBlankText s.owner.diagramText = false := by simpa using hblank
      simp only [hworded, Bool.false_eq_true, ↓reduceIte, List.mem_singleton, Prod.mk.injEq,
        true_and]
      constructor
      · rintro rfl
        exact ⟨rfl, hworded⟩
      · exact fun h => h.1
  · next htab =>
    exact ⟨hsound, hextracted, haway, fun h => absurd h htab, fun h => absurd h htab⟩

/-- A change of the view that leaves its tab and what was extracted alone. -/
theorem InTune.updateView (h : s.InTune registry) {f : View → View}
    (hextracted : (f s.owner).Extracted registry) (htab : (f s.owner).tab = s.owner.tab)
    (htext : (f s.owner).diagramText = s.owner.diagramText) :
    (s.updateView f).InTune registry := by
  refine ⟨h.sound.frame rfl rfl (.of_eq rfl rfl rfl), hextracted, ?_, ?_, ?_⟩
  · exact fun hne => h.attuned.away (htab ▸ hne)
  · exact fun heq => h.attuned.session (htab ▸ heq)
  · intro heq text
    have hlatest := h.attuned.latest (htab ▸ heq) text
    simpa only [outline, Scene.updateView, htext] using hlatest

theorem foldl_report_sound (h : s.Sound) (events : List Event) : (events.foldl report s).Sound := by
  induction events generalizing s with
  | nil => exact h
  | cons event events ih => exact ih (h.frame rfl rfl (.of_eq rfl rfl rfl))

theorem foldl_report_outline (s : Scene σ View) (events : List Event) :
    (events.foldl report s).outline = s.outline := by
  induction events generalizing s with
  | nil => rfl
  | cons event events ih => exact ih (s.report event)

theorem InTune.selectTab (h : s.InTune registry) (tab : Tab) :
    (s.selectTab tab).1.InTune registry := by
  unfold Scene.selectTab
  split
  · exact h
  · have hextracted := h.attuned.extracted
    have howner : s.teardown.owner = s.owner := congrArg Outline.owner s.teardown_outline
    refine InTune.renderIfActive ?_ ?_ ?_
    · split
      · exact h.sound.teardown.frame rfl rfl (.of_eq rfl rfl rfl)
      · exact h.sound.frame rfl rfl (.of_eq rfl rfl rfl)
    · split
      · change View.Extracted registry { s.teardown.owner with tab }.bump
        rw [howner]
        exact ⟨hextracted.unchanged, hextracted.text, hextracted.strategy⟩
      · exact ⟨hextracted.unchanged, hextracted.text, hextracted.strategy⟩
    · intro _
      split
      · rfl
      · next hleft => exact h.attuned.away hleft

theorem InTune.setPayload (h : s.InTune registry) (payload : Option Json) :
    (s.setPayload payload).1.InTune registry := by
  have hregistry := h.attuned.extracted.unchanged
  have hreported := s.foldl_report_outline
    (View.payloadEvents payload (payload.bind s.owner.registry.extract?))
  have howner := congrArg Outline.owner hreported
  have hsession := congrArg Outline.session hreported
  refine InTune.renderIfActive ?_ ?_ ?_
  · exact (foldl_report_sound h.sound _).frame rfl rfl (.of_eq rfl rfl rfl)
  · refine ⟨?_, ?_, ?_⟩
    · exact (congrArg View.registry howner).trans hregistry
    · simp [Scene.updateView, View.withPayload, View.bump, ← hregistry, outline]
    · simp [Scene.updateView, View.withPayload, View.bump, ← hregistry, outline]
  · intro hne
    refine hsession.trans (h.attuned.away ?_)
    rw [← howner]
    exact hne

/-- Every request leaves the scene of a view in tune. -/
theorem InTune.obey (h : s.InTune registry) (request : ViewRequest) :
    (request.obey s).InTune registry := by
  have hextracted := h.attuned.extracted
  obtain ⟨step, hown⟩ := request
  cases step with
  | selectTab tab => exact h.selectTab tab
  | setPayload payload => exact h.setPayload payload
  | setRun run =>
    exact h.updateView (f := fun v => { v with run }.bump)
      ⟨hextracted.unchanged, hextracted.text, hextracted.strategy⟩ rfl rfl
  | setLoading loading =>
    refine h.updateView (f := fun v => if v.loading = loading then v else { v with loading }.bump)
      ?_ ?_ ?_
    · split
      · exact hextracted
      · exact ⟨hextracted.unchanged, hextracted.text, hextracted.strategy⟩
    · split <;> rfl
    · split <;> rfl
  | setRequestError message =>
    exact h.updateView (f := fun v => { v with requestError := message }.bump)
      ⟨hextracted.unchanged, hextracted.text, hextracted.strategy⟩ rfl rfl
  | order order => cases hown
  | close => cases hown

/-! ## Courses of a view -/

theorem InTune.fresh (config : SharedConfig) (engine : σ) (i : InstanceId)
    (registry : Diagram.Registry) :
    (Scene.fresh config engine i ({ registry } : View)).InTune registry := by
  refine ⟨.fresh config engine i _, ⟨rfl, rfl, rfl⟩, fun _ => rfl, ?_, ?_⟩
  · intro htab
    cases htab
  · intro htab
    cases htab

theorem InTune.take (h : s.InTune registry) (e : Engine σ Empty) (move : Move σ ViewRequest) :
    (move.take e ViewRequest.obey s).InTune registry := by
  cases move with
  | call request => exact h.obey request
  | turn task =>
    refine ⟨h.sound.resume e _ task, ?_⟩
    rw [Move.take, h.sound.resume_outline]
    exact h.attuned
  | insert parent node =>
    refine ⟨h.sound.frame rfl (s.surface.insert_container parent node) ?_, h.attuned⟩
    exact .of_eq rfl rfl (s.surface.insert_attached parent node)
  | work engine => exact ⟨h.sound.frame rfl rfl (.of_eq rfl rfl rfl), h.attuned⟩

/-- The scene of a view is in tune after any course of moves. -/
theorem InTune.run (h : s.InTune registry) (e : Engine σ Empty)
    (moves : List (Move σ ViewRequest)) : (s.run e ViewRequest.obey moves).InTune registry :=
  run_invariant (fun move _ hs => hs.take e move) moves h

/-! ## What is on show -/

/-- The last session of a view on the diagram's tab is for the text of the view, if that is not
blank. -/
theorem InTune.session?_last (h : s.InTune registry) (htab : s.owner.tab = .flow) :
    (s.session? s.lastSeq).map (·.text) =
      if Text.isBlankText s.owner.diagramText then none else some s.owner.diagramText := by
  have hlatest := h.attuned.latest htab
  cases hfound : s.session? s.lastSeq with
  | none =>
    by_cases hblank : Text.isBlankText s.owner.diagramText = true
    · simp [hblank]
    · -- the text has a session, which could be found
      have hworded : Text.isBlankText s.owner.diagramText = false := by simpa using hblank
      obtain ⟨x, hx, heq⟩ := List.mem_map.mp ((hlatest _).mpr ⟨rfl, hworded⟩)
      have hsome := h.sound.books.session?_of_mem hx
      rw [show x.seq = s.lastSeq from congrArg Prod.fst heq, hfound] at hsome
      cases hsome
  | some x =>
    obtain ⟨hx, hlast⟩ := session?_eq_some hfound
    obtain ⟨htext, hworded⟩ := (hlatest x.text).mp (List.mem_map.mpr ⟨x, hx, by rw [hlast]; rfl⟩)
    have htext' : x.text = s.owner.diagramText := htext
    rw [← htext', hworded]
    rfl

/-- What a view shows goes back to its payload. -/
structure Faithful (registry : Diagram.Registry) (s : Scene σ View) : Prop where
  extracted : s.owner.Extracted registry
  /-- Away from the diagram's tab nothing is on show or under way. -/
  away : s.owner.tab ≠ .flow → s.status = {} ∧ s.live = none ∧ s.surface.container = none
  session : s.owner.tab = .flow → s.status.session = some (s.renderId s.lastSeq)
  /-- The last session is for the text in hand, and a blank text has none. -/
  latest : s.owner.tab = .flow →
    (s.session? s.lastSeq).map (·.text) =
      if Text.isBlankText s.owner.diagramText then none else some s.owner.diagramText
  blank : s.owner.tab = .flow → Text.isBlankText s.owner.diagramText = true →
    s.flowPanel = ⟨.noDiagram, none, none, s.owner.diagramText⟩
  /-- A diagram on show is what the last session came out with. -/
  markup : s.owner.tab = .flow → ∀ markup, s.flowPanel.markup = some markup →
    ∃ x, s.session? s.lastSeq = some x ∧ x.text = s.flowPanel.rawText ∧
      x.progress = .ended (.settled .rendered) ∧
      s.toRenderer.Supports (s.renderId s.lastSeq) x.text .rendered (some markup)
  /-- An error on show is what the last session came out with. -/
  error : s.owner.tab = .flow → ∀ message, s.flowPanel.error = some message →
    Text.isBlankText s.flowPanel.rawText = false ∧
      ∃ x outcome, s.session? s.lastSeq = some x ∧ x.text = s.flowPanel.rawText ∧
        x.progress = .ended (.settled outcome) ∧ outcome.message? = some message ∧
        s.toRenderer.Supports (s.renderId s.lastSeq) x.text outcome none

/-- The session in the books under the last number is for the text of the view. -/
theorem InTune.text_of_last (h : s.InTune registry) (htab : s.owner.tab = .flow) {x : Session}
    (hx : x ∈ s.sessions) (hlast : x.seq = s.lastSeq) :
    s.session? s.lastSeq = some x ∧ x.text = s.owner.diagramText ∧
      Text.isBlankText s.owner.diagramText = false := by
  have hfound : s.session? s.lastSeq = some x := hlast ▸ h.sound.books.session?_of_mem hx
  have hlatest := h.session?_last htab
  rw [hfound] at hlatest
  split at hlatest
  · cases hlatest
  · next hblank => exact ⟨hfound, Option.some.inj hlatest, by simpa using hblank⟩

theorem InTune.faithful (h : s.InTune registry) : s.Faithful registry where
  extracted := h.attuned.extracted
  away := by
    intro htab
    have hnone : s.status.session = none := h.attuned.away htab
    cases h.sound.display with
    | nothing live status container => exact ⟨status, live, container⟩
    | noDiagram live status => rw [status] at hnone; cases hnone
    | underWay x mem last live kept unsettled phase active status =>
      rw [status] at hnone; cases hnone
    | settled x mem last live kept outcome progress markup supports status =>
      rw [status] at hnone; cases hnone
  session := h.attuned.session
  latest := h.session?_last
  blank := by
    intro htab hblank
    have hsome : s.status.session = some (s.renderId s.lastSeq) := h.attuned.session htab
    cases h.sound.display with
    | nothing live status => rw [status] at hsome; cases hsome
    | noDiagram live status container => simp [flowPanel, status, container]
    | underWay x mem last =>
      have hworded := (h.text_of_last htab mem last).2.2
      exact absurd (hblank.symm.trans hworded) (by decide)
    | settled x mem last =>
      have hworded := (h.text_of_last htab mem last).2.2
      exact absurd (hblank.symm.trans hworded) (by decide)
  markup := by
    intro htab markup hmarkup
    obtain ⟨node, hnode, rfl⟩ := Option.map_eq_some_iff.mp hmarkup
    cases h.sound.display with
    | nothing live status container => rw [container] at hnode; cases hnode
    | noDiagram live status container => rw [container] at hnode; cases hnode
    | underWay x mem last live kept unsettled phase active status container =>
      rw [container] at hnode; cases hnode
    | settled x mem last live kept outcome progress shown supports status container =>
      obtain ⟨hfound, htext, -⟩ := h.text_of_last htab mem last
      rw [container] at hnode
      obtain ⟨m, rfl, rfl⟩ := Option.map_eq_some_iff.mp hnode
      cases supports with
      | rendered host raw m hbegan hanswer hm =>
        exact ⟨x, hfound, htext, progress, .rendered host raw m hbegan hanswer hm⟩
  error := by
    intro htab message hmessage
    have hmessage' : s.status.message = some message := hmessage
    cases h.sound.display with
    | nothing live status => rw [status] at hmessage'; cases hmessage'
    | noDiagram live status => rw [status] at hmessage'; cases hmessage'
    | underWay x mem last live kept unsettled phase active status =>
      rw [status] at hmessage'; cases hmessage'
    | settled x mem last live kept outcome progress shown supports status =>
      obtain ⟨hfound, htext, hworded⟩ := h.text_of_last htab mem last
      rw [status] at hmessage'
      refine ⟨hworded, x, outcome, hfound, htext, progress, hmessage', ?_⟩
      cases supports with
      | misshapen hshape => exact .misshapen hshape
      | refused m hshape hanswer => exact .refused m hshape hanswer
      | failed host m hbegan hanswer => exact .failed host m hbegan hanswer
      | rendered => cases hmessage'

end Scene

/-- After any course of requests, turns, insertions and work of the engine, what a view shows goes
back to its payload. -/
theorem view_faithful (e : Engine σ Empty) (config : SharedConfig) (engine : σ) (i : InstanceId)
    (registry : Diagram.Registry) (moves : List (Move σ ViewRequest)) :
    ((Scene.fresh config engine i ({ registry } : View)).run e ViewRequest.obey moves).Faithful
      registry :=
  ((Scene.InTune.fresh config engine i registry).run e moves).faithful

end DiagramView
