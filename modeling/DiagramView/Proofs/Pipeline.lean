import DiagramView.Proofs.Faithful

/-!
# Views agree with the direct way

A view works in turns, gives sessions up, and hears late from its engine. The direct way from a
payload to a panel (`Pipeline.panel?`) does none of this: it takes the text out of the payload, asks
for a verdict and for a result, and neutralizes the markup. Whenever a view on the diagram's tab has
no session under way, the panel that it shows is the direct one for its last payload
(`view_eq_pipeline`), whatever happened before.

Verdicts and results are functions here, as they are for an engine that answers the same question in
the same way each time (`Renderer.AnswersAs`).
-/

namespace DiagramView

variable {σ : Type}

/-- How texts are found and what an engine makes of them. -/
structure Pipeline where
  registry : Diagram.Registry
  verdict : String → Except String Unit
  result : RenderId → String → Except String String

namespace Pipeline

/-- The diagram text of a payload, empty when there is none. -/
def text (p : Pipeline) (payload : Option Json) : String :=
  match payload with
  | none => ""
  | some v => p.registry.normalize v

/-- The panel for a text that is rendered under an id. There is none when the markup cannot be
neutralized. -/
def show? (p : Pipeline) (id : RenderId) (text : String) : Option FlowPanel :=
  if Text.isBlankText text then some ⟨.noDiagram, none, none, text⟩
  else if Diagram.looksLikeDiagram text then
    match p.verdict text with
    | .error message => some ⟨.parseError, none, some message, text⟩
    | .ok () =>
      match p.result id text with
      | .error message => some ⟨.renderError, none, some message, text⟩
      | .ok raw =>
        (Markup.neutralize raw).markup.map fun markup => ⟨.rendered, some markup, none, text⟩
  else some ⟨.parseError, none, some ParseError.notDiagramShaped.message, text⟩

/-- The panel for a payload whose text is rendered under an id. -/
def panel? (p : Pipeline) (id : RenderId) (payload : Option Json) : Option FlowPanel :=
  p.show? id (p.text payload)

end Pipeline

/-! ## Engines that answer consistently -/

/-- The answers on record are those of a pipeline: each verdict that of the text, and each result
that of the id and the text of the call. -/
structure Renderer.AnswersAs (p : Pipeline) (r : Renderer σ) : Prop where
  verdicts : ∀ text answer, .verdict text answer ∈ r.answers → answer = p.verdict text
  results : ∀ id text host phase answer, ⟨.render id text host, phase⟩ ∈ r.calls →
    .result host answer ∈ r.answers → answer = p.result id text

/-- Whether an answer is the one that a pipeline has, given the calls on record. -/
def Pipeline.gives (p : Pipeline) (calls : List EngineCall) : EngineAnswer → Bool
  | .verdict text answer => answer = p.verdict text
  | .result host answer =>
    calls.all fun call =>
      match call.request with
      | .render id text h => h ≠ host ∨ answer = p.result id text
      | _ => true

/-- A record can be checked answer by answer. -/
theorem Renderer.AnswersAs.of_all {p : Pipeline} {r : Renderer σ}
    (h : r.answers.all (p.gives r.calls) = true) : r.AnswersAs p := by
  have hgives := List.all_eq_true.mp h
  refine ⟨?_, ?_⟩
  · intro text answer hanswer
    simpa [Pipeline.gives] using hgives _ hanswer
  · intro id text host phase answer hcall hanswer
    have hresult := List.all_eq_true.mp (hgives _ hanswer) _ hcall
    simpa using hresult

/-- An outcome that the record bears out is the one that the pipeline comes to. -/
theorem Renderer.Supports.show?_eq {p : Pipeline} {r : Renderer σ} (hr : r.AnswersAs p)
    {id : RenderId} {text : String} {outcome : Outcome} {markup : Option String}
    (h : r.Supports id text outcome markup) (hworded : Text.isBlankText text = false) :
    p.show? id text = some ⟨outcome.phase, markup, outcome.message?, text⟩ := by
  simp only [Pipeline.show?, hworded, Bool.false_eq_true, ↓reduceIte]
  cases h with
  | misshapen hshape => simp [hshape, Outcome.phase, Outcome.message?]
  | refused message hshape hanswer =>
    simp [hshape, ← hr.verdicts _ _ hanswer, Outcome.phase, Outcome.message?]
  | failed host message hbegan hanswer =>
    obtain ⟨phase, hcall⟩ := hbegan.called
    simp [hbegan.looksLikeDiagram, ← hr.verdicts _ _ hbegan.accepted,
      ← hr.results _ _ _ _ _ hcall hanswer, Outcome.phase, Outcome.message?]
  | rendered host raw m hbegan hanswer hm =>
    obtain ⟨phase, hcall⟩ := hbegan.called
    simp [hbegan.looksLikeDiagram, ← hr.verdicts _ _ hbegan.accepted,
      ← hr.results _ _ _ _ _ hcall hanswer, hm, Outcome.phase, Outcome.message?]

/-! ## The last payload -/

/-- The payload that is the last one after a move. -/
def Move.payloadAfter (payload : Option Json) : Move σ ViewRequest → Option Json
  | .call ⟨.setPayload new, _⟩ => new
  | _ => payload

/-- The last payload that a view was given in a course of moves. -/
def lastPayload (moves : List (Move σ ViewRequest)) : Option Json :=
  moves.foldl Move.payloadAfter none

namespace Scene

variable {s : Scene σ View} {registry : Diagram.Registry}

theorem renderIfActive_owner (s : Scene σ View) : s.renderIfActive.1.owner = s.owner := by
  unfold renderIfActive
  split
  · exact congrArg Outline.owner (s.schedule_outline _)
  · rfl

theorem obey_payload (request : ViewRequest) (s : Scene σ View) :
    (request.obey s).owner.payload =
      Move.payloadAfter (σ := σ) s.owner.payload (.call request) := by
  obtain ⟨step, hown⟩ := request
  cases step with
  | selectTab tab =>
    change (s.selectTab tab).1.owner.payload = s.owner.payload
    unfold selectTab
    split
    · rfl
    · rw [renderIfActive_owner]
      split
      · exact congrArg (fun o : Outline View => o.owner.payload) s.teardown_outline
      · rfl
  | setPayload payload =>
    change (s.setPayload payload).1.owner.payload = payload
    rw [setPayload, renderIfActive_owner]
    rfl
  | setRun run => rfl
  | setLoading loading =>
    change (s.setLoading loading).owner.payload = s.owner.payload
    simp only [setLoading, updateView]
    split <;> rfl
  | setRequestError message => rfl
  | order order => cases hown
  | close => cases hown

theorem Sound.take_payload (h : s.Sound) (e : Engine σ Empty) (move : Move σ ViewRequest) :
    (move.take e ViewRequest.obey s).owner.payload = move.payloadAfter s.owner.payload := by
  cases move with
  | call request => exact s.obey_payload request
  | turn task =>
    exact congrArg (fun o : Outline View => o.owner.payload) (h.resume_outline e _ task)
  | insert parent node => rfl
  | work engine => rfl

/-- A view keeps the last payload that it was given. -/
theorem InTune.run_payload (h : s.InTune registry) (e : Engine σ Empty)
    (moves : List (Move σ ViewRequest)) :
    (s.run e ViewRequest.obey moves).owner.payload =
      moves.foldl Move.payloadAfter s.owner.payload := by
  induction moves generalizing s with
  | nil => rfl
  | cons move moves ih =>
    refine (ih (h.take e move)).trans ?_
    rw [h.sound.take_payload, List.foldl_cons]

theorem InTune.text_eq {p : Pipeline} (h : s.InTune p.registry) :
    s.owner.diagramText = p.text s.owner.payload := by
  have htext : s.owner.diagramText =
      ((s.owner.payload.bind p.registry.extract?).map (·.text)).getD "" :=
    h.attuned.extracted.text
  rw [htext]
  cases s.owner.payload with
  | none => rfl
  | some v =>
    simp only [Option.bind_some, Pipeline.text, Diagram.Registry.normalize]
    cases p.registry.extract? v <;> rfl

/-- A view at rest on the diagram's tab shows what the pipeline makes of its text. -/
theorem InTune.show?_eq {p : Pipeline} (h : s.InTune p.registry)
    (hanswers : s.toRenderer.AnswersAs p) (htab : s.owner.tab = .flow) (hrest : s.live = none) :
    p.show? (s.renderId s.lastSeq) s.owner.diagramText = some s.flowPanel := by
  have hsession : s.status.session = some (s.renderId s.lastSeq) := h.attuned.session htab
  cases h.sound.display with
  | nothing live status => rw [status] at hsession; cases hsession
  | noDiagram live status container earlier =>
    -- a text that is not blank would have a session under the last number
    have hblank : Text.isBlankText s.owner.diagramText = true := by
      cases hworded : Text.isBlankText s.owner.diagramText with
      | true => rfl
      | false =>
        have hlatest := h.session?_last htab
        rw [hworded] at hlatest
        obtain ⟨x, hfound, -⟩ := Option.map_eq_some_iff.mp hlatest
        obtain ⟨hx, hlast⟩ := session?_eq_some hfound
        exact absurd hlast (Nat.ne_of_lt (earlier x hx))
    simp [Pipeline.show?, hblank, flowPanel, status, container]
  | underWay x mem last live => rw [live] at hrest; cases hrest
  | settled x mem last live kept outcome progress markup supports status container =>
    obtain ⟨-, htext, hworded⟩ := h.text_of_last htab mem last
    rw [htext] at supports
    rw [supports.show?_eq hanswers hworded]
    cases markup <;> simp [flowPanel, status, container]

end Scene

/-- Whenever a view that is on the diagram's tab has no session under way, it shows the panel that
the direct way from its last payload leads to. -/
theorem view_eq_pipeline (e : Engine σ Empty) (config : SharedConfig) (engine : σ)
    (i : InstanceId) (p : Pipeline) (moves : List (Move σ ViewRequest)) {s : Scene σ View}
    (hs : s = (Scene.fresh config engine i ({ registry := p.registry } : View)).run e
      ViewRequest.obey moves)
    (hanswers : s.toRenderer.AnswersAs p) (htab : s.owner.tab = .flow) (hrest : s.live = none)
    (hloading : s.owner.loading = false) (herror : s.owner.requestError = none) :
    ∃ panel, p.panel? (s.renderId s.lastSeq) (lastPayload moves) = some panel ∧
      s.panel = .flow panel := by
  have hstart := Scene.InTune.fresh config engine i p.registry
  have htune : s.InTune p.registry := hs ▸ hstart.run e moves
  have hpayload : s.owner.payload = lastPayload moves := hs ▸ hstart.run_payload e moves
  refine ⟨s.flowPanel, ?_, by simp [Scene.panel, hloading, herror, htab]⟩
  rw [Pipeline.panel?, ← hpayload, ← htune.text_eq]
  exact htune.show?_eq hanswers htab hrest

/-! ## A late failure does not show -/

/-- An engine whose calls all come to their end at one moment, the first of them with a failure. -/
def lateEngine : Engine Bool Empty where
  configure _ released := released
  validate _ released := ⟨released, [], .ok ()⟩
  render _ _ _ released := ⟨released, [], ()⟩
  poll host released :=
    if released then
      some ⟨released, [], if host = ⟨1⟩ then .error "out of space" else .ok "<svg/>"⟩
    else none

/-- What that engine makes of two texts. -/
def latePipeline : Pipeline where
  registry := .standard
  verdict _ := .ok ()
  result _ text := if text = "graph TD" then .error "out of space" else .ok "<svg/>"

/-- A second payload comes while the first is being rendered. Both calls come to their end, and the
call for the first payload is looked at before the other. -/
def lateMoves : List (Move Bool ViewRequest) :=
  let session seq : Move Bool ViewRequest := .turn ⟨.numbered 1, seq, .session⟩
  let sweep seq : Move Bool ViewRequest := .turn ⟨.numbered 1, seq, .sweep⟩
  [.call ⟨.setPayload (some (.string "graph TD")), rfl⟩, .call ⟨.selectTab .flow, rfl⟩,
    session 1, session 1, .call ⟨.setPayload (some (.string "graph LR")), rfl⟩, session 2,
    session 1, session 2, .work true, sweep 1, session 2]

def lateScene : Scene Bool View :=
  (Scene.fresh {} false (.numbered 1) ({} : View)).run lateEngine ViewRequest.obey lateMoves

theorem view_eq_pipeline_late :
    (lateScene.toRenderer.AnswersAs latePipeline ∧ lateScene.owner.tab = .flow ∧
      lateScene.live = none ∧ lateScene.owner.loading = false ∧
      lateScene.owner.requestError = none) ∧
    ∃ panel, latePipeline.panel? (lateScene.renderId lateScene.lastSeq)
        (lastPayload lateMoves) = some panel ∧ lateScene.panel = .flow panel := by
  have hanswers : lateScene.toRenderer.AnswersAs latePipeline := .of_all (by decide +kernel)
  have htab : lateScene.owner.tab = .flow := by decide +kernel
  have hrest : lateScene.live = none := by decide +kernel
  have hloading : lateScene.owner.loading = false := by decide +kernel
  have herror : lateScene.owner.requestError = none := by decide +kernel
  exact ⟨⟨hanswers, htab, hrest, hloading, herror⟩,
    view_eq_pipeline lateEngine {} false (.numbered 1) latePipeline lateMoves rfl hanswers htab
      hrest hloading herror⟩

end DiagramView
