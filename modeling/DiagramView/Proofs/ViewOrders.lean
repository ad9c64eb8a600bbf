import DiagramView.Proofs.Coherence
import DiagramView.Proofs.Outline
import DiagramView.View.Controller

/-!
# Views work their schedulers through orders

Whatever is asked of a view, all that reaches its scheduler are orders for a text and orders to tear
down (`ViewStep.order?`): up to its owner, the log and whether it was closed, the scene after a step
is the scene after that order (`ViewStep.take_stage`). An order sweeps the surface, so a step that
gives one leaves nothing of the instance behind (`Order.obey_surface`), and it alone turns the
status to another session (`Scene.session_eq_none_of_orders`).
-/

namespace DiagramView

variable {σ ο : Type}

/-! ## Stages -/

/-- Two scenes with the same books, engine and surface. One of them may be closed. -/
structure Scene.SameStage (s t : Scene σ ο) : Prop where
  books : s.toSchedule =
    ⟨t.instanceId, t.lastSeq, t.live, t.status, t.sessions, s.closed⟩
  renderer : s.toRenderer = t.toRenderer
  surface : s.surface = t.surface

namespace Scene

variable {s s' t t' : Scene σ ο}

theorem SameStage.refl (s : Scene σ ο) : s.SameStage s :=
  ⟨rfl, rfl, rfl⟩

theorem SameStage.trans_eq (h : s.SameStage t) (heq : t = t') : s.SameStage t' :=
  heq ▸ h

theorem SameStage.instanceId_eq (h : s.SameStage t) : s.instanceId = t.instanceId := by
  rw [h.books]

theorem SameStage.status_eq (h : s.SameStage t) : s.status = t.status := by
  rw [h.books]

theorem SameStage.sessions_eq (h : s.SameStage t) : s.sessions = t.sessions := by
  rw [h.books]

/-- Whether a scheduler was closed does not matter to its being sound. -/
theorem Sound.of_sameStage (h : t.Sound) (hstage : s.SameStage t) : s.Sound := by
  have hclosed : Sound { t with closed := s.closed } := by
    refine ⟨⟨h.books.ascending, h.books.numbered, h.books.worded, h.books.unfinished,
      h.books.abandoned, h.books.begun, h.books.hosts⟩, ?_⟩
    cases h.display with
    | nothing live status container => exact .nothing live status container
    | noDiagram live status container earlier => exact .noDiagram live status container earlier
    | underWay x mem last live kept unsettled phase active status container =>
      exact .underWay x mem last live kept unsettled phase active status container
    | settled x mem last live kept outcome progress markup supports status container =>
      exact .settled x mem last live kept outcome progress markup supports status container
  refine hclosed.frame hstage.books (by rw [hstage.surface]) ?_
  exact .of_eq (by rw [hstage.renderer]) (by rw [hstage.renderer]) (by rw [hstage.surface])

end Scene

namespace Order

variable {s t : Scene σ ο}

/-- The status is about a session unless the last order was to tear down. -/
theorem obey_session (order : Order) (s : Scene σ ο) :
    (order.obey s).status.session = none ↔ order = .teardown := by
  cases order with
  | schedule text => simp [obey, Scene.schedule_toSchedule]
  | teardown => simp [obey]

theorem obey_sameStage (h : s.SameStage t) (order : Order) :
    (order.obey s).SameStage (order.obey t) := by
  refine ⟨?_, ?_, ?_⟩
  · cases order with
    | schedule text =>
      simp only [obey, Scene.schedule_toSchedule, Scene.renderId]
      rw [h.books]
    | teardown =>
      simp only [obey, Scene.teardown_toSchedule]
      rw [h.books]
  · rw [obey_toRenderer, obey_toRenderer, h.renderer]
  · rw [obey_surface, obey_surface, h.surface, h.instanceId_eq]

end Order

/-! ## The orders of a view -/

/-- What a step asks of the scheduler of a view. -/
def ViewStep.order? (s : Scene σ View) : ViewStep → Option Order
  | .selectTab tab =>
    if tab = s.owner.tab then none
    else if s.owner.tab = .flow then some .teardown
    else if tab = .flow then some (.schedule s.owner.diagramText)
    else none
  | .setPayload payload =>
    if s.owner.tab = .flow then
      some (.schedule (((payload.bind s.owner.registry.extract?).map (·.text)).getD ""))
    else none
  | .order given => some given
  | .close => some .teardown
  | .setRun _ | .setLoading _ | .setRequestError _ => none

/-- What a move asks of the scheduler of a view. A view that is closed asks for nothing. -/
def Move.order? (s : Scene σ View) : Move σ ViewStep → Option Order
  | .call step => if s.closed then none else step.order? s
  | .turn _ | .insert _ _ | .work _ => none

/-- What a course asks of the scheduler of a view. -/
def Scene.orders (e : Engine σ Empty) : List (Move σ ViewStep) → Scene σ View → List Order
  | [], _ => []
  | move :: moves, s => (move.order? s).toList ++ orders e moves (move.take e ViewStep.obey s)

namespace Scene

variable {s t : Scene σ View}

theorem foldl_report_sameStage (events : List Event) (s : Scene σ View) :
    (events.foldl report s).SameStage s ∧ (events.foldl report s).owner = s.owner := by
  induction events generalizing s with
  | nil => exact ⟨.refl s, rfl⟩
  | cons event events ih =>
    obtain ⟨⟨hbooks, hrenderer, hsurface⟩, howner⟩ := ih (s.report event)
    exact ⟨⟨hbooks, hrenderer, hsurface⟩, howner⟩

/-- A view on the diagram's tab orders its text, and another orders nothing. -/
theorem SameStage.renderIfActive (h : s.SameStage t) :
    s.renderIfActive.1.SameStage
      (if s.owner.tab = .flow then (Order.schedule s.owner.diagramText).obey t else t) := by
  unfold Scene.renderIfActive
  split
  · exact Order.obey_sameStage h (.schedule s.owner.diagramText)
  · exact h

end Scene

/-- A step does to the scheduler of a view what its order does. -/
theorem ViewStep.take_stage (step : ViewStep) (s : Scene σ View) :
    (step.take s).1.SameStage ((step.order? s).elim s (·.obey s)) := by
  cases step with
  | selectTab tab =>
    simp only [take, Scene.selectTab, order?]
    by_cases hsame : tab = s.owner.tab
    · simp only [hsame, ↓reduceIte]
      exact .refl s
    by_cases hleft : s.owner.tab = .flow
    · -- whoever leaves the diagram's tab comes to another one
      have htab : tab ≠ .flow := fun heq => hsame (heq.trans hleft.symm)
      have hstage : ((s.teardown.report (.tabSwitched s.owner.tab.name tab.name)).updateView
          fun v => { v with tab }.bump).SameStage s.teardown := ⟨rfl, rfl, rfl⟩
      simp only [if_neg hsame, if_pos hleft]
      exact hstage.renderIfActive.trans_eq (if_neg htab)
    · have hstage : ((s.report (.tabSwitched s.owner.tab.name tab.name)).updateView
          fun v => { v with tab }.bump).SameStage s := ⟨rfl, rfl, rfl⟩
      simp only [if_neg hsame, if_neg hleft]
      refine hstage.renderIfActive.trans_eq ?_
      by_cases htab : tab = .flow
      · rw [if_pos htab]
        exact if_pos htab
      · rw [if_neg htab]
        exact if_neg htab
  | setPayload payload =>
    obtain ⟨⟨hbooks, hrenderer, hsurface⟩, howner⟩ := Scene.foldl_report_sameStage
      (View.payloadEvents payload (payload.bind s.owner.registry.extract?)) s
    have hstage : (((View.payloadEvents payload
        (payload.bind s.owner.registry.extract?)).foldl Scene.report s).updateView
          fun v => v.withPayload payload (payload.bind s.owner.registry.extract?)).SameStage s :=
      ⟨hbooks, hrenderer, hsurface⟩
    refine hstage.renderIfActive.trans_eq ?_
    simp only [Scene.updateView, View.withPayload, View.bump, howner, order?]
    split <;> rfl
  | setRun run => exact ⟨rfl, rfl, rfl⟩
  | setLoading loading => exact ⟨rfl, rfl, rfl⟩
  | setRequestError message => exact ⟨rfl, rfl, rfl⟩
  | order given =>
    cases given with
    | schedule text => exact .refl _
    | teardown => exact .refl _
  | close => exact ⟨rfl, rfl, rfl⟩

namespace Scene

variable {s : Scene σ View}

theorem obey_stage (step : ViewStep) (s : Scene σ View) :
    (step.obey s).SameStage (((Move.call step : Move σ ViewStep).order? s).elim s (·.obey s)) := by
  unfold ViewStep.obey Move.order?
  dsimp only
  split
  · exact .refl s
  · exact step.take_stage s

theorem Sound.step (h : s.Sound) (step : ViewStep) : (step.obey s).Sound := by
  refine Sound.of_sameStage ?_ (obey_stage step s)
  cases (Move.call step : Move σ ViewStep).order? s with
  | none => exact h
  | some order => exact h.obey order

/-- The session that the status is about changes with orders alone. -/
theorem Sound.session_take (h : s.Sound) (e : Engine σ Empty) (move : Move σ ViewStep) :
    (move.order? s = none → (move.take e ViewStep.obey s).status.session = s.status.session) ∧
      (move.order? s = some .teardown → (move.take e ViewStep.obey s).status.session = none) := by
  cases move with
  | call step =>
    have hstage := obey_stage step s
    refine ⟨?_, ?_⟩ <;> intro horder <;> rw [horder] at hstage
    · exact congrArg Status.session hstage.status_eq
    · refine (congrArg Status.session hstage.status_eq).trans ?_
      exact (Order.obey_session .teardown s).mpr rfl
  | turn task =>
    refine ⟨fun _ => ?_, fun horder => by cases horder⟩
    exact congrArg Outline.session (h.resume_outline e _ task)
  | insert parent node => exact ⟨fun _ => rfl, fun horder => by cases horder⟩
  | work engine => exact ⟨fun _ => rfl, fun horder => by cases horder⟩

/-- The status is about no session if the last order was to tear down. -/
theorem Sound.session_eq_none_of_orders (h : s.Sound) (e : Engine σ Empty)
    {moves : List (Move σ ViewStep)} :
    (s.orders e moves = [] → (s.run e ViewStep.obey moves).status.session = s.status.session) ∧
      ((s.orders e moves).getLast? = some .teardown →
        (s.run e ViewStep.obey moves).status.session = none) := by
  induction moves generalizing s with
  | nil => exact ⟨fun _ => rfl, fun hlast => by cases hlast⟩
  | cons move moves ih =>
    obtain ⟨hkept, hcleared⟩ := h.session_take e move
    obtain ⟨hnil, hlast⟩ := ih (h.take e (fun step _ hs => hs.step step) move)
    refine ⟨?_, ?_⟩ <;> intro horders
    · obtain ⟨hfirst, hrest⟩ := List.append_eq_nil_iff.mp horders
      exact (hnil hrest).trans (hkept (Option.toList_eq_nil_iff.mp hfirst))
    · by_cases hrest : (move.take e ViewStep.obey s).orders e moves = []
      · -- the teardown was the order of this move, and nothing was ordered since
        simp only [orders, hrest, List.append_nil] at horders
        refine (hnil hrest).trans (hcleared ?_)
        cases horder : move.order? s with
        | none => rw [horder] at horders; cases horders
        | some order => rw [horder] at horders; exact horders
      · refine hlast ?_
        rw [orders, List.getLast?_append] at horders
        cases hgiven : ((move.take e ViewStep.obey s).orders e moves).getLast? with
        | none => exact absurd (List.getLast?_eq_none_iff.mp hgiven) hrest
        | some order => simpa [hgiven] using horders

end Scene

end DiagramView
