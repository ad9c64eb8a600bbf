import DiagramView.Proofs.LifeCycle
import DiagramView.Proofs.Pipeline
import DiagramView.Proofs.ViewOrders

/-!
# What the revision of a view covers

A request either counts and bumps the revision, or changes nothing at all (`ViewRequest.counts`).
So two scenes of a course with the same revision have the same view (`Scene.Sound.unbumped_run`),
unless the count has gone all the way round.

The diagram on show is not part of the view, and turns change it without a bump. Between scenes with
the same revision they bring forward the one session that is shown, so the panels are the same
unless the diagram's is shown and the phase of that session has changed
(`revision_covers_view`). A course in which it has is `panel_changed_unnoticed`.
-/

namespace DiagramView

variable {σ : Type}

/-! ## Bumps -/

/-- Whether a request bumps the revision. -/
def ViewRequest.counts (s : Scene σ View) (request : ViewRequest) : Bool :=
  match request.1 with
  | .selectTab tab => tab ≠ s.owner.tab
  | .setLoading loading => s.owner.loading ≠ loading
  | .setPayload _ | .setRun _ | .setRequestError _ => true
  | .order _ | .close => false

def Move.counts (s : Scene σ View) : Move σ ViewRequest → Bool
  | .call request => request.counts s
  | .turn _ | .insert _ _ | .work _ => false

/-- The number of bumps in a course. -/
def Scene.bumps (e : Engine σ Empty) : List (Move σ ViewRequest) → Scene σ View → Nat
  | [], _ => 0
  | move :: moves, s =>
    (move.counts s).toNat + bumps e moves (move.take e ViewRequest.obey s)

namespace Scene

variable {s t : Scene σ View} {e : Engine σ Empty}

theorem obey_of_not_counts {request : ViewRequest} (h : request.counts s = false) :
    request.obey s = s := by
  obtain ⟨step, hown⟩ := request
  cases step with
  | selectTab tab =>
    have htab : tab = s.owner.tab := by simpa [ViewRequest.counts] using h
    change (s.selectTab tab).1 = s
    rw [selectTab, if_pos htab]
  | setLoading loading =>
    have hloading : s.owner.loading = loading := by simpa [ViewRequest.counts] using h
    change s.setLoading loading = s
    simp only [setLoading, updateView, hloading, ↓reduceIte]
  | setPayload payload => cases h
  | setRun run => cases h
  | setRequestError message => cases h
  | order order => cases hown
  | close => cases hown

theorem obey_rev (request : ViewRequest) (s : Scene σ View) :
    (request.obey s).owner.rev = s.owner.rev + UInt64.ofNat (request.counts s).toNat := by
  cases hcounts : request.counts s with
  | false => simp [obey_of_not_counts hcounts]
  | true =>
    obtain ⟨step, hown⟩ := request
    cases step with
    | selectTab tab =>
      have htab : tab ≠ s.owner.tab := by simpa [ViewRequest.counts] using hcounts
      change (s.selectTab tab).1.owner.rev = s.owner.rev + 1
      rw [selectTab, if_neg htab, renderIfActive_owner]
      split
      · exact congrArg (fun o : Outline View => o.owner.rev + 1) s.teardown_outline
      · rfl
    | setPayload payload =>
      change (s.setPayload payload).1.owner.rev = s.owner.rev + 1
      have howner := (foldl_report_sameStage
        (View.payloadEvents payload (payload.bind s.owner.registry.extract?)) s).2
      rw [setPayload, renderIfActive_owner]
      simp only [updateView, View.withPayload, View.bump, howner]
    | setRun run => rfl
    | setLoading loading =>
      have hloading : s.owner.loading ≠ loading := by simpa [ViewRequest.counts] using hcounts
      change (s.setLoading loading).owner.rev = s.owner.rev + 1
      simp only [setLoading, updateView, if_neg hloading]
      rfl
    | setRequestError message => rfl
    | order order => cases hown
    | close => cases hown

theorem Sound.take_rev (h : s.Sound) (e : Engine σ Empty) (move : Move σ ViewRequest) :
    (move.take e ViewRequest.obey s).owner.rev =
      s.owner.rev + UInt64.ofNat (move.counts s).toNat := by
  cases move with
  | call request => exact obey_rev request s
  | turn task =>
    refine (congrArg (fun o : Outline View => o.owner.rev) (h.resume_outline e _ task)).trans ?_
    simp [Move.counts, outline]
  | insert parent node => simp [Move.counts, Move.take]
  | work engine => simp [Move.counts, Move.take]

/-! ## Scenes that a course may come to -/

theorem Staged.of_sameStage (h : t.Staged) (hstage : s.SameStage t) : s.Staged := by
  refine ⟨?_, ?_⟩ <;> rw [hstage.books]
  · exact h.resting
  · exact h.phase

/-- Every move leaves a sound scene whose phase tells how far the live session has come. -/
theorem Sound.take_staged (h : s.Sound) (hstaged : s.Staged) (e : Engine σ Empty)
    (move : Move σ ViewRequest) :
    (move.take e ViewRequest.obey s).Sound ∧ (move.take e ViewRequest.obey s).Staged := by
  cases move with
  | call request =>
    have hstage := request.1.take_stage s
    cases horder : request.1.order? s with
    | none =>
      rw [horder] at hstage
      exact ⟨h.of_sameStage hstage, hstaged.of_sameStage hstage⟩
    | some order =>
      rw [horder] at hstage
      exact ⟨(h.obey order).of_sameStage hstage, (hstaged.obey h.books order).of_sameStage hstage⟩
  | turn task => exact ⟨h.resume e _ task, (h.staged_resume hstaged e _ task).1⟩
  | insert parent node =>
    refine ⟨h.frame rfl (s.surface.insert_container parent node) ?_, hstaged.frame rfl⟩
    exact .of_eq rfl rfl (s.surface.insert_attached parent node)
  | work engine => exact ⟨h.frame rfl rfl (.of_eq rfl rfl rfl), hstaged.frame rfl⟩

theorem Sound.run_staged (h : s.Sound) (hstaged : s.Staged) (e : Engine σ Empty)
    (moves : List (Move σ ViewRequest)) :
    (s.run e ViewRequest.obey moves).Sound ∧ (s.run e ViewRequest.obey moves).Staged :=
  run_invariant (P := fun s => s.Sound ∧ s.Staged)
    (fun move _ hs => hs.1.take_staged hs.2 e move) moves ⟨h, hstaged⟩

theorem Sound.run_rev (h : s.Sound) (hstaged : s.Staged) (e : Engine σ Empty)
    (moves : List (Move σ ViewRequest)) :
    (s.run e ViewRequest.obey moves).owner.rev = s.owner.rev + UInt64.ofNat (s.bumps e moves) := by
  induction moves generalizing s with
  | nil => exact (UInt64.add_zero _).symm
  | cons move moves ih =>
    obtain ⟨hsound, hstaged'⟩ := h.take_staged hstaged e move
    refine (ih hsound hstaged').trans ?_
    rw [h.take_rev, bumps, UInt64.ofNat_add, UInt64.add_assoc]

/-- With fewer bumps than it takes to go all the way round, the revision is the same again only
where there was none. -/
theorem Sound.bumps_eq_zero (h : s.Sound) (hstaged : s.Staged) {e : Engine σ Empty}
    {moves : List (Move σ ViewRequest)} (hfew : s.bumps e moves < UInt64.size)
    (hrev : (s.run e ViewRequest.obey moves).owner.rev = s.owner.rev) : s.bumps e moves = 0 := by
  rw [h.run_rev hstaged e moves, UInt64.add_eq_left] at hrev
  have hnat := congrArg UInt64.toNat hrev
  rwa [UInt64.toNat_ofNat_of_lt' hfew] at hnat

/-! ## Courses without a bump -/

/-- While no session is live, nothing that a task does reaches the container. -/
theorem Sound.idle_act {x : Session} (h : s.Sound) (hidle : s.live = none)
    (hact : Act e s x t) : t.live = none ∧ t.surface.container = s.surface.container := by
  have hkept : x ∈ s.sessions → x.cancelled = false → x.end? ≠ none := by
    intro hx hcancelled hopen
    have hlive := h.books.unfinished x hx hcancelled hopen
    rw [hidle] at hlive
    cases hlive
  cases hact with
  | stepBack hx hprogress hcancelled =>
    exact absurd (by simp [Session.end?, hprogress]) (hkept hx hcancelled)
  | discard hx hprogress hcancelled => exact ⟨hidle, h.container_remove hx hcancelled⟩
  | abandon host hx hprogress hcancelled => exact ⟨hidle, h.container_remove hx hcancelled⟩
  | refuse error hx hprogress hcancelled =>
    exact absurd (by simp [Session.end?, hprogress]) (hkept hx hcancelled)
  | begin keyword hx hprogress hcancelled =>
    exact absurd (by simp [Session.end?, hprogress]) (hkept hx hcancelled)
  | takeResult host response hx hprogress hcancelled =>
    exact absurd (by simp [Session.end?, hprogress]) (hkept hx hcancelled)
  | cleanUp host response hx habandoned hpoll =>
    have hcancelled := h.books.abandoned x hx (by simp [habandoned])
    have hbooks := cleanUp_toSchedule x.seq host response.answer (s.onBench response.after)
    refine ⟨?_, ?_⟩
    · rw [hbooks]
      exact hidle
    · have hcontainer : response.after.surface.container = s.surface.container := by
        rw [Response.after_container, (Bench.poll_eq_some hpoll).1]
      have hswept := h.container_remove hx hcancelled
      rw [(cleanUp_surface x.seq host response.answer _).2]
      split
      · exact hcontainer
      · change response.after.surface.container.filter _ = _
        rw [hcontainer]
        exact hswept

theorem Sound.idle_resume (h : s.Sound) (hidle : s.live = none) (e : Engine σ Empty)
    (obey : Empty → Scene σ View → Scene σ View) (task : Task) :
    (s.resume e obey task).surface.container = s.surface.container := by
  have hturn : (s.resume e obey task).Sound ∧ (s.resume e obey task).live = none ∧
      (s.resume e obey task).surface.container = s.surface.container := by
    refine resume_induction
      (P := fun t => t.Sound ∧ t.live = none ∧ t.surface.container = s.surface.container) ?_
      h.books ⟨h, hidle, rfl⟩ task
    rintro s₁ x s₂ ⟨hsound, hlive, hcontainer⟩ hact
    obtain ⟨hlive', hcontainer'⟩ := hsound.idle_act hlive hact
    exact ⟨hsound.act hact, hlive', hcontainer'.trans hcontainer⟩
  exact hturn.2.2

/-- What a course without a bump leaves alone: the view and the session that is shown, which comes
further, and all there is to see where no session is under way. -/
structure Unbumped (s t : Scene σ View) : Prop where
  outline : t.outline = s.outline
  leads : Leads s t
  container : s.live = none → t.surface.container = s.surface.container

namespace Unbumped

theorem refl (s : Scene σ View) : Unbumped s s :=
  ⟨rfl, .of_eq rfl rfl, fun _ => rfl⟩

theorem trans {u : Scene σ View} (h : Unbumped s t) (h' : Unbumped t u) : Unbumped s u := by
  refine ⟨h'.outline.trans h.outline, h.leads.trans h'.leads, fun hidle => ?_⟩
  exact (h'.container (h.leads.idle hidle).1).trans (h.container hidle)

theorem owner (h : Unbumped s t) : t.owner = s.owner :=
  congrArg Outline.owner h.outline

theorem session (h : Unbumped s t) : t.status.session = s.status.session :=
  congrArg Outline.session h.outline

end Unbumped

theorem Sound.unbumped_take (h : s.Sound) (hstaged : s.Staged) {move : Move σ ViewRequest}
    (hcounts : move.counts s = false) : Unbumped s (move.take e ViewRequest.obey s) := by
  cases move with
  | call request =>
    rw [Move.take, obey_of_not_counts hcounts]
    exact .refl s
  | turn task =>
    exact ⟨h.resume_outline e _ task, (h.staged_resume hstaged e _ task).2,
      fun hidle => h.idle_resume hidle e _ task⟩
  | insert parent node => exact ⟨rfl, .of_eq rfl rfl, fun _ => s.surface.insert_container _ _⟩
  | work engine => exact ⟨rfl, .of_eq rfl rfl, fun _ => rfl⟩

theorem Sound.unbumped_run (h : s.Sound) (hstaged : s.Staged) {moves : List (Move σ ViewRequest)}
    (hnone : s.bumps e moves = 0) : Unbumped s (s.run e ViewRequest.obey moves) := by
  induction moves generalizing s with
  | nil => exact .refl s
  | cons move moves ih =>
    obtain ⟨hsound, hstaged'⟩ := h.take_staged hstaged e move
    rw [bumps, Nat.add_eq_zero_iff] at hnone
    have hcounts : move.counts s = false := by simpa using hnone.1
    exact (h.unbumped_take hstaged hcounts).trans (ih hsound hstaged' hnone.2)

/-! ## What the revision covers -/

/-- Whether the diagram's panel is shown. -/
def showsDiagram (s : Scene σ View) : Bool :=
  !s.owner.loading && s.owner.requestError.isNone && s.owner.tab = .flow

theorem panel_of_showsDiagram (h : s.showsDiagram = true) : s.panel = .flow s.flowPanel := by
  simp only [showsDiagram, Bool.and_eq_true, Bool.not_eq_true', Option.isNone_iff_eq_none,
    decide_eq_true_eq] at h
  obtain ⟨⟨hloading, herror⟩, htab⟩ := h
  simp [panel, hloading, herror, htab]

/-- Where the diagram's panel is not shown, the view alone tells which panel is. -/
theorem panel_congr (howner : t.owner = s.owner) (h : s.showsDiagram = false) :
    t.panel = s.panel := by
  unfold panel
  rw [howner]
  cases hloading : s.owner.loading with
  | true => rfl
  | false =>
    cases herror : s.owner.requestError with
    | some message => rfl
    | none =>
      cases htab : s.owner.tab with
      | explanation => rfl
      | output => rfl
      | flow => simp [showsDiagram, hloading, herror, htab] at h

/-- A session under way shows its phase and nothing else. -/
theorem Sound.flowPanel_of_isUnderWay (h : s.Sound) (hphase : s.status.phase.isUnderWay = true) :
    s.flowPanel = ⟨s.status.phase, none, none, s.owner.diagramText⟩ := by
  cases h.display with
  | nothing live status => rw [status] at hphase; cases hphase
  | noDiagram live status => rw [status] at hphase; cases hphase
  | underWay x mem last live kept unsettled phase active status container =>
    simp [flowPanel, status, container]
  | settled x mem last live kept outcome progress markup supports status =>
    rw [status] at hphase
    cases outcome <;> cases hphase

theorem Sound.isUnderWay_of_live (h : s.Sound) {seq : Nat} (hlive : s.live = some seq) :
    s.status.phase.isUnderWay = true := by
  cases h.display with
  | nothing live => rw [live] at hlive; cases hlive
  | noDiagram live => rw [live] at hlive; cases hlive
  | underWay x mem last live kept unsettled phase active status =>
    rw [status]
    exact active
  | settled x mem last live => rw [live] at hlive; cases hlive

theorem Unbumped.flowPanel_of_idle (h : Unbumped s t) (hidle : s.live = none) :
    t.flowPanel = s.flowPanel := by
  simp only [flowPanel, (h.leads.idle hidle).2, h.container hidle, h.owner]

/-- The diagram's panel changes with the phase of the session that it shows. -/
theorem Unbumped.flowPanel_iff (h : Unbumped s t) (hs : s.Sound) (ht : t.Sound) :
    t.flowPanel = s.flowPanel ↔ t.status.phase = s.status.phase := by
  refine ⟨congrArg FlowPanel.phase, fun hphase => ?_⟩
  cases hlive : s.live with
  | none => exact h.flowPanel_of_idle hlive
  | some seq =>
    have hs' := hs.isUnderWay_of_live hlive
    rw [hs.flowPanel_of_isUnderWay hs', ht.flowPanel_of_isUnderWay (hphase ▸ hs'), hphase, h.owner]

/-- What two scenes of a course with the same revision have in common. -/
structure SameRevision (s t : Scene σ View) : Prop where
  view : t.owner = s.owner
  /-- The panels differ only where the diagram's is shown and its session has come further. -/
  panel_iff : t.panel = s.panel ↔ s.showsDiagram = false ∨ t.status.phase = s.status.phase
  idle : s.live = none → t.panel = s.panel
  session : t.status.session = s.status.session
  phase : s.status.phase.leadsTo t.status.phase = true

theorem Unbumped.sameRevision (h : Unbumped s t) (hs : s.Sound) (ht : t.Sound) :
    s.SameRevision t := by
  have hshown : t.showsDiagram = s.showsDiagram := by rw [showsDiagram, showsDiagram, h.owner]
  have hpanel : t.panel = s.panel ↔
      s.showsDiagram = false ∨ t.status.phase = s.status.phase := by
    cases hshows : s.showsDiagram with
    | false => simp [panel_congr h.owner hshows]
    | true =>
      rw [panel_of_showsDiagram hshows, panel_of_showsDiagram (hshown.trans hshows)]
      simp [h.flowPanel_iff hs ht]
  refine ⟨h.owner, hpanel, fun hidle => hpanel.mpr (.inr ?_), h.session, h.leads.phase⟩
  rw [(h.leads.idle hidle).2]

end Scene

/-- Two points of a course with the same revision, which has not gone all the way round, show the
same panel, unless it is the diagram's and the session that it shows has come further in between. -/
theorem revision_covers_view (e : Engine σ Empty) (config : SharedConfig) (engine : σ)
    (i : InstanceId) (registry : Diagram.Registry) (before between : List (Move σ ViewRequest))
    {s t : Scene σ View}
    (hs : s = (Scene.fresh config engine i ({ registry } : View)).run e ViewRequest.obey before)
    (ht : t = s.run e ViewRequest.obey between) (hfew : s.bumps e between < UInt64.size)
    (hrev : t.owner.rev = s.owner.rev) : s.SameRevision t := by
  have hstart := (Scene.Sound.fresh config engine i ({ registry } : View)).run_staged
    (.fresh config engine i _) e before
  rw [← hs] at hstart
  have hend := hstart.1.run_staged hstart.2 e between
  subst ht
  have hnone := hstart.1.bumps_eq_zero hstart.2 hfew hrev
  exact (hstart.1.unbumped_run hstart.2 hnone).sameRevision hstart.1 hend.1

/-! ## A session that comes to its end -/

/-- A view that has come to the diagram's tab, with or without a request under way. -/
def arrivalMoves (loading : Bool) : List (Move Bool ViewRequest) :=
  lateMoves.take 2 ++ [.call ⟨.setLoading loading, rfl⟩]

def arrivedScene (loading : Bool) : Scene Bool View :=
  (Scene.fresh {} true (.numbered 1) ({} : View)).run lateEngine ViewRequest.obey
    (arrivalMoves loading)

/-- The two turns in which its session runs to its end. -/
def sessionTurns : List (Move Bool ViewRequest) :=
  [.turn ⟨.numbered 1, 1, .session⟩, .turn ⟨.numbered 1, 1, .session⟩]

/-- While a request is under way, the end of the session does not show. -/
theorem revision_covers_view_loading :
    ((arrivedScene true).bumps lateEngine sessionTurns < UInt64.size ∧
      ((arrivedScene true).run lateEngine ViewRequest.obey sessionTurns).owner.rev =
        (arrivedScene true).owner.rev) ∧
    ((arrivedScene true).run lateEngine ViewRequest.obey sessionTurns).panel =
      (arrivedScene true).panel := by
  have hfew : (arrivedScene true).bumps lateEngine sessionTurns < UInt64.size := by decide +kernel
  have hrev : ((arrivedScene true).run lateEngine ViewRequest.obey sessionTurns).owner.rev =
      (arrivedScene true).owner.rev := by decide +kernel
  have hsame := revision_covers_view lateEngine {} true (.numbered 1) .standard
    (arrivalMoves true) sessionTurns (s := arrivedScene true) rfl rfl hfew hrev
  exact ⟨⟨hfew, hrev⟩, hsame.panel_iff.mpr (.inl (by decide +kernel))⟩

/-- Otherwise it shows, and the revision is the same as before. -/
theorem panel_changed_unnoticed :
    (Scene.fresh {} true (.numbered 1) ({} : View)).bumps lateEngine
        (arrivalMoves false ++ sessionTurns) < UInt64.size ∧
      ((arrivedScene false).run lateEngine ViewRequest.obey sessionTurns).owner.rev =
        (arrivedScene false).owner.rev ∧
      (arrivedScene false).panel = .flow ⟨.scheduled, none, none, "graph TD"⟩ ∧
      ((arrivedScene false).run lateEngine ViewRequest.obey sessionTurns).panel =
        .flow ⟨.renderError, none, some "out of space", "graph TD"⟩ := by
  decide +kernel

end DiagramView
