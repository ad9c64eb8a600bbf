import DiagramView.Proofs.Conduct
import DiagramView.Proofs.ViewOrders

/-!
# What sessions leave behind

A session that was given up may have nodes on the surface long after: its call goes on, and the
engine inserts what it likes. `Scene.Accounted` says that every node of an instance has a session
that answers for it: the latest session while the status is about it, a session whose task or sweep
is not over, or one whose call ended in markup that could not be neutralized. Nothing sweeps up
after the last kind: its sweep came to an end before it swept.

Acts and moves keep this as long as the engine tags its nodes with the session that it works for
(`Move.isTagged`). So once all sessions are over, whatever is left goes back to such markup
(`no_leftovers`).
-/

namespace DiagramView

variable {σ κ ο : Type}

/-! ## Tagged nodes -/

/-- Whether an engine that inserts a node of an instance inserts one of a session of it. -/
def Doing.isTagged (i : InstanceId) (seq : Nat) (d : Doing) : Bool :=
  match d.deed with
  | .insert _ node => !i.covers node.id || (i.renderId seq).owns node.id
  | .report _ => true

/-- Whether nothing more comes of a session: its task is over, and so is the sweep after a call that
it left. -/
def Session.isOver (x : Session) : Bool :=
  x.end?.isSome && x.abandoned.isNone

/-- Whether the engine tags the nodes that it inserts in a move: those of a turn with the session of
that turn, and others with a session that is not over. -/
def Move.isTagged (e : Engine σ Empty) (move : Move σ κ) (s : Scene σ ο) : Bool :=
  match move with
  | .turn task => (s.turnDoings e task).all (·.isTagged s.instanceId task.seq)
  | .insert _ node =>
    !s.instanceId.covers node.id ||
      s.sessions.any fun x => !x.isOver && (s.renderId x.seq).owns node.id
  | .call _ | .work _ => true

namespace Scene

variable {s s' t : Scene σ ο} {x : Session} {e : Engine σ Empty}

/-! ## Accounts -/

/-- A session answers for its nodes. -/
inductive Answers (s : Scene σ ο) (n : Nat) : Prop where
  | latest : n = s.lastSeq → s.status.session.isSome = true → Answers s n
  | underWay (x : Session) : x ∈ s.sessions → x.seq = n → x.isOver = false → Answers s n
  | crashed : s.toRenderer.Crashed (s.renderId n) → Answers s n

/-- Every node of the instance has a session that answers for it. -/
def Accounted (s : Scene σ ο) : Prop :=
  ∀ node ∈ s.surface.nodes, s.instanceId.covers node.id = true →
    ∃ n, (s.renderId n).owns node.id = true ∧ s.Answers n

/-- Who answers keeps answering while their record stays and that of the engine grows. -/
theorem Answers.mono {n : Nat} (h : s.Answers n) (hinstance : s'.instanceId = s.instanceId)
    (hlastSeq : s'.lastSeq = s.lastSeq) (hsession : s'.status.session = s.status.session)
    (hsessions : ∀ x ∈ s.sessions, x.seq = n → x ∈ s'.sessions)
    (hrecord : s.toRenderer.Within s'.toRenderer) : s'.Answers n := by
  cases h with
  | latest hlast hsome => exact .latest (hlast.trans hlastSeq.symm) (by rw [hsession]; exact hsome)
  | underWay x hx hseq hopen => exact .underWay x (hsessions x hx hseq) hseq hopen
  | crashed hcrashed =>
    refine .crashed ?_
    rw [renderId, hinstance]
    exact hcrashed.mono hrecord

theorem Accounted.of_sameStage (h : t.Accounted) (hstage : s.SameStage t) : s.Accounted := by
  intro node hnode hcovers
  rw [hstage.surface] at hnode
  rw [hstage.instanceId_eq] at hcovers
  obtain ⟨n, howns, hanswers⟩ := h node hnode hcovers
  refine ⟨n, by rw [renderId, hstage.instanceId_eq]; exact howns, ?_⟩
  refine hanswers.mono hstage.instanceId_eq (by rw [hstage.books]) (by rw [hstage.status_eq]) ?_ ?_
  · intro x hx _
    rw [hstage.sessions_eq]
    exact hx
  · rw [hstage.renderer]
    exact .refl _

/-- A scene stays accounted when one session alone puts nodes on the surface, and answers for all it
has there. -/
theorem Accounted.of_step (h : s.Accounted) {n : Nat} (hinstance : s'.instanceId = s.instanceId)
    (hnodes : ∀ node ∈ s'.surface.nodes, s.instanceId.covers node.id = true →
      node ∈ s.surface.nodes ∨ (s.renderId n).owns node.id = true)
    (hown : ∀ node ∈ s'.surface.nodes, (s.renderId n).owns node.id = true → s'.Answers n)
    (hothers : ∀ m, m ≠ n → s.Answers m → s'.Answers m) : s'.Accounted := by
  intro node hnode hcovers
  rw [hinstance] at hcovers
  simp only [renderId, hinstance] at hown ⊢
  by_cases howns : (s.renderId n).owns node.id = true
  · exact ⟨n, howns, hown node hnode howns⟩
  · rcases hnodes node hnode hcovers with hold | hnew
    · obtain ⟨m, howns', hanswers⟩ := h node hold hcovers
      have hne : m ≠ n := by
        rintro rfl
        exact howns howns'
      exact ⟨m, howns', hothers m hne hanswers⟩
    · exact absurd hnew howns

/-! ## Acts -/

/-- The live session answers for its nodes, as the latest one. -/
theorem Sound.answers_of_open (h : s.Sound) (hx : x ∈ s.sessions) (hkept : x.cancelled = false)
    (hopen : x.end? = none) (houtline : s'.outline = s.outline) : s'.Answers x.seq := by
  have hlive := h.books.unfinished x hx hkept hopen
  obtain ⟨hlast, -, -⟩ := h.of_live hx hlive
  have hsession : s'.status.session = s.status.session := congrArg Outline.session houtline
  refine .latest (hlast.trans (congrArg Outline.lastSeq houtline).symm) ?_
  rw [hsession, h.session_of_live hlive]
  rfl

/-- An act either sweeps up after its session or leaves one that answers for its nodes. -/
theorem Act.answers_own (h : s.Sound) (hact : Act e s x s') {node : SurfaceNode}
    (hnode : node ∈ s'.surface.nodes) (howns : (s.renderId x.seq).owns node.id = true) :
    s'.Answers x.seq := by
  have houtline := h.act_outline hact
  have hopen : ∀ {progress}, x.progress = progress → (∀ how, progress ≠ .ended how) →
      x.end? = none := by
    intro progress hprogress hne
    exact Session.end?_eq_none_iff.mpr (hprogress ▸ hne)
  have hswept : ∀ {surface : Surface}, node ∈ (surface.remove (s.renderId x.seq).owns).nodes →
      s'.Answers x.seq := by
    intro surface hkept
    rw [(Surface.mem_nodes_remove.mp hkept).2] at howns
    cases howns
  cases hact with
  | stepBack hx hprogress hkept =>
    exact h.answers_of_open hx hkept (hopen hprogress (by simp)) houtline
  | discard => exact hswept hnode
  | abandon => exact hswept hnode
  | refuse error hx hprogress hkept =>
    exact h.answers_of_open hx hkept (hopen hprogress (by simp)) houtline
  | begin keyword hx hprogress hkept =>
    exact h.answers_of_open hx hkept (hopen hprogress (by simp)) houtline
  | takeResult host response hx hprogress hkept =>
    exact h.answers_of_open hx hkept (hopen hprogress (by simp)) houtline
  | cleanUp host response hx habandoned hpoll =>
    obtain ⟨hrenderer, hsurface⟩ := cleanUp_surface x.seq host response.answer
      (s.onBench response.after)
    rw [hsurface] at hnode
    split at hnode
    · next hcrashed =>
      -- the sweep came to an end with its call, and the call is on record
      obtain ⟨raw, hanswer, hmarkup⟩ := Bench.answer_of_conclude_crashed hcrashed
      obtain ⟨phase, hcall⟩ := (h.books.begun x hx host (.inr habandoned)).called
      obtain ⟨-, hgrows, hresult⟩ := Bench.poll_eq_some hpoll
      have hid : (((s.onBench response.after).cleanUp x.seq host response.answer).renderId x.seq) =
          s.renderId x.seq :=
        congrArg (fun o : Outline ο => o.instanceId.renderId x.seq) houtline
      refine .crashed ?_
      rw [hid, hrenderer]
      change response.after.toRenderer.Crashed _
      rw [Response.after_toRenderer]
      exact ⟨x.text, host, phase, raw, hgrows.within.calls hcall, hanswer ▸ hresult, hmarkup⟩
    · exact hswept hnode

theorem Accounted.act (h : s.Accounted) (hsound : s.Sound) (hact : Act e s x s')
    (htagged : ∀ d ∈ s.doings e x, d.isTagged s.instanceId x.seq = true) : s'.Accounted := by
  have houtline := hsound.act_outline hact
  refine h.of_step (n := x.seq) (congrArg Outline.instanceId houtline) ?_ ?_ ?_
  · intro node hnode hcovers
    rcases hact.mem_nodes hsound.books hnode with hold | hmounted | ⟨d, hd, parent, hdeed⟩
    · exact .inl hold
    · exact .inr (by rw [hmounted]; exact RenderId.owns_text _)
    · have hinserted := htagged d hd
      simp only [Doing.isTagged, hdeed, hcovers, Bool.not_true, Bool.false_or] at hinserted
      exact .inr hinserted
  · exact fun node hnode howns => hact.answers_own hsound hnode howns
  · intro m hne hanswers
    refine hanswers.mono (congrArg Outline.instanceId houtline) (congrArg Outline.lastSeq houtline)
      (congrArg Outline.session houtline) ?_ hact.grows.within
    exact fun y hy hseq => hact.others hy (hseq ▸ hne)

end Scene

/-! ## Moves -/

/-- Nothing is left of an instance: no node, no status, and nothing in the container. -/
structure Scene.Blank (s : Scene σ ο) : Prop where
  container : s.surface.container = none
  status : s.status = {}
  nodes : ∀ node ∈ s.surface.nodes, s.instanceId.covers node.id = false

theorem Order.obey_nodes (order : Order) (s : Scene σ ο) {node : SurfaceNode}
    (hnode : node ∈ (order.obey s).surface.nodes) : s.instanceId.covers node.id = false := by
  rw [obey_surface] at hnode
  exact (Surface.mem_nodes_remove.mp hnode).2

namespace Scene

theorem Blank.teardown (s : Scene σ ο) : s.teardown.Blank := by
  refine ⟨by rw [teardown_surface]; rfl, by rw [teardown_toSchedule], ?_⟩
  intro node hnode
  rw [teardown_toSchedule]
  exact Order.teardown.obey_nodes s hnode

theorem Blank.of_sameStage {s t : Scene σ ο} (h : t.Blank) (hstage : s.SameStage t) : s.Blank := by
  refine ⟨by rw [hstage.surface]; exact h.container, hstage.status_eq.trans h.status, ?_⟩
  rw [hstage.surface, hstage.instanceId_eq]
  exact h.nodes

variable {s : Scene σ View} {e : Engine σ Empty}

theorem Accounted.take (h : s.Accounted) (hsound : s.Sound) {move : Move σ ViewStep}
    (htagged : move.isTagged e s = true) : (move.take e ViewStep.obey s).Accounted := by
  cases move with
  | call step =>
    refine Accounted.of_sameStage ?_ (obey_stage step s)
    cases (Move.call step : Move σ ViewStep).order? s with
    | none => exact h
    | some order =>
      intro node hnode hcovers
      rw [Option.elim_some, order.obey_instanceId, order.obey_nodes s hnode] at hcovers
      cases hcovers
  | turn task =>
    exact hsound.resume_of_doings (q := Doing.isTagged) (fun hs ha => ha.act hs) h htagged
  | insert parent node =>
    intro found hfound hcovers
    have hinserted : found ∈ s.surface.nodes ∨ found = node := by
      rcases Surface.mem_nodes.mp hfound with hcontainer | ⟨place, hat⟩
      · rw [Move.take, Surface.insert_container] at hcontainer
        exact .inl (Surface.mem_nodes.mpr (.inl hcontainer))
      · rcases Surface.at_of_insert hat with hold | ⟨-, hnew⟩
        · exact .inl (Surface.mem_nodes.mpr (.inr ⟨place, hold⟩))
        · exact .inr hnew
    rcases hinserted with hold | rfl
    · obtain ⟨n, howns, hanswers⟩ := h found hold hcovers
      exact ⟨n, howns, hanswers.mono rfl rfl rfl (fun x hx _ => hx) (.refl _)⟩
    · have hcovers : s.instanceId.covers found.id = true := hcovers
      simp only [Move.isTagged, hcovers, Bool.not_true, Bool.false_or, List.any_eq_true,
        Bool.and_eq_true, Bool.not_eq_true'] at htagged
      obtain ⟨x, hx, hopen, howns⟩ := htagged
      exact ⟨x.seq, howns, .underWay x hx rfl hopen⟩
  | work engine =>
    intro node hnode hcovers
    obtain ⟨n, howns, hanswers⟩ := h node hnode hcovers
    exact ⟨n, howns, hanswers.mono rfl rfl rfl (fun x hx _ => hx)
      ⟨List.Subset.refl _, List.Subset.refl _⟩⟩

theorem Accounted.run (hsound : s.Sound) (h : s.Accounted) {moves : List (Move σ ViewStep)}
    (htagged : along (Move.take e ViewStep.obey) (Move.isTagged e) moves s = true) :
    (s.run e ViewStep.obey moves).Sound ∧ (s.run e ViewStep.obey moves).Accounted := by
  refine along_invariant (P := fun s => s.Sound ∧ s.Accounted) ?_ htagged ⟨hsound, h⟩
  rintro move t ⟨hsound, haccounted⟩ hmove
  exact ⟨hsound.take e (fun step _ hs => hs.step step) move, haccounted.take hsound hmove⟩

end Scene

/-- A teardown, a change to another tab and the end of a view leave nothing of its instance. At any
time later, what is left of the sessions that are over goes back to calls that ended in markup that
could not be neutralized. -/
theorem no_leftovers (e : Engine σ Empty) (config : SharedConfig) (engine : σ) (i : InstanceId)
    (view : View) (moves : List (Move σ ViewStep)) {s : Scene σ View}
    (hs : s = (Scene.fresh config engine i view).run e ViewStep.obey moves)
    (htagged : along (Move.take e ViewStep.obey) (Move.isTagged e) moves
      (Scene.fresh config engine i view) = true) :
    (s.teardown.Blank ∧ s.close.Blank ∧
      ∀ tab, s.owner.tab = .flow → tab ≠ .flow → (s.selectTab tab).1.Blank) ∧
    ((∀ x ∈ s.sessions, x.seq ≠ s.lastSeq → x.isOver = true) →
      ∀ node ∈ s.surface.nodes, s.instanceId.covers node.id = true →
        (s.renderId s.lastSeq).owns node.id = true ∨
          ∃ n, (s.renderId n).owns node.id = true ∧ s.toRenderer.Crashed (s.renderId n)) ∧
    ((∀ x ∈ s.sessions, x.isOver = true) →
      ((Scene.fresh config engine i view).orders e moves).getLast? = some .teardown →
        ∀ node ∈ s.surface.nodes, s.instanceId.covers node.id = true →
          ∃ n, (s.renderId n).owns node.id = true ∧ s.toRenderer.Crashed (s.renderId n)) := by
  have hfresh := Scene.Sound.fresh config engine i view
  have hempty : (Scene.fresh config engine i view).Accounted := by
    intro node hnode
    cases hnode
  obtain ⟨hsound, haccounted⟩ := hempty.run hfresh htagged
  rw [← hs] at hsound haccounted
  refine ⟨⟨.teardown s, .of_sameStage (.teardown s) ⟨rfl, rfl, rfl⟩, ?_⟩, ?_, ?_⟩
  · intro tab hflow htab
    have hstage := (ViewStep.selectTab tab).take_stage s
    have hne : tab ≠ s.owner.tab := hflow ▸ htab
    rw [ViewStep.order?, if_neg hne, if_pos hflow] at hstage
    exact .of_sameStage (.teardown s) hstage
  · intro hover node hnode hcovers
    obtain ⟨n, howns, hanswers⟩ := haccounted node hnode hcovers
    cases hanswers with
    | latest hlast => exact .inl (hlast ▸ howns)
    | underWay x hx hseq hopen =>
      by_cases hlast : x.seq = s.lastSeq
      · exact .inl (by rw [← hlast, hseq]; exact howns)
      · rw [hover x hx hlast] at hopen
        cases hopen
    | crashed hcrashed => exact .inr ⟨n, howns, hcrashed⟩
  · intro hover hlast node hnode hcovers
    have hnone := (hfresh.session_eq_none_of_orders e).2 hlast
    rw [← hs] at hnone
    obtain ⟨n, howns, hanswers⟩ := haccounted node hnode hcovers
    cases hanswers with
    | latest _ hsome =>
      rw [hnone] at hsome
      cases hsome
    | underWay x hx hseq hopen =>
      rw [hover x hx] at hopen
      cases hopen
    | crashed hcrashed => exact ⟨n, howns, hcrashed⟩

/-! ## A node that lands with the result -/

/-- An engine whose calls come to their end at one moment, with given markup, and which inserts a
node for the first session at that moment. -/
def landingEngine (markup : String) : Engine Bool Empty where
  configure _ released := released
  validate _ released := ⟨released, [], .ok ()⟩
  render _ _ _ released := ⟨released, [], ()⟩
  poll _ released :=
    if released then some ⟨released, [.insert .body ⟨"cl-1-1-late", "<g/>"⟩], .ok markup⟩ else none

def landingScene : Scene Bool View :=
  Scene.fresh {} false (.numbered 1) {}

/-- The session is torn down while its call is under way, leaves the call to a sweep, and the sweep
runs once the call is over. -/
def landingMoves : List (Move Bool ViewStep) :=
  [.call (.order (.schedule "graph TD")), .turn ⟨.numbered 1, 1, .session⟩,
    .turn ⟨.numbered 1, 1, .session⟩, .call (.order .teardown), .turn ⟨.numbered 1, 1, .session⟩,
    .work true, .turn ⟨.numbered 1, 1, .sweep⟩]

def landedScene (markup : String) : Scene Bool View :=
  landingScene.run (landingEngine markup) ViewStep.obey landingMoves

theorem no_leftovers_landing :
    along (Move.take (landingEngine "<svg/>") ViewStep.obey)
        (Move.isTagged (landingEngine "<svg/>")) landingMoves landingScene = true ∧
      (∀ x ∈ (landedScene "<svg/>").sessions, x.isOver = true) ∧
      (landingScene.orders (landingEngine "<svg/>") landingMoves).getLast? = some .teardown ∧
      ∀ node ∈ (landedScene "<svg/>").surface.nodes,
        (landedScene "<svg/>").instanceId.covers node.id = true →
          ∃ n, ((landedScene "<svg/>").renderId n).owns node.id = true ∧
            (landedScene "<svg/>").toRenderer.Crashed ((landedScene "<svg/>").renderId n) := by
  have htagged : along (Move.take (landingEngine "<svg/>") ViewStep.obey)
      (Move.isTagged (landingEngine "<svg/>")) landingMoves landingScene = true := by
    decide +kernel
  have hover : ∀ x ∈ (landedScene "<svg/>").sessions, x.isOver = true := by decide +kernel
  have hlast : (landingScene.orders (landingEngine "<svg/>") landingMoves).getLast? =
      some .teardown := by
    decide +kernel
  obtain ⟨-, -, hleft⟩ := no_leftovers (s := landedScene "<svg/>") (landingEngine "<svg/>") {} false
    (.numbered 1) {} landingMoves rfl htagged
  exact ⟨htagged, hover, hlast, hleft hover hlast⟩

/-- Markup with its background in an entity, which lies before the root. -/
def entityMarkup : String :=
  "<!DOCTYPE svg [<!ENTITY e \"<rect class='background'/>\">]><svg>&e;</svg>"

/-- The sweep after a call that gave such markup comes to an end before it sweeps, and the node
that landed with the markup stays. -/
theorem node_left_by_crashed_sweep :
    along (Move.take (landingEngine entityMarkup) ViewStep.obey)
        (Move.isTagged (landingEngine entityMarkup)) landingMoves landingScene = true ∧
      (∀ x ∈ (landedScene entityMarkup).sessions, x.isOver = true) ∧
      (landingScene.orders (landingEngine entityMarkup) landingMoves).getLast? = some .teardown ∧
      (landedScene entityMarkup).surface.nodes = [⟨"cl-1-1-late", "<g/>"⟩] ∧
      (landedScene entityMarkup).instanceId.covers "cl-1-1-late" = true := by
  decide +kernel

end DiagramView
