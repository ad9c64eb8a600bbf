import DiagramView.Proofs.Coherence
import DiagramView.Proofs.Conduct

/-!
# What is on the surface when a session settles

A session that settles has its own node in the container, if it was rendered, and what lies below
its id is swept. Its host is gone with its call, and with that all the nodes that the engine put
there, as long as the engine keeps a session's nodes to the host of the session's own call
(`Scene.Placed`). What the engine put into the body is another matter: a node there that bears the
session's id itself stays when the session is rendered, and all of them stay when it fails
(`settled_nodes`).
-/

namespace DiagramView

variable {σ κ ο : Type}

/-! ## Placed nodes -/

/-- The host of the call that a session awaits or has left to a sweep. -/
def Session.host? (x : Session) : Option HostId :=
  match x.abandoned with
  | some host => some host
  | none =>
    match x.progress with
    | .waiting host => some host
    | _ => none

/-- Whether an engine that inserts a node of an instance into a host inserts a node of a session
into the host of the session's call. -/
def Doing.isPlaced (i : InstanceId) (seq : Nat) (d : Doing) : Bool :=
  match d.deed with
  | .insert (.host h) node =>
    !i.covers node.id || ((i.renderId seq).owns node.id && d.host = some h)
  | .insert .body _ | .report _ => true

/-- Whether the engine keeps the nodes that it inserts in a move to the hosts where they belong. -/
def Move.isPlaced (e : Engine σ Empty) (move : Move σ κ) (s : Scene σ ο) : Bool :=
  match move with
  | .turn task => (s.turnDoings e task).all (·.isPlaced s.instanceId task.seq)
  | .insert (.host h) node =>
    !s.instanceId.covers node.id ||
      s.sessions.any fun x => x.host? = some h && (s.renderId x.seq).owns node.id
  | .insert .body _ | .call _ | .work _ => true

namespace Scene

variable {s s' : Scene σ ο} {x : Session} {e : Engine σ Empty}

/-- A node of a session that is in a host is in the host of the session's call. -/
def Placed (s : Scene σ ο) : Prop :=
  ∀ h node n, s.surface.At (.host h) node → (s.renderId n).owns node.id = true →
    ∃ x ∈ s.sessions, x.seq = n ∧ x.host? = some h

/-- The nodes of the session whose act it is are in the host of its call, if it has one. -/
theorem Placed.act_own (hplaced : s.Placed) (hbooks : s.WellKept) (hact : Act e s x s')
    (hdoings : ∀ d ∈ s.doings e x, d.isPlaced s.instanceId x.seq = true) {h : HostId}
    {node : SurfaceNode} (hat : s'.surface.At (.host h) node)
    (howns : (s.renderId x.seq).owns node.id = true) :
    ∃ y ∈ s'.sessions, y.seq = x.seq ∧ y.host? = some h := by
  have hnotLeft := hbooks.not_abandoned hact.mem
  have hbefore : s.surface.At (.host h) node → x.host? = some h := by
    intro hat
    obtain ⟨y, hy, hseq, hhost⟩ := hplaced h node x.seq hat howns
    rw [← hbooks.eq_of_seq_eq hy hact.mem hseq]
    exact hhost
  have hinserted : ∀ {host : Option HostId} {deeds : List (Deed Empty)},
      deeds.map (Doing.mk host) ⊆ s.doings e x → .insert (.host h) node ∈ deeds →
        host = some h := by
    intro host deeds hdoing hdeed
    have hd := hdoings ⟨host, .insert (.host h) node⟩ (hdoing (List.mem_map_of_mem hdeed))
    have hcovers : s.instanceId.covers node.id = true := InstanceId.covers_of_owns howns
    simp only [Doing.isPlaced, hcovers, Bool.not_true, Bool.false_or, Bool.and_eq_true,
      decide_eq_true_eq] at hd
    exact hd.2
  have hswept : ∀ {surface : Surface} {place : Parent},
      ¬(surface.remove (s.renderId x.seq).owns).At place node := by
    intro surface place hkept
    rw [(Surface.at_remove.mp hkept).2] at howns
    cases howns
  cases hact with
  | stepBack hx hprogress hkept =>
    have hhost := hbefore hat
    simp [Session.host?, hnotLeft hkept, hprogress] at hhost
  | discard => exact absurd hat hswept
  | abandon => exact absurd hat hswept
  | refuse error hx hprogress hkept hverdict =>
    rw [at_refuse] at hat
    rcases at_of_verdict hat with hold | hdeed
    · have hhost := hbefore hold
      simp [Session.host?, hnotLeft hkept, hprogress] at hhost
    · rw [doings_of_refused (hnotLeft hkept) hkept hprogress hverdict] at hinserted
      cases hinserted (List.Subset.refl _) hdeed
  | begin keyword hx hprogress hkept hverdict =>
    rw [doings_of_accepted (hnotLeft hkept) hkept hprogress hverdict] at hinserted
    rw [(beginAwait_frame x.seq _ _).1] at hat
    rcases at_of_opening hat with (hold | hdeed) | hdeed
    · have hhost := hbefore hold
      simp [Session.host?, hnotLeft hkept, hprogress] at hhost
    · cases hinserted (List.subset_append_left _ _) hdeed
    · have hhost := hinserted (List.Subset.trans (List.subset_append_left _ _)
        (List.subset_append_right _ _)) hdeed
      have hmem : { x with progress := .waiting (s.opening e x).answer } ∈
          (s.setProgress x.seq (.waiting (s.opening e x).answer)).sessions :=
        mem_update.mpr ⟨x, hx, by simp⟩
      rw [(beginAwait_frame x.seq _ _).2]
      exact ⟨_, hmem, rfl, by simpa [Session.host?, hnotLeft hkept] using hhost⟩
  | takeResult host response hx hprogress hkept hpoll =>
    rw [doings_of_waiting (hnotLeft hkept) hkept hprogress, Bench.doings_of_poll hpoll] at hinserted
    have hat := at_of_showResult hat
    change (response.after.conclude host response.answer).1.surface.At (.host h) node at hat
    rw [Bench.conclude_surface] at hat
    obtain ⟨hat, hne⟩ := Surface.at_detachHost.mp hat
    rcases at_of_poll hpoll hat with hold | hdeed
    · have hhost := hbefore hold
      simp only [Session.host?, hnotLeft hkept, hprogress, Option.some.injEq] at hhost
      exact absurd (hhost ▸ rfl) hne
    · have hhost := hinserted (List.Subset.refl _) hdeed
      exact absurd (Option.some.inj hhost ▸ rfl) hne
  | cleanUp host response hx habandoned hpoll =>
    rw [doings_of_abandoned habandoned, Bench.doings_of_poll hpoll] at hinserted
    rw [(cleanUp_surface x.seq host response.answer _).2] at hat
    split at hat
    · obtain ⟨hat, hne⟩ := Surface.at_detachHost.mp hat
      rcases at_of_poll hpoll hat with hold | hdeed
      · have hhost := hbefore hold
        simp only [Session.host?, habandoned, Option.some.injEq] at hhost
        exact absurd (hhost ▸ rfl) hne
      · have hhost := hinserted (List.Subset.refl _) hdeed
        exact absurd (Option.some.inj hhost ▸ rfl) hne
    · exact absurd hat hswept

theorem Placed.act (hplaced : s.Placed) (hsound : s.Sound) (hact : Act e s x s')
    (hdoings : ∀ d ∈ s.doings e x, d.isPlaced s.instanceId x.seq = true) : s'.Placed := by
  have hinstance : s'.instanceId = s.instanceId :=
    congrArg Outline.instanceId (hsound.act_outline hact)
  intro h node n hat howns
  rw [renderId, hinstance] at howns
  by_cases hn : n = x.seq
  · subst hn
    exact hplaced.act_own hsound.books hact hdoings hat howns
  · rcases hact.at hsound.books hat with hbefore | ⟨d, hd, hdeed⟩
    · obtain ⟨y, hy, hseq, hhost⟩ := hplaced h node n hbefore howns
      exact ⟨y, hact.others hy (hseq ▸ hn), hseq, hhost⟩
    · -- in this act the engine inserts no nodes of other sessions
      have hplacedHere := hdoings d hd
      have hcovers : s.instanceId.covers node.id = true := InstanceId.covers_of_owns howns
      simp only [Doing.isPlaced, hdeed, hcovers, Bool.not_true, Bool.false_or,
        Bool.and_eq_true] at hplacedHere
      exact absurd (InstanceId.seq_eq_of_owns howns hplacedHere.1) hn

theorem Placed.take (hplaced : s.Placed) (hsound : s.Sound) {move : Move σ Order}
    (hmove : move.isPlaced e s = true) : (move.take e Order.obey s).Placed := by
  cases move with
  | call order =>
    intro h node n hat howns
    have hcovers : s.instanceId.covers node.id = true := by
      cases order with
      | schedule text =>
        rw [Move.take, Order.obey, renderId, schedule_toSchedule] at howns
        exact InstanceId.covers_of_owns howns
      | teardown =>
        rw [Move.take, Order.obey, renderId, teardown_toSchedule] at howns
        exact InstanceId.covers_of_owns howns
    have hswept : (s.surface.clearContainer.remove s.instanceId.covers).At (.host h) node := by
      cases order with
      | schedule text => rwa [← s.schedule_surface text]
      | teardown => rwa [← s.teardown_surface]
    rw [(Surface.at_remove.mp hswept).2] at hcovers
    cases hcovers
  | turn task =>
    exact hsound.resume_of_doings (q := Doing.isPlaced) (fun hs hp => hp.act hs) hplaced hmove
  | insert parent new =>
    intro h node n hat howns
    rcases Surface.at_of_insert hat with hold | ⟨rfl, rfl⟩
    · exact hplaced h node n hold howns
    · have howns : (s.renderId n).owns node.id = true := howns
      have hcovers : s.instanceId.covers node.id = true := InstanceId.covers_of_owns howns
      simp only [Move.isPlaced, hcovers, Bool.not_true, Bool.false_or, List.any_eq_true,
        Bool.and_eq_true, decide_eq_true_eq] at hmove
      obtain ⟨x, hx, hhost, howns'⟩ := hmove
      exact ⟨x, hx, InstanceId.seq_eq_of_owns howns' howns, hhost⟩
  | work engine => exact hplaced

/-! ## Settlements -/

/-- When the live session settles with the result of its call, what lies below its id is swept from
the body if it was rendered, and nothing if the call failed. -/
theorem at_body_showResult {seq : Nat} (hlive : s.live = some seq) {result : RenderResult}
    {x' : Session} (hx' : x' ∈ (s.showResult seq result).sessions) (hseq : x'.seq = seq)
    {outcome : Outcome} (hsettled : x'.progress = .ended (.settled outcome)) (node : SurfaceNode) :
    (s.showResult seq result).surface.At .body node ↔
      s.surface.At .body node ∧ (outcome = .rendered → (s.renderId seq).above node.id = false) := by
  have hisLive : s.isLive seq = true := by simp [isLive, hlive]
  cases result with
  | crashed =>
    have hprogress := progress_of_mem_setProgress hx' hseq
    rw [hsettled] at hprogress
    cases hprogress
  | artifact markup =>
    simp only [showResult, hisLive, ↓reduceIte] at hx' ⊢
    have hprogress := progress_of_mem_setProgress hx' hseq
    rw [hsettled] at hprogress
    cases hprogress
    simp only [forall_const]
    exact Surface.at_remove
  | failed message =>
    simp only [showResult, hisLive, ↓reduceIte] at hx' ⊢
    have hprogress := progress_of_mem_setProgress hx' hseq
    rw [hsettled] at hprogress
    cases hprogress
    simp only [reduceCtorEq, false_implies, and_true]
    exact Iff.rfl

/-- An act in which a session settles is one of a session that was not given up. Then there is in
the body what was there and what the engine inserted, without what lies below the session's id if it
was rendered. -/
theorem Act.at_body_of_settled (hact : Act e s x s') (h : s.Sound) (hopen : x.end? = none)
    {x' : Session} (hx' : x' ∈ s'.sessions) (hseq : x'.seq = x.seq) {outcome : Outcome}
    (hsettled : x'.progress = .ended (.settled outcome)) :
    x.cancelled = false ∧ ∀ node, s'.surface.At .body node ↔
      (s.surface.At .body node ∨ ∃ d ∈ s.doings e x, d.deed = .insert .body node) ∧
        (outcome = .rendered → (s.renderId x.seq).above node.id = false) := by
  have hnotLeft := h.books.not_abandoned hact.mem
  have hunsettled : ∀ {t : Scene σ ο} {progress : Progress},
      x' ∈ (t.setProgress x.seq progress).sessions → progress = .ended (.settled outcome) := by
    intro t progress hmem
    exact (progress_of_mem_setProgress hmem hseq).symm.trans hsettled
  cases hact with
  | stepBack => cases hunsettled hx'
  | discard => cases hunsettled hx'
  | abandon => cases hunsettled hx'
  | refuse error hx hprogress hkept hverdict =>
    cases hunsettled hx'
    refine ⟨hkept, fun node => ?_⟩
    rw [doings_of_refused (hnotLeft hkept) hkept hprogress hverdict, Response.exists_doing]
    simp only [reduceCtorEq, false_implies, and_true]
    have hsurface : (s.verdict e x).state.surface = s.surface := Bench.validate_surface _ _ _ _
    have hafter := Response.at_body_after (s.verdict e x) node
    rw [hsurface] at hafter
    rw [at_refuse]
    exact hafter
  | begin keyword hx hprogress hkept hverdict =>
    rw [(beginAwait_frame x.seq _ _).2] at hx'
    cases hunsettled hx'
  | takeResult host response hx hprogress hkept hpoll =>
    have hlive : s.live = some x.seq := h.books.unfinished x hx hkept hopen
    refine ⟨hkept, fun node => ?_⟩
    rw [doings_of_waiting (hnotLeft hkept) hkept hprogress, Bench.doings_of_poll hpoll,
      Response.exists_doing]
    have hafter := Response.at_body_after response node
    rw [(Bench.poll_eq_some hpoll).1] at hafter
    have hconcluded : (response.after.conclude host response.answer).1.surface.At .body node ↔
        response.after.surface.At .body node := by
      rw [Bench.conclude_surface]
      exact Iff.rfl
    rw [← hafter, ← hconcluded]
    exact at_body_showResult (s := (s.onBench response.after).onBench
      (response.after.conclude host response.answer).1) hlive hx' hseq hsettled node
  | cleanUp host response hx habandoned hpoll =>
    -- a sweep settles no session
    rw [cleanUp_sessions] at hx'
    obtain ⟨y, hy, rfl⟩ := mem_update.mp hx'
    split at hsettled
    · next heq =>
      rw [h.books.eq_of_seq_eq hy hx heq] at hsettled
      exact absurd hsettled (Session.end?_eq_none_iff.mp hopen _)
    · next hne =>
      rw [if_neg hne] at hseq
      exact absurd hseq hne

/-- A last session that has settled was not given up. It has its node in the container if it was
rendered, and nothing is there if it failed. -/
theorem Sound.last_settled (h : s.Sound) (hx : x ∈ s.sessions) {outcome : Outcome}
    (hsettled : x.progress = .ended (.settled outcome)) (hlast : x.seq = s.lastSeq)
    (hsession : s.status.session ≠ none) :
    x.cancelled = false ∧ s.surface.container.map (·.id) =
      if outcome = .rendered then some (s.renderId x.seq).text else none := by
  cases h.display with
  | nothing live status => exact absurd (by rw [status]) hsession
  | noDiagram live status container earlier => exact absurd hlast (Nat.ne_of_lt (earlier x hx))
  | underWay y mem last live kept unsettled =>
    rw [h.books.eq_of_seq_eq hx mem (hlast.trans last.symm)] at hsettled
    exact absurd hsettled (unsettled outcome)
  | settled y mem last live kept outcome' progress markup supports status container =>
    obtain rfl : x = y := h.books.eq_of_seq_eq hx mem (hlast.trans last.symm)
    rw [progress] at hsettled
    cases hsettled
    refine ⟨kept, ?_⟩
    rw [container, hlast]
    cases supports <;> simp

/-- Whoever has no host has no node in one. -/
theorem Placed.not_at_host (hplaced : s.Placed) (hbooks : s.WellKept) (hx : x ∈ s.sessions)
    (hhost : x.host? = none) {h : HostId} {node : SurfaceNode}
    (hat : s.surface.At (.host h) node) : (s.renderId x.seq).owns node.id = false := by
  rw [Bool.eq_false_iff]
  intro howns
  obtain ⟨y, hy, hseq, hhost'⟩ := hplaced h node x.seq hat howns
  rw [hbooks.eq_of_seq_eq hy hx hseq, hhost] at hhost'
  cases hhost'

theorem at_body_opening (e : Engine σ Empty) (s : Scene σ ο) (x : Session) (node : SurfaceNode) :
    (s.opening e x).after.surface.At .body node ↔
      (s.surface.At .body node ∨ .insert .body node ∈ (s.verdict e x).deeds) ∨
        .insert .body node ∈ (s.opening e x).deeds := by
  have hvalidated : (s.verdict e x).state.surface = s.surface := Bench.validate_surface _ _ _ _
  have hattached : (s.opening e x).state.surface = (s.verdict e x).after.surface.attachHost :=
    Bench.render_surface _ _ _ _ _
  rw [Response.at_body_after, hattached, Surface.at_attachHost, Response.at_body_after, hvalidated]

section Turn

variable (h : s.Sound) {obey : Empty → Scene σ ο → Scene σ ο} {task : Task} (hx : x ∈ s.sessions)
  (hopen : x.end? = none) {x' : Session} (hx' : x' ∈ (s.resume e obey task).sessions)
  (hseq : x'.seq = x.seq) {outcome : Outcome}
  (hsettled : x'.progress = .ended (.settled outcome))
include h hx hopen hx' hseq hsettled

/-- A session settles in a turn of its own. -/
theorem Sound.session?_of_settled : s.session? task.seq = some x := by
  have hchanged : x ∉ (s.resume e obey task).sessions := by
    intro hmem
    rw [(h.resume e obey task).books.eq_of_seq_eq hx' hmem hseq] at hsettled
    exact absurd hsettled (Session.end?_eq_none_iff.mp hopen _)
  rcases resume_cases h.books task with
    heq | ⟨y, hfound, -, hone | ⟨keyword, hprogress, hkept, hverdict, hsecond⟩⟩
  · exact absurd (by rw [heq]; exact hx) hchanged
  all_goals
    have hy := (session?_eq_some hfound).1
    by_cases hne : x.seq = y.seq
    · rw [h.books.eq_of_seq_eq hx hy hne]
      exact hfound
  · exact absurd (hone.others hx hne) hchanged
  · have hbegin : Act e s y _ := .begin keyword hy hprogress hkept hverdict
    exact absurd (hsecond.others (hbegin.others hx hne) hne) hchanged

theorem Sound.at_body_of_settled :
    x.cancelled = false ∧ ∀ node, (s.resume e obey task).surface.At .body node ↔
      (s.surface.At .body node ∨ ∃ d ∈ s.turnDoings e task, d.deed = .insert .body node) ∧
        (outcome = .rendered → (s.renderId x.seq).above node.id = false) := by
  have hself := h.session?_of_settled hx hopen hx' hseq hsettled
  rcases resume_cases h.books task with
    heq | ⟨y, hfound, hturn, hone | ⟨keyword, hprogress, hkept, hverdict, hsecond⟩⟩
  · rw [heq] at hx'
    rw [h.books.eq_of_seq_eq hx' hx hseq] at hsettled
    exact absurd hsettled (Session.end?_eq_none_iff.mp hopen _)
  all_goals
    obtain rfl : x = y := Option.some.inj (hself.symm.trans hfound)
    rw [hturn]
  · exact hone.at_body_of_settled h hopen hx' hseq hsettled
  · have hnotLeft := h.books.not_abandoned hx hkept
    have hbegin : Act e s x _ := .begin keyword hx hprogress hkept hverdict
    have hid : ((s.onBench (s.opening e x).after).beginAwait x.seq
        (s.opening e x).answer).renderId x.seq = s.renderId x.seq :=
      congrArg (fun o : Outline ο => o.instanceId.renderId x.seq) (h.act_outline hbegin)
    obtain ⟨-, hbody⟩ := hsecond.at_body_of_settled (h.act hbegin) rfl hx' hseq hsettled
    rw [doings_of_waiting (x := { x with progress := .waiting _ }) hnotLeft hkept rfl,
      (beginAwait_frame x.seq _ _).1] at hbody
    refine ⟨hkept, fun node => (hbody node).trans ?_⟩
    rw [hid, doings_of_accepted hnotLeft hkept hprogress hverdict]
    refine and_congr_left' ((or_congr_left (s.at_body_opening e x node)).trans ?_)
    simp only [List.mem_append, or_and_right, exists_or, Response.exists_doing, or_assoc]
    exact Iff.rfl

end Turn

/-- What is on the surface of a session that settled in a turn: the mounted node if it was rendered,
no node in a host, and in the body what was there and what the engine inserted, without what lies
below the session's id if it was rendered. -/
structure Settlement (e : Engine σ Empty) (task : Task) (s s' : Scene σ ο) (seq : Nat)
    (outcome : Outcome) : Prop where
  container : s'.surface.container.map (·.id) =
    if outcome = .rendered then some (s'.renderId seq).text else none
  nodes : ∀ node ∈ s'.surface.nodes, (s'.renderId seq).owns node.id = true →
    s'.surface.container = some node ∨
      (node ∈ s'.surface.body ∧ (outcome = .rendered → node.id = (s'.renderId seq).text))
  body : ∀ node, node ∈ s'.surface.body ↔
    (node ∈ s.surface.body ∨ ∃ d ∈ s.turnDoings e task, d.deed = .insert .body node) ∧
      (outcome = .rendered → (s'.renderId seq).above node.id = false)

theorem Placed.settlement (hplaced : s.Placed) (h : s.Sound)
    {obey : Empty → Scene σ ο → Scene σ ο} {task : Task}
    (hdoings : (s.turnDoings e task).all (·.isPlaced s.instanceId task.seq) = true)
    (hx : x ∈ s.sessions) (hopen : x.end? = none) {x' : Session}
    (hx' : x' ∈ (s.resume e obey task).sessions) (hseq : x'.seq = x.seq) {outcome : Outcome}
    (hsettled : x'.progress = .ended (.settled outcome)) :
    Settlement e task s (s.resume e obey task) x.seq outcome := by
  have hsound := h.resume e obey task
  have hplaced' : (s.resume e obey task).Placed :=
    h.resume_of_doings (q := Doing.isPlaced) (fun hs hp => hp.act hs) hplaced hdoings
  obtain ⟨hkept, hbody⟩ := h.at_body_of_settled hx hopen hx' hseq hsettled
  -- the session was the live one, so it is still the one that the status is about
  have hlive := h.books.unfinished x hx hkept hopen
  have houtline := h.resume_outline e obey task
  have hlastSeq : (s.resume e obey task).lastSeq = s.lastSeq := congrArg Outline.lastSeq houtline
  have hsession : (s.resume e obey task).status.session = s.status.session :=
    congrArg Outline.session houtline
  have hid : (s.resume e obey task).renderId x.seq = s.renderId x.seq :=
    congrArg (fun o : Outline ο => o.instanceId.renderId x.seq) houtline
  have hlast : x'.seq = (s.resume e obey task).lastSeq :=
    hseq.trans ((h.of_live hx hlive).1.trans hlastSeq.symm)
  obtain ⟨hkept', hcontainer⟩ := hsound.last_settled hx' hsettled hlast
    (by rw [hsession, h.session_of_live hlive]; simp)
  rw [hseq] at hcontainer
  refine ⟨hcontainer, ?_, by rw [hid]; exact hbody⟩
  intro node hnode howns
  rcases Surface.mem_nodes.mp hnode with hmounted | ⟨place, hat⟩
  · exact .inl hmounted
  · cases place with
    | body =>
      refine .inr ⟨hat, fun hrendered => ?_⟩
      have habove := ((hbody node).mp hat).2 hrendered
      rw [hid] at howns ⊢
      simpa [RenderId.owns, habove] using howns
    | host host =>
      have hhost : x'.host? = none := by
        simp [Session.host?, hsound.books.not_abandoned hx' hkept', hsettled]
      have hnot := hplaced'.not_at_host hsound.books hx' hhost hat
      rw [hseq, howns] at hnot
      cases hnot

end Scene

/-- In any course in which the engine keeps the nodes of a session to the host of the session's call
or to the body: a session that settles in a turn leaves the mounted node if it was rendered, and
beside it nothing but nodes in the body, which bear its very id if it was rendered. A blank text
settles with no node of the instance left. -/
theorem settled_nodes (e : Engine σ Empty) (config : SharedConfig) (engine : σ) (i : InstanceId)
    (owner : ο) (moves : List (Move σ Order)) {s : Scene σ ο}
    (hs : s = (Scene.fresh config engine i owner).run e Order.obey moves)
    (hplaced : along (Move.take e Order.obey) (Move.isPlaced e) moves
      (Scene.fresh config engine i owner) = true) :
    (∀ (task : Task) (t : Scene σ ο), t = (Move.turn task).take e Order.obey s →
      (Move.turn task : Move σ Order).isPlaced e s = true →
        ∀ x ∈ s.sessions, x.end? = none → ∀ x' ∈ t.sessions, x'.seq = x.seq →
          ∀ outcome, x'.progress = .ended (.settled outcome) →
            Scene.Settlement e task s t x.seq outcome) ∧
    ∀ text, Text.isBlankText text = true →
      (s.schedule text).1.status = ⟨some (s.renderId (s.lastSeq + 1)), .noDiagram, none⟩ ∧
        ∀ node ∈ (s.schedule text).1.surface.nodes, s.instanceId.covers node.id = false := by
  have hempty : (Scene.fresh config engine i owner).Placed := by
    rintro h node n ⟨nodes, hmem, -⟩
    cases hmem
  obtain ⟨hsound, hplaced⟩ : s.Sound ∧ s.Placed := by
    rw [hs]
    refine along_invariant (P := fun s => s.Sound ∧ s.Placed) ?_ hplaced ⟨.fresh .., hempty⟩
    rintro move t ⟨hsound, hplaced⟩ hmove
    exact ⟨hsound.take e (fun order _ ht => ht.obey order) move, hplaced.take hsound hmove⟩
  refine ⟨?_, ?_⟩
  · rintro task t rfl hmove x hx hopen x' hx' hseq outcome hsettled
    exact hplaced.settlement hsound hmove hx hopen hx' hseq hsettled
  · intro text hblank
    refine ⟨by simp [Scene.schedule_toSchedule, hblank], ?_⟩
    intro node hnode
    rw [Scene.schedule_surface] at hnode
    exact (Surface.mem_nodes_remove.mp hnode).2

/-! ## Nodes that stay in the body -/

/-- An engine that inserts a node into the body with each call, and whose calls are over at once. -/
def strewingEngine (tail : String) (result : Except String String) : Engine Unit Empty where
  configure _ _ := ()
  validate _ _ := ⟨(), [], .ok ()⟩
  render id _ _ _ := ⟨(), [.insert .body ⟨id.text ++ tail, "<g/>"⟩], ()⟩
  poll _ _ := some ⟨(), [], result⟩

def strewnMoves : List (Move Unit Order) :=
  [.call (.schedule "graph TD"), .turn ⟨.numbered 1, 1, .session⟩]

/-- A scheduler with one session, which is about to call the engine. -/
def strewnScene (tail : String) (result : Except String String) : Scene Unit Unit :=
  (Scene.fresh {} () (.numbered 1) ()).run (strewingEngine tail result) Order.obey strewnMoves

/-- The scene after the turn in which the session settles. -/
def strewnEnd (tail : String) (result : Except String String) : Scene Unit Unit :=
  (Move.turn ⟨.numbered 1, 1, .session⟩).take (strewingEngine tail result) Order.obey
    (strewnScene tail result)

theorem settled_nodes_strewn :
    along (Move.take (strewingEngine "" (.ok "<svg/>")) Order.obey)
        (Move.isPlaced (strewingEngine "" (.ok "<svg/>"))) strewnMoves
        (Scene.fresh {} () (.numbered 1) ()) = true ∧
      Scene.Settlement (strewingEngine "" (.ok "<svg/>")) ⟨.numbered 1, 1, .session⟩
        (strewnScene "" (.ok "<svg/>")) (strewnEnd "" (.ok "<svg/>")) 1 .rendered := by
  have hplaced : along (Move.take (strewingEngine "" (.ok "<svg/>")) Order.obey)
      (Move.isPlaced (strewingEngine "" (.ok "<svg/>"))) strewnMoves
      (Scene.fresh {} () (.numbered 1) ()) = true := by
    decide +kernel
  have hmove : (Move.turn ⟨.numbered 1, 1, .session⟩ : Move Unit Order).isPlaced
      (strewingEngine "" (.ok "<svg/>")) (strewnScene "" (.ok "<svg/>")) = true := by
    decide +kernel
  have hopen : { seq := 1, text := "graph TD", progress := .deferred } ∈
      (strewnScene "" (.ok "<svg/>")).sessions := by
    decide +kernel
  have hsettled : { seq := 1, text := "graph TD", progress := .ended (.settled .rendered) } ∈
      (strewnEnd "" (.ok "<svg/>")).sessions := by
    decide +kernel
  obtain ⟨hsettlement, -⟩ := settled_nodes (s := strewnScene "" (.ok "<svg/>"))
    (strewingEngine "" (.ok "<svg/>")) {} () (.numbered 1) () strewnMoves rfl hplaced
  exact ⟨hplaced, hsettlement ⟨.numbered 1, 1, .session⟩ (strewnEnd "" (.ok "<svg/>")) rfl hmove _
    hopen rfl _ hsettled rfl .rendered rfl⟩

/-- A node in the body that bears the id of a rendered session stays, and so does one below the id
of a session that failed. -/
theorem nodes_left_in_body :
    ((strewnEnd "" (.ok "<svg/>")).sessions.map (·.progress) = [.ended (.settled .rendered)] ∧
      (strewnEnd "" (.ok "<svg/>")).surface.body = [⟨"cl-1-1", "<g/>"⟩] ∧
      ((strewnEnd "" (.ok "<svg/>")).renderId 1).owns "cl-1-1" = true) ∧
    (strewnEnd "-stray" (.error "no")).sessions.map (·.progress) =
        [.ended (.settled (.renderError "no"))] ∧
      (strewnEnd "-stray" (.error "no")).surface.body = [⟨"cl-1-1-stray", "<g/>"⟩] ∧
      ((strewnEnd "-stray" (.error "no")).renderId 1).owns "cl-1-1-stray" = true := by
  decide +kernel

end DiagramView
