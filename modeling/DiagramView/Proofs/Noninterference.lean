import DiagramView.Proofs.Coherence
import DiagramView.Proofs.LiveTurn

/-!
# Sessions that were given up do not interfere

Two schedulers whose owners make the same calls, and whose live sessions have the same turns with
the same replies from their engines, look the same from the front, whatever the sessions that were
given up do in the meantime: when and in what order they have turns, whether they have any, how
their calls come out, and which nodes are inserted for them (`scheduler_noninterference`).

What two courses have to share is their *trail* (`Scene.trail`): the calls of the owner, the turns
of live sessions with the replies heard in them, and the nodes inserted under the id of the last
session. A move that leaves no trace there leaves the front as it is
(`Scene.Sound.front_take_of_silent`); a move that does changes equal fronts to equal fronts
(`Scene.Sound.front_take_of_visible`).

After a teardown the last session is one of those that were given up, and nodes that are inserted
for it then show (`late_nodes_after_teardown`).
-/

namespace DiagramView

variable {σ τ ο π : Type}

namespace Scene

variable {s : Scene σ ο} {t : Scene τ π} {x : Session} {e : Engine σ Empty} {f : Engine τ Empty}

/-! ## Calls of the owner -/

/-- The session that a call for a text begins. -/
theorem Sound.session?_schedule (h : s.Sound) (text : String) :
    (s.schedule text).1.session? (s.lastSeq + 1) =
      if Text.isBlankText text then none else some { seq := s.lastSeq + 1, text } := by
  have hsessions := congrArg Schedule.sessions (s.schedule_toSchedule text)
  simp only at hsessions
  by_cases hblank : Text.isBlankText text = true
  · rw [if_pos hblank, List.append_nil] at hsessions
    rw [if_pos hblank, session?, hsessions, List.find?_eq_none]
    intro y hy
    obtain ⟨z, hz, rfl⟩ := List.mem_map.mp hy
    have hle := h.books.numbered z hz
    simp only [Session.giveUp_seq, beq_iff_eq]
    omega
  · rw [if_neg hblank] at hsessions ⊢
    have hmem : { seq := s.lastSeq + 1, text : Session } ∈ (s.schedule text).1.sessions := by
      rw [hsessions]
      exact List.mem_append_right _ (List.mem_singleton_self _)
    exact (h.schedule text).books.session?_of_mem hmem

theorem front_schedule (hs : s.Sound) (ht : t.Sound) (hfront : s.front = t.front) (text : String) :
    (s.schedule text).1.front = (t.schedule text).1.front := by
  have hagree := Agree.of_front_eq hfront
  have hfound : (s.schedule text).1.session? (s.lastSeq + 1) =
      (t.schedule text).1.session? (t.lastSeq + 1) := by
    rw [hs.session?_schedule, ht.session?_schedule, hagree.lastSeq]
  have hcreated : ∀ y ∈ (s.schedule text).1.sessions, y.seq = (s.schedule text).1.lastSeq →
      ∀ host, y.progress = .waiting host → s.surface.attached < host.number := by
    intro y hy hseq host hwaiting
    have hy' := (hs.schedule text).books.session?_of_mem hy
    rw [hseq, schedule_toSchedule, hs.session?_schedule] at hy'
    split at hy'
    · cases hy'
    · cases hy'
      cases hwaiting
  have hscheduled : Agree (s.schedule text).1.ownsLatest (s.schedule text).1.hostsLatest
      (s.schedule text).1 (t.schedule text).1 := by
    refine ⟨?_, ?_, ?_, ?_, ?_, ?_⟩
    · simp only [schedule_toSchedule, hagree.instanceId]
    · simp only [schedule_toSchedule, hagree.lastSeq]
    · simp only [schedule_toSchedule, hagree.lastSeq]
    · simp only [schedule_toSchedule, hagree.lastSeq, hagree.renderId_eq]
    · intro _
      simp only [schedule_toSchedule] at hfound ⊢
      exact hfound
    · rw [schedule_surface, schedule_surface, ← hagree.instanceId]
      refine Surface.part_clear hagree.part ?_ ?_
      · intro node hnode
        simp only [ownsLatest, Bool.and_eq_true, renderId, schedule_toSchedule] at hnode
        exact InstanceId.covers_of_owns hnode.2
      · exact hostsLatest_of_progress (by simp [Surface.remove, Surface.clearContainer]) hcreated
  exact hscheduled.front_eq (fun _ h => h) fun _ h => h

theorem front_teardown (hfront : s.front = t.front) : s.teardown.front = t.teardown.front := by
  have hagree := Agree.of_front_eq hfront
  have htornDown : Agree s.teardown.ownsLatest s.teardown.hostsLatest s.teardown t.teardown := by
    refine ⟨?_, ?_, ?_, rfl, ?_, ?_⟩
    · simp only [teardown_toSchedule, hagree.instanceId]
    · simp only [teardown_toSchedule, hagree.lastSeq]
    · simp only [teardown_toSchedule]
    · intro hsome
      cases hsome
    · rw [teardown_surface, teardown_surface, ← hagree.instanceId]
      refine Surface.part_clear hagree.part ?_ ?_
      · intro node hnode
        cases hnode
      · intro host hhost
        have hlt : s.surface.attached < host.number := by
          simpa [hostsLatest, latest?, Surface.remove, Surface.clearContainer] using hhost
        simp [hostsLatest, hlt]
  exact htornDown.front_eq (fun _ h => h) fun _ h => h

end Scene

/-! ## Visible moves -/

/-- Something on the trail of a course. -/
inductive Visible where
  /-- The owner makes a call. -/
  | call (order : Order)
  /-- The live session has a turn and hears replies. -/
  | turn (replies : Replies)
  /-- A node of the last session is inserted. -/
  | insert (parent : Parent) (node : SurfaceNode)
  deriving DecidableEq

/-- What a move leaves on the trail. -/
def Move.visible? (e : Engine σ Empty) (s : Scene σ ο) : Move σ Order → Option Visible
  | .call order => some (.call order)
  | .turn task =>
    if task.role = .session ∧ s.live = some task.seq then
      (s.session? task.seq).map fun x => .turn (s.replies e x)
    else none
  | .insert parent node => if s.ownsLatest node.id then some (.insert parent node) else none
  | .work _ => none

namespace Scene

variable {s : Scene σ ο} {t : Scene τ π} {x : Session} {e : Engine σ Empty} {f : Engine τ Empty}

/-- A move that leaves nothing on the trail leaves the front as it is. -/
theorem Sound.front_take_of_silent (h : s.Sound) {move : Move σ Order}
    (htidy : move.isTidy e s = true) (hsilent : move.visible? e s = none) :
    (move.take e Order.obey s).front = s.front := by
  cases move with
  | call order => cases hsilent
  | turn task =>
    change (s.resume e _ task).front = s.front
    cases hfound : s.session? task.seq with
    | none => rw [resume_of_not_found hfound]
    | some x =>
      obtain ⟨hx, hseq⟩ := session?_eq_some hfound
      have hother : ¬(task.role = .session ∧ s.live = some task.seq) := by
        intro hlive
        simp [Move.visible?, hlive, hfound] at hsilent
      rcases h.books.stale_or_resume_eq hx hseq hother with hcancelled | hsame
      · have hof : (Move.turn task : Move σ Order).isOf x.seq s = true := by
          simp [Move.isOf, hseq]
        exact (h.untouched hx (h.not_live_of_cancelled hx hcancelled) Order.obey hof
          htidy).front_eq h hx hcancelled
      · rw [hsame]
  | insert parent node =>
    have hforeign : s.ownsLatest node.id = false := by
      simpa [Move.visible?] using hsilent
    have hagree : Agree s.ownsLatest s.hostsLatest s
        { s with surface := s.surface.insert parent node } := by
      refine ⟨rfl, rfl, rfl, rfl, fun _ => rfl, ?_⟩
      change _ = (s.surface.insert parent node).part s.ownsLatest s.hostsLatest
      rw [Surface.part_insert, hforeign, if_neg (by decide)]
    exact (hagree.front_eq (fun _ h => h) fun _ h => h).symm
  | work engine => rfl

/-- Which moves leave what on the trail. -/
theorem visible?_eq_some {move : Move σ Order} {visible : Visible}
    (h : move.visible? e s = some visible) :
    match visible with
    | .call order => move = .call order
    | .turn replies => ∃ i x, move = .turn ⟨i, x.seq, .session⟩ ∧ x ∈ s.sessions ∧
        s.live = some x.seq ∧ s.replies e x = replies
    | .insert parent node => move = .insert parent node := by
  cases move with
  | call order =>
    cases h
    rfl
  | turn task =>
    simp only [Move.visible?] at h
    split at h
    · next hlive =>
      obtain ⟨x, hfound, rfl⟩ := Option.map_eq_some_iff.mp h
      obtain ⟨i, seq, role⟩ := task
      obtain ⟨hx, rfl⟩ := session?_eq_some hfound
      obtain ⟨rfl, hlive⟩ := hlive
      exact ⟨i, x, rfl, hx, hlive, rfl⟩
    · cases h
  | insert parent node =>
    simp only [Move.visible?] at h
    split at h
    · cases h
      rfl
    · cases h
  | work engine => cases h

/-- Moves that leave the same on their trails change equal fronts to equal fronts. -/
theorem Sound.front_take_of_visible (hs : s.Sound) (ht : t.Sound) (hfront : s.front = t.front)
    {move : Move σ Order} {move' : Move τ Order} {visible : Visible}
    (hvisible : move.visible? e s = some visible) (hvisible' : move'.visible? f t = some visible) :
    (move.take e Order.obey s).front = (move'.take f Order.obey t).front := by
  have hmove := visible?_eq_some hvisible
  have hmove' := visible?_eq_some hvisible'
  cases visible with
  | call order =>
    obtain rfl : move = .call order := hmove
    obtain rfl : move' = .call order := hmove'
    cases order with
    | schedule text => exact front_schedule hs ht hfront text
    | teardown => exact front_teardown hfront
  | turn replies =>
    obtain ⟨i, x, rfl, hx, hlive, hreplies⟩ := hmove
    obtain ⟨j, y, rfl, hy, hlive', hreplies'⟩ := hmove'
    have habreast := Abreast.of_front_eq hs ht hfront hx hlive
    have hseq : y.seq = x.seq :=
      Option.some.inj (hlive'.symm.trans (habreast.agree.live.symm.trans hlive))
    obtain rfl : y = x := ht.books.eq_of_seq_eq hy habreast.mem' hseq
    exact habreast.resumeSession_front hfront (hreplies.trans hreplies'.symm)
  | insert parent node =>
    obtain rfl : move = .insert parent node := hmove
    obtain rfl : move' = .insert parent node := hmove'
    have hagree := Agree.of_front_eq hfront
    have hinserted : Agree s.ownsLatest s.hostsLatest
        { s with surface := s.surface.insert parent node }
        { t with surface := t.surface.insert parent node } := by
      refine hagree.frame rfl rfl ?_
      change (s.surface.insert parent node).part s.ownsLatest s.hostsLatest =
        (t.surface.insert parent node).part s.ownsLatest s.hostsLatest
      rw [Surface.part_insert, Surface.part_insert, hagree.part]
    refine hinserted.front_eq (fun _ h => h) ?_
    intro host hhost
    change (decide ((s.surface.insert parent node).attached < host.number) || _) = true at hhost
    rw [Surface.insert_attached] at hhost
    exact hhost

/-! ## Trails -/

/-- What a course leaves on its trail. -/
def trail (e : Engine σ Empty) : List (Move σ Order) → Scene σ ο → List Visible
  | [], _ => []
  | move :: moves, s => (move.visible? e s).toList ++ trail e moves (move.take e Order.obey s)

/-- Whether the engine is tidy throughout a course. -/
def isTidy (e : Engine σ Empty) : List (Move σ Order) → Scene σ ο → Bool
  | [], _ => true
  | move :: moves, s => move.isTidy e s && isTidy e moves (move.take e Order.obey s)

theorem Sound.takeOrder (h : s.Sound) (e : Engine σ Empty) (move : Move σ Order) :
    (move.take e Order.obey s).Sound :=
  h.take e (fun order _ hs => hs.obey order) move

/-- A course that leaves no trail leaves the front as it is. -/
theorem Sound.front_run_of_trail_nil (h : s.Sound) {moves : List (Move σ Order)}
    (htidy : s.isTidy e moves = true) (htrail : s.trail e moves = []) :
    (s.run e Order.obey moves).front = s.front := by
  induction moves generalizing s with
  | nil => rfl
  | cons move moves ih =>
    simp only [isTidy, Bool.and_eq_true] at htidy
    simp only [trail, List.append_eq_nil_iff, Option.toList_eq_nil_iff] at htrail
    refine (ih (h.takeOrder e move) htidy.2 htrail.2).trans ?_
    exact h.front_take_of_silent htidy.1 htrail.1

/-- A trail begins with the first visible move, before which the front stays as it was. -/
theorem Sound.exists_visible (h : s.Sound) {moves : List (Move σ Order)} {visible : Visible}
    {rest : List Visible} (htidy : s.isTidy e moves = true)
    (htrail : s.trail e moves = visible :: rest) :
    ∃ (s₁ : Scene σ ο) (move : Move σ Order) (later : List (Move σ Order)),
      s₁.Sound ∧ s₁.front = s.front ∧ move.visible? e s₁ = some visible ∧
        (move.take e Order.obey s₁).isTidy e later = true ∧
        (move.take e Order.obey s₁).trail e later = rest ∧
        s.run e Order.obey moves = (move.take e Order.obey s₁).run e Order.obey later := by
  induction moves generalizing s with
  | nil => cases htrail
  | cons move moves ih =>
    simp only [isTidy, Bool.and_eq_true] at htidy
    simp only [trail] at htrail
    cases hvisible : move.visible? e s with
    | none =>
      rw [hvisible] at htrail
      obtain ⟨s₁, first, later, hsound, hfront, hfirst⟩ :=
        ih (h.takeOrder e move) htidy.2 htrail
      exact ⟨s₁, first, later, hsound, hfront.trans (h.front_take_of_silent htidy.1 hvisible),
        hfirst⟩
    | some first =>
      rw [hvisible] at htrail
      obtain ⟨rfl, hrest⟩ := List.cons.inj htrail
      exact ⟨s, move, moves, h, rfl, hvisible, htidy.2, hrest, rfl⟩

/-- Courses with the same trail lead from equal fronts to equal fronts. -/
theorem Sound.front_run_of_trail_eq (hs : s.Sound) (ht : t.Sound) (hfront : s.front = t.front)
    {moves : List (Move σ Order)} {moves' : List (Move τ Order)}
    (htidy : s.isTidy e moves = true) (htidy' : t.isTidy f moves' = true)
    (htrail : s.trail e moves = t.trail f moves') :
    (s.run e Order.obey moves).front = (t.run f Order.obey moves').front := by
  induction moves generalizing s t moves' with
  | nil => exact hfront.trans (ht.front_run_of_trail_nil htidy' htrail.symm).symm
  | cons move moves ih =>
    simp only [isTidy, Bool.and_eq_true] at htidy
    simp only [trail] at htrail
    cases hvisible : move.visible? e s with
    | none =>
      rw [hvisible] at htrail
      have hsilent := hs.front_take_of_silent htidy.1 hvisible
      exact ih (hs.takeOrder e move) ht (hsilent.trans hfront) htidy.2 htidy' htrail
    | some visible =>
      rw [hvisible] at htrail
      -- the other course gets to the same visible move without a change of its front
      obtain ⟨t₁, move', later, hsound, hsame, hvisible', htidy₁, htrail₁, hrun⟩ :=
        ht.exists_visible htidy' htrail.symm
      rw [hrun]
      refine ih (hs.takeOrder e move) (hsound.takeOrder f move') ?_ htidy.2 htidy₁ htrail₁.symm
      exact hs.front_take_of_visible hsound (hfront.trans hsame.symm) hvisible hvisible'

/-! ## Schedulers that look the same -/

/-- Of some nodes, those of the last session. -/
def ofLatest (s : Scene σ ο) (nodes : List SurfaceNode) : List SurfaceNode :=
  nodes.filter fun node => (s.renderId s.lastSeq).owns node.id

/-- Two schedulers look the same from the front. What the last session has on the surface counts
unless it was torn down. -/
structure Alike (s : Scene σ ο) (t : Scene τ π) : Prop where
  status : s.status = t.status
  lastSeq : s.lastSeq = t.lastSeq
  live : s.live = t.live
  container : s.surface.container = t.surface.container
  body : s.status.session.isSome = true → s.ofLatest s.surface.body = t.ofLatest t.surface.body
  latest : s.status.session.isSome = true → s.session? s.lastSeq = t.session? t.lastSeq
  host : s.status.session.isSome = true → ∀ x, s.session? s.lastSeq = some x →
    ∀ host, x.progress = .waiting host →
      s.ofLatest (s.surface.nodesIn host) = t.ofLatest (t.surface.nodesIn host)

theorem Alike.of_front_eq (hfront : s.front = t.front) : s.Alike t := by
  have hagree := Agree.of_front_eq hfront
  have hown : s.status.session.isSome = true → s.ownsLatest = (s.renderId s.lastSeq).owns := by
    intro hsome
    funext node
    rw [ownsLatest, hsome, Bool.true_and]
  have hcontainer := congrArg Surface.container hagree.part
  refine ⟨hagree.status, hagree.lastSeq, hagree.live, hcontainer, ?_, hagree.latest, ?_⟩
  · intro hsome
    have hbody := congrArg Surface.body hagree.part
    rw [ofLatest, ofLatest, ← hagree.lastSeq, ← hagree.renderId_eq, ← hown hsome]
    exact hbody
  · intro hsome x hfound host hwaiting
    rw [ofLatest, ofLatest, ← hagree.lastSeq, ← hagree.renderId_eq, ← hown hsome]
    refine Surface.nodesIn_of_part_eq hagree.part ?_
    simp [hostsLatest, latest?, hsome, hfound, hwaiting]

end Scene

/-- Two schedulers whose courses leave the same trail look the same, and in any course a move on
behalf of a session that is not live touches only what is that session's own. -/
theorem scheduler_noninterference (e : Engine σ Empty) (f : Engine τ Empty)
    (config config' : SharedConfig) (engine : σ) (engine' : τ) (i : InstanceId) (owner : ο)
    (owner' : π) (moves : List (Move σ Order)) (moves' : List (Move τ Order))
    {s : Scene σ ο} {t : Scene τ π}
    (hs : s = (Scene.fresh config engine i owner).run e Order.obey moves)
    (ht : t = (Scene.fresh config' engine' i owner').run f Order.obey moves')
    (htidy : (Scene.fresh config engine i owner).isTidy e moves = true)
    (htidy' : (Scene.fresh config' engine' i owner').isTidy f moves' = true)
    (htrail : (Scene.fresh config engine i owner).trail e moves =
      (Scene.fresh config' engine' i owner').trail f moves') :
    s.Alike t ∧ ∀ x ∈ s.sessions, s.live ≠ some x.seq → ∀ move : Move σ Order,
      move.isOf x.seq s = true → move.isTidy e s = true →
        Scene.Untouched x s (move.take e Order.obey s) := by
  have hfresh := Scene.Sound.fresh config engine i owner
  have hfresh' := Scene.Sound.fresh config' engine' i owner'
  subst hs ht
  refine ⟨.of_front_eq (hfresh.front_run_of_trail_eq hfresh' rfl htidy htidy' htrail), ?_⟩
  intro x hx hlive move hof htidyMove
  exact (hfresh.run e moves).untouched hx hlive Order.obey hof htidyMove

/-! ## Two courses -/

/-- An engine whose calls come to their end at one moment, the first of them with a given result. -/
def gatedEngine (first : Except String String) : Engine Bool Empty where
  configure _ released := released
  validate _ released := ⟨released, [], .ok ()⟩
  render _ _ _ released := ⟨released, [], ()⟩
  poll host released :=
    if released then some ⟨released, [], if host = ⟨1⟩ then first else .ok "<svg/>"⟩ else none

def gatedScene : Scene Bool Unit :=
  Scene.fresh {} false (.numbered 1) ()

/-- A turn of the task of a session. -/
def sessionTurn (seq : Nat) : Move Bool Order :=
  .turn ⟨.numbered 1, seq, .session⟩

/-- A node that comes late for the first session. -/
def lateNode : Move Bool Order :=
  .insert .body ⟨"cl-1-1-late", "<g/>"⟩

/-- The first session begins its call. -/
def firstCall : List (Move Bool Order) :=
  [.call (.schedule "graph TD"), sessionTurn 1, sessionTurn 1]

/-- The first session is superseded, leaves its call to a sweep, and has a node inserted late; the
call fails, and the sweep cleans up. The second session is rendered after that. -/
def busyMoves : List (Move Bool Order) :=
  firstCall ++ [.call (.schedule "graph LR"), sessionTurn 1, lateNode, .work true,
    .turn ⟨.numbered 1, 1, .sweep⟩, sessionTurn 2, sessionTurn 2]

def busyScene : Scene Bool Unit :=
  gatedScene.run (gatedEngine (.error "out of space")) Order.obey busyMoves

/-- The first session is superseded, and nothing is heard of it again. -/
def quietMoves : List (Move Bool Order) :=
  firstCall ++ [.call (.schedule "graph LR"), sessionTurn 2, .work true, sessionTurn 2]

def quietScene : Scene Bool Unit :=
  gatedScene.run (gatedEngine (.ok "<svg/>")) Order.obey quietMoves

theorem scheduler_noninterference_superseded :
    (gatedScene.isTidy (gatedEngine (.error "out of space")) busyMoves = true ∧
      gatedScene.isTidy (gatedEngine (.ok "<svg/>")) quietMoves = true ∧
      gatedScene.trail (gatedEngine (.error "out of space")) busyMoves =
        gatedScene.trail (gatedEngine (.ok "<svg/>")) quietMoves) ∧
    busyScene.Alike quietScene ∧ ∀ x ∈ busyScene.sessions, busyScene.live ≠ some x.seq →
      ∀ move : Move Bool Order, move.isOf x.seq busyScene = true →
        move.isTidy (gatedEngine (.error "out of space")) busyScene = true →
          Scene.Untouched x busyScene
            (move.take (gatedEngine (.error "out of space")) Order.obey busyScene) := by
  have htidy : gatedScene.isTidy (gatedEngine (.error "out of space")) busyMoves = true := by
    decide +kernel
  have htidy' : gatedScene.isTidy (gatedEngine (.ok "<svg/>")) quietMoves = true := by
    decide +kernel
  have htrail : gatedScene.trail (gatedEngine (.error "out of space")) busyMoves =
      gatedScene.trail (gatedEngine (.ok "<svg/>")) quietMoves := by
    decide +kernel
  exact ⟨⟨htidy, htidy', htrail⟩, scheduler_noninterference _ _ {} {} false false (.numbered 1) ()
    () busyMoves quietMoves rfl rfl htidy htidy' htrail⟩

/-- The first session is torn down while its call is under way. -/
def tornDown (later : List (Move Bool Order)) : List (Move Bool Order) :=
  firstCall ++ .call .teardown :: later

def tornDownScene (later : List (Move Bool Order)) : Scene Bool Unit :=
  gatedScene.run (gatedEngine (.ok "<svg/>")) Order.obey (tornDown later)

/-- Nodes that come late for the last session show after a teardown: two courses that leave the same
trail differ in them. -/
theorem late_nodes_after_teardown :
    (gatedScene.isTidy (gatedEngine (.ok "<svg/>")) (tornDown []) = true ∧
      gatedScene.isTidy (gatedEngine (.ok "<svg/>")) (tornDown [lateNode]) = true ∧
      gatedScene.trail (gatedEngine (.ok "<svg/>")) (tornDown []) =
        gatedScene.trail (gatedEngine (.ok "<svg/>")) (tornDown [lateNode])) ∧
    (tornDownScene []).ofLatest (tornDownScene []).surface.body ≠
      (tornDownScene [lateNode]).ofLatest (tornDownScene [lateNode]).surface.body := by
  refine ⟨⟨?_, ?_, ?_⟩, ?_⟩ <;> decide +kernel

end DiagramView
