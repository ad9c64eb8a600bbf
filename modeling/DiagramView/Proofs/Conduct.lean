import DiagramView.Proofs.Course
import DiagramView.Proofs.Nodes
import DiagramView.Proofs.Outline

/-!
# The conduct of an engine

What an engine puts on the surface is up to the engine, and what can be said of the surface depends
on how the engine conducts itself there. The *doings* of a turn (`Scene.turnDoings`) are what the
engine does in the calls of that turn, each with the host that its call was given. An act puts
nothing on the surface but the node that it mounts and what the engine inserts
(`Scene.Act.mem_nodes`), and an invariant that every act keeps as long as the doings are in order is
kept by every such turn (`Scene.Sound.resume_of_doings`).
-/

namespace DiagramView

variable {σ ο : Type}

/-! ## Conditions along a course -/

/-- Whether every move of a course meets a condition in the state in which it is made. -/
def along {μ S : Type} (step : μ → S → S) (p : μ → S → Bool) : List μ → S → Bool
  | [], _ => true
  | move :: moves, s => p move s && along step p moves (step move s)

theorem along_invariant {μ S : Type} {step : μ → S → S} {p : μ → S → Bool} {P : S → Prop}
    (hstep : ∀ move s, P s → p move s = true → P (step move s)) {moves : List μ} {s : S}
    (halong : along step p moves s = true) (hs : P s) :
    P (moves.foldl (fun s move => step move s) s) := by
  induction moves generalizing s with
  | nil => exact hs
  | cons move moves ih =>
    obtain ⟨hmove, hmoves⟩ := Bool.and_eq_true_iff.mp halong
    exact ih hmoves (hstep move s hs hmove)

/-! ## Doings -/

/-- Something that an engine does, with the host of the call in whose course it does it. A text is
validated without a host. -/
structure Doing where
  host : Option HostId
  deed : Deed Empty

def Response.doings {α : Type} (host : Option HostId) (response : Response σ Empty α) :
    List Doing :=
  response.deeds.map (Doing.mk host)

theorem Response.exists_doing {α : Type} {host : Option HostId} {response : Response σ Empty α}
    {deed : Deed Empty} : (∃ d ∈ response.doings host, d.deed = deed) ↔ deed ∈ response.deeds := by
  simp only [doings, List.mem_map]
  constructor
  · rintro ⟨_, ⟨found, hfound, rfl⟩, rfl⟩
    exact hfound
  · intro hdeed
    exact ⟨⟨host, deed⟩, ⟨deed, hdeed, rfl⟩, rfl⟩

/-- What the engine does when it is asked for the result of the call in a host. -/
def Bench.doings (e : Engine σ Empty) (host : HostId) (b : Bench σ) : List Doing :=
  ((b.poll e host).map (·.doings (some host))).getD []

theorem Bench.doings_of_poll {e : Engine σ Empty} {b : Bench σ} {host : HostId}
    {response : Response (Bench σ) Empty (Except String String)}
    (hpoll : b.poll e host = some response) : b.doings e host = response.doings (some host) := by
  simp only [doings, hpoll, Option.map_some, Option.getD_some]

namespace Scene

variable {s s' : Scene σ ο} {x : Session} {e : Engine σ Empty}

/-- What the engine does when a session goes on, or the sweep after it. -/
def doings (e : Engine σ Empty) (s : Scene σ ο) (x : Session) : List Doing :=
  match x.abandoned with
  | some host => s.toBench.doings e host
  | none =>
    if x.cancelled then []
    else
      match x.progress with
      | .deferred =>
        (s.verdict e x).doings none ++
          match (s.verdict e x).answer with
          | .error _ => []
          | .ok _ =>
            (s.opening e x).doings (some (s.opening e x).answer) ++
              (s.opening e x).after.doings e (s.opening e x).answer
      | .waiting host => s.toBench.doings e host
      | _ => []

/-- What the engine does in a turn. -/
def turnDoings (e : Engine σ Empty) (task : Task) (s : Scene σ ο) : List Doing :=
  match s.session? task.seq with
  | none => []
  | some x =>
    match task.role with
    | .session => if x.end?.isSome then [] else s.doings e x
    | .sweep => if x.abandoned.isSome then s.doings e x else []

section Doings

variable (hleft : x.abandoned = none) (hkept : x.cancelled = false)
include hleft hkept

theorem doings_of_refused (hprogress : x.progress = .deferred) {error : ParseError}
    (hverdict : (s.verdict e x).answer = .error error) :
    s.doings e x = (s.verdict e x).doings none := by
  simp only [doings, hleft, hkept, hprogress, hverdict, Bool.false_eq_true, ↓reduceIte,
    List.append_nil]

theorem doings_of_accepted (hprogress : x.progress = .deferred) {keyword : Diagram.Keyword}
    (hverdict : (s.verdict e x).answer = .ok keyword) :
    s.doings e x = (s.verdict e x).doings none ++
      ((s.opening e x).doings (some (s.opening e x).answer) ++
        (s.opening e x).after.doings e (s.opening e x).answer) := by
  simp only [doings, hleft, hkept, hprogress, hverdict, Bool.false_eq_true, ↓reduceIte]

theorem doings_of_waiting {host : HostId} (hprogress : x.progress = .waiting host) :
    s.doings e x = s.toBench.doings e host := by
  simp only [doings, hleft, hkept, hprogress, Bool.false_eq_true, ↓reduceIte]

end Doings

theorem doings_of_abandoned {host : HostId} (hleft : x.abandoned = some host) :
    s.doings e x = s.toBench.doings e host := by
  simp only [doings, hleft]

/-! ## The records that an act leaves -/

theorem showResult_sessions (seq : Nat) (result : RenderResult) (s : Scene σ ο) :
    ∃ how, (s.showResult seq result).sessions = (s.setProgress seq (.ended how)).sessions := by
  cases result with
  | crashed => exact ⟨_, rfl⟩
  | artifact markup =>
    simp only [showResult]
    split <;> exact ⟨_, rfl⟩
  | failed message =>
    simp only [showResult]
    split <;> exact ⟨_, rfl⟩

theorem beginAwait_frame (seq : Nat) (host : HostId) (s : Scene σ ο) :
    (s.beginAwait seq host).toBench = s.toBench ∧
      (s.beginAwait seq host).sessions = (s.setProgress seq (.waiting host)).sessions := by
  unfold beginAwait setPhase
  split <;> exact ⟨rfl, rfl⟩

theorem cleanUp_sessions (seq : Nat) (host : HostId) (answer : Except String String)
    (s : Scene σ ο) :
    (s.cleanUp seq host answer).sessions =
      (s.update seq fun x => { x with abandoned := none }).sessions := by
  unfold cleanUp
  dsimp only
  split <;> rfl

/-- An act changes the record of its session and no other. -/
theorem Act.sessions (hact : Act e s x s') :
    ∃ f : Session → Session, s'.sessions = (s.update x.seq f).sessions := by
  cases hact with
  | stepBack => exact ⟨fun y => { y with progress := .deferred }, rfl⟩
  | discard => exact ⟨fun y => { y with progress := .ended .cancelled }, rfl⟩
  | abandon host =>
    refine ⟨fun y => { y with abandoned := some host, progress := .ended .cancelled }, ?_⟩
    have htwice : (s.update x.seq fun y => { y with abandoned := some host }).update x.seq
        (fun y => { y with progress := .ended .cancelled }) = _ :=
      update_update fun _ => rfl
    exact congrArg (·.sessions) htwice
  | refuse error =>
    exact ⟨fun y => { y with progress := .ended (.settled (.parseError error.message)) }, rfl⟩
  | begin keyword => exact ⟨_, (beginAwait_frame x.seq _ _).2⟩
  | takeResult host response =>
    obtain ⟨how, hsessions⟩ := showResult_sessions x.seq
      (response.after.conclude host response.answer).2
      ((s.onBench response.after).onBench (response.after.conclude host response.answer).1)
    exact ⟨fun y => { y with progress := .ended how }, hsessions⟩
  | cleanUp host response => exact ⟨_, cleanUp_sessions x.seq host response.answer _⟩

theorem Act.mem (hact : Act e s x s') : x ∈ s.sessions := by
  cases hact <;> assumption

theorem Act.others (hact : Act e s x s') {y : Session} (hy : y ∈ s.sessions)
    (hne : y.seq ≠ x.seq) : y ∈ s'.sessions := by
  obtain ⟨f, hsessions⟩ := hact.sessions
  rw [hsessions]
  exact mem_update.mpr ⟨y, hy, if_neg hne⟩

/-! ## What an act puts on the surface -/

theorem showResult_grows (seq : Nat) (result : RenderResult) (s : Scene σ ο) :
    s.toBench.Grows (s.showResult seq result).toBench := by
  cases result with
  | crashed => exact .of_eq rfl rfl rfl
  | artifact markup =>
    simp only [showResult]
    split <;> exact .of_eq rfl rfl rfl
  | failed message =>
    simp only [showResult]
    split <;> exact .of_eq rfl rfl rfl

theorem cleanUp_surface (seq : Nat) (host : HostId) (answer : Except String String)
    (s : Scene σ ο) :
    (s.cleanUp seq host answer).toRenderer = s.toRenderer ∧
      (s.cleanUp seq host answer).surface =
        if (s.toBench.conclude host answer).2 = .crashed then s.surface.detachHost host
        else (s.surface.detachHost host).remove (s.renderId seq).owns := by
  have hrenderer := Bench.conclude_toRenderer host answer s.toBench
  have hsurface := Bench.conclude_surface host answer s.toBench
  unfold cleanUp
  dsimp only
  split
  · next hcrashed =>
    rw [if_pos hcrashed]
    exact ⟨hrenderer, hsurface⟩
  all_goals
    next hresult =>
      rw [if_neg (by rw [hresult]; exact fun h => by cases h), ← hsurface]
      exact ⟨hrenderer, rfl⟩

theorem Act.grows (hact : Act e s x s') : s.toBench.Grows s'.toBench := by
  cases hact with
  | stepBack => exact .of_eq rfl rfl rfl
  | discard => exact .of_eq rfl rfl rfl
  | abandon => exact .of_eq rfl rfl rfl
  | refuse => exact (s.verdict_grows e x).trans (.of_eq rfl rfl rfl)
  | begin =>
    rw [(beginAwait_frame x.seq _ _).1]
    exact (s.verdict_grows e x).trans (s.opening_grows e x)
  | takeResult host response hx hprogress hkept hpoll =>
    obtain ⟨-, hgrows, -⟩ := Bench.poll_eq_some hpoll
    refine (hgrows.trans (Response.after_grows response)).trans ?_
    refine (Bench.conclude_grows host response.answer response.after).trans ?_
    exact showResult_grows x.seq _
      ((s.onBench response.after).onBench (response.after.conclude host response.answer).1)
  | cleanUp host response hx habandoned hpoll =>
    obtain ⟨-, hgrows, -⟩ := Bench.poll_eq_some hpoll
    refine (hgrows.trans (Response.after_grows response)).trans ?_
    obtain ⟨hrenderer, hsurface⟩ := cleanUp_surface x.seq host response.answer
      (s.onBench response.after)
    refine .of_eq (by rw [hrenderer]; rfl) (by rw [hrenderer]; rfl) ?_
    rw [hsurface]
    split <;> rfl

variable {node : SurfaceNode} {place : Parent}

theorem at_of_verdict (hat : (s.verdict e x).after.surface.At place node) :
    s.surface.At place node ∨ .insert place node ∈ (s.verdict e x).deeds := by
  have hafter := Response.at_after hat
  rwa [verdict, Bench.validate_surface] at hafter

theorem at_of_opening (hat : (s.opening e x).after.surface.At place node) :
    (s.surface.At place node ∨ .insert place node ∈ (s.verdict e x).deeds) ∨
      .insert place node ∈ (s.opening e x).deeds := by
  have hafter := Response.at_after hat
  rw [opening, Bench.render_surface, Surface.at_attachHost] at hafter
  exact hafter.imp_left at_of_verdict

theorem at_of_poll {host : HostId} {response : Response (Bench σ) Empty (Except String String)}
    (hpoll : s.toBench.poll e host = some response)
    (hat : response.after.surface.At place node) :
    s.surface.At place node ∨ .insert place node ∈ response.deeds := by
  have hafter := Response.at_after hat
  rwa [(Bench.poll_eq_some hpoll).1] at hafter

theorem at_refuse {seq : Nat} {message : String} :
    (s.refuse seq message).surface.At place node ↔ s.surface.At place node := by
  rw [show (s.refuse seq message).surface = s.surface.clearContainer from rfl]
  exact Surface.at_clearContainer

/-- Showing a result inserts nothing outside the container. -/
theorem at_of_showResult {seq : Nat} {result : RenderResult}
    (hat : (s.showResult seq result).surface.At place node) : s.surface.At place node := by
  cases result with
  | crashed => exact hat
  | artifact markup =>
    simp only [showResult] at hat
    split at hat
    · exact (Surface.at_remove.mp hat).1
    · exact (Surface.at_remove.mp hat).1
  | failed message =>
    simp only [showResult] at hat
    split at hat
    · exact hat
    · exact (Surface.at_remove.mp hat).1

/-- A session shows nothing but its own node. -/
theorem container_of_showResult {seq : Nat} {result : RenderResult}
    (hnode : (s.showResult seq result).surface.container = some node) :
    s.surface.container = some node ∨ node.id = (s.renderId seq).text := by
  cases result with
  | crashed => exact .inl hnode
  | artifact markup =>
    simp only [showResult] at hnode
    split at hnode
    · change ((s.surface.clearContainer.mount _).remove _).container = some node at hnode
      cases Surface.container_of_remove hnode
      exact .inr rfl
    · exact .inl (Surface.container_of_remove hnode)
  | failed message =>
    simp only [showResult] at hnode
    split at hnode
    · cases hnode
    · exact .inl (Surface.container_of_remove hnode)

theorem Act.container (hact : Act e s x s') (hnode : s'.surface.container = some node) :
    s.surface.container = some node ∨ node.id = (s.renderId x.seq).text := by
  cases hact with
  | stepBack => exact .inl hnode
  | discard => exact .inl (Surface.container_of_remove hnode)
  | abandon => exact .inl (Surface.container_of_remove hnode)
  | refuse => cases hnode
  | begin =>
    rw [(beginAwait_frame x.seq _ _).1] at hnode
    exact .inl ((s.opening_container e x).symm.trans hnode)
  | takeResult host response hx hprogress hkept hpoll =>
    refine (container_of_showResult hnode).imp_left fun hbefore => ?_
    change (response.after.conclude host response.answer).1.surface.container = some node at hbefore
    rw [Bench.conclude_surface] at hbefore
    rw [← (Bench.poll_eq_some hpoll).1, ← Response.after_container]
    exact hbefore
  | cleanUp host response hx habandoned hpoll =>
    rw [(cleanUp_surface x.seq host response.answer _).2] at hnode
    refine .inl ?_
    rw [← (Bench.poll_eq_some hpoll).1, ← Response.after_container]
    split at hnode
    · exact hnode
    · exact Surface.container_of_remove hnode

/-- An act puts nothing into the body or a host but what the engine inserts there. -/
theorem Act.at (hbooks : s.WellKept) (hact : Act e s x s') (hat : s'.surface.At place node) :
    s.surface.At place node ∨ ∃ d ∈ s.doings e x, d.deed = .insert place node := by
  have hnotLeft := hbooks.not_abandoned hact.mem
  cases hact with
  | stepBack => exact .inl hat
  | discard => exact .inl (Surface.at_remove.mp hat).1
  | abandon => exact .inl (Surface.at_remove.mp hat).1
  | refuse error hx hprogress hkept hverdict =>
    rw [doings_of_refused (hnotLeft hkept) hkept hprogress hverdict, Response.exists_doing]
    rw [at_refuse] at hat
    exact at_of_verdict hat
  | begin keyword hx hprogress hkept hverdict =>
    rw [(beginAwait_frame x.seq _ _).1] at hat
    rw [doings_of_accepted (hnotLeft hkept) hkept hprogress hverdict]
    simp only [List.mem_append, or_and_right, exists_or, Response.exists_doing]
    rcases at_of_opening hat with (hold | hdeed) | hdeed
    · exact .inl hold
    · exact .inr (.inl hdeed)
    · exact .inr (.inr (.inl hdeed))
  | takeResult host response hx hprogress hkept hpoll =>
    rw [doings_of_waiting (hnotLeft hkept) hkept hprogress, Bench.doings_of_poll hpoll,
      Response.exists_doing]
    have hat := at_of_showResult hat
    change (response.after.conclude host response.answer).1.surface.At place node at hat
    rw [Bench.conclude_surface] at hat
    exact at_of_poll hpoll (Surface.at_detachHost.mp hat).1
  | cleanUp host response hx habandoned hpoll =>
    rw [doings_of_abandoned habandoned, Bench.doings_of_poll hpoll, Response.exists_doing]
    rw [(cleanUp_surface x.seq host response.answer _).2] at hat
    refine at_of_poll hpoll ?_
    split at hat
    · exact (Surface.at_detachHost.mp hat).1
    · exact (Surface.at_detachHost.mp (Surface.at_remove.mp hat).1).1

/-- An act puts nothing on the surface but the node that it mounts and what the engine inserts. -/
theorem Act.mem_nodes (hbooks : s.WellKept) (hact : Act e s x s')
    (hnode : node ∈ s'.surface.nodes) :
    node ∈ s.surface.nodes ∨ node.id = (s.renderId x.seq).text ∨
      ∃ d ∈ s.doings e x, ∃ place, d.deed = .insert place node := by
  rcases Surface.mem_nodes.mp hnode with hcontainer | ⟨place, hat⟩
  · rcases hact.container hcontainer with hbefore | hmounted
    · exact .inl (Surface.mem_nodes.mpr (.inl hbefore))
    · exact .inr (.inl hmounted)
  · rcases hact.at hbooks hat with hbefore | ⟨d, hd, hdeed⟩
    · exact .inl (Surface.mem_nodes.mpr (.inr ⟨place, hbefore⟩))
    · exact .inr (.inr ⟨d, hd, place, hdeed⟩)

/-! ## Turns -/

variable {obey : Empty → Scene σ ο → Scene σ ο}

/-- A turn in which something happens is an act, or two of them, of the session that it is for, and
what the engine does in it is what it does for that session. -/
theorem resume_cases (hbooks : s.WellKept) (task : Task) :
    s.resume e obey task = s ∨
      ∃ x, s.session? task.seq = some x ∧ s.turnDoings e task = s.doings e x ∧
        (Act e s x (s.resume e obey task) ∨
          ∃ keyword, x.progress = .deferred ∧ x.cancelled = false ∧
            (s.verdict e x).answer = .ok keyword ∧
            Act e ((s.onBench (s.opening e x).after).beginAwait x.seq (s.opening e x).answer)
              { x with progress := .waiting (s.opening e x).answer }
              (s.resume e obey task)) := by
  unfold resume turnDoings
  cases task.role with
  | session =>
    rcases resumeSession_cases hbooks task.seq with heq | ⟨x, hfound, hopen, hacts⟩
    · exact .inl heq
    · refine .inr ⟨x, hfound, ?_, hacts⟩
      simp only [hfound, hopen, Option.isSome_none, Bool.false_eq_true, ↓reduceIte]
  | sweep =>
    rcases resumeSweep_cases hbooks task.seq with heq | ⟨x, hfound, habandoned, hact⟩
    · exact .inl heq
    · refine .inr ⟨x, hfound, ?_, .inl hact⟩
      simp only [hfound, Option.isSome_iff_ne_none.mpr habandoned, ↓reduceIte]

/-- What every act keeps while the engine's doings are in order for the session whose act it is,
every turn keeps in which they are. -/
theorem Sound.resume_of_doings {P : Scene σ ο → Prop} {q : InstanceId → Nat → Doing → Bool}
    (hact : ∀ {s x s'}, s.Sound → P s → Act e s x s' →
      (∀ d ∈ s.doings e x, q s.instanceId x.seq d = true) → P s')
    (h : s.Sound) (hs : P s) {task : Task}
    (hdoings : (s.turnDoings e task).all (q s.instanceId task.seq) = true) :
    P (s.resume e obey task) := by
  rw [List.all_eq_true] at hdoings
  rcases resume_cases h.books task with
    heq | ⟨x, hfound, hturn, hone | ⟨keyword, hprogress, hkept, hverdict, hsecond⟩⟩
  · rw [heq]
    exact hs
  all_goals
    obtain ⟨hx, hseq⟩ := session?_eq_some hfound
    rw [hturn, ← hseq] at hdoings
  · exact hact h hs hone hdoings
  · have hbegin : Act e s x _ := .begin keyword hx hprogress hkept hverdict
    have hinstance := congrArg Outline.instanceId (h.act_outline hbegin)
    refine hact (h.act hbegin) (hact h hs hbegin hdoings) hsecond ?_
    -- the poll that ends the call at once is among the doings of the turn already
    have hnotLeft := h.books.not_abandoned hx hkept
    intro d hd
    rw [doings_of_waiting (x := { x with progress := .waiting _ }) hnotLeft hkept rfl,
      (beginAwait_frame x.seq _ _).1] at hd
    rw [doings_of_accepted hnotLeft hkept hprogress hverdict] at hdoings
    refine (congrArg (q · x.seq d) hinstance).trans ?_
    exact hdoings d (List.mem_append_right _ (List.mem_append_right _ hd))

end Scene

end DiagramView
