import DiagramView.Proofs.Coherence

/-!
# Orders and what they change

An engine that may give orders gives them in the course of its calls, in the midst of a turn. The
owner notes every order in a *journal*, those of the engine and those from outside alike
(`Order.enter`). What a scheduler shows is its *face*: which session is live, the status and the
container. An order changes the face in a way that depends on the face alone (`obey_face`), so it
can be said that between two moments nothing but orders changed it (`Scene.Heeds`). A session
*yields* in a stretch of its turn if, not being live at its start, it leaves the face to orders.

A journal tells which orders were given since a session began (`Scene.Since`), and a session is
cancelled only if there are some (`Scene.Entered`). Whatever an engine does in the course of a call
keeps a scene in order (`Scene.Passes`).
-/

namespace DiagramView

variable {σ ο : Type}

/-! ## Journals -/

def Order.isSchedule : Order → Bool
  | .schedule _ => true
  | .teardown => false

/-- Carries out an order, which the owner notes. -/
def Order.enter (order : Order) (s : Scene σ (List Order)) : Scene σ (List Order) :=
  { order.obey s with owner := s.owner ++ [order] }

/-- What a move does when the engine may give orders too. -/
def Move.play (e : Engine σ Order) (move : Move σ Order) (s : Scene σ (List Order)) :
    Scene σ (List Order) :=
  match move with
  | .call order => order.enter s
  | .turn task => s.resume e Order.enter task
  | .insert parent node => { s with surface := s.surface.insert parent node }
  | .work engine => { s with engine }

/-- The scene after a course of moves with an engine that may give orders. -/
def Scene.played (e : Engine σ Order) (moves : List (Move σ Order)) (s : Scene σ (List Order)) :
    Scene σ (List Order) :=
  moves.foldl (fun s move => move.play e s) s

/-! ## Faces -/

/-- What a scheduler shows, and what its next id depends on. -/
structure Face where
  instanceId : InstanceId
  lastSeq : Nat
  live : Option Nat
  status : Status
  container : Option SurfaceNode

/-- What an order makes of a face. -/
def Face.obey (f : Face) (order : Order) : Face :=
  match order with
  | .schedule text =>
    { f with
      lastSeq := f.lastSeq + 1
      live := if Text.isBlankText text then none else some (f.lastSeq + 1)
      status := ⟨some (f.instanceId.renderId (f.lastSeq + 1)),
        if Text.isBlankText text then .noDiagram else .scheduled, none⟩
      container := none }
  | .teardown => { f with live := none, status := {}, container := none }

/-- After an order no session from before it is live. -/
theorem Face.obey_live {f : Face} {n : Nat} (hn : n ≤ f.lastSeq) (order : Order) :
    n ≤ (f.obey order).lastSeq ∧ (f.obey order).live ≠ some n := by
  cases order with
  | schedule text =>
    refine ⟨Nat.le_succ_of_le hn, ?_⟩
    simp only [obey]
    split
    · simp
    · intro heq
      have hnew := Option.some.inj heq
      omega
  | teardown => exact ⟨hn, by simp [obey]⟩

theorem Face.foldl_obey_live {f : Face} {n : Nat} (hn : n ≤ f.lastSeq) (hlive : f.live ≠ some n)
    (orders : List Order) :
    n ≤ (orders.foldl obey f).lastSeq ∧ (orders.foldl obey f).live ≠ some n := by
  induction orders generalizing f with
  | nil => exact ⟨hn, hlive⟩
  | cons order orders ih =>
    obtain ⟨hn, hlive⟩ := f.obey_live hn order
    exact ih hn hlive

namespace Scene

def face (s : Scene σ ο) : Face :=
  ⟨s.instanceId, s.lastSeq, s.live, s.status, s.surface.container⟩

theorem obey_face (order : Order) (s : Scene σ ο) : (order.obey s).face = s.face.obey order := by
  cases order with
  | schedule text =>
    simp only [face, Order.obey, schedule_toSchedule, schedule_surface]
    rfl
  | teardown =>
    simp only [face, Order.obey, teardown_toSchedule, teardown_surface]
    rfl

variable {s s' s'' : Scene σ (List Order)} {x : Session} {n seq : Nat}

/-- Between two moments nothing but orders changed what is shown. -/
def Heeds (s s' : Scene σ (List Order)) : Prop :=
  ∃ orders, s'.owner = s.owner ++ orders ∧ s'.face = orders.foldl Face.obey s.face

namespace Heeds

theorem of_eq (howner : s'.owner = s.owner) (hface : s'.face = s.face) : s.Heeds s' :=
  ⟨[], by rw [howner, List.append_nil], hface⟩

theorem refl (s : Scene σ (List Order)) : s.Heeds s :=
  of_eq rfl rfl

theorem setProgress (s : Scene σ (List Order)) (seq : Nat) (progress : Progress) :
    s.Heeds (s.setProgress seq progress) :=
  of_eq rfl rfl

theorem enter (order : Order) (s : Scene σ (List Order)) : s.Heeds (order.enter s) :=
  ⟨[order], rfl, obey_face order s⟩

theorem trans (h : s.Heeds s') (h' : s'.Heeds s'') : s.Heeds s'' := by
  obtain ⟨orders, howner, hface⟩ := h
  obtain ⟨orders', howner', hface'⟩ := h'
  exact ⟨orders ++ orders', by rw [howner', howner, List.append_assoc],
    by rw [hface', hface, List.foldl_append]⟩

end Heeds

/-- Sessions that are not live stay so. -/
def Ages (s s' : Scene σ (List Order)) : Prop :=
  ∀ n, n ≤ s.lastSeq → s.live ≠ some n → n ≤ s'.lastSeq ∧ s'.live ≠ some n

theorem Heeds.ages (h : s.Heeds s') : s.Ages s' := by
  intro n hn hlive
  obtain ⟨orders, -, hface⟩ := h
  have hkept := s.face.foldl_obey_live hn hlive orders
  rw [← hface] at hkept
  exact hkept

theorem Ages.trans (h : s.Ages s') (h' : s'.Ages s'') : s.Ages s'' := by
  intro n hn hlive
  obtain ⟨hn', hlive'⟩ := h n hn hlive
  exact h' n hn' hlive'

theorem Ages.of_live (hlastSeq : s'.lastSeq = s.lastSeq)
    (hlive : s'.live = none ∨ s'.live = s.live) : s.Ages s' := by
  intro n hn hnot
  refine ⟨hlastSeq ▸ hn, ?_⟩
  rcases hlive with hnone | hsame
  · simp [hnone]
  · rw [hsame]
    exact hnot

/-- In a stretch of its turn a session that is not live leaves to orders what is shown. -/
structure Yields (n : Nat) (s s' : Scene σ (List Order)) : Prop where
  heeds : n ≤ s.lastSeq → s.live ≠ some n → s.Heeds s'
  ages : s.Ages s'

theorem Heeds.yields (h : s.Heeds s') : s.Yields n s' :=
  ⟨fun _ _ => h, h.ages⟩

theorem Yields.of_live (hlive : s.live = some n) (hages : s.Ages s') : s.Yields n s' :=
  ⟨fun _ hnot => absurd hlive hnot, hages⟩

theorem Yields.trans (h : s.Yields n s') (h' : s'.Yields n s'') : s.Yields n s'' := by
  refine ⟨fun hn hlive => ?_, h.ages.trans h'.ages⟩
  obtain ⟨hn', hlive'⟩ := h.ages n hn hlive
  exact (h.heeds hn hlive).trans (h'.heeds hn' hlive')

/-! ## Sessions and the orders since they began -/

/-- The orders given since the one that began a session, which is the schedule with its number. -/
def Since (s : Scene σ (List Order)) (x : Session) (after : List Order) : Prop :=
  ∃ before, s.owner = before ++ .schedule x.text :: after ∧
    before.countP (·.isSchedule) + 1 = x.seq

/-- The journal accounts for the sessions: each was begun by an entry of it, and none was given up
without a later entry, or ended unsettled without having been given up or crashed. -/
structure Entered (s : Scene σ (List Order)) : Prop where
  counted : s.lastSeq = s.owner.countP (·.isSchedule)
  since : ∀ x ∈ s.sessions, ∃ after, s.Since x after ∧ (x.cancelled = true → after ≠ [])
  discarded : ∀ x ∈ s.sessions, x.progress = .ended .cancelled →
    x.cancelled = true ∨ s.toRenderer.Crashed (s.renderId x.seq)

namespace Entered

theorem frame (h : s.Entered) (howner : s'.owner = s.owner)
    (hinstance : s'.instanceId = s.instanceId) (hlastSeq : s'.lastSeq = s.lastSeq)
    (hsessions : s'.sessions = s.sessions) (hwithin : s.toRenderer.Within s'.toRenderer) :
    s'.Entered := by
  refine ⟨by rw [hlastSeq, howner, h.counted], ?_, ?_⟩ <;> rw [hsessions]
  · unfold Since
    rw [howner]
    exact h.since
  · intro x hx hended
    rw [renderId, hinstance]
    exact (h.discarded x hx hended).imp_right (·.mono hwithin)

theorem update (h : s.Entered) {f : Session → Session} (hseq : ∀ x, (f x).seq = x.seq)
    (htext : ∀ x, (f x).text = x.text) (hcancelled : ∀ x, (f x).cancelled = x.cancelled)
    (hdiscarded : ∀ x ∈ s.sessions, x.seq = seq → (f x).progress = .ended .cancelled →
      x.cancelled = true ∨ s.toRenderer.Crashed (s.renderId seq)) :
    (s.update seq f).Entered := by
  refine ⟨h.counted, ?_, ?_⟩ <;> intro y hy <;> obtain ⟨x, hx, rfl⟩ := mem_update.mp hy <;> split
  · unfold Since
    rw [hseq, htext, hcancelled]
    exact h.since x hx
  · exact h.since x hx
  · next heq =>
    rw [hcancelled, hseq, heq]
    exact hdiscarded x hx heq
  · exact h.discarded x hx

theorem setProgress (h : s.Entered) {progress : Progress}
    (hdiscarded : progress = .ended .cancelled → ∀ x ∈ s.sessions, x.seq = seq →
      x.cancelled = true ∨ s.toRenderer.Crashed (s.renderId seq)) :
    (s.setProgress seq progress).Entered :=
  h.update (fun _ => rfl) (fun _ => rfl) (fun _ => rfl) fun x hx heq hended =>
    hdiscarded hended x hx heq

theorem setAbandoned (h : s.Entered) (seq : Nat) (host : Option HostId) :
    (s.update seq fun x => { x with abandoned := host }).Entered :=
  h.update (fun _ => rfl) (fun _ => rfl) (fun _ => rfl) fun x hx heq hended =>
    heq ▸ h.discarded x hx hended

theorem settle (h : s.Entered) (seq : Nat) (outcome : Outcome) :
    (s.settle seq outcome).Entered := by
  have hshown : Entered { s with
      live := none, status := ⟨some (s.renderId seq), outcome.phase, outcome.message?⟩ } :=
    h.frame rfl rfl rfl rfl (.refl _)
  exact hshown.setProgress fun hended => by cases hended

theorem discard (h : s.Entered)
    (hcancelled : ∀ x ∈ s.sessions, x.seq = seq → x.cancelled = true) :
    (s.discard seq).Entered := by
  have hswept : ((s.sweep (s.renderId seq).owns).1.report
      (.staleDiscarded (s.renderId seq).text (s.sweep (s.renderId seq).owns).2)).Entered :=
    h.frame rfl rfl rfl rfl (.refl _)
  exact hswept.setProgress fun _ x hx heq => .inl (hcancelled x hx heq)

/-- Showing the result of the live session ends it unsettled only if the session crashed. -/
theorem showResult (h : s.Entered) (hlive : s.live = some seq) {result : RenderResult}
    (hcrashed : result = .crashed → s.toRenderer.Crashed (s.renderId seq)) :
    (s.showResult seq result).Entered := by
  have hisLive : s.isLive seq = true := by simp [isLive, hlive]
  cases result with
  | crashed => exact h.setProgress fun _ x _ _ => .inr (hcrashed rfl)
  | artifact markup =>
    simp only [Scene.showResult, hisLive, ↓reduceIte]
    refine settle (h.frame ?_ ?_ ?_ ?_ ?_) seq .rendered
    case refine_5 => exact .refl _
    all_goals rfl
  | failed message =>
    simp only [Scene.showResult, hisLive, ↓reduceIte]
    refine settle (h.frame ?_ ?_ ?_ ?_ ?_) seq (.renderError message)
    case refine_5 => exact .refl _
    all_goals rfl

theorem enter (h : s.Entered) (order : Order) : (order.enter s).Entered := by
  -- since a session from before there is now this order too, so that it may have been given up
  have hold : ∀ x ∈ s.sessions.map (·.giveUp s.live),
      ∃ after, (order.enter s).Since x after ∧ (x.cancelled = true → after ≠ []) := by
    intro x hx
    obtain ⟨y, hy, rfl⟩ := List.mem_map.mp hx
    obtain ⟨after, ⟨before, howner, hcount⟩, -⟩ := h.since y hy
    refine ⟨after ++ [order], ⟨before, ?_, ?_⟩, fun _ => by simp⟩
    · rw [Session.giveUp_text, Order.enter, howner, List.append_assoc, List.cons_append]
    · rw [Session.giveUp_seq, hcount]
  have hdiscarded : ∀ x ∈ s.sessions.map (·.giveUp s.live), x.progress = .ended .cancelled →
      x.cancelled = true ∨ (order.enter s).toRenderer.Crashed ((order.enter s).renderId x.seq) := by
    intro x hx hended
    obtain ⟨y, hy, rfl⟩ := List.mem_map.mp hx
    rw [Session.giveUp_progress] at hended
    refine (h.discarded y hy hended).imp Session.cancelled_giveUp ?_
    rw [renderId, Session.giveUp_seq]
    change _ → (order.obey s).toRenderer.Crashed ((order.obey s).instanceId.renderId y.seq)
    rw [order.obey_toRenderer, order.obey_instanceId]
    exact id
  cases order with
  | schedule text =>
    have hsessions : (Order.enter (.schedule text) s).sessions =
        s.sessions.map (·.giveUp s.live) ++
          if Text.isBlankText text then [] else [{ seq := s.lastSeq + 1, text }] := by
      simp only [Order.enter, Order.obey, schedule_toSchedule]
    refine ⟨?_, ?_, ?_⟩
    · simp only [Order.enter, Order.obey, schedule_toSchedule, List.countP_append, h.counted]
      rfl
    · rw [hsessions]
      refine List.forall_mem_append.mpr ⟨hold, fun x hx => ?_⟩
      split at hx
      · cases hx
      · cases List.mem_singleton.mp hx
        exact ⟨[], ⟨s.owner, rfl, by rw [← h.counted]⟩, fun hgiven => by cases hgiven⟩
    · rw [hsessions]
      refine List.forall_mem_append.mpr ⟨hdiscarded, fun x hx hended => ?_⟩
      split at hx
      · cases hx
      · cases List.mem_singleton.mp hx
        cases hended
  | teardown =>
    have hsessions : (Order.enter .teardown s).sessions = s.sessions.map (·.giveUp s.live) := by
      simp only [Order.enter, Order.obey, teardown_toSchedule]
    refine ⟨?_, ?_, ?_⟩
    · simp only [Order.enter, Order.obey, teardown_toSchedule, List.countP_append, h.counted]
      rfl
    · rw [hsessions]
      exact hold
    · rw [hsessions]
      exact hdiscarded

end Entered

/-- A sound scene whose journal accounts for the sessions. -/
structure Ordered (s : Scene σ (List Order)) : Prop where
  sound : s.Sound
  entered : s.Entered

/-! ## The course of a call -/

/-- What the course of a call may lead to: orders are carried out, nodes are inserted, and the
sessions are where they were. -/
structure Passes (s s' : Scene σ (List Order)) : Prop where
  ordered : s.Ordered → s'.Ordered
  heeds : s.Heeds s'
  grows : s.toBench.Grows s'.toBench
  instanceId : s'.instanceId = s.instanceId
  sessions : ∀ x ∈ s.sessions, ∃ y ∈ s'.sessions,
    y.seq = x.seq ∧ y.text = x.text ∧ y.progress = x.progress ∧ y.abandoned = x.abandoned

namespace Passes

theorem frame (hbooks : s'.toSchedule = s.toSchedule) (howner : s'.owner = s.owner)
    (hcontainer : s'.surface.container = s.surface.container)
    (hgrows : s.toBench.Grows s'.toBench) : s.Passes s' where
  ordered h := by
    refine ⟨h.sound.frame hbooks hcontainer hgrows, h.entered.frame howner ?_ ?_ ?_ hgrows.within⟩
    all_goals rw [hbooks]
  heeds := .of_eq howner (by rw [face, face, hbooks, hcontainer])
  grows := hgrows
  instanceId := by rw [hbooks]
  sessions x hx := ⟨x, by rw [hbooks]; exact hx, rfl, rfl, rfl, rfl⟩

theorem refl (s : Scene σ (List Order)) : s.Passes s :=
  frame rfl rfl rfl (.refl _)

theorem trans {s'' : Scene σ (List Order)} (h : s.Passes s') (h' : s'.Passes s'') :
    s.Passes s'' where
  ordered hs := h'.ordered (h.ordered hs)
  heeds := h.heeds.trans h'.heeds
  grows := h.grows.trans h'.grows
  instanceId := h'.instanceId.trans h.instanceId
  sessions x hx := by
    obtain ⟨y, hy, hseq, htext, hprogress, hleft⟩ := h.sessions x hx
    obtain ⟨z, hz, hseq', htext', hprogress', hleft'⟩ := h'.sessions y hy
    exact ⟨z, hz, hseq'.trans hseq, htext'.trans htext, hprogress'.trans hprogress,
      hleft'.trans hleft⟩

theorem enter (order : Order) (s : Scene σ (List Order)) : s.Passes (order.enter s) where
  ordered h := ⟨(h.sound.obey order).frame rfl rfl (.of_eq rfl rfl rfl), h.entered.enter order⟩
  heeds := .enter order s
  grows := by
    have hrenderer : (order.enter s).toRenderer = s.toRenderer := order.obey_toRenderer s
    have hsurface : (order.enter s).surface =
        s.surface.clearContainer.remove s.instanceId.covers := order.obey_surface s
    exact .of_eq (by rw [hrenderer]) (by rw [hrenderer]) (by rw [hsurface]; rfl)
  instanceId := order.obey_instanceId s
  sessions x hx := by
    have hmem : x.giveUp s.live ∈ (order.enter s).sessions := by
      have hgiven := List.mem_map_of_mem (f := (·.giveUp s.live)) hx
      cases order with
      | schedule text =>
        simp only [Order.enter, Order.obey, schedule_toSchedule]
        exact List.mem_append_left _ hgiven
      | teardown =>
        simp only [Order.enter, Order.obey, teardown_toSchedule]
        exact hgiven
    exact ⟨_, hmem, by simp, by simp, by simp, by simp⟩

theorem perform (deed : Deed Order) (s : Scene σ (List Order)) :
    s.Passes (s.perform Order.enter deed) := by
  cases deed with
  | insert parent node =>
    exact frame rfl rfl (s.surface.insert_container parent node)
      (.of_eq rfl rfl (s.surface.insert_attached parent node))
  | report event => exact frame rfl rfl rfl (.of_eq rfl rfl rfl)
  | request order => exact enter order s

theorem deeds {α : Type} (response : Response (Bench σ) Order α) (s : Scene σ (List Order)) :
    Passes { s with toBench := response.state } (s.absorb Order.enter response) := by
  have hdeeds : ∀ (deeds : List (Deed Order)) (t : Scene σ (List Order)),
      t.Passes (deeds.foldl (Scene.perform Order.enter) t) := by
    intro deeds
    induction deeds with
    | nil => exact refl
    | cons deed deeds ih => exact fun t => (perform deed t).trans (ih _)
  exact hdeeds response.deeds _

/-- Taking over a bench on which the record has grown, with all that was done meanwhile. -/
theorem absorb {α : Type} {response : Response (Bench σ) Order α}
    (hcontainer : response.state.surface.container = s.surface.container)
    (hgrows : s.toBench.Grows response.state) : s.Passes (s.absorb Order.enter response) := by
  have hbench : s.Passes { s with toBench := response.state } := frame rfl rfl hcontainer hgrows
  exact hbench.trans (deeds response s)

theorem renderId_eq (h : s.Passes s') (seq : Nat) : s'.renderId seq = s.renderId seq := by
  rw [renderId, renderId, h.instanceId]

end Passes

end Scene

end DiagramView
