import DiagramView.Proofs.Hosts

/-!
# Turns and hosts

A turn of any task keeps a scene housed, also when the engine gives orders in the course of the
calls that are made in it (`Scene.Housed.resume`). In the midst of a turn the task that runs may
have the host of its call in hand (`Scene.Busy`); it puts it down when it begins to wait, leaves it
to a sweep when its session was given up, and detaches it when the call is over.
-/

namespace DiagramView

variable {σ ο : Type}

namespace Scene

variable {s s' s'' : Scene σ ο} {x : Session} {foreign : HostId → Prop}
  {inHand closing : Option HostId} {host : HostId} {seq : Nat} {e : Engine σ Order}

/-! ## What is left alone -/

/-- What a scheduler does to a page that it shares: nodes outside the instance stay, and no host
goes away but one of a call of its own. -/
structure Tends (s s' : Scene σ ο) : Prop where
  instanceId : s'.instanceId = s.instanceId
  grows : s.toBench.Grows s'.toBench
  spares : s.surface.Spares (fun id => !s.instanceId.covers id) s'.surface
  detached : ∀ host ∈ s.surface.hostIds, host ∉ s'.surface.hostIds →
    ∃ call ∈ s'.calls, call.host? = some host

namespace Tends

theorem of_surface (hinstance : s'.instanceId = s.instanceId)
    (hrecord : s'.calls = s.calls ∧ s'.answers = s.answers)
    (hspares : s.surface.Spares (fun id => !s.instanceId.covers id) s'.surface)
    (hattached : s'.surface.attached = s.surface.attached)
    (hhosts : s'.surface.hostIds = s.surface.hostIds) : s.Tends s' :=
  ⟨hinstance, .of_eq hrecord.1 hrecord.2 hattached, hspares,
    fun _ hhost hgone => absurd (hhosts ▸ hhost) hgone⟩

/-- Nothing has changed on the page. -/
theorem of_eq (hinstance : s'.instanceId = s.instanceId) (hgrows : s.toBench.Grows s'.toBench)
    (hsurface : s'.surface = s.surface) : s.Tends s' where
  instanceId := hinstance
  grows := hgrows
  spares := by rw [hsurface]; exact .refl _ _
  detached := fun host hhost hgone => absurd (by rw [hsurface]; exact hhost) hgone

theorem trans (h : s.Tends s') (h' : s'.Tends s'') : s.Tends s'' where
  instanceId := h'.instanceId.trans h.instanceId
  grows := h.grows.trans h'.grows
  spares := by
    have hspares := h'.spares
    rw [h.instanceId] at hspares
    exact h.spares.trans hspares
  detached := by
    intro host hhost hgone
    by_cases hthere : host ∈ s'.surface.hostIds
    · exact h'.detached host hthere hgone
    · obtain ⟨call, hcall, hcalled⟩ := h.detached host hhost hthere
      exact ⟨call, h'.grows.within.calls hcall, hcalled⟩

/-- A sweep of the instance's own nodes. -/
theorem remove {q : String → Bool} (hq : ∀ id, q id = true → s.instanceId.covers id = true)
    {surface : Surface} (hbody : surface.body = s.surface.body)
    (hhosts : surface.hosts = s.surface.hosts) (hattached : surface.attached = s.surface.attached) :
    s.Tends { s with surface := surface.remove q } := by
  refine .of_surface rfl ⟨rfl, rfl⟩ ?_ hattached ?_
  · refine (Surface.Spares.of_eq hbody hhosts hattached).trans (.remove ?_ surface)
    intro id hid
    rw [hq id hid]
    rfl
  · rw [Surface.hostIds_remove, Surface.hostIds, hhosts]
    rfl

end Tends

/-- What is as it was when an engine has done what it does in the course of a call. -/
structure Retains (s s' : Scene σ ο) : Prop where
  instanceId : s'.instanceId = s.instanceId
  renderer : s'.toRenderer = s.toRenderer
  kept : ∀ x ∈ s.sessions, ∃ y ∈ s'.sessions, y.seq = x.seq ∧ y.progress = x.progress ∧
    y.abandoned = x.abandoned
  came : ∀ y ∈ s'.sessions, y.Engaged → ∃ x ∈ s.sessions, x.seq = y.seq ∧ x.Engaged ∧
    (x.cancelled = true → y.cancelled = true)

namespace Retains

theorem of_eq (hinstance : s'.instanceId = s.instanceId) (hrenderer : s'.toRenderer = s.toRenderer)
    (hsessions : s'.sessions = s.sessions) : s.Retains s' where
  instanceId := hinstance
  renderer := hrenderer
  kept := fun x hx => ⟨x, by rw [hsessions]; exact hx, rfl, rfl, rfl⟩
  came := fun y hy hengaged => ⟨y, by rw [← hsessions]; exact hy, rfl, hengaged, id⟩

theorem trans (h : s.Retains s') (h' : s'.Retains s'') : s.Retains s'' where
  instanceId := h'.instanceId.trans h.instanceId
  renderer := h'.renderer.trans h.renderer
  kept := by
    intro x hx
    obtain ⟨y, hy, hseq, hprogress, habandoned⟩ := h.kept x hx
    obtain ⟨z, hz, hseq', hprogress', habandoned'⟩ := h'.kept y hy
    exact ⟨z, hz, hseq'.trans hseq, hprogress'.trans hprogress, habandoned'.trans habandoned⟩
  came := by
    intro z hz hengaged
    obtain ⟨y, hy, hseq', hengaged', hcancelled'⟩ := h'.came z hz hengaged
    obtain ⟨x, hx, hseq, hengaged, hcancelled⟩ := h.came y hy hengaged'
    exact ⟨x, hx, hseq.trans hseq', hengaged, fun hgiven => hcancelled' (hcancelled hgiven)⟩

theorem obey (order : Order) (s : Scene σ ο) : s.Retains (order.obey s) := by
  obtain ⟨added, hsessions, -, -, hnew⟩ := obey_sessions order s
  refine ⟨Order.obey_instanceId order s, Order.obey_toRenderer order s, ?_, ?_⟩
  · intro x hx
    refine ⟨x.giveUp s.live, ?_, by simp, by simp, by simp⟩
    rw [hsessions]
    exact List.mem_append_left _ (List.mem_map_of_mem hx)
  · intro y hy hengaged
    rw [hsessions] at hy
    rcases List.mem_append.mp hy with hold | hadded
    · obtain ⟨x, hx, rfl⟩ := List.mem_map.mp hold
      refine ⟨x, hx, by simp, ?_, Session.cancelled_giveUp⟩
      rw [Session.Engaged, Session.giveUp_progress] at hengaged
      exact hengaged
    · rw [Session.Engaged, (hnew y hadded).2.2.1] at hengaged
      rcases hengaged with hrunning | ⟨host, hwaiting⟩
      · cases hrunning
      · cases hwaiting

end Retains

theorem Tends.obey (order : Order) (s : Scene σ ο) : s.Tends (order.obey s) := by
  have hswept : s.Tends { s with surface := s.surface.clearContainer.remove s.instanceId.covers } :=
    .remove (fun _ => id) rfl rfl rfl
  have hrenderer := Order.obey_toRenderer order s
  have hsurface := Order.obey_surface order s
  refine .of_surface (Order.obey_instanceId order s) (by rw [hrenderer]; exact ⟨rfl, rfl⟩) ?_ ?_ ?_
  · rw [hsurface]
    exact hswept.spares
  · rw [hsurface]
    rfl
  · rw [hsurface, Surface.hostIds_remove]
    rfl

/-- Whatever an engine does in the course of a call keeps a scene housed. -/
theorem Housed.deeds (h : s.Housed foreign inHand closing) (deeds : List (Deed Order)) :
    (deeds.foldl (perform Order.obey) s).Housed foreign inHand closing ∧
      s.Retains (deeds.foldl (perform Order.obey) s) ∧
      s.Tends (deeds.foldl (perform Order.obey) s) := by
  induction deeds generalizing s with
  | nil => exact ⟨h, .of_eq rfl rfl rfl, .of_eq rfl (.refl _) rfl⟩
  | cons deed deeds ih =>
    have hdeed : (perform Order.obey s deed).Housed foreign inHand closing ∧
        s.Retains (perform Order.obey s deed) ∧ s.Tends (perform Order.obey s deed) := by
      cases deed with
      | insert parent node =>
        have hhosts := s.surface.hostIds_insert parent node
        have hattached := s.surface.insert_attached parent node
        exact ⟨h.frame_of_eq rfl ⟨rfl, rfl⟩ hhosts hattached, .of_eq rfl rfl rfl,
          .of_surface rfl ⟨rfl, rfl⟩ (.insert _ _ parent node) hattached hhosts⟩
      | report event =>
        exact ⟨h.frame_of_eq rfl ⟨rfl, rfl⟩ rfl rfl, .of_eq rfl rfl rfl,
          .of_eq rfl (.of_eq rfl rfl rfl) rfl⟩
      | request order => exact ⟨h.obey order, .obey order s, .obey order s⟩
    obtain ⟨hhoused, hretains, htends⟩ := ih hdeed.1
    exact ⟨hhoused, hdeed.2.1.trans hretains, hdeed.2.2.trans htends⟩

/-! ## Records in a turn -/

namespace Housed

theorem withStatus (h : s.Housed foreign inHand closing) (status : Status) :
    Housed foreign inHand closing { s with status } :=
  ⟨h.ascending, h.numbered, h.left, h.heeded, h.begun, h.free, h.pending, h.answered, h.hosts,
    h.lodged, h.nodup, h.known, h.apart⟩

theorem setPhase (h : s.Housed foreign inHand closing) (seq : Nat) (phase : Phase) :
    (s.setPhase seq phase).Housed foreign inHand closing := by
  unfold Scene.setPhase
  split
  · exact h.withStatus _
  · exact h

/-- No session need be live when nobody is engaged who was not given up. -/
theorem withoutLive (h : s.Housed foreign inHand closing)
    (hgiven : ∀ x ∈ s.sessions, x.Engaged → x.cancelled = true) :
    Housed foreign inHand closing { s with live := none } :=
  ⟨h.ascending, h.numbered, h.left, fun x hx hengaged => .inl (hgiven x hx hengaged), h.begun,
    h.free, h.pending, h.answered, h.hosts, h.lodged, h.nodup, h.known, h.apart⟩

/-- A session that awaits no call may come further without one. -/
theorem setProgress (h : s.Housed foreign inHand closing) (hx : x ∈ s.sessions)
    (hopen : x.end? = none) (hidle : ∀ host, x.progress ≠ .waiting host) {progress : Progress}
    (hnew : ∀ host, progress ≠ .waiting host)
    (hrunning : progress = .running → x.cancelled = true ∨ s.live = some x.seq) :
    (s.setProgress x.seq progress).Housed foreign inHand closing := by
  have hleft := h.not_abandoned hx hopen
  have hnone : ∀ host, ¬x.Holds host := Session.not_holds hidle hleft
  have hnone' : ∀ host, ¬({ x with progress } : Session).Holds host :=
    Session.not_holds hnew hleft
  refine h.update hx (fun _ => rfl) (fun habandoned => absurd hleft habandoned) ?_ ?_ ?_ ?_
  · rintro (hrun | ⟨host, hwaiting⟩)
    · exact hrunning hrun
    · exact absurd hwaiting (hnew host)
  · exact fun host hhost => absurd hhost (hnone' host)
  · exact fun host hhand => ⟨hnone' host, .inl hhand⟩
  · exact fun host _ => or_congr_right (iff_of_false (hnone' host) (hnone host))

/-- A session that awaits a call has its host in hand when it has its turn. -/
theorem pickUp (h : s.Housed foreign none closing) (hx : x ∈ s.sessions)
    (hwaiting : x.progress = .waiting host) :
    (s.setProgress x.seq .running).Housed foreign (some host) closing := by
  have hleft := h.not_abandoned hx (by simp [Session.end?, hwaiting])
  have hnone : ∀ other, ¬({ x with progress := .running } : Session).Holds other :=
    Session.not_holds (fun _ hwaiting => by cases hwaiting) hleft
  refine h.update hx (fun _ => rfl) (fun habandoned => absurd hleft habandoned) ?_ ?_ ?_ ?_
  · exact fun _ => h.heeded x hx (.inr ⟨host, hwaiting⟩)
  · exact fun other hhost => absurd hhost (hnone other)
  · intro other hhand
    rw [← Option.some.inj hhand]
    exact ⟨hnone host, .inr (.inl hwaiting)⟩
  · intro other _
    constructor
    · rintro (hhand | hhost)
      · rw [← Option.some.inj hhand]
        exact .inr (.inl hwaiting)
      · exact absurd hhost (hnone other)
    · rintro (hhand | hwait | habandoned)
      · cases hhand
      · rw [hwaiting] at hwait
        cases hwait
        exact .inl rfl
      · rw [hleft] at habandoned
        cases habandoned

/-- A task puts down what it has in hand: its session has it then, waiting or in the care of a
sweep. -/
theorem putDown (h : s.Housed foreign (some host) closing) (hx : x ∈ s.sessions)
    (hrunning : x.progress = .running) (hcalled : s.toRenderer.CalledFor (s.renderId x.seq) host)
    {f : Session → Session} (hseq : ∀ y, (f y).seq = y.seq)
    (hover : (f x).abandoned ≠ none → (f x).end? ≠ none)
    (hheeded : (f x).Engaged → (f x).cancelled = true ∨ s.live = some x.seq)
    (hholds : ∀ other, (f x).Holds other ↔ host = other) :
    (s.update x.seq f).Housed foreign none closing := by
  have hleft := h.not_abandoned hx (by simp [Session.end?, hrunning])
  refine h.update hx hseq hover hheeded ?_ (fun other hnone => by cases hnone) ?_
  · intro other hhost
    rw [← (hholds other).mp hhost]
    exact hcalled
  · intro other _
    rw [hholds]
    constructor
    · rintro (hnone | rfl)
      · cases hnone
      · exact .inl rfl
    · rintro (hhand | hwaiting | habandoned)
      · exact .inr (Option.some.inj hhand)
      · rw [hrunning] at hwaiting
        cases hwaiting
      · rw [hleft] at habandoned
        cases habandoned

end Housed

/-! ## The midst of a turn -/

/-- The task of a session has its turn, and may have the host of the session's call in hand. -/
structure Busy (foreign : HostId → Prop) (seq : Nat) (inHand closing : Option HostId)
    (s : Scene σ ο) : Prop where
  housed : s.Housed foreign inHand closing
  running : ∃ x ∈ s.sessions, x.seq = seq ∧ x.progress = .running
  called : ∀ host, inHand = some host → s.toRenderer.CalledFor (s.renderId seq) host

theorem Tends.setProgress (s : Scene σ ο) (seq : Nat) (progress : Progress) :
    s.Tends (s.setProgress seq progress) :=
  .of_eq rfl (.of_eq rfl rfl rfl) rfl

theorem Tends.discard (s : Scene σ ο) (seq : Nat) : s.Tends (s.discard seq) := by
  have hswept : s.Tends { s with surface := s.surface.remove (s.renderId seq).owns } :=
    .remove (fun _ => InstanceId.covers_of_owns) rfl rfl rfl
  exact hswept.trans (.of_eq rfl (.of_eq rfl rfl rfl) rfl)

/-- A session that awaits no call may end with its own nodes swept up. -/
theorem Housed.discard (h : s.Housed foreign inHand closing) (hx : x ∈ s.sessions)
    (hopen : x.end? = none) (hidle : ∀ host, x.progress ≠ .waiting host) :
    (s.discard x.seq).Housed foreign inHand closing := by
  have hswept : ((s.sweep (s.renderId x.seq).owns).1.report
      (.staleDiscarded (s.renderId x.seq).text
        (s.sweep (s.renderId x.seq).owns).2)).Housed foreign inHand closing :=
    h.frame_of_eq rfl ⟨rfl, rfl⟩ (Surface.hostIds_remove _ _) rfl
  exact hswept.setProgress hx hopen hidle (by simp) (by simp)

namespace Busy

theorem withHousing (h : Busy foreign seq inHand closing s) {inHand' closing' : Option HostId}
    (hhoused : s'.Housed foreign inHand' closing') (hretains : s.Retains s')
    (hsub : ∀ host, inHand' = some host → inHand = some host) :
    Busy foreign seq inHand' closing' s' := by
  obtain ⟨x, hx, hseq, hrunning⟩ := h.running
  obtain ⟨y, hy, hseq', hprogress, -⟩ := hretains.kept x hx
  refine ⟨hhoused, ⟨y, hy, hseq'.trans hseq, hprogress.trans hrunning⟩, ?_⟩
  intro host hhand
  rw [renderId, hretains.instanceId, hretains.renderer]
  exact h.called host (hsub host hhand)

theorem setPhase (h : Busy foreign seq inHand closing s) (phase : Phase) :
    Busy foreign seq inHand closing (s.setPhase seq phase) ∧ s.Tends (s.setPhase seq phase) := by
  have hhoused := h.housed.setPhase seq phase
  unfold Scene.setPhase at hhoused ⊢
  split
  · next hlive =>
    rw [if_pos hlive] at hhoused
    exact ⟨h.withHousing hhoused (.of_eq rfl rfl rfl) fun _ => id,
      .of_eq rfl (.of_eq rfl rfl rfl) rfl⟩
  · exact ⟨h, .of_eq rfl (.refl _) rfl⟩

theorem setProgress (h : Busy foreign seq none closing s) (how : SessionEnd) :
    (s.setProgress seq (.ended how)).Housed foreign none closing := by
  obtain ⟨x, hx, rfl, hrunning⟩ := h.running
  exact h.housed.setProgress hx (by simp [Session.end?, hrunning]) (by simp [hrunning]) (by simp)
    (by simp)

theorem discard (h : Busy foreign seq none closing s) :
    (s.discard seq).Housed foreign none closing ∧ s.Tends (s.discard seq) := by
  obtain ⟨x, hx, rfl, hrunning⟩ := h.running
  exact ⟨h.housed.discard hx (by simp [Session.end?, hrunning]) (by simp [hrunning]),
    .discard s x.seq⟩

/-- A session may settle when nobody else is engaged who was not given up, with anything done to the
page that a scheduler may do. -/
theorem settle (h : Busy foreign seq none closing s)
    (hothers : ∀ y ∈ s.sessions, y.seq ≠ seq → y.Engaged → y.cancelled = true)
    (hbooks : s'.toSchedule = s.toSchedule) (hrenderer : s'.toRenderer = s.toRenderer)
    (htends : s.Tends s') (hhosts : s'.surface.hostIds = s.surface.hostIds)
    (hattached : s'.surface.attached = s.surface.attached) (outcome : Outcome) :
    (s'.settle seq outcome).Housed foreign none closing ∧ s.Tends (s'.settle seq outcome) := by
  have hrecord : s'.calls = s.calls ∧ s'.answers = s.answers := by
    rw [hrenderer]
    exact ⟨rfl, rfl⟩
  have hhoused := h.housed.frame_of_eq hbooks hrecord hhosts hattached
  have hbusy : Busy foreign seq none closing s' :=
    h.withHousing hhoused (.of_eq (by rw [hbooks]) hrenderer (by rw [hbooks])) fun _ => id
  have hended := hbusy.setProgress (.settled outcome)
  refine ⟨(hended.withoutLive ?_).withStatus
    ⟨some (s'.renderId seq), outcome.phase, outcome.message?⟩,
    htends.trans (.of_eq rfl (.of_eq rfl rfl rfl) rfl)⟩
  intro y hy hengaged
  obtain ⟨z, hz, rfl⟩ := mem_update.mp hy
  split at hengaged
  · rcases hengaged with hrunning | ⟨host, hwaiting⟩
    · cases hrunning
    · cases hwaiting
  · next hne =>
    rw [if_neg hne]
    rw [hbooks] at hz
    exact hothers z hz hne hengaged

/-- Whoever is engaged beside the live session was given up. -/
theorem others_of_live (h : Busy foreign seq inHand closing s) (hlive : s.live = some seq) :
    ∀ y ∈ s.sessions, y.seq ≠ seq → y.Engaged → y.cancelled = true := by
  intro y hy hne hengaged
  rcases h.housed.heeded y hy hengaged with hcancelled | hlive'
  · exact hcancelled
  · exact absurd (Option.some.inj (hlive'.symm.trans hlive)) hne

theorem showResult (h : Busy foreign seq none closing s) (result : RenderResult) :
    (s.showResult seq result).Housed foreign none closing ∧ s.Tends (s.showResult seq result) := by
  cases result with
  | crashed => exact ⟨h.setProgress .cancelled, .setProgress s seq _⟩
  | artifact markup =>
    simp only [Scene.showResult]
    split
    · next hlive =>
      have hswept : s.Tends { s with surface := (s.surface.clearContainer.mount
          ⟨(s.renderId seq).text, markup⟩).remove (s.renderId seq).above } := by
        refine .remove (fun id hid => ?_) rfl rfl rfl
        exact InstanceId.covers_of_owns (Bool.or_eq_true_iff.mpr (.inr hid))
      refine h.settle (h.others_of_live (eq_of_beq hlive)) ?_ ?_ ?_ ?_ ?_ .rendered
      · rfl
      · rfl
      · exact hswept.trans (.of_eq rfl (.of_eq rfl rfl rfl) rfl)
      · exact Surface.hostIds_remove _ _
      · rfl
    · exact h.discard
  | failed message =>
    simp only [Scene.showResult]
    split
    · next hlive =>
      have hcleared : s.Tends s.clearContainer :=
        .of_surface rfl ⟨rfl, rfl⟩ (.of_eq rfl rfl rfl) rfl rfl
      refine h.settle (h.others_of_live (eq_of_beq hlive)) ?_ ?_ ?_ ?_ ?_ (.renderError message)
      · rfl
      · rfl
      · exact hcleared.trans (.of_eq rfl (.of_eq rfl rfl rfl) rfl)
      · rfl
      · rfl
    · exact h.discard

/-! ## Turns -/

/-- The state after a call, with all that the engine did in its course. -/
theorem absorb {α : Type} {response : Response (Bench σ) Order α}
    (h : Busy foreign seq inHand closing (s.onBench response.state)) :
    Busy foreign seq inHand closing (s.absorb Order.obey response) ∧
      (s.onBench response.state).Retains (s.absorb Order.obey response) ∧
      (s.onBench response.state).Tends (s.absorb Order.obey response) := by
  obtain ⟨hhoused, hretains, htends⟩ := h.housed.deeds response.deeds
  exact ⟨h.withHousing hhoused hretains fun _ => id, hretains, htends⟩

/-- The call that a task has in hand comes to its end. -/
theorem conclude (h : Busy foreign seq (some host) (some host) s) (answer : Except String String) :
    Busy foreign seq none none (s.onBench (s.toBench.conclude host answer).1) ∧
      s.Tends (s.onBench (s.toBench.conclude host answer).1) := by
  have hsurface := Bench.conclude_surface host answer s.toBench
  have hrenderer := Bench.conclude_toRenderer host answer s.toBench
  have hcalled := (h.called host rfl).host
  refine ⟨h.withHousing (h.housed.conclude (.inr rfl) (h.housed.free host rfl) hcalled answer)
    (.of_eq rfl hrenderer rfl) (fun other hnone => by cases hnone), rfl,
    Bench.conclude_grows host answer s.toBench, ?_, ?_⟩
  · exact .of_detachHost hsurface
  · exact Surface.own_of_detachHost hsurface (by rw [← hrenderer] at hcalled; exact hcalled)

/-- A session awaits the call that its task has in hand. -/
theorem await (h : Busy foreign seq (some host) none s) :
    (s.await e Order.obey seq host).Housed foreign none none ∧
      s.Tends (s.await e Order.obey seq host) := by
  obtain ⟨x, hx, hseq, hrunning⟩ := h.running
  have hcalled : s.toRenderer.CalledFor (s.renderId x.seq) host := hseq ▸ h.called host rfl
  have hcancelled : s.isCancelled seq = x.cancelled :=
    isCancelled_eq (hseq ▸ h.housed.session?_of_mem hx)
  have hleft := h.housed.not_abandoned hx (by simp [Session.end?, hrunning])
  unfold Scene.await
  rw [hcancelled]
  subst hseq
  cases hgiven : x.cancelled with
  | true =>
    -- the session leaves the call to its sweep
    simp only [↓reduceIte]
    have hput : (s.update x.seq fun y => { y with
        abandoned := some host, progress := .ended .cancelled }).Housed foreign none none := by
      refine h.housed.putDown hx hrunning hcalled (fun _ => rfl) (by simp [Session.end?]) ?_ ?_
      · rintro (hrun | ⟨other, hwaiting⟩)
        · cases hrun
        · cases hwaiting
      · intro other
        constructor
        · rintro (hwaiting | habandoned)
          · cases hwaiting
          · exact Option.some.inj habandoned
        · rintro rfl
          exact .inr rfl
    have htwice : (s.update x.seq fun y => { y with abandoned := some host }).setProgress x.seq
        (.ended .cancelled) = s.update x.seq fun y => { y with
          abandoned := some host, progress := .ended .cancelled } := update_update fun _ => rfl
    refine ⟨hput.frame_of_eq ?_ ⟨rfl, rfl⟩ (Surface.hostIds_remove _ _) rfl, ?_⟩
    · rw [← htwice]
      rfl
    · refine .trans ?_ (.discard _ x.seq)
      exact .of_eq rfl (.of_eq rfl rfl rfl) rfl
  | false =>
    simp only [Bool.false_eq_true, ↓reduceIte]
    cases hpoll : s.toBench.poll e host with
    | none =>
      refine ⟨h.housed.putDown hx hrunning hcalled (fun _ => rfl) (fun habandoned => ?_) ?_ ?_,
        .setProgress s x.seq _⟩
      · exact absurd hleft habandoned
      · exact fun _ => h.housed.heeded x hx (.inl hrunning)
      · intro other
        constructor
        · rintro (hwaiting | habandoned)
          · injection hwaiting
          · change x.abandoned = some other at habandoned
            rw [hleft] at habandoned
            cases habandoned
        · rintro rfl
          exact .inl rfl
    | some response =>
      obtain ⟨hsurface, hgrows, -⟩ := Bench.poll_eq_some hpoll
      have hpending : host ∈ s.toRenderer.pending :=
        (h.housed.pending host).mpr ⟨by simp, .inl rfl⟩
      have hanswered : Busy foreign x.seq (some host) (some host) (s.onBench response.state) := by
        refine ⟨h.housed.answer hpoll hpending, h.running, ?_⟩
        intro other hhand
        obtain ⟨text, phase, hcall⟩ := h.called other hhand
        exact ⟨text, phase, hgrows.within.calls hcall⟩
      obtain ⟨habsorbed, -, htends⟩ := hanswered.absorb
      obtain ⟨hconcluded, htends'⟩ := habsorbed.conclude response.answer
      obtain ⟨hhoused, htends''⟩ := hconcluded.showResult
        ((s.absorb Order.obey response).toBench.conclude host response.answer).2
      have hpolled : s.Tends (s.onBench response.state) := .of_eq rfl hgrows hsurface
      exact ⟨hhoused, hpolled.trans (htends.trans (htends'.trans htends''))⟩

/-- A session begins its call. -/
theorem beginRender (h : Busy foreign seq none none s) (text : String) :
    (s.beginRender e Order.obey seq text).Housed foreign none none ∧
      s.Tends (s.beginRender e Order.obey seq text) := by
  obtain ⟨hphase, htends⟩ := h.setPhase .rendering
  unfold Scene.beginRender
  dsimp only
  generalize s.setPhase seq .rendering = t at hphase htends ⊢
  have hopened : Busy foreign seq (some t.surface.nextHost) none
      (t.onBench (t.toBench.render e t.phase? (t.renderId seq) text).state) := by
    refine ⟨hphase.housed.render e t.phase? (t.renderId seq) text, hphase.running, ?_⟩
    intro host hhand
    rw [← Option.some.inj hhand]
    exact ⟨text, t.phase?, Bench.called_of_render e t.phase? (t.renderId seq) text t.toBench⟩
  have hbegun : t.Tends (t.onBench (t.toBench.render e t.phase? (t.renderId seq) text).state) := by
    have hsurface := Bench.render_surface e t.phase? (t.renderId seq) text t.toBench
    refine ⟨rfl, Bench.render_grows e _ _ text t.toBench, ?_, ?_⟩
    · change t.surface.Spares _ (t.toBench.render e t.phase? (t.renderId seq) text).state.surface
      rw [hsurface]
      exact .attachHost _ _
    · intro host hhost hgone
      refine absurd ?_ hgone
      change host ∈ (t.toBench.render e t.phase? (t.renderId seq) text).state.surface.hostIds
      rw [hsurface, Surface.hostIds_attachHost]
      exact List.mem_append_left _ hhost
  obtain ⟨habsorbed, -, htends'⟩ := hopened.absorb
  obtain ⟨hhoused, htends''⟩ := habsorbed.await (e := e)
  exact ⟨hhoused, htends.trans (hbegun.trans (htends'.trans htends''))⟩

/-- A session has its text validated. A text that is refused settles the session, whether or not it
is live by then. -/
theorem beginValidation (h : Busy foreign seq none none s) (hlive : s.live = some seq)
    (text : String) :
    (s.beginValidation e Order.obey seq text).Housed foreign none none ∧
      s.Tends (s.beginValidation e Order.obey seq text) := by
  have hothers := h.others_of_live hlive
  obtain ⟨hphase, htends⟩ := h.setPhase .validating
  have hsessions : (s.setPhase seq .validating).sessions = s.sessions := by
    unfold Scene.setPhase
    split <;> rfl
  rw [← hsessions] at hothers
  unfold Scene.beginValidation
  dsimp only
  generalize s.setPhase seq .validating = t at hphase htends hothers ⊢
  have hsurface := Bench.validate_surface e t.phase? text t.toBench
  have hgrows := Bench.validate_grows e t.phase? text t.toBench
  have hvalidated : Busy foreign seq none none
      (t.onBench (t.toBench.validate e t.phase? text).state) :=
    ⟨hphase.housed.validate e t.phase? text, hphase.running, fun host hnone => by cases hnone⟩
  obtain ⟨habsorbed, hretains, htends'⟩ := hvalidated.absorb
  have hasked : t.Tends (t.onBench (t.toBench.validate e t.phase? text).state) :=
    .of_eq rfl hgrows hsurface
  have hreturned : s.Tends (t.absorb Order.obey (t.toBench.validate e t.phase? text)) :=
    htends.trans (hasked.trans htends')
  have hothers' : ∀ y ∈ (t.absorb Order.obey (t.toBench.validate e t.phase? text)).sessions,
      y.seq ≠ seq → y.Engaged → y.cancelled = true := by
    intro y hy hne hengaged
    obtain ⟨x, hx, hseq, hengaged', hcancelled⟩ := hretains.came y hy hengaged
    exact hcancelled (hothers x hx (by rw [hseq]; exact hne) hengaged')
  split
  · next error _ =>
    generalize t.absorb Order.obey (t.toBench.validate e t.phase? text) = r
      at habsorbed hreturned hothers' ⊢
    have hrefused : (r.refuse seq error.message).Housed foreign none none ∧
        r.Tends (r.refuse seq error.message) := by
      have hcleared : r.Tends r.clearContainer :=
        .of_surface rfl ⟨rfl, rfl⟩ (.of_eq rfl rfl rfl) rfl rfl
      refine habsorbed.settle hothers' ?_ ?_ ?_ ?_ ?_ (.parseError error.message)
      · rfl
      · rfl
      · exact hcleared.trans (.of_eq rfl (.of_eq rfl rfl rfl) rfl)
      · rfl
      · rfl
    exact ⟨hrefused.1, hreturned.trans hrefused.2⟩
  · obtain ⟨hhoused, htends''⟩ := habsorbed.beginRender (e := e) text
    exact ⟨hhoused, hreturned.trans htends''⟩

end Busy

/-- A turn of a session's task keeps a scene housed. -/
theorem Housed.resumeSession (h : s.Housed foreign none none) (e : Engine σ Order) (seq : Nat) :
    (s.resumeSession e Order.obey seq).Housed foreign none none ∧
      s.Tends (s.resumeSession e Order.obey seq) := by
  unfold Scene.resumeSession
  split
  · exact ⟨h, .of_eq rfl (.refl _) rfl⟩
  · next x hfound =>
    obtain ⟨hx, rfl⟩ := session?_eq_some hfound
    split
    · next hprogress =>
      have hopen : x.end? = none := by simp [Session.end?, hprogress]
      split
      · exact ⟨h.discard hx hopen (by simp [hprogress]), .discard s x.seq⟩
      · have hdeferred : (s.setProgress x.seq .deferred).Housed foreign none none :=
          h.setProgress hx hopen (by simp [hprogress]) (by simp) (by simp)
        exact ⟨hdeferred.frame_of_eq rfl ⟨rfl, rfl⟩ rfl rfl, .of_eq rfl (.of_eq rfl rfl rfl) rfl⟩
    · next hprogress =>
      have hopen : x.end? = none := by simp [Session.end?, hprogress]
      split
      · exact ⟨h.discard hx hopen (by simp [hprogress]), .discard s x.seq⟩
      · next hlive =>
        have hlive : s.live = some x.seq := by
          simp only [isLive, Bool.or_eq_true, Bool.not_eq_true', beq_eq_false_iff_ne, ne_eq,
            not_or, Decidable.not_not] at hlive
          exact hlive.2
        have hrunning : (s.setProgress x.seq .running).Housed foreign none none :=
          h.setProgress hx hopen (by simp [hprogress]) (by simp) fun _ => .inr hlive
        have hbusy : Busy foreign x.seq none none (s.setProgress x.seq .running) :=
          ⟨hrunning, ⟨_, mem_update.mpr ⟨x, hx, if_pos rfl⟩, rfl, rfl⟩,
            fun host hnone => by cases hnone⟩
        obtain ⟨hhoused, htends⟩ := hbusy.beginValidation (e := e) hlive x.text
        exact ⟨hhoused, (Tends.setProgress s x.seq .running).trans htends⟩
    · next host hprogress =>
      have hbusy : Busy foreign x.seq (some host) none (s.setProgress x.seq .running) := by
        refine ⟨h.pickUp hx hprogress, ⟨_, mem_update.mpr ⟨x, hx, if_pos rfl⟩, rfl, rfl⟩, ?_⟩
        intro other hhand
        rw [← Option.some.inj hhand]
        exact h.begun x hx host (.inl hprogress)
      obtain ⟨hhoused, htends⟩ := hbusy.await (e := e)
      exact ⟨hhoused, (Tends.setProgress s x.seq .running).trans htends⟩
    all_goals exact ⟨h, .of_eq rfl (.refl _) rfl⟩

/-- The sweep after a session lets go of the host of the call that the session left. -/
theorem Housed.letGo (h : s.Housed foreign none (some host)) (hx : x ∈ s.sessions)
    (hleft : x.abandoned = some host) (answer : Except String String) :
    ((s.onBench (s.toBench.conclude host answer).1).update x.seq fun y =>
      { y with abandoned := none }).Housed foreign none none := by
  have hended : ∀ other, x.progress ≠ .waiting other := by
    intro other hwaiting
    exact h.left x hx (by simp [hleft]) (by simp [Session.end?, hwaiting])
  have hnone : ∀ other, ¬({ x with abandoned := none } : Session).Holds other :=
    Session.not_holds hended rfl
  have hfreed : (s.update x.seq fun y => { y with abandoned := none }).Housed foreign none
      (some host) := by
    refine h.update hx (fun _ => rfl) (fun habandoned => absurd rfl habandoned) ?_ ?_
      (fun other hhand => by cases hhand) ?_
    · exact fun hengaged => h.heeded x hx hengaged
    · exact fun other hhost => absurd hhost (hnone other)
    · intro other hopen
      refine or_congr_right (iff_of_false (hnone other) ?_)
      rintro (hwaiting | habandoned)
      · exact hended other hwaiting
      · exact hopen (by rw [← hleft, habandoned])
  refine hfreed.conclude (.inl rfl) ?_ (h.begun x hx host (.inr hleft)).host answer
  intro y hy hhost
  obtain ⟨z, hz, rfl⟩ := mem_update.mp hy
  split at hhost
  · next heq =>
    rw [h.eq_of_seq_eq hz hx heq] at hhost
    exact hnone host hhost
  · next hne => exact hne (congrArg Session.seq (h.holder_eq hz hx hhost (.inr hleft)))

theorem Housed.cleanUp (h : s.Housed foreign none (some host)) (hx : x ∈ s.sessions)
    (hleft : x.abandoned = some host) (answer : Except String String) :
    (s.cleanUp x.seq host answer).Housed foreign none none ∧
      s.Tends (s.cleanUp x.seq host answer) := by
  have hhoused := h.letGo hx hleft answer
  have hcalled := (h.begun x hx host (.inr hleft)).host
  have htends : s.Tends ((s.onBench (s.toBench.conclude host answer).1).update x.seq fun y =>
      { y with abandoned := none }) := by
    have hsurface := Bench.conclude_surface host answer s.toBench
    have hrenderer := Bench.conclude_toRenderer host answer s.toBench
    exact ⟨rfl, Bench.conclude_grows host answer s.toBench, .of_detachHost hsurface,
      Surface.own_of_detachHost hsurface (by rw [← hrenderer] at hcalled; exact hcalled)⟩
  have hswept : ∀ event, s.Tends ((((s.onBench (s.toBench.conclude host answer).1).update x.seq
      fun y => { y with abandoned := none }).sweep (s.renderId x.seq).owns).1.report event) :=
    fun event => htends.trans ((Tends.remove (fun _ => InstanceId.covers_of_owns) rfl rfl rfl).trans
      (.of_eq rfl (.of_eq rfl rfl rfl) rfl))
  unfold Scene.cleanUp
  dsimp only
  split
  · exact ⟨hhoused, htends⟩
  all_goals
    exact ⟨hhoused.frame_of_eq rfl ⟨rfl, rfl⟩ (Surface.hostIds_remove _ _) rfl, hswept _⟩

theorem Housed.resumeSweep (h : s.Housed foreign none none) (e : Engine σ Order) (seq : Nat) :
    (s.resumeSweep e Order.obey seq).Housed foreign none none ∧
      s.Tends (s.resumeSweep e Order.obey seq) := by
  cases hfound : (s.session? seq).bind (·.abandoned) with
  | none =>
    simp only [Scene.resumeSweep, hfound]
    exact ⟨h, .of_eq rfl (.refl _) rfl⟩
  | some host =>
    obtain ⟨x, hfound', hleft⟩ := Option.bind_eq_some_iff.mp hfound
    obtain ⟨hx, rfl⟩ := session?_eq_some hfound'
    cases hpoll : s.toBench.poll e host with
    | none =>
      simp only [Scene.resumeSweep, hfound, hpoll]
      exact ⟨h, .of_eq rfl (.refl _) rfl⟩
    | some response =>
      have hturn : s.resumeSweep e Order.obey x.seq =
          (s.absorb Order.obey response).cleanUp x.seq host response.answer := by
        simp only [Scene.resumeSweep, hfound, hpoll, Scene.cleanUp]
        cases ((s.absorb Order.obey response).toBench.conclude host response.answer).2 <;> rfl
      obtain ⟨hsurface, hgrows, -⟩ := Bench.poll_eq_some hpoll
      have hpending : host ∈ s.toRenderer.pending :=
        (h.pending host).mpr ⟨by simp, .inr ⟨x, hx, .inr hleft⟩⟩
      obtain ⟨hhoused, hretains, htends⟩ := (h.answer hpoll hpending).deeds response.deeds
      obtain ⟨y, hy, hseq, -, habandoned⟩ := hretains.kept x hx
      obtain ⟨hhoused', htends'⟩ := hhoused.cleanUp hy (habandoned.trans hleft) response.answer
      rw [hseq] at hhoused' htends'
      have hpolled : s.Tends (s.onBench response.state) := .of_eq rfl hgrows hsurface
      rw [hturn]
      exact ⟨hhoused', hpolled.trans (htends.trans htends')⟩

/-- A turn keeps a scene housed, and leaves to others what is theirs. -/
theorem Housed.resume (h : s.Housed foreign none none) (e : Engine σ Order) (task : Task) :
    (s.resume e Order.obey task).Housed foreign none none ∧
      s.Tends (s.resume e Order.obey task) := by
  unfold Scene.resume
  split
  · exact h.resumeSession e task.seq
  · exact h.resumeSweep e task.seq

/-- The owner may go away. -/
theorem Housed.close (h : s.Housed foreign none none) :
    s.close.Housed foreign none none ∧ s.Tends s.close := by
  have hteardown := h.obey .teardown
  refine ⟨⟨hteardown.ascending, hteardown.numbered, hteardown.left, hteardown.heeded,
    hteardown.begun, hteardown.free, hteardown.pending, hteardown.answered, hteardown.hosts,
    hteardown.lodged, hteardown.nodup, hteardown.known, hteardown.apart⟩, ?_⟩
  exact (Tends.obey .teardown s).trans (.of_eq rfl (.of_eq rfl rfl rfl) rfl)

end Scene

end DiagramView
