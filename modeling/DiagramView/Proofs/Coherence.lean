import DiagramView.Proofs.Course
import DiagramView.Proofs.Soundness

/-!
# Schedulers are coherent

The live session, the last sequence number, the status, the container and the sessions' own records
are written in different places and at different times. `scheduler_coherent` says how they hang
together after any course of moves: only the last session can be live, the container is filled
exactly when that session was rendered, and then with the markup that the engine gave for it.
-/

namespace DiagramView

variable {σ κ ο : Type}

namespace Scene

/-- The parts of a scheduler's state agree. -/
structure Coherent (s : Scene σ ο) : Prop where
  /-- At most one session is neither over nor given up. -/
  one_open : (s.sessions.filter fun x => x.end?.isNone && !x.cancelled).length ≤ 1
  /-- The live session is the last one, and the status shows it under way. -/
  live : ∀ seq, s.live = some seq →
    seq = s.lastSeq ∧ (∃ x, s.session? seq = some x ∧ x.cancelled = false) ∧
      s.status.session = some (s.renderId seq) ∧
      (s.status.phase = .scheduled ∨ s.status.phase = .validating ∨
        s.status.phase = .rendering) ∧
      s.surface.container = none
  at_rest : s.live = none → s.status.phase = .idle ∨ s.status.phase.isTerminal = true
  container_iff : s.surface.container.isSome = true ↔ s.status.phase = .rendered
  /-- What is mounted is the neutralized markup that the engine gave in the host of the one call
  made for the last session. -/
  mounted : ∀ node, s.surface.container = some node →
    s.status.session = some (s.renderId s.lastSeq) ∧ node.id = (s.renderId s.lastSeq).text ∧
      ∃ x host phase raw, s.session? s.lastSeq = some x ∧
        ⟨.render (s.renderId s.lastSeq) x.text host, phase⟩ ∈ s.calls ∧
        (∀ call ∈ s.calls, call.host? = some host →
          call = ⟨.render (s.renderId s.lastSeq) x.text host, phase⟩) ∧
        .result host (.ok raw) ∈ s.answers ∧
        (Markup.neutralize raw).markup = some node.markup
  message_iff : s.status.message.isSome = true ↔
    s.status.phase = .parseError ∨ s.status.phase = .renderError
  session_iff : s.status.session = none ↔ s.status.phase = .idle
  session : ∀ id, s.status.session = some id → id = s.renderId s.lastSeq

/-! ## Sound scenes are coherent -/

namespace Sound

variable {s : Scene σ ο}

/-- Two sessions that are neither over nor given up are one and the same. -/
theorem open_eq (h : s.Sound) {x y : Session} (hx : x ∈ s.sessions) (hy : y ∈ s.sessions)
    (hxopen : x.end? = none) (hxkept : x.cancelled = false) (hyopen : y.end? = none)
    (hykept : y.cancelled = false) : x = y := by
  have hxlive := h.books.unfinished x hx hxkept hxopen
  have hylive := h.books.unfinished y hy hykept hyopen
  exact h.books.eq_of_seq_eq hx hy (Option.some.inj (hxlive.symm.trans hylive))

theorem one_open (h : s.Sound) :
    (s.sessions.filter fun x => x.end?.isNone && !x.cancelled).length ≤ 1 := by
  have hascending := h.books.ascending.filter fun x => x.end?.isNone && !x.cancelled
  have hall : ∀ x ∈ s.sessions.filter fun x => x.end?.isNone && !x.cancelled,
      x ∈ s.sessions ∧ x.end? = none ∧ x.cancelled = false := by
    intro x hx
    obtain ⟨hmem, hopen⟩ := List.mem_filter.mp hx
    simpa [hmem] using hopen
  generalize (s.sessions.filter fun x => x.end?.isNone && !x.cancelled) = l at hascending hall ⊢
  rcases l with _ | ⟨x, _ | ⟨y, rest⟩⟩
  · exact Nat.zero_le 1
  · exact Nat.le_refl 1
  · -- two open sessions would be one, but their numbers ascend
    obtain ⟨hx, hxopen, hxkept⟩ := hall x (by simp)
    obtain ⟨hy, hyopen, hykept⟩ := hall y (by simp)
    have hlt : x.seq < y.seq := (List.pairwise_cons.mp hascending).1 y (by simp)
    rw [h.open_eq hx hy hxopen hxkept hyopen hykept] at hlt
    exact absurd hlt (Nat.lt_irrefl _)

/-- What is mounted stands for the last session, which the engine's record bears out. -/
theorem mounted (h : s.Sound) {node : SurfaceNode} (hnode : s.surface.container = some node) :
    ∃ x ∈ s.sessions, x.seq = s.lastSeq ∧
      s.status = ⟨some (s.renderId s.lastSeq), .rendered, none⟩ ∧
      node.id = (s.renderId s.lastSeq).text ∧
      s.toRenderer.Supports (s.renderId s.lastSeq) x.text .rendered (some node.markup) := by
  cases h.display with
  | nothing _ _ container => rw [container] at hnode; cases hnode
  | noDiagram _ _ container => rw [container] at hnode; cases hnode
  | underWay _ _ _ _ _ _ _ _ _ container => rw [container] at hnode; cases hnode
  | settled x mem last live kept outcome progress markup supports status container =>
    rw [container] at hnode
    cases supports with
    | misshapen => cases hnode
    | refused => cases hnode
    | failed => cases hnode
    | rendered host raw markup hbegan hanswer hmarkup =>
      cases hnode
      exact ⟨x, mem, last, status, rfl, .rendered host raw markup hbegan hanswer hmarkup⟩

theorem coherent (h : s.Sound) : s.Coherent where
  one_open := h.one_open
  live := by
    intro seq hlive
    cases h.display with
    | nothing live => rw [live] at hlive; cases hlive
    | noDiagram live => rw [live] at hlive; cases hlive
    | settled x mem last live => rw [live] at hlive; cases hlive
    | underWay x mem last live kept unsettled phase active status container =>
      obtain rfl : s.lastSeq = seq := Option.some.inj (live.symm.trans hlive)
      refine ⟨rfl, ⟨x, last ▸ h.books.session?_of_mem mem, kept⟩, by rw [status], ?_, container⟩
      rw [status]
      cases phase <;> simp_all [Phase.isUnderWay]
  at_rest := by
    intro hlive
    cases h.display with
    | nothing live status => exact .inl (by rw [status])
    | noDiagram live status => exact .inr (by rw [status]; rfl)
    | underWay x mem last live => rw [live] at hlive; cases hlive
    | settled x mem last live kept outcome progress markup supports status =>
      refine .inr ?_
      rw [status]
      cases outcome <;> rfl
  container_iff := by
    cases h.display with
    | nothing live status container => simp [container, status]
    | noDiagram live status container => simp [container, status]
    | underWay x mem last live kept unsettled phase active status container =>
      have hne : phase ≠ .rendered := by rintro rfl; cases active
      simp [container, status, hne]
    | settled x mem last live kept outcome progress markup supports status container =>
      cases supports <;> simp [container, status, Outcome.phase]
  mounted := by
    intro node hnode
    obtain ⟨x, hx, hlast, hstatus, hid, hsupports⟩ := h.mounted hnode
    cases hsupports with
    | rendered host raw markup hbegan hanswer hmarkup =>
      obtain ⟨phase, hcall⟩ := hbegan.called
      refine ⟨by rw [hstatus], hid, x, host, phase, raw, hlast ▸ h.books.session?_of_mem hx,
        hcall, ?_, hanswer, hmarkup⟩
      intro call hmem hhost
      exact h.books.hosts.call_eq hmem hcall hhost rfl
  message_iff := by
    cases h.display with
    | nothing live status => simp [status]
    | noDiagram live status => simp [status]
    | underWay x mem last live kept unsettled phase active status container =>
      have hparse : phase ≠ .parseError := by rintro rfl; cases active
      have hrender : phase ≠ .renderError := by rintro rfl; cases active
      simp [status, hparse, hrender]
    | settled x mem last live kept outcome progress markup supports status container =>
      cases outcome <;> simp [status, Outcome.phase, Outcome.message?]
  session_iff := by
    cases h.display with
    | nothing live status => simp [status]
    | noDiagram live status => simp [status]
    | underWay x mem last live kept unsettled phase active status container =>
      have hidle : phase ≠ .idle := by rintro rfl; cases active
      simp [status, hidle]
    | settled x mem last live kept outcome progress markup supports status container =>
      cases outcome <;> simp [status, Outcome.phase]
  session := by
    intro id hid
    cases h.display with
    | nothing live status => rw [status] at hid; cases hid
    | noDiagram live status => rw [status] at hid; cases hid; rfl
    | underWay x mem last live kept unsettled phase active status =>
      rw [status] at hid; cases hid; rfl
    | settled x mem last live kept outcome progress markup supports status =>
      rw [status] at hid; cases hid; rfl

end Sound

/-! ## Courses of a scheduler -/

theorem Sound.fresh (config : SharedConfig) (engine : σ) (i : InstanceId) (owner : ο) :
    (Scene.fresh config engine i owner).Sound := by
  refine ⟨⟨.nil, ?_, ?_, ?_, ?_, ?_, .nil, ?_⟩, .nothing rfl rfl rfl⟩ <;>
    · intro x hx
      cases hx

/-- A move keeps a scene sound if the owner's calls do. -/
theorem Sound.take (e : Engine σ Empty) {obey : κ → Scene σ ο → Scene σ ο}
    (hobey : ∀ command (s : Scene σ ο), s.Sound → (obey command s).Sound) (move : Move σ κ)
    {s : Scene σ ο} (h : s.Sound) : (move.take e obey s).Sound := by
  cases move with
  | call command => exact hobey command s h
  | turn task => exact h.resume e _ task
  | insert parent node =>
    refine h.frame rfl (s.surface.insert_container parent node) ?_
    exact .of_eq rfl rfl (s.surface.insert_attached parent node)
  | work engine => exact h.frame rfl rfl (.of_eq rfl rfl rfl)

theorem Sound.obey {s : Scene σ ο} (h : s.Sound) (order : Order) : (order.obey s).Sound := by
  cases order with
  | schedule text => exact h.schedule text
  | teardown => exact h.teardown

/-- After any course of moves a scheduler is sound. -/
theorem Sound.run (e : Engine σ Empty) (moves : List (Move σ Order)) {s : Scene σ ο}
    (h : s.Sound) : (s.run e Order.obey moves).Sound :=
  run_invariant (fun move _ hs => hs.take e (fun order _ ht => ht.obey order) move) moves h

end Scene

/-- After any course of calls, turns, insertions and work of the engine, a scheduler is
coherent. -/
theorem scheduler_coherent (e : Engine σ Empty) (config : SharedConfig) (engine : σ)
    (i : InstanceId) (owner : ο) (moves : List (Move σ Order)) :
    ((Scene.fresh config engine i owner).run e Order.obey moves).Coherent :=
  ((Scene.Sound.fresh config engine i owner).run e moves).coherent

end DiagramView
