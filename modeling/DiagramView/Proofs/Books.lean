import DiagramView.Proofs.Record
import DiagramView.Proofs.Tags

/-!
# Well-kept books

The books of a scheduler list its sessions in the order in which they began. They are *well kept*
(`Scene.WellKept`) when the sessions are told apart by their sequence numbers, when every session
that is neither over nor given up is the live one, when every host that a session still waits for
was given to a call that was made for that session, and when no two calls share a host.

The last parts of this file say what giving up the live session does to a scene, field by field, and
what every order does.
-/

namespace DiagramView

variable {σ ο : Type}

/-! ## Records of sessions -/

/-- A session awaits the call in a host, or left it under way when it ended. -/
def Session.Holds (x : Session) (host : HostId) : Prop :=
  x.progress = .waiting host ∨ x.abandoned = some host

/-- The record of a session after the given live session, if any, was given up. -/
def Session.giveUp (live : Option Nat) (x : Session) : Session :=
  if live = some x.seq then { x with cancelled := true } else x

namespace Session

theorem end?_eq_none_iff {x : Session} : x.end? = none ↔ ∀ how, x.progress ≠ .ended how := by
  unfold end?
  split
  · next how h => simp [h]
  · next h => simpa using h

@[simp] theorem giveUp_seq (live : Option Nat) (x : Session) : (x.giveUp live).seq = x.seq := by
  unfold giveUp
  split <;> rfl

@[simp] theorem giveUp_text (live : Option Nat) (x : Session) :
    (x.giveUp live).text = x.text := by
  unfold giveUp
  split <;> rfl

@[simp] theorem giveUp_progress (live : Option Nat) (x : Session) :
    (x.giveUp live).progress = x.progress := by
  unfold giveUp
  split <;> rfl

@[simp] theorem giveUp_abandoned (live : Option Nat) (x : Session) :
    (x.giveUp live).abandoned = x.abandoned := by
  unfold giveUp
  split <;> rfl

/-- Nobody is given up when no session is live. -/
@[simp] theorem giveUp_none : giveUp none = id := by
  funext x
  simp [giveUp]

/-- A session that is not cancelled after the live one was given up was not the live one. -/
theorem giveUp_cancelled_eq_false {live : Option Nat} {x : Session} :
    (x.giveUp live).cancelled = false ↔ x.cancelled = false ∧ live ≠ some x.seq := by
  unfold giveUp
  split
  · next h => simp [h]
  · next h => simp [h]

theorem cancelled_giveUp {live : Option Nat} {x : Session} (h : x.cancelled = true) :
    (x.giveUp live).cancelled = true := by
  unfold giveUp
  split
  · rfl
  · exact h

end Session

namespace Scene

variable {s : Scene σ ο}

theorem mem_update {seq : Nat} {f : Session → Session} {x : Session} :
    x ∈ (s.update seq f).sessions ↔
      ∃ y ∈ s.sessions, (if y.seq = seq then f y else y) = x := by
  simp [update]

theorem progress_of_mem_setProgress {seq : Nat} {progress : Progress} {y : Session}
    (hy : y ∈ (s.setProgress seq progress).sessions) (hseq : y.seq = seq) :
    y.progress = progress := by
  obtain ⟨z, hz, rfl⟩ := mem_update.mp hy
  split
  · rfl
  · next hne =>
    rw [if_neg hne] at hseq
    exact absurd hseq hne

theorem session?_eq_some {seq : Nat} {x : Session} (h : s.session? seq = some x) :
    x ∈ s.sessions ∧ x.seq = seq := by
  refine ⟨List.mem_of_find?_eq_some h, ?_⟩
  simpa using List.find?_some h

/-! ## The invariant of the books -/

/-- The books of a scheduler are in order. -/
structure WellKept (s : Scene σ ο) : Prop where
  ascending : s.sessions.Pairwise fun x y => x.seq < y.seq
  numbered : ∀ x ∈ s.sessions, x.seq ≤ s.lastSeq
  worded : ∀ x ∈ s.sessions, Text.isBlankText x.text = false
  unfinished : ∀ x ∈ s.sessions, x.cancelled = false → x.end? = none → s.live = some x.seq
  abandoned : ∀ x ∈ s.sessions, x.abandoned ≠ none → x.cancelled = true
  begun : ∀ x ∈ s.sessions, ∀ host, x.Holds host →
    s.toRenderer.Began (s.renderId x.seq) x.text host
  hosts : s.toBench.Numbered

namespace WellKept

/-- A sequence number stands for one session. -/
theorem eq_of_seq_eq (h : s.WellKept) {x y : Session} (hx : x ∈ s.sessions) (hy : y ∈ s.sessions)
    (hseq : x.seq = y.seq) : x = y :=
  eq_of_pairwise h.ascending hx hy (Nat.not_lt_of_le (Nat.le_of_eq hseq.symm))
    (Nat.not_lt_of_le (Nat.le_of_eq hseq))

theorem session?_of_mem (h : s.WellKept) {x : Session} (hx : x ∈ s.sessions) :
    s.session? x.seq = some x := by
  cases hfind : s.session? x.seq with
  | none =>
    have hnone := List.find?_eq_none.mp hfind x hx
    simp at hnone
  | some y =>
    obtain ⟨hy, hseq⟩ := session?_eq_some hfind
    rw [h.eq_of_seq_eq hy hx hseq]

/-- A session that was not given up has left no call to a sweep. -/
theorem not_abandoned (h : s.WellKept) {x : Session} (hx : x ∈ s.sessions)
    (hkept : x.cancelled = false) : x.abandoned = none := by
  cases hleft : x.abandoned with
  | none => rfl
  | some host =>
    have hgiven := h.abandoned x hx (by simp [hleft])
    rw [hkept] at hgiven
    cases hgiven

/-- The books stay in order while only the bench and the owner change, and the record grows. -/
theorem frame (h : s.WellKept) {s' : Scene σ ο} (hbooks : s'.toSchedule = s.toSchedule)
    (hgrows : s.toBench.Grows s'.toBench) : s'.WellKept := by
  have hid : ∀ seq, s'.renderId seq = s.renderId seq := by
    intro seq
    rw [renderId, renderId, hbooks]
  refine ⟨?_, ?_, ?_, ?_, ?_, ?_, hgrows.numbered h.hosts⟩ <;> rw [hbooks]
  · exact h.ascending
  · exact h.numbered
  · exact h.worded
  · exact h.unfinished
  · exact h.abandoned
  · intro x hx host hholds
    rw [hid]
    exact (h.begun x hx host hholds).mono hgrows.within

/-- A record may change while its session keeps its number and its text. -/
theorem update (h : s.WellKept) {seq : Nat} {f : Session → Session}
    (hseq : ∀ x, (f x).seq = x.seq) (htext : ∀ x, (f x).text = x.text)
    (hunfinished : ∀ x ∈ s.sessions, x.seq = seq → (f x).cancelled = false →
      (f x).end? = none → s.live = some seq)
    (habandoned : ∀ x ∈ s.sessions, x.seq = seq → (f x).abandoned ≠ none →
      (f x).cancelled = true)
    (hbegun : ∀ x ∈ s.sessions, x.seq = seq → ∀ host, (f x).Holds host →
      s.toRenderer.Began (s.renderId seq) x.text host) : (s.update seq f).WellKept := by
  refine ⟨?_, ?_, ?_, ?_, ?_, ?_, h.hosts⟩
  · refine List.pairwise_map.mpr (h.ascending.imp ?_)
    intro x y hxy
    split <;> split <;> simpa [hseq] using hxy
  all_goals
    intro x hx
    obtain ⟨y, hy, rfl⟩ := mem_update.mp hx
    split
  · rw [hseq]
    exact h.numbered y hy
  · exact h.numbered y hy
  · rw [htext]
    exact h.worded y hy
  · exact h.worded y hy
  · next heq =>
    intro hcancelled hend
    rw [hseq, heq]
    exact hunfinished y hy heq hcancelled hend
  · exact h.unfinished y hy
  · next heq => exact habandoned y hy heq
  · exact h.abandoned y hy
  · next heq =>
    intro host hholds
    rw [hseq, htext, heq]
    exact hbegun y hy heq host hholds
  · exact h.begun y hy

/-- No two sessions hold one host. -/
theorem seq_eq_of_holds (h : s.WellKept) {x y : Session} (hx : x ∈ s.sessions)
    (hy : y ∈ s.sessions) {host : HostId} (hxholds : x.Holds host) (hyholds : y.Holds host) :
    x.seq = y.seq := by
  obtain ⟨phase, hcall⟩ := (h.begun x hx host hxholds).called
  obtain ⟨phase', hcall'⟩ := (h.begun y hy host hyholds).called
  have heq := h.hosts.call_eq hcall hcall' rfl rfl
  simp only [EngineCall.mk.injEq, EngineRequest.render.injEq] at heq
  exact InstanceId.renderId_injective heq.1.1

/-- A host that a session holds was attached. -/
theorem attached_of_holds (h : s.WellKept) {x : Session} (hx : x ∈ s.sessions) {host : HostId}
    (hholds : x.Holds host) : host.number ≤ s.surface.attached := by
  obtain ⟨phase, hcall⟩ := (h.begun x hx host hholds).called
  exact h.hosts.attached _ hcall host rfl

/-- A session for a text that is not blank may be entered while no session is live. -/
theorem enter (h : s.WellKept) (hlive : s.live = none) {text : String}
    (hworded : Text.isBlankText text = false) (status : Status) :
    WellKept { s with
      lastSeq := s.lastSeq + 1
      live := some (s.lastSeq + 1)
      status
      sessions := s.sessions ++ [{ seq := s.lastSeq + 1, text }] } := by
  refine ⟨?_, ?_, ?_, ?_, ?_, ?_, h.hosts⟩
  · refine List.pairwise_append.mpr ⟨h.ascending, List.pairwise_singleton _ _, ?_⟩
    intro x hx y hy
    cases List.mem_singleton.mp hy
    exact Nat.lt_succ_of_le (h.numbered x hx)
  · refine List.forall_mem_append.mpr ⟨?_, List.forall_mem_singleton.mpr (Nat.le_refl _)⟩
    exact fun x hx => Nat.le_succ_of_le (h.numbered x hx)
  · exact List.forall_mem_append.mpr ⟨h.worded, List.forall_mem_singleton.mpr hworded⟩
  · refine List.forall_mem_append.mpr ⟨?_, List.forall_mem_singleton.mpr fun _ _ => rfl⟩
    intro x hx hkept hend
    have hother := h.unfinished x hx hkept hend
    rw [hlive] at hother
    cases hother
  · refine List.forall_mem_append.mpr ⟨h.abandoned, List.forall_mem_singleton.mpr ?_⟩
    exact fun hleft => absurd rfl hleft
  · refine List.forall_mem_append.mpr ⟨h.begun, List.forall_mem_singleton.mpr ?_⟩
    rintro host (hwaiting | hleft)
    · cases hwaiting
    · cases hleft

end WellKept

/-! ## Giving up the live session -/

@[simp] theorem wakeSession_toSchedule (s : Scene σ ο) (seq : Nat) :
    (s.wakeSession seq).toSchedule = s.toSchedule := by
  unfold wakeSession
  split <;> rfl

@[simp] theorem wakeSession_surface (s : Scene σ ο) (seq : Nat) :
    (s.wakeSession seq).surface = s.surface := by
  unfold wakeSession
  split <;> rfl

@[simp] theorem wakeSession_toRenderer (s : Scene σ ο) (seq : Nat) :
    (s.wakeSession seq).toRenderer = s.toRenderer := by
  unfold wakeSession
  split <;> rfl

@[simp] theorem wakeSession_owner (s : Scene σ ο) (seq : Nat) :
    (s.wakeSession seq).owner = s.owner := by
  unfold wakeSession
  split <;> rfl

/-- Giving up a session touches the books alone, and there only the live session. -/
theorem cancelSession_frame (reason : CancelReason) (s : Scene σ ο) :
    (s.cancelSession reason).toSchedule =
        { s.toSchedule with live := none, sessions := s.sessions.map (·.giveUp s.live) } ∧
      (s.cancelSession reason).surface = s.surface ∧
      (s.cancelSession reason).toRenderer = s.toRenderer ∧
      (s.cancelSession reason).owner = s.owner := by
  unfold cancelSession
  cases hlive : s.live with
  | none =>
    refine ⟨?_, rfl, rfl, rfl⟩
    obtain ⟨bench, books, owner⟩ := s
    obtain ⟨i, lastSeq, live, status, sessions, closed⟩ := books
    cases hlive
    simp
  | some seq =>
    simp only [report, wakeSession_toSchedule, wakeSession_owner, wakeSession_surface,
      wakeSession_toRenderer, Bench.report]
    refine ⟨?_, rfl, rfl, rfl⟩
    simp only [Scene.update, Session.giveUp, Option.some.injEq, eq_comm (a := seq)]

theorem clean_frame (reason : CancelReason) (s : Scene σ ο) :
    (s.clean reason).toSchedule = s.toSchedule ∧
      (s.clean reason).surface = s.surface.clearContainer.remove s.instanceId.covers ∧
      (s.clean reason).toRenderer = s.toRenderer ∧ (s.clean reason).owner = s.owner := by
  simp only [clean, sweep, clearContainer]
  by_cases hswept : (s.surface.clearContainer.sweep s.instanceId.covers).2 = 0
  · simp only [hswept, ↓reduceIte, and_self, and_true, true_and]
    rfl
  · simp only [hswept, ↓reduceIte]
    exact ⟨rfl, rfl, rfl, rfl⟩

@[simp] theorem cancelLive_toSchedule (reason : CancelReason) (s : Scene σ ο) :
    (s.cancelLive reason).toSchedule =
      { s.toSchedule with live := none, sessions := s.sessions.map (·.giveUp s.live) } :=
  (clean_frame reason _).1.trans (cancelSession_frame reason s).1

@[simp] theorem cancelLive_surface (reason : CancelReason) (s : Scene σ ο) :
    (s.cancelLive reason).surface = s.surface.clearContainer.remove s.instanceId.covers := by
  obtain ⟨hbooks, hsurface, -, -⟩ := cancelSession_frame reason s
  rw [cancelLive, (clean_frame reason _).2.1, hsurface, hbooks]

@[simp] theorem cancelLive_toRenderer (reason : CancelReason) (s : Scene σ ο) :
    (s.cancelLive reason).toRenderer = s.toRenderer :=
  (clean_frame reason _).2.2.1.trans (cancelSession_frame reason s).2.2.1

@[simp] theorem cancelLive_owner (reason : CancelReason) (s : Scene σ ο) :
    (s.cancelLive reason).owner = s.owner :=
  (clean_frame reason _).2.2.2.trans (cancelSession_frame reason s).2.2.2

@[simp] theorem teardown_toSchedule (s : Scene σ ο) :
    s.teardown.toSchedule =
      { s.toSchedule with
        live := none, status := {}, sessions := s.sessions.map (·.giveUp s.live) } := by
  simp [teardown]

@[simp] theorem teardown_surface (s : Scene σ ο) :
    s.teardown.surface = s.surface.clearContainer.remove s.instanceId.covers :=
  s.cancelLive_surface .teardown

/-- A call for a text turns the status to a new session, which is in the books unless the text is
blank. -/
theorem schedule_toSchedule (text : String) (s : Scene σ ο) :
    (s.schedule text).1.toSchedule =
      { s.toSchedule with
        lastSeq := s.lastSeq + 1
        live := if Text.isBlankText text then none else some (s.lastSeq + 1)
        status := ⟨some (s.renderId (s.lastSeq + 1)),
          if Text.isBlankText text then .noDiagram else .scheduled, none⟩
        sessions := s.sessions.map (·.giveUp s.live) ++
          if Text.isBlankText text then [] else [{ seq := s.lastSeq + 1, text }] } := by
  simp only [schedule]
  split
  · simp [report, renderId]
  · simp [report, wake, renderId]

@[simp] theorem schedule_surface (text : String) (s : Scene σ ο) :
    (s.schedule text).1.surface = s.surface.clearContainer.remove s.instanceId.covers := by
  rw [← s.cancelLive_surface .superseded]
  simp only [schedule]
  split <;> rfl

@[simp] theorem schedule_owner (text : String) (s : Scene σ ο) :
    (s.schedule text).1.owner = s.owner := by
  rw [← s.cancelLive_owner .superseded]
  simp only [schedule]
  split <;> rfl

/-- The books stay in order when the live session is given up. -/
theorem WellKept.cancelLive (h : s.WellKept) (reason : CancelReason) :
    (s.cancelLive reason).WellKept := by
  have hgrows : s.toBench.Grows (s.cancelLive reason).toBench :=
    .of_eq (by rw [cancelLive_toRenderer]) (by rw [cancelLive_toRenderer])
      (by rw [cancelLive_surface]; rfl)
  refine ⟨?_, ?_, ?_, ?_, ?_, ?_, hgrows.numbered h.hosts⟩
  all_goals simp only [renderId, cancelLive_toSchedule, cancelLive_toRenderer, List.mem_map,
    forall_exists_index, and_imp, forall_apply_eq_imp_iff₂, Session.giveUp_seq,
    Session.giveUp_text]
  · refine List.pairwise_map.mpr (h.ascending.imp ?_)
    intro x y hxy
    simpa using hxy
  · exact h.numbered
  · exact h.worded
  · intro x hx hcancelled hend
    obtain ⟨hx', hlive⟩ := Session.giveUp_cancelled_eq_false.mp hcancelled
    have hend' : x.end? = none := by simpa [Session.end?] using hend
    exact absurd (h.unfinished x hx hx' hend') hlive
  · intro x hx habandoned
    exact Session.cancelled_giveUp (h.abandoned x hx (by simpa using habandoned))
  · intro x hx host hholds
    exact h.begun x hx host (by simpa [Session.Holds] using hholds)

end Scene

/-! ## Orders -/

namespace Order

/-- An order empties the container and sweeps up after all sessions. -/
theorem obey_surface (order : Order) (s : Scene σ ο) :
    (order.obey s).surface = s.surface.clearContainer.remove s.instanceId.covers := by
  cases order with
  | schedule text => exact s.schedule_surface text
  | teardown => exact s.teardown_surface

theorem obey_toRenderer (order : Order) (s : Scene σ ο) :
    (order.obey s).toRenderer = s.toRenderer := by
  cases order with
  | schedule text =>
    rw [← s.cancelLive_toRenderer .superseded]
    simp only [obey, Scene.schedule]
    split <;> rfl
  | teardown => exact s.cancelLive_toRenderer .teardown

theorem obey_instanceId (order : Order) (s : Scene σ ο) :
    (order.obey s).instanceId = s.instanceId := by
  cases order with
  | schedule text => simp only [obey, Scene.schedule_toSchedule]
  | teardown => simp only [obey, Scene.teardown_toSchedule]

end Order

end DiagramView
