import DiagramView.Proofs.Outline
import DiagramView.Proofs.Stale

/-!
# The front of a scheduler

What a scheduler shows and does on behalf of its last session: the status, the live session, the
record of the last session, the container, and that session's own nodes and host (`Scene.front`).
After a teardown the last session was given up like those before it, and nothing of it belongs to
the front.

Whatever sessions do that were given up, the front stays as it is (`Scene.Untouched.front_eq`). The
live session and the owner change it, and what they make of it depends on nothing but the front and
the engine's replies (`Scene.Agree`).
-/

namespace DiagramView

variable {σ τ ο π : Type}

structure Front where
  instanceId : InstanceId
  lastSeq : Nat
  live : Option Nat
  status : Status
  /-- The record of the last session. -/
  session : Option Session
  /-- The container, and the nodes and the host of the last session. -/
  surface : Surface

namespace Scene

/-- The last session, unless it was torn down or its text was blank. -/
def latest? (s : Scene σ ο) : Option Session :=
  if s.status.session.isSome then s.session? s.lastSeq else none

/-- Whether a node is the last session's, unless that was torn down. -/
def ownsLatest (s : Scene σ ο) (node : String) : Bool :=
  s.status.session.isSome && (s.renderId s.lastSeq).owns node

/-- Whether a host is the last session's, or nobody's yet. -/
def hostsLatest (s : Scene σ ο) (h : HostId) : Bool :=
  s.surface.attached < h.number || s.latest?.any (·.progress = .waiting h)

def front (s : Scene σ ο) : Front where
  instanceId := s.instanceId
  lastSeq := s.lastSeq
  live := s.live
  status := s.status
  session := s.latest?
  surface := s.surface.part s.ownsLatest s.hostsLatest

/-! ## Scenes that agree -/

/-- Two scenes agree in their books, as far as the last session goes, and in a part of their
surfaces. -/
structure Agree (own : String → Bool) (mine : HostId → Bool) (s : Scene σ ο) (t : Scene τ π) :
    Prop where
  instanceId : s.instanceId = t.instanceId
  lastSeq : s.lastSeq = t.lastSeq
  live : s.live = t.live
  status : s.status = t.status
  latest : s.status.session.isSome = true → s.session? s.lastSeq = t.session? t.lastSeq
  part : s.surface.part own mine = t.surface.part own mine

namespace Agree

variable {own : String → Bool} {mine : HostId → Bool} {s s' : Scene σ ο} {t t' : Scene τ π}

theorem renderId_eq (h : Agree own mine s t) (seq : Nat) : s.renderId seq = t.renderId seq := by
  rw [renderId, renderId, h.instanceId]

theorem attached_eq (h : Agree own mine s t) : s.surface.attached = t.surface.attached :=
  Surface.attached_of_part_eq h.part

theorem latest?_eq (h : Agree own mine s t) : s.latest? = t.latest? := by
  unfold latest?
  rw [← h.status]
  split
  · next hsome => exact h.latest hsome
  · rfl

theorem ownsLatest_eq (h : Agree own mine s t) : s.ownsLatest = t.ownsLatest := by
  funext node
  rw [ownsLatest, ownsLatest, h.status, h.renderId_eq, h.lastSeq]

theorem hostsLatest_eq (h : Agree own mine s t) : s.hostsLatest = t.hostsLatest := by
  funext host
  rw [hostsLatest, hostsLatest, h.attached_eq, h.latest?_eq]

/-- Scenes that agree in all that belongs to the last session have the same front. -/
theorem front_eq (h : Agree own mine s t)
    (hown : ∀ node, s.ownsLatest node = true → own node = true)
    (hmine : ∀ host, s.hostsLatest host = true → mine host = true) : s.front = t.front := by
  have hpart := Surface.part_mono h.part hown hmine
  rw [h.ownsLatest_eq, h.hostsLatest_eq] at hpart
  simp only [front, h.instanceId, h.lastSeq, h.live, h.status, h.latest?_eq, h.ownsLatest_eq,
    h.hostsLatest_eq, hpart]

/-- Scenes with the same front agree in it. -/
theorem of_front_eq (h : s.front = t.front) : Agree s.ownsLatest s.hostsLatest s t := by
  simp only [front, Front.mk.injEq] at h
  obtain ⟨hinstance, hlast, hlive, hstatus, hlatest, hpart⟩ := h
  have hown : t.ownsLatest = s.ownsLatest := by
    funext node
    rw [ownsLatest, ownsLatest, renderId, renderId, hstatus, hinstance, hlast]
  have hmine : t.hostsLatest = s.hostsLatest := by
    funext host
    rw [hostsLatest, hostsLatest, Surface.attached_of_part_eq hpart, hlatest]
  rw [hown, hmine] at hpart
  refine ⟨hinstance, hlast, hlive, hstatus, ?_, hpart⟩
  intro hsome
  rw [latest?, latest?, ← hstatus, if_pos hsome, if_pos hsome] at hlatest
  exact hlatest

/-! ### What scenes that agree do alike -/

variable (h : Agree own mine s t)
include h

theorem frame (hbooks : s'.toSchedule = s.toSchedule) (hbooks' : t'.toSchedule = t.toSchedule)
    (hpart : s'.surface.part own mine = t'.surface.part own mine) : Agree own mine s' t' := by
  refine ⟨?_, ?_, ?_, ?_, ?_, hpart⟩
  · rw [hbooks, hbooks', h.instanceId]
  · rw [hbooks, hbooks', h.lastSeq]
  · rw [hbooks, hbooks', h.live]
  · rw [hbooks, hbooks', h.status]
  · rw [session?, session?, hbooks, hbooks']
    exact h.latest

theorem setProgress (seq : Nat) (progress : Progress) :
    Agree own mine (s.setProgress seq progress) (t.setProgress seq progress) := by
  refine ⟨h.instanceId, h.lastSeq, h.live, h.status, ?_, h.part⟩
  intro hsome
  have hlatest : s.session? s.lastSeq = t.session? t.lastSeq := h.latest hsome
  rw [Scene.setProgress, Scene.setProgress, session?_update, session?_update]
  · change (s.session? s.lastSeq).map _ = (t.session? t.lastSeq).map _
    rw [hlatest]
  · exact fun _ => rfl
  · exact fun _ => rfl

/-- Engines that do the same on benches that agree leave them in agreement. -/
theorem answered {α : Type} {response : Response (Bench σ) Empty α}
    {response' : Response (Bench τ) Empty α}
    (hpart : response.state.surface.part own mine = response'.state.surface.part own mine)
    (hdeeds : response.deeds = response'.deeds) :
    Agree own mine (s.onBench response.after) (t.onBench response'.after) := by
  refine h.frame rfl rfl ?_
  change response.after.surface.part own mine = response'.after.surface.part own mine
  rw [Response.after_surface, Response.after_surface, hdeeds]
  exact Surface.part_foldl_afterDeed hpart _

/-- The live session settles in the same way, once the surfaces agree in what goes with it. -/
theorem settle (hsome : s.status.session.isSome = true) (seq : Nat) (outcome : Outcome)
    (hbooks : s'.toSchedule = s.toSchedule) (hbooks' : t'.toSchedule = t.toSchedule)
    (hpart : s'.surface.part own mine = t'.surface.part own mine) :
    Agree own mine (s'.settle seq outcome) (t'.settle seq outcome) := by
  have hframe : Agree own mine s' t' := h.frame hbooks hbooks' hpart
  have hsettled : Agree own mine
      { s' with
        live := none
        status := ⟨some (s'.renderId seq), outcome.phase, outcome.message?⟩ }
      { t' with
        live := none
        status := ⟨some (t'.renderId seq), outcome.phase, outcome.message?⟩ } := by
    refine ⟨hframe.instanceId, hframe.lastSeq, rfl, ?_, ?_, hpart⟩
    · simp only [hframe.renderId_eq]
    · intro _
      exact hframe.latest (by rw [hbooks]; exact hsome)
  exact hsettled.setProgress seq _

theorem refuse (hsome : s.status.session.isSome = true) (seq : Nat) (message : String) :
    Agree own mine (s.refuse seq message) (t.refuse seq message) := by
  refine h.settle hsome seq _ rfl rfl ?_
  exact congrArg Surface.clearContainer h.part

theorem beginAwait {seq : Nat} (hlive : s.live = some seq) (host : HostId) :
    Agree own mine (s.beginAwait seq host) (t.beginAwait seq host) := by
  have hlive' : t.live = some seq := h.live.symm.trans hlive
  rw [beginAwait_eq hlive, beginAwait_eq hlive']
  refine setProgress ?_ seq _
  refine ⟨h.instanceId, h.lastSeq, h.live, ?_, h.latest, h.part⟩
  simp only [h.status]

/-- The live session shows a result in the same way. -/
theorem showResult (hsome : s.status.session.isSome = true) {seq : Nat} (hlive : s.live = some seq)
    (result : RenderResult) :
    Agree own mine (s.showResult seq result) (t.showResult seq result) := by
  have hisLive : s.isLive seq = true := by simp [isLive, hlive]
  have hisLive' : t.isLive seq = true := by simp [isLive, ← h.live, hlive]
  cases result with
  | crashed => exact h.setProgress seq _
  | artifact markup =>
    simp only [Scene.showResult, hisLive, hisLive', ↓reduceIte]
    refine h.settle hsome seq _ rfl rfl ?_
    change ((s.surface.clearContainer.mount _).remove _).part own mine =
      ((t.surface.clearContainer.mount _).remove _).part own mine
    rw [Surface.part_remove, Surface.part_remove, Surface.part_mount, Surface.part_mount,
      Surface.part_clearContainer, Surface.part_clearContainer, h.part, h.renderId_eq]
  | failed message =>
    simp only [Scene.showResult, hisLive, hisLive', ↓reduceIte]
    refine h.settle hsome seq _ rfl rfl ?_
    exact congrArg Surface.clearContainer h.part

theorem takeResult (hsome : s.status.session.isSome = true) {seq : Nat} (hlive : s.live = some seq)
    (host : HostId) (answer : Except String String) :
    Agree own mine (s.takeResult seq host answer) (t.takeResult seq host answer) := by
  have hconcluded : Agree own mine (s.onBench (s.toBench.conclude host answer).1)
      (t.onBench (t.toBench.conclude host answer).1) := by
    refine h.frame rfl rfl ?_
    change (s.toBench.conclude host answer).1.surface.part own mine =
      (t.toBench.conclude host answer).1.surface.part own mine
    rw [Bench.conclude_surface, Bench.conclude_surface, Surface.part_detachHost,
      Surface.part_detachHost, h.part]
  rw [Scene.takeResult, Scene.takeResult, Bench.conclude_result host answer s.toBench,
    Bench.conclude_result host answer t.toBench]
  exact hconcluded.showResult hsome hlive _

end Agree

/-! ## Sessions that were given up -/

variable {s s' : Scene σ ο} {x : Session}

/-- A session that was given up is the last one only after a teardown. -/
theorem Sound.session_eq_none (h : s.Sound) (hx : x ∈ s.sessions) (hcancelled : x.cancelled = true)
    (hlast : x.seq = s.lastSeq) : s.status.session = none := by
  cases h.display with
  | nothing live status => rw [status]
  | noDiagram live status container earlier => exact absurd hlast (Nat.ne_of_lt (earlier x hx))
  | underWay y mem last live kept =>
    rw [h.books.eq_of_seq_eq hx mem (hlast.trans last.symm), kept] at hcancelled
    cases hcancelled
  | settled y mem last live kept =>
    rw [h.books.eq_of_seq_eq hx mem (hlast.trans last.symm), kept] at hcancelled
    cases hcancelled

/-- What a session that was given up does with what is its own does not show in the front. -/
theorem Untouched.front_eq (hu : Untouched x s s') (h : s.Sound) (hx : x ∈ s.sessions)
    (hcancelled : x.cancelled = true) : s'.front = s.front := by
  have hne : s.status.session.isSome = true → x.seq ≠ s.lastSeq := by
    intro hsome hlast
    rw [h.session_eq_none hx hcancelled hlast] at hsome
    cases hsome
  have hinstance : s.instanceId = s'.instanceId := by rw [hu.books]
  have hlast : s.lastSeq = s'.lastSeq := by rw [hu.books]
  have hlive : s.live = s'.live := by rw [hu.books]
  have hstatus : s.status = s'.status := by rw [hu.books]
  have hagree : Agree (fun id => !(s.renderId x.seq).owns id) (fun h => !x.Holds h) s s' := by
    refine ⟨hinstance, hlast, hlive, hstatus, ?_, hu.surface.symm⟩
    intro hsome
    -- the last session is another one, and its record is where it was
    have hfind : ∀ sessions : List Session,
        sessions.find? (fun y => y.seq == s.lastSeq) =
          (sessions.filter fun y => y.seq != x.seq).find? fun y => y.seq == s.lastSeq := by
      intro sessions
      rw [List.find?_filter]
      congr 1
      funext y
      by_cases hy : y.seq = s.lastSeq
      · simp [hy, (hne hsome).symm]
      · simp [hy]
    rw [← hlast, session?, session?, hfind, hfind s'.sessions, hu.records]
  refine (hagree.front_eq ?_ ?_).symm
  · intro node hnode
    obtain ⟨hsome, howns⟩ : s.status.session.isSome = true ∧
        (s.renderId s.lastSeq).owns node = true := by simpa [ownsLatest] using hnode
    rw [Bool.not_eq_true', Bool.eq_false_iff]
    intro howns'
    exact hne hsome (InstanceId.seq_eq_of_owns howns' howns)
  · intro host hhost
    rw [Bool.not_eq_true', decide_eq_false_iff_not]
    intro hholds
    rw [hostsLatest, Bool.or_eq_true, decide_eq_true_iff, Option.any_eq_true] at hhost
    rcases hhost with hnew | ⟨y, hy, hwaiting⟩
    · exact absurd (h.books.attached_of_holds hx hholds) (Nat.not_le_of_lt hnew)
    · unfold latest? at hy
      split at hy
      · next hsome =>
        obtain ⟨hmem, hseq⟩ := session?_eq_some hy
        have heq := h.books.seq_eq_of_holds hx hmem hholds (.inl (by simpa using hwaiting))
        exact hne hsome (heq.trans hseq)
      · cases hy

/-! ## The live session -/

/-- A turn of the live session keeps to what belonged to the front. -/
theorem ownsLatest_of_outline_eq (h : s'.outline = s.outline) : s'.ownsLatest = s.ownsLatest := by
  simp only [outline, Outline.mk.injEq] at h
  obtain ⟨hinstance, hlast, hsession, -, -⟩ := h
  funext node
  rw [ownsLatest, ownsLatest, renderId, renderId, hinstance, hlast, hsession]

/-- A last session that awaits no call, or one in a new host, has no host that was another's. -/
theorem hostsLatest_of_progress (hattached : s.surface.attached ≤ s'.surface.attached)
    (hnew : ∀ y ∈ s'.sessions, y.seq = s'.lastSeq → ∀ host, y.progress = .waiting host →
      s.surface.attached < host.number) (host : HostId) (h : s'.hostsLatest host = true) :
    s.hostsLatest host = true := by
  have hlt : s.surface.attached < host.number := by
    rw [hostsLatest, Bool.or_eq_true, decide_eq_true_iff, Option.any_eq_true] at h
    rcases h with hlt | ⟨y, hy, hwaiting⟩
    · exact Nat.lt_of_le_of_lt hattached hlt
    · unfold latest? at hy
      split at hy
      · obtain ⟨hmem, hseq⟩ := session?_eq_some hy
        exact hnew y hmem hseq host (by simpa using hwaiting)
      · cases hy
  simp [hostsLatest, hlt]

/-- A session whose result was shown is over, and no host was attached for that. -/
theorem showResult_progress (seq : Nat) (result : RenderResult) (s : Scene σ ο) :
    (s.showResult seq result).surface.attached = s.surface.attached ∧
      ∀ y ∈ (s.showResult seq result).sessions, y.seq = seq → ∃ how, y.progress = .ended how := by
  cases result with
  | crashed => exact ⟨rfl, fun y hy hseq => ⟨_, progress_of_mem_setProgress hy hseq⟩⟩
  | artifact markup =>
    simp only [showResult]
    split
    · exact ⟨rfl, fun y hy hseq => ⟨_, progress_of_mem_setProgress hy hseq⟩⟩
    · exact ⟨rfl, fun y hy hseq => ⟨_, progress_of_mem_setProgress hy hseq⟩⟩
  | failed message =>
    simp only [showResult]
    split
    · exact ⟨rfl, fun y hy hseq => ⟨_, progress_of_mem_setProgress hy hseq⟩⟩
    · exact ⟨rfl, fun y hy hseq => ⟨_, progress_of_mem_setProgress hy hseq⟩⟩

theorem takeResult_progress (seq : Nat) (host : HostId) (answer : Except String String)
    (s : Scene σ ο) :
    (s.takeResult seq host answer).surface.attached = s.surface.attached ∧
      ∀ y ∈ (s.takeResult seq host answer).sessions, y.seq = seq →
        ∃ how, y.progress = .ended how := by
  obtain ⟨hattached, hended⟩ := showResult_progress seq (s.toBench.conclude host answer).2
    (s.onBench (s.toBench.conclude host answer).1)
  refine ⟨hattached.trans ?_, hended⟩
  change (s.toBench.conclude host answer).1.surface.attached = _
  rw [Bench.conclude_surface]
  rfl

end Scene

end DiagramView
