import DiagramView.Proofs.Course
import DiagramView.Proofs.Part
import DiagramView.Proofs.Soundness

/-!
# Sessions that were given up

A session that was given up still has turns: it notices that it was given up, leaves its call to a
sweep, and the sweep cleans up once the call is over. None of this reaches beyond what is the
session's own (`Scene.Untouched`): its record, the nodes under its id, and the host of its call. The
engine has its share in that. While a sweep looks at a call, the engine may insert nodes, and these
have to bear the session's id (`Move.isTidy`).
-/

namespace DiagramView

variable {σ κ ο : Type}

instance (x : Session) (host : HostId) : Decidable (x.Holds host) :=
  inferInstanceAs (Decidable (_ ∨ _))

/-- Whether a deed inserts nothing but nodes of a session. -/
def Deed.isTaggedBy (id : RenderId) : Deed Empty → Bool
  | .insert _ node => id.owns node.id
  | .report _ => true

/-- Whether the engine inserts nothing but nodes of the session while a sweep looks at a call. -/
def Move.isTidy (e : Engine σ Empty) (s : Scene σ ο) : Move σ κ → Bool
  | .turn ⟨_, seq, .sweep⟩ =>
    ((s.session? seq).bind (·.abandoned)).all fun host =>
      (s.toBench.poll e host).all fun response =>
        response.deeds.all (·.isTaggedBy (s.renderId seq))
  | _ => true

/-- Whether a move may be one on behalf of a session: a turn of its task or of its sweep, a node
under its id, or work of the engine. -/
def Move.isOf (seq : Nat) (s : Scene σ ο) : Move σ κ → Bool
  | .call _ => false
  | .turn task => task.seq = seq
  | .insert _ node => (s.renderId seq).owns node.id
  | .work _ => true

namespace Scene

variable {s s' s'' : Scene σ ο} {x : Session}

/-- Nothing has changed but what is a session's own. -/
structure Untouched (x : Session) (s s' : Scene σ ο) : Prop where
  books : s'.toSchedule = { s.toSchedule with sessions := s'.sessions }
  records : (s'.sessions.filter fun y => y.seq != x.seq) =
    s.sessions.filter fun y => y.seq != x.seq
  surface : s'.surface.part (fun id => !(s.renderId x.seq).owns id) (fun h => !x.Holds h) =
    s.surface.part (fun id => !(s.renderId x.seq).owns id) (fun h => !x.Holds h)
  owner : s'.owner = s.owner

namespace Untouched

theorem renderId_eq (h : Untouched x s s') (seq : Nat) : s'.renderId seq = s.renderId seq := by
  rw [renderId, h.books]
  rfl

theorem of_surface (hbooks : s'.toSchedule = s.toSchedule)
    (hsurface : s'.surface.part (fun id => !(s.renderId x.seq).owns id) (fun h => !x.Holds h) =
      s.surface.part (fun id => !(s.renderId x.seq).owns id) (fun h => !x.Holds h))
    (howner : s'.owner = s.owner) : Untouched x s s' := by
  refine ⟨?_, ?_, hsurface, howner⟩
  · rw [hbooks]
  · rw [hbooks]

theorem refl (x : Session) (s : Scene σ ο) : Untouched x s s :=
  of_surface rfl rfl rfl

theorem trans (h : Untouched x s s') (h' : Untouched x s' s'') : Untouched x s s'' := by
  refine ⟨?_, h'.records.trans h.records, ?_, h'.owner.trans h.owner⟩
  · rw [h'.books, h.books]
  · have hsurface := h'.surface
    rw [h.renderId_eq] at hsurface
    exact hsurface.trans h.surface

/-- The record of the session may change. -/
theorem update {f : Session → Session} (hf : ∀ y, (f y).seq = y.seq) :
    Untouched x s (s.update x.seq f) := by
  refine ⟨rfl, ?_, rfl, rfl⟩
  have hfilter : ((fun y : Session => y.seq != x.seq) ∘ fun y => if y.seq = x.seq then f y else y) =
      fun y => y.seq != x.seq := by
    funext y
    simp only [Function.comp_apply]
    split
    · rw [hf]
    · rfl
  simp only [Scene.update, List.filter_map, hfilter]
  rw [List.map_congr_left, List.map_id]
  intro y hy
  have hne : y.seq ≠ x.seq := by simpa using (List.mem_filter.mp hy).2
  rw [if_neg hne]
  rfl

section Sweeping

variable (hcontainer : (s.surface.remove (s.renderId x.seq).owns).container = s.surface.container)
include hcontainer

/-- The nodes of the session may be swept up, if none of them is in the container. -/
theorem sweep : Untouched x s (s.sweep (s.renderId x.seq).owns).1 := by
  refine of_surface rfl ?_ rfl
  refine Surface.part_remove_of_not_own ?_ hcontainer
  intro id hid
  simpa using hid

theorem discard : Untouched x s (s.discard x.seq) := by
  have hreported : Untouched x (s.sweep (s.renderId x.seq).owns).1
      ((s.sweep (s.renderId x.seq).owns).1.report
        (.staleDiscarded (s.renderId x.seq).text (s.sweep (s.renderId x.seq).owns).2)) :=
    of_surface rfl rfl rfl
  exact ((sweep hcontainer).trans hreported).trans (update fun _ => rfl)

theorem abandon (host : HostId) : Untouched x s (s.abandon x.seq host) := by
  have hleft : Untouched x s (s.update x.seq fun y => { y with abandoned := some host }) :=
    update fun _ => rfl
  have hwoken : Untouched x (s.update x.seq fun y => { y with abandoned := some host })
      ((s.update x.seq fun y => { y with abandoned := some host }).wake x.seq .sweep) :=
    of_surface rfl rfl rfl
  exact (hleft.trans hwoken).trans (discard hcontainer)

theorem cleanUp {host : HostId} (hholds : x.Holds host) (answer : Except String String) :
    Untouched x s (s.cleanUp x.seq host answer) := by
  have hdetached : Untouched x s (s.onBench (s.toBench.conclude host answer).1) := by
    refine of_surface rfl ?_ rfl
    change (s.toBench.conclude host answer).1.surface.part _ _ = _
    rw [Bench.conclude_surface]
    exact Surface.part_detachHost_of_not_mine (by simp [hholds])
  have hleft : Untouched x s ((s.onBench (s.toBench.conclude host answer).1).update x.seq
      fun y => { y with abandoned := none }) :=
    hdetached.trans (update fun _ => rfl)
  have hswept : Untouched x s (((s.onBench (s.toBench.conclude host answer).1).update x.seq
      fun y => { y with abandoned := none }).sweep (s.renderId x.seq).owns).1 := by
    refine hleft.trans (sweep ?_)
    change ((s.toBench.conclude host answer).1.surface.remove _).container =
      (s.toBench.conclude host answer).1.surface.container
    rw [Bench.conclude_surface]
    exact hcontainer
  unfold Scene.cleanUp
  dsimp only
  split
  · exact hleft
  · exact hswept.trans (of_surface rfl rfl rfl)
  · exact hswept.trans (of_surface rfl rfl rfl)

end Sweeping

/-- A bench may be taken over on which the engine has inserted nodes of the session alone. -/
theorem onBench {α : Type} {response : Response (Bench σ) Empty α}
    (hsurface : response.state.surface = s.surface)
    (hdeeds : response.deeds.all (·.isTaggedBy (s.renderId x.seq)) = true) :
    Untouched x s (s.onBench response.after) := by
  refine of_surface rfl ?_ rfl
  change response.after.surface.part _ _ = _
  rw [Response.after_surface, hsurface]
  refine Surface.part_foldl_afterDeed_of_not_own ?_
  intro parent node hmem
  have htagged := List.all_eq_true.mp hdeeds _ hmem
  simpa [Deed.isTaggedBy] using htagged

end Untouched

/-! ## Moves of sessions that are not live -/

variable {e : Engine σ Empty} {obey : Empty → Scene σ ο → Scene σ ο}

theorem Sound.untouched_resumeSession (h : s.Sound) (hx : x ∈ s.sessions)
    (hcancelled : x.cancelled = true) : Untouched x s (s.resumeSession e obey x.seq) := by
  have hfound := h.books.session?_of_mem hx
  have hcontainer := h.container_remove hx hcancelled
  cases hprogress : x.progress with
  | created =>
    rw [resumeSession_cancelled h.books hx (.inl hprogress) hcancelled]
    exact .discard hcontainer
  | deferred =>
    rw [resumeSession_cancelled h.books hx (.inr hprogress) hcancelled]
    exact .discard hcontainer
  | waiting host =>
    rw [resumeSession_waiting h.books hx hprogress, if_pos hcancelled]
    exact .abandon hcontainer host
  | running =>
    simp only [resumeSession, hfound, hprogress]
    exact .refl x s
  | ended how =>
    simp only [resumeSession, hfound, hprogress]
    exact .refl x s

theorem Sound.untouched_resumeSweep (h : s.Sound) (hx : x ∈ s.sessions)
    (hcancelled : x.cancelled = true) {i : InstanceId}
    (htidy : (Move.turn ⟨i, x.seq, .sweep⟩ : Move σ κ).isTidy e s = true) :
    Untouched x s (s.resumeSweep e obey x.seq) := by
  rw [resumeSweep_eq h.books hx]
  cases habandoned : x.abandoned with
  | none => exact .refl x s
  | some host =>
    cases hpoll : s.toBench.poll e host with
    | none =>
      simp only [hpoll]
      exact .refl x s
    | some response =>
      simp only [Move.isTidy, h.books.session?_of_mem hx, Option.bind_some, habandoned,
        Option.all_some, hpoll] at htidy
      obtain ⟨hsurface, -, -⟩ := Bench.poll_eq_some hpoll
      have hanswered : Untouched x s (s.onBench response.after) := .onBench hsurface htidy
      simp only [hpoll]
      refine hanswered.trans (Untouched.cleanUp ?_ (.inr habandoned) response.answer)
      have hcontainer := h.container_remove hx hcancelled
      simp only [Surface.remove] at hcontainer ⊢
      change response.after.surface.container.filter _ = response.after.surface.container
      rw [Response.after_container, hsurface]
      exact hcontainer

theorem resume_of_not_found {obey : Empty → Scene σ ο → Scene σ ο} {task : Task}
    (h : s.session? task.seq = none) : s.resume e obey task = s := by
  unfold resume
  split
  · simp only [resumeSession, h]
  · simp only [resumeSweep, h, Option.bind_none]

/-- A turn that is not the live session's is one of a session that was given up, or nothing happens
in it. -/
theorem WellKept.stale_or_resume_eq (h : s.WellKept) {obey : Empty → Scene σ ο → Scene σ ο}
    {task : Task} (hx : x ∈ s.sessions) (hseq : x.seq = task.seq)
    (hsilent : ¬(task.role = .session ∧ s.live = some task.seq)) :
    x.cancelled = true ∨ s.resume e obey task = s := by
  obtain ⟨i, seq, role⟩ := task
  obtain rfl : x.seq = seq := hseq
  cases hcancelled : x.cancelled with
  | true => exact .inl rfl
  | false =>
    refine .inr ?_
    cases role with
    | session =>
      have hlive : s.live ≠ some x.seq := fun hlive => hsilent ⟨rfl, hlive⟩
      -- a session that was not given up and is not live is over
      cases hend : x.end? with
      | none => exact absurd (h.unfinished x hx hcancelled hend) hlive
      | some how =>
        have hprogress : x.progress = .ended how := by
          unfold Session.end? at hend
          split at hend
          · next hended => rw [hended, Option.some.inj hend]
          · cases hend
        simp only [resume, resumeSession, h.session?_of_mem hx, hprogress]
    | sweep =>
      simp only [resume, resumeSweep, h.session?_of_mem hx, Option.bind_some,
        h.not_abandoned hx hcancelled]

theorem Sound.not_live_of_cancelled (h : s.Sound) (hx : x ∈ s.sessions)
    (hcancelled : x.cancelled = true) : s.live ≠ some x.seq := by
  intro hlive
  rw [(h.of_live hx hlive).2.1] at hcancelled
  cases hcancelled

/-- A move on behalf of a session that is not live touches only what is the session's own. -/
theorem Sound.untouched (h : s.Sound) (hx : x ∈ s.sessions) (hlive : s.live ≠ some x.seq)
    (obey : κ → Scene σ ο → Scene σ ο) {move : Move σ κ} (hof : move.isOf x.seq s = true)
    (htidy : move.isTidy e s = true) : Untouched x s (move.take e obey s) := by
  cases move with
  | call order => cases hof
  | turn task =>
    obtain ⟨i, seq, role⟩ := task
    obtain rfl : seq = x.seq := by simpa [Move.isOf] using hof
    change Untouched x s (s.resume e _ ⟨i, x.seq, role⟩)
    have hother : ¬((⟨i, x.seq, role⟩ : Task).role = .session ∧ s.live = some x.seq) :=
      fun hboth => hlive hboth.2
    rcases h.books.stale_or_resume_eq hx rfl hother with hcancelled | hsame
    · cases role with
      | session => exact h.untouched_resumeSession hx hcancelled
      | sweep => exact h.untouched_resumeSweep hx hcancelled htidy
    · rw [hsame]
      exact .refl x s
  | insert parent node =>
    have howns : (s.renderId x.seq).owns node.id = true := hof
    refine .of_surface rfl ?_ rfl
    change (s.surface.insert parent node).part _ _ = _
    rw [Surface.part_insert, howns]
    rfl
  | work engine => exact .of_surface rfl rfl rfl

end Scene

end DiagramView
