import DiagramView.Proofs.Showings

/-!
# The life of a session

What becomes of the sessions of a scheduler in a course of moves. The record of a session may change
in a move (`Session.Becomes`), but an end stands, and whoever was given up does not settle any more.
A session that has settled was shown to have settled, with its message, and a session that was shown
so has settled: `session_life_cycle` puts this together with the numbers of the sessions and the
phases that are seen of each.
-/

namespace DiagramView

variable {σ κ ο : Type}

/-! ## Records over time -/

/-- The records of a session at two times. -/
structure Session.Becomes (x y : Session) : Prop where
  seq : x.seq = y.seq
  ended : ∀ how, x.end? = some how → y.end? = some how
  cancelled : x.cancelled = true → y.cancelled = true
  unsettled : x.cancelled = true → ∀ outcome, y.end? = some (.settled outcome) →
    x.end? = some (.settled outcome)

namespace Session

variable {x y z : Session}

theorem Becomes.refl (x : Session) : x.Becomes x :=
  ⟨rfl, fun _ => id, id, fun _ _ => id⟩

theorem Becomes.trans (hxy : x.Becomes y) (hyz : y.Becomes z) : x.Becomes z where
  seq := hxy.seq.trans hyz.seq
  ended := fun how hend => hyz.ended how (hxy.ended how hend)
  cancelled := fun hcancelled => hyz.cancelled (hxy.cancelled hcancelled)
  unsettled := fun hcancelled outcome hend =>
    hxy.unsettled hcancelled outcome (hyz.unsettled (hxy.cancelled hcancelled) outcome hend)

/-- A session that is neither over nor given up may come to anything. -/
theorem Becomes.of_open (hopen : x.end? = none) (hkept : x.cancelled = false)
    (hseq : x.seq = y.seq) : x.Becomes y where
  seq := hseq
  ended := fun how hend => by rw [hopen] at hend; cases hend
  cancelled := fun hcancelled => by rw [hkept] at hcancelled; cases hcancelled
  unsettled := fun hcancelled => by rw [hkept] at hcancelled; cases hcancelled

theorem becomes_giveUp (live : Option Nat) (x : Session) : x.Becomes (x.giveUp live) := by
  have hend : (x.giveUp live).end? = x.end? := by simp only [end?, giveUp_progress]
  exact ⟨(giveUp_seq live x).symm, fun how h => hend.trans h, cancelled_giveUp,
    fun _ outcome h => hend.symm.trans h⟩

theorem progress_of_end {how : SessionEnd} (h : x.end? = some how) : x.progress = .ended how := by
  unfold end? at h
  split at h
  · next hended => rw [hended, Option.some.inj h]
  · cases h

end Session

theorem Outcome.eq_of_shown {o o' : Outcome} (hphase : o.phase = o'.phase)
    (hmessage : o.message? = o'.message?) : o = o' := by
  cases o <;> cases o' <;> simp_all [phase, message?]

namespace Scene

variable {s s' : Scene σ ο} {x : Session} {e : Engine σ Empty}

theorem becomes_update {seq : Nat} {f : Session → Session}
    (hf : ∀ y ∈ s.sessions, y.seq = seq → y.Becomes (f y)) (hx : x ∈ s.sessions) :
    ∃ y ∈ (s.update seq f).sessions, x.Becomes y := by
  refine ⟨_, mem_update.mpr ⟨x, hx, rfl⟩, ?_⟩
  split
  · next hseq => exact hf x hx hseq
  · exact .refl x

/-- An act ends a session once, and does not settle one that was given up. -/
theorem WellKept.becomes_act (h : s.WellKept) {y : Session} (hact : Act e s y s')
    (hx : x ∈ s.sessions) : ∃ z ∈ s'.sessions, x.Becomes z := by
  have hunique : ∀ {f : Session → Session}, y.Becomes (f y) →
      ∀ z ∈ s.sessions, z.seq = y.seq → z.Becomes (f z) := by
    intro f hf z hz hseq
    rw [h.eq_of_seq_eq hz hact.mem hseq]
    exact hf
  -- the session's end is its first one, and it is cancelled if the session was given up
  have hcancelled : ∀ abandoned, y.end? = none → y.cancelled = true →
      y.Becomes { y with progress := .ended .cancelled, abandoned } := by
    intro abandoned hopen hcancelled
    refine ⟨rfl, fun how hend => ?_, fun _ => hcancelled, fun _ outcome hend => by cases hend⟩
    rw [hopen] at hend
    cases hend
  cases hact with
  | stepBack hy hprogress hkept =>
    refine becomes_update (hunique ?_) hx
    exact .of_open (by simp [Session.end?, hprogress]) hkept rfl
  | discard hy hprogress hgiven =>
    have hopen : y.end? = none := by
      rcases hprogress with hcreated | hdeferred
      · simp [Session.end?, hcreated]
      · simp [Session.end?, hdeferred]
    refine becomes_update (s := s) (hunique ?_) hx
    exact hcancelled y.abandoned hopen hgiven
  | abandon host hy hprogress hgiven =>
    have hopen : y.end? = none := by simp [Session.end?, hprogress]
    have htwice : (s.update y.seq fun z => { z with abandoned := some host }).update y.seq
        (fun z => { z with progress := .ended .cancelled }) = _ :=
      update_update fun _ => rfl
    obtain ⟨z, hz, hxz⟩ := becomes_update
      (hunique (f := fun z => { z with abandoned := some host, progress := .ended .cancelled })
        (hcancelled (some host) hopen hgiven)) hx
    refine ⟨z, ?_, hxz⟩
    rw [← htwice] at hz
    exact hz
  | refuse error hy hprogress hkept =>
    refine becomes_update (s := s) (hunique ?_) hx
    exact .of_open (by simp [Session.end?, hprogress]) hkept rfl
  | begin keyword hy hprogress hkept =>
    rw [(beginAwait_frame y.seq _ _).2]
    refine becomes_update (s := s) (hunique ?_) hx
    exact .of_open (by simp [Session.end?, hprogress]) hkept rfl
  | takeResult host response hy hprogress hkept =>
    obtain ⟨how, hsessions⟩ := showResult_sessions y.seq
      (response.after.conclude host response.answer).2
      ((s.onBench response.after).onBench (response.after.conclude host response.answer).1)
    obtain ⟨z, hz, hxz⟩ := becomes_update (s := s)
      (hunique (f := fun z => { z with progress := .ended how })
        (.of_open (by simp [Session.end?, hprogress]) hkept rfl)) hx
    exact ⟨z, hsessions ▸ hz, hxz⟩
  | cleanUp host response =>
    rw [cleanUp_sessions]
    exact becomes_update (s := s) (fun z _ _ => ⟨rfl, fun _ => id, id, fun _ _ => id⟩) hx

theorem Sound.becomes_resume (h : s.Sound) (e : Engine σ Empty)
    (obey : Empty → Scene σ ο → Scene σ ο) (task : Task) (hx : x ∈ s.sessions) :
    ∃ y ∈ (s.resume e obey task).sessions, x.Becomes y := by
  have hturn : (s.resume e obey task).Sound ∧
      ∃ y ∈ (s.resume e obey task).sessions, x.Becomes y := by
    refine resume_induction (P := fun t => t.Sound ∧ ∃ y ∈ t.sessions, x.Becomes y) ?_ h.books
      ⟨h, x, hx, .refl x⟩ task
    rintro s₁ z s₂ ⟨hsound, y, hy, hxy⟩ hact
    obtain ⟨w, hw, hyw⟩ := hsound.books.becomes_act hact hy
    exact ⟨hsound.act hact, w, hw, hxy.trans hyw⟩
  exact hturn.2

theorem becomes_obey (order : Order) (hx : x ∈ s.sessions) :
    x.giveUp s.live ∈ (order.obey s).sessions := by
  have hmem : x.giveUp s.live ∈ s.sessions.map (·.giveUp s.live) := List.mem_map_of_mem hx
  cases order with
  | schedule text =>
    rw [Order.obey, schedule_toSchedule]
    exact List.mem_append_left _ hmem
  | teardown =>
    rw [Order.obey, teardown_toSchedule]
    exact hmem

theorem Sound.becomes_take (h : s.Sound) (e : Engine σ Empty) (move : Move σ ProcessCall)
    (hx : x ∈ s.sessions) : ∃ y ∈ (move.take e ProcessCall.obey s).sessions, x.Becomes y := by
  cases move with
  | call command =>
    cases command with
    | order given => exact ⟨_, becomes_obey given hx, x.becomes_giveUp s.live⟩
    | install config => exact ⟨x, hx, .refl x⟩
    | consult => exact ⟨x, hx, .refl x⟩
  | turn task => exact h.becomes_resume e _ task hx
  | insert parent node => exact ⟨x, hx, .refl x⟩
  | work engine => exact ⟨x, hx, .refl x⟩

theorem Sound.becomes_run (h : s.Sound) (e : Engine σ Empty) (moves : List (Move σ ProcessCall))
    (hx : x ∈ s.sessions) : ∃ y ∈ (s.run e ProcessCall.obey moves).sessions, x.Becomes y := by
  induction moves generalizing s x with
  | nil => exact ⟨x, hx, .refl x⟩
  | cons move moves ih =>
    obtain ⟨y, hy, hxy⟩ := h.becomes_take e move hx
    obtain ⟨z, hz, hyz⟩ := ih (h.takeProcess e move) hy
    exact ⟨z, hz, hxy.trans hyz⟩

theorem run_append (e : Engine σ Empty) (obey : κ → Scene σ ο → Scene σ ο)
    (before after : List (Move σ κ)) (s : Scene σ ο) :
    s.run e obey (before ++ after) = (s.run e obey before).run e obey after :=
  List.foldl_append

theorem Sound.run_instanceId (h : s.Sound) (e : Engine σ Empty)
    (moves : List (Move σ ProcessCall)) :
    (s.run e ProcessCall.obey moves).instanceId = s.instanceId := by
  induction moves generalizing s with
  | nil => rfl
  | cons move moves ih => exact (ih (h.takeProcess e move)).trans (take_instanceId h e move)

/-! ## Ends that are shown -/

/-- A last session that has settled is shown to have. -/
theorem Sound.status_of_settled (h : s.Sound) (hx : x ∈ s.sessions) {outcome : Outcome}
    (hsettled : x.end? = some (.settled outcome)) (hlast : x.seq = s.lastSeq)
    (hsession : s.status.session ≠ none) :
    s.status = ⟨some (s.renderId x.seq), outcome.phase, outcome.message?⟩ := by
  have hprogress := Session.progress_of_end hsettled
  cases h.display with
  | nothing live status => exact absurd (by rw [status]) hsession
  | noDiagram live status container earlier => exact absurd hlast (Nat.ne_of_lt (earlier x hx))
  | underWay y mem last live kept unsettled =>
    rw [h.books.eq_of_seq_eq hx mem (hlast.trans last.symm)] at hprogress
    exact absurd hprogress (unsettled outcome)
  | settled y mem last live kept outcome' progress markup supports status =>
    obtain rfl : x = y := h.books.eq_of_seq_eq hx mem (hlast.trans last.symm)
    rw [progress] at hprogress
    cases hprogress
    rw [status, hlast]

/-- Whoever is shown to have settled has, unless the text was blank. -/
theorem Sound.settled_of_status (h : s.Sound) {n : Nat} {outcome : Outcome}
    (hstatus : s.status = ⟨some (s.renderId n), outcome.phase, outcome.message?⟩) :
    n = s.lastSeq ∧ ((∀ x ∈ s.sessions, x.seq ≠ n) ∨
      ∃ x ∈ s.sessions, x.seq = n ∧ x.end? = some (.settled outcome)) := by
  have hlast : n = s.lastSeq :=
    InstanceId.renderId_injective (h.coherent.session _ (congrArg Status.session hstatus))
  refine ⟨hlast, ?_⟩
  cases h.display with
  | nothing live status =>
    rw [status] at hstatus
    cases hstatus
  | noDiagram live status container earlier =>
    exact .inl fun x hx hseq => absurd (hseq.trans hlast) (Nat.ne_of_lt (earlier x hx))
  | underWay y mem last live kept unsettled phase active status =>
    rw [status] at hstatus
    have hphase : phase = outcome.phase := congrArg Status.phase hstatus
    rw [hphase] at active
    cases outcome <;> cases active
  | settled y mem last live kept outcome' progress markup supports status =>
    rw [status] at hstatus
    obtain rfl : outcome' = outcome :=
      Outcome.eq_of_shown (congrArg Status.phase hstatus) (congrArg Status.message hstatus)
    exact .inr ⟨y, mem, last.trans hlast.symm, by rw [Session.end?, progress]⟩

/-- In a turn a session settles with its end shown. -/
theorem Sound.settled_of_turn (h : s.Sound) (e : Engine σ Empty) (task : Task) {y : Session}
    (hy : y ∈ ((Move.turn task).take e ProcessCall.obey s).sessions) {outcome : Outcome}
    (hsettled : y.end? = some (.settled outcome)) :
    (∃ x ∈ s.sessions, x.seq = y.seq ∧ x.end? = some (.settled outcome)) ∨
      ((Move.turn task).take e ProcessCall.obey s).status =
        ⟨some (s.renderId y.seq), outcome.phase, outcome.message?⟩ := by
  have hsound := h.takeProcess e (.turn task)
  have houtline : ((Move.turn task).take e ProcessCall.obey s).outline = s.outline :=
    h.outline_take e rfl
  obtain ⟨x, hx, hprecedes⟩ := h.precedes_resume task hy
  obtain ⟨z, hz, hxz⟩ := h.becomes_take e (.turn task) hx
  obtain rfl : z = y := hsound.books.eq_of_seq_eq hz hy (hxz.seq.symm.trans hprecedes.seq)
  cases hend : x.end? with
  | some how =>
    have hsame := hxz.ended how hend
    rw [hsettled] at hsame
    exact .inl ⟨x, hx, hxz.seq, hend.trans hsame.symm⟩
  | none =>
    -- the session was live before the turn, so that the status is about it
    have hkept : x.cancelled = false := by
      rw [Bool.eq_false_iff]
      intro hcancelled
      have hbefore := hxz.unsettled hcancelled outcome hsettled
      rw [hend] at hbefore
      cases hbefore
    have hlive := h.books.unfinished x hx hkept hend
    have hlastSeq : ((Move.turn task).take e ProcessCall.obey s).lastSeq = s.lastSeq :=
      congrArg Outline.lastSeq houtline
    have hsession : ((Move.turn task).take e ProcessCall.obey s).status.session =
        s.status.session := congrArg Outline.session houtline
    have hlast : z.seq = ((Move.turn task).take e ProcessCall.obey s).lastSeq :=
      hxz.seq.symm.trans ((h.of_live hx hlive).1.trans hlastSeq.symm)
    have hstatus := hsound.status_of_settled hy hsettled hlast
      (by rw [hsession, h.session_of_live hlive]; simp)
    rw [renderId, take_instanceId h e (.turn task)] at hstatus
    exact .inr hstatus

theorem settled_of_obey (order : Order) {y : Session} (hy : y ∈ (order.obey s).sessions)
    {outcome : Outcome} (hsettled : y.end? = some (.settled outcome)) :
    ∃ x ∈ s.sessions, x.seq = y.seq ∧ x.end? = some (.settled outcome) := by
  have hold : y ∈ s.sessions.map (·.giveUp s.live) →
      ∃ x ∈ s.sessions, x.seq = y.seq ∧ x.end? = some (.settled outcome) := by
    intro hy
    obtain ⟨x, hx, rfl⟩ := List.mem_map.mp hy
    refine ⟨x, hx, (Session.giveUp_seq _ x).symm, ?_⟩
    rw [Session.end?, Session.giveUp_progress] at hsettled
    exact hsettled
  cases order with
  | schedule text =>
    rw [Order.obey, schedule_toSchedule] at hy
    rcases List.mem_append.mp hy with hy | hnew
    · exact hold hy
    · split at hnew
      · cases hnew
      · cases List.mem_singleton.mp hnew
        cases hsettled
  | teardown =>
    rw [Order.obey, teardown_toSchedule] at hy
    exact hold hy

/-- Whoever has settled was shown to have at some time. -/
theorem Sound.settled_of_run (h : s.Sound) (e : Engine σ Empty)
    (moves : List (Move σ ProcessCall)) {y : Session}
    (hy : y ∈ (s.run e ProcessCall.obey moves).sessions) {outcome : Outcome}
    (hsettled : y.end? = some (.settled outcome)) :
    (∃ x ∈ s.sessions, x.seq = y.seq ∧ x.end? = some (.settled outcome)) ∨
      ∃ before after, moves = before ++ after ∧ (s.run e ProcessCall.obey before).status =
        ⟨some (s.renderId y.seq), outcome.phase, outcome.message?⟩ := by
  induction moves generalizing s with
  | nil => exact .inl ⟨y, hy, rfl, hsettled⟩
  | cons move moves ih =>
    rcases ih (h.takeProcess e move) hy with ⟨z, hz, hseq, hend⟩ | ⟨before, after, rfl, hstatus⟩
    · have hnow : (∃ x ∈ s.sessions, x.seq = z.seq ∧ x.end? = some (.settled outcome)) ∨
          (move.take e ProcessCall.obey s).status =
            ⟨some (s.renderId z.seq), outcome.phase, outcome.message?⟩ := by
        cases move with
        | call command =>
          cases command with
          | order given => exact .inl (settled_of_obey given hz hend)
          | install config => exact .inl ⟨z, hz, rfl, hend⟩
          | consult => exact .inl ⟨z, hz, rfl, hend⟩
        | turn task => exact h.settled_of_turn e task hz hend
        | insert parent node => exact .inl ⟨z, hz, rfl, hend⟩
        | work engine => exact .inl ⟨z, hz, rfl, hend⟩
      rw [hseq] at hnow
      exact hnow.imp_right fun hstatus => ⟨[move], moves, rfl, hstatus⟩
    · refine .inr ⟨move :: before, after, rfl, ?_⟩
      rw [renderId, take_instanceId h e move] at hstatus
      exact hstatus

/-- Whoever was shown to have settled has, for good. -/
theorem Sound.settled_run (h : s.Sound) (e : Engine σ Empty) {moves : List (Move σ ProcessCall)}
    {y : Session} (hy : y ∈ (s.run e ProcessCall.obey moves).sessions) {outcome : Outcome}
    (hstatus : s.status = ⟨some (s.renderId y.seq), outcome.phase, outcome.message?⟩) :
    y.end? = some (.settled outcome) := by
  have hsound := h.runProcess e moves
  obtain ⟨hlast, hnone | ⟨x, hx, hseq, hend⟩⟩ := h.settled_of_status hstatus
  · have hknown : s.Known (fun _ => False) y.seq :=
      ⟨Nat.le_of_eq hlast, fun x hx hseq => hnone x hx hseq⟩
    have hnever : (s.run e ProcessCall.obey moves).Sound ∧
        (s.run e ProcessCall.obey moves).Known (fun _ => False) y.seq :=
      run_invariant (P := fun t => t.Sound ∧ t.Known (fun _ => False) y.seq)
        (fun move t ht => ⟨ht.1.takeProcess e move, ht.2.take (fun _ => id) ht.1 e move⟩) moves
        ⟨h, hknown⟩
    exact (hnever.2.2 y hy rfl).elim
  · obtain ⟨z, hz, hxz⟩ := h.becomes_run e moves hx
    rw [← hsound.books.eq_of_seq_eq hz hy (hxz.seq.symm.trans hseq)]
    exact hxz.ended _ hend

/-! ## Sessions that were given up -/

/-- A turn ends the task of a session that was given up. -/
theorem Sound.ended_of_turn (h : s.Sound) (hstaged : s.Staged) (e : Engine σ Empty)
    (hx : x ∈ s.sessions) (hcancelled : x.cancelled = true) (i : InstanceId) {y : Session}
    (hy : y ∈ ((Move.turn ⟨i, x.seq, .session⟩).take e ProcessCall.obey s).sessions)
    (hseq : y.seq = x.seq) : y.end?.isSome = true := by
  have hsound := h.takeProcess e (.turn ⟨i, x.seq, .session⟩)
  obtain ⟨z, hz, hxz⟩ := h.becomes_take e (.turn ⟨i, x.seq, .session⟩) hx
  obtain rfl : z = y := hsound.books.eq_of_seq_eq hz hy (hxz.seq.symm.trans hseq.symm)
  change z ∈ (s.resumeSession e _ x.seq).sessions at hy
  cases hprogress : x.progress with
  | created =>
    rw [resumeSession_cancelled h.books hx (.inl hprogress) hcancelled] at hy
    simp [Session.end?, progress_of_mem_setProgress hy hseq]
  | deferred =>
    rw [resumeSession_cancelled h.books hx (.inr hprogress) hcancelled] at hy
    simp [Session.end?, progress_of_mem_setProgress hy hseq]
  | waiting host =>
    rw [resumeSession_waiting h.books hx hprogress, if_pos hcancelled] at hy
    simp [Session.end?, progress_of_mem_setProgress hy hseq]
  | running => exact absurd hprogress (hstaged.resting x hx)
  | ended how =>
    rw [hxz.ended how (by rw [Session.end?, hprogress])]
    rfl

theorem Sound.staged_run (h : s.Sound) (hstaged : s.Staged) (e : Engine σ Empty)
    (moves : List (Move σ ProcessCall)) : (s.run e ProcessCall.obey moves).Staged := by
  have hboth : (s.run e ProcessCall.obey moves).Sound ∧ (s.run e ProcessCall.obey moves).Staged :=
    run_invariant (P := fun t => t.Sound ∧ t.Staged)
      (fun move t ht => ⟨ht.1.takeProcess e move, ht.1.staged_take ht.2 e move⟩) moves ⟨h, hstaged⟩
  exact hboth.2

/-- A session that has not settled when an order comes never settles, and ends when its task has a
turn. -/
theorem Sound.unsettled_of_order (h : s.Sound) (hstaged : s.Staged) (e : Engine σ Empty)
    (order : Order) (moves : List (Move σ ProcessCall)) (hx : x ∈ s.sessions)
    (hunsettled : ∀ outcome, x.end? ≠ some (.settled outcome)) :
    ∃ y ∈ (s.run e ProcessCall.obey (.call (.order order) :: moves)).sessions, x.Becomes y ∧
      (∀ outcome, y.end? ≠ some (.settled outcome)) ∧
      ((∃ i, .turn ⟨i, x.seq, .session⟩ ∈ moves) → y.end? = some .cancelled) := by
  have hsound := h.obey order
  have hstaged' := hstaged.obey h.books order
  have hgiven := becomes_obey order hx
  have hend : (x.giveUp s.live).end? = x.end? := by
    simp only [Session.end?, Session.giveUp_progress]
  obtain ⟨y, hy, hxy⟩ := hsound.becomes_run e moves hgiven
  refine ⟨y, hy, (x.becomes_giveUp s.live).trans hxy, ?_⟩
  cases hopen : x.end? with
  | some how =>
    have hy' := hxy.ended how (hend.trans hopen)
    refine ⟨fun outcome hsettled => ?_, fun _ => ?_⟩
    · rw [hy'] at hsettled
      exact hunsettled outcome (hopen.trans hsettled)
    · cases how with
      | settled outcome => exact absurd hopen (hunsettled outcome)
      | cancelled => exact hy'
  | none =>
    -- the session was live, if it was not given up before
    have hcancelled : (x.giveUp s.live).cancelled = true := by
      cases hkept : x.cancelled with
      | true => exact Session.cancelled_giveUp hkept
      | false => simp [Session.giveUp, h.books.unfinished x hx hkept hopen]
    have hnever : ∀ outcome, y.end? ≠ some (.settled outcome) := by
      intro outcome hsettled
      have hbefore := hxy.unsettled hcancelled outcome hsettled
      rw [hend, hopen] at hbefore
      cases hbefore
    refine ⟨hnever, ?_⟩
    rintro ⟨i, hturn⟩
    obtain ⟨before, after, rfl⟩ := List.append_of_mem hturn
    obtain ⟨z, hz, hxz⟩ := hsound.becomes_run e before hgiven
    have hzseq : z.seq = x.seq := hxz.seq.symm.trans (Session.giveUp_seq _ x)
    have hsound' := hsound.runProcess e before
    obtain ⟨w, hw, hzw⟩ := hsound'.becomes_take e (.turn ⟨i, x.seq, .session⟩) hz
    have hended : w.end?.isSome = true := by
      rw [← hzseq] at hw
      exact hsound'.ended_of_turn (hsound.staged_run hstaged' e before) e hz
        (hxz.cancelled hcancelled) i hw hzw.seq.symm
    obtain ⟨how, hhow⟩ := Option.isSome_iff_exists.mp hended
    obtain ⟨v, hv, hwv⟩ :=
      (hsound'.takeProcess e (.turn ⟨i, x.seq, .session⟩)).becomes_run e after hw
    have hvy : v = y := by
      have hbooks := (hsound.runProcess e (before ++ .turn ⟨i, x.seq, .session⟩ :: after)).books
      refine hbooks.eq_of_seq_eq ?_ hy ?_
      · rw [run_append]
        exact hv
      · exact (hwv.seq.symm.trans hzw.seq.symm).trans (hxz.seq.symm.trans hxy.seq)
    have hfinal := hwv.ended how hhow
    rw [hvy] at hfinal
    cases how with
    | settled outcome => exact absurd hfinal (hnever outcome)
    | cancelled => exact hfinal

/-! ## Numbers and phases -/

/-- The id of the session that a move begins, that of a blank text included: the one that the status
shows after the call. -/
def begunId? (move : Move σ ProcessCall) (s : Scene σ ο) : Option RenderId :=
  match move.given? with
  | some (.schedule text) => (s.schedule text).1.status.session
  | some .teardown | none => none

/-- The ids of the sessions that a course begins. -/
def begunIds (e : Engine σ Empty) : List (Move σ ProcessCall) → Scene σ ο → List RenderId
  | [], _ => []
  | move :: moves, s =>
    (s.begunId? move).toList ++ begunIds e moves (move.take e ProcessCall.obey s)

/-- The phases in which statuses show a session. -/
def phasesOf (id : RenderId) (seen : List Status) : List Phase :=
  (seen.filter (·.session = some id)).map (·.phase)

/-- A move counts on when it begins a session, and only then. -/
theorem Sound.lastSeq_of_move (h : s.Sound) (e : Engine σ Empty) (move : Move σ ProcessCall) :
    (∃ text, move = .call (.order (.schedule text)) ∧
        s.begunId? move = some (s.renderId (s.lastSeq + 1)) ∧
        (move.take e ProcessCall.obey s).lastSeq = s.lastSeq + 1) ∨
      s.begunId? move = none ∧ (move.take e ProcessCall.obey s).lastSeq = s.lastSeq := by
  cases hgiven : move.given? with
  | none =>
    refine .inr ⟨?_, congrArg Outline.lastSeq (h.outline_take e hgiven)⟩
    rw [begunId?, hgiven]
  | some order =>
    obtain rfl := Move.eq_of_given hgiven
    cases order with
    | schedule text =>
      have houtline := schedule_outline text s
      exact .inl ⟨text, rfl, congrArg Outline.session houtline, congrArg Outline.lastSeq houtline⟩
    | teardown => exact .inr ⟨rfl, congrArg Outline.lastSeq (teardown_outline s)⟩

theorem Sound.begunIds_eq (h : s.Sound) (e : Engine σ Empty) (moves : List (Move σ ProcessCall)) :
    begunIds e moves s =
      (List.range' (s.lastSeq + 1) ((s.run e ProcessCall.obey moves).lastSeq - s.lastSeq)).map
        s.renderId := by
  induction moves generalizing s with
  | nil =>
    rw [begunIds, show (s.run e ProcessCall.obey []).lastSeq = s.lastSeq from rfl, Nat.sub_self]
    rfl
  | cons move moves ih =>
    have hsound := h.takeProcess e move
    have hids := ih hsound
    have hle := hsound.lastSeq_run e moves
    have hid : ∀ n, (move.take e ProcessCall.obey s).renderId n = s.renderId n := by
      intro n
      rw [renderId, take_instanceId h e move]
      rfl
    simp only [funext hid] at hids
    rw [begunIds, hids]
    change _ = (List.range' _ (((move.take e ProcessCall.obey s).run e ProcessCall.obey
      moves).lastSeq - s.lastSeq)).map s.renderId
    rcases h.lastSeq_of_move e move with ⟨text, -, hbegun, hlast⟩ | ⟨hbegun, hlast⟩
    · rw [hlast] at hle
      rw [hbegun, hlast]
      obtain ⟨k, hk⟩ := Nat.exists_eq_add_of_le hle
      rw [hk, show s.lastSeq + 1 + k - (s.lastSeq + 1) = k from by omega,
        show s.lastSeq + 1 + k - s.lastSeq = k + 1 from by omega, List.range'_succ]
      rfl
    · rw [hbegun, hlast]
      rfl

/-- The first thing that is seen of a new session is that it was scheduled, or that its text is
blank. -/
theorem Sound.phasesOf_seen (h : s.Sound) (e : Engine σ Empty)
    (moves : List (Move σ ProcessCall)) {n : Nat} (hnew : s.lastSeq < n)
    (hn : n ≤ (s.run e ProcessCall.obey moves).lastSeq) :
    ∃ p l, phasesOf (s.renderId n) (seen e moves s) = p :: l ∧
      (p = .scheduled ∨ p = .noDiagram) := by
  induction moves generalizing s with
  | nil => exact absurd hn (Nat.not_le_of_lt hnew)
  | cons move moves ih =>
    have hsound := h.takeProcess e move
    have hid : (move.take e ProcessCall.obey s).renderId n = s.renderId n := by
      rw [renderId, take_instanceId h e move]
      rfl
    by_cases hlater : (move.take e ProcessCall.obey s).lastSeq < n
    · -- nothing is seen of the session in this move
      have hnothing : (move.seen e s).filter (·.session = some (s.renderId n)) = [] := by
        refine List.filter_eq_nil_iff.mpr fun a ha hsession => ?_
        have hshown := (h.session_of_seen e ha).symm.trans (of_decide_eq_true hsession)
        have hlast := hsound.coherent.session _ hshown
        rw [← hid] at hlast
        exact absurd (InstanceId.renderId_injective hlast) (Nat.ne_of_gt hlater)
      obtain ⟨p, l, hphases, hp⟩ := ih hsound hlater hn
      rw [hid] at hphases
      refine ⟨p, l, ?_, hp⟩
      rw [phasesOf, seen, List.filter_append, hnothing]
      exact hphases
    · rcases h.lastSeq_of_move e move with ⟨text, rfl, -, hlast⟩ | ⟨-, hlast⟩
      · obtain rfl : n = s.lastSeq + 1 := by omega
        refine ⟨if Text.isBlankText text then .noDiagram else .scheduled,
          phasesOf (s.renderId (s.lastSeq + 1))
            (seen e moves ((Move.call (.order (.schedule text))).take e ProcessCall.obey s)),
          ?_, ?_⟩
        · rw [phasesOf, seen, h.books.seen_of_order, Order.obey, schedule_toSchedule]
          rw [List.singleton_append, List.filter_cons_of_pos (by simp), List.map_cons]
          rfl
        · split
          · exact .inr rfl
          · exact .inl rfl
      · omega

theorem Sound.isPassage_phasesOf (h : s.Sound) (hstaged : s.Staged) (e : Engine σ Empty)
    (moves : List (Move σ ProcessCall)) {n : Nat} (hnew : s.lastSeq < n)
    (hn : n ≤ (s.run e ProcessCall.obey moves).lastSeq) :
    Phase.IsPassage (changes (phasesOf (s.renderId n) (seen e moves s))) := by
  obtain ⟨p, l, hphases, hp⟩ := h.phasesOf_seen e moves hnew hn
  have hleads : (phasesOf (s.renderId n) (seen e moves s)).Pairwise
      fun p q => p.leadsTo q = true := by
    refine List.pairwise_map.mpr (((h.pairwise_seen hstaged e moves).filter _).imp_of_mem ?_)
    intro a b ha hb hab
    have ha' := of_decide_eq_true (List.mem_filter.mp ha).2
    have hb' := of_decide_eq_true (List.mem_filter.mp hb).2
    exact (hab n n ha' hb').2 rfl
  rw [hphases] at hleads ⊢
  exact Phase.isPassage_changes hleads hp

/-- In a move other than an order nothing is seen but a terminal phase that was shown before it. -/
theorem Sound.seen_of_terminal (h : s.Sound) (hstaged : s.Staged) (e : Engine σ Empty)
    {move : Move σ ProcessCall} (hgiven : move.given? = none)
    (hterminal : s.status.phase.isTerminal = true) :
    move.seen e s = [s.status] := by
  have hidle : s.live = none := by
    cases h.display with
    | nothing live => exact live
    | noDiagram live => exact live
    | underWay x mem last live kept unsettled phase active status =>
      rw [status] at hterminal
      have hopen : phase.isTerminal = false := by
        cases phase <;> first | rfl | cases active
      exact absurd hterminal (by rw [hopen]; exact Bool.false_ne_true)
    | settled x mem last live => exact live
  have hsilent : move.caller? s = none := by
    cases hcaller : move.caller? s with
    | none => rfl
    | some x =>
      obtain ⟨hx, hdue⟩ := isDue_of_caller hcaller
      have hlive := (h.live_of_due hx hdue).1
      rw [hidle] at hlive
      cases hlive
  rw [Move.seen, h.books.made_eq, hsilent, ((h.leads_take hstaged e hgiven).idle hidle).2]
  rfl

/-! ## The life cycle -/

/-- What is seen of the sessions of a scheduler in a course of moves, and how they end. -/
structure LifeCycle (e : Engine σ Empty) (s : Scene σ ο) (moves : List (Move σ ProcessCall)) :
    Prop where
  /-- The sessions get the numbers from one on, one after the other. -/
  ids : begunIds e moves s =
    (List.range' 1 (s.run e ProcessCall.obey moves).lastSeq).map s.renderId
  distinct : (begunIds e moves s).Nodup
  /-- A call for a text answers with the id of the session, unless the text is blank. -/
  answer : ∀ before text after, moves = before ++ .call (.order (.schedule text)) :: after →
    ((s.run e ProcessCall.obey before).schedule text).2 =
      if Text.isBlankText text then none
      else ((s.run e ProcessCall.obey before).schedule text).1.status.session
  begun : ∀ a ∈ seen e moves s, ∀ id, a.session = some id → id ∈ begunIds e moves s
  /-- The status never goes back to an older session. -/
  forward : (seen e moves s).Pairwise fun a b => ∀ m n, a.session = some (s.renderId m) →
    b.session = some (s.renderId n) → m ≤ n
  phases : ∀ id ∈ begunIds e moves s, Phase.IsPassage (changes (phasesOf id (seen e moves s)))
  /-- Only an order leaves a terminal phase. -/
  terminal : ∀ before move after, moves = before ++ move :: after → move.given? = none →
    (s.run e ProcessCall.obey before).status.phase.isTerminal = true →
      move.seen e (s.run e ProcessCall.obey before) = [(s.run e ProcessCall.obey before).status]
  /-- An end stands. -/
  once : ∀ before after, moves = before ++ after → ∀ n x,
    (s.run e ProcessCall.obey before).session? n = some x →
      ∃ y, (s.run e ProcessCall.obey moves).session? n = some y ∧
        ∀ how, x.end? = some how → y.end? = some how
  settled_iff : ∀ n x, (s.run e ProcessCall.obey moves).session? n = some x → ∀ outcome,
    x.end? = some (.settled outcome) ↔ ∃ before after, moves = before ++ after ∧
      (s.run e ProcessCall.obey before).status =
        ⟨some (s.renderId n), outcome.phase, outcome.message?⟩
  cancelled_iff : ∀ n x, (s.run e ProcessCall.obey moves).session? n = some x →
    (x.end? = some .cancelled ↔ x.end?.isSome = true ∧ ∀ (outcome : Outcome) before after,
      moves = before ++ after → (s.run e ProcessCall.obey before).status ≠
        ⟨some (s.renderId n), outcome.phase, outcome.message?⟩)
  /-- A session that has not settled when an order comes never does, and is cancelled when its task
  has its next turn. -/
  given_up : ∀ before order after, moves = before ++ .call (.order order) :: after → ∀ n x,
    (s.run e ProcessCall.obey before).session? n = some x →
      (∀ outcome, x.end? ≠ some (.settled outcome)) →
        ∃ y, (s.run e ProcessCall.obey moves).session? n = some y ∧
          (∀ outcome, y.end? ≠ some (.settled outcome)) ∧
          ((∃ i, .turn ⟨i, n, .session⟩ ∈ after) → y.end? = some .cancelled)

theorem schedule_snd (text : String) (s : Scene σ ο) :
    (s.schedule text).2 =
      if Text.isBlankText text then none else (s.schedule text).1.status.session := by
  simp only [schedule]
  split <;> rfl

theorem Staged.fresh (config : SharedConfig) (engine : σ) (i : InstanceId) (owner : ο) :
    (Scene.fresh config engine i owner).Staged := by
  refine ⟨?_, ?_⟩ <;>
    · intro x hx
      cases hx

/-- A session of a fresh scheduler has settled when, and only when, its end was shown. -/
theorem Sound.settled_iff_shown (h : s.Sound) (e : Engine σ Empty)
    (moves : List (Move σ ProcessCall)) (hnone : s.sessions = [])
    (hx : x ∈ (s.run e ProcessCall.obey moves).sessions) (outcome : Outcome) :
    x.end? = some (.settled outcome) ↔ ∃ before after, moves = before ++ after ∧
      (s.run e ProcessCall.obey before).status =
        ⟨some (s.renderId x.seq), outcome.phase, outcome.message?⟩ := by
  constructor
  · intro hsettled
    rcases h.settled_of_run e moves hx hsettled with ⟨y, hy, -⟩ | hshown
    · rw [hnone] at hy
      cases hy
    · exact hshown
  · rintro ⟨before, after, rfl, hstatus⟩
    rw [run_append] at hx
    refine (h.runProcess e before).settled_run e hx ?_
    rw [hstatus, renderId, renderId, h.run_instanceId e before]

/-- A session is cancelled when, and only when, it is over and no end of it was ever shown. -/
theorem Sound.cancelled_iff_not_shown (h : s.Sound) (e : Engine σ Empty)
    (moves : List (Move σ ProcessCall)) (hnone : s.sessions = [])
    (hx : x ∈ (s.run e ProcessCall.obey moves).sessions) :
    x.end? = some .cancelled ↔ x.end?.isSome = true ∧ ∀ (outcome : Outcome) before after,
      moves = before ++ after → (s.run e ProcessCall.obey before).status ≠
        ⟨some (s.renderId x.seq), outcome.phase, outcome.message?⟩ := by
  have hshown := h.settled_iff_shown e moves hnone hx
  constructor
  · intro hcancelled
    refine ⟨by rw [hcancelled]; rfl, fun outcome before after hmoves hstatus => ?_⟩
    have hsettled := (hshown outcome).mpr ⟨before, after, hmoves, hstatus⟩
    rw [hcancelled] at hsettled
    cases hsettled
  · rintro ⟨hended, hnever⟩
    obtain ⟨how, hhow⟩ := Option.isSome_iff_exists.mp hended
    cases how with
    | cancelled => exact hhow
    | settled outcome =>
      obtain ⟨before, after, hmoves, hstatus⟩ := (hshown outcome).mp hhow
      exact absurd hstatus (hnever outcome before after hmoves)

end Scene

/-- The sessions of a scheduler, in any course of moves. -/
theorem session_life_cycle (e : Engine σ Empty) (config : SharedConfig) (engine : σ)
    (i : InstanceId) (owner : ο) (moves : List (Move σ ProcessCall)) :
    Scene.LifeCycle e (Scene.fresh config engine i owner) moves := by
  have h := Scene.Sound.fresh config engine i owner
  have hstaged := Scene.Staged.fresh config engine i owner
  generalize hs : Scene.fresh config engine i owner = s at h hstaged ⊢
  have hzero : s.lastSeq = 0 := by rw [← hs]; rfl
  have hnone : s.sessions = [] := by rw [← hs]; rfl
  have hids := h.begunIds_eq e moves
  simp only [hzero, Nat.zero_add, Nat.sub_zero] at hids
  have hmem : ∀ {n}, n ≤ (s.run e ProcessCall.obey moves).lastSeq → s.lastSeq < n →
      s.renderId n ∈ Scene.begunIds e moves s := by
    intro n hn hnew
    rw [hids]
    exact List.mem_map_of_mem (List.mem_range'_1.mpr (by omega))
  have hfinal := h.runProcess e moves
  refine
    { ids := hids
      distinct := ?_
      answer := fun before text after _ => Scene.schedule_snd text _
      begun := ?_
      forward := (h.pairwise_seen hstaged e moves).imp fun hab m n ha hb => (hab m n ha hb).1
      phases := ?_
      terminal := ?_
      once := ?_
      settled_iff := ?_
      cancelled_iff := ?_
      given_up := ?_ }
  · rw [hids]
    refine List.Pairwise.map _ (fun m n hmn hid => hmn ?_) List.nodup_range'
    exact InstanceId.renderId_injective hid
  · intro a ha id hid
    rcases h.seen_after hstaged e moves ha hid with ⟨n, hnew, hn, rfl⟩ | ⟨hsession, -⟩
    · exact hmem hn hnew
    · rw [← hs] at hsession
      cases hsession
  · intro id hid
    rw [hids] at hid
    obtain ⟨n, hn, rfl⟩ := List.mem_map.mp hid
    have hn := List.mem_range'_1.mp hn
    exact h.isPassage_phasesOf hstaged e moves (by omega) (by omega)
  · rintro before move after rfl hgiven hterminal
    exact (h.runProcess e before).seen_of_terminal (h.staged_run hstaged e before) e hgiven
      hterminal
  · rintro before after rfl n x hfound
    obtain ⟨hx, rfl⟩ := Scene.session?_eq_some hfound
    obtain ⟨y, hy, hxy⟩ := (h.runProcess e before).becomes_run e after hx
    rw [← Scene.run_append] at hy
    exact ⟨y, hxy.seq ▸ hfinal.books.session?_of_mem hy, hxy.ended⟩
  · intro n x hfound
    obtain ⟨hx, rfl⟩ := Scene.session?_eq_some hfound
    exact h.settled_iff_shown e moves hnone hx
  · intro n x hfound
    obtain ⟨hx, rfl⟩ := Scene.session?_eq_some hfound
    exact h.cancelled_iff_not_shown e moves hnone hx
  · rintro before order after rfl n x hfound hunsettled
    obtain ⟨hx, rfl⟩ := Scene.session?_eq_some hfound
    obtain ⟨y, hy, hxy, hend⟩ := (h.runProcess e before).unsettled_of_order
      (h.staged_run hstaged e before) e order after hx hunsettled
    rw [← Scene.run_append] at hy
    exact ⟨y, hxy.seq ▸ hfinal.books.session?_of_mem hy, hend⟩

end DiagramView
