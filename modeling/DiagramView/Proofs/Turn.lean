import DiagramView.Proofs.Books

/-!
# What a turn can do

A turn of a task, said once. With an engine that makes no requests and with well-kept books, a turn
of a session's task does nothing, or one *act* (`Scene.Act`): the session steps back, is discarded,
leaves its call to a sweep, has its text refused, begins its call and waits for it, or takes the
result of its call over. A call that is over at once makes two acts of one turn. A turn of a sweep
does nothing, or cleans up after a call that is over.

Every act leads from a scene between turns to a scene between turns, and its result is written out
in full. What every act keeps every turn keeps (`Scene.resume_induction`).
-/

namespace DiagramView

namespace Scene

variable {σ ο : Type} {s : Scene σ ο}

/-! ## Parts of a turn -/

/-- A scene with another bench. -/
def onBench (s : Scene σ ο) (bench : Bench σ) : Scene σ ο :=
  { s with toBench := bench }

/-- A phase as the owner sees it, while there is one. -/
def shown (s : Scene σ ο) (phase : Phase) : Option Phase :=
  if s.closed then none else some phase

/-- A session leaves its call in a host to a sweep, and ends. -/
def abandon (seq : Nat) (host : HostId) (s : Scene σ ο) : Scene σ ο :=
  ((s.update seq fun x => { x with abandoned := some host }).wake seq .sweep).discard seq

/-- The text of a session is refused. -/
def refuse (seq : Nat) (message : String) (s : Scene σ ο) : Scene σ ο :=
  (s.report (.diagramRejected (s.renderId seq).text message)).clearContainer.settle seq
    (.parseError message)

/-- A session awaits its call in a host. -/
def beginAwait (seq : Nat) (host : HostId) (s : Scene σ ο) : Scene σ ο :=
  (s.setPhase seq .rendering).setProgress seq (.waiting host)

/-- The call of a session is over, and its result is shown. -/
def takeResult (seq : Nat) (host : HostId) (answer : Except String String) (s : Scene σ ο) :
    Scene σ ο :=
  (s.onBench (s.toBench.conclude host answer).1).showResult seq (s.toBench.conclude host answer).2

/-- The call that a session abandoned is over, and what it left is swept up. -/
def cleanUp (seq : Nat) (host : HostId) (answer : Except String String) (s : Scene σ ο) :
    Scene σ ο :=
  let s' := (s.onBench (s.toBench.conclude host answer).1).update seq fun x =>
    { x with abandoned := none }
  let swept := s'.sweep (s.renderId seq).owns
  match (s.toBench.conclude host answer).2 with
  | .crashed => s'
  | .artifact _ => swept.1.report (.lateDiscarded (s.renderId seq).text true swept.2)
  | .failed _ => swept.1.report (.lateDiscarded (s.renderId seq).text false swept.2)

/-! ## Changes that override each other -/

/-- Two changes of a record are one change. -/
theorem update_update {seq : Nat} {f g : Session → Session} (hf : ∀ x, (f x).seq = x.seq) :
    (s.update seq f).update seq g = s.update seq fun x => g (f x) := by
  have hmap : ∀ x : Session, (if (if x.seq = seq then f x else x).seq = seq then
      g (if x.seq = seq then f x else x) else if x.seq = seq then f x else x) =
        if x.seq = seq then g (f x) else x := by
    intro x
    by_cases h : x.seq = seq <;> simp [h, hf]
  simp only [update, List.map_map, Function.comp_def, hmap]

/-- A change that leaves the record of a session as it is changes nothing. -/
theorem update_eq_self {seq : Nat} {f : Session → Session}
    (hf : ∀ x ∈ s.sessions, x.seq = seq → f x = x) : s.update seq f = s := by
  have hmap : (s.sessions.map fun x => if x.seq = seq then f x else x) = s.sessions := by
    conv => rhs; rw [← List.map_id s.sessions]
    refine List.map_congr_left ?_
    intro x hx
    split
    · next heq => exact hf x hx heq
    · rfl
  simp only [update, hmap]

theorem session?_update {seq : Nat} {f : Session → Session} (hf : ∀ x, (f x).seq = x.seq)
    (n : Nat) :
    (s.update seq f).session? n =
      (s.session? n).map fun x => if x.seq = seq then f x else x := by
  simp only [session?, update, List.find?_map]
  congr 2
  funext x
  simp only [Function.comp_apply]
  split <;> simp [hf]

theorem setProgress_setProgress (s : Scene σ ο) (seq : Nat) (p q : Progress) :
    (s.setProgress seq p).setProgress seq q = s.setProgress seq q :=
  update_update fun _ => rfl

theorem settle_setProgress (s : Scene σ ο) (seq : Nat) (progress : Progress) (outcome : Outcome) :
    (s.setProgress seq progress).settle seq outcome = s.settle seq outcome :=
  setProgress_setProgress
    { s with live := none, status := ⟨some (s.renderId seq), outcome.phase, outcome.message?⟩ } seq
    progress _

theorem discard_setProgress (s : Scene σ ο) (seq : Nat) (progress : Progress) :
    (s.setProgress seq progress).discard seq = s.discard seq :=
  setProgress_setProgress
    ((s.sweep (s.renderId seq).owns).1.report
      (.staleDiscarded (s.renderId seq).text (s.sweep (s.renderId seq).owns).2)) seq progress _

theorem setPhase_of_live {seq : Nat} (hlive : s.live = some seq) (phase : Phase) :
    s.setPhase seq phase = { s with status := { s.status with phase } } := by
  simp [setPhase, isLive, hlive]

/-- How far the session had come does not matter to how its result is shown. -/
theorem showResult_setProgress (s : Scene σ ο) (seq : Nat) (progress : Progress)
    (result : RenderResult) :
    (s.setProgress seq progress).showResult seq result = s.showResult seq result := by
  have hisLive : (s.setProgress seq progress).isLive seq = s.isLive seq := rfl
  cases result with
  | crashed => exact setProgress_setProgress s seq progress _
  | artifact markup =>
    simp only [showResult, hisLive]
    split
    · refine Eq.trans ?_ (settle_setProgress _ seq progress _)
      rfl
    · exact discard_setProgress s seq progress
  | failed message =>
    simp only [showResult, hisLive]
    split
    · refine Eq.trans ?_ (settle_setProgress _ seq progress _)
      rfl
    · exact discard_setProgress s seq progress

theorem takeResult_setProgress (s : Scene σ ο) (seq : Nat) (progress : Progress) (host : HostId)
    (answer : Except String String) :
    (s.setProgress seq progress).takeResult seq host answer = s.takeResult seq host answer :=
  showResult_setProgress (s.onBench (s.toBench.conclude host answer).1) seq progress _

theorem abandon_setProgress (s : Scene σ ο) (seq : Nat) (progress : Progress) (host : HostId) :
    (s.setProgress seq progress).abandon seq host = s.abandon seq host := by
  have hleft :
      (s.setProgress seq progress).update seq (fun x => { x with abandoned := some host }) =
        s.update seq fun x => { x with progress, abandoned := some host } :=
    update_update fun _ => rfl
  have hright : (s.update seq fun x => { x with abandoned := some host }).setProgress seq progress =
      s.update seq fun x => { x with progress, abandoned := some host } :=
    update_update fun _ => rfl
  rw [abandon, hleft, ← hright]
  exact discard_setProgress ((s.update seq fun x => { x with abandoned := some host }).wake seq
    .sweep) seq progress

/-! ## Turns, case by case -/

variable {e : Engine σ Empty} {obey : Empty → Scene σ ο → Scene σ ο}

theorem absorb_eq {α : Type} (obey : Empty → Scene σ ο → Scene σ ο) (s : Scene σ ο)
    (response : Response (Bench σ) Empty α) :
    s.absorb obey response = s.onBench response.after := by
  have hfold : ∀ (deeds : List (Deed Empty)) (b : Bench σ),
      deeds.foldl (perform obey) (s.onBench b) = s.onBench (deeds.foldl Bench.afterDeed b) := by
    intro deeds
    induction deeds with
    | nil => exact fun b => rfl
    | cons deed deeds ih =>
      intro b
      cases deed with
      | insert parent node => exact ih _
      | report event => exact ih _
      | request command => exact nomatch command
  exact hfold response.deeds response.state

/-- Awaiting a call: the session is over, or the call is under way, or its result is shown. -/
theorem isCancelled_eq {seq : Nat} {x : Session} (hfound : s.session? seq = some x) :
    s.isCancelled seq = x.cancelled := by
  simp only [isCancelled, hfound]

theorem await_of_cancelled {seq : Nat} {host : HostId} (hcancelled : s.isCancelled seq = true) :
    s.await e obey seq host = s.abandon seq host := by
  simp only [await, hcancelled, ↓reduceIte, abandon]

theorem await_of_pending {seq : Nat} {host : HostId} (hkept : s.isCancelled seq = false)
    (hpoll : s.toBench.poll e host = none) :
    s.await e obey seq host = s.setProgress seq (.waiting host) := by
  simp only [await, hkept, hpoll, Bool.false_eq_true, ↓reduceIte]

theorem await_of_answered {seq : Nat} {host : HostId} (hkept : s.isCancelled seq = false)
    {response : Response (Bench σ) Empty (Except String String)}
    (hpoll : s.toBench.poll e host = some response) :
    s.await e obey seq host = (s.onBench response.after).takeResult seq host response.answer := by
  simp only [await, hkept, hpoll, Bool.false_eq_true, ↓reduceIte, absorb_eq]
  rfl

theorem beginRender_eq {seq : Nat} (hlive : s.live = some seq) (text : String) :
    s.beginRender e obey seq text =
      ((s.onBench (s.toBench.render e (s.shown .rendering) (s.renderId seq) text).after).setPhase
        seq .rendering).await e obey seq s.surface.nextHost := by
  have hlive' : (s.onBench (s.toBench.render e (s.shown .rendering) (s.renderId seq)
      text).after).live = some seq := hlive
  rw [setPhase_of_live hlive', beginRender, setPhase_of_live hlive, absorb_eq]
  rfl

theorem beginValidation_eq {seq : Nat} (hlive : s.live = some seq) (text : String) :
    s.beginValidation e obey seq text =
      match (s.toBench.validate e (s.shown .validating) text).answer with
      | .error error =>
        ((s.setPhase seq .validating).onBench
          (s.toBench.validate e (s.shown .validating) text).after).refuse seq error.message
      | .ok _ =>
        ((s.setPhase seq .validating).onBench
          (s.toBench.validate e (s.shown .validating) text).after).beginRender e obey seq text := by
  rw [beginValidation, setPhase_of_live hlive, absorb_eq]
  rfl

/-- What validating a session's text gives. -/
def verdict (e : Engine σ Empty) (s : Scene σ ο) (x : Session) :
    Response (Bench σ) Empty (Except ParseError Diagram.Keyword) :=
  s.toBench.validate e (s.shown .validating) x.text

/-- What beginning a session's call gives, once its text was validated. -/
def opening (e : Engine σ Empty) (s : Scene σ ο) (x : Session) :
    Response (Bench σ) Empty HostId :=
  (s.verdict e x).after.render e (s.shown .rendering) (s.renderId x.seq) x.text

theorem verdict_grows (e : Engine σ Empty) (s : Scene σ ο) (x : Session) :
    s.toBench.Grows (s.verdict e x).after :=
  (Bench.validate_grows e _ x.text s.toBench).trans (Response.after_grows _)

theorem verdict_container (e : Engine σ Empty) (s : Scene σ ο) (x : Session) :
    (s.verdict e x).after.surface.container = s.surface.container := by
  rw [Response.after_container, verdict, Bench.validate_surface]

theorem verdict_attached (e : Engine σ Empty) (s : Scene σ ο) (x : Session) :
    (s.verdict e x).after.surface.attached = s.surface.attached := by
  rw [Response.after_surface, (Surface.foldl_afterDeed _ _).2, verdict, Bench.validate_surface]

theorem opening_attached (e : Engine σ Empty) (s : Scene σ ο) (x : Session) :
    (s.opening e x).after.surface.attached = s.surface.attached + 1 := by
  rw [Response.after_surface, (Surface.foldl_afterDeed _ _).2, opening, Bench.render_surface]
  exact congrArg (· + 1) (s.verdict_attached e x)

theorem opening_grows (e : Engine σ Empty) (s : Scene σ ο) (x : Session) :
    (s.verdict e x).after.Grows (s.opening e x).after :=
  (Bench.render_grows e _ _ x.text _).trans (Response.after_grows _)

theorem opening_container (e : Engine σ Empty) (s : Scene σ ο) (x : Session) :
    (s.opening e x).after.surface.container = s.surface.container := by
  rw [Response.after_container, opening, Bench.render_surface]
  exact s.verdict_container e x

/-- A session whose text was accepted has its call on record once it has begun. -/
theorem began_of_opening {x : Session} {keyword : Diagram.Keyword}
    (hverdict : (s.verdict e x).answer = .ok keyword) :
    (s.opening e x).after.toRenderer.Began (s.renderId x.seq) x.text (s.opening e x).answer := by
  obtain ⟨hshape, haccepted⟩ := Bench.accepted_of_validate_ok hverdict
  refine ⟨hshape, (s.opening_grows e x).answers ?_, s.shown .rendering, ?_⟩
  · rw [Response.after_toRenderer]
    exact haccepted
  · rw [Response.after_toRenderer]
    exact Bench.called_of_render e _ _ x.text _

section Cases

variable (h : s.WellKept) {x : Session} (hx : x ∈ s.sessions)
include h hx

theorem session?_setProgress (progress : Progress) :
    (s.setProgress x.seq progress).session? x.seq = some { x with progress } := by
  rw [setProgress, session?_update, h.session?_of_mem hx]
  · simp
  · exact fun _ => rfl

theorem resumeSession_created (hprogress : x.progress = .created) (hkept : x.cancelled = false) :
    s.resumeSession e obey x.seq = (s.setProgress x.seq .deferred).setAside x.seq := by
  simp only [resumeSession, h.session?_of_mem hx, hprogress, hkept, Bool.false_eq_true, ↓reduceIte]

theorem resumeSession_cancelled (hprogress : x.progress = .created ∨ x.progress = .deferred)
    (hcancelled : x.cancelled = true) : s.resumeSession e obey x.seq = s.discard x.seq := by
  rcases hprogress with hcreated | hdeferred
  · simp only [resumeSession, h.session?_of_mem hx, hcreated, hcancelled, ↓reduceIte]
  · simp only [resumeSession, h.session?_of_mem hx, hdeferred, hcancelled, Bool.true_or,
      ↓reduceIte]

/-- A session whose turn it is to call the engine is live, and has its text validated. -/
theorem resumeSession_deferred (hprogress : x.progress = .deferred)
    (hkept : x.cancelled = false) :
    s.resumeSession e obey x.seq =
      match (s.verdict e x).answer with
      | .error error => (s.onBench (s.verdict e x).after).refuse x.seq error.message
      | .ok _ =>
        (((s.onBench (s.opening e x).after).setPhase x.seq .rendering).setProgress x.seq
          .running).await e obey x.seq (s.opening e x).answer := by
  have hopen : x.end? = none := by simp [Session.end?, hprogress]
  have hlive : s.live = some x.seq := h.unfinished x hx hkept hopen
  have hrunning : (s.setProgress x.seq .running).live = some x.seq := hlive
  have hvalidated : (((s.setProgress x.seq .running).setPhase x.seq .validating).onBench
      (s.verdict e x).after).live = some x.seq := by
    rw [setPhase_of_live hrunning]
    exact hlive
  have hopened : (s.onBench (s.opening e x).after).live = some x.seq := hlive
  have hturn : s.resumeSession e obey x.seq =
      (s.setProgress x.seq .running).beginValidation e obey x.seq x.text := by
    simp only [resumeSession, h.session?_of_mem hx, hprogress, hkept, isLive, hlive,
      beq_self_eq_true, Bool.not_true, Bool.or_self, Bool.false_eq_true, ↓reduceIte]
  rw [hturn, beginValidation_eq hrunning]
  change (match (s.verdict e x).answer with
    | .error error => _
    | .ok _ => _) = _
  cases (s.verdict e x).answer with
  | error error =>
    -- how far the session had come and which phase it showed are overridden
    rw [setPhase_of_live hrunning]
    exact settle_setProgress
      ((s.onBench (s.verdict e x).after).report
        (.diagramRejected (s.renderId x.seq).text error.message)).clearContainer x.seq .running _
  | ok keyword =>
    refine (beginRender_eq hvalidated x.text).trans ?_
    rw [setPhase_of_live hopened, setPhase_of_live hrunning, setPhase_of_live]
    · rfl
    · exact hlive

theorem resumeSession_refused (hprogress : x.progress = .deferred) (hkept : x.cancelled = false)
    {error : ParseError} (hverdict : (s.verdict e x).answer = .error error) :
    s.resumeSession e obey x.seq =
      (s.onBench (s.verdict e x).after).refuse x.seq error.message := by
  rw [resumeSession_deferred h hx hprogress hkept, hverdict]

/-- A session whose text was accepted awaits the call that was begun for it. -/
theorem resumeSession_begun (hprogress : x.progress = .deferred) (hkept : x.cancelled = false)
    {keyword : Diagram.Keyword} (hverdict : (s.verdict e x).answer = .ok keyword) :
    s.resumeSession e obey x.seq =
      match (s.opening e x).after.poll e (s.opening e x).answer with
      | none => (s.onBench (s.opening e x).after).beginAwait x.seq (s.opening e x).answer
      | some response =>
        (((s.onBench (s.opening e x).after).beginAwait x.seq (s.opening e x).answer).onBench
          response.after).takeResult x.seq (s.opening e x).answer response.answer := by
  have hopen : x.end? = none := by simp [Session.end?, hprogress]
  have hlive : (s.onBench (s.opening e x).after).live = some x.seq := h.unfinished x hx hkept hopen
  have hcancelled : (((s.onBench (s.opening e x).after).setPhase x.seq .rendering).setProgress x.seq
      .running).isCancelled x.seq = false := by
    have hfound := session?_setProgress h hx .running
    rw [setPhase_of_live hlive]
    exact (isCancelled_eq hfound).trans hkept
  have hbench : (((s.onBench (s.opening e x).after).setPhase x.seq .rendering).setProgress x.seq
      .running).toBench = (s.opening e x).after := by
    rw [setPhase_of_live hlive]
    rfl
  rw [resumeSession_deferred h hx hprogress hkept, hverdict]
  cases hpoll : (s.opening e x).after.poll e (s.opening e x).answer with
  | none =>
    refine (await_of_pending hcancelled (by rw [hbench, hpoll])).trans ?_
    exact setProgress_setProgress _ x.seq .running _
  | some response =>
    refine (await_of_answered hcancelled (by rw [hbench, hpoll])).trans ?_
    have hwaiting := takeResult_setProgress
      (((s.onBench (s.opening e x).after).setPhase x.seq .rendering).onBench response.after) x.seq
      (.waiting (s.opening e x).answer) (s.opening e x).answer response.answer
    have hrunning := takeResult_setProgress
      (((s.onBench (s.opening e x).after).setPhase x.seq .rendering).onBench response.after) x.seq
      .running (s.opening e x).answer response.answer
    exact hrunning.trans hwaiting.symm

theorem resumeSession_waiting {host : HostId} (hprogress : x.progress = .waiting host) :
    s.resumeSession e obey x.seq =
      if x.cancelled then s.abandon x.seq host
      else
        match s.toBench.poll e host with
        | none => s
        | some response =>
          (s.onBench response.after).takeResult x.seq host response.answer := by
  have hfound := session?_setProgress h hx .running
  have hturn : s.resumeSession e obey x.seq =
      (s.setProgress x.seq .running).await e obey x.seq host := by
    simp only [resumeSession, h.session?_of_mem hx, hprogress]
  rw [hturn]
  split
  · next hcancelled =>
    rw [await_of_cancelled ((isCancelled_eq hfound).trans hcancelled)]
    exact abandon_setProgress s x.seq .running host
  · next hcancelled =>
    have hkept : (s.setProgress x.seq .running).isCancelled x.seq = false :=
      (isCancelled_eq hfound).trans (Bool.not_eq_true _ ▸ hcancelled)
    cases hpoll : s.toBench.poll e host with
    | none =>
      rw [await_of_pending hkept hpoll, setProgress_setProgress]
      refine update_eq_self ?_
      intro y hy hseq
      rw [h.eq_of_seq_eq hy hx hseq, ← hprogress]
    | some response =>
      rw [await_of_answered hkept hpoll]
      exact takeResult_setProgress (s.onBench response.after) x.seq .running host response.answer

end Cases

theorem resumeSweep_eq {x : Session} (h : s.WellKept) (hx : x ∈ s.sessions) :
    s.resumeSweep e obey x.seq =
      match x.abandoned with
      | none => s
      | some host =>
        match s.toBench.poll e host with
        | none => s
        | some response =>
          (s.onBench response.after).cleanUp x.seq host response.answer := by
  have hfound := h.session?_of_mem hx
  cases habandoned : x.abandoned with
  | none => simp only [resumeSweep, hfound, Option.bind_some, habandoned]
  | some host =>
    cases hpoll : s.toBench.poll e host with
    | none => simp only [resumeSweep, hfound, Option.bind_some, habandoned, hpoll]
    | some response =>
      simp only [resumeSweep, hfound, Option.bind_some, habandoned, hpoll, absorb_eq, cleanUp]
      cases (Bench.conclude host response.answer (s.onBench response.after).toBench).2 <;> rfl

/-! ## Acts -/

/-- What the task of a session, or the sweep after it, does in a turn. -/
inductive Act (e : Engine σ Empty) (s : Scene σ ο) (x : Session) : Scene σ ο → Prop where
  | stepBack : x ∈ s.sessions → x.progress = .created → x.cancelled = false →
      Act e s x ((s.setProgress x.seq .deferred).setAside x.seq)
  | discard : x ∈ s.sessions → x.progress = .created ∨ x.progress = .deferred →
      x.cancelled = true → Act e s x (s.discard x.seq)
  | abandon (host : HostId) : x ∈ s.sessions → x.progress = .waiting host → x.cancelled = true →
      Act e s x (s.abandon x.seq host)
  | refuse (error : ParseError) : x ∈ s.sessions → x.progress = .deferred →
      x.cancelled = false → (s.verdict e x).answer = .error error →
      Act e s x ((s.onBench (s.verdict e x).after).refuse x.seq error.message)
  | begin (keyword : Diagram.Keyword) : x ∈ s.sessions → x.progress = .deferred →
      x.cancelled = false → (s.verdict e x).answer = .ok keyword →
      Act e s x ((s.onBench (s.opening e x).after).beginAwait x.seq (s.opening e x).answer)
  | takeResult (host : HostId) (response : Response (Bench σ) Empty (Except String String)) :
      x ∈ s.sessions → x.progress = .waiting host → x.cancelled = false →
      s.toBench.poll e host = some response →
      Act e s x ((s.onBench response.after).takeResult x.seq host response.answer)
  | cleanUp (host : HostId) (response : Response (Bench σ) Empty (Except String String)) :
      x ∈ s.sessions → x.abandoned = some host → s.toBench.poll e host = some response →
      Act e s x ((s.onBench response.after).cleanUp x.seq host response.answer)

/-- The scene of a session that has just begun its call. -/
theorem beginAwait_eq {seq : Nat} (hlive : s.live = some seq) (host : HostId) :
    s.beginAwait seq host =
      { s with status := { s.status with phase := .rendering } }.setProgress seq
        (.waiting host) := by
  rw [beginAwait, setPhase_of_live hlive]

/-- A turn of a session does nothing, or an act, or begins its call and takes the result over at
once. -/
theorem resumeSession_cases (h : s.WellKept) (seq : Nat) :
    s.resumeSession e obey seq = s ∨
      ∃ x, s.session? seq = some x ∧ x.end? = none ∧ (Act e s x (s.resumeSession e obey seq) ∨
        ∃ keyword, x.progress = .deferred ∧ x.cancelled = false ∧
          (s.verdict e x).answer = .ok keyword ∧
          Act e ((s.onBench (s.opening e x).after).beginAwait x.seq (s.opening e x).answer)
            { x with progress := .waiting (s.opening e x).answer }
            (s.resumeSession e obey seq)) := by
  cases hfound : s.session? seq with
  | none => exact .inl (by simp only [resumeSession, hfound])
  | some x =>
    obtain ⟨hx, rfl⟩ := session?_eq_some hfound
    cases hprogress : x.progress with
    | created =>
      refine .inr ⟨x, rfl, by simp [Session.end?, hprogress], .inl ?_⟩
      cases hcancelled : x.cancelled with
      | true =>
        rw [resumeSession_cancelled h hx (.inl hprogress) hcancelled]
        exact .discard hx (.inl hprogress) hcancelled
      | false =>
        rw [resumeSession_created h hx hprogress hcancelled]
        exact .stepBack hx hprogress hcancelled
    | deferred =>
      refine .inr ⟨x, rfl, by simp [Session.end?, hprogress], ?_⟩
      cases hcancelled : x.cancelled with
      | true =>
        rw [resumeSession_cancelled h hx (.inr hprogress) hcancelled]
        exact .inl (.discard hx (.inr hprogress) hcancelled)
      | false =>
        cases hverdict : (s.verdict e x).answer with
        | error error =>
          rw [resumeSession_refused h hx hprogress hcancelled hverdict]
          exact .inl (.refuse error hx hprogress hcancelled hverdict)
        | ok keyword =>
          rw [resumeSession_begun h hx hprogress hcancelled hverdict]
          cases hpoll : (s.opening e x).after.poll e (s.opening e x).answer with
          | none => exact .inl (.begin keyword hx hprogress hcancelled hverdict)
          | some response =>
            -- the call is over at once: the session waits for no turn in between
            have hlive : (s.onBench (s.opening e x).after).live = some x.seq :=
              h.unfinished x hx hcancelled (by simp [Session.end?, hprogress])
            refine .inr ⟨keyword, hprogress, rfl, rfl, .takeResult _ response ?_ rfl rfl ?_⟩
            · rw [beginAwait_eq hlive]
              exact mem_update.mpr ⟨x, hx, by simp [hcancelled]⟩
            · rw [beginAwait_eq hlive]
              exact hpoll
    | waiting host =>
      have hopen : x.end? = none := by simp [Session.end?, hprogress]
      rw [resumeSession_waiting h hx hprogress]
      cases hcancelled : x.cancelled with
      | true => exact .inr ⟨x, rfl, hopen, .inl (.abandon host hx hprogress hcancelled)⟩
      | false =>
        simp only [Bool.false_eq_true, ↓reduceIte]
        cases hpoll : s.toBench.poll e host with
        | none => exact .inl rfl
        | some response =>
          exact .inr ⟨x, rfl, hopen,
            .inl (.takeResult host response hx hprogress hcancelled hpoll)⟩
    | running => exact .inl (by simp only [resumeSession, hfound, hprogress])
    | ended how => exact .inl (by simp only [resumeSession, hfound, hprogress])

theorem resumeSweep_cases (h : s.WellKept) (seq : Nat) :
    s.resumeSweep e obey seq = s ∨
      ∃ x, s.session? seq = some x ∧ x.abandoned ≠ none ∧
        Act e s x (s.resumeSweep e obey seq) := by
  cases hfound : s.session? seq with
  | none => exact .inl (by simp only [resumeSweep, hfound, Option.bind_none])
  | some x =>
    obtain ⟨hx, rfl⟩ := session?_eq_some hfound
    rw [resumeSweep_eq h hx]
    cases habandoned : x.abandoned with
    | none => exact .inl rfl
    | some host =>
      cases hpoll : s.toBench.poll e host with
      | none => exact .inl (by simp only [hpoll])
      | some response =>
        refine .inr ⟨x, rfl, by simp [habandoned], ?_⟩
        simp only [hpoll]
        exact .cleanUp host response hx habandoned hpoll

/-- What every act keeps every turn keeps. -/
theorem resume_induction {P : Scene σ ο → Prop}
    (hact : ∀ {s x s'}, P s → Act e s x s' → P s') (h : s.WellKept) (hs : P s) (task : Task) :
    P (s.resume e obey task) := by
  unfold resume
  split
  · rcases resumeSession_cases h task.seq with
      heq | ⟨x, hfound, -, hone | ⟨keyword, hprogress, hkept, hverdict, hsecond⟩⟩
    · rw [heq]
      exact hs
    · exact hact hs hone
    · have hx := (session?_eq_some hfound).1
      exact hact (hact hs (.begin keyword hx hprogress hkept hverdict)) hsecond
  · rcases resumeSweep_cases h task.seq with heq | ⟨x, -, -, hone⟩
    · rw [heq]
      exact hs
    · exact hact hs hone

end Scene

end DiagramView
