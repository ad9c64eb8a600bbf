import DiagramView.Proofs.Conduct
import DiagramView.Proofs.Journal

/-!
# Engines that give orders

An engine may give orders in the course of any call, and so take the live slot from the very session
that made the call. A session looks whether it is live before it shows anything, with one exception:
when its text was refused it settles without looking. As long as no text is refused by a validation
in whose course its session lost the slot (`Scene.refusesLate`), scenes stay sound with such engines
too. A session then ends without having settled only if an order was given since the one that began
it, or its markup could not be neutralized; and once it is not live when one of its calls returns,
what is shown is left to orders (`sessions_yield_to_orders`). A late refusal never does that
(`Scene.Midway.not_heeds_refuse`).
-/

namespace DiagramView

variable {σ κ ο : Type}

namespace Scene

/-! ## Returns of calls -/

section Returns

variable (e : Engine σ κ) (obey : κ → Scene σ ο → Scene σ ο)

/-- The scene when the poll of a call returns with a result. -/
def pollReturns (host : HostId) (s : Scene σ ο) : List (Scene σ ο) :=
  ((s.toBench.poll e host).map (s.absorb obey)).toList

def awaitReturns (seq : Nat) (host : HostId) (s : Scene σ ο) : List (Scene σ ο) :=
  if s.isCancelled seq then [] else s.pollReturns e obey host

def renderReturns (seq : Nat) (text : String) (s : Scene σ ο) : List (Scene σ ο) :=
  let s := s.setPhase seq .rendering
  let response := s.toBench.render e s.phase? (s.renderId seq) text
  let s := s.absorb obey response
  s :: s.awaitReturns e obey seq response.answer

/-- What validating the text of a session gives. -/
def validation (seq : Nat) (text : String) (s : Scene σ ο) :
    Response (Bench σ) κ (Except ParseError Diagram.Keyword) :=
  let s := s.setPhase seq .validating
  s.toBench.validate e s.phase? text

/-- The scene when the validation returns. -/
def validated (seq : Nat) (text : String) (s : Scene σ ο) : Scene σ ο :=
  (s.setPhase seq .validating).absorb obey (s.validation e seq text)

def validationReturns (seq : Nat) (text : String) (s : Scene σ ο) : List (Scene σ ο) :=
  s.validated e obey seq text ::
    match (s.validation e seq text).answer with
    | .error _ => []
    | .ok _ => (s.validated e obey seq text).renderReturns e obey seq text

/-- The scenes in a turn in which a call on the engine returns, with all that was done in its
course. -/
def returns (task : Task) (s : Scene σ ο) : List (Scene σ ο) :=
  match task.role, s.session? task.seq with
  | _, none => []
  | .session, some x =>
    match x.progress with
    | .deferred =>
      if x.cancelled || !s.isLive task.seq then []
      else (s.setProgress task.seq .running).validationReturns e obey task.seq x.text
    | .waiting host => (s.setProgress task.seq .running).awaitReturns e obey task.seq host
    | _ => []
  | .sweep, some x => x.abandoned.toList.flatMap fun host => s.pollReturns e obey host

/-- Whether a text is refused by a validation in whose course its session lost the live slot. -/
def validatesLate (seq : Nat) (text : String) (s : Scene σ ο) : Bool :=
  !(s.validated e obey seq text).isLive seq && !(s.validation e seq text).answer.toBool

/-- Whether that happens in a turn. -/
def refusesLate (task : Task) (s : Scene σ ο) : Bool :=
  match task.role, s.session? task.seq with
  | .session, some x =>
    x.progress = .deferred && !x.cancelled && s.isLive task.seq &&
      (s.setProgress task.seq .running).validatesLate e obey task.seq x.text
  | _, _ => false

variable {e obey} {s : Scene σ ο} {seq : Nat} {text : String}

theorem beginValidation_of_refused {error : ParseError}
    (hverdict : (s.validation e seq text).answer = .error error) :
    s.beginValidation e obey seq text = (s.validated e obey seq text).refuse seq error.message := by
  unfold validation at hverdict
  unfold beginValidation
  dsimp only at hverdict ⊢
  rw [hverdict]
  rfl

theorem beginValidation_of_accepted {keyword : Diagram.Keyword}
    (hverdict : (s.validation e seq text).answer = .ok keyword) :
    s.beginValidation e obey seq text =
      (s.validated e obey seq text).beginRender e obey seq text := by
  unfold validation at hverdict
  unfold beginValidation
  dsimp only at hverdict ⊢
  rw [hverdict]
  rfl

end Returns

variable {s s' : Scene σ (List Order)} {x : Session} {e : Engine σ Order} {seq : Nat}

/-! ## The midst of a turn -/

/-- The task of a session has its turn. -/
structure Midway (seq : Nat) (text : String) (s : Scene σ (List Order)) : Prop where
  ordered : s.Ordered
  running : ∃ x ∈ s.sessions, x.seq = seq ∧ x.text = text ∧ x.progress = .running

/-- What a stretch of a session's turn comes to: the scene is in order, and the session yields from
the start of the stretch and from every return of a call in it. -/
structure Carried (n : Nat) (s : Scene σ (List Order)) (returns : List (Scene σ (List Order)))
    (s' : Scene σ (List Order)) : Prop where
  ordered : s'.Ordered
  yields : s.Yields n s'
  returns : ∀ r ∈ returns, n ≤ r.lastSeq ∧ r.Yields n s'

namespace Carried

variable {n : Nat} {r : Scene σ (List Order)} {returns : List (Scene σ (List Order))}

theorem of_yields (hordered : s'.Ordered) (hyields : s.Yields n s') : Carried n s [] s' :=
  ⟨hordered, hyields, fun _ hr => by cases hr⟩

/-- A stretch may be continued backwards. -/
theorem before (h : Carried n r returns s') (hyields : s.Yields n r) : Carried n s returns s' :=
  ⟨h.ordered, hyields.trans h.yields, h.returns⟩

/-- Where a stretch starts a call may just have returned. -/
theorem cons (h : Carried n s returns s') (hn : n ≤ s.lastSeq) : Carried n s (s :: returns) s' :=
  ⟨h.ordered, h.yields, List.forall_mem_cons.mpr ⟨⟨hn, h.yields⟩, h.returns⟩⟩

end Carried

theorem Ordered.setProgress (h : s.Ordered) (hx : x ∈ s.sessions) (hopen : x.end? = none)
    {progress : Progress} (hunended : ∀ how, progress ≠ .ended how)
    (hbegan : ∀ host, progress = .waiting host →
      s.toRenderer.Began (s.renderId x.seq) x.text host) :
    (s.setProgress x.seq progress).Ordered :=
  ⟨h.sound.setProgress hx hopen (fun outcome => hunended (.settled outcome)) hbegan,
    h.entered.setProgress fun hended => absurd hended (hunended .cancelled)⟩

theorem Ordered.discard (h : s.Ordered) (hx : x ∈ s.sessions) (hopen : x.end? = none)
    (hcancelled : x.cancelled = true) :
    (s.discard x.seq).Ordered ∧ s.Heeds (s.discard x.seq) := by
  refine ⟨⟨h.sound.discard hx hopen hcancelled, h.entered.discard ?_⟩, .of_eq rfl ?_⟩
  · intro y hy heq
    rw [h.sound.books.eq_of_seq_eq hy hx heq, hcancelled]
  · exact congrArg (Face.mk _ _ _ _) (h.sound.container_remove hx hcancelled)

theorem Ordered.abandon (h : s.Ordered) (hx : x ∈ s.sessions) {host : HostId}
    (hprogress : x.progress = .waiting host) (hcancelled : x.cancelled = true) :
    (s.abandon x.seq host).Ordered ∧ s.Heeds (s.abandon x.seq host) := by
  refine ⟨⟨h.sound.abandon hx hprogress hcancelled, ?_⟩, .of_eq rfl ?_⟩
  · have hleft : ((s.update x.seq fun y => { y with abandoned := some host }).wake x.seq
        .sweep).Entered :=
      (h.entered.setAbandoned x.seq (some host)).frame rfl rfl rfl rfl (.refl _)
    refine hleft.discard ?_
    intro y hy heq
    obtain ⟨z, hz, rfl⟩ := mem_update.mp hy
    split at heq
    · next hseq => rw [if_pos hseq, h.sound.books.eq_of_seq_eq hz hx hseq, hcancelled]
    · next hne => exact absurd heq hne
  · exact congrArg (Face.mk _ _ _ _) (h.sound.container_remove hx hcancelled)

theorem Ordered.refuse (h : s.Ordered) (hx : x ∈ s.sessions) (hlive : s.live = some x.seq)
    {message : String}
    (hsupports : s.toRenderer.Supports (s.renderId x.seq) x.text (.parseError message) none) :
    (s.refuse x.seq message).Ordered := by
  refine ⟨h.sound.settle hx hlive ?_ ?_ ?_ hsupports ?_, ?_⟩
  case refine_5 =>
    refine Entered.settle (h.entered.frame ?_ ?_ ?_ ?_ ?_) x.seq (.parseError message)
    case refine_5 => exact .refl _
    all_goals rfl
  all_goals rfl

theorem Ordered.cleanUp (h : s.Ordered) (hx : x ∈ s.sessions) (hcancelled : x.cancelled = true)
    (host : HostId) (answer : Except String String) :
    (s.cleanUp x.seq host answer).Ordered ∧ s.Heeds (s.cleanUp x.seq host answer) := by
  have hwithin : s.toRenderer.Within (s.toBench.conclude host answer).1.toRenderer :=
    (Bench.conclude_grows host answer s.toBench).within
  have hconcluded : (s.onBench (s.toBench.conclude host answer).1).Entered :=
    h.entered.frame rfl rfl rfl rfl hwithin
  have hleft := hconcluded.setAbandoned x.seq none
  have hcontainer : (s.toBench.conclude host answer).1.surface.container =
      s.surface.container := by
    rw [Bench.conclude_surface]
    rfl
  have hswept := (h.sound.conclude host answer).container_remove hx hcancelled
  refine ⟨⟨h.sound.cleanUp hx hcancelled host answer, ?_⟩, ?_⟩
  · unfold Scene.cleanUp
    dsimp only
    split
    · exact hleft
    · exact hleft.frame rfl rfl rfl rfl (.refl _)
    · exact hleft.frame rfl rfl rfl rfl (.refl _)
  · unfold Scene.cleanUp
    dsimp only
    split
    · exact .of_eq rfl (congrArg (Face.mk _ _ _ _) hcontainer)
    · exact .of_eq rfl (congrArg (Face.mk _ _ _ _) (hswept.trans hcontainer))
    · exact .of_eq rfl (congrArg (Face.mk _ _ _ _) (hswept.trans hcontainer))

/-- A session that is not live shows nothing of its result. -/
theorem showResult_of_not_live (hlive : s.live ≠ some seq) (result : RenderResult) :
    s.showResult seq result = s.setProgress seq (.ended .cancelled) ∨
      s.showResult seq result = s.discard seq := by
  cases result with
  | crashed => exact .inl rfl
  | artifact markup => exact .inr (by simp [showResult, isLive, hlive])
  | failed message => exact .inr (by simp [showResult, isLive, hlive])

/-- A session whose result is shown gives up the live slot if it gives up anything. -/
theorem showResult_ages (seq : Nat) (result : RenderResult) (s : Scene σ (List Order)) :
    s.Ages (s.showResult seq result) := by
  cases result with
  | crashed => exact .of_live rfl (.inr rfl)
  | artifact markup =>
    simp only [showResult]
    split
    · exact .of_live rfl (.inl rfl)
    · exact .of_live rfl (.inr rfl)
  | failed message =>
    simp only [showResult]
    split
    · exact .of_live rfl (.inl rfl)
    · exact .of_live rfl (.inr rfl)

namespace Midway

variable {text : String} {host : HostId}

theorem pass (h : Midway seq text s) (hpasses : s.Passes s') : Midway seq text s' := by
  obtain ⟨x, hx, hseq, htext, hrunning⟩ := h.running
  obtain ⟨y, hy, hseq', htext', hprogress, -⟩ := hpasses.sessions x hx
  exact ⟨hpasses.ordered h.ordered, y, hy, hseq'.trans hseq, htext'.trans htext,
    hprogress.trans hrunning⟩

theorem le_lastSeq (h : Midway seq text s) : seq ≤ s.lastSeq := by
  obtain ⟨x, hx, rfl, -⟩ := h.running
  exact h.ordered.sound.books.numbered x hx

/-- A session that lost the live slot in its turn was given up. -/
theorem cancelled (h : Midway seq text s) (hlive : s.live ≠ some seq) (hx : x ∈ s.sessions)
    (hseq : x.seq = seq) : x.cancelled = true := by
  obtain ⟨y, hy, hseq', -, hrunning⟩ := h.running
  obtain rfl := h.ordered.sound.books.eq_of_seq_eq hx hy (hseq.trans hseq'.symm)
  cases hcancelled : x.cancelled with
  | true => rfl
  | false =>
    have hopen : x.end? = none := by simp [Session.end?, hrunning]
    exact absurd (hseq ▸ h.ordered.sound.books.unfinished x hx hcancelled hopen) hlive

theorem setPhase (h : Midway seq text s) (phase : Phase) (hphase : phase.isUnderWay = true) :
    Midway seq text (s.setPhase seq phase) ∧ s.Yields seq (s.setPhase seq phase) := by
  by_cases hlive : s.live = some seq
  · refine ⟨⟨⟨h.ordered.sound.setPhase hlive hphase, ?_⟩, ?_⟩, .of_live hlive ?_⟩ <;>
      rw [setPhase_of_live hlive]
    · exact h.ordered.entered.frame rfl rfl rfl rfl (.refl _)
    · exact h.running
    · exact .of_live rfl (.inr rfl)
  · have hsame : s.setPhase seq phase = s := by simp [Scene.setPhase, isLive, hlive]
    rw [hsame]
    exact ⟨h, (Heeds.refl s).yields⟩

theorem rest (h : Midway seq text s)
    (hbegan : s.toRenderer.Began (s.renderId seq) text host) :
    (s.setProgress seq (.waiting host)).Ordered := by
  obtain ⟨x, hx, rfl, rfl, hrunning⟩ := h.running
  refine h.ordered.setProgress hx (by simp [Session.end?, hrunning]) (by simp) ?_
  intro other heq
  cases heq
  exact hbegan

/-- The result of a call is shown if its session is live, and else what the session left is swept
up. -/
theorem takeResult (h : Midway seq text s)
    (hbegan : s.toRenderer.Began (s.renderId seq) text host) {answer : Except String String}
    (hanswer : .result host answer ∈ s.answers) :
    (s.takeResult seq host answer).Ordered ∧ s.Yields seq (s.takeResult seq host answer) := by
  obtain ⟨x, hx, rfl, rfl, hrunning⟩ := h.running
  have hopen : x.end? = none := by simp [Session.end?, hrunning]
  have hpasses : s.Passes (s.onBench (s.toBench.conclude host answer).1) := by
    refine .frame rfl rfl ?_ (Bench.conclude_grows host answer s.toBench)
    change (s.toBench.conclude host answer).1.surface.container = _
    rw [Bench.conclude_surface]
    rfl
  have hconcluded := hpasses.ordered h.ordered
  by_cases hlive : s.live = some x.seq
  · refine ⟨⟨h.ordered.sound.takeResult hx hopen hlive hbegan hanswer, ?_⟩,
      .of_live hlive (hpasses.heeds.ages.trans (showResult_ages x.seq _ _))⟩
    refine hconcluded.entered.showResult hlive fun hcrashed => ?_
    obtain ⟨raw, rfl, hmarkup⟩ := Bench.answer_of_conclude_crashed hcrashed
    obtain ⟨phase, hcall⟩ := hbegan.called
    exact Renderer.Crashed.mono ⟨x.text, host, phase, raw, hcall, hanswer, hmarkup⟩
      hpasses.grows.within
  · have hcancelled := h.cancelled hlive hx rfl
    rcases (s.onBench (s.toBench.conclude host answer).1).showResult_of_not_live hlive
      (s.toBench.conclude host answer).2 with hended | hdiscarded
    · rw [Scene.takeResult, hended]
      refine ⟨⟨hconcluded.sound.setProgress hx hopen (by simp) (by simp), ?_⟩, ?_⟩
      · refine hconcluded.entered.setProgress fun _ y hy heq => .inl ?_
        rw [h.ordered.sound.books.eq_of_seq_eq hy hx heq, hcancelled]
      · exact (hpasses.heeds.trans (.setProgress _ x.seq _)).yields
    · rw [Scene.takeResult, hdiscarded]
      obtain ⟨hordered, hheeds⟩ := hconcluded.discard hx hopen hcancelled
      exact ⟨hordered, (hpasses.heeds.trans hheeds).yields⟩

theorem await (h : Midway seq text s) (hbegan : s.toRenderer.Began (s.renderId seq) text host) :
    Carried seq s (s.awaitReturns e Order.enter seq host) (s.await e Order.enter seq host) := by
  obtain ⟨x, hx, hseq, htext, hrunning⟩ := h.running
  have hfound : s.session? seq = some x := hseq ▸ h.ordered.sound.books.session?_of_mem hx
  have hcancelled : s.isCancelled seq = x.cancelled := isCancelled_eq hfound
  unfold awaitReturns Scene.await
  rw [hcancelled]
  cases hgiven : x.cancelled with
  | true =>
    -- as if the session had waited for its call before it was given up
    have hwaiting := h.rest hbegan
    have hx' : { x with progress := .waiting host } ∈
        (s.setProgress seq (.waiting host)).sessions :=
      mem_update.mpr ⟨x, hx, if_pos hseq⟩
    obtain ⟨hordered, hheeds⟩ := hwaiting.abandon hx' rfl hgiven
    have hsame : (s.setProgress seq (.waiting host)).abandon x.seq host = s.abandon seq host := by
      rw [hseq]
      exact abandon_setProgress s seq (.waiting host) host
    rw [show ({ x with progress := .waiting host } : Session).seq = x.seq from rfl, hsame]
      at hordered hheeds
    exact .of_yields hordered ((Heeds.setProgress s seq _).trans hheeds).yields
  | false =>
    simp only [Bool.false_eq_true, ↓reduceIte, pollReturns]
    cases hpoll : s.toBench.poll e host with
    | none => exact .of_yields (h.rest hbegan) (Heeds.setProgress s seq _).yields
    | some response =>
      obtain ⟨hsurface, hgrows, hanswer⟩ := Bench.poll_eq_some hpoll
      have hpasses : s.Passes (s.absorb Order.enter response) :=
        .absorb (by rw [hsurface]) hgrows
      have hreturned := h.pass hpasses
      have hcalled : (s.absorb Order.enter response).toRenderer.Began
          ((s.absorb Order.enter response).renderId seq) text host := by
        rw [hpasses.renderId_eq]
        exact hbegan.mono hpasses.grows.within
      obtain ⟨hordered, hyields⟩ := hreturned.takeResult hcalled
        ((Passes.deeds response s).grows.answers hanswer)
      exact ((Carried.of_yields hordered hyields).cons hreturned.le_lastSeq).before
        hpasses.heeds.yields

theorem beginRender (h : Midway seq text s) (hshape : Diagram.looksLikeDiagram text = true)
    (haccepted : .verdict text (.ok ()) ∈ s.answers) :
    Carried seq s (s.renderReturns e Order.enter seq text)
      (s.beginRender e Order.enter seq text) := by
  obtain ⟨hphase, hyields⟩ := h.setPhase .rendering rfl
  have hanswers : (s.setPhase seq .rendering).answers = s.answers := by
    unfold Scene.setPhase
    split <;> rfl
  unfold renderReturns Scene.beginRender
  dsimp only
  generalize s.setPhase seq .rendering = s₁ at hphase hyields hanswers ⊢
  have hcalled : ⟨.render (s₁.renderId seq) text
      (s₁.toBench.render e s₁.phase? (s₁.renderId seq) text).answer, s₁.phase?⟩ ∈
        (s₁.toBench.render e s₁.phase? (s₁.renderId seq) text).state.calls :=
    Bench.called_of_render e s₁.phase? (s₁.renderId seq) text s₁.toBench
  have hgrows := Bench.render_grows e s₁.phase? (s₁.renderId seq) text s₁.toBench
  have hsurface := Bench.render_surface e s₁.phase? (s₁.renderId seq) text s₁.toBench
  generalize s₁.toBench.render e s₁.phase? (s₁.renderId seq) text = response
    at hcalled hgrows hsurface ⊢
  have hpasses : s₁.Passes (s₁.absorb Order.enter response) :=
    .absorb (by rw [hsurface]; rfl) hgrows
  have hbegan : (s₁.absorb Order.enter response).toRenderer.Began
      ((s₁.absorb Order.enter response).renderId seq) text response.answer := by
    refine ⟨hshape, hpasses.grows.answers (hanswers ▸ haccepted), s₁.phase?, ?_⟩
    rw [hpasses.renderId_eq]
    exact (Passes.deeds response s₁).grows.within.calls hcalled
  have hreturned := hphase.pass hpasses
  have hawait := hreturned.await (e := e) hbegan
  exact ((hawait.cons hreturned.le_lastSeq).before hpasses.heeds.yields).before hyields

theorem validated (h : Midway seq text s) :
    Midway seq text (s.validated e Order.enter seq text) ∧
      s.Yields seq (s.validated e Order.enter seq text) := by
  obtain ⟨hphase, hyields⟩ := h.setPhase .validating rfl
  have hpasses : (s.setPhase seq .validating).Passes (s.validated e Order.enter seq text) := by
    refine .absorb ?_ (Bench.validate_grows e _ text _)
    rw [validation, Bench.validate_surface]
  exact ⟨hphase.pass hpasses, hyields.trans hpasses.heeds.yields⟩

theorem beginValidation (h : Midway seq text s)
    (hlate : s.validatesLate e Order.enter seq text = false) :
    Carried seq s (s.validationReturns e Order.enter seq text)
      (s.beginValidation e Order.enter seq text) := by
  obtain ⟨hreturned, hyields⟩ := h.validated (e := e)
  have hdeeds := (Passes.deeds (s.validation e seq text) (s.setPhase seq .validating)).grows
  unfold validationReturns
  cases hverdict : (s.validation e seq text).answer with
  | error error =>
    -- the refusal is shown without a look at the live slot, so that it must not come late
    have hlive : (s.validated e Order.enter seq text).live = some seq := by
      simpa [validatesLate, hverdict, isLive, Except.toBool] using hlate
    obtain ⟨x, hx, rfl, rfl, -⟩ := hreturned.running
    have hordered := hreturned.ordered.refuse hx hlive
      ((Bench.supports_of_validate_error hverdict _).mono hdeeds.within)
    rw [beginValidation_of_refused hverdict]
    have hrefused : Yields x.seq _ ((s.validated e Order.enter x.seq x.text).refuse x.seq
        error.message) := .of_live hlive (.of_live rfl (.inl rfl))
    exact ((Carried.of_yields hordered hrefused).cons hreturned.le_lastSeq).before hyields
  | ok keyword =>
    obtain ⟨hshape, haccepted⟩ := Bench.accepted_of_validate_ok hverdict
    have hrender := hreturned.beginRender (e := e) hshape (hdeeds.answers haccepted)
    rw [beginValidation_of_accepted hverdict]
    exact (hrender.cons hreturned.le_lastSeq).before hyields

/-- The status is not about a session that lost the live slot in its turn. -/
theorem session_ne (h : Midway seq text s) (hlive : s.live ≠ some seq) :
    s.status.session ≠ some (s.renderId seq) := by
  obtain ⟨x, hx, rfl, -, hrunning⟩ := h.running
  have hlast : s.lastSeq ≠ x.seq → s.renderId s.lastSeq ≠ s.renderId x.seq :=
    fun hne heq => hne (InstanceId.renderId_injective heq)
  cases h.ordered.sound.display with
  | nothing live status => simp [status]
  | noDiagram live status container earlier =>
    simpa [status] using hlast (Nat.ne_of_gt (earlier x hx))
  | underWay y mem last live kept unsettled phase active status =>
    refine fun heq => hlast (fun hseq => hlive (hseq ▸ live)) ?_
    simpa [status] using heq
  | settled y mem last live kept outcome progress markup supports status =>
    refine fun heq => hlast (fun hseq => ?_) (by simpa [status] using heq)
    obtain rfl := h.ordered.sound.books.eq_of_seq_eq mem hx (last.trans hseq)
    rw [progress] at hrunning
    cases hrunning

/-- A refusal that comes late is seen. -/
theorem not_heeds_refuse (h : Midway seq text s) (hlive : s.live ≠ some seq) (message : String) :
    ¬ s.Heeds (s.refuse seq message) := by
  rintro ⟨orders, howner, hface⟩
  have hnone : orders = [] := List.append_right_eq_self.mp howner.symm
  rw [hnone] at hface
  have hstatus : (s.refuse seq message).status = s.status := congrArg Face.status hface
  exact h.session_ne hlive (by rw [← hstatus]; rfl)

end Midway

/-! ## Turns and courses -/

theorem Ordered.midway (h : s.Ordered) (hx : x ∈ s.sessions) (hopen : x.end? = none) :
    Midway x.seq x.text (s.setProgress x.seq .running) := by
  refine ⟨h.setProgress hx hopen (by simp) (by simp), ?_⟩
  exact ⟨{ x with progress := .running }, mem_update.mpr ⟨x, hx, if_pos rfl⟩, rfl, rfl, rfl⟩

theorem Ordered.resumeSession (h : s.Ordered) (i : InstanceId) (hx : x ∈ s.sessions)
    (hlate : s.refusesLate e Order.enter ⟨i, x.seq, .session⟩ = false) :
    Carried x.seq s (s.returns e Order.enter ⟨i, x.seq, .session⟩)
      (s.resumeSession e Order.enter x.seq) := by
  have hfound := h.sound.books.session?_of_mem hx
  simp only [refusesLate, hfound] at hlate
  simp only [returns, Scene.resumeSession, hfound]
  cases hprogress : x.progress with
  | created =>
    have hopen : x.end? = none := by simp [Session.end?, hprogress]
    simp only
    split
    · next hcancelled =>
      obtain ⟨hordered, hheeds⟩ := h.discard hx hopen hcancelled
      exact .of_yields hordered hheeds.yields
    · have hdeferred : (s.setProgress x.seq .deferred).Ordered :=
        h.setProgress hx hopen (by simp) (by simp)
      have hpasses : (s.setProgress x.seq .deferred).Passes
          ((s.setProgress x.seq .deferred).setAside x.seq) :=
        .frame rfl rfl rfl (.of_eq rfl rfl rfl)
      exact .of_yields (hpasses.ordered hdeferred)
        ((Heeds.setProgress s x.seq _).trans hpasses.heeds).yields
  | deferred =>
    have hopen : x.end? = none := by simp [Session.end?, hprogress]
    simp only
    cases hcancelled : x.cancelled with
    | true =>
      obtain ⟨hordered, hheeds⟩ := h.discard hx hopen hcancelled
      exact .of_yields hordered hheeds.yields
    | false =>
      have hlive : s.isLive x.seq = true := by
        simp [isLive, h.sound.books.unfinished x hx hcancelled hopen]
      simp only [hlive, Bool.not_true, Bool.or_false, Bool.false_eq_true, ↓reduceIte]
      simp only [hprogress, hcancelled, hlive, decide_true, Bool.not_false, Bool.and_self,
        Bool.true_and] at hlate
      exact ((h.midway hx hopen).beginValidation hlate).before (Heeds.setProgress s x.seq _).yields
  | running => exact .of_yields h (Heeds.refl s).yields
  | waiting host =>
    have hopen : x.end? = none := by simp [Session.end?, hprogress]
    have hbegan := h.sound.books.begun x hx host (.inl hprogress)
    exact ((h.midway hx hopen).await hbegan).before (Heeds.setProgress s x.seq _).yields
  | ended how => exact .of_yields h (Heeds.refl s).yields

theorem Ordered.resumeSweep (h : s.Ordered) (i : InstanceId) (hx : x ∈ s.sessions) :
    Carried x.seq s (s.returns e Order.enter ⟨i, x.seq, .sweep⟩)
      (s.resumeSweep e Order.enter x.seq) := by
  have hfound := h.sound.books.session?_of_mem hx
  simp only [returns, Scene.resumeSweep, hfound, Option.bind_some]
  cases habandoned : x.abandoned with
  | none => exact .of_yields h (Heeds.refl s).yields
  | some host =>
    simp only [Option.toList_some, List.flatMap_singleton, pollReturns]
    cases hpoll : s.toBench.poll e host with
    | none => exact .of_yields h (Heeds.refl s).yields
    | some response =>
      obtain ⟨hsurface, hgrows, -⟩ := Bench.poll_eq_some hpoll
      have hpasses : s.Passes (s.absorb Order.enter response) :=
        .absorb (by rw [hsurface]) hgrows
      have hreturned := hpasses.ordered h
      obtain ⟨y, hy, hseq, -, -, hleft⟩ := hpasses.sessions x hx
      have hcancelled : y.cancelled = true :=
        hreturned.sound.books.abandoned y hy (by simp [hleft, habandoned])
      obtain ⟨hordered, hheeds⟩ := hreturned.cleanUp hy hcancelled host response.answer
      have hn := hreturned.sound.books.numbered y hy
      rw [hseq] at hordered hheeds hn
      exact (Carried.cons (.of_yields hordered hheeds.yields) hn).before hpasses.heeds.yields

/-- A turn in which no text is refused late keeps the scene in order, and its session yields. -/
theorem Ordered.resume (h : s.Ordered) (task : Task)
    (hlate : s.refusesLate e Order.enter task = false) :
    Carried task.seq s (s.returns e Order.enter task) (s.resume e Order.enter task) := by
  obtain ⟨i, seq, role⟩ := task
  cases hfound : s.session? seq with
  | none =>
    cases role with
    | session =>
      simp only [returns, Scene.resume, Scene.resumeSession, hfound]
      exact .of_yields h (Heeds.refl s).yields
    | sweep =>
      simp only [returns, Scene.resume, Scene.resumeSweep, hfound]
      exact .of_yields h (Heeds.refl s).yields
  | some x =>
    obtain ⟨hx, rfl⟩ := session?_eq_some hfound
    cases role with
    | session => exact h.resumeSession i hx hlate
    | sweep => exact h.resumeSweep i hx

/-- A turn in which a text is refused late does not leave to orders what is shown. -/
theorem Ordered.exists_return_of_refusesLate (h : s.Ordered) {task : Task}
    (hlate : s.refusesLate e Order.enter task = true) :
    ∃ r ∈ s.returns e Order.enter task,
      r.live ≠ some task.seq ∧ ¬ r.Heeds (s.resume e Order.enter task) := by
  obtain ⟨i, seq, role⟩ := task
  unfold refusesLate at hlate
  split at hlate
  · next x hrole hfound =>
    obtain ⟨hx, rfl⟩ := session?_eq_some hfound
    obtain rfl : role = .session := hrole
    simp only [Bool.and_eq_true, decide_eq_true_eq, Bool.not_eq_true'] at hlate
    obtain ⟨⟨⟨hprogress, hkept⟩, hlive⟩, hlate⟩ := hlate
    have hmidway := h.midway hx (by simp [Session.end?, hprogress])
    obtain ⟨hreturned, -⟩ := hmidway.validated (e := e)
    simp only [validatesLate, Bool.and_eq_true, Bool.not_eq_true'] at hlate
    obtain ⟨hlost, hrefused⟩ := hlate
    have hlost : ((s.setProgress x.seq .running).validated e Order.enter x.seq x.text).live ≠
        some x.seq := by
      simpa [isLive] using hlost
    refine ⟨_, ?_, hlost, ?_⟩
    · simp [returns, hfound, hprogress, hkept, hlive, validationReturns]
    · cases hverdict : ((s.setProgress x.seq .running).validation e x.seq x.text).answer with
      | ok keyword => simp [hverdict, Except.toBool] at hrefused
      | error error =>
        simp only [Scene.resume, Scene.resumeSession, hfound, hprogress, hkept, hlive,
          Bool.not_true, Bool.or_self, Bool.false_eq_true, ↓reduceIte]
        rw [beginValidation_of_refused hverdict]
        exact hreturned.not_heeds_refuse hlost error.message
  · cases hlate

/-- A session that is not live has no text refused. -/
theorem refusesLate_of_not_live {task : Task} (hlive : s.live ≠ some task.seq) :
    s.refusesLate e Order.enter task = false := by
  have hisLive : s.isLive task.seq = false := by simp [isLive, hlive]
  unfold refusesLate
  split
  · simp [hisLive]
  · rfl

end Scene

/-- Whether a move refuses no text by a validation in whose course its session lost the live
slot. -/
def Move.isTimely (e : Engine σ Order) (move : Move σ Order) (s : Scene σ (List Order)) : Bool :=
  match move with
  | .turn task => !s.refusesLate e Order.enter task
  | .call _ | .insert _ _ | .work _ => true

namespace Scene

variable {s : Scene σ (List Order)} {e : Engine σ Order}

theorem Ordered.play (h : s.Ordered) {move : Move σ Order} (hmove : move.isTimely e s = true) :
    (move.play e s).Ordered ∧ s.Ages (move.play e s) := by
  cases move with
  | call order =>
    have hpasses := Passes.enter order s
    exact ⟨hpasses.ordered h, hpasses.heeds.ages⟩
  | turn task =>
    have hturn := h.resume (e := e) task (by simpa [Move.isTimely] using hmove)
    exact ⟨hturn.ordered, hturn.yields.ages⟩
  | insert parent node =>
    have hpasses := Passes.perform (.insert parent node) s
    exact ⟨hpasses.ordered h, hpasses.heeds.ages⟩
  | work engine =>
    have hpasses : s.Passes { s with engine } := .frame rfl rfl rfl (.of_eq rfl rfl rfl)
    exact ⟨hpasses.ordered h, hpasses.heeds.ages⟩

theorem Ordered.fresh (config : SharedConfig) (engine : σ) (i : InstanceId) :
    (Scene.fresh config engine i ([] : List Order)).Ordered := by
  refine ⟨.fresh config engine i [], rfl, ?_, ?_⟩ <;>
    · intro x hx
      cases hx

end Scene

/-- With an engine that may give orders in the course of its calls, and as long as no text is
refused by a validation in whose course its session lost the live slot: a session ends unsettled
only if an order was given since the one that began it, or its markup could not be neutralized; and
a session that is not live when one of its calls returns leaves to orders what is shown, in the rest
of that turn and in every later one. For a single turn the condition is exact. -/
theorem sessions_yield_to_orders (e : Engine σ Order) (config : SharedConfig) (engine : σ)
    (i : InstanceId) (moves : List (Move σ Order)) {s : Scene σ (List Order)}
    (hs : s = (Scene.fresh config engine i []).played e moves)
    (htimely : along (Move.play e) (Move.isTimely e) moves (Scene.fresh config engine i []) =
      true) :
    (∀ x ∈ s.sessions, x.progress = .ended .cancelled →
      (∃ after, s.Since x after ∧ after ≠ []) ∨ s.toRenderer.Crashed (s.renderId x.seq)) ∧
    ∀ (task : Task) (t : Scene σ (List Order)), t = (Move.turn task).play e s →
      ((∀ r ∈ s.returns e Order.enter task, r.live ≠ some task.seq → r.Heeds t) ↔
        (Move.turn task : Move σ Order).isTimely e s = true) ∧
      ((Move.turn task : Move σ Order).isTimely e s = true →
        ∀ r ∈ s.returns e Order.enter task, r.live ≠ some task.seq →
          ∀ later u, u = t.played e later → along (Move.play e) (Move.isTimely e) later t = true →
            ∀ task' : Task, task'.seq = task.seq → u.Heeds ((Move.turn task').play e u)) := by
  have hordered : s.Ordered := by
    rw [hs]
    exact along_invariant (fun move t ht hmove => (ht.play hmove).1) htimely (.fresh ..)
  refine ⟨?_, ?_⟩
  · intro x hx hended
    refine (hordered.entered.discarded x hx hended).imp_left fun hcancelled => ?_
    obtain ⟨after, hsince, hlater⟩ := hordered.entered.since x hx
    exact ⟨after, hsince, hlater hcancelled⟩
  · rintro task t rfl
    have hcarried : (Move.turn task : Move σ Order).isTimely e s = true →
        Scene.Carried task.seq s (s.returns e Order.enter task) ((Move.turn task).play e s) :=
      fun hmove => hordered.resume task (by simpa [Move.isTimely] using hmove)
    refine ⟨⟨fun hheeds => ?_, fun hmove r hr hlive => ?_⟩, fun hmove r hr hlive => ?_⟩
    · rw [Move.isTimely, Bool.not_eq_true', Bool.eq_false_iff]
      intro hlate
      obtain ⟨r, hr, hlive, hseen⟩ := hordered.exists_return_of_refusesLate hlate
      exact hseen (hheeds r hr hlive)
    · obtain ⟨hn, hyields⟩ := (hcarried hmove).returns r hr
      exact hyields.heeds hn hlive
    · -- once lost, the live slot stays lost, so that no later text of the session is refused
      obtain ⟨hn, hyields⟩ := (hcarried hmove).returns r hr
      rintro later u rfl hlater task' hseq
      obtain ⟨hordered', hn', hlive'⟩ : Scene.Ordered _ ∧ _ ∧ _ :=
        along_invariant (P := fun u => u.Ordered ∧ task.seq ≤ u.lastSeq ∧ u.live ≠ some task.seq)
          (fun move t ht hmove => ⟨(ht.1.play hmove).1, (ht.1.play hmove).2 _ ht.2.1 ht.2.2⟩)
          hlater ⟨(hcarried hmove).ordered, hyields.ages _ hn hlive⟩
      have hturn' := hordered'.resume (e := e) task'
        (Scene.refusesLate_of_not_live (hseq ▸ hlive'))
      exact hturn'.yields.heeds (hseq ▸ hn') (hseq ▸ hlive')

/-- An engine that asks for a second diagram in the course of a call for the first. It does so when
the first is validated, which it then refuses, or when it is rendered. -/
def interruptingEngine (refuses : Bool) : Engine Unit Order where
  configure _ engine := engine
  validate text engine :=
    if refuses && text == "graph A" then
      ⟨engine, [.request (.schedule "graph B")], .error "no A"⟩
    else ⟨engine, [], .ok ()⟩
  render _ text _ engine :=
    ⟨engine, if text = "graph A" then [.request (.schedule "graph B")] else [], ()⟩
  poll _ engine := some ⟨engine, [], .ok "<svg/>"⟩

/-- The first diagram is ordered, and its session has stepped back. -/
def interruptedMoves : List (Move Unit Order) :=
  [.call (.schedule "graph A"), .turn ⟨.numbered 1, 1, .session⟩]

def interruptedScene (refuses : Bool) : Scene Unit (List Order) :=
  (Scene.fresh {} () (.numbered 1) []).played (interruptingEngine refuses) interruptedMoves

theorem sessions_yield_to_orders_interrupted :
    along (Move.play (interruptingEngine false)) (Move.isTimely (interruptingEngine false))
        interruptedMoves (Scene.fresh {} () (.numbered 1) []) = true ∧
      ∃ r ∈ (interruptedScene false).returns (interruptingEngine false) Order.enter
          ⟨.numbered 1, 1, .session⟩,
        r.live = some 2 ∧
          r.Heeds ((Move.turn ⟨.numbered 1, 1, .session⟩).play (interruptingEngine false)
            (interruptedScene false)) := by
  have htimely : along (Move.play (interruptingEngine false))
      (Move.isTimely (interruptingEngine false)) interruptedMoves
      (Scene.fresh {} () (.numbered 1) []) = true := by
    decide +kernel
  have hmove : (Move.turn ⟨.numbered 1, 1, .session⟩).isTimely (interruptingEngine false)
      (interruptedScene false) = true := by
    decide +kernel
  have hreturns : ((interruptedScene false).returns (interruptingEngine false) Order.enter
      ⟨.numbered 1, 1, .session⟩).any (·.live == some 2) = true := by
    decide +kernel
  obtain ⟨r, hr, hlive⟩ := List.any_eq_true.mp hreturns
  have hlive : r.live = some 2 := by simpa using hlive
  obtain ⟨-, hyields⟩ := sessions_yield_to_orders (interruptingEngine false) {} () (.numbered 1)
    interruptedMoves rfl htimely
  exact ⟨htimely, r, hr, hlive, (hyields _ _ rfl).1.mpr hmove r hr (by simp [hlive])⟩

/-- The scene after the turn in which the first diagram is refused. -/
def refusedScene : Scene Unit (List Order) :=
  (Move.turn ⟨.numbered 1, 1, .session⟩).play (interruptingEngine true) (interruptedScene true)

/-- The scene when the session of the second diagram has had its turns. -/
def lostScene : Scene Unit (List Order) :=
  refusedScene.played (interruptingEngine true)
    [.turn ⟨.numbered 1, 2, .session⟩, .turn ⟨.numbered 1, 2, .session⟩]

/-- A session that lost the live slot while its text was validated takes it back when the text is
refused, and the session that it takes it from is over with nothing ordered since it began. -/
theorem session_lost_to_late_refusal :
    ((interruptedScene true).returns (interruptingEngine true) Order.enter
        ⟨.numbered 1, 1, .session⟩).map (·.live) = [some 2] ∧
      refusedScene.live = none ∧
      refusedScene.status =
        ⟨some ((InstanceId.numbered 1).renderId 1), .parseError, some "no A"⟩ ∧
      lostScene.sessions =
        [{ seq := 1, text := "graph A", cancelled := true
           progress := .ended (.settled (.parseError "no A")) },
          { seq := 2, text := "graph B", progress := .ended .cancelled }] ∧
      lostScene.owner = [.schedule "graph A", .schedule "graph B"] := by
  decide +kernel

end DiagramView
