import DiagramView.Proofs.Conduct

/-!
# The calls of a turn

The *ledger* of a bench holds the calls made on its engine, whether the engine was configured, and
the settings of the page. Of all that a bench does, only validating a text that looks like a diagram
and beginning to render one add to it (`Bench.validate_ledger`, `Bench.render_ledger`). So a turn
adds to it only when a session that was not given up has its second turn
(`Scene.WellKept.resume_ledger`), and then exactly the calls of `Scene.callsOf`: the configuration
if there was none, the validation, and the render call if the text was accepted.
-/

namespace DiagramView

variable {σ κ ο : Type}

/-! ## Ledgers -/

/-- The record of the calls on an engine. -/
structure Ledger where
  calls : List EngineCall
  configured : Bool
  config : SharedConfig

namespace Ledger

/-- Adds the configuration of the engine unless it was made. -/
def configure (phase : Option Phase) (l : Ledger) : Ledger :=
  if l.configured then l
  else ⟨l.calls ++ [⟨.configure l.config.inForce, phase⟩], true, l.config.fix⟩

def record (phase : Option Phase) (request : EngineRequest) (l : Ledger) : Ledger :=
  { l with calls := l.calls ++ [⟨request, phase⟩] }

theorem configure_eq (phase : Option Phase) (l : Ledger) :
    l.configure phase =
      ⟨l.calls ++ if l.configured then [] else [⟨.configure l.config.inForce, phase⟩], true,
        if l.configured then l.config else l.config.fix⟩ := by
  obtain ⟨calls, configured, config⟩ := l
  cases configured <;> simp [configure]

theorem configure_of_configured {phase : Option Phase} {l : Ledger} (h : l.configured = true) :
    l.configure phase = l := by
  simp only [configure, h, ↓reduceIte]

end Ledger

namespace Bench

def ledger (b : Bench σ) : Ledger :=
  ⟨b.calls, b.configured, b.config⟩

theorem prepare_ledger (e : Engine σ κ) (phase : Option Phase) (b : Bench σ) :
    (b.prepare e phase).ledger = b.ledger.configure phase := by
  have hconfigured : b.ledger.configured = b.configured := rfl
  unfold prepare Ledger.configure
  rw [hconfigured]
  split <;> rfl

theorem validate_ledger (e : Engine σ κ) (phase : Option Phase) (text : String) (b : Bench σ) :
    (b.validate e phase text).state.ledger =
      if Diagram.looksLikeDiagram text then
        (b.ledger.configure phase).record phase (.validate text)
      else b.ledger := by
  unfold validate Diagram.looksLikeDiagram
  cases Diagram.keyword? text with
  | none => rfl
  | some keyword =>
    rw [← prepare_ledger e phase b]
    rfl

theorem render_ledger (e : Engine σ κ) (phase : Option Phase) (id : RenderId) (text : String)
    (b : Bench σ) :
    (b.render e phase id text).state.ledger =
      (b.ledger.configure phase).record phase (.render id text b.surface.nextHost) := by
  have hattached : ({ b with surface := b.surface.attachHost } : Bench σ).ledger = b.ledger := rfl
  rw [← hattached, ← prepare_ledger e phase { b with surface := b.surface.attachHost }]
  rfl

theorem poll_ledger {e : Engine σ κ} {host : HostId} {b : Bench σ}
    {response : Response (Bench σ) κ (Except String String)}
    (h : b.poll e host = some response) : response.state.ledger = b.ledger := by
  obtain ⟨reply, -, rfl⟩ := Option.map_eq_some_iff.mp h
  rfl

theorem conclude_ledger (host : HostId) (result : Except String String) (b : Bench σ) :
    (b.conclude host result).1.ledger = b.ledger := by
  unfold conclude
  cases result with
  | error message => rfl
  | ok raw =>
    simp only
    split <;> split <;> rfl

theorem foldl_afterDeed_ledger (deeds : List (Deed Empty)) (b : Bench σ) :
    (deeds.foldl afterDeed b).ledger = b.ledger := by
  induction deeds generalizing b with
  | nil => rfl
  | cons deed deeds ih =>
    refine (ih _).trans ?_
    cases deed with
    | insert parent node => rfl
    | report event => rfl
    | request command => exact nomatch command

end Bench

theorem Response.after_ledger {α : Type} (response : Response (Bench σ) Empty α) :
    response.after.ledger = response.state.ledger :=
  Bench.foldl_afterDeed_ledger _ _

/-! ## The calls of a session -/

/-- Whether a session makes its calls when its task has its next turn. -/
def Session.isCalling (x : Session) : Bool :=
  x.progress = .deferred && !x.cancelled

namespace Scene

variable {s : Scene σ ο} {x : Session} {e : Engine σ Empty}
  {obey : Empty → Scene σ ο → Scene σ ο}

/-- The render call that follows the validation of a text, if the text was accepted. -/
def renderOf (e : Engine σ Empty) (s : Scene σ ο) (x : Session) : List EngineCall :=
  match (s.verdict e x).answer with
  | .error _ => []
  | .ok _ => [⟨.render (s.renderId x.seq) x.text (s.opening e x).answer, s.shown .rendering⟩]

/-- The validation of a text and what follows it. -/
def askingOf (e : Engine σ Empty) (s : Scene σ ο) (x : Session) : List EngineCall :=
  ⟨.validate x.text, s.shown .validating⟩ :: s.renderOf e x

/-- The calls that a session makes when it is its turn to make them. -/
def callsOf (e : Engine σ Empty) (s : Scene σ ο) (x : Session) : List EngineCall :=
  if Diagram.looksLikeDiagram x.text then
    (if s.configured then [] else [⟨.configure s.config.inForce, s.shown .validating⟩]) ++
      s.askingOf e x
  else []

def ledgerOf (e : Engine σ Empty) (s : Scene σ ο) (x : Session) : Ledger :=
  if Diagram.looksLikeDiagram x.text then
    ⟨s.calls ++ s.callsOf e x, true, if s.configured then s.config else s.config.fix⟩
  else s.ledger

theorem verdict_ledger (e : Engine σ Empty) (s : Scene σ ο) (x : Session) :
    (s.verdict e x).after.ledger =
      if Diagram.looksLikeDiagram x.text then
        (s.ledger.configure (s.shown .validating)).record (s.shown .validating) (.validate x.text)
      else s.ledger := by
  rw [Response.after_ledger]
  exact Bench.validate_ledger e _ x.text s.toBench

/-- After a refusal the ledger holds the validation, if the engine was asked at all. -/
theorem ledgerOf_of_refused {error : ParseError}
    (hverdict : (s.verdict e x).answer = .error error) :
    (s.verdict e x).after.ledger = s.ledgerOf e x := by
  rw [verdict_ledger, ledgerOf]
  split
  · next hshape =>
    rw [Ledger.configure_eq, callsOf, if_pos hshape, askingOf, renderOf, hverdict]
    simp only [Ledger.record, Bench.ledger, List.append_assoc]
    rfl
  · rfl

/-- A text that was accepted had the engine validate it, so the engine is configured by then. -/
theorem ledgerOf_of_accepted {keyword : Diagram.Keyword}
    (hverdict : (s.verdict e x).answer = .ok keyword) :
    (s.opening e x).after.ledger = s.ledgerOf e x := by
  obtain ⟨hshape, -⟩ := Bench.accepted_of_validate_ok hverdict
  have hvalidated := s.verdict_ledger e x
  rw [if_pos hshape] at hvalidated
  have hconfigured : (s.verdict e x).after.ledger.configured = true := by
    rw [hvalidated, Ledger.configure_eq]
    rfl
  have hopening := Bench.render_ledger e (s.shown .rendering) (s.renderId x.seq) x.text
    (s.verdict e x).after
  rw [Ledger.configure_of_configured hconfigured, hvalidated] at hopening
  rw [Response.after_ledger]
  refine hopening.trans ?_
  rw [Ledger.configure_eq, ledgerOf, if_pos hshape, callsOf, if_pos hshape, askingOf, renderOf,
    hverdict]
  simp only [Ledger.record, Bench.ledger, List.append_assoc]
  rfl

/-! ## The calls of a turn -/

theorem showResult_ledger (seq : Nat) (result : RenderResult) (s : Scene σ ο) :
    (s.showResult seq result).ledger = s.ledger := by
  cases result with
  | crashed => rfl
  | artifact markup =>
    simp only [showResult]
    split <;> rfl
  | failed message =>
    simp only [showResult]
    split <;> rfl

/-- Taking a result over makes no calls. -/
theorem takeResult_ledger {host : HostId}
    {response : Response (Bench σ) Empty (Except String String)}
    (hpoll : s.toBench.poll e host = some response) (seq : Nat) :
    ((s.onBench response.after).takeResult seq host response.answer).ledger = s.ledger := by
  refine (showResult_ledger seq _ _).trans ?_
  refine (Bench.conclude_ledger host response.answer response.after).trans ?_
  rw [Response.after_ledger, Bench.poll_ledger hpoll]

theorem cleanUp_ledger (seq : Nat) (host : HostId) (answer : Except String String)
    (s : Scene σ ο) : (s.cleanUp seq host answer).ledger = s.ledger := by
  have hconcluded := Bench.conclude_ledger host answer s.toBench
  unfold cleanUp
  dsimp only
  split <;> exact hconcluded

section Turn

variable (h : s.WellKept)
include h

/-- In its second turn a session that was not given up makes its calls. -/
theorem WellKept.resumeSession_ledger (hx : x ∈ s.sessions) :
    (s.resumeSession e obey x.seq).ledger =
      if x.isCalling then s.ledgerOf e x else s.ledger := by
  cases hprogress : x.progress with
  | created =>
    simp only [Session.isCalling, hprogress, reduceCtorEq, decide_false, Bool.false_and,
      Bool.false_eq_true, ↓reduceIte]
    cases hcancelled : x.cancelled with
    | true =>
      rw [resumeSession_cancelled h hx (.inl hprogress) hcancelled]
      rfl
    | false =>
      rw [resumeSession_created h hx hprogress hcancelled]
      rfl
  | deferred =>
    simp only [Session.isCalling, hprogress, decide_true, Bool.true_and]
    cases hcancelled : x.cancelled with
    | true =>
      rw [resumeSession_cancelled h hx (.inr hprogress) hcancelled]
      rfl
    | false =>
      simp only [Bool.not_false, ↓reduceIte]
      cases hverdict : (s.verdict e x).answer with
      | error error =>
        rw [resumeSession_refused h hx hprogress hcancelled hverdict,
          ← ledgerOf_of_refused hverdict]
        rfl
      | ok keyword =>
        rw [resumeSession_begun h hx hprogress hcancelled hverdict,
          ← ledgerOf_of_accepted hverdict]
        have hbegun := (beginAwait_frame x.seq (s.opening e x).answer
          (s.onBench (s.opening e x).after)).1
        cases hpoll : (s.opening e x).after.poll e (s.opening e x).answer with
        | none => exact congrArg Bench.ledger hbegun
        | some response =>
          refine (takeResult_ledger (by rw [hbegun]; exact hpoll) x.seq).trans ?_
          exact congrArg Bench.ledger hbegun
  | waiting host =>
    simp only [Session.isCalling, hprogress, reduceCtorEq, decide_false, Bool.false_and,
      Bool.false_eq_true, ↓reduceIte]
    rw [resumeSession_waiting h hx hprogress]
    split
    · rfl
    · cases hpoll : s.toBench.poll e host with
      | none => rfl
      | some response => exact takeResult_ledger hpoll x.seq
  | running => simp [resumeSession, h.session?_of_mem hx, hprogress, Session.isCalling]
  | ended how => simp [resumeSession, h.session?_of_mem hx, hprogress, Session.isCalling]

theorem WellKept.resumeSweep_ledger (hx : x ∈ s.sessions) :
    (s.resumeSweep e obey x.seq).ledger = s.ledger := by
  rw [resumeSweep_eq h hx]
  cases x.abandoned with
  | none => rfl
  | some host =>
    cases hpoll : s.toBench.poll e host with
    | none => simp only [hpoll]
    | some response =>
      simp only [hpoll]
      refine (cleanUp_ledger x.seq host response.answer _).trans ?_
      exact (Response.after_ledger response).trans (Bench.poll_ledger hpoll)

end Turn

/-- The session that makes its calls in a turn, if there is one. -/
def caller? (task : Task) (s : Scene σ ο) : Option Session :=
  match task.role with
  | .session => (s.session? task.seq).filter (·.isCalling)
  | .sweep => none

/-- A turn adds the calls of the session that makes them, and nothing else. -/
theorem WellKept.resume_ledger (h : s.WellKept) (task : Task) :
    (s.resume e obey task).ledger = ((s.caller? task).map (s.ledgerOf e)).getD s.ledger := by
  unfold resume caller?
  cases hfound : s.session? task.seq with
  | none =>
    cases task.role with
    | session => simp only [resumeSession, hfound, Option.filter_none, Option.map_none,
        Option.getD_none]
    | sweep => simp only [resumeSweep, hfound, Option.bind_none, Option.map_none,
        Option.getD_none]
  | some x =>
    obtain ⟨hx, hseq⟩ := session?_eq_some hfound
    rw [← hseq]
    cases task.role with
    | session =>
      refine (h.resumeSession_ledger hx).trans ?_
      cases hcalling : x.isCalling <;> simp [Option.filter, hcalling]
    | sweep => exact h.resumeSweep_ledger hx

end Scene

end DiagramView
