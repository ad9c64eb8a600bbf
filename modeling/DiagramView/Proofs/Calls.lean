import DiagramView.Proofs.Coherence
import DiagramView.Proofs.Front
import DiagramView.Proofs.Ledger

/-!
# Calls and configuration

A process is asked for orders to its scheduler and for settings. Every call on the engine is made in
a move by the session that makes its calls in it (`Scene.WellKept.calls_take`); such a session has
its second turn and was not given up (`Scene.caller?_eq_some`). The engine is configured before
anything else is asked of it, once (`Ledger.Orderly`), with the settings that were proposed first
(`Scene.WellKept.fixed_take`).
-/

namespace DiagramView

variable {σ κ ο : Type}

/-! ## A process with a scheduler -/

/-- What is asked of a process in which a scheduler runs. -/
inductive ProcessCall where
  | order (order : Order)
  /-- Installs settings for all engines. -/
  | install (config : EngineConfig)
  /-- Asks for the settings in force. -/
  | consult

/-- Does what a process is asked for. -/
def ProcessCall.obey (call : ProcessCall) (s : Scene σ ο) : Scene σ ο :=
  match call with
  | .order given => given.obey s
  | .install config =>
    { s with
      config := (s.config.install config).1
      log := s.log ++ (s.config.install config).2 }
  | .consult => { s with config := s.config.fix }

namespace EngineCall

def isConfigure (call : EngineCall) : Bool :=
  match call.request with
  | .configure _ => true
  | _ => false

def isValidate (call : EngineCall) : Bool :=
  match call.request with
  | .validate _ => true
  | _ => false

def isRender (call : EngineCall) : Bool :=
  match call.request with
  | .render _ _ _ => true
  | _ => false

/-- The text that a call is about. -/
def text? (call : EngineCall) : Option String :=
  match call.request with
  | .configure _ => none
  | .validate text => some text
  | .render _ text _ => some text

end EngineCall

namespace Move

/-- The calls on the engine that a move makes. -/
def made (e : Engine σ Empty) (s : Scene σ ο) (move : Move σ ProcessCall) : List EngineCall :=
  (move.take e ProcessCall.obey s).calls.drop s.calls.length

/-- The settings that a move proposes for all engines. A configuration asks for those in force, and
proposes the default ones by that. -/
def settings (e : Engine σ Empty) (s : Scene σ ο) (move : Move σ ProcessCall) :
    List EngineConfig :=
  match move with
  | .call (.install config) => [config]
  | .call .consult => [{}]
  | .call (.order _) | .insert _ _ | .work _ => []
  | .turn _ => if (move.made e s).any (·.isConfigure) then [{}] else []

/-- Whether a move is a turn of one of some sessions. -/
def isTurnOf (p : Nat → Bool) : Move σ κ → Bool
  | .turn task => p task.seq
  | .call _ | .insert _ _ | .work _ => false

/-- The session that makes its calls in a move, if there is one. -/
def caller? (s : Scene σ ο) : Move σ κ → Option Session
  | .turn task => s.caller? task
  | .call _ | .insert _ _ | .work _ => none

/-- The order that a move gives the scheduler. -/
def given? : Move σ ProcessCall → Option Order
  | .call (.order order) => some order
  | .call (.install _) | .call .consult | .turn _ | .insert _ _ | .work _ => none

theorem eq_of_given {move : Move σ ProcessCall} {order : Order} (h : move.given? = some order) :
    move = .call (.order order) := by
  cases move with
  | call command =>
    cases command with
    | order given => rw [Option.some.inj h]
    | install config => cases h
    | consult => cases h
  | turn task => cases h
  | insert parent node => cases h
  | work engine => cases h

end Move

namespace Scene

/-- The calls that some sessions make in a course. -/
def callsBy (e : Engine σ Empty) (p : Nat → Bool) :
    List (Move σ ProcessCall) → Scene σ ο → List EngineCall
  | [], _ => []
  | move :: moves, s =>
    (if move.isTurnOf p then move.made e s else []) ++
      callsBy e p moves (move.take e ProcessCall.obey s)

/-- The settings that a course proposes for all engines, in order. -/
def settings (e : Engine σ Empty) :
    List (Move σ ProcessCall) → Scene σ ο → List EngineConfig
  | [], _ => []
  | move :: moves, s => move.settings e s ++ settings e moves (move.take e ProcessCall.obey s)

variable {s : Scene σ ο} {x : Session} {e : Engine σ Empty}

/-! ## Moves and the ledger -/

theorem ledgerOf_calls (e : Engine σ Empty) (s : Scene σ ο) (x : Session) :
    (s.ledgerOf e x).calls = s.calls ++ s.callsOf e x := by
  unfold ledgerOf
  split
  · rfl
  · next hshape =>
    rw [callsOf, if_neg hshape, List.append_nil]
    rfl

theorem cancelSession_ledger (reason : CancelReason) (s : Scene σ ο) :
    (s.cancelSession reason).ledger = s.ledger := by
  unfold cancelSession
  split
  · rfl
  · dsimp only [wakeSession]
    split <;> rfl

theorem clean_ledger (reason : CancelReason) (s : Scene σ ο) :
    (s.clean reason).ledger = s.ledger := by
  simp only [clean]
  split <;> rfl

theorem obey_ledger (order : Order) (s : Scene σ ο) : (order.obey s).ledger = s.ledger := by
  have hcancelled : ∀ reason, (s.cancelLive reason).ledger = s.ledger :=
    fun reason => (clean_ledger reason _).trans (cancelSession_ledger reason s)
  cases order with
  | schedule text =>
    simp only [Order.obey, schedule]
    split <;> exact hcancelled .superseded
  | teardown => exact hcancelled .teardown

theorem WellKept.turn_ledger (h : s.WellKept) (e : Engine σ Empty) (task : Task) :
    ((Move.turn task).take e ProcessCall.obey s).ledger =
      ((s.caller? task).map (s.ledgerOf e)).getD s.ledger :=
  h.resume_ledger task

/-- A move makes the calls of the session that makes them in it, and no others. -/
theorem WellKept.calls_take (h : s.WellKept) (e : Engine σ Empty) (move : Move σ ProcessCall) :
    (move.take e ProcessCall.obey s).calls =
      s.calls ++ ((move.caller? s).map (s.callsOf e)).getD [] := by
  cases move with
  | call command =>
    refine Eq.trans ?_ (List.append_nil _).symm
    cases command with
    | order given => exact congrArg Ledger.calls (obey_ledger given s)
    | install config => rfl
    | consult => rfl
  | turn task =>
    refine (congrArg Ledger.calls (h.turn_ledger e task)).trans ?_
    rw [Move.caller?]
    cases s.caller? task with
    | none => exact (List.append_nil _).symm
    | some x => exact s.ledgerOf_calls e x
  | insert parent node => exact (List.append_nil _).symm
  | work engine => exact (List.append_nil _).symm

theorem WellKept.made_eq (h : s.WellKept) (e : Engine σ Empty) (move : Move σ ProcessCall) :
    move.made e s = ((move.caller? s).map (s.callsOf e)).getD [] := by
  rw [Move.made, h.calls_take, List.drop_left]

theorem caller?_eq_some {move : Move σ κ} (hcaller : move.caller? s = some x) :
    ∃ i, move = .turn ⟨i, x.seq, .session⟩ ∧ x ∈ s.sessions ∧ x.progress = .deferred ∧
      x.cancelled = false := by
  cases move with
  | turn task =>
    obtain ⟨i, seq, role⟩ := task
    rw [Move.caller?, caller?] at hcaller
    split at hcaller
    · next hrole =>
      obtain rfl : role = .session := hrole
      obtain ⟨hfound, hcalling⟩ := Option.filter_eq_some_iff.mp hcaller
      obtain ⟨hx, rfl⟩ := session?_eq_some hfound
      simp only [Session.isCalling, Bool.and_eq_true, decide_eq_true_eq,
        Bool.not_eq_true'] at hcalling
      exact ⟨i, rfl, hx, hcalling⟩
    · cases hcaller
  | call command => cases hcaller
  | insert parent node => cases hcaller
  | work engine => cases hcaller

theorem Sound.takeProcess (h : s.Sound) (e : Engine σ Empty) (move : Move σ ProcessCall) :
    (move.take e ProcessCall.obey s).Sound := by
  refine h.take e ?_ move
  intro command t ht
  cases command with
  | order given => exact ht.obey given
  | install config => exact ht.frame rfl rfl (.of_eq rfl rfl rfl)
  | consult => exact ht.frame rfl rfl (.of_eq rfl rfl rfl)

theorem Sound.runProcess (h : s.Sound) (e : Engine σ Empty) (moves : List (Move σ ProcessCall)) :
    (s.run e ProcessCall.obey moves).Sound :=
  run_invariant (fun move _ ht => ht.takeProcess e move) moves h

/-! ## The configuration -/

theorem callsOf_nil (hshape : Diagram.looksLikeDiagram x.text = false) : s.callsOf e x = [] := by
  rw [callsOf, hshape]
  rfl

theorem isRender_of_mem_renderOf {call : EngineCall} (hcall : call ∈ s.renderOf e x) :
    call.isRender = true ∧ call.isValidate = false ∧ call.isConfigure = false := by
  unfold renderOf at hcall
  split at hcall
  · cases hcall
  · cases List.mem_singleton.mp hcall
    exact ⟨rfl, rfl, rfl⟩

/-- Asking for a text to be validated and rendered does not configure an engine. -/
theorem not_isConfigure_askingOf (e : Engine σ Empty) (s : Scene σ ο) (x : Session) :
    ∀ call ∈ s.askingOf e x, call.isConfigure = false := by
  intro call hcall
  rcases List.mem_cons.mp hcall with rfl | hrender
  · rfl
  · exact (isRender_of_mem_renderOf hrender).2.2

/-- The session that makes its calls configures the engine if that was not done. -/
theorem any_isConfigure_callsOf (e : Engine σ Empty) (s : Scene σ ο) (x : Session) :
    (s.callsOf e x).any (·.isConfigure) = (Diagram.looksLikeDiagram x.text && !s.configured) := by
  cases hshape : Diagram.looksLikeDiagram x.text with
  | false => simp [callsOf_nil hshape]
  | true =>
    have hnone : (s.askingOf e x).any (·.isConfigure) = false :=
      List.any_eq_false.mpr fun call hcall => by simp [s.not_isConfigure_askingOf e x call hcall]
    rw [callsOf, if_pos hshape, List.any_append, hnone]
    cases s.configured <;> rfl

end Scene

theorem SharedConfig.fix_fixed (c : SharedConfig) : c.fix.fixed = c.fixed.or (some {}) := by
  obtain ⟨fixed⟩ := c
  cases fixed <;> rfl

theorem SharedConfig.install_fixed (c : SharedConfig) (config : EngineConfig) :
    (c.install config).1.fixed = c.fixed.or (some config) := by
  obtain ⟨fixed⟩ := c
  cases fixed <;> rfl

/-- An engine was never called, or it was configured first, once, and with the settings in force. -/
inductive Ledger.Orderly (l : Ledger) : Prop where
  | untouched (configured : l.configured = false) (calls : l.calls = []) : Orderly l
  | configured (c : EngineConfig) (phase : Option Phase) (rest : List EngineCall)
      (configured : l.configured = true) (calls : l.calls = ⟨.configure c, phase⟩ :: rest)
      (once : ∀ call ∈ rest, call.isConfigure = false) (fixed : l.config.fixed = some c) : Orderly l

namespace Scene

variable {s : Scene σ ο} {x : Session} {e : Engine σ Empty}

/-- The settings of the process are the first that were proposed. -/
theorem WellKept.fixed_take (h : s.WellKept) (e : Engine σ Empty) (move : Move σ ProcessCall) :
    (move.take e ProcessCall.obey s).config.fixed =
      s.config.fixed.or (move.settings e s).head? := by
  cases move with
  | call command =>
    cases command with
    | order given =>
      refine (congrArg (·.config.fixed) (obey_ledger given s)).trans ?_
      simp [Move.settings, Bench.ledger]
    | install config => exact s.config.install_fixed config
    | consult => exact s.config.fix_fixed
  | turn task =>
    refine (congrArg (·.config.fixed) (h.turn_ledger e task)).trans ?_
    rw [Move.settings, h.made_eq, Move.caller?]
    cases s.caller? task with
    | none => simp [Bench.ledger]
    | some x =>
      simp only [Option.map_some, Option.getD_some, any_isConfigure_callsOf, ledgerOf]
      cases Diagram.looksLikeDiagram x.text with
      | false => simp [Bench.ledger]
      | true =>
        cases hconfigured : s.configured with
        | true => simp
        | false => simpa using s.config.fix_fixed
  | insert parent node => simp [Move.settings, Move.take]
  | work engine => simp [Move.settings, Move.take]

theorem Orderly.ledgerOf (h : s.ledger.Orderly) (e : Engine σ Empty) (x : Session) :
    (s.ledgerOf e x).Orderly := by
  unfold Scene.ledgerOf
  split
  · next hshape =>
    have hcalls : s.callsOf e x =
        (if s.configured then [] else [⟨.configure s.config.inForce, s.shown .validating⟩]) ++
          s.askingOf e x := if_pos hshape
    cases h with
    | untouched hconfigured hnone =>
      have hconfigured : s.configured = false := hconfigured
      have hnone : s.calls = [] := hnone
      refine .configured s.config.inForce (s.shown .validating) (s.askingOf e x) rfl ?_
        (s.not_isConfigure_askingOf e x) ?_
      · simp [hcalls, hconfigured, hnone]
      · simp [hconfigured, SharedConfig.fix]
    | configured c phase rest hconfigured hfirst honce hfixed =>
      have hconfigured : s.configured = true := hconfigured
      have hfirst : s.calls = ⟨.configure c, phase⟩ :: rest := hfirst
      refine .configured c phase (rest ++ s.askingOf e x) rfl ?_
        (List.forall_mem_append.mpr ⟨honce, s.not_isConfigure_askingOf e x⟩) ?_
      · simp [hcalls, hconfigured, hfirst]
      · simp only [hconfigured, ↓reduceIte]
        exact hfixed
  · exact h

theorem Orderly.take (h : s.ledger.Orderly) (hbooks : s.WellKept) (e : Engine σ Empty)
    (move : Move σ ProcessCall) : (move.take e ProcessCall.obey s).ledger.Orderly := by
  have hsettings : ∀ {config : SharedConfig},
      (∀ c, s.config.fixed = some c → config.fixed = some c) →
        Ledger.Orderly ⟨s.calls, s.configured, config⟩ := by
    intro config hfixed
    cases h with
    | untouched hconfigured hnone => exact .untouched hconfigured hnone
    | configured c phase rest hconfigured hfirst honce hc =>
      exact .configured c phase rest hconfigured hfirst honce (hfixed c hc)
  cases move with
  | call command =>
    cases command with
    | order given =>
      rw [show ((Move.call (.order given)).take e ProcessCall.obey s).ledger = s.ledger from
        obey_ledger given s]
      exact h
    | install config =>
      refine hsettings fun c hc => (s.config.install_fixed config).trans ?_
      rw [hc]
      rfl
    | consult =>
      refine hsettings fun c hc => s.config.fix_fixed.trans ?_
      rw [hc]
      rfl
  | turn task =>
    rw [hbooks.turn_ledger e task]
    cases s.caller? task with
    | none => exact h
    | some x => exact Orderly.ledgerOf h e x
  | insert parent node => exact h
  | work engine => exact h

end Scene

end DiagramView
