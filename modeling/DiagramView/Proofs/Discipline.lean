import DiagramView.Proofs.Calls

/-!
# The discipline of engine calls

A session is *due* while it was not given up and has not made its calls. A move keeps the text of a
session and never makes it due again (`Scene.Sound.precedes_take`); after the turn in which it makes
its calls it is not due (`Scene.Sound.silent_of_caller`). Hence a session calls in one turn at most.
In every state only the live session can be due, so of the sessions that a burst of orders begins
only the last one calls at all, and none does if the burst leaves no session live.
-/

namespace DiagramView

variable {σ κ ο : Type}

namespace Session

/-- Whether a session has its calls on the engine still to make. -/
def isDue (x : Session) : Bool :=
  !x.cancelled && (x.progress = .created || x.progress = .deferred)

/-- The records of a session at two times. -/
structure Precedes (x y : Session) : Prop where
  seq : x.seq = y.seq
  text : x.text = y.text
  due : y.isDue = true → x.isDue = true

theorem Precedes.refl (x : Session) : x.Precedes x :=
  ⟨rfl, rfl, id⟩

theorem Precedes.trans {x y z : Session} (hxy : x.Precedes y) (hyz : y.Precedes z) :
    x.Precedes z :=
  ⟨hxy.seq.trans hyz.seq, hxy.text.trans hyz.text, fun hdue => hxy.due (hyz.due hdue)⟩

theorem isDue_giveUp {x : Session} {live : Option Nat} (hdue : (x.giveUp live).isDue = true) :
    x.isDue = true := by
  simp only [isDue, giveUp_progress, Bool.and_eq_true, Bool.not_eq_true'] at hdue ⊢
  exact ⟨(giveUp_cancelled_eq_false.mp hdue.1).1, hdue.2⟩

end Session

namespace Scene

variable {s s' : Scene σ ο} {x y : Session} {e : Engine σ Empty}

/-! ## What becomes of a session -/

theorem precedes_update {seq : Nat} {f : Session → Session} (hy : y ∈ (s.update seq f).sessions)
    (hf : ∀ z ∈ s.sessions, z.seq = seq → z.Precedes (f z)) : ∃ z ∈ s.sessions, z.Precedes y := by
  obtain ⟨z, hz, rfl⟩ := mem_update.mp hy
  refine ⟨z, hz, ?_⟩
  split
  · next hseq => exact hf z hz hseq
  · exact .refl z

/-- A session is not due once its call was begun or it is over. -/
theorem precedes_setProgress {seq : Nat} {progress : Progress}
    (hy : y ∈ (s.setProgress seq progress).sessions)
    (hpast : ¬(progress = .created ∨ progress = .deferred)) : ∃ z ∈ s.sessions, z.Precedes y := by
  refine precedes_update hy fun z _ _ => ⟨rfl, rfl, ?_⟩
  intro hdue
  simp only [Session.isDue, Bool.and_eq_true, Bool.or_eq_true, decide_eq_true_eq] at hdue
  exact absurd hdue.2 hpast

theorem WellKept.precedes_act (h : s.WellKept) (hact : Act e s x s') (hy : y ∈ s'.sessions) :
    ∃ z ∈ s.sessions, z.Precedes y := by
  cases hact with
  | stepBack hx hprogress hkept =>
    refine precedes_update hy fun z hz hseq => ⟨rfl, rfl, fun _ => ?_⟩
    rw [h.eq_of_seq_eq hz hx hseq]
    simp [Session.isDue, hprogress, hkept]
  | discard => exact precedes_setProgress hy (by simp)
  | abandon host =>
    obtain ⟨z, hz, hzy⟩ := precedes_setProgress hy (by simp)
    obtain ⟨w, hw, hwz⟩ := precedes_update hz fun z _ _ => ⟨rfl, rfl, id⟩
    exact ⟨w, hw, hwz.trans hzy⟩
  | refuse error => exact precedes_setProgress hy (by simp)
  | begin keyword =>
    rw [(beginAwait_frame x.seq _ _).2] at hy
    exact precedes_setProgress hy (by simp)
  | takeResult host response =>
    obtain ⟨how, hsessions⟩ := showResult_sessions x.seq
      (response.after.conclude host response.answer).2
      ((s.onBench response.after).onBench (response.after.conclude host response.answer).1)
    have hy : y ∈ (s.setProgress x.seq (.ended how)).sessions := hsessions ▸ hy
    exact precedes_setProgress hy (by simp)
  | cleanUp host response =>
    rw [cleanUp_sessions] at hy
    exact precedes_update hy fun z _ _ => ⟨rfl, rfl, id⟩

theorem Sound.precedes_resume {obey : Empty → Scene σ ο → Scene σ ο} (h : s.Sound) (task : Task)
    (hy : y ∈ (s.resume e obey task).sessions) : ∃ z ∈ s.sessions, z.Precedes y := by
  have hturn : (s.resume e obey task).Sound ∧
      ∀ y ∈ (s.resume e obey task).sessions, ∃ z ∈ s.sessions, z.Precedes y := by
    refine resume_induction
      (P := fun t => t.Sound ∧ ∀ y ∈ t.sessions, ∃ z ∈ s.sessions, z.Precedes y) ?_ h.books
      ⟨h, fun y hy => ⟨y, hy, .refl y⟩⟩ task
    rintro s₁ x s₂ ⟨hsound, hprecedes⟩ hact
    refine ⟨hsound.act hact, fun y hy => ?_⟩
    obtain ⟨z, hz, hzy⟩ := hsound.books.precedes_act hact hy
    obtain ⟨w, hw, hwz⟩ := hprecedes z hz
    exact ⟨w, hw, hwz.trans hzy⟩
  exact hturn.2 y hy

theorem precedes_obey (order : Order) (hy : y ∈ (order.obey s).sessions) :
    (∃ z ∈ s.sessions, z.Precedes y) ∨ s.lastSeq < y.seq := by
  have hold : y ∈ s.sessions.map (·.giveUp s.live) → ∃ z ∈ s.sessions, z.Precedes y := by
    intro hy
    obtain ⟨z, hz, rfl⟩ := List.mem_map.mp hy
    exact ⟨z, hz, (Session.giveUp_seq _ z).symm, (Session.giveUp_text _ z).symm,
      Session.isDue_giveUp⟩
  cases order with
  | schedule text =>
    rw [Order.obey, schedule_toSchedule] at hy
    rcases List.mem_append.mp hy with hy | hnew
    · exact .inl (hold hy)
    · split at hnew
      · cases hnew
      · cases List.mem_singleton.mp hnew
        exact .inr (Nat.lt_succ_self _)
  | teardown =>
    rw [Order.obey, teardown_toSchedule] at hy
    exact .inl (hold hy)

/-- A session was there before a move, with its text, and due if it is now; or it is a new one. -/
theorem Sound.precedes_take (h : s.Sound) (e : Engine σ Empty) (move : Move σ ProcessCall)
    (hy : y ∈ (move.take e ProcessCall.obey s).sessions) :
    (∃ z ∈ s.sessions, z.Precedes y) ∨ s.lastSeq < y.seq := by
  cases move with
  | call command =>
    cases command with
    | order given => exact precedes_obey given hy
    | install config => exact .inl ⟨y, hy, .refl y⟩
    | consult => exact .inl ⟨y, hy, .refl y⟩
  | turn task => exact .inl (h.precedes_resume task hy)
  | insert parent node => exact .inl ⟨y, hy, .refl y⟩
  | work engine => exact .inl ⟨y, hy, .refl y⟩

theorem Sound.lastSeq_take (h : s.Sound) (e : Engine σ Empty) (move : Move σ ProcessCall) :
    s.lastSeq ≤ (move.take e ProcessCall.obey s).lastSeq := by
  cases move with
  | call command =>
    cases command with
    | order given =>
      cases given with
      | schedule text =>
        simp [Move.take, ProcessCall.obey, Order.obey, schedule_toSchedule]
      | teardown => simp [Move.take, ProcessCall.obey, Order.obey]
    | install config => exact Nat.le_refl _
    | consult => exact Nat.le_refl _
  | turn task => exact Nat.le_of_eq (congrArg Outline.lastSeq (h.resume_outline e _ task)).symm
  | insert parent node => exact Nat.le_refl _
  | work engine => exact Nat.le_refl _

/-- What is known of the session with a number that was given out. -/
def Known (q : Session → Prop) (n : Nat) (s : Scene σ ο) : Prop :=
  n ≤ s.lastSeq ∧ ∀ y ∈ s.sessions, y.seq = n → q y

/-- A session that makes no calls any more. -/
def Silent (n : Nat) (s : Scene σ ο) : Prop :=
  s.Known (·.isDue = false) n

def Has (text : String) (n : Nat) (s : Scene σ ο) : Prop :=
  s.Known (·.text = text) n

theorem Known.take {q : Session → Prop} {n : Nat} (hknown : s.Known q n)
    (hq : ∀ {z y : Session}, z.Precedes y → q z → q y) (h : s.Sound) (e : Engine σ Empty)
    (move : Move σ ProcessCall) : (move.take e ProcessCall.obey s).Known q n := by
  refine ⟨Nat.le_trans hknown.1 (h.lastSeq_take e move), fun y hy hseq => ?_⟩
  rcases h.precedes_take e move hy with ⟨z, hz, hzy⟩ | hnew
  · exact hq hzy (hknown.2 z hz (hzy.seq.trans hseq))
  · exact absurd hknown.1 (Nat.not_le_of_lt (hseq ▸ hnew))

theorem Silent.take {n : Nat} (hsilent : s.Silent n) (h : s.Sound) (e : Engine σ Empty)
    (move : Move σ ProcessCall) : (move.take e ProcessCall.obey s).Silent n := by
  refine Known.take hsilent (fun {z y} hzy hz => ?_) h e move
  cases hdue : y.isDue with
  | false => rfl
  | true => exact absurd (hzy.due hdue) (by simp [hz])

theorem Has.take {text : String} {n : Nat} (hhas : s.Has text n) (h : s.Sound)
    (e : Engine σ Empty) (move : Move σ ProcessCall) :
    (move.take e ProcessCall.obey s).Has text n :=
  Known.take hhas (fun hzy hz => hzy.text.symm.trans hz) h e move

/-! ## When a session is due -/

/-- Only the live session is due, and that is the last one. -/
theorem Sound.live_of_due (h : s.Sound) (hy : y ∈ s.sessions) (hdue : y.isDue = true) :
    s.live = some y.seq ∧ y.seq = s.lastSeq := by
  simp only [Session.isDue, Bool.and_eq_true, Bool.not_eq_true', Bool.or_eq_true,
    decide_eq_true_eq] at hdue
  have hopen : y.end? = none := by
    rcases hdue.2 with hcreated | hdeferred
    · simp [Session.end?, hcreated]
    · simp [Session.end?, hdeferred]
  have hlive := h.books.unfinished y hy hdue.1 hopen
  refine ⟨hlive, ?_⟩
  cases h.display with
  | nothing live => rw [live] at hlive; cases hlive
  | noDiagram live => rw [live] at hlive; cases hlive
  | underWay x mem last live => exact (Option.some.inj (live.symm.trans hlive)).symm
  | settled x mem last live => rw [live] at hlive; cases hlive

theorem Sound.silent_of_lt (h : s.Sound) {n : Nat} (hn : n < s.lastSeq) : s.Silent n := by
  refine ⟨Nat.le_of_lt hn, fun y hy hseq => Bool.eq_false_iff.mpr fun hdue => ?_⟩
  exact absurd ((h.live_of_due hy hdue).2.symm.trans hseq) (Nat.ne_of_gt hn)

theorem Sound.silent_of_idle (h : s.Sound) (hlive : s.live = none) {n : Nat}
    (hn : n ≤ s.lastSeq) : s.Silent n := by
  refine ⟨hn, fun y hy _ => Bool.eq_false_iff.mpr fun hdue => ?_⟩
  have hsome := (h.live_of_due hy hdue).1
  rw [hlive] at hsome
  cases hsome

theorem isDue_of_caller {move : Move σ ProcessCall} (hcaller : move.caller? s = some x) :
    x ∈ s.sessions ∧ x.isDue = true := by
  obtain ⟨i, rfl, hx, hprogress, hkept⟩ := caller?_eq_some hcaller
  exact ⟨hx, by simp [Session.isDue, hprogress, hkept]⟩

/-- In the turn in which a session makes its calls it begins to wait, or ends. -/
theorem WellKept.progress_of_calling {obey : Empty → Scene σ ο → Scene σ ο} (h : s.WellKept)
    (hx : x ∈ s.sessions) (hprogress : x.progress = .deferred) (hkept : x.cancelled = false)
    (hy : y ∈ (s.resumeSession e obey x.seq).sessions) (hseq : y.seq = x.seq) :
    y.progress ≠ .created ∧ y.progress ≠ .deferred := by
  cases hverdict : (s.verdict e x).answer with
  | error error =>
    rw [resumeSession_refused h hx hprogress hkept hverdict] at hy
    simp [progress_of_mem_setProgress hy hseq]
  | ok keyword =>
    rw [resumeSession_begun h hx hprogress hkept hverdict] at hy
    split at hy
    · rw [(beginAwait_frame x.seq _ _).2] at hy
      simp [progress_of_mem_setProgress hy hseq]
    · obtain ⟨how, hended⟩ := (takeResult_progress x.seq _ _ _).2 y hy hseq
      simp [hended]

/-- A session that has made its calls makes no more. -/
theorem Sound.silent_of_caller (h : s.Sound) {move : Move σ ProcessCall}
    (hcaller : move.caller? s = some x) (e : Engine σ Empty) :
    (move.take e ProcessCall.obey s).Silent x.seq := by
  obtain ⟨i, rfl, hx, hprogress, hkept⟩ := caller?_eq_some hcaller
  refine ⟨Nat.le_trans (h.books.numbered x hx) (h.lastSeq_take e _), fun y hy hseq => ?_⟩
  have hpast := h.books.progress_of_calling hx hprogress hkept hy hseq
  simp [Session.isDue, hpast]

/-! ## The calls of some sessions -/

/-- It does not matter whether silent sessions are counted in. -/
theorem Sound.callsBy_congr (h : s.Sound) {p q : Nat → Bool}
    (hpq : ∀ n, p n ≠ q n → s.Silent n) (moves : List (Move σ ProcessCall)) :
    callsBy e p moves s = callsBy e q moves s := by
  induction moves generalizing s with
  | nil => rfl
  | cons move moves ih =>
    have hrest := ih (h.takeProcess e move) fun n hn => (hpq n hn).take h e move
    rw [callsBy, callsBy, hrest, h.books.made_eq]
    refine congrArg (· ++ _) ?_
    cases hcaller : move.caller? s with
    | none => simp
    | some x =>
      obtain ⟨hx, hdue⟩ := isDue_of_caller hcaller
      obtain ⟨i, rfl, -⟩ := caller?_eq_some hcaller
      have heq : (Move.turn ⟨i, x.seq, .session⟩ : Move σ ProcessCall).isTurnOf p =
          (Move.turn ⟨i, x.seq, .session⟩ : Move σ ProcessCall).isTurnOf q := by
        refine Decidable.byContradiction fun hne => ?_
        exact absurd hdue (by simp [(hpq x.seq hne).2 x hx rfl])
      rw [heq]

theorem callsBy_none (e : Engine σ Empty) (moves : List (Move σ ProcessCall)) (s : Scene σ ο) :
    callsBy e (fun _ => false) moves s = [] := by
  induction moves generalizing s with
  | nil => rfl
  | cons move moves ih =>
    rw [callsBy, ih]
    cases move <;> rfl

theorem Sound.callsBy_eq_nil (h : s.Sound) {p : Nat → Bool}
    (hsilent : ∀ n, p n = true → s.Silent n) (moves : List (Move σ ProcessCall)) :
    callsBy e p moves s = [] := by
  rw [← callsBy_none e moves s]
  exact h.callsBy_congr (fun n hn => hsilent n (by simpa using hn)) moves

/-- A session makes its calls in one turn, if ever. -/
theorem Sound.callsBy_one (h : s.Sound) (n : Nat) (moves : List (Move σ ProcessCall)) :
    callsBy e (· == n) moves s = [] ∨
      ∃ (t : Scene σ ο) (x : Session), callsBy e (· == n) moves s = t.callsOf e x ∧
        ∀ text, s.Has text n → x.text = text := by
  induction moves generalizing s with
  | nil => exact .inl rfl
  | cons move moves ih =>
    have hsound := h.takeProcess e move
    rw [callsBy, h.books.made_eq]
    cases hcaller : move.caller? s with
    | none =>
      simp only [Option.map_none, Option.getD_none, ite_self, List.nil_append]
      refine (ih hsound).imp_right ?_
      rintro ⟨t, x, hcalls, htext⟩
      exact ⟨t, x, hcalls, fun text hhas => htext text (hhas.take h e move)⟩
    | some x =>
      have hsilent := h.silent_of_caller hcaller e
      obtain ⟨hx, -⟩ := isDue_of_caller hcaller
      by_cases hseq : x.seq = n
      · -- the session is not due after this turn, so that the rest of the course adds nothing
        have hrest : callsBy e (· == n) moves (move.take e ProcessCall.obey s) = [] := by
          refine hsound.callsBy_eq_nil (fun m hm => ?_) moves
          rw [beq_iff_eq.mp hm, ← hseq]
          exact hsilent
        obtain ⟨i, rfl, -⟩ := caller?_eq_some hcaller
        refine .inr ⟨s, x, ?_, fun text hhas => hhas.2 x hx hseq⟩
        rw [hrest]
        simp [Move.isTurnOf, hseq]
      · obtain ⟨i, rfl, -⟩ := caller?_eq_some hcaller
        have hother : (x.seq == n) = false := by simp [hseq]
        simp only [Move.isTurnOf, hother, Bool.false_eq_true, ↓reduceIte, List.nil_append]
        refine (ih hsound).imp_right ?_
        rintro ⟨t, y, hcalls, htext⟩
        exact ⟨t, y, hcalls, fun text hhas => htext text (hhas.take h e _)⟩

theorem countP_renderOf_le (p : EngineCall → Bool) (e : Engine σ Empty) (s : Scene σ ο)
    (x : Session) : (s.renderOf e x).countP p ≤ 1 := by
  refine Nat.le_trans List.countP_le_length ?_
  unfold renderOf
  split
  · exact Nat.zero_le 1
  · exact Nat.le_refl 1

theorem countP_callsOf_le (e : Engine σ Empty) (s : Scene σ ο) (x : Session) :
    (s.callsOf e x).countP (·.isValidate) ≤ 1 ∧ (s.callsOf e x).countP (·.isRender) ≤ 1 := by
  have hconfigure : ∀ p : EngineCall → Bool,
      (∀ config phase, p ⟨.configure config, phase⟩ = false) →
        (s.callsOf e x).countP p ≤ (s.askingOf e x).countP p := by
    intro p hp
    unfold callsOf
    split
    · rw [List.countP_append]
      split <;> simp [hp]
    · exact Nat.zero_le _
  have hrenders : (s.renderOf e x).countP (·.isValidate) = 0 :=
    List.countP_eq_zero.mpr fun call hcall => by simp [(isRender_of_mem_renderOf hcall).2.1]
  refine ⟨Nat.le_trans (hconfigure _ fun _ _ => rfl) ?_,
    Nat.le_trans (hconfigure _ fun _ _ => rfl) ?_⟩
  · exact Nat.le_of_eq (by rw [askingOf, List.countP_cons_of_pos rfl, hrenders])
  · rw [askingOf, List.countP_cons_of_neg (by simp [EngineCall.isRender])]
    exact countP_renderOf_le _ e s x

theorem text?_of_mem_callsOf {call : EngineCall} (hcall : call ∈ s.callsOf e x)
    (hasking : call.isConfigure = false) : call.text? = some x.text := by
  unfold callsOf at hcall
  split at hcall
  · rcases List.mem_append.mp hcall with hconfigure | hcall
    · split at hconfigure
      · cases hconfigure
      · cases List.mem_singleton.mp hconfigure
        cases hasking
    · rcases List.mem_cons.mp hcall with rfl | hrender
      · rfl
      · unfold renderOf at hrender
        split at hrender
        · cases hrender
        · cases List.mem_singleton.mp hrender
          rfl
  · cases hcall

/-- A session calls for one validation and one rendering at most. -/
theorem Sound.countP_callsBy_one_le (h : s.Sound) (e : Engine σ Empty) (n : Nat)
    (moves : List (Move σ ProcessCall)) :
    (callsBy e (· == n) moves s).countP (·.isValidate) ≤ 1 ∧
      (callsBy e (· == n) moves s).countP (·.isRender) ≤ 1 := by
  rcases h.callsBy_one (e := e) n moves with hnone | ⟨t, x, hcalls, -⟩
  · rw [hnone]
    exact ⟨Nat.zero_le 1, Nat.zero_le 1⟩
  · rw [hcalls]
    exact t.countP_callsOf_le e x

/-! ## Bursts of orders -/

/-- The calls that the sessions which a burst began make after it. -/
def burstCalls (e : Engine σ Empty) (s : Scene σ ο) (burst after : List (Move σ ProcessCall)) :
    List EngineCall :=
  callsBy e (fun n => s.lastSeq < n && n ≤ (s.run e ProcessCall.obey burst).lastSeq) after
    (s.run e ProcessCall.obey burst)

/-- The last order that a list of moves gives. -/
def lastOrder? (moves : List (Move σ ProcessCall)) : Option Order :=
  (moves.filterMap Move.given?).getLast?

/-- What a burst of orders, with no turn in between, has the engine called for. -/
structure Collapses (e : Engine σ Empty) (s : Scene σ ο) (burst after : List (Move σ ProcessCall)) :
    Prop where
  validations : (s.burstCalls e burst after).countP (·.isValidate) ≤ 1
  renderings : (s.burstCalls e burst after).countP (·.isRender) ≤ 1
  /-- The calls are for the text of the last order. -/
  text : ∀ text, lastOrder? burst = some (.schedule text) →
    ∀ call ∈ s.burstCalls e burst after, call.isConfigure = false → call.text? = some text
  /-- A burst that ends without a text, or gives no orders, causes no calls. -/
  silent : (∀ text, lastOrder? burst = some (.schedule text) → Text.isBlankText text = true) →
    s.burstCalls e burst after = []

/-- Moves other than orders and turns leave the books alone. -/
theorem take_toSchedule_of_quiet {move : Move σ ProcessCall}
    (hturn : move.isTurnOf (fun _ => true) = false) (hgiven : move.given? = none) :
    (move.take e ProcessCall.obey s).toSchedule = s.toSchedule := by
  cases move with
  | call command =>
    cases command with
    | order given => cases hgiven
    | install config => rfl
    | consult => rfl
  | turn task => cases hturn
  | insert parent node => rfl
  | work engine => rfl

/-- After a burst the books are as its last order left them. -/
theorem Sound.run_toSchedule_of_burst (h : s.Sound) {burst : List (Move σ ProcessCall)}
    (hburst : ∀ move ∈ burst, move.isTurnOf (fun _ => true) = false) :
    (lastOrder? burst = none ∧
        (s.run e ProcessCall.obey burst).toSchedule = s.toSchedule) ∨
      ∃ order, lastOrder? burst = some order ∧
        ∃ t : Scene σ ο, t.Sound ∧
          (s.run e ProcessCall.obey burst).toSchedule = (order.obey t).toSchedule := by
  -- from the front, since the last order is the first one if the rest of the burst gives none
  induction burst generalizing s with
  | nil => exact .inl ⟨rfl, rfl⟩
  | cons move burst ih =>
    obtain ⟨hmove, hburst⟩ := List.forall_mem_cons.mp hburst
    rcases ih (h.takeProcess e move) hburst with ⟨hnone, hbooks⟩ | ⟨order, hlast, hbooks⟩
    · replace hnone : burst.filterMap Move.given? = [] := List.getLast?_eq_none_iff.mp hnone
      cases hgiven : move.given? with
      | none =>
        refine .inl ⟨by rw [lastOrder?, List.filterMap_cons_none hgiven, hnone]; rfl, ?_⟩
        exact hbooks.trans (take_toSchedule_of_quiet hmove hgiven)
      | some order =>
        have hlast : lastOrder? (move :: burst) = some order := by
          rw [lastOrder?, List.filterMap_cons_some hgiven, hnone]
          rfl
        refine .inr ⟨order, hlast, s, h, hbooks.trans ?_⟩
        obtain rfl := Move.eq_of_given hgiven
        rfl
    · refine .inr ⟨order, ?_, hbooks⟩
      cases hgiven : move.given? with
      | none => rw [lastOrder?, List.filterMap_cons_none hgiven]; exact hlast
      | some first =>
        replace hlast : (burst.filterMap Move.given?).getLast? = some order := hlast
        rw [lastOrder?, List.filterMap_cons_some hgiven, List.getLast?_cons, hlast]
        rfl

/-- Of the sessions that a burst began, only the one of its last order makes calls. -/
theorem Sound.burstCalls_eq (h : s.Sound) (burst after : List (Move σ ProcessCall)) :
    s.burstCalls e burst after = [] ∨
      s.burstCalls e burst after = callsBy e (· == (s.run e ProcessCall.obey burst).lastSeq) after
        (s.run e ProcessCall.obey burst) := by
  have hsound := h.runProcess e burst
  by_cases hbegan : s.lastSeq < (s.run e ProcessCall.obey burst).lastSeq
  · refine .inr (hsound.callsBy_congr (fun n hn => hsound.silent_of_lt ?_) after)
    by_cases hlast : n = (s.run e ProcessCall.obey burst).lastSeq
    · simp [hlast, hbegan] at hn
    · have hother : (n == (s.run e ProcessCall.obey burst).lastSeq) = false := by simp [hlast]
      rw [hother] at hn
      simp only [ne_eq, Bool.not_eq_false, Bool.and_eq_true, decide_eq_true_eq] at hn
      omega
  · refine .inl (hsound.callsBy_eq_nil (fun n hn => ?_) after)
    simp only [Bool.and_eq_true, decide_eq_true_eq] at hn
    omega

theorem Sound.burstCalls_of_idle (h : s.Sound) {burst : List (Move σ ProcessCall)}
    (hidle : (s.run e ProcessCall.obey burst).live = none)
    (after : List (Move σ ProcessCall)) : s.burstCalls e burst after = [] := by
  have hsound := h.runProcess e burst
  refine hsound.callsBy_eq_nil (fun n hn => hsound.silent_of_idle hidle ?_) after
  simp only [Bool.and_eq_true, decide_eq_true_eq] at hn
  exact hn.2

theorem Sound.has_schedule (h : s.Sound) (text : String) :
    (s.schedule text).1.Has text (s.schedule text).1.lastSeq := by
  refine ⟨Nat.le_refl _, ?_⟩
  rw [schedule_toSchedule]
  intro y hy hseq
  replace hseq : y.seq = s.lastSeq + 1 := hseq
  rcases List.mem_append.mp hy with hold | hnew
  · obtain ⟨z, hz, rfl⟩ := List.mem_map.mp hold
    have hle := h.books.numbered z hz
    rw [Session.giveUp_seq] at hseq
    omega
  · split at hnew
    · cases hnew
    · cases List.mem_singleton.mp hnew
      rfl

theorem Has.of_toSchedule {text : String} {n : Nat} (hhas : s'.Has text n)
    (hbooks : s.toSchedule = s'.toSchedule) : s.Has text n := by
  unfold Has Known at hhas ⊢
  rw [hbooks]
  exact hhas

/-- A burst of orders is worth its last one. -/
theorem Sound.collapses (h : s.Sound) {burst : List (Move σ ProcessCall)}
    (hburst : ∀ move ∈ burst, move.isTurnOf (fun _ => true) = false)
    (after : List (Move σ ProcessCall)) : s.Collapses e burst after := by
  have hsound := h.runProcess e burst
  have hcounts : (s.burstCalls e burst after).countP (·.isValidate) ≤ 1 ∧
      (s.burstCalls e burst after).countP (·.isRender) ≤ 1 := by
    rcases h.burstCalls_eq (e := e) burst after with hnone | hlast
    · rw [hnone]
      exact ⟨Nat.zero_le 1, Nat.zero_le 1⟩
    · rw [hlast]
      exact hsound.countP_callsBy_one_le e _ after
  refine ⟨hcounts.1, hcounts.2, ?_, ?_⟩
  · intro text hlast call hcall hasking
    rcases h.run_toSchedule_of_burst (e := e) hburst with
      ⟨hnone, -⟩ | ⟨order, horder, t, ht, hbooks⟩
    · rw [hnone] at hlast
      cases hlast
    obtain rfl : order = .schedule text := Option.some.inj (horder.symm.trans hlast)
    have hhas :
        (s.run e ProcessCall.obey burst).Has text (s.run e ProcessCall.obey burst).lastSeq := by
      rw [hbooks]
      exact (ht.has_schedule text).of_toSchedule hbooks
    rcases h.burstCalls_eq (e := e) burst after with hnone | hone
    · rw [hnone] at hcall
      cases hcall
    · rw [hone] at hcall
      rcases hsound.callsBy_one (e := e) _ after with hnone | ⟨t, x, hcalls, htext⟩
      · rw [hnone] at hcall
        cases hcall
      · rw [hcalls] at hcall
        rw [text?_of_mem_callsOf hcall hasking, htext text hhas]
  · intro hblank
    rcases h.run_toSchedule_of_burst (e := e) hburst with
      ⟨-, hbooks⟩ | ⟨order, horder, t, -, hbooks⟩
    · -- no order was given, so that the burst began no session
      refine hsound.callsBy_eq_nil (fun n hn => ?_) after
      simp only [hbooks, Bool.and_eq_true, decide_eq_true_eq] at hn
      omega
    · refine h.burstCalls_of_idle ?_ after
      rw [hbooks]
      cases order with
      | schedule text =>
        rw [Order.obey, schedule_toSchedule]
        exact if_pos (hblank text horder)
      | teardown => rw [Order.obey, teardown_toSchedule]

/-! ## The discipline -/

/-- A move makes the calls of the live session, which is the last one: the configuration if the
engine has none, the validation of its text, and the rendering if the text was accepted. -/
structure Calling (e : Engine σ Empty) (s : Scene σ ο) (move : Move σ ProcessCall) (x : Session) :
    Prop where
  turn : ∃ i, move = .turn ⟨i, x.seq, .session⟩
  mem : x ∈ s.sessions
  last : x.seq = s.lastSeq
  live : s.live = some x.seq
  kept : x.cancelled = false
  shaped : Diagram.looksLikeDiagram x.text = true
  made : move.made e s =
    (if s.configured then [] else [⟨.configure s.config.inForce, s.shown .validating⟩]) ++
      s.askingOf e x

/-- The calls on an engine in a course. -/
structure Discipline (e : Engine σ Empty) (s : Scene σ ο) (moves : List (Move σ ProcessCall)) :
    Prop where
  /-- Calls are made in turns only. -/
  trace : (s.run e ProcessCall.obey moves).calls = s.calls ++ callsBy e (fun _ => true) moves s
  /-- The engine is configured first and once, with the settings that were proposed first. -/
  configured : (s.run e ProcessCall.obey moves).calls = [] ∨
    ∃ config phase rest,
      (s.run e ProcessCall.obey moves).calls = ⟨.configure config, phase⟩ :: rest ∧
      (∀ call ∈ rest, call.isConfigure = false) ∧
      (s.config.fixed.toList ++ settings e moves s).head? = some config
  calling : ∀ before move after, moves = before ++ move :: after →
    move.made e (s.run e ProcessCall.obey before) = [] ∨
      ∃ x, Calling e (s.run e ProcessCall.obey before) move x
  once : ∀ n, (callsBy e (· == n) moves s).countP (·.isValidate) ≤ 1 ∧
    (callsBy e (· == n) moves s).countP (·.isRender) ≤ 1
  bursts : ∀ before burst after, moves = before ++ burst ++ after →
    (∀ move ∈ burst, move.isTurnOf (fun _ => true) = false) →
      (s.run e ProcessCall.obey before).Collapses e burst after

theorem Sound.trace (h : s.Sound) (e : Engine σ Empty) (moves : List (Move σ ProcessCall)) :
    (s.run e ProcessCall.obey moves).calls = s.calls ++ callsBy e (fun _ => true) moves s := by
  induction moves generalizing s with
  | nil => exact (List.append_nil _).symm
  | cons move moves ih =>
    refine (ih (h.takeProcess e move)).trans ?_
    have hmade : (if move.isTurnOf (fun _ => true) then move.made e s else []) =
        ((move.caller? s).map (s.callsOf e)).getD [] := by
      rw [h.books.made_eq]
      cases move <;> rfl
    rw [callsBy, hmade, h.books.calls_take, List.append_assoc]

theorem Sound.fixed_run (h : s.Sound) (e : Engine σ Empty) (moves : List (Move σ ProcessCall)) :
    (s.run e ProcessCall.obey moves).config.fixed =
      (s.config.fixed.toList ++ settings e moves s).head? := by
  induction moves generalizing s with
  | nil =>
    change s.config.fixed = (s.config.fixed.toList ++ []).head?
    cases s.config.fixed <;> rfl
  | cons move moves ih =>
    refine (ih (h.takeProcess e move)).trans ?_
    rw [h.books.fixed_take, settings]
    cases s.config.fixed with
    | some config => rfl
    | none => cases move.settings e s <;> simp

theorem Sound.calling (h : s.Sound) (e : Engine σ Empty) (move : Move σ ProcessCall) :
    move.made e s = [] ∨ ∃ x, Calling e s move x := by
  have hmade := h.books.made_eq e move
  cases hcaller : move.caller? s with
  | none =>
    rw [hcaller] at hmade
    exact .inl hmade
  | some x =>
    obtain ⟨hx, hdue⟩ := isDue_of_caller hcaller
    obtain ⟨hlive, hlast⟩ := h.live_of_due hx hdue
    obtain ⟨i, hmove, -, -, hkept⟩ := caller?_eq_some hcaller
    rw [hcaller] at hmade
    replace hmade : move.made e s = s.callsOf e x := hmade
    cases hshape : Diagram.looksLikeDiagram x.text with
    | false => exact .inl (hmade.trans (callsOf_nil hshape))
    | true =>
      exact .inr ⟨x, ⟨i, hmove⟩, hx, hlast, hlive, hkept, hshape, hmade.trans (if_pos hshape)⟩

end Scene

/-- In every course the calls on an engine keep their discipline: it is configured first and once,
sessions call when they are live and at most once, and a burst of orders is worth its last one. -/
theorem engine_calls_disciplined (e : Engine σ Empty) (config : SharedConfig) (engine : σ)
    (i : InstanceId) (owner : ο) (moves : List (Move σ ProcessCall)) :
    (Scene.fresh config engine i owner).Discipline e moves := by
  have hfresh : (Scene.fresh config engine i owner).Sound := .fresh config engine i owner
  have horderly :
      ((Scene.fresh config engine i owner).run e ProcessCall.obey moves).ledger.Orderly :=
    (Scene.run_invariant (P := fun s => s.Sound ∧ s.ledger.Orderly)
      (fun move _ ht => ⟨ht.1.takeProcess e move, Scene.Orderly.take ht.2 ht.1.books e move⟩) moves
      ⟨hfresh, .untouched rfl rfl⟩).2
  constructor
  case trace => exact hfresh.trace e moves
  case configured =>
    rw [← hfresh.fixed_run]
    cases horderly with
    | untouched _ hnone => exact .inl hnone
    | configured c phase rest _ hcalls honce hfixed =>
      exact .inr ⟨c, phase, rest, hcalls, honce, hfixed⟩
  case calling =>
    intro before move after _
    exact (hfresh.runProcess e before).calling e move
  case once => exact fun n => hfresh.countP_callsBy_one_le e n moves
  case bursts =>
    intro before burst after _ hburst
    exact (hfresh.runProcess e before).collapses hburst after

end DiagramView
