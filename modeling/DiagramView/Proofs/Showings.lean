import DiagramView.Proofs.Discipline

/-!
# What the status shows

The status can be looked at when the engine is called and between moves: the *statuses seen* in a
course (`Scene.seen`) are all of these, in order. Between turns the phase is told by how far the
live session has come (`Scene.Staged`), so a move other than an order leads from the phase before it
through those seen in it along one of the `Phase.passages` (`Scene.Sound.phases_seen`). An order
turns the status to a session with a new number, or to none. Hence what is seen later is about the
session that is shown now, and further along, or about one with a higher number
(`Scene.Sound.seen_after`).
-/

namespace DiagramView

variable {σ κ ο : Type}

/-! ## Passages -/

namespace Phase

/-- The ways in which a session can go from its beginning to its end. -/
def passages : List (List Phase) :=
  [[.scheduled, .validating, .rendering, .rendered],
    [.scheduled, .validating, .rendering, .renderError],
    [.scheduled, .validating, .parseError]]

/-- Whether a session that shows the first phase may still show it, or come to show the second. -/
def leadsTo (p q : Phase) : Bool :=
  p = q || passages.any fun passage => [p, q].isSublist passage

theorem mem_all (p : Phase) : p ∈ all := by
  cases p <;> decide

theorem leadsTo_refl (p : Phase) : p.leadsTo p = true := by
  simp [leadsTo]

theorem leadsTo_trans {p q r : Phase} (hpq : p.leadsTo q = true) (hqr : q.leadsTo r = true) :
    p.leadsTo r = true := by
  have hall : ∀ p ∈ all, ∀ q ∈ all, ∀ r ∈ all,
      p.leadsTo q = true → q.leadsTo r = true → p.leadsTo r = true := by
    decide +kernel
  exact hall p p.mem_all q q.mem_all r r.mem_all hpq hqr

theorem eq_of_leadsTo_of_isTerminal {p q : Phase} (hp : p.isTerminal = true)
    (hpq : p.leadsTo q = true) : p = q := by
  have hall : ∀ p ∈ all, ∀ q ∈ all, p.isTerminal = true → p.leadsTo q = true → p = q := by
    decide +kernel
  exact hall p p.mem_all q q.mem_all hp hpq

end Phase

/-- A list without the items that are equal to the one behind them. -/
def changes {α : Type} [DecidableEq α] : List α → List α
  | [] => []
  | [a] => [a]
  | a :: b :: l => if a = b then changes (b :: l) else a :: changes (b :: l)

theorem changes_of_forall_eq {α : Type} [DecidableEq α] {a : α} {l : List α}
    (h : ∀ b ∈ l, b = a) : changes (a :: l) = [a] := by
  induction l with
  | nil => rfl
  | cons b l ih =>
    obtain rfl : b = a := h b (by simp)
    rw [changes, if_pos rfl]
    exact ih fun c hc => h c (by simp [hc])

/-- The phases of one session, in order and without repetitions: a text that was blank, or a part of
a passage that begins where the passage begins. -/
def Phase.IsPassage (phases : List Phase) : Prop :=
  phases = [.noDiagram] ∨
    phases.head? = some .scheduled ∧ ∃ passage ∈ Phase.passages, phases.Sublist passage

namespace Phase

theorem cons_dropWhile_sublist {p q : Phase} (hne : p ≠ q) (hpq : p.leadsTo q = true)
    {passage : List Phase} (hpassage : passage ∈ passages) (hq : q ∈ passage) :
    p ∈ passage ∧ (p :: passage.dropWhile (· ≠ q)).Sublist (passage.dropWhile (· ≠ p)) := by
  have hall : ∀ p ∈ all, ∀ q ∈ all, ∀ passage ∈ passages, p ≠ q → p.leadsTo q = true →
      q ∈ passage →
        p ∈ passage ∧ (p :: passage.dropWhile (· ≠ q)).Sublist (passage.dropWhile (· ≠ p)) := by
    decide +kernel
  exact hall p p.mem_all q q.mem_all passage hpassage hne hpq hq

/-- Phases each of which leads to all that come after it are part of one passage. -/
theorem changes_sublist {l : List Phase} {p : Phase}
    (hleads : (p :: l).Pairwise fun p q => p.leadsTo q = true)
    (hp : ∃ passage ∈ passages, p ∈ passage) :
    ∃ passage ∈ passages, p ∈ passage ∧
      (changes (p :: l)).Sublist (passage.dropWhile (· ≠ p)) := by
  induction l generalizing p with
  | nil =>
    obtain ⟨passage, hpassage, hp⟩ := hp
    refine ⟨passage, hpassage, hp, ?_⟩
    have hall : ∀ passage ∈ passages, ∀ p ∈ passage, [p].Sublist (passage.dropWhile (· ≠ p)) := by
      decide +kernel
    exact hall passage hpassage p hp
  | cons q l ih =>
    obtain ⟨hfirst, hrest⟩ := List.pairwise_cons.mp hleads
    have hpq : p.leadsTo q = true := hfirst q (by simp)
    by_cases heq : p = q
    · subst heq
      rw [changes, if_pos rfl]
      exact ih hrest hp
    · have hq : ∃ passage ∈ passages, q ∈ passage := by
        have hall : ∀ p ∈ all, ∀ q ∈ all, p ≠ q → p.leadsTo q = true →
            ∃ passage ∈ passages, q ∈ passage := by
          decide +kernel
        exact hall p p.mem_all q q.mem_all heq hpq
      obtain ⟨passage, hpassage, hmem, hsublist⟩ := ih hrest hq
      obtain ⟨hp', hcons⟩ := cons_dropWhile_sublist heq hpq hpassage hmem
      refine ⟨passage, hpassage, hp', ?_⟩
      rw [changes, if_neg heq]
      exact (hsublist.cons_cons p).trans hcons

/-- Validating, then rendering, then a phase that both lead to. -/
theorem pairwise_leadsTo {early late : List Phase} {p : Phase}
    (hearly : ∀ q ∈ early, q = .validating) (hlate : ∀ q ∈ late, q = .rendering)
    (hp : Phase.validating.leadsTo p = true)
    (hp' : late ≠ [] → Phase.rendering.leadsTo p = true) :
    (Phase.scheduled :: (early ++ late ++ [p])).Pairwise fun p q => p.leadsTo q = true := by
  have hsame : ∀ {l : List Phase} {r : Phase}, (∀ q ∈ l, q = r) →
      l.Pairwise fun p q => p.leadsTo q = true := by
    intro l r hl
    rw [List.eq_replicate_of_mem hl]
    exact List.pairwise_replicate.mpr (.inr r.leadsTo_refl)
  refine .cons (fun q hq => ?_) (List.pairwise_append.mpr
    ⟨List.pairwise_append.mpr ⟨hsame hearly, hsame hlate, fun q hq r hr => ?_⟩,
      List.pairwise_singleton _ _, fun q hq r hr => ?_⟩)
  · rcases List.mem_append.mp hq with hq | hq
    · rcases List.mem_append.mp hq with hq | hq
      · rw [hearly q hq]
        rfl
      · rw [hlate q hq]
        rfl
    · rw [List.mem_singleton.mp hq]
      exact leadsTo_trans (q := .validating) rfl hp
  · rw [hearly q hq, hlate r hr]
    rfl
  · rw [List.mem_singleton.mp hr]
    rcases List.mem_append.mp hq with hq | hq
    · rw [hearly q hq]
      exact hp
    · rw [hlate q hq]
      exact hp' (List.ne_nil_of_mem hq)

theorem head?_changes (p : Phase) (l : List Phase) : (changes (p :: l)).head? = some p := by
  induction l generalizing p with
  | nil => rfl
  | cons q l ih =>
    rw [changes]
    split
    · next heq => rw [heq, ih q]
    · rfl

theorem isPassage_changes {l : List Phase} {p : Phase}
    (hleads : (p :: l).Pairwise fun p q => p.leadsTo q = true)
    (hp : p = .scheduled ∨ p = .noDiagram) : IsPassage (changes (p :: l)) := by
  rcases hp with rfl | rfl
  · obtain ⟨passage, hpassage, -, hsublist⟩ :=
      changes_sublist hleads ⟨_, List.mem_cons_self, by decide⟩
    exact .inr ⟨head?_changes _ l, passage, hpassage,
      hsublist.trans (List.dropWhile_sublist _)⟩
  · refine .inl (changes_of_forall_eq fun q hq => ?_)
    exact (eq_of_leadsTo_of_isTerminal rfl ((List.pairwise_cons.mp hleads).1 q hq)).symm

end Phase

/-! ## The stage of the live session -/

/-- The phase that a session shows between turns while it is live. -/
def Session.stage (x : Session) : Phase :=
  match x.progress with
  | .created | .deferred => .scheduled
  | .running | .waiting _ | .ended _ => .rendering

namespace Scene

variable {s s' s'' : Scene σ ο} {x : Session} {e : Engine σ Empty}

/-- No task has its turn, and the phase shown is that of the live session. -/
structure Staged (s : Scene σ ο) : Prop where
  resting : ∀ x ∈ s.sessions, x.progress ≠ .running
  phase : ∀ x ∈ s.sessions, s.live = some x.seq → s.status.phase = x.stage

namespace Staged

theorem frame (h : s.Staged) (hbooks : s'.toSchedule = s.toSchedule) : s'.Staged := by
  obtain ⟨hresting, hphase⟩ := h
  refine ⟨?_, ?_⟩ <;> rw [hbooks]
  · exact hresting
  · exact hphase

theorem update (h : s.Staged) {seq : Nat} {f : Session → Session}
    (hseq : ∀ y, (f y).seq = y.seq)
    (hresting : ∀ y ∈ s.sessions, y.seq = seq → (f y).progress ≠ .running)
    (hstage : ∀ y ∈ s.sessions, y.seq = seq → s.live = some seq → (f y).stage = y.stage) :
    (s.update seq f).Staged := by
  refine ⟨fun x hx => ?_, fun x hx hlive => ?_⟩
  all_goals obtain ⟨y, hy, rfl⟩ := mem_update.mp hx
  · split
    · next heq => exact hresting y hy heq
    · exact h.resting y hy
  · split at hlive
    · next heq =>
      have hlive' : s.live = some y.seq := (hlive.trans (by rw [hseq]))
      rw [if_pos heq, hstage y hy heq (hlive'.trans (by rw [heq]))]
      exact h.phase y hy hlive'
    · next hne =>
      rw [if_neg hne]
      exact h.phase y hy hlive

theorem setProgress (h : s.Staged) {seq : Nat} {progress : Progress}
    (hresting : progress ≠ .running)
    (hstage : ∀ y ∈ s.sessions, y.seq = seq → s.live = some seq →
      ({ y with progress } : Session).stage = y.stage) :
    (s.setProgress seq progress).Staged :=
  h.update (fun _ => rfl) (fun _ _ _ => hresting) hstage

/-- Whoever settles leaves no session live. -/
theorem settle (h : s.Staged) (hbooks : s'.toSchedule = s.toSchedule) (seq : Nat)
    (outcome : Outcome) : (s'.settle seq outcome).Staged := by
  have hidle : Staged { s' with
      live := none, status := ⟨some (s'.renderId seq), outcome.phase, outcome.message?⟩ } :=
    ⟨(h.frame hbooks).resting, fun _ _ hlive => by cases hlive⟩
  exact hidle.setProgress (by simp) fun _ _ _ hlive => by cases hlive

theorem discard (h : s.Staged) (hbooks : s'.toSchedule = s.toSchedule) {seq : Nat}
    (hlive : s.live ≠ some seq) : (s'.discard seq).Staged := by
  have hswept : ((s'.sweep (s'.renderId seq).owns).1.report
      (.staleDiscarded (s'.renderId seq).text (s'.sweep (s'.renderId seq).owns).2)).Staged :=
    h.frame hbooks
  refine hswept.setProgress (by simp) fun _ _ _ hlive' => absurd ?_ hlive
  rw [← hbooks]
  exact hlive'

end Staged

/-! ## What a turn shows -/

/-- What a turn may do to the status: the phase goes on, and nothing changes when no session is
live. -/
structure Leads (s s' : Scene σ ο) : Prop where
  phase : s.status.phase.leadsTo s'.status.phase = true
  idle : s.live = none → s'.live = none ∧ s'.status = s.status

namespace Leads

theorem of_eq (hlive : s'.live = s.live) (hstatus : s'.status = s.status) : Leads s s' := by
  refine ⟨?_, fun hidle => ⟨hlive.trans hidle, hstatus⟩⟩
  rw [hstatus]
  exact Phase.leadsTo_refl _

theorem of_live {seq : Nat} (hlive : s.live = some seq)
    (hphase : s.status.phase.leadsTo s'.status.phase = true) : Leads s s' :=
  ⟨hphase, fun hidle => by rw [hlive] at hidle; cases hidle⟩

theorem trans (h : Leads s s') (h' : Leads s' s'') : Leads s s'' := by
  refine ⟨Phase.leadsTo_trans h.phase h'.phase, fun hidle => ?_⟩
  obtain ⟨hlive, hstatus⟩ := h.idle hidle
  obtain ⟨hlive', hstatus'⟩ := h'.idle hlive
  exact ⟨hlive', hstatus'.trans hstatus⟩

end Leads

theorem Staged.showResult (h : s.Staged) (hx : x ∈ s.sessions) (hlive : s.live = some x.seq)
    (hunique : ∀ y ∈ s.sessions, y.seq = x.seq → y = x) {host : HostId}
    (hprogress : x.progress = .waiting host) (result : RenderResult) :
    (s.showResult x.seq result).Staged ∧ Leads s (s.showResult x.seq result) := by
  have hphase : s.status.phase = .rendering := by
    rw [h.phase x hx hlive, Session.stage, hprogress]
  have hisLive : s.isLive x.seq = true := by simp [isLive, hlive]
  cases result with
  | crashed =>
    refine ⟨h.setProgress (by simp) fun y hy hseq _ => ?_, .of_eq rfl rfl⟩
    rw [hunique y hy hseq, Session.stage, Session.stage, hprogress]
  | artifact markup =>
    simp only [Scene.showResult, hisLive, ↓reduceIte]
    refine ⟨h.settle (by rfl) x.seq _, .of_live hlive ?_⟩
    rw [hphase]
    rfl
  | failed message =>
    simp only [Scene.showResult, hisLive, ↓reduceIte]
    refine ⟨h.settle (by rfl) x.seq _, .of_live hlive ?_⟩
    rw [hphase]
    rfl

theorem cleanUp_toSchedule (seq : Nat) (host : HostId) (answer : Except String String)
    (s : Scene σ ο) :
    (s.cleanUp seq host answer).toSchedule =
      (s.update seq fun x => { x with abandoned := none }).toSchedule := by
  unfold cleanUp
  dsimp only
  split <;> rfl

/-- An act leads the status on, and leaves it telling how far the live session has come. -/
theorem Sound.staged_act (h : s.Sound) (hstaged : s.Staged) (hact : Act e s x s') :
    s'.Staged ∧ Leads s s' := by
  have hunique : ∀ y ∈ s.sessions, y.seq = x.seq → y = x :=
    fun y hy hseq => h.books.eq_of_seq_eq hy hact.mem hseq
  cases hact with
  | stepBack hx hprogress hkept =>
    have hdeferred : (s.setProgress x.seq .deferred).Staged := by
      refine hstaged.setProgress (by simp) fun y hy hseq _ => ?_
      rw [hunique y hy hseq, Session.stage, Session.stage, hprogress]
    exact ⟨hdeferred.frame rfl, .of_eq rfl rfl⟩
  | discard hx hprogress hcancelled =>
    exact ⟨hstaged.discard rfl (h.not_live_of_cancelled hx hcancelled), .of_eq rfl rfl⟩
  | abandon host hx hprogress hcancelled =>
    have hlive := h.not_live_of_cancelled hx hcancelled
    have hleft : (s.update x.seq fun y => { y with abandoned := some host }).Staged :=
      hstaged.update (fun _ => rfl) (fun y hy _ => hstaged.resting y hy) fun _ _ _ _ => rfl
    exact ⟨hleft.discard (by rfl) hlive, .of_eq rfl rfl⟩
  | refuse error hx hprogress hkept hverdict =>
    have hlive := h.books.unfinished x hx hkept (by simp [Session.end?, hprogress])
    have hphase : s.status.phase = .scheduled := by
      rw [hstaged.phase x hx hlive, Session.stage, hprogress]
    refine ⟨hstaged.settle (by rfl) x.seq _, .of_live hlive ?_⟩
    rw [hphase]
    rfl
  | begin keyword hx hprogress hkept hverdict =>
    have hlive : (s.onBench (s.opening e x).after).live = some x.seq :=
      h.books.unfinished x hx hkept (by simp [Session.end?, hprogress])
    have hphase : s.status.phase = .scheduled := by
      rw [hstaged.phase x hx hlive, Session.stage, hprogress]
    rw [beginAwait_eq hlive]
    refine ⟨⟨fun y hy => ?_, fun y hy hlive' => ?_⟩, .of_live hlive (by rw [hphase]; rfl)⟩
    · obtain ⟨z, hz, rfl⟩ := mem_update.mp hy
      split
      · simp
      · exact hstaged.resting z hz
    · have hseq : y.seq = x.seq := (Option.some.inj (hlive.symm.trans hlive')).symm
      rw [Session.stage, progress_of_mem_setProgress hy hseq]
      rfl
  | takeResult host response hx hprogress hkept hpoll =>
    have hlive := h.books.unfinished x hx hkept (by simp [Session.end?, hprogress])
    have hconcluded : Staged ((s.onBench response.after).onBench
        (response.after.conclude host response.answer).1) := hstaged.frame rfl
    obtain ⟨hstaged', hleads⟩ := hconcluded.showResult hx hlive hunique hprogress
      (response.after.conclude host response.answer).2
    exact ⟨hstaged', hleads.phase, hleads.idle⟩
  | cleanUp host response hx habandoned hpoll =>
    have hbooks := cleanUp_toSchedule x.seq host response.answer (s.onBench response.after)
    have hleft : (s.update x.seq fun y => { y with abandoned := none }).Staged :=
      hstaged.update (fun _ => rfl) (fun y hy _ => hstaged.resting y hy) fun _ _ _ _ => rfl
    exact ⟨hleft.frame hbooks, .of_eq (by rw [hbooks]; rfl) (by rw [hbooks]; rfl)⟩

/-- A turn leads the status on. -/
theorem Sound.staged_resume (h : s.Sound) (hstaged : s.Staged) (e : Engine σ Empty)
    (obey : Empty → Scene σ ο → Scene σ ο) (task : Task) :
    (s.resume e obey task).Staged ∧ Leads s (s.resume e obey task) := by
  have hturn : (s.resume e obey task).Sound ∧ (s.resume e obey task).Staged ∧
      Leads s (s.resume e obey task) := by
    refine resume_induction (P := fun t => t.Sound ∧ t.Staged ∧ Leads s t) ?_ h.books
      ⟨h, hstaged, .of_eq rfl rfl⟩ task
    rintro s₁ x s₂ ⟨hsound, hstaged, hleads⟩ hact
    obtain ⟨hstaged', hleads'⟩ := hsound.staged_act hstaged hact
    exact ⟨hsound.act hact, hstaged', hleads.trans hleads'⟩
  exact hturn.2

theorem eq_of_shown {phase p : Phase} (h : s.shown phase = some p) : p = phase := by
  unfold shown at h
  split at h
  · cases h
  · exact (Option.some.inj h).symm

theorem phases_renderOf (e : Engine σ Empty) (s : Scene σ ο) (x : Session) :
    ∀ p ∈ (s.renderOf e x).filterMap (·.phase), p = .rendering := by
  intro p hp
  obtain ⟨call, hcall, hphase⟩ := List.mem_filterMap.mp hp
  unfold renderOf at hcall
  split at hcall
  · cases hcall
  · cases List.mem_singleton.mp hcall
    exact eq_of_shown hphase

/-- The engine sees that a text is validated until it is asked to render it. -/
theorem exists_phases_callsOf (e : Engine σ Empty) (s : Scene σ ο) (x : Session) :
    ∃ early, (s.callsOf e x).filterMap (·.phase) =
        early ++ (s.renderOf e x).filterMap (·.phase) ∧ ∀ p ∈ early, p = .validating := by
  cases hshape : Diagram.looksLikeDiagram x.text with
  | false =>
    refine ⟨[], ?_, fun p hp => by cases hp⟩
    rw [callsOf_nil hshape, renderOf]
    split
    · rfl
    · next keyword hverdict =>
      rw [(Bench.accepted_of_validate_ok hverdict).1] at hshape
      cases hshape
  | true =>
    refine ⟨((if s.configured then [] else [⟨.configure s.config.inForce, s.shown .validating⟩]) ++
      [⟨.validate x.text, s.shown .validating⟩] : List EngineCall).filterMap (·.phase), ?_, ?_⟩
    · rw [callsOf, if_pos hshape, askingOf, ← List.filterMap_append, List.append_assoc]
      rfl
    · intro p hp
      obtain ⟨call, hcall, hphase⟩ := List.mem_filterMap.mp hp
      have hshown : call.phase = s.shown .validating := by
        rcases List.mem_append.mp hcall with hconfigure | hvalidate
        · split at hconfigure
          · cases hconfigure
          · rw [List.mem_singleton.mp hconfigure]
        · rw [List.mem_singleton.mp hvalidate]
      exact eq_of_shown (hshown.symm.trans hphase)

section Calling

variable (h : s.Sound) (hstaged : s.Staged) (hx : x ∈ s.sessions)
  (hprogress : x.progress = .deferred) (hkept : x.cancelled = false)
  {obey : Empty → Scene σ ο → Scene σ ο}
include h hx hprogress hkept

theorem phase_of_refused {error : ParseError} (hverdict : (s.verdict e x).answer = .error error) :
    (s.resumeSession e obey x.seq).status.phase = .parseError := by
  rw [resumeSession_refused h.books hx hprogress hkept hverdict]
  rfl

include hstaged

/-- A session whose text was accepted shows that it is rendered, and goes on from there. -/
theorem phase_of_accepted {keyword : Diagram.Keyword}
    (hverdict : (s.verdict e x).answer = .ok keyword) :
    Phase.rendering.leadsTo (s.resumeSession e obey x.seq).status.phase = true := by
  have hlive : (s.onBench (s.opening e x).after).live = some x.seq :=
    h.books.unfinished x hx hkept (by simp [Session.end?, hprogress])
  have hbegin : Act e s x _ := .begin keyword hx hprogress hkept hverdict
  have hsound := h.act hbegin
  have hstaged' := (h.staged_act hstaged hbegin).1
  have hbegun : ((s.onBench (s.opening e x).after).beginAwait x.seq
      (s.opening e x).answer).status.phase = .rendering := by
    rw [beginAwait_eq hlive]
    rfl
  rw [resumeSession_begun h.books hx hprogress hkept hverdict]
  cases hpoll : (s.opening e x).after.poll e (s.opening e x).answer with
  | none =>
    simp only [hbegun]
    exact Phase.leadsTo_refl _
  | some response =>
    have hmem : { x with progress := .waiting (s.opening e x).answer } ∈
        ((s.onBench (s.opening e x).after).beginAwait x.seq (s.opening e x).answer).sessions := by
      rw [beginAwait_eq hlive]
      exact mem_update.mpr ⟨x, hx, by simp⟩
    have hpoll' : ((s.onBench (s.opening e x).after).beginAwait x.seq
        (s.opening e x).answer).toBench.poll e (s.opening e x).answer = some response := by
      rw [(beginAwait_frame x.seq _ _).1]
      exact hpoll
    rw [← hbegun]
    exact (hsound.staged_act hstaged' (.takeResult _ response hmem rfl hkept hpoll')).2.phase

/-- What a session shows in the turn in which it makes its calls. -/
theorem pairwise_phases_of_calling :
    (Phase.scheduled :: ((s.callsOf e x).filterMap (·.phase) ++
      [(s.resumeSession e obey x.seq).status.phase])).Pairwise fun p q => p.leadsTo q = true := by
  obtain ⟨early, hphases, hearly⟩ := exists_phases_callsOf e s x
  rw [hphases]
  refine Phase.pairwise_leadsTo hearly (phases_renderOf e s x) ?_ ?_
  · cases hverdict : (s.verdict e x).answer with
    | error error =>
      rw [phase_of_refused h hx hprogress hkept hverdict]
      rfl
    | ok keyword =>
      exact Phase.leadsTo_trans (q := .rendering) rfl
        (phase_of_accepted h hstaged hx hprogress hkept hverdict)
  · intro hrendered
    cases hverdict : (s.verdict e x).answer with
    | error error => simp [renderOf, hverdict] at hrendered
    | ok keyword => exact phase_of_accepted h hstaged hx hprogress hkept hverdict

end Calling

end Scene

/-! ## Statuses seen in a course -/

namespace Move

/-- The statuses seen in a move: with every call on the engine the phase that it saw, and the status
after the move. -/
def seen (e : Engine σ Empty) (s : Scene σ ο) (move : Move σ ProcessCall) : List Status :=
  (((move.made e s).filterMap (·.phase)).map fun phase => { s.status with phase }) ++
    [(move.take e ProcessCall.obey s).status]

end Move

namespace Scene

variable {s : Scene σ ο} {e : Engine σ Empty}

/-- The statuses seen in a course. -/
def seen (e : Engine σ Empty) : List (Move σ ProcessCall) → Scene σ ο → List Status
  | [], _ => []
  | move :: moves, s => move.seen e s ++ seen e moves (move.take e ProcessCall.obey s)

theorem WellKept.made_of_order (h : s.WellKept) (e : Engine σ Empty) (order : Order) :
    (Move.call (.order order)).made e s = [] := by
  rw [h.made_eq]
  rfl

theorem WellKept.seen_of_order (h : s.WellKept) (e : Engine σ Empty) (order : Order) :
    (Move.call (.order order)).seen e s = [(order.obey s).status] := by
  rw [Move.seen, h.made_of_order]
  rfl

/-- A move other than an order keeps the outline. -/
theorem Sound.outline_take (h : s.Sound) (e : Engine σ Empty) {move : Move σ ProcessCall}
    (hgiven : move.given? = none) :
    (move.take e ProcessCall.obey s).outline = s.outline := by
  cases move with
  | call command =>
    cases command with
    | order given => cases hgiven
    | install config => rfl
    | consult => rfl
  | turn task => exact h.resume_outline e _ task
  | insert parent node => rfl
  | work engine => rfl

theorem Staged.obey (h : s.Staged) (hbooks : s.WellKept) (order : Order) :
    (order.obey s).Staged := by
  have hold : ∀ x ∈ s.sessions.map (·.giveUp s.live), x.progress ≠ .running := by
    intro x hx
    obtain ⟨y, hy, rfl⟩ := List.mem_map.mp hx
    rw [Session.giveUp_progress]
    exact h.resting y hy
  cases order with
  | schedule text =>
    refine ⟨fun x hx => ?_, fun x hx hlive => ?_⟩
    · rw [Order.obey, schedule_toSchedule] at hx
      rcases List.mem_append.mp hx with hx | hnew
      · exact hold x hx
      · split at hnew
        · cases hnew
        · cases List.mem_singleton.mp hnew
          exact fun hrunning => by cases hrunning
    · rw [Order.obey, schedule_toSchedule] at hx hlive ⊢
      dsimp only at hx hlive ⊢
      split at hlive
      · cases hlive
      · next hblank =>
        -- the new session is live, and the others have lower numbers
        rw [if_neg hblank] at hx ⊢
        rcases List.mem_append.mp hx with hx | hnew
        · obtain ⟨y, hy, rfl⟩ := List.mem_map.mp hx
          have hle := hbooks.numbered y hy
          rw [Session.giveUp_seq] at hlive
          have hnew := Option.some.inj hlive
          omega
        · cases List.mem_singleton.mp hnew
          rfl
  | teardown =>
    rw [Order.obey]
    refine ⟨fun x hx => ?_, fun x hx hlive => ?_⟩
    · rw [teardown_toSchedule] at hx
      exact hold x hx
    · rw [teardown_toSchedule] at hlive
      cases hlive

theorem Sound.staged_take (h : s.Sound) (hstaged : s.Staged) (e : Engine σ Empty)
    (move : Move σ ProcessCall) : (move.take e ProcessCall.obey s).Staged := by
  cases move with
  | call command =>
    cases command with
    | order given => exact hstaged.obey h.books given
    | install config => exact hstaged.frame rfl
    | consult => exact hstaged.frame rfl
  | turn task => exact (h.staged_resume hstaged e _ task).1
  | insert parent node => exact hstaged.frame rfl
  | work engine => exact hstaged.frame rfl

theorem Sound.leads_take (h : s.Sound) (hstaged : s.Staged) (e : Engine σ Empty)
    {move : Move σ ProcessCall} (hgiven : move.given? = none) :
    Leads s (move.take e ProcessCall.obey s) := by
  cases move with
  | call command =>
    cases command with
    | order given => cases hgiven
    | install config => exact .of_eq rfl rfl
    | consult => exact .of_eq rfl rfl
  | turn task => exact (h.staged_resume hstaged e _ task).2
  | insert parent node => exact .of_eq rfl rfl
  | work engine => exact .of_eq rfl rfl

/-- The phases seen in a move that is no order go on from the one before it. -/
theorem Sound.phases_seen (h : s.Sound) (hstaged : s.Staged) (e : Engine σ Empty)
    {move : Move σ ProcessCall} (hgiven : move.given? = none) :
    (s.status.phase :: (move.seen e s).map (·.phase)).Pairwise fun p q => p.leadsTo q = true := by
  have hphases : (move.seen e s).map (·.phase) =
      (move.made e s).filterMap (·.phase) ++ [(move.take e ProcessCall.obey s).status.phase] := by
    simp [Move.seen, Function.comp_def]
  rw [hphases, h.books.made_eq]
  cases hcaller : move.caller? s with
  | none =>
    refine List.pairwise_pair.mpr ?_
    exact (h.leads_take hstaged e hgiven).phase
  | some x =>
    obtain ⟨i, rfl, hx, hprogress, hkept⟩ := caller?_eq_some hcaller
    have hlive := h.books.unfinished x hx hkept (by simp [Session.end?, hprogress])
    have hphase : s.status.phase = .scheduled := by
      rw [hstaged.phase x hx hlive, Session.stage, hprogress]
    rw [hphase]
    exact pairwise_phases_of_calling h hstaged hx hprogress hkept

/-- All that is seen in a move is about the session that the status is about after it. -/
theorem Sound.session_of_seen (h : s.Sound) (e : Engine σ Empty) {move : Move σ ProcessCall}
    {a : Status} (ha : a ∈ move.seen e s) :
    a.session = (move.take e ProcessCall.obey s).status.session := by
  cases hgiven : move.given? with
  | some order =>
    rw [Move.eq_of_given hgiven, h.books.seen_of_order] at ha
    rw [List.mem_singleton.mp ha, Move.eq_of_given hgiven]
    rfl
  | none =>
    have hsession : (move.take e ProcessCall.obey s).status.session = s.status.session :=
      congrArg Outline.session (h.outline_take e hgiven)
    rcases List.mem_append.mp ha with hcall | hafter
    · obtain ⟨phase, -, rfl⟩ := List.mem_map.mp hcall
      exact hsession.symm
    · rw [List.mem_singleton.mp hafter]

/-- What is seen in a move leads to what is shown after it. -/
theorem Sound.leadsTo_of_seen (h : s.Sound) (hstaged : s.Staged) (e : Engine σ Empty)
    {move : Move σ ProcessCall} {a : Status} (ha : a ∈ move.seen e s) :
    a.phase.leadsTo (move.take e ProcessCall.obey s).status.phase = true := by
  rcases List.mem_append.mp ha with hcall | hafter
  · cases hgiven : move.given? with
    | some order =>
      rw [Move.eq_of_given hgiven, h.books.made_of_order] at hcall
      cases hcall
    | none =>
      have hphases := (List.pairwise_cons.mp (h.phases_seen hstaged e hgiven)).2
      rw [Move.seen, List.map_append] at hphases
      exact (List.pairwise_append.mp hphases).2.2 _ (List.mem_map_of_mem hcall) _ (by simp)
  · rw [List.mem_singleton.mp hafter]
    exact Phase.leadsTo_refl _

theorem take_instanceId (h : s.Sound) (e : Engine σ Empty) (move : Move σ ProcessCall) :
    (move.take e ProcessCall.obey s).instanceId = s.instanceId := by
  cases hgiven : move.given? with
  | none => exact congrArg Outline.instanceId (h.outline_take e hgiven)
  | some order =>
    rw [Move.eq_of_given hgiven]
    exact Order.obey_instanceId order s

theorem Sound.lastSeq_run (h : s.Sound) (e : Engine σ Empty) (moves : List (Move σ ProcessCall)) :
    s.lastSeq ≤ (s.run e ProcessCall.obey moves).lastSeq := by
  induction moves generalizing s with
  | nil => exact Nat.le_refl _
  | cons move moves ih => exact Nat.le_trans (h.lastSeq_take e move) (ih (h.takeProcess e move))

/-- What is seen after a scene is about the session that is shown in it, which has come further, or
about a session with a new number. -/
theorem Sound.seen_after (h : s.Sound) (hstaged : s.Staged) (e : Engine σ Empty)
    (moves : List (Move σ ProcessCall)) {b : Status} (hb : b ∈ seen e moves s) {id : RenderId}
    (hid : b.session = some id) :
    (∃ n, s.lastSeq < n ∧ n ≤ (s.run e ProcessCall.obey moves).lastSeq ∧ id = s.renderId n) ∨
      s.status.session = some id ∧ s.status.phase.leadsTo b.phase = true := by
  induction moves generalizing s with
  | nil => cases hb
  | cons move moves ih =>
    have hsound := h.takeProcess e move
    have hle := hsound.lastSeq_run e moves
    have hinstance := take_instanceId h e move
    -- what is seen in the rest of the course, or at the end of the first move
    have hlater : ∀ t : Scene σ ο, t = move.take e ProcessCall.obey s →
        (∃ n, t.lastSeq < n ∧ n ≤ (t.run e ProcessCall.obey moves).lastSeq ∧ id = t.renderId n) ∨
          t.status.session = some id ∧
            (move.given? = none → s.status.phase.leadsTo b.phase = true) := by
      rintro t rfl
      rcases List.mem_append.mp hb with hfirst | hrest
      · refine .inr ⟨(h.session_of_seen e hfirst).symm.trans hid, fun hgiven => ?_⟩
        exact (List.pairwise_cons.mp (h.phases_seen hstaged e hgiven)).1 _
          (List.mem_map_of_mem hfirst)
      · rcases ih hsound (h.staged_take hstaged e move) hrest with hnew | ⟨hsession, hleads⟩
        · exact .inl hnew
        · exact .inr ⟨hsession, fun hgiven =>
            Phase.leadsTo_trans (h.leads_take hstaged e hgiven).phase hleads⟩
    rcases hlater _ rfl with ⟨n, hn, hn', rfl⟩ | ⟨hsession, hleads⟩
    · refine .inl ⟨n, Nat.lt_of_le_of_lt (h.lastSeq_take e move) hn, hn', ?_⟩
      rw [renderId, hinstance]
      rfl
    · cases hgiven : move.given? with
      | none =>
        refine .inr ⟨?_, hleads hgiven⟩
        exact (congrArg Outline.session (h.outline_take e hgiven)).symm.trans hsession
      | some order =>
        obtain rfl := Move.eq_of_given hgiven
        cases order with
        | schedule text =>
          have hnumber : (s.schedule text).1.lastSeq = s.lastSeq + 1 := by rw [schedule_toSchedule]
          refine .inl ⟨s.lastSeq + 1, Nat.lt_succ_self _, ?_, ?_⟩
          · exact Nat.le_trans (Nat.le_of_eq hnumber.symm) hle
          · change (s.schedule text).1.status.session = some id at hsession
            rw [schedule_toSchedule] at hsession
            exact (Option.some.inj hsession).symm
        | teardown => cases hsession

/-- The sessions seen in a course never go back, and the phases of each go on. -/
theorem Sound.pairwise_seen (h : s.Sound) (hstaged : s.Staged) (e : Engine σ Empty)
    (moves : List (Move σ ProcessCall)) :
    (seen e moves s).Pairwise fun a b => ∀ m n, a.session = some (s.renderId m) →
      b.session = some (s.renderId n) → m ≤ n ∧ (m = n → a.phase.leadsTo b.phase = true) := by
  induction moves generalizing s with
  | nil => exact .nil
  | cons move moves ih =>
    have hsound := h.takeProcess e move
    have hstaged' := h.staged_take hstaged e move
    have hinstance := take_instanceId h e move
    have hphases : ((move.seen e s).map (·.phase)).Pairwise fun p q => p.leadsTo q = true := by
      cases hgiven : move.given? with
      | none => exact (List.pairwise_cons.mp (h.phases_seen hstaged e hgiven)).2
      | some order =>
        rw [Move.eq_of_given hgiven, h.books.seen_of_order]
        exact List.pairwise_singleton _ _
    refine List.pairwise_append.mpr ⟨?_, ?_, ?_⟩
    · refine (List.pairwise_map.mp hphases).imp_of_mem ?_
      intro a b ha hb hab m n ham hbn
      have hsame := (h.session_of_seen e ha).trans (h.session_of_seen e hb).symm
      rw [ham, hbn] at hsame
      have hmn := InstanceId.renderId_injective (Option.some.inj hsame)
      exact ⟨Nat.le_of_eq hmn, fun _ => hab⟩
    · have hrest := ih hsound hstaged'
      simp only [renderId, hinstance] at hrest ⊢
      exact hrest
    · intro a ha b hb m n ham hbn
      have hshown := (h.session_of_seen e ha).symm.trans ham
      have hlast : m = (move.take e ProcessCall.obey s).lastSeq := by
        have hid := hsound.coherent.session _ hshown
        rw [renderId, renderId, hinstance] at hid
        exact InstanceId.renderId_injective hid
      rcases hsound.seen_after hstaged' e moves hb hbn with ⟨k, hk, -, hid⟩ | ⟨hsession, hleads⟩
      · rw [renderId, renderId, hinstance] at hid
        have hnk := InstanceId.renderId_injective hid
        exact ⟨by omega, fun hmn => by omega⟩
      · rw [hshown] at hsession
        have hmn := InstanceId.renderId_injective (Option.some.inj hsession)
        refine ⟨Nat.le_of_eq hmn, fun _ => Phase.leadsTo_trans ?_ hleads⟩
        exact h.leadsTo_of_seen hstaged e ha

end Scene

end DiagramView
