import DiagramView.Proofs.Soundness

/-!
# What turns leave alone

A turn brings a session further. It neither begins a session nor turns the status to another one,
and it does not reach the owner. The *outline* of a scene is all that turns leave alone
(`Scene.Sound.resume_outline`); calls of the owner change it as `schedule_outline` and
`teardown_outline` say. What depends on the outline alone need only be looked at when a call is
made.
-/

namespace DiagramView

/-- The part of a scene that only its owner changes. -/
structure Outline (ο : Type) where
  instanceId : InstanceId
  lastSeq : Nat
  /-- The session that the status is about. -/
  session : Option RenderId
  /-- The sessions' numbers and texts. -/
  texts : List (Nat × String)
  owner : ο

namespace Scene

variable {σ ο : Type} {s : Scene σ ο}

def outline (s : Scene σ ο) : Outline ο where
  instanceId := s.instanceId
  lastSeq := s.lastSeq
  session := s.status.session
  texts := s.sessions.map fun x => (x.seq, x.text)
  owner := s.owner

/-! ## Acts -/

/-- The record of a session may change while it keeps its number and its text. -/
theorem update_outline {seq : Nat} {f : Session → Session} (hseq : ∀ x, (f x).seq = x.seq)
    (htext : ∀ x, (f x).text = x.text) : (s.update seq f).outline = s.outline := by
  have htexts : (s.update seq f).sessions.map (fun x => (x.seq, x.text)) =
      s.sessions.map fun x => (x.seq, x.text) := by
    simp only [update, List.map_map]
    refine List.map_congr_left ?_
    intro x _
    simp only [Function.comp_apply]
    split
    · rw [hseq, htext]
    · rfl
  simp only [outline, htexts]
  rfl

@[simp] theorem setProgress_outline (s : Scene σ ο) (seq : Nat) (progress : Progress) :
    (s.setProgress seq progress).outline = s.outline :=
  update_outline (fun _ => rfl) fun _ => rfl

@[simp] theorem setPhase_outline (s : Scene σ ο) (seq : Nat) (phase : Phase) :
    (s.setPhase seq phase).outline = s.outline := by
  unfold setPhase
  split <;> rfl

@[simp] theorem discard_outline (s : Scene σ ο) (seq : Nat) :
    (s.discard seq).outline = s.outline :=
  setProgress_outline _ seq _

/-- A session that the status is about already may settle. -/
theorem settle_outline {seq : Nat} (hsession : s.status.session = some (s.renderId seq))
    (outcome : Outcome) : (s.settle seq outcome).outline = s.outline := by
  refine (setProgress_outline _ seq _).trans ?_
  simp only [outline, hsession]

theorem showResult_outline {seq : Nat} (hsession : s.status.session = some (s.renderId seq))
    (result : RenderResult) : (s.showResult seq result).outline = s.outline := by
  cases result with
  | crashed => exact s.setProgress_outline seq _
  | artifact markup =>
    simp only [showResult]
    split
    · exact settle_outline hsession _
    · exact s.discard_outline seq
  | failed message =>
    simp only [showResult]
    split
    · exact settle_outline hsession _
    · exact s.discard_outline seq

theorem cleanUp_outline (s : Scene σ ο) (seq : Nat) (host : HostId)
    (answer : Except String String) : (s.cleanUp seq host answer).outline = s.outline := by
  have hleft : ((s.onBench (s.toBench.conclude host answer).1).update seq
      fun x => { x with abandoned := none }).outline = s.outline :=
    update_outline (fun _ => rfl) fun _ => rfl
  unfold cleanUp
  dsimp only
  split <;> exact hleft

/-- The status is about the live session. -/
theorem Sound.session_of_live (h : s.Sound) {seq : Nat} (hlive : s.live = some seq) :
    s.status.session = some (s.renderId seq) := by
  cases h.display with
  | nothing live => rw [live] at hlive; cases hlive
  | noDiagram live => rw [live] at hlive; cases hlive
  | underWay x mem last live kept unsettled phase active status =>
    rw [status, Option.some.inj (live.symm.trans hlive)]
  | settled x mem last live => rw [live] at hlive; cases hlive

variable {e : Engine σ Empty}

theorem Sound.act_outline (h : s.Sound) {x : Session} {s' : Scene σ ο} (hact : s.Act e x s') :
    s'.outline = s.outline := by
  cases hact with
  | stepBack => exact s.setProgress_outline x.seq _
  | discard => exact s.discard_outline x.seq
  | abandon host =>
    refine (discard_outline _ x.seq).trans ?_
    exact update_outline (fun _ => rfl) fun _ => rfl
  | refuse error hx hprogress hkept =>
    have hlive := h.books.unfinished x hx hkept (by simp [Session.end?, hprogress])
    exact settle_outline (h.session_of_live hlive) _
  | begin keyword => exact (setProgress_outline _ x.seq _).trans (setPhase_outline _ x.seq _)
  | takeResult host response hx hprogress hkept =>
    have hlive := h.books.unfinished x hx hkept (by simp [Session.end?, hprogress])
    refine (showResult_outline ?_ _).trans rfl
    exact h.session_of_live hlive
  | cleanUp host response => exact cleanUp_outline _ x.seq host _

/-- A turn keeps the outline. -/
theorem Sound.resume_outline (h : s.Sound) (e : Engine σ Empty)
    (obey : Empty → Scene σ ο → Scene σ ο) (task : Task) :
    (s.resume e obey task).outline = s.outline := by
  have hkept : (s.resume e obey task).Sound ∧ (s.resume e obey task).outline = s.outline := by
    refine resume_induction (P := fun s' => s'.Sound ∧ s'.outline = s.outline) ?_ h.books
      ⟨h, rfl⟩ task
    rintro s₁ x s₂ ⟨hsound, houtline⟩ hact
    exact ⟨hsound.act hact, (hsound.act_outline hact).trans houtline⟩
  exact hkept.2

/-! ## Calls of the owner -/

theorem giveUp_texts (live : Option Nat) (sessions : List Session) :
    (sessions.map (·.giveUp live)).map (fun x => (x.seq, x.text)) =
      sessions.map fun x => (x.seq, x.text) := by
  simp [Function.comp_def]

theorem teardown_outline (s : Scene σ ο) :
    s.teardown.outline = { s.outline with session := none } := by
  simp only [outline, teardown_toSchedule, giveUp_texts]
  simp [teardown]

theorem schedule_outline (text : String) (s : Scene σ ο) :
    (s.schedule text).1.outline =
      { s.outline with
        lastSeq := s.lastSeq + 1
        session := some (s.renderId (s.lastSeq + 1))
        texts := s.outline.texts ++
          if Text.isBlankText text then [] else [(s.lastSeq + 1, text)] } := by
  simp only [outline, schedule_toSchedule, List.map_append, giveUp_texts, schedule_owner]
  split <;> rfl

end Scene

end DiagramView
