import DiagramView.Session.Run

/-!
# What the record of an engine bears out

A renderer keeps the calls made on its engine and the engine's answers. A session's outcome is
*borne out* by that record (`Renderer.Supports`) when it is what the answers given for the session's
own text and in the host of the session's own call lead to. The record only grows, so an outcome
once borne out stays so (`Renderer.Supports.mono`). It grows in step with the surface: every call
gets the host attached for it, so no two calls share one (`Bench.Numbered`).

The spec lemmas of the bench say what each call adds to the record and what it does to the surface.
An engine without requests (`Empty`) touches nothing but the surface, the log and its own state in
the course of a call, and of the surface only what lies outside the container.
-/

namespace DiagramView

variable {σ ο : Type}

instance decEqExcept {ε α : Type} [DecidableEq ε] [DecidableEq α] : DecidableEq (Except ε α)
  | .ok a, .ok b => decidable_of_iff (a = b) ⟨congrArg _, Except.ok.inj⟩
  | .error a, .error b => decidable_of_iff (a = b) ⟨congrArg _, Except.error.inj⟩
  | .ok _, .error _ => isFalse fun h => by cases h
  | .error _, .ok _ => isFalse fun h => by cases h

namespace Renderer

/-- Whatever is on record in one renderer is on record in the other. -/
structure Within (r r' : Renderer σ) : Prop where
  calls : r.calls ⊆ r'.calls
  answers : r.answers ⊆ r'.answers

/-- A text was accepted, and a call for it was begun under an id in a host. -/
structure Began (r : Renderer σ) (id : RenderId) (text : String) (host : HostId) : Prop where
  looksLikeDiagram : Diagram.looksLikeDiagram text = true
  accepted : .verdict text (.ok ()) ∈ r.answers
  called : ∃ phase, ⟨.render id text host, phase⟩ ∈ r.calls

/-- The record leads to an outcome for a text under an id, and to the markup that is shown with
it. -/
inductive Supports (r : Renderer σ) (id : RenderId) (text : String) :
    Outcome → Option String → Prop where
  | misshapen : Diagram.looksLikeDiagram text = false →
      Supports r id text (.parseError ParseError.notDiagramShaped.message) none
  | refused (message : String) : Diagram.looksLikeDiagram text = true →
      .verdict text (.error message) ∈ r.answers →
      Supports r id text (.parseError message) none
  | failed (host : HostId) (message : String) : r.Began id text host →
      .result host (.error message) ∈ r.answers →
      Supports r id text (.renderError message) none
  | rendered (host : HostId) (raw markup : String) : r.Began id text host →
      .result host (.ok raw) ∈ r.answers → (Markup.neutralize raw).markup = some markup →
      Supports r id text .rendered (some markup)

/-- A call for a session came to its end with markup that could not be neutralized. -/
def Crashed (r : Renderer σ) (id : RenderId) : Prop :=
  ∃ text host phase raw, ⟨.render id text host, phase⟩ ∈ r.calls ∧
    .result host (.ok raw) ∈ r.answers ∧ (Markup.neutralize raw).markup = none

theorem Within.refl (r : Renderer σ) : r.Within r :=
  ⟨List.Subset.refl _, List.Subset.refl _⟩

theorem Began.mono {r r' : Renderer σ} {id : RenderId} {text : String} {host : HostId}
    (h : r.Began id text host) (hr : r.Within r') : r'.Began id text host := by
  obtain ⟨phase, hcall⟩ := h.called
  exact ⟨h.looksLikeDiagram, hr.answers h.accepted, phase, hr.calls hcall⟩

theorem Crashed.mono {r r' : Renderer σ} {id : RenderId} (h : r.Crashed id) (hr : r.Within r') :
    r'.Crashed id := by
  obtain ⟨text, host, phase, raw, hcall, hanswer, hmarkup⟩ := h
  exact ⟨text, host, phase, raw, hr.calls hcall, hr.answers hanswer, hmarkup⟩

/-- What the record bears out it bears out for good. -/
theorem Supports.mono {r r' : Renderer σ} {id : RenderId} {text : String} {outcome : Outcome}
    {markup : Option String} (h : r.Supports id text outcome markup) (hr : r.Within r') :
    r'.Supports id text outcome markup := by
  cases h with
  | misshapen hshape => exact .misshapen hshape
  | refused message hshape hanswer => exact .refused message hshape (hr.answers hanswer)
  | failed host message hbegan hanswer =>
    exact .failed host message (hbegan.mono hr) (hr.answers hanswer)
  | rendered host raw markup hbegan hanswer hmarkup =>
    exact .rendered host raw markup (hbegan.mono hr) (hr.answers hanswer) hmarkup

end Renderer

/-! ## The growth of the record -/

/-- The host that a call was given, if it was given one. -/
def EngineCall.host? (c : EngineCall) : Option HostId :=
  match c.request with
  | .render _ _ host => some host
  | _ => none

/-- Of two members of a list that stand in its order neither way, there is only one. -/
theorem eq_of_pairwise {α : Type} {R : α → α → Prop} {l : List α} (h : l.Pairwise R) {x y : α}
    (hx : x ∈ l) (hy : y ∈ l) (hxy : ¬R x y) (hyx : ¬R y x) : x = y := by
  obtain ⟨i, hi, rfl⟩ := List.mem_iff_getElem.mp hx
  obtain ⟨j, hj, rfl⟩ := List.mem_iff_getElem.mp hy
  have hR := List.pairwise_iff_getElem.mp h
  rcases Nat.lt_trichotomy i j with hij | rfl | hji
  · exact absurd (hR i j hi hj hij) hxy
  · rfl
  · exact absurd (hR j i hj hi hji) hyx

namespace Bench

variable {κ : Type}

/-- The calls on record have hosts in the order in which these were attached. -/
structure Numbered (b : Bench σ) : Prop where
  ascending : b.calls.Pairwise fun c c' => ∀ h h', c.host? = some h → c'.host? = some h' →
    h.number < h'.number
  attached : ∀ c ∈ b.calls, ∀ h, c.host? = some h → h.number ≤ b.surface.attached

/-- The record of a bench has grown, and new calls have new hosts. -/
structure Grows (b b' : Bench σ) : Prop where
  answers : b.answers ⊆ b'.answers
  attached : b.surface.attached ≤ b'.surface.attached
  calls : ∃ added, b'.calls = b.calls ++ added ∧
    (added.Pairwise fun c c' => ∀ h h', c.host? = some h → c'.host? = some h' →
      h.number < h'.number) ∧
    ∀ c ∈ added, ∀ h, c.host? = some h →
      b.surface.attached < h.number ∧ h.number ≤ b'.surface.attached

/-- A host belongs to one call. -/
theorem Numbered.call_eq {b : Bench σ} (h : b.Numbered) {c c' : EngineCall} (hc : c ∈ b.calls)
    (hc' : c' ∈ b.calls) {host : HostId} (hhost : c.host? = some host)
    (hhost' : c'.host? = some host) : c = c' := by
  apply eq_of_pairwise h.ascending hc hc'
  · exact fun hlt => Nat.lt_irrefl _ (hlt host host hhost hhost')
  · exact fun hlt => Nat.lt_irrefl _ (hlt host host hhost' hhost)

namespace Grows

variable {b b' b'' : Bench σ}

theorem within (h : b.Grows b') : b.toRenderer.Within b'.toRenderer := by
  obtain ⟨added, hcalls, -⟩ := h.calls
  exact ⟨by rw [hcalls]; exact List.subset_append_left _ _, h.answers⟩

/-- Nothing has changed that counts. -/
theorem of_eq (hcalls : b'.calls = b.calls) (hanswers : b'.answers = b.answers)
    (hattached : b'.surface.attached = b.surface.attached) : b.Grows b' := by
  refine ⟨hanswers ▸ List.Subset.refl _, Nat.le_of_eq hattached.symm, [],
    by rw [hcalls, List.append_nil], .nil, ?_⟩
  intro c hc
  cases hc

theorem refl (b : Bench σ) : b.Grows b :=
  of_eq rfl rfl rfl

theorem trans (h : b.Grows b') (h' : b'.Grows b'') : b.Grows b'' := by
  obtain ⟨added, hcalls, hascending, hnew⟩ := h.calls
  obtain ⟨added', hcalls', hascending', hnew'⟩ := h'.calls
  refine ⟨List.Subset.trans h.answers h'.answers, Nat.le_trans h.attached h'.attached,
    added ++ added', by rw [hcalls', hcalls, List.append_assoc], ?_, ?_⟩
  · refine List.pairwise_append.mpr ⟨hascending, hascending', ?_⟩
    intro c hc c' hc' host host' hhost hhost'
    exact Nat.lt_of_le_of_lt (hnew c hc host hhost).2 (hnew' c' hc' host' hhost').1
  · intro c hc host hhost
    rcases List.mem_append.mp hc with hleft | hright
    · obtain ⟨hlt, hle⟩ := hnew c hleft host hhost
      exact ⟨hlt, Nat.le_trans hle h'.attached⟩
    · obtain ⟨hlt, hle⟩ := hnew' c hright host hhost
      exact ⟨Nat.lt_of_le_of_lt h.attached hlt, hle⟩

/-- The hosts of a record that has grown are in order if they were before. -/
theorem numbered (h : b.Grows b') (hb : b.Numbered) : b'.Numbered := by
  obtain ⟨added, hcalls, hascending, hnew⟩ := h.calls
  refine ⟨?_, ?_⟩ <;> rw [hcalls]
  · refine List.pairwise_append.mpr ⟨hb.ascending, hascending, ?_⟩
    intro c hc c' hc' host host' hhost hhost'
    exact Nat.lt_of_le_of_lt (hb.attached c hc host hhost) (hnew c' hc' host' hhost').1
  · intro c hc host hhost
    rcases List.mem_append.mp hc with hleft | hright
    · exact Nat.le_trans (hb.attached c hleft host hhost) h.attached
    · exact (hnew c hright host hhost).2

end Grows

/-! ## Calls on the bench -/

theorem record_grows (b : Bench σ) (phase : Option Phase) {request : EngineRequest}
    (hrequest : EngineCall.host? ⟨request, phase⟩ = none) :
    b.Grows (b.record phase request) := by
  refine ⟨List.Subset.refl _, Nat.le_refl _, [⟨request, phase⟩], rfl,
    List.pairwise_singleton _ _, ?_⟩
  intro c hc host hhost
  cases List.mem_singleton.mp hc
  rw [hrequest] at hhost
  cases hhost

theorem answered_grows (b : Bench σ) (engine : σ) (answer : EngineAnswer) :
    b.Grows (b.answered engine answer) := by
  refine ⟨List.subset_append_left _ _, Nat.le_refl _, [], by simp [answered], .nil, ?_⟩
  intro c hc
  cases hc

@[simp] theorem prepare_surface (e : Engine σ κ) (phase : Option Phase) (b : Bench σ) :
    (b.prepare e phase).surface = b.surface := by
  unfold prepare
  split <;> rfl

theorem prepare_grows (e : Engine σ κ) (phase : Option Phase) (b : Bench σ) :
    b.Grows (b.prepare e phase) := by
  unfold prepare
  split
  · exact .refl _
  · have hrecord : b.Grows (b.record phase (.configure b.config.inForce)) :=
      b.record_grows phase rfl
    exact ⟨hrecord.answers, hrecord.attached, hrecord.calls⟩

@[simp] theorem validate_surface (e : Engine σ κ) (phase : Option Phase) (text : String)
    (b : Bench σ) : (b.validate e phase text).state.surface = b.surface := by
  unfold validate
  split
  · rfl
  · exact b.prepare_surface e phase

theorem validate_grows (e : Engine σ κ) (phase : Option Phase) (text : String) (b : Bench σ) :
    b.Grows (b.validate e phase text).state := by
  unfold validate
  split
  · exact .refl _
  · exact ((b.prepare_grows e phase).trans (record_grows _ phase rfl)).trans
      (answered_grows _ _ _)

/-- A text that is turned away has the message of its refusal on record. -/
theorem supports_of_validate_error {e : Engine σ κ} {phase : Option Phase} {text : String}
    {b : Bench σ} {error : ParseError} (h : (b.validate e phase text).answer = .error error)
    (id : RenderId) :
    (b.validate e phase text).state.toRenderer.Supports id text (.parseError error.message)
      none := by
  unfold validate at h ⊢
  split at h
  · next hkeyword =>
    cases h
    exact .misshapen (by simp [Diagram.looksLikeDiagram, hkeyword])
  · next keyword hkeyword =>
    simp only at h ⊢
    split at h
    · cases h
    · next message hanswer =>
      cases h
      refine .refused message (by simp [Diagram.looksLikeDiagram, hkeyword]) ?_
      simp [answered, hanswer]

/-- A text that is let through looks like a diagram, and its acceptance is on record. -/
theorem accepted_of_validate_ok {e : Engine σ κ} {phase : Option Phase} {text : String}
    {b : Bench σ} {keyword : Diagram.Keyword}
    (h : (b.validate e phase text).answer = .ok keyword) :
    Diagram.looksLikeDiagram text = true ∧
      .verdict text (.ok ()) ∈ (b.validate e phase text).state.answers := by
  unfold validate at h ⊢
  split at h
  · cases h
  · next found hkeyword =>
    refine ⟨by simp [Diagram.looksLikeDiagram, hkeyword], ?_⟩
    simp only at h ⊢
    split at h
    · next hanswer => simp [answered, hanswer]
    · cases h

@[simp] theorem render_surface (e : Engine σ κ) (phase : Option Phase) (id : RenderId)
    (text : String) (b : Bench σ) :
    (b.render e phase id text).state.surface = b.surface.attachHost :=
  prepare_surface e phase _

theorem render_grows (e : Engine σ κ) (phase : Option Phase) (id : RenderId) (text : String)
    (b : Bench σ) : b.Grows (b.render e phase id text).state := by
  obtain ⟨added, hcalls, hascending, hnew⟩ :=
    (prepare_grows e phase { b with surface := b.surface.attachHost }).calls
  have hnone : ∀ c ∈ added, ∀ host, c.host? ≠ some host := by
    intro c hc host hhost
    obtain ⟨hlt, hle⟩ := hnew c hc host hhost
    rw [prepare_surface] at hle
    exact Nat.lt_irrefl _ (Nat.lt_of_lt_of_le hlt hle)
  refine ⟨(prepare_grows e phase { b with surface := b.surface.attachHost }).answers, ?_,
    added ++ [⟨.render id text b.surface.nextHost, phase⟩], ?_, ?_, ?_⟩
  · rw [render_surface]
    exact Nat.le_succ _
  · rw [← List.append_assoc, ← hcalls]
    rfl
  · refine List.pairwise_append.mpr ⟨hascending, List.pairwise_singleton _ _, ?_⟩
    intro c hc c' hc' host host' hhost
    exact absurd hhost (hnone c hc host)
  · intro c hc host hhost
    rcases List.mem_append.mp hc with hleft | hright
    · exact absurd hhost (hnone c hleft host)
    · cases List.mem_singleton.mp hright
      cases hhost
      rw [render_surface]
      exact ⟨Nat.lt_succ_self _, Nat.le_refl _⟩

/-- A call that is begun is on record with the host that it was given. -/
theorem called_of_render (e : Engine σ κ) (phase : Option Phase) (id : RenderId) (text : String)
    (b : Bench σ) :
    ⟨.render id text b.surface.nextHost, phase⟩ ∈ (b.render e phase id text).state.calls := by
  simp [render, record]

/-- The answer to a poll is on record, and the surface is left as it was. -/
theorem poll_eq_some {e : Engine σ κ} {host : HostId} {b : Bench σ}
    {response : Response (Bench σ) κ (Except String String)}
    (h : b.poll e host = some response) :
    response.state.surface = b.surface ∧ b.Grows response.state ∧
      .result host response.answer ∈ response.state.answers := by
  obtain ⟨reply, -, rfl⟩ := Option.map_eq_some_iff.mp h
  exact ⟨rfl, answered_grows _ _ _, by simp [answered]⟩

@[simp] theorem conclude_toRenderer (host : HostId) (result : Except String String)
    (b : Bench σ) : (b.conclude host result).1.toRenderer = b.toRenderer := by
  unfold conclude
  cases result with
  | error message => rfl
  | ok raw =>
    simp only
    split <;> split <;> rfl

@[simp] theorem conclude_surface (host : HostId) (result : Except String String)
    (b : Bench σ) : (b.conclude host result).1.surface = b.surface.detachHost host := by
  unfold conclude
  cases result with
  | error message => rfl
  | ok raw =>
    simp only
    split <;> split <;> rfl

theorem conclude_grows (host : HostId) (result : Except String String) (b : Bench σ) :
    b.Grows (b.conclude host result).1 :=
  .of_eq (by rw [conclude_toRenderer]) (by rw [conclude_toRenderer]) (by rw [conclude_surface]; rfl)

/-- What comes of an answer does not depend on the bench. -/
theorem conclude_result (host : HostId) (answer : Except String String) (b : Bench σ) :
    (b.conclude host answer).2 =
      match answer with
      | .error message => .failed message
      | .ok raw =>
        match (Markup.neutralize raw).markup with
        | some markup => .artifact markup
        | none => .crashed := by
  cases answer with
  | error message => rfl
  | ok raw => cases hmarkup : (Markup.neutralize raw).markup <;> simp [conclude, hmarkup]

/-- A call fails only with the message that the engine gave. -/
theorem answer_of_conclude_failed {host : HostId} {answer : Except String String} {b : Bench σ}
    {message : String} (h : (b.conclude host answer).2 = .failed message) :
    answer = .error message := by
  rw [conclude_result] at h
  cases answer with
  | error m =>
    cases h
    rfl
  | ok raw => cases hmarkup : (Markup.neutralize raw).markup <;> simp [hmarkup] at h

/-- Whoever awaits a call comes to an end when the markup that the engine gave cannot be
neutralized. -/
theorem answer_of_conclude_crashed {host : HostId} {answer : Except String String} {b : Bench σ}
    (h : (b.conclude host answer).2 = .crashed) :
    ∃ raw, answer = .ok raw ∧ (Markup.neutralize raw).markup = none := by
  rw [conclude_result] at h
  cases answer with
  | error m => cases h
  | ok raw =>
    refine ⟨raw, rfl, ?_⟩
    cases hmarkup : (Markup.neutralize raw).markup with
    | none => rfl
    | some m => simp [hmarkup] at h

/-- An artifact is the neutralized form of the markup that the engine gave. -/
theorem answer_of_conclude_artifact {host : HostId} {answer : Except String String} {b : Bench σ}
    {markup : String} (h : (b.conclude host answer).2 = .artifact markup) :
    ∃ raw, answer = .ok raw ∧ (Markup.neutralize raw).markup = some markup := by
  rw [conclude_result] at h
  cases answer with
  | error m => cases h
  | ok raw =>
    refine ⟨raw, rfl, ?_⟩
    cases hmarkup : (Markup.neutralize raw).markup with
    | none => simp [hmarkup] at h
    | some m => simpa [hmarkup] using h

end Bench

/-! ## Deeds of an engine that asks for nothing -/

/-- A surface after a deed. -/
def Surface.afterDeed (s : Surface) : Deed Empty → Surface
  | .insert parent node => s.insert parent node
  | .report _ => s

/-- A bench after a deed. -/
def Bench.afterDeed (b : Bench σ) : Deed Empty → Bench σ
  | .insert parent node => { b with surface := b.surface.insert parent node }
  | .report event => b.report event

/-- The bench after a call, with all that the engine did in its course. -/
def Response.after {α : Type} (response : Response (Bench σ) Empty α) : Bench σ :=
  response.deeds.foldl Bench.afterDeed response.state

@[simp] theorem Surface.insert_container (s : Surface) (parent : Parent) (node : SurfaceNode) :
    (s.insert parent node).container = s.container := by
  cases parent <;> rfl

@[simp] theorem Surface.insert_attached (s : Surface) (parent : Parent) (node : SurfaceNode) :
    (s.insert parent node).attached = s.attached := by
  cases parent <;> rfl

/-- Deeds neither show anything in the container nor attach hosts. -/
theorem Surface.foldl_afterDeed (deeds : List (Deed Empty)) (s : Surface) :
    (deeds.foldl afterDeed s).container = s.container ∧
      (deeds.foldl afterDeed s).attached = s.attached := by
  induction deeds generalizing s with
  | nil => exact ⟨rfl, rfl⟩
  | cons deed deeds ih =>
    rw [List.foldl_cons, (ih _).1, (ih _).2]
    cases deed with
    | insert parent node => exact ⟨s.insert_container parent node, s.insert_attached parent node⟩
    | report event => exact ⟨rfl, rfl⟩
    | request command => exact nomatch command

theorem Bench.foldl_afterDeed (deeds : List (Deed Empty)) (b : Bench σ) :
    (deeds.foldl afterDeed b).toRenderer = b.toRenderer ∧
      (deeds.foldl afterDeed b).surface = deeds.foldl Surface.afterDeed b.surface := by
  induction deeds generalizing b with
  | nil => exact ⟨rfl, rfl⟩
  | cons deed deeds ih =>
    rw [List.foldl_cons, (ih _).1, (ih _).2, List.foldl_cons]
    cases deed with
    | insert parent node => exact ⟨rfl, rfl⟩
    | report event => exact ⟨rfl, rfl⟩
    | request command => exact nomatch command

namespace Response

variable {α : Type} (response : Response (Bench σ) Empty α)

@[simp] theorem after_toRenderer : response.after.toRenderer = response.state.toRenderer :=
  (Bench.foldl_afterDeed _ _).1

@[simp] theorem after_surface :
    response.after.surface = response.deeds.foldl Surface.afterDeed response.state.surface :=
  (Bench.foldl_afterDeed _ _).2

theorem after_container : response.after.surface.container = response.state.surface.container := by
  rw [after_surface, (Surface.foldl_afterDeed _ _).1]

theorem after_grows : response.state.Grows response.after := by
  refine .of_eq (by rw [after_toRenderer]) (by rw [after_toRenderer]) ?_
  rw [after_surface, (Surface.foldl_afterDeed _ _).2]

end Response

end DiagramView
