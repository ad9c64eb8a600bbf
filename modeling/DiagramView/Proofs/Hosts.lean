import DiagramView.Proofs.Nodes
import DiagramView.Proofs.Turn

/-!
# Hosts and who holds them

Every render call has a host of its own, which is attached when the call is begun and detached when
it is over. In between somebody holds it: a session that awaits the call, or the sweep after a
session that left it. In the midst of a turn the task that runs has it in hand, and between the end
of a call and the moment its host is detached the host is *closing*. `Scene.Housed` says all this of
a scene on whose surface others may have hosts too.

The engine may give orders to the scheduler in the course of any call. Orders begin and give up
sessions, but touch no host and nobody's hold on one, so they keep a scene housed
(`Scene.Housed.obey`). What nodes a change of the surface leaves where they are is said by
`Surface.Spares`.
-/

namespace DiagramView

variable {σ κ ο : Type}

/-! ## Surfaces -/

namespace Surface

variable {s s' s'' : Surface} {p : String → Bool}

/-- The hosts that are attached. -/
def hostIds (s : Surface) : List HostId :=
  s.hosts.map (·.1)

@[simp] theorem hostIds_attachHost (s : Surface) :
    s.attachHost.hostIds = s.hostIds ++ [s.nextHost] := by
  simp [hostIds, attachHost]

@[simp] theorem hostIds_detachHost (s : Surface) (host : HostId) :
    (s.detachHost host).hostIds = s.hostIds.filter (· != host) := by
  simp only [hostIds, detachHost, List.filter_map]
  rfl

@[simp] theorem hostIds_insert (s : Surface) (parent : Parent) (node : SurfaceNode) :
    (s.insert parent node).hostIds = s.hostIds := by
  cases parent with
  | body => rfl
  | host host =>
    simp only [hostIds, insert, List.map_map]
    refine List.map_congr_left fun entry _ => ?_
    simp only [Function.comp_apply]
    split <;> rfl

@[simp] theorem hostIds_remove (s : Surface) (p : String → Bool) :
    (s.remove p).hostIds = s.hostIds := by
  simp [hostIds, remove, Function.comp_def]

theorem mem_hostIds {host : HostId} : host ∈ s.hostIds ↔ ∃ nodes, (host, nodes) ∈ s.hosts := by
  simp [hostIds]

/-- A node that is inserted into a host that is not attached never appears. -/
theorem insert_of_not_mem {host : HostId} (hgone : host ∉ s.hostIds) (node : SurfaceNode) :
    s.insert (.host host) node = s := by
  have hmap : (s.hosts.map fun entry =>
      if entry.1 = host then (entry.1, entry.2 ++ [node]) else entry) = s.hosts := by
    conv => rhs; rw [← List.map_id s.hosts]
    refine List.map_congr_left fun entry hentry => if_neg fun heq => hgone ?_
    exact mem_hostIds.mpr ⟨entry.2, heq ▸ hentry⟩
  simp only [insert, hmap]

/-- Nodes whose ids satisfy a predicate stay where they are, as they are and in order, unless their
host goes away. Hosts that come are new ones. -/
structure Spares (p : String → Bool) (s s' : Surface) : Prop where
  attached : s.attached ≤ s'.attached
  older : ∀ host ∈ s'.hostIds, host ∈ s.hostIds ∨ s.attached < host.number
  body : (s.body.filter fun node => p node.id) <+: s'.body.filter fun node => p node.id
  hosts : ∀ host nodes, (host, nodes) ∈ s.hosts → host.number ≤ s.attached →
    host ∉ s'.hostIds ∨ ∃ nodes', (host, nodes') ∈ s'.hosts ∧
      (nodes.filter fun node => p node.id) <+: nodes'.filter fun node => p node.id

namespace Spares

theorem of_eq (hbody : s'.body = s.body) (hhosts : s'.hosts = s.hosts)
    (hattached : s'.attached = s.attached) : Spares p s s' where
  attached := Nat.le_of_eq hattached.symm
  older := fun host hhost => .inl (by rw [hostIds, hhosts] at hhost; exact hhost)
  body := hbody ▸ List.prefix_rfl
  hosts := fun host nodes hnodes _ => .inr ⟨nodes, by rw [hhosts]; exact hnodes, List.prefix_rfl⟩

theorem refl (p : String → Bool) (s : Surface) : Spares p s s :=
  of_eq rfl rfl rfl

theorem trans (h : Spares p s s') (h' : Spares p s' s'') : Spares p s s'' where
  attached := Nat.le_trans h.attached h'.attached
  older := by
    intro host hhost
    rcases h'.older host hhost with hold | hnew
    · exact h.older host hold
    · exact .inr (Nat.lt_of_le_of_lt h.attached hnew)
  body := h.body.trans h'.body
  hosts := by
    intro host nodes hnodes hnumber
    rcases h.hosts host nodes hnodes hnumber with hgone | ⟨nodes', hnodes', hkept⟩
    · -- a host that went away does not come back
      refine .inl fun hback => ?_
      rcases h'.older host hback with hold | hnew
      · exact hgone hold
      · have hle := Nat.le_trans hnumber h.attached
        omega
    · rcases h'.hosts host nodes' hnodes' (Nat.le_trans hnumber h.attached) with
        hgone | ⟨nodes'', hnodes'', hkept'⟩
      · exact .inl hgone
      · exact .inr ⟨nodes'', hnodes'', hkept.trans hkept'⟩

theorem insert (p : String → Bool) (s : Surface) (parent : Parent) (node : SurfaceNode) :
    Spares p s (s.insert parent node) where
  attached := by cases parent <;> exact Nat.le_refl _
  older := fun host hhost => .inl (by rw [hostIds_insert] at hhost; exact hhost)
  body := by
    cases parent with
    | body =>
      simp only [Surface.insert, List.filter_append]
      exact List.prefix_append _ _
    | host host => exact List.prefix_rfl
  hosts := by
    intro host nodes hnodes _
    refine .inr ?_
    cases parent with
    | body => exact ⟨nodes, hnodes, List.prefix_rfl⟩
    | host other =>
      by_cases heq : host = other
      · refine ⟨nodes ++ [node], List.mem_map.mpr ⟨(host, nodes), hnodes, if_pos heq⟩, ?_⟩
        rw [List.filter_append]
        exact List.prefix_append _ _
      · exact ⟨nodes, List.mem_map.mpr ⟨(host, nodes), hnodes, if_neg heq⟩, List.prefix_rfl⟩

theorem attachHost (p : String → Bool) (s : Surface) : Spares p s s.attachHost where
  attached := Nat.le_succ _
  older := by
    intro host hhost
    rw [hostIds_attachHost] at hhost
    rcases List.mem_append.mp hhost with hold | hnew
    · exact .inl hold
    · rw [List.mem_singleton.mp hnew]
      exact .inr (Nat.lt_succ_self _)
  body := List.prefix_rfl
  hosts := fun host nodes hnodes _ =>
    .inr ⟨nodes, List.mem_append_left _ hnodes, List.prefix_rfl⟩

theorem detachHost (p : String → Bool) (s : Surface) (host : HostId) :
    Spares p s (s.detachHost host) where
  attached := Nat.le_refl _
  older := by
    intro other hother
    rw [hostIds_detachHost] at hother
    exact .inl (List.mem_filter.mp hother).1
  body := List.prefix_rfl
  hosts := by
    intro other nodes hnodes _
    by_cases heq : other = host
    · refine .inl ?_
      rw [hostIds_detachHost, heq]
      simp
    · exact .inr ⟨nodes, List.mem_filter.mpr ⟨hnodes, by simpa using heq⟩, List.prefix_rfl⟩

theorem of_detachHost {host : HostId} (h : s' = s.detachHost host) : Spares p s s' := by
  rw [h]
  exact detachHost p s host

/-- A sweep takes none of the nodes that do not satisfy its predicate. -/
theorem remove {q : String → Bool} (hq : ∀ id, q id = true → p id = false) (s : Surface) :
    Spares p s (s.remove q) := by
  have hkept : ∀ nodes : List SurfaceNode,
      ((nodes.filter fun node => !q node.id).filter fun node => p node.id) =
        nodes.filter fun node => p node.id := by
    intro nodes
    rw [List.filter_filter]
    refine List.filter_congr fun node _ => ?_
    cases hswept : q node.id with
    | true => simp [hq node.id hswept]
    | false => simp
  refine ⟨Nat.le_refl _, fun host hhost => .inl (by rw [hostIds_remove] at hhost; exact hhost),
    ?_, fun host nodes hnodes _ => .inr ⟨_, List.mem_map.mpr ⟨(host, nodes), hnodes, rfl⟩, ?_⟩⟩
  · exact (hkept s.body).symm ▸ List.prefix_rfl
  · exact (hkept nodes).symm ▸ List.prefix_rfl

end Spares

/-- When one's own host is detached no other goes away. -/
theorem own_of_detachHost {host : HostId} (h : s' = s.detachHost host) {calls : List EngineCall}
    (hcalled : ∃ call ∈ calls, call.host? = some host) :
    ∀ other ∈ s.hostIds, other ∉ s'.hostIds → ∃ call ∈ calls, call.host? = some other := by
  intro other hother hgone
  rw [h, hostIds_detachHost] at hgone
  obtain rfl : other = host := by
    refine Decidable.byContradiction fun hne => hgone ?_
    exact List.mem_filter.mpr ⟨hother, by simpa using hne⟩
  exact hcalled

end Surface

/-! ## Calls that are under way -/

/-- Whether an answer is the result of the call in a host. -/
def EngineAnswer.isResultOf (host : HostId) : EngineAnswer → Bool
  | .result other _ => other = host
  | .verdict _ _ => false

namespace Renderer

/-- A call for a session was given a host. -/
def CalledFor (r : Renderer σ) (id : RenderId) (host : HostId) : Prop :=
  ∃ text phase, ⟨.render id text host, phase⟩ ∈ r.calls

/-- The hosts of the calls on record that are not over. -/
def pending (r : Renderer σ) : List HostId :=
  (r.calls.filterMap (·.host?)).filter fun host => !r.answers.any (·.isResultOf host)

theorem mem_pending {r : Renderer σ} {host : HostId} :
    host ∈ r.pending ↔
      (∃ call ∈ r.calls, call.host? = some host) ∧ ∀ answer, .result host answer ∉ r.answers := by
  simp only [pending, List.mem_filter, List.mem_filterMap, Bool.not_eq_true', List.any_eq_false]
  refine and_congr_right fun _ => ?_
  constructor
  · intro hnone answer hanswer
    exact hnone _ hanswer (by simp [EngineAnswer.isResultOf])
  · intro hnone answer hanswer hresult
    cases answer with
    | verdict text verdict => cases hresult
    | result other result =>
      obtain rfl : other = host := of_decide_eq_true hresult
      exact hnone result hanswer

theorem CalledFor.host {r : Renderer σ} {id : RenderId} {host : HostId} (h : r.CalledFor id host) :
    ∃ call ∈ r.calls, call.host? = some host := by
  obtain ⟨text, phase, hcall⟩ := h
  exact ⟨_, hcall, rfl⟩

end Renderer

/-- A session has its turn, or awaits its call. -/
def Session.Engaged (x : Session) : Prop :=
  x.progress = .running ∨ ∃ host, x.progress = .waiting host

theorem Session.not_holds {x : Session} (hidle : ∀ host, x.progress ≠ .waiting host)
    (hleft : x.abandoned = none) (host : HostId) : ¬x.Holds host := by
  rintro (hwaiting | habandoned)
  · exact hidle host hwaiting
  · rw [hleft] at habandoned
    cases habandoned

namespace Scene

/-- Every host on a surface is one of a call under way, and somebody holds it: others have the
`foreign` ones, the task that runs has one in hand, and sessions and sweeps have the rest. The host
of a call that is over may still be closing. -/
structure Housed (foreign : HostId → Prop) (inHand closing : Option HostId) (s : Scene σ ο) :
    Prop where
  ascending : s.sessions.Pairwise fun x y => x.seq < y.seq
  numbered : ∀ x ∈ s.sessions, x.seq ≤ s.lastSeq
  left : ∀ x ∈ s.sessions, x.abandoned ≠ none → x.end? ≠ none
  heeded : ∀ x ∈ s.sessions, x.Engaged → x.cancelled = true ∨ s.live = some x.seq
  begun : ∀ x ∈ s.sessions, ∀ host, x.Holds host → s.toRenderer.CalledFor (s.renderId x.seq) host
  free : ∀ host, inHand = some host → ∀ x ∈ s.sessions, ¬x.Holds host
  pending : ∀ host, host ∈ s.toRenderer.pending ↔
    closing ≠ some host ∧ (inHand = some host ∨ ∃ x ∈ s.sessions, x.Holds host)
  answered : ∀ host answer, .result host answer ∈ s.answers →
    ∃ call ∈ s.calls, call.host? = some host
  hosts : s.toBench.Numbered
  lodged : ∀ host, host ∈ s.surface.hostIds ↔
    foreign host ∨ closing = some host ∨ host ∈ s.toRenderer.pending
  nodup : s.surface.hostIds.Nodup
  known : ∀ host ∈ s.surface.hostIds, host.number ≤ s.surface.attached
  apart : ∀ host, foreign host → ∀ call ∈ s.calls, call.host? ≠ some host

namespace Housed

variable {s s' : Scene σ ο} {x y : Session} {foreign : HostId → Prop}
  {inHand closing : Option HostId} {host : HostId}

theorem eq_of_seq_eq (h : s.Housed foreign inHand closing) (hx : x ∈ s.sessions)
    (hy : y ∈ s.sessions) (hseq : x.seq = y.seq) : x = y :=
  eq_of_pairwise h.ascending hx hy (Nat.not_lt_of_le (Nat.le_of_eq hseq.symm))
    (Nat.not_lt_of_le (Nat.le_of_eq hseq))

theorem session?_of_mem (h : s.Housed foreign inHand closing) (hx : x ∈ s.sessions) :
    s.session? x.seq = some x := by
  cases hfind : s.session? x.seq with
  | none =>
    have hnone := List.find?_eq_none.mp hfind x hx
    simp at hnone
  | some y =>
    obtain ⟨hy, hseq⟩ := session?_eq_some hfind
    rw [h.eq_of_seq_eq hy hx hseq]

/-- A host is held by one session at most. -/
theorem holder_eq (h : s.Housed foreign inHand closing) (hx : x ∈ s.sessions) (hy : y ∈ s.sessions)
    (hxhost : x.Holds host) (hyhost : y.Holds host) : x = y := by
  obtain ⟨text, phase, hcall⟩ := h.begun x hx host hxhost
  obtain ⟨text', phase', hcall'⟩ := h.begun y hy host hyhost
  have hsame := h.hosts.call_eq hcall hcall' rfl rfl
  have hid : s.renderId x.seq = s.renderId y.seq := by
    injection hsame with hrequest
    injection hrequest
  exact h.eq_of_seq_eq hx hy (InstanceId.renderId_injective hid)

/-- Whoever is not over has left no call. -/
theorem not_abandoned (h : s.Housed foreign inHand closing) (hx : x ∈ s.sessions)
    (hopen : x.end? = none) : x.abandoned = none := by
  cases hleft : x.abandoned with
  | none => rfl
  | some host => exact absurd hopen (h.left x hx (by simp [hleft]))

/-- What counts is the books, the render calls and results on record, and the hosts attached. -/
theorem frame (h : s.Housed foreign inHand closing) (hbooks : s'.toSchedule = s.toSchedule)
    (hcalls : ∀ call, call.host? ≠ none → (call ∈ s'.calls ↔ call ∈ s.calls))
    (hanswers : ∀ host answer, .result host answer ∈ s'.answers ↔ .result host answer ∈ s.answers)
    (hnumbered : s'.toBench.Numbered) (hhosts : s'.surface.hostIds = s.surface.hostIds)
    (hattached : s'.surface.attached = s.surface.attached) : s'.Housed foreign inHand closing := by
  have hid : ∀ n, s'.renderId n = s.renderId n := by
    intro n
    rw [renderId, renderId, hbooks]
  have hcalled : ∀ host, (∃ call ∈ s'.calls, call.host? = some host) ↔
      ∃ call ∈ s.calls, call.host? = some host := by
    intro host
    constructor
    · rintro ⟨call, hcall, hhost⟩
      exact ⟨call, (hcalls call (by simp [hhost])).mp hcall, hhost⟩
    · rintro ⟨call, hcall, hhost⟩
      exact ⟨call, (hcalls call (by simp [hhost])).mpr hcall, hhost⟩
  have hpending : ∀ host, host ∈ s'.toRenderer.pending ↔ host ∈ s.toRenderer.pending := by
    intro host
    rw [Renderer.mem_pending, Renderer.mem_pending, hcalled]
    simp only [hanswers]
  refine ⟨?_, ?_, ?_, ?_, ?_, ?_, ?_, ?_, hnumbered, ?_, ?_, ?_, ?_⟩
  · rw [hbooks]; exact h.ascending
  · rw [hbooks]; exact h.numbered
  · rw [hbooks]; exact h.left
  · rw [hbooks]; exact h.heeded
  · rw [hbooks]
    intro x hx host hhost
    rw [hid]
    obtain ⟨text, phase, hcall⟩ := h.begun x hx host hhost
    exact ⟨text, phase, (hcalls _ (by simp [EngineCall.host?])).mpr hcall⟩
  · rw [hbooks]; exact h.free
  · intro host
    rw [hpending, hbooks]
    exact h.pending host
  · intro host answer hanswer
    exact (hcalled host).mpr (h.answered host answer ((hanswers host answer).mp hanswer))
  · intro host
    rw [hhosts, hpending]
    exact h.lodged host
  · rw [hhosts]; exact h.nodup
  · rw [hhosts, hattached]; exact h.known
  · intro host hforeign call hcall hhost
    obtain ⟨call', hcall', hhost'⟩ := (hcalled host).mp ⟨call, hcall, hhost⟩
    exact h.apart host hforeign call' hcall' hhost'

/-- A scene with the same books and the same record, and the same hosts on its surface. -/
theorem frame_of_eq (h : s.Housed foreign inHand closing) (hbooks : s'.toSchedule = s.toSchedule)
    (hrenderer : s'.calls = s.calls ∧ s'.answers = s.answers)
    (hhosts : s'.surface.hostIds = s.surface.hostIds)
    (hattached : s'.surface.attached = s.surface.attached) : s'.Housed foreign inHand closing := by
  refine h.frame hbooks ?_ ?_ ?_ hhosts hattached
  · intro call _
    rw [hrenderer.1]
  · intro host answer
    rw [hrenderer.2]
  · have hgrows : s.toBench.Grows s'.toBench := .of_eq hrenderer.1 hrenderer.2 hattached
    exact hgrows.numbered h.hosts

/-- The record of a session may change, and with it who holds a host: what the session had and what
was in hand before is what the session has and what is in hand afterwards. -/
theorem update (h : s.Housed foreign inHand closing) (hx : x ∈ s.sessions) {f : Session → Session}
    {inHand' : Option HostId} (hseq : ∀ y, (f y).seq = y.seq)
    (hover : (f x).abandoned ≠ none → (f x).end? ≠ none)
    (hheeded : (f x).Engaged → (f x).cancelled = true ∨ s.live = some x.seq)
    (hbegun : ∀ host, (f x).Holds host → s.toRenderer.CalledFor (s.renderId x.seq) host)
    (hfree : ∀ host, inHand' = some host →
      ¬(f x).Holds host ∧ (inHand = some host ∨ x.Holds host))
    (hswap : ∀ host, closing ≠ some host →
      (inHand' = some host ∨ (f x).Holds host ↔ inHand = some host ∨ x.Holds host)) :
    (s.update x.seq f).Housed foreign inHand' closing := by
  have hothers : ∀ y ∈ (s.update x.seq f).sessions,
      y = f x ∨ y ∈ s.sessions ∧ y.seq ≠ x.seq := by
    intro y hy
    obtain ⟨z, hz, rfl⟩ := mem_update.mp hy
    by_cases heq : z.seq = x.seq
    · rw [if_pos heq, h.eq_of_seq_eq hz hx heq]
      exact .inl rfl
    · rw [if_neg heq]
      exact .inr ⟨hz, heq⟩
  have hmem : ∀ y ∈ s.sessions, y.seq ≠ x.seq → y ∈ (s.update x.seq f).sessions :=
    fun y hy hne => mem_update.mpr ⟨y, hy, if_neg hne⟩
  have hown : f x ∈ (s.update x.seq f).sessions := mem_update.mpr ⟨x, hx, if_pos rfl⟩
  refine ⟨?_, ?_, ?_, ?_, ?_, ?_, ?_, h.answered, h.hosts, h.lodged, h.nodup, h.known, h.apart⟩
  · refine List.pairwise_map.mpr (h.ascending.imp ?_)
    intro y z hyz
    split <;> split <;> simpa [hseq] using hyz
  · intro y hy
    rcases hothers y hy with rfl | ⟨hy, -⟩
    · rw [hseq]
      exact h.numbered x hx
    · exact h.numbered y hy
  · intro y hy
    rcases hothers y hy with rfl | ⟨hy, -⟩
    · exact hover
    · exact h.left y hy
  · intro y hy
    rcases hothers y hy with rfl | ⟨hy, -⟩
    · intro hengaged
      rw [hseq]
      exact hheeded hengaged
    · exact h.heeded y hy
  · intro y hy host hhost
    rcases hothers y hy with rfl | ⟨hy, -⟩
    · rw [hseq]
      exact hbegun host hhost
    · exact h.begun y hy host hhost
  · intro host hhand y hy hhost
    obtain ⟨hnot, hbefore⟩ := hfree host hhand
    rcases hothers y hy with rfl | ⟨hy, hne⟩
    · exact hnot hhost
    · rcases hbefore with hbefore | hbefore
      · exact h.free host hbefore y hy hhost
      · exact hne (congrArg Session.seq (h.holder_eq hy hx hhost hbefore))
  · intro host
    rw [show (s.update x.seq f).toRenderer.pending = s.toRenderer.pending from rfl, h.pending host]
    refine and_congr_right fun hopen => ?_
    constructor
    · rintro (hhand | ⟨y, hy, hhost⟩)
      · rcases (hswap host hopen).mpr (.inl hhand) with hhand' | hhost'
        · exact .inl hhand'
        · exact .inr ⟨f x, hown, hhost'⟩
      · by_cases heq : y.seq = x.seq
        · rw [h.eq_of_seq_eq hy hx heq] at hhost
          rcases (hswap host hopen).mpr (.inr hhost) with hhand' | hhost'
          · exact .inl hhand'
          · exact .inr ⟨f x, hown, hhost'⟩
        · exact .inr ⟨y, hmem y hy heq, hhost⟩
    · rintro (hhand | ⟨y, hy, hhost⟩)
      · rcases (hswap host hopen).mp (.inl hhand) with hhand' | hhost'
        · exact .inl hhand'
        · exact .inr ⟨x, hx, hhost'⟩
      · rcases hothers y hy with rfl | ⟨hy, -⟩
        · rcases (hswap host hopen).mp (.inr hhost) with hhand' | hhost'
          · exact .inl hhand'
          · exact .inr ⟨x, hx, hhost'⟩
        · exact .inr ⟨y, hy, hhost⟩

end Housed

end Scene

/-! ## Calls -/

namespace Bench

theorem prepare_answers (e : Engine σ κ) (phase : Option Phase) (b : Bench σ) :
    (b.prepare e phase).answers = b.answers := by
  unfold prepare
  split <;> rfl

theorem mem_prepare_calls (e : Engine σ κ) (phase : Option Phase) (b : Bench σ) {call : EngineCall}
    (hhost : call.host? ≠ none) : call ∈ (b.prepare e phase).calls ↔ call ∈ b.calls := by
  unfold prepare
  split
  · exact Iff.rfl
  · simp only [record, List.mem_append, List.mem_singleton, or_iff_left_iff_imp]
    rintro rfl
    exact absurd rfl hhost

/-- Validating a text makes no render call. -/
theorem mem_validate_calls (e : Engine σ κ) (phase : Option Phase) (text : String) (b : Bench σ)
    {call : EngineCall} (hhost : call.host? ≠ none) :
    call ∈ (b.validate e phase text).state.calls ↔ call ∈ b.calls := by
  unfold validate
  split
  · exact Iff.rfl
  · rw [← b.mem_prepare_calls e phase hhost]
    simp only [answered, record, List.mem_append, List.mem_singleton, or_iff_left_iff_imp]
    rintro rfl
    exact absurd rfl hhost

theorem result_mem_validate (e : Engine σ κ) (phase : Option Phase) (text : String) (b : Bench σ)
    {host : HostId} {answer : Except String String} :
    .result host answer ∈ (b.validate e phase text).state.answers ↔
      .result host answer ∈ b.answers := by
  unfold validate
  split
  · exact Iff.rfl
  · rw [← b.prepare_answers e phase]
    simp [answered, record]

theorem mem_render_calls (e : Engine σ κ) (phase : Option Phase) (id : RenderId) (text : String)
    (b : Bench σ) {call : EngineCall} (hhost : call.host? ≠ none) :
    call ∈ (b.render e phase id text).state.calls ↔
      call ∈ b.calls ∨ call = ⟨.render id text b.surface.nextHost, phase⟩ := by
  have hprepared := mem_prepare_calls e phase { b with surface := b.surface.attachHost } hhost
  rw [← show call ∈ ({ b with surface := b.surface.attachHost } : Bench σ).calls ↔ call ∈ b.calls
    from Iff.rfl, ← hprepared]
  simp [render, record]

theorem render_answers (e : Engine σ κ) (phase : Option Phase) (id : RenderId) (text : String)
    (b : Bench σ) : (b.render e phase id text).state.answers = b.answers :=
  prepare_answers e phase { b with surface := b.surface.attachHost }

end Bench

namespace Scene

variable {s s' s'' : Scene σ ο} {x y : Session} {foreign : HostId → Prop}
  {inHand closing : Option HostId} {host : HostId}

/-- An order gives up the live session and begins at most one, which has nothing yet. -/
theorem obey_sessions (order : Order) (s : Scene σ ο) :
    ∃ added, (order.obey s).sessions = s.sessions.map (·.giveUp s.live) ++ added ∧
      s.lastSeq ≤ (order.obey s).lastSeq ∧ (added.Pairwise fun x y => x.seq < y.seq) ∧
      ∀ y ∈ added, s.lastSeq < y.seq ∧ y.seq ≤ (order.obey s).lastSeq ∧
        y.progress = .created ∧ y.abandoned = none := by
  cases order with
  | schedule text =>
    rw [Order.obey, schedule_toSchedule]
    refine ⟨_, rfl, Nat.le_succ _, ?_, ?_⟩
    · split
      · exact .nil
      · exact List.pairwise_singleton _ _
    · intro y hy
      split at hy
      · cases hy
      · cases List.mem_singleton.mp hy
        exact ⟨Nat.lt_succ_self _, Nat.le_refl _, rfl, rfl⟩
  | teardown =>
    rw [Order.obey, teardown_toSchedule]
    exact ⟨[], (List.append_nil _).symm, Nat.le_refl _, .nil, fun y hy => by cases hy⟩

namespace Housed

theorem validate (h : s.Housed foreign inHand closing) (e : Engine σ κ) (phase : Option Phase)
    (text : String) :
    (s.onBench (s.toBench.validate e phase text).state).Housed foreign inHand closing := by
  have hsurface := Bench.validate_surface e phase text s.toBench
  refine h.frame rfl ?_ ?_ ?_ ?_ ?_
  · exact fun call hhost => Bench.mem_validate_calls e phase text s.toBench hhost
  · exact fun host answer => Bench.result_mem_validate e phase text s.toBench
  · exact (Bench.validate_grows e phase text s.toBench).numbered h.hosts
  · exact congrArg Surface.hostIds hsurface
  · exact congrArg Surface.attached hsurface

/-- A call that is begun is in hand. -/
theorem render (h : s.Housed foreign none none) (e : Engine σ κ) (phase : Option Phase)
    (id : RenderId) (text : String) :
    (s.onBench (s.toBench.render e phase id text).state).Housed foreign
      (some s.surface.nextHost) none := by
  have hsurface := Bench.render_surface e phase id text s.toBench
  have hanswers := Bench.render_answers e phase id text s.toBench
  have hattached : s.surface.attachHost.attached = s.surface.attached + 1 := rfl
  have hnew : s.surface.nextHost.number = s.surface.attached + 1 := rfl
  have hcalled : ∀ host, (∃ call ∈ (s.toBench.render e phase id text).state.calls,
      call.host? = some host) ↔
        (∃ call ∈ s.calls, call.host? = some host) ∨ host = s.surface.nextHost := by
    intro host
    constructor
    · rintro ⟨call, hcall, hhost⟩
      rcases (Bench.mem_render_calls e phase id text s.toBench (by simp [hhost])).mp hcall with
        hold | rfl
      · exact .inl ⟨call, hold, hhost⟩
      · exact .inr (Option.some.inj hhost).symm
    · rintro (⟨call, hcall, hhost⟩ | rfl)
      · exact ⟨call, (Bench.mem_render_calls e phase id text s.toBench (by simp [hhost])).mpr
          (.inl hcall), hhost⟩
      · exact ⟨_, Bench.called_of_render e phase id text s.toBench, rfl⟩
  have hpending : ∀ host, host ∈ (s.toBench.render e phase id text).state.toRenderer.pending ↔
      host = s.surface.nextHost ∨ host ∈ s.toRenderer.pending := by
    intro host
    rw [Renderer.mem_pending, Renderer.mem_pending, hcalled, hanswers]
    constructor
    · rintro ⟨hcall | hhost, hopen⟩
      · exact .inr ⟨hcall, hopen⟩
      · exact .inl hhost
    · rintro (rfl | ⟨hcall, hopen⟩)
      · refine ⟨.inr rfl, fun answer hanswer => ?_⟩
        obtain ⟨call, hcall, hhost⟩ := h.answered _ answer hanswer
        have hle := h.hosts.attached call hcall _ hhost
        omega
      · exact ⟨.inl hcall, hopen⟩
  have hfree : ∀ y ∈ s.sessions, ¬y.Holds s.surface.nextHost := by
    intro y hy hhost
    obtain ⟨call, hcall, hhost⟩ := (h.begun y hy _ hhost).host
    have hle := h.hosts.attached call hcall _ hhost
    omega
  refine ⟨h.ascending, h.numbered, h.left, h.heeded, ?_, ?_, ?_, ?_, ?_, ?_, ?_, ?_, ?_⟩
  · intro y hy host hhost
    obtain ⟨text', phase', hcall⟩ := h.begun y hy host hhost
    exact ⟨text', phase', (Bench.mem_render_calls e phase id text s.toBench
      (by simp [EngineCall.host?])).mpr (.inl hcall)⟩
  · intro host hhost
    rw [← Option.some.inj hhost]
    exact hfree
  · intro host
    rw [show (s.onBench (s.toBench.render e phase id text).state).toRenderer.pending =
      (s.toBench.render e phase id text).state.toRenderer.pending from rfl, hpending, h.pending]
    simp [eq_comm, onBench]
  · intro host answer hanswer
    change .result host answer ∈ (s.toBench.render e phase id text).state.answers at hanswer
    rw [hanswers] at hanswer
    exact (hcalled host).mpr (.inl (h.answered host answer hanswer))
  · exact (Bench.render_grows e phase id text s.toBench).numbered h.hosts
  · intro host
    change host ∈ (s.toBench.render e phase id text).state.surface.hostIds ↔ foreign host ∨
      none = some host ∨ host ∈ (s.toBench.render e phase id text).state.toRenderer.pending
    rw [hsurface, Surface.hostIds_attachHost, List.mem_append, List.mem_singleton, h.lodged,
      hpending]
    simp only [reduceCtorEq, false_or]
    constructor
    · rintro ((hforeign | hopen) | hhost)
      · exact .inl hforeign
      · exact .inr (.inr hopen)
      · exact .inr (.inl hhost)
    · rintro (hforeign | hhost | hopen)
      · exact .inl (.inl hforeign)
      · exact .inr hhost
      · exact .inl (.inr hopen)
  · change (s.toBench.render e phase id text).state.surface.hostIds.Nodup
    rw [hsurface, Surface.hostIds_attachHost]
    refine List.nodup_append.mpr ⟨h.nodup, List.pairwise_singleton _ _, ?_⟩
    intro host hhost host' hhost' heq
    rw [List.mem_singleton.mp hhost'] at heq
    have hle := h.known host hhost
    rw [heq] at hle
    omega
  · intro host hhost
    change host ∈ (s.toBench.render e phase id text).state.surface.hostIds at hhost
    change host.number ≤ (s.toBench.render e phase id text).state.surface.attached
    rw [hsurface] at hhost ⊢
    rw [Surface.hostIds_attachHost] at hhost
    rcases List.mem_append.mp hhost with hold | hhost
    · have hle := h.known host hold
      omega
    · rw [List.mem_singleton.mp hhost]
      exact Nat.le_refl _
  · intro host hforeign call hcall hhost
    rcases (hcalled host).mp ⟨call, hcall, hhost⟩ with ⟨call', hcall', hhost'⟩ | rfl
    · exact h.apart host hforeign call' hcall' hhost'
    · have hle := h.known _ ((h.lodged _).mpr (.inl hforeign))
      omega

/-- The host of a call that has come to its end is closing. -/
theorem answer (h : s.Housed foreign inHand none) {e : Engine σ κ}
    {response : Response (Bench σ) κ (Except String String)}
    (hpoll : s.toBench.poll e host = some response) (hpending : host ∈ s.toRenderer.pending) :
    (s.onBench response.state).Housed foreign inHand (some host) := by
  obtain ⟨reply, -, rfl⟩ := Option.map_eq_some_iff.mp hpoll
  have hpending' : ∀ other, other ∈ (s.toBench.answered reply.state
      (.result host reply.answer)).toRenderer.pending ↔
        host ≠ other ∧ other ∈ s.toRenderer.pending := by
    intro other
    rw [Renderer.mem_pending, Renderer.mem_pending]
    change (∃ call ∈ s.calls, call.host? = some other) ∧
      (∀ answer, .result other answer ∉ s.answers ++ [.result host reply.answer]) ↔ _
    constructor
    · rintro ⟨hcall, hopen⟩
      refine ⟨?_, hcall, fun answer hanswer => hopen answer (List.mem_append_left _ hanswer)⟩
      rintro rfl
      exact hopen reply.answer (List.mem_append_right _ List.mem_cons_self)
    · rintro ⟨hne, hcall, hopen⟩
      refine ⟨hcall, fun answer hanswer => ?_⟩
      rcases List.mem_append.mp hanswer with hold | hnew
      · exact hopen answer hold
      · injection List.mem_singleton.mp hnew with hhost
        exact hne hhost.symm
  refine ⟨h.ascending, h.numbered, h.left, h.heeded, h.begun, h.free, ?_, ?_, ?_, ?_, h.nodup,
    h.known, h.apart⟩
  · intro other
    refine (hpending' other).trans ?_
    rw [h.pending]
    simp [onBench]
  · intro other answer hanswer
    rcases List.mem_append.mp hanswer with hold | hnew
    · exact h.answered other answer hold
    · injection List.mem_singleton.mp hnew with hhost
      rw [hhost]
      exact (Renderer.mem_pending.mp hpending).1
  · exact (Bench.answered_grows s.toBench _ _).numbered h.hosts
  · intro other
    refine (h.lodged other).trans (or_congr_right ?_)
    simp only [reduceCtorEq, false_or, Option.some.injEq]
    constructor
    · intro hopen
      by_cases heq : host = other
      · exact .inl heq
      · exact .inr ((hpending' other).mpr ⟨heq, hopen⟩)
    · rintro (rfl | hopen)
      · exact hpending
      · exact ((hpending' other).mp hopen).2

/-- A host that is closing is detached, when nobody else has it. -/
theorem conclude (h : s.Housed foreign inHand (some host))
    (hhand : inHand = none ∨ inHand = some host) (hfree : ∀ x ∈ s.sessions, ¬x.Holds host)
    (hcalled : ∃ call ∈ s.calls, call.host? = some host) (answer : Except String String) :
    (s.onBench (s.toBench.conclude host answer).1).Housed foreign none none := by
  have hrenderer := Bench.conclude_toRenderer host answer s.toBench
  have hsurface := Bench.conclude_surface host answer s.toBench
  obtain ⟨call, hcall, hhost⟩ := hcalled
  have hown : ¬foreign host := fun hforeign => h.apart host hforeign call hcall hhost
  refine ⟨h.ascending, h.numbered, h.left, h.heeded, ?_, fun other hnone => (by cases hnone), ?_,
    ?_, ?_, ?_, ?_, ?_, ?_⟩
  · change ∀ x ∈ s.sessions, ∀ other, x.Holds other →
      (s.toBench.conclude host answer).1.toRenderer.CalledFor (s.renderId x.seq) other
    rw [hrenderer]
    exact h.begun
  · intro other
    change other ∈ (s.toBench.conclude host answer).1.toRenderer.pending ↔
      none ≠ some other ∧ (none = some other ∨ ∃ x ∈ s.sessions, x.Holds other)
    rw [hrenderer, h.pending]
    simp only [ne_eq, Option.some.injEq, reduceCtorEq, not_false_eq_true, true_and, false_or]
    constructor
    · rintro ⟨hne, hhand' | hheld⟩
      · rcases hhand with rfl | rfl
        · cases hhand'
        · exact absurd (Option.some.inj hhand') hne
      · exact hheld
    · rintro ⟨x, hx, hhost⟩
      refine ⟨?_, .inr ⟨x, hx, hhost⟩⟩
      rintro rfl
      exact hfree x hx hhost
  · change ∀ other result, .result other result ∈
      (s.toBench.conclude host answer).1.toRenderer.answers →
        ∃ call ∈ (s.toBench.conclude host answer).1.toRenderer.calls, call.host? = some other
    rw [hrenderer]
    exact h.answered
  · exact (Bench.conclude_grows host answer s.toBench).numbered h.hosts
  · intro other
    change other ∈ (s.toBench.conclude host answer).1.surface.hostIds ↔ foreign other ∨
      none = some other ∨ other ∈ (s.toBench.conclude host answer).1.toRenderer.pending
    rw [hrenderer, hsurface, Surface.hostIds_detachHost, List.mem_filter, h.lodged]
    simp only [Option.some.injEq, bne_iff_ne, ne_eq, reduceCtorEq, false_or]
    constructor
    · rintro ⟨hforeign | heq | hopen, hne⟩
      · exact .inl hforeign
      · exact absurd heq.symm hne
      · exact .inr hopen
    · rintro (hforeign | hopen)
      · exact ⟨.inl hforeign, fun heq => hown (heq ▸ hforeign)⟩
      · refine ⟨.inr (.inr hopen), fun heq => ?_⟩
        exact ((h.pending other).mp hopen).1 (by rw [heq])
  · change (s.toBench.conclude host answer).1.surface.hostIds.Nodup
    rw [hsurface, Surface.hostIds_detachHost]
    exact h.nodup.filter _
  · intro other hother
    change other ∈ (s.toBench.conclude host answer).1.surface.hostIds at hother
    change other.number ≤ (s.toBench.conclude host answer).1.surface.attached
    rw [hsurface] at hother ⊢
    rw [Surface.hostIds_detachHost] at hother
    exact h.known other (List.mem_filter.mp hother).1
  · change ∀ other, foreign other →
      ∀ call ∈ (s.toBench.conclude host answer).1.toRenderer.calls, call.host? ≠ some other
    rw [hrenderer]
    exact h.apart

/-! ## Orders -/

/-- An order gives up the session that is live, so that no session that is engaged is live then, and
touches nobody's hold on a host. -/
theorem obey (h : s.Housed foreign inHand closing) (order : Order) :
    (order.obey s).Housed foreign inHand closing := by
  have hrenderer := Order.obey_toRenderer order s
  have hsurface : (order.obey s).surface.hostIds = s.surface.hostIds ∧
      (order.obey s).surface.attached = s.surface.attached := by
    rw [Order.obey_surface, Surface.hostIds_remove]
    exact ⟨rfl, rfl⟩
  have hid : ∀ n, (order.obey s).renderId n = s.renderId n := by
    intro n
    rw [renderId, Order.obey_instanceId]
    rfl
  obtain ⟨added, hsessions, hlast, hadded, hnew⟩ := obey_sessions order s
  have hmem : ∀ y ∈ (order.obey s).sessions,
      (∃ x ∈ s.sessions, y = x.giveUp s.live) ∨ y ∈ added := by
    intro y hy
    rw [hsessions] at hy
    rcases List.mem_append.mp hy with hold | hnew
    · obtain ⟨x, hx, rfl⟩ := List.mem_map.mp hold
      exact .inl ⟨x, hx, rfl⟩
    · exact .inr hnew
  have hholds : ∀ (x : Session) host, (x.giveUp s.live).Holds host ↔ x.Holds host := by
    intro x host
    rw [Session.Holds, Session.Holds, Session.giveUp_progress, Session.giveUp_abandoned]
  have hnone : ∀ y ∈ added, ∀ host, ¬y.Holds host := by
    intro y hy
    refine Session.not_holds (fun host hwaiting => ?_) (hnew y hy).2.2.2
    rw [(hnew y hy).2.2.1] at hwaiting
    cases hwaiting
  refine ⟨?_, ?_, ?_, ?_, ?_, ?_, ?_, ?_, ?_, ?_, ?_, ?_, ?_⟩
  · rw [hsessions]
    refine List.pairwise_append.mpr ⟨List.pairwise_map.mpr (h.ascending.imp ?_), hadded, ?_⟩
    · intro x y hxy
      simpa using hxy
    · intro x hx y hy
      obtain ⟨z, hz, rfl⟩ := List.mem_map.mp hx
      rw [Session.giveUp_seq]
      exact Nat.lt_of_le_of_lt (h.numbered z hz) (hnew y hy).1
  · intro y hy
    rcases hmem y hy with ⟨x, hx, rfl⟩ | hy
    · rw [Session.giveUp_seq]
      exact Nat.le_trans (h.numbered x hx) hlast
    · exact (hnew y hy).2.1
  · intro y hy
    rcases hmem y hy with ⟨x, hx, rfl⟩ | hy
    · rw [Session.giveUp_abandoned, Session.end?, Session.giveUp_progress]
      exact h.left x hx
    · rw [(hnew y hy).2.2.2]
      exact fun hleft => absurd rfl hleft
  · intro y hy hengaged
    rcases hmem y hy with ⟨x, hx, rfl⟩ | hy
    · refine .inl ?_
      rw [Session.Engaged, Session.giveUp_progress] at hengaged
      rcases h.heeded x hx hengaged with hcancelled | hlive
      · exact Session.cancelled_giveUp hcancelled
      · simp [Session.giveUp, hlive]
    · rw [Session.Engaged, (hnew y hy).2.2.1] at hengaged
      rcases hengaged with hrunning | ⟨host, hwaiting⟩
      · cases hrunning
      · cases hwaiting
  · intro y hy host hhost
    rw [hid, hrenderer]
    rcases hmem y hy with ⟨x, hx, rfl⟩ | hy
    · rw [Session.giveUp_seq]
      exact h.begun x hx host ((hholds x host).mp hhost)
    · exact absurd hhost (hnone y hy host)
  · intro host hhand y hy hhost
    rcases hmem y hy with ⟨x, hx, rfl⟩ | hy
    · exact h.free host hhand x hx ((hholds x host).mp hhost)
    · exact hnone y hy host hhost
  · intro host
    rw [hrenderer, h.pending]
    refine and_congr_right fun _ => or_congr_right ?_
    constructor
    · rintro ⟨x, hx, hhost⟩
      refine ⟨x.giveUp s.live, ?_, (hholds x host).mpr hhost⟩
      rw [hsessions]
      exact List.mem_append_left _ (List.mem_map_of_mem hx)
    · rintro ⟨y, hy, hhost⟩
      rcases hmem y hy with ⟨x, hx, rfl⟩ | hy
      · exact ⟨x, hx, (hholds x host).mp hhost⟩
      · exact absurd hhost (hnone y hy host)
  · rw [hrenderer]
    exact h.answered
  · have hgrows : s.toBench.Grows (order.obey s).toBench :=
      .of_eq (by rw [hrenderer]) (by rw [hrenderer]) hsurface.2
    exact hgrows.numbered h.hosts
  · intro host
    rw [hsurface.1, hrenderer]
    exact h.lodged host
  · rw [hsurface.1]
    exact h.nodup
  · rw [hsurface.1, hsurface.2]
    exact h.known
  · rw [hrenderer]
    exact h.apart

end Housed

end Scene

end DiagramView
