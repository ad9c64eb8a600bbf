import DiagramView.Proofs.Record

/-!
# Where nodes are

A node of a surface is in the container, or it is at a *place*: in the body or in a host
(`Surface.mem_nodes`). Every operation on a surface is described by what it does to the nodes at a
place; an engine that asks for nothing adds the nodes that it inserts there and no others
(`Response.at_after`), and those that it inserts into the body are there in any case
(`Response.at_body_after`).
-/

namespace DiagramView

namespace Surface

variable {s : Surface} {place : Parent} {node : SurfaceNode}

/-- A node is in the body or in a host. -/
def At (s : Surface) (place : Parent) (node : SurfaceNode) : Prop :=
  match place with
  | .body => node ∈ s.body
  | .host h => ∃ nodes, (h, nodes) ∈ s.hosts ∧ node ∈ nodes

theorem mem_nodes : node ∈ s.nodes ↔ s.container = some node ∨ ∃ place, s.At place node := by
  simp only [nodes, List.mem_append, Option.mem_toList, List.mem_flatMap, Prod.exists, or_assoc]
  refine or_congr_right ?_
  constructor
  · rintro (hbody | ⟨h, nodes, hmem, hnode⟩)
    · exact ⟨.body, hbody⟩
    · exact ⟨.host h, nodes, hmem, hnode⟩
  · rintro ⟨place, hat⟩
    cases place with
    | body => exact .inl hat
    | host h => exact .inr ⟨h, hat⟩

/-! ## Operations -/

theorem at_clearContainer : s.clearContainer.At place node ↔ s.At place node := by
  cases place <;> exact Iff.rfl

theorem at_remove {p : String → Bool} :
    (s.remove p).At place node ↔ s.At place node ∧ p node.id = false := by
  cases place with
  | body => simp [At, remove]
  | host h =>
    simp only [At, remove, List.mem_map, Prod.mk.injEq, Prod.exists]
    constructor
    · rintro ⟨_, ⟨_, nodes, hmem, rfl, rfl⟩, hnode⟩
      obtain ⟨hnode, hkept⟩ := List.mem_filter.mp hnode
      exact ⟨⟨nodes, hmem, hnode⟩, by simpa using hkept⟩
    · rintro ⟨⟨nodes, hmem, hnode⟩, hkept⟩
      exact ⟨_, ⟨h, nodes, hmem, rfl, rfl⟩, List.mem_filter.mpr ⟨hnode, by simp [hkept]⟩⟩

theorem container_of_remove {p : String → Bool} (h : (s.remove p).container = some node) :
    s.container = some node :=
  (Option.filter_eq_some_iff.mp h).1

/-- A sweep takes the nodes that satisfy its predicate, wherever they are. -/
theorem mem_nodes_remove {p : String → Bool} :
    node ∈ (s.remove p).nodes ↔ node ∈ s.nodes ∧ p node.id = false := by
  have hcontainer : (s.remove p).container = some node ↔
      s.container = some node ∧ p node.id = false := by
    simp [remove, Option.filter_eq_some_iff]
  simp only [mem_nodes, hcontainer, at_remove]
  constructor
  · rintro (⟨hnode, hkept⟩ | ⟨place, hat, hkept⟩)
    · exact ⟨.inl hnode, hkept⟩
    · exact ⟨.inr ⟨place, hat⟩, hkept⟩
  · rintro ⟨hnode | ⟨place, hat⟩, hkept⟩
    · exact .inl ⟨hnode, hkept⟩
    · exact .inr ⟨place, hat, hkept⟩

theorem at_detachHost {host : HostId} :
    (s.detachHost host).At place node ↔ s.At place node ∧ place ≠ .host host := by
  cases place with
  | body => simp [At, detachHost]
  | host h =>
    simp only [At, detachHost, List.mem_filter, bne_iff_ne, ne_eq, Parent.host.injEq]
    constructor
    · rintro ⟨nodes, ⟨hmem, hne⟩, hnode⟩
      exact ⟨⟨nodes, hmem, hnode⟩, hne⟩
    · rintro ⟨⟨nodes, hmem, hnode⟩, hne⟩
      exact ⟨nodes, ⟨hmem, hne⟩, hnode⟩

theorem at_attachHost : s.attachHost.At place node ↔ s.At place node := by
  cases place with
  | body => exact Iff.rfl
  | host h =>
    simp only [At, attachHost, List.mem_append, List.mem_singleton, Prod.mk.injEq]
    constructor
    · rintro ⟨nodes, hmem | ⟨-, rfl⟩, hnode⟩
      · exact ⟨nodes, hmem, hnode⟩
      · cases hnode
    · rintro ⟨nodes, hmem, hnode⟩
      exact ⟨nodes, .inl hmem, hnode⟩

theorem at_of_insert {parent : Parent} {new : SurfaceNode}
    (hat : (s.insert parent new).At place node) :
    s.At place node ∨ (parent = place ∧ node = new) := by
  cases place with
  | body =>
    cases parent with
    | body =>
      rcases List.mem_append.mp hat with hold | hnew
      · exact .inl hold
      · exact .inr ⟨rfl, List.mem_singleton.mp hnew⟩
    | host h => exact .inl hat
  | host h =>
    cases parent with
    | body => exact .inl hat
    | host h' =>
      obtain ⟨nodes, hmem, hnode⟩ := hat
      obtain ⟨⟨found, before⟩, hbefore, heq⟩ := List.mem_map.mp hmem
      simp only at heq
      split at heq
      · next hfound =>
        subst hfound
        cases heq
        rcases List.mem_append.mp hnode with hold | hnew
        · exact .inl ⟨before, hbefore, hold⟩
        · exact .inr ⟨rfl, List.mem_singleton.mp hnew⟩
      · cases heq
        exact .inl ⟨nodes, hbefore, hnode⟩

theorem at_body_insert {parent : Parent} {new : SurfaceNode} :
    (s.insert parent new).At .body node ↔ s.At .body node ∨ (parent = .body ∧ node = new) := by
  cases parent with
  | body => simp [At, insert]
  | host h => simp [At, insert]

/-! ## Deeds -/

theorem at_of_foldl_afterDeed {deeds : List (Deed Empty)}
    (hat : (deeds.foldl afterDeed s).At place node) :
    s.At place node ∨ .insert place node ∈ deeds := by
  induction deeds generalizing s with
  | nil => exact .inl hat
  | cons deed deeds ih =>
    rcases ih hat with hold | hmem
    · cases deed with
      | insert parent new =>
        rcases at_of_insert hold with hold | ⟨rfl, rfl⟩
        · exact .inl hold
        · exact .inr (.head _)
      | report event => exact .inl hold
      | request command => exact nomatch command
    · exact .inr (.tail _ hmem)

theorem at_body_foldl_afterDeed {deeds : List (Deed Empty)} :
    (deeds.foldl afterDeed s).At .body node ↔ s.At .body node ∨ .insert .body node ∈ deeds := by
  induction deeds generalizing s with
  | nil => simp
  | cons deed deeds ih =>
    rw [List.foldl_cons, ih, List.mem_cons, ← or_assoc]
    refine or_congr_left ?_
    cases deed with
    | insert parent new =>
      rw [afterDeed, at_body_insert, Deed.insert.injEq, eq_comm (a := Parent.body)]
    | report event => simp [afterDeed]
    | request command => exact nomatch command

end Surface

namespace Response

variable {σ α : Type} {response : Response (Bench σ) Empty α} {place : Parent} {node : SurfaceNode}

/-- After a call there are the nodes from before and those that the engine inserted. -/
theorem at_after (hat : response.after.surface.At place node) :
    response.state.surface.At place node ∨ .insert place node ∈ response.deeds := by
  rw [after_surface] at hat
  exact Surface.at_of_foldl_afterDeed hat

theorem at_body_after (response : Response (Bench σ) Empty α) (node : SurfaceNode) :
    response.after.surface.At .body node ↔
      response.state.surface.At .body node ∨ .insert .body node ∈ response.deeds := by
  rw [after_surface]
  exact Surface.at_body_foldl_afterDeed

end Response

end DiagramView
