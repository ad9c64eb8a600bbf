import DiagramView.Proofs.Hosts

/-!
# Sweeping a surface

A sweep removes exactly the nodes that are counted (`lost_eq_count`): of the nodes of a surface the
others are left, in their order (`nodes_remove`), and so it is at every place (`held?_remove`). Two
sweeps one after the other are one sweep with the disjunction of their predicates
(`remove_remove`), whence their order does not matter.

`sweeps_exact` says this of every surface that a run of edits leads to. On such a surface the hosts
are told apart by their numbers (`inOrder_after`), and each of them is one place.
-/

namespace DiagramView.Surface

/-! ## Edits -/

/-- What can be done to a surface. -/
inductive Edit where
  | mount (node : SurfaceNode)
  | clear
  | attach
  | detach (host : HostId)
  | insert (parent : Parent) (node : SurfaceNode)
  | sweep (p : String → Bool)

/-- The surface after an edit. -/
def Edit.apply (s : Surface) : Edit → Surface
  | .mount node => s.mount node
  | .clear => s.clearContainer
  | .attach => s.attachHost
  | .detach host => s.detachHost host
  | .insert parent node => s.insert parent node
  | .sweep p => (s.sweep p).1

/-- The surface that edits lead to from the beginning. -/
def after (edits : List Edit) : Surface :=
  edits.foldl Edit.apply {}

/-- Hosts are listed in the order in which they were attached, and numbered in this order. -/
structure InOrder (s : Surface) : Prop where
  increasing : s.hostIds.Pairwise fun host host' => host.number < host'.number
  known : ∀ host ∈ s.hostIds, host.number ≤ s.attached

variable {s : Surface}

theorem InOrder.apply (h : s.InOrder) (edit : Edit) : (edit.apply s).InOrder := by
  cases edit with
  | mount node => exact ⟨h.increasing, h.known⟩
  | clear => exact ⟨h.increasing, h.known⟩
  | attach =>
    refine ⟨?_, ?_⟩
    · have hlast : ∀ host ∈ s.hostIds, host.number < s.nextHost.number :=
        fun host hhost => Nat.lt_succ_of_le (h.known host hhost)
      simpa [Edit.apply, List.pairwise_append] using ⟨h.increasing, hlast⟩
    · intro host hhost
      simp only [Edit.apply, hostIds_attachHost, List.mem_append, List.mem_singleton] at hhost
      rcases hhost with hold | rfl
      · exact Nat.le_succ_of_le (h.known host hold)
      · exact Nat.le_refl _
  | detach host =>
    refine ⟨?_, ?_⟩
    · simpa [Edit.apply] using h.increasing.filter _
    · intro host' hhost'
      simp only [Edit.apply, hostIds_detachHost] at hhost'
      exact h.known host' (List.mem_filter.mp hhost').1
  | insert parent node =>
    have hattached : (s.insert parent node).attached = s.attached := by cases parent <;> rfl
    refine ⟨?_, ?_⟩
    · simpa [Edit.apply] using h.increasing
    · simpa [Edit.apply, hattached] using h.known
  | sweep p =>
    have hhosts : (s.sweep p).1.hostIds = s.hostIds := hostIds_remove s p
    exact ⟨hhosts ▸ h.increasing, hhosts ▸ h.known⟩

theorem inOrder_foldl (h : s.InOrder) (edits : List Edit) : (edits.foldl Edit.apply s).InOrder := by
  induction edits generalizing s with
  | nil => exact h
  | cons edit edits ih => exact ih (h.apply edit)

theorem inOrder_after (edits : List Edit) : (after edits).InOrder :=
  inOrder_foldl ⟨List.Pairwise.nil, by simp [hostIds]⟩ edits

/-! ## What a sweep leaves -/

theorem nodes_remove (s : Surface) (p : String → Bool) :
    (s.remove p).nodes = s.nodes.filter fun node => !p node.id := by
  simp only [nodes, remove, Option.toList_filter, List.filter_append, List.filter_flatMap,
    List.flatMap_map]

theorem count_remove (s : Surface) (p q : String → Bool) :
    (s.remove p).count q = s.count fun id => q id && !p id := by
  rw [count, nodes_remove, List.countP_filter]
  rfl

theorem lostAt_eq_countP (p : String → Bool) (nodes : List SurfaceNode) :
    lostAt p nodes = nodes.countP fun node => p node.id := by
  have hsplit := List.length_eq_countP_add_countP (l := nodes) fun node => p node.id
  have hkept : (nodes.filter fun node => !p node.id).length =
      nodes.countP fun node => ¬p node.id := by
    rw [List.countP_eq_length_filter]
    simp
  unfold lostAt
  omega

/-- The hosts are gone through with the number of nodes lost so far. -/
theorem foldl_lostAt (p : String → Bool) (hosts : List (HostId × List SurfaceNode)) (n : Nat) :
    hosts.foldl (fun n entry => n + lostAt p entry.2) n =
      n + (hosts.flatMap (·.2)).countP fun node => p node.id := by
  induction hosts generalizing n with
  | nil => rfl
  | cons entry hosts ih =>
    rw [List.foldl_cons, ih, lostAt_eq_countP, List.flatMap_cons, List.countP_append, Nat.add_assoc]

/-- The nodes lost place by place are as many as those that are counted all at once. -/
theorem lost_eq_count (s : Surface) (p : String → Bool) : s.lost p = s.count p := by
  have hshown : (if s.container.any fun node => p node.id then 1 else 0) =
      s.container.toList.countP fun node => p node.id := by
    cases s.container <;> simp [List.countP_cons]
  unfold lost
  dsimp only
  rw [foldl_lostAt, hshown, lostAt_eq_countP, count, nodes, List.countP_append, List.countP_append]

theorem sweep_eq (s : Surface) (p : String → Bool) : s.sweep p = (s.remove p, s.count p) := by
  rw [sweep, lost_eq_count]

theorem remove_remove (s : Surface) (p q : String → Bool) :
    (s.remove p).remove q = s.remove fun id => p id || q id := by
  simp [remove, List.filter_filter, Option.filter_filter, Bool.and_comm]

theorem count_or (s : Surface) (p q : String → Bool) :
    s.count (fun id => p id || q id) = s.count p + (s.remove p).count q := by
  -- the nodes that satisfy the first predicate and those that do not are counted apart
  have hfirst : (s.nodes.filter fun node => p node.id).countP (fun node => p node.id || q node.id) =
      s.count p := by
    rw [List.countP_filter]
    exact List.countP_congr fun node _ => by cases p node.id <;> simp
  have hsecond : (s.nodes.filter fun node => !p node.id).countP
      (fun node => p node.id || q node.id) = (s.remove p).count q := by
    rw [count_remove, List.countP_filter]
    exact List.countP_congr fun node _ => by cases hp : p node.id <;> simp [hp]
  rw [count, List.countP_eq_countP_filter_add _ _ fun node => p node.id, hfirst, hsecond]

/-! ## Places -/

/-- Where nodes can be. -/
inductive Place where
  | container
  | body
  | host (id : HostId)

/-- The nodes at a place. A host that is not attached is no place. -/
def held? (s : Surface) : Place → Option (List SurfaceNode)
  | .container => some s.container.toList
  | .body => some s.body
  | .host id => (s.hosts.find? fun entry => entry.1 = id).map (·.2)

/-- Every host is a place of its own. -/
theorem InOrder.held?_host_iff (h : s.InOrder) {host : HostId} {nodes : List SurfaceNode} :
    s.held? (.host host) = some nodes ↔ (host, nodes) ∈ s.hosts := by
  constructor
  · intro hheld
    obtain ⟨entry, hfind, rfl⟩ := Option.map_eq_some_iff.mp hheld
    have hhost : entry.1 = host := by simpa using List.find?_some hfind
    exact hhost ▸ List.mem_of_find?_eq_some hfind
  · intro hmem
    obtain ⟨before, behind, hsplit⟩ := List.append_of_mem hmem
    have hbefore : ∀ entry ∈ before, ¬entry.1 = host := by
      intro entry hentry heq
      have hincreasing := h.increasing
      rw [hostIds, hsplit, List.map_append, List.pairwise_append] at hincreasing
      have hless : entry.1.number < host.number :=
        hincreasing.2.2 _ (List.mem_map_of_mem hentry) host List.mem_cons_self
      exact Nat.lt_irrefl _ (heq ▸ hless)
    have hnone : before.find? (fun entry => entry.1 = host) = none := by
      simpa [List.find?_eq_none] using hbefore
    simp [held?, hsplit, List.find?_append, hnone]

theorem held?_remove (s : Surface) (p : String → Bool) (place : Place) :
    (s.remove p).held? place =
      (s.held? place).map fun nodes => nodes.filter fun node => !p node.id := by
  cases place with
  | container => simp only [held?, remove, Option.toList_filter, Option.map_some]
  | body => rfl
  | host id =>
    simp only [held?, remove, List.find?_map, Option.map_map]
    rfl

/-! ## Sweeps -/

/-- A sweep with a predicate leads from one surface to another, and says how many nodes went. -/
structure Sweeps (p : String → Bool) (s left : Surface) (removed : Nat) : Prop where
  /-- As many nodes go as there were to be removed. -/
  removed : removed = s.count p
  /-- None of them is left. -/
  cleared : left.count p = 0
  /-- All others are left. -/
  others : ∀ q, left.count q = s.count fun id => q id && !p id
  /-- They are where they were, in their order. -/
  places : ∀ place, left.held? place =
    (s.held? place).map fun nodes => nodes.filter fun node => !p node.id
  /-- No host comes or goes. -/
  hosts : left.hostIds = s.hostIds

theorem sweeps_sweep (s : Surface) (p : String → Bool) :
    Sweeps p s (s.sweep p).1 (s.sweep p).2 := by
  rw [sweep_eq]
  refine ⟨rfl, ?_, count_remove s p, held?_remove s p, hostIds_remove s p⟩
  rw [count_remove]
  simp [count]

/-- Two sweeps one after the other are one with the disjunction of their predicates. -/
theorem sweep_sweep (s : Surface) (p q : String → Bool) :
    ((s.sweep p).1.sweep q).1 = (s.sweep fun id => p id || q id).1 ∧
      (s.sweep p).2 + ((s.sweep p).1.sweep q).2 = (s.sweep fun id => p id || q id).2 := by
  simp only [sweep_eq]
  exact ⟨remove_remove s p q, (count_or s p q).symm⟩

/-- On every surface that edits lead to, a sweep removes exactly the nodes that are counted, from
every place, and leaves the others where they are. To sweep again changes nothing, and of two
sweeps either may come first: together they are one with the disjunction of their predicates. -/
theorem sweeps_exact (edits : List Edit) (p q : String → Bool) :
    let s := after edits
    let either := s.sweep fun id => p id || q id
    (∀ host nodes, s.held? (.host host) = some nodes ↔ (host, nodes) ∈ s.hosts) ∧
    Sweeps p s (s.sweep p).1 (s.sweep p).2 ∧
    (s.sweep p).1.sweep p = ((s.sweep p).1, 0) ∧
    ((s.sweep p).1.sweep q).1 = either.1 ∧
    ((s.sweep q).1.sweep p).1 = either.1 ∧
    (s.sweep p).2 + ((s.sweep p).1.sweep q).2 = either.2 ∧
    (s.sweep q).2 + ((s.sweep q).1.sweep p).2 = either.2 := by
  intro s either
  have hswap : (s.sweep fun id => q id || p id) = either := by
    simp only [either, Bool.or_comm]
  have hagain : (s.sweep p).1.sweep p = ((s.sweep p).1, 0) := by
    have hcleared := (sweeps_sweep s p).cleared
    rw [sweep_eq s p] at hcleared ⊢
    rw [sweep_eq, hcleared, remove_remove]
    simp
  obtain ⟨hleft, hcount⟩ := sweep_sweep s p q
  obtain ⟨hleft', hcount'⟩ := sweep_sweep s q p
  rw [hswap] at hleft' hcount'
  exact ⟨fun _ _ => (inOrder_after edits).held?_host_iff, sweeps_sweep s p, hagain, hleft, hleft',
    hcount, hcount'⟩

end DiagramView.Surface
