import DiagramView.Proofs.Record

/-!
# Parts of a surface

A surface as it looks to somebody who knows some nodes by their ids and some of the hosts
(`Surface.part`). What is done to a surface is done to its parts in the same way, so surfaces with
equal parts keep equal parts (`Surface.part_foldl_afterDeed`, `part_remove`, …); and what is done
with other nodes and in other hosts leaves a part as it is.
-/

namespace DiagramView

namespace Surface

variable {own own' : String → Bool} {mine mine' : HostId → Bool} {s t : Surface}

/-- The container, and of the nodes and hosts outside it those that satisfy a predicate. -/
def part (own : String → Bool) (mine : HostId → Bool) (s : Surface) : Surface where
  container := s.container
  body := s.body.filter fun node => own node.id
  hosts := (s.hosts.filter fun entry => mine entry.1).map fun entry =>
    (entry.1, entry.2.filter fun node => own node.id)
  attached := s.attached

/-- Of two filters the weaker one may be left out. -/
theorem filter_filter_of_imp {α : Type} {p q : α → Bool} (h : ∀ a, q a = true → p a = true)
    (l : List α) : (l.filter p).filter q = l.filter q := by
  rw [List.filter_filter]
  refine List.filter_congr ?_
  intro a _
  cases ha : q a with
  | true => simp [h a ha]
  | false => simp

/-- A smaller part is a part of a larger one. -/
theorem part_part (hown : ∀ id, own' id = true → own id = true)
    (hmine : ∀ h, mine' h = true → mine h = true) (s : Surface) :
    (s.part own mine).part own' mine' = s.part own' mine' := by
  have hnodes : ∀ nodes : List SurfaceNode,
      (nodes.filter fun node => own node.id).filter (fun node => own' node.id) =
        nodes.filter fun node => own' node.id :=
    filter_filter_of_imp fun node => hown node.id
  have hhosts : (s.hosts.filter fun entry => mine entry.1).filter (fun entry => mine' entry.1) =
      s.hosts.filter fun entry => mine' entry.1 :=
    filter_filter_of_imp (fun entry => hmine entry.1) s.hosts
  simp only [part, List.filter_map, List.map_map, Function.comp_def, hnodes, hhosts]

/-- Surfaces that agree in a part agree in every smaller one. -/
theorem part_mono (h : s.part own mine = t.part own mine)
    (hown : ∀ id, own' id = true → own id = true)
    (hmine : ∀ h, mine' h = true → mine h = true) : s.part own' mine' = t.part own' mine' := by
  rw [← part_part hown hmine s, h, part_part hown hmine t]

theorem attached_of_part_eq (h : s.part own mine = t.part own' mine') :
    s.attached = t.attached := by
  have hattached := congrArg attached h
  exact hattached

/-- The nodes in a host. -/
def nodesIn (h : HostId) (s : Surface) : List SurfaceNode :=
  (s.hosts.filter fun entry => entry.1 = h).flatMap (·.2)

theorem nodesIn_part {h : HostId} (hmine : mine h = true) (s : Surface) :
    (s.part own mine).nodesIn h = (s.nodesIn h).filter fun node => own node.id := by
  have hhosts : (s.hosts.filter fun entry => mine entry.1).filter (fun entry => entry.1 = h) =
      s.hosts.filter fun entry => entry.1 = h := by
    refine filter_filter_of_imp ?_ s.hosts
    intro entry hentry
    rw [of_decide_eq_true hentry]
    exact hmine
  simp only [nodesIn, part, List.filter_map, Function.comp_def, hhosts, List.flatMap_map,
    List.filter_flatMap]

theorem nodesIn_of_part_eq {h : HostId} (hpart : s.part own mine = t.part own mine)
    (hmine : mine h = true) :
    ((s.nodesIn h).filter fun node => own node.id) =
      (t.nodesIn h).filter fun node => own node.id := by
  rw [← nodesIn_part hmine, hpart, nodesIn_part hmine]

/-! ## Operations on parts -/

theorem part_insert (parent : Parent) (node : SurfaceNode) (s : Surface) :
    (s.insert parent node).part own mine =
      if own node.id then (s.part own mine).insert parent node else s.part own mine := by
  cases parent with
  | body =>
    simp only [insert, part, List.filter_append]
    split
    · next hown => simp [hown]
    · next hown => simp [hown]
  | host id =>
    have hfilter : ((fun entry : HostId × List SurfaceNode => mine entry.1) ∘ fun entry =>
        if entry.1 = id then (entry.1, entry.2 ++ [node]) else entry) =
          fun entry => mine entry.1 := by
      funext entry
      simp only [Function.comp_apply]
      split <;> rfl
    simp only [insert, part, List.filter_map, hfilter, List.map_map]
    split
    · next hown =>
      simp only [mk.injEq, true_and, and_true]
      refine List.map_congr_left ?_
      intro entry _
      by_cases hentry : entry.1 = id <;> simp [hentry, hown]
    · next hown =>
      simp only [mk.injEq, true_and, and_true]
      refine List.map_congr_left ?_
      intro entry _
      by_cases hentry : entry.1 = id <;> simp [hentry, hown]

theorem part_remove (p : String → Bool) (s : Surface) :
    (s.remove p).part own mine = (s.part own mine).remove p := by
  have hfilter : ∀ nodes : List SurfaceNode,
      (nodes.filter fun node => !p node.id).filter (fun node => own node.id) =
        (nodes.filter fun node => own node.id).filter fun node => !p node.id := by
    intro nodes
    rw [List.filter_filter, List.filter_filter]
    refine List.filter_congr ?_
    intro node _
    exact Bool.and_comm _ _
  simp only [remove, part, hfilter, List.filter_map, List.map_map, Function.comp_def]

theorem part_clearContainer (s : Surface) :
    s.clearContainer.part own mine = (s.part own mine).clearContainer :=
  rfl

theorem part_mount (node : SurfaceNode) (s : Surface) :
    (s.mount node).part own mine = (s.part own mine).mount node :=
  rfl

theorem part_detachHost (h : HostId) (s : Surface) :
    (s.detachHost h).part own mine = (s.part own mine).detachHost h := by
  simp only [detachHost, part, List.filter_map, List.filter_filter, Function.comp_def,
    Bool.and_comm]

theorem part_attachHost (hmine : mine s.nextHost = true) :
    s.attachHost.part own mine = (s.part own mine).attachHost := by
  have hnext : mine ⟨s.attached + 1⟩ = true := hmine
  simp [attachHost, part, nextHost, hnext]

/-! ## What leaves a part as it is -/

/-- A host outside a part may be detached. -/
theorem part_detachHost_of_not_mine {h : HostId} (hmine : mine h = false) :
    (s.detachHost h).part own mine = s.part own mine := by
  have hhosts : (s.hosts.filter fun entry => entry.1 != h).filter (fun entry => mine entry.1) =
      s.hosts.filter fun entry => mine entry.1 := by
    refine filter_filter_of_imp ?_ s.hosts
    intro entry hentry
    rw [bne_iff_ne]
    rintro rfl
    exact absurd (hmine.symm.trans hentry) (by decide)
  simp only [detachHost, part, hhosts]

/-- Nodes outside a part may be removed, if none of them is in the container. -/
theorem part_remove_of_not_own {p : String → Bool} (hown : ∀ id, own id = true → p id = false)
    (hcontainer : (s.remove p).container = s.container) :
    (s.remove p).part own mine = s.part own mine := by
  have hnodes : ∀ nodes : List SurfaceNode,
      (nodes.filter fun node => !p node.id).filter (fun node => own node.id) =
        nodes.filter fun node => own node.id := by
    refine filter_filter_of_imp ?_
    intro node hnode
    rw [hown node.id hnode]
    rfl
  simp only [part, hcontainer]
  simp only [remove, hnodes, List.filter_map, List.map_map, Function.comp_def]

/-- What becomes of a part when all its nodes are removed does not depend on them. -/
theorem part_remove_of_own {p : String → Bool} (hown : ∀ id, own' id = true → p id = true)
    (hmine : ∀ h, mine' h = true → mine h = true) (s : Surface) :
    (s.remove p).part own' mine' = ((s.part own mine).remove p).part own' mine' := by
  have hnodes : ∀ nodes : List SurfaceNode,
      (nodes.filter fun node => !p node.id).filter (fun node => own' node.id) = [] := by
    intro nodes
    rw [List.filter_filter, List.filter_eq_nil_iff]
    intro node _ hboth
    rw [Bool.and_eq_true] at hboth
    rw [hown _ hboth.1] at hboth
    exact absurd hboth.2 (by decide)
  have hhosts : (s.hosts.filter fun entry => mine entry.1).filter (fun entry => mine' entry.1) =
      s.hosts.filter fun entry => mine' entry.1 :=
    filter_filter_of_imp (fun entry => hmine entry.1) s.hosts
  simp only [remove, part, hnodes, hhosts, List.filter_map, List.map_map, Function.comp_def]

/-- Surfaces that agree in a part agree in any nodes that are removed from both, and in no container
at all. -/
theorem part_clear {p : String → Bool} (h : s.part own mine = t.part own mine)
    (hown : ∀ id, own' id = true → p id = true) (hmine : ∀ h, mine' h = true → mine h = true) :
    (s.clearContainer.remove p).part own' mine' = (t.clearContainer.remove p).part own' mine' := by
  rw [part_remove_of_own hown hmine s.clearContainer,
    part_remove_of_own hown hmine t.clearContainer, part_clearContainer, part_clearContainer, h]

/-! ## Deeds -/

/-- Surfaces that agree in a part agree in it after the same deeds. -/
theorem part_foldl_afterDeed (h : s.part own mine = t.part own mine)
    (deeds : List (Deed Empty)) :
    (deeds.foldl afterDeed s).part own mine = (deeds.foldl afterDeed t).part own mine := by
  induction deeds generalizing s t with
  | nil => exact h
  | cons deed deeds ih =>
    refine ih ?_
    cases deed with
    | insert parent node => simp only [afterDeed, part_insert, h]
    | report event => exact h
    | request command => exact nomatch command

/-- Deeds that insert no node of a part leave it as it is. -/
theorem part_foldl_afterDeed_of_not_own {deeds : List (Deed Empty)}
    (hdeeds : ∀ parent node, .insert parent node ∈ deeds → own node.id = false) :
    (deeds.foldl afterDeed s).part own mine = s.part own mine := by
  induction deeds generalizing s with
  | nil => rfl
  | cons deed deeds ih =>
    rw [List.foldl_cons, ih fun parent node hmem => hdeeds parent node (.tail _ hmem)]
    cases deed with
    | insert parent node =>
      rw [afterDeed, part_insert, hdeeds parent node (.head _), if_neg (by decide)]
    | report event => rfl
    | request command => exact nomatch command

end Surface

end DiagramView
