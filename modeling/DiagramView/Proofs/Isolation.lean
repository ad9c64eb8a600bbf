import DiagramView.Proofs.Rooms
import DiagramView.Proofs.Tags

/-!
# Instances keep apart

The number of an instance is written in digits between two hyphens, so the scope of one instance
never begins an id that belongs to a session of another (`InstanceId.covers_numbered_iff`). A
scheduler sweeps by its scope or by the ids of its sessions, and detaches the hosts of its own calls
alone. So what it does leaves the nodes of the others where they are, as well as those that belong
to nobody (`Room.Apart`).

There is one way to lose a node of another instance: an engine may insert it into the host of its
own call, and it goes when that host does (`node_lost_with_host`).
-/

namespace DiagramView

/-! ## Ids of different instances -/

namespace InstanceId

theorem numbered_toList (n : Nat) :
    (numbered n).scope.toList = ['c', 'l', '-'] ++ ((toString n).toList ++ ['-']) := by
  simp [numbered, scope]

/-- What belongs to a session of one instance belongs to no other instance. -/
theorem covers_numbered_iff {n m s : Nat} {tag : String}
    (h : ((numbered n).renderId s).owns tag = true) :
    (numbered m).covers tag = true ↔ n = m := by
  constructor
  · intro hcovers
    obtain ⟨tail, -, htail⟩ := RenderId.owns_iff.mp h
    obtain ⟨rest, hrest⟩ := Text.startsWith_iff.mp hcovers
    rw [htail, renderId_toList, numbered_toList, numbered_toList] at hrest
    simp only [List.append_assoc, List.singleton_append] at hrest
    -- both numbers end at the next hyphen
    exact (IdTail.hyphen _).number_eq (.hyphen _) (List.append_cancel_left hrest)
  · rintro rfl
    exact covers_of_owns h

theorem owns_numbered_iff {n m s t : Nat} {tag : String}
    (h : ((numbered n).renderId s).owns tag = true) :
    ((numbered m).renderId t).owns tag = true ↔ n = m ∧ s = t := by
  constructor
  · intro howns
    obtain rfl := (covers_numbered_iff h).mp (covers_of_owns howns)
    exact ⟨rfl, seq_eq_of_owns h howns⟩
  · rintro ⟨rfl, rfl⟩
    exact h

end InstanceId

/-! ## What a scheduler leaves alone -/

theorem Surface.Spares.mono {p q : String → Bool} {s s' : Surface} (h : s.Spares q s')
    (hpq : ∀ id, p id = true → q id = true) : s.Spares p s' := by
  have hfilter : ∀ nodes : List SurfaceNode, (nodes.filter fun node => p node.id) =
      (nodes.filter fun node => q node.id).filter fun node => p node.id := by
    intro nodes
    rw [List.filter_filter]
    refine List.filter_congr fun node _ => ?_
    cases hid : p node.id with
    | true => simp [hpq node.id hid]
    | false => rfl
  refine ⟨h.attached, h.older, ?_, fun host nodes hnodes hnumber => ?_⟩
  · rw [hfilter s.body, hfilter s'.body]
    exact h.body.filter _
  · refine (h.hosts host nodes hnodes hnumber).imp_right ?_
    rintro ⟨nodes', hnodes', hkept⟩
    refine ⟨nodes', hnodes', ?_⟩
    rw [hfilter nodes, hfilter nodes']
    exact hkept.filter _

namespace Room

variable {σ ο : Type} {room : Room σ ο} {index : Nat} {desk : Desk σ ο} {step : Step σ}
  {p : String → Bool} {host : HostId}

/-- The desk whose scheduler acts in a step: it takes an order, is torn down, or has a session or a
sweep that has its turn. -/
def actor? (room : Room σ ο) : Step σ → Option Nat
  | .order index _ => some index
  | .close index => some index
  | .turn task => room.desks.findIdx? fun desk => desk.schedule.instanceId = task.instanceId
  | .insert _ _ => none
  | .work _ _ => none
  | .elsewhere _ _ _ => none

/-- An id is not the business of a desk: it belongs to a session of another, or to no instance in
the room. -/
def NotOf (room : Room σ ο) (index : Nat) (id : String) : Prop :=
  (∃ (other : Nat) (instanceId : InstanceId) (seq : Nat), other ≠ index ∧
    room.instanceIds[other]? = some instanceId ∧ (instanceId.renderId seq).owns id = true) ∨
  ∀ instanceId ∈ room.instanceIds, instanceId.covers id = false

/-- A host is that of a call under way at a desk, and of no call of another. -/
def OwnHost (room : Room σ ο) (index : Nat) (host : HostId) : Prop :=
  (∃ desk, room.desks[index]? = some desk ∧ host ∈ desk.renderer.pending) ∧
    ∀ (other : Nat) (desk : Desk σ ο), other ≠ index → room.desks[other]? = some desk →
      ∀ call ∈ desk.renderer.calls, call.host? ≠ some host

/-- What has happened at a desk has left alone the nodes with ids of a kind: in the body and in
every host they stand as they did, in order, and no host is gone but one of the desk's own. -/
structure Apart (p : String → Bool) (index : Nat) (room room' : Room σ ο) : Prop where
  body : (room.page.surface.body.filter fun node => p node.id) <+:
    room'.page.surface.body.filter fun node => p node.id
  hosts : ∀ host nodes, (host, nodes) ∈ room.page.surface.hosts →
    (∃ nodes', (host, nodes') ∈ room'.page.surface.hosts ∧
      (nodes.filter fun node => p node.id) <+: nodes'.filter fun node => p node.id) ∨
    host ∉ room'.page.surface.hostIds ∧ room.OwnHost index host

theorem Apart.refl (p : String → Bool) (index : Nat) (room : Room σ ο) : room.Apart p index room :=
  ⟨List.prefix_rfl, fun _ nodes hnodes => .inl ⟨nodes, hnodes, List.prefix_rfl⟩⟩

theorem exists_orderly_of_actor? (e : Engine σ Order) (hactor : room.actor? step = some index) :
    ∃ f : Scene σ ο → Scene σ ο, Scene.Orderly f ∧ room.take e step = room.visit index f := by
  cases step with
  | order other order =>
    cases hactor
    exact ⟨order.obey, Scene.orderly_obey order, rfl⟩
  | close other =>
    cases hactor
    exact ⟨Scene.close, Scene.orderly_close, rfl⟩
  | turn task =>
    refine ⟨Scene.resume e Order.obey task, Scene.orderly_resume e task, ?_⟩
    change room.desks.findIdx? _ = some index at hactor
    change room.resume e Order.obey task = _
    rw [Room.resume, hactor]
  | insert parent node => cases hactor
  | work other engine => cases hactor
  | elsewhere log agenda config => cases hactor

/-- A host that went away in what was done at a desk is the desk's own. -/
theorem Housed.ownHost (h : room.Housed) (hdesk : room.desks[index]? = some desk)
    {s' : Scene σ ο} (htends : (desk.onPage room.page).Tends s')
    (hhost : host ∈ room.page.surface.hostIds) (hgone : host ∉ s'.surface.hostIds) :
    room.OwnHost index host := by
  rcases (exists_pending_iff hdesk).mp ((h.lodged host).mp hhost) with hforeign | hpending
  · -- nobody detaches the host of another's call
    obtain ⟨other, desk', hne, hdesk', hpending⟩ := hforeign
    obtain ⟨⟨call', hcall', hhost'⟩, -⟩ := Renderer.mem_pending.mp hpending
    obtain ⟨call, hcall, hcalled⟩ := htends.detached host hhost hgone
    exact absurd hhost'
      (h.apart_of_tends hdesk htends hne hdesk' call hcall host hcalled call' hcall')
  · refine ⟨⟨desk, hdesk, hpending⟩, fun other desk' hne hdesk' => ?_⟩
    obtain ⟨⟨call, hcall, hcalled⟩, -⟩ := Renderer.mem_pending.mp hpending
    exact h.apart index other desk desk' (Ne.symm hne) hdesk hdesk' call hcall host hcalled

/-- A scheduler leaves alone what is outside its scope. -/
theorem Housed.apart_take (h : room.Housed) (e : Engine σ Order)
    (hactor : room.actor? step = some index)
    (hp : ∀ id, p id = true → ∀ instanceId, room.instanceIds[index]? = some instanceId →
      instanceId.covers id = false) : room.Apart p index (room.take e step) := by
  obtain ⟨f, hf, htake⟩ := exists_orderly_of_actor? e hactor
  rw [htake]
  cases hdesk : room.desks[index]? with
  | none =>
    rw [visit_of_none hdesk]
    exact .refl p index room
  | some desk =>
    rw [visit_of_some hdesk]
    obtain ⟨-, htends⟩ := hf _ _ (h.desks index desk hdesk)
    have hinstance : room.instanceIds[index]? = some desk.schedule.instanceId := by
      rw [instanceIds, List.getElem?_map, hdesk]
      rfl
    have hspares : room.page.surface.Spares p (f (desk.onPage room.page)).surface := by
      refine htends.spares.mono fun id hid => ?_
      change (!desk.schedule.instanceId.covers id) = true
      rw [hp id hid _ hinstance]
      rfl
    refine ⟨hspares.body, fun host nodes hnodes => ?_⟩
    have hhost : host ∈ room.page.surface.hostIds := Surface.mem_hostIds.mpr ⟨nodes, hnodes⟩
    rcases hspares.hosts host nodes hnodes (h.known host hhost) with hgone | hkept
    · exact .inr ⟨hgone, h.ownHost hdesk htends hhost hgone⟩
    · exact .inl hkept

/-- Among instances with different numbers, what is not the business of a desk is outside the scope
of its instance. -/
theorem NotOf.covers_eq_false {numbers : List Nat} (hnodup : numbers.Nodup)
    (hids : room.instanceIds = numbers.map .numbered) {id : String} (h : room.NotOf index id)
    {instanceId : InstanceId} (hinstance : room.instanceIds[index]? = some instanceId) :
    instanceId.covers id = false := by
  rcases h with ⟨other, instanceId', seq, hne, hother, howns⟩ | houtside
  · rw [hids, List.getElem?_map] at hinstance hother
    obtain ⟨n, hn, rfl⟩ := Option.map_eq_some_iff.mp hinstance
    obtain ⟨m, hm, rfl⟩ := Option.map_eq_some_iff.mp hother
    rw [Bool.eq_false_iff]
    intro hcovers
    obtain rfl := (InstanceId.covers_numbered_iff howns).mp hcovers
    obtain ⟨hlt, -⟩ := List.getElem?_eq_some_iff.mp hm
    exact hne ((List.getElem?_inj hlt hnodup).mp (hm.trans hn.symm))
  · exact houtside instanceId (List.mem_of_getElem? hinstance)

/-- Schedulers with numbered instances that have done nothing yet. -/
def numbered (config : SharedConfig) (seats : List (Nat × σ)) (owner : ο) : Room σ ο :=
  fresh config (seats.map fun seat => (.numbered seat.1, seat.2)) owner

theorem housed_run_numbered (e : Engine σ Order) (config : SharedConfig)
    (seats : List (Nat × σ)) (owner : ο) (steps : List (Step σ)) :
    ((numbered config seats owner).run e steps).Housed ∧
      (numbered config seats owner).Grows ((numbered config seats owner).run e steps) :=
  (housed_fresh config _ owner).run e steps

theorem instanceIds_run_numbered (e : Engine σ Order) (config : SharedConfig)
    (seats : List (Nat × σ)) (owner : ο) (steps : List (Step σ)) :
    ((numbered config seats owner).run e steps).instanceIds =
      (seats.map (·.1)).map .numbered := by
  rw [(housed_run_numbered e config seats owner steps).2.instanceIds]
  simp [instanceIds, numbered, fresh, Function.comp_def]

end Room

/-- Ids keep instances and sessions apart, and so do schedulers that share a page: whatever one of
them does, it leaves alone the nodes of the others and those outside every scope, except for what
stands in a host of its own call when that host goes. -/
theorem instances_isolated :
    (∀ (n m s t : Nat) (tag : String), ((InstanceId.numbered n).renderId s).owns tag = true →
      ((InstanceId.numbered m).covers tag = true ↔ n = m) ∧
        (((InstanceId.numbered m).renderId t).owns tag = true ↔ n = m ∧ s = t)) ∧
    ∀ {σ ο : Type} (e : Engine σ Order) (config : SharedConfig) (seats : List (Nat × σ)) (owner : ο)
      (steps : List (Room.Step σ)) (room : Room σ ο), (seats.map (·.1)).Nodup →
        room = (Room.numbered config seats owner).run e steps →
      ∀ (step : Room.Step σ) (index : Nat) (p : String → Bool), room.actor? step = some index →
        (∀ id, p id = true → room.NotOf index id) → room.Apart p index (room.take e step) := by
  refine ⟨fun n m s t tag howns => ?_, ?_⟩
  · exact ⟨InstanceId.covers_numbered_iff howns, InstanceId.owns_numbered_iff howns⟩
  · rintro σ ο e config seats owner steps room hnodup rfl step index p hactor hp
    have hhoused := (Room.housed_run_numbered e config seats owner steps).1
    have hids := Room.instanceIds_run_numbered e config seats owner steps
    refine hhoused.apart_take e hactor fun id hid instanceId hinstance => ?_
    exact (hp id hid).covers_eq_false hnodup hids hinstance

/-! ## A node of another instance -/

/-- An engine that inserts a node into the host of each of its calls, under an id that belongs to a
session of the second instance. Its calls are over when its state says so. -/
def trespassingEngine : Engine Bool Order where
  configure _ done := done
  validate _ done := ⟨done, [], .ok ()⟩
  render _ _ host done := ⟨done, [.insert (.host host) ⟨"cl-2-1-x", "<g/>"⟩], ()⟩
  poll _ done := if done then some ⟨done, [], .ok "<svg/>"⟩ else none

/-- Two schedulers, of which the first awaits a call that has just come to its end. -/
def trespassedRoom : Room Bool Unit :=
  (Room.numbered {} [(1, false), (2, false)] ()).run trespassingEngine
    [.order 1 (.schedule "graph TD"), .order 0 (.schedule "graph TD"),
      .turn ⟨.numbered 1, 1, .session⟩, .turn ⟨.numbered 1, 1, .session⟩,
      .insert .body ⟨"cl-2-1-y", "<g/>"⟩, .work 0 true]

theorem instances_isolated_trespassed :
    trespassedRoom.actor? (.turn ⟨.numbered 1, 1, .session⟩) = some 0 ∧
      trespassedRoom.Apart ((InstanceId.numbered 2).renderId 1).owns 0
        (trespassedRoom.take trespassingEngine (.turn ⟨.numbered 1, 1, .session⟩)) := by
  have hactor : trespassedRoom.actor? (.turn ⟨.numbered 1, 1, .session⟩) = some 0 := by
    decide +kernel
  have hother : trespassedRoom.instanceIds[1]? = some (.numbered 2) := by
    decide +kernel
  refine ⟨hactor, instances_isolated.2 trespassingEngine {} [(1, false), (2, false)] () _
    trespassedRoom (by decide) rfl _ 0 _ hactor fun id hid => ?_⟩
  exact .inl ⟨1, .numbered 2, 1, by decide, hother, hid⟩

/-- A turn of the first scheduler takes away a node of a session of the second, which stood in the
host of a call of the first. -/
theorem node_lost_with_host :
    ((InstanceId.numbered 2).renderId 1).owns "cl-2-1-x" = true ∧
      trespassedRoom.actor? (.turn ⟨.numbered 1, 1, .session⟩) = some 0 ∧
      trespassedRoom.page.surface.nodes.map (·.id) = ["cl-2-1-y", "cl-2-1-x"] ∧
      (trespassedRoom.take trespassingEngine
        (.turn ⟨.numbered 1, 1, .session⟩)).page.surface.nodes.map (·.id) =
          ["cl-1-1", "cl-2-1-y"] := by
  decide +kernel

end DiagramView
