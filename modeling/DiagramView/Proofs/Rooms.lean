import DiagramView.Proofs.Course
import DiagramView.Proofs.Tending

/-!
# Rooms and their hosts

What happens in a room, in any order: the owner of a desk gives orders or goes away, a task has a
turn, an engine inserts a node or works on, and the rest of the process goes its way. Engines may
give orders to their own desk in the course of a call.

A room is housed when every desk is, with the hosts of the other desks as the foreign ones
(`Room.Housed`). A visit to one desk keeps that: the desk itself by what is known of turns and
orders, any other because the visit detaches no host of its calls and attaches only new ones. So the
hosts that are attached are at all times those of the calls under way, each call has a host that was
never attached before, and nothing is left of a host when its call is over.
-/

namespace DiagramView

variable {σ ο : Type}

/-! ## What happens in a room -/

namespace Room

/-- Something that happens in a room. -/
inductive Step (σ : Type) where
  /-- The owner of a desk gives an order. -/
  | order (index : Nat) (order : Order)
  /-- The owner of a desk goes away. -/
  | close (index : Nat)
  /-- A task has its turn, whether or not it was woken. -/
  | turn (task : Task)
  /-- An engine inserts a node between turns. -/
  | insert (parent : Parent) (node : SurfaceNode)
  /-- The engine of a desk comes to any other state. -/
  | work (index : Nat) (engine : σ)
  /-- What is logged, who is in line and which settings are in force changes in any way. -/
  | elsewhere (log : List Event) (agenda : Agenda) (config : SharedConfig)

/-- What a step does. -/
def take (e : Engine σ Order) (room : Room σ ο) : Step σ → Room σ ο
  | .order index order => room.visit index order.obey
  | .close index => room.visit index Scene.close
  | .turn task => room.resume e Order.obey task
  | .insert parent node =>
    { room with page := { room.page with surface := room.page.surface.insert parent node } }
  | .work index engine => room.visit index fun s => { s with engine }
  | .elsewhere log agenda config => { room with page := { room.page with log, agenda, config } }

/-- The room after a course of steps. -/
def run (e : Engine σ Order) (steps : List (Step σ)) (room : Room σ ο) : Room σ ο :=
  steps.foldl (fun room step => room.take e step) room

/-- Schedulers that have done nothing yet, on an empty page. -/
def fresh (config : SharedConfig) (seats : List (InstanceId × σ)) (owner : ο) : Room σ ο where
  page := { config }
  desks := seats.map fun seat => ⟨{ engine := seat.2 }, { instanceId := seat.1 }, owner⟩

variable {room room' room'' : Room σ ο} {e : Engine σ Order}

theorem run_append (e : Engine σ Order) (before after : List (Step σ)) (room : Room σ ο) :
    room.run e (before ++ after) = (room.run e before).run e after :=
  List.foldl_append

/-- The rounds in which tasks take turns are courses of steps. -/
theorem exists_runRounds_eq_run (e : Engine σ Order) (fuel turns : Nat) (room : Room σ ο) :
    ∃ steps : List (Step σ), runRounds e Order.obey fuel turns room = room.run e steps := by
  induction fuel generalizing turns room with
  | zero => exact ⟨[], rfl⟩
  | succ fuel ih =>
    unfold runRounds
    split
    · rename_i left task rest _
      obtain ⟨steps, hsteps⟩ :=
        ih left ((room.withAgenda { room.page.agenda with ready := rest }).resume e Order.obey task)
      exact ⟨.elsewhere room.page.log { room.page.agenda with ready := rest } room.page.config ::
        .turn task :: steps, hsteps⟩
    · split
      · exact ⟨[], rfl⟩
      · obtain ⟨steps, hsteps⟩ := ih roundLength (room.withAgenda room.page.agenda.wakeAside)
        exact ⟨.elsewhere room.page.log room.page.agenda.wakeAside room.page.config :: steps,
          hsteps⟩

/-! ## Visits -/

variable {index other : Nat} {desk desk' : Desk σ ο} {f : Scene σ ο → Scene σ ο} {host : HostId}

theorem visit_of_none (hdesk : room.desks[index]? = none) (f : Scene σ ο → Scene σ ο) :
    room.visit index f = room := by
  simp [visit, scene?, hdesk]

theorem visit_of_some (hdesk : room.desks[index]? = some desk) (f : Scene σ ο → Scene σ ο) :
    room.visit index f = room.put index (f (desk.onPage room.page)) := by
  simp [visit, scene?, hdesk]

theorem put_desks_self (hdesk : room.desks[index]? = some desk) (s : Scene σ ο) :
    (room.put index s).desks[index]? = some (.ofScene s) := by
  obtain ⟨hlt, -⟩ := List.getElem?_eq_some_iff.mp hdesk
  exact List.getElem?_set_self hlt

theorem put_desks_of_ne (hne : other ≠ index) (s : Scene σ ο) :
    (room.put index s).desks[other]? = room.desks[other]? :=
  List.getElem?_set_ne (Ne.symm hne)

/-! ## Housed rooms -/

/-- The hosts of the calls under way at the other desks. -/
def Foreign (room : Room σ ο) (index : Nat) (host : HostId) : Prop :=
  ∃ (other : Nat) (desk : Desk σ ο), other ≠ index ∧ room.desks[other]? = some desk ∧
    host ∈ desk.renderer.pending

/-- Every desk is housed among the others, and no host belongs to calls of two desks. -/
structure Housed (room : Room σ ο) : Prop where
  desks : ∀ (index : Nat) (desk : Desk σ ο), room.desks[index]? = some desk →
    (desk.onPage room.page).Housed (room.Foreign index) none none
  apart : ∀ (index other : Nat) (desk desk' : Desk σ ο), index ≠ other →
    room.desks[index]? = some desk → room.desks[other]? = some desk' →
      ∀ call ∈ desk.renderer.calls, ∀ host, call.host? = some host →
        ∀ call' ∈ desk'.renderer.calls, call'.host? ≠ some host
  lodged : ∀ host, host ∈ room.page.surface.hostIds ↔
    ∃ desk ∈ room.desks, host ∈ desk.renderer.pending
  nodup : room.page.surface.hostIds.Nodup

/-- Which instances work in a room. -/
def instanceIds (room : Room σ ο) : List InstanceId :=
  room.desks.map (·.schedule.instanceId)

/-- The instances stay the same, and the record of each desk grows. -/
structure Grows (room room' : Room σ ο) : Prop where
  instanceIds : room'.instanceIds = room.instanceIds
  records : ∀ (index : Nat) (desk : Desk σ ο), room.desks[index]? = some desk →
    ∃ desk' : Desk σ ο, room'.desks[index]? = some desk' ∧
      (desk.onPage room.page).toBench.Grows (desk'.onPage room'.page).toBench

theorem Grows.refl (room : Room σ ο) : room.Grows room :=
  ⟨rfl, fun _ desk hdesk => ⟨desk, hdesk, .refl _⟩⟩

theorem Grows.trans (h : room.Grows room') (h' : room'.Grows room'') : room.Grows room'' := by
  refine ⟨h'.instanceIds.trans h.instanceIds, fun index desk hdesk => ?_⟩
  obtain ⟨desk', hdesk', hgrows⟩ := h.records index desk hdesk
  obtain ⟨desk'', hdesk'', hgrows'⟩ := h'.records index desk' hdesk'
  exact ⟨desk'', hdesk'', hgrows.trans hgrows'⟩

/-- Whoever works at a desk stays there. -/
theorem instanceIds_put (hdesk : room.desks[index]? = some desk) {s : Scene σ ο}
    (hinstance : s.instanceId = desk.schedule.instanceId) :
    (room.put index s).instanceIds = room.instanceIds := by
  refine List.ext_getElem? fun i => ?_
  simp only [instanceIds, List.getElem?_map]
  by_cases hvisited : i = index
  · subst hvisited
    rw [put_desks_self hdesk, hdesk]
    exact congrArg some hinstance
  · rw [put_desks_of_ne hvisited]

end Room

/-- What a scheduler does between two points at which no call of it is in hand. -/
def Scene.Orderly (f : Scene σ ο → Scene σ ο) : Prop :=
  ∀ foreign s, s.Housed foreign none none → (f s).Housed foreign none none ∧ s.Tends (f s)

/-- A desk stays housed whatever happens at others, as long as its hosts stay. -/
theorem Scene.Housed.relodge {s s' : Scene σ ο} {foreign foreign' : HostId → Prop}
    (h : s.Housed foreign none none) (hbooks : s'.toSchedule = s.toSchedule)
    (hrenderer : s'.toRenderer = s.toRenderer)
    (hattached : s.surface.attached ≤ s'.surface.attached)
    (hlodged : ∀ host, host ∈ s'.surface.hostIds ↔ foreign' host ∨ host ∈ s.toRenderer.pending)
    (hnodup : s'.surface.hostIds.Nodup)
    (hknown : ∀ host ∈ s'.surface.hostIds, host.number ≤ s'.surface.attached)
    (hapart : ∀ host, foreign' host → ∀ call ∈ s.calls, call.host? ≠ some host) :
    s'.Housed foreign' none none := by
  have hid : ∀ n, s'.renderId n = s.renderId n := by
    intro n
    rw [renderId, renderId, hbooks]
  refine ⟨?_, ?_, ?_, ?_, ?_, ?_, ?_, ?_, ⟨?_, ?_⟩, ?_, hnodup, hknown, ?_⟩
  · rw [hbooks]; exact h.ascending
  · rw [hbooks]; exact h.numbered
  · rw [hbooks]; exact h.left
  · rw [hbooks]; exact h.heeded
  · rw [hbooks, hrenderer]
    intro x hx host hholds
    rw [hid]
    exact h.begun x hx host hholds
  · intro host hinHand
    cases hinHand
  · rw [hbooks, hrenderer]; exact h.pending
  · rw [hrenderer]; exact h.answered
  · rw [hrenderer]
    exact h.hosts.ascending
  · change ∀ call ∈ s'.toRenderer.calls, _
    rw [hrenderer]
    intro call hcall host hhost
    exact Nat.le_trans (h.hosts.attached call hcall host hhost) hattached
  · intro host
    rw [hlodged, hrenderer]
    simp
  · rw [hrenderer]; exact hapart

namespace Room

variable {room room' room'' : Room σ ο} {e : Engine σ Order} {index other : Nat}
  {desk desk' : Desk σ ο} {f : Scene σ ο → Scene σ ο} {host : HostId} {s' : Scene σ ο}

theorem Housed.known (h : room.Housed) :
    ∀ host ∈ room.page.surface.hostIds, host.number ≤ room.page.surface.attached := by
  intro host hhost
  obtain ⟨desk, hmem, -⟩ := (h.lodged host).mp hhost
  obtain ⟨index, hdesk⟩ := List.mem_iff_getElem?.mp hmem
  exact (h.desks index desk hdesk).known host hhost

/-- A host under way at one desk is that of no call of another. -/
theorem Housed.not_called (h : room.Housed) (hdesk : room.desks[index]? = some desk)
    (hforeign : room.Foreign index host) :
    ∀ call ∈ desk.renderer.calls, call.host? ≠ some host := by
  obtain ⟨other, desk', hne, hdesk', hpending⟩ := hforeign
  obtain ⟨⟨call, hcall, hhost⟩, -⟩ := Renderer.mem_pending.mp hpending
  exact h.apart other index desk' desk hne hdesk' hdesk call hcall host hhost

theorem exists_pending_iff (hdesk : room.desks[index]? = some desk) :
    (∃ desk ∈ room.desks, host ∈ desk.renderer.pending) ↔
      room.Foreign index host ∨ host ∈ desk.renderer.pending := by
  constructor
  · rintro ⟨desk', hmem, hpending⟩
    obtain ⟨other, hdesk'⟩ := List.mem_iff_getElem?.mp hmem
    by_cases heq : other = index
    · subst heq
      rw [hdesk] at hdesk'
      cases hdesk'
      exact .inr hpending
    · exact .inl ⟨other, desk', heq, hdesk', hpending⟩
  · rintro (⟨other, desk', -, hdesk', hpending⟩ | hpending)
    · exact ⟨desk', List.mem_of_getElem? hdesk', hpending⟩
    · exact ⟨desk, List.mem_of_getElem? hdesk, hpending⟩

/-- Calls of the desk that was visited have hosts of their own: old ones had before, and new ones
have hosts that were attached since. -/
theorem Housed.apart_of_tends (h : room.Housed) (hdesk : room.desks[index]? = some desk)
    (htends : (desk.onPage room.page).Tends s') (hne : other ≠ index)
    (hdesk' : room.desks[other]? = some desk') :
    ∀ call ∈ s'.calls, ∀ host, call.host? = some host →
      ∀ call' ∈ desk'.renderer.calls, call'.host? ≠ some host := by
  intro call hcall host hhost call' hcall' hhost'
  obtain ⟨added, hcalls, -, hnew⟩ := htends.grows.calls
  change s'.calls = desk.renderer.calls ++ added at hcalls
  rw [hcalls] at hcall
  rcases List.mem_append.mp hcall with hold | hadded
  · exact h.apart index other desk desk' (Ne.symm hne) hdesk hdesk' call hold host hhost call'
      hcall' hhost'
  · have hlt : room.page.surface.attached < host.number := (hnew call hadded host hhost).1
    have hle : host.number ≤ room.page.surface.attached :=
      (h.desks other desk' hdesk').hosts.attached call' hcall' host hhost'
    omega

theorem Housed.put (h : room.Housed) (hdesk : room.desks[index]? = some desk)
    (hhoused : s'.Housed (room.Foreign index) none none)
    (htends : (desk.onPage room.page).Tends s') : (room.put index s').Housed := by
  have hself := put_desks_self hdesk s'
  have hother : ∀ other, other ≠ index →
      (room.put index s').desks[other]? = room.desks[other]? := fun _ hne => put_desks_of_ne hne s'
  have hforeign : ∀ host, (room.put index s').Foreign index host ↔ room.Foreign index host := by
    intro host
    refine exists_congr fun other => exists_congr fun desk' => and_congr_right fun hne => ?_
    rw [hother other hne]
  have hlodged : ∀ host, host ∈ s'.surface.hostIds ↔
      ∃ desk ∈ (room.put index s').desks, host ∈ desk.renderer.pending := by
    intro host
    rw [exists_pending_iff hself, hforeign, hhoused.lodged]
    simp [Desk.ofScene]
  have hapart : ∀ (i j : Nat) (desk' desk'' : Desk σ ο), i ≠ j →
      (room.put index s').desks[i]? = some desk' → (room.put index s').desks[j]? = some desk'' →
        ∀ call ∈ desk'.renderer.calls, ∀ host, call.host? = some host →
          ∀ call' ∈ desk''.renderer.calls, call'.host? ≠ some host := by
    intro i j desk' desk'' hne hi hj
    by_cases hvisited : i = index
    · subst hvisited
      rw [hother j (Ne.symm hne)] at hj
      rw [hself] at hi
      cases hi
      exact h.apart_of_tends hdesk htends (Ne.symm hne) hj
    · rw [hother i hvisited] at hi
      by_cases hvisited' : j = index
      · subst hvisited'
        rw [hself] at hj
        cases hj
        intro call hcall host hhost call' hcall' hhost'
        exact h.apart_of_tends hdesk htends hne hi call' hcall' host hhost' call hcall hhost
      · rw [hother j hvisited'] at hj
        exact h.apart i j desk' desk'' hne hi hj
  refine ⟨?_, hapart, hlodged, hhoused.nodup⟩
  intro i desk' hi
  by_cases hvisited : i = index
  · subst hvisited
    rw [hself] at hi
    cases hi
    refine hhoused.relodge rfl rfl (Nat.le_refl _) ?_ hhoused.nodup hhoused.known ?_
    · intro host
      rw [hforeign]
      exact (hhoused.lodged host).trans (by simp)
    · intro host hhost
      exact hhoused.apart host ((hforeign host).mp hhost)
  · have hi' := hi
    rw [hother i hvisited] at hi'
    refine (h.desks i desk' hi').relodge rfl rfl htends.grows.attached ?_ hhoused.nodup
      hhoused.known ?_
    · intro host
      exact (hlodged host).trans (exists_pending_iff hi)
    · rintro host ⟨j, desk'', hne, hj, hpending⟩
      obtain ⟨⟨call, hcall, hhost⟩, -⟩ := Renderer.mem_pending.mp hpending
      exact hapart j i desk'' desk' hne hj hi call hcall host hhost

theorem Housed.visit (h : room.Housed) (index : Nat) (hf : Scene.Orderly f) :
    (room.visit index f).Housed ∧ room.Grows (room.visit index f) := by
  cases hdesk : room.desks[index]? with
  | none =>
    rw [visit_of_none hdesk]
    exact ⟨h, .refl room⟩
  | some desk =>
    rw [visit_of_some hdesk]
    obtain ⟨hhoused, htends⟩ := hf _ _ (h.desks index desk hdesk)
    refine ⟨h.put hdesk hhoused htends, instanceIds_put hdesk htends.instanceId,
      fun other desk' hdesk' => ?_⟩
    by_cases hvisited : other = index
    · subst hvisited
      rw [hdesk] at hdesk'
      cases hdesk'
      exact ⟨_, put_desks_self hdesk _, htends.grows⟩
    · refine ⟨desk', (put_desks_of_ne hvisited _).trans hdesk', ?_⟩
      exact ⟨List.Subset.refl _, htends.grows.attached, [], (List.append_nil _).symm, .nil,
        fun call hcall => by cases hcall⟩

end Room

namespace Scene

theorem orderly_obey (order : Order) : Orderly (σ := σ) (ο := ο) order.obey :=
  fun _ s h => ⟨h.obey order, .obey order s⟩

theorem orderly_close : Orderly (σ := σ) (ο := ο) close :=
  fun _ _ h => h.close

theorem orderly_resume (e : Engine σ Order) (task : Task) :
    Orderly (ο := ο) (resume e Order.obey task) :=
  fun _ _ h => h.resume e task

theorem orderly_work (engine : σ) : Orderly (ο := ο) fun s => { s with engine } := by
  intro foreign s h
  refine ⟨h.frame ?_ ?_ ?_ ?_ ?_ ?_, .of_eq rfl (.of_eq rfl rfl rfl) rfl⟩
  · rfl
  · exact fun _ _ => Iff.rfl
  · exact fun _ _ => Iff.rfl
  · exact ⟨h.hosts.ascending, h.hosts.attached⟩
  · rfl
  · rfl

/-- A scheduler that has done nothing has no host. -/
theorem housed_fresh {foreign : HostId → Prop} (hforeign : ∀ host, ¬foreign host)
    (config : SharedConfig) (engine : σ) (instanceId : InstanceId) (owner : ο) :
    (Scene.fresh config engine instanceId owner).Housed foreign none none where
  ascending := .nil
  numbered := fun _ hx => by cases hx
  left := fun _ hx => by cases hx
  heeded := fun _ hx => by cases hx
  begun := fun _ hx => by cases hx
  free := fun _ hinHand => by cases hinHand
  pending := by
    intro host
    constructor
    · intro hpending
      cases hpending
    · rintro ⟨-, hinHand | ⟨x, hx, -⟩⟩
      · cases hinHand
      · cases hx
  answered := fun _ _ hanswer => by cases hanswer
  hosts := ⟨.nil, fun _ hcall => by cases hcall⟩
  lodged := by
    intro host
    constructor
    · intro hhost
      cases hhost
    · rintro (hhost | hclosing | hpending)
      · exact absurd hhost (hforeign host)
      · cases hclosing
      · cases hpending
  nodup := .nil
  known := fun _ hhost => by cases hhost
  apart := fun host hhost => absurd hhost (hforeign host)

end Scene

namespace Room

variable {room : Room σ ο} {desk : Desk σ ο} {index : Nat} {host : HostId}

/-- What happens on the page without touching a host. -/
theorem Housed.withPage (h : room.Housed) {page : Page}
    (hhosts : page.surface.hostIds = room.page.surface.hostIds)
    (hattached : page.surface.attached = room.page.surface.attached) :
    { room with page }.Housed ∧ room.Grows { room with page } := by
  refine ⟨⟨?_, h.apart, ?_, ?_⟩, rfl, fun _ desk hdesk => ⟨desk, hdesk, .of_eq rfl rfl hattached⟩⟩
  · intro index desk hdesk
    have hdesk' := h.desks index desk hdesk
    refine hdesk'.frame rfl (fun _ _ => Iff.rfl) (fun _ _ => Iff.rfl)
      ⟨hdesk'.hosts.ascending, ?_⟩ hhosts hattached
    intro call hcall host hhost
    exact Nat.le_trans (hdesk'.hosts.attached call hcall host hhost) (Nat.le_of_eq hattached.symm)
  · intro host
    change host ∈ page.surface.hostIds ↔ _
    rw [hhosts]
    exact h.lodged host
  · change page.surface.hostIds.Nodup
    rw [hhosts]
    exact h.nodup

/-- A step keeps a room housed. -/
theorem Housed.take (h : room.Housed) (e : Engine σ Order) (step : Step σ) :
    (room.take e step).Housed ∧ room.Grows (room.take e step) := by
  cases step with
  | order index order => exact h.visit index (Scene.orderly_obey order)
  | close index => exact h.visit index Scene.orderly_close
  | turn task =>
    change (room.resume e Order.obey task).Housed ∧ room.Grows (room.resume e Order.obey task)
    unfold Room.resume
    split
    · exact ⟨h, .refl room⟩
    · exact h.visit _ (Scene.orderly_resume e task)
  | insert parent node =>
    refine h.withPage (Surface.hostIds_insert _ parent node) ?_
    cases parent <;> rfl
  | work index engine => exact h.visit index (Scene.orderly_work engine)
  | elsewhere log agenda config => exact h.withPage rfl rfl

theorem Housed.run (h : room.Housed) (e : Engine σ Order) (steps : List (Step σ)) :
    (room.run e steps).Housed ∧ room.Grows (room.run e steps) := by
  induction steps generalizing room with
  | nil => exact ⟨h, .refl room⟩
  | cons step steps ih =>
    obtain ⟨hhoused, hgrows⟩ := h.take e step
    obtain ⟨hhoused', hgrows'⟩ := ih hhoused
    exact ⟨hhoused', hgrows.trans hgrows'⟩

theorem housed_fresh (config : SharedConfig) (seats : List (InstanceId × σ)) (owner : ο) :
    (fresh config seats owner).Housed := by
  have hblank : ∀ desk ∈ (fresh config seats owner).desks, ∃ engine instanceId,
      desk = ⟨{ engine }, { instanceId }, owner⟩ := by
    intro desk hdesk
    obtain ⟨seat, -, rfl⟩ := List.mem_map.mp hdesk
    exact ⟨_, _, rfl⟩
  have hpending : ∀ desk ∈ (fresh config seats owner).desks, desk.renderer.pending = [] := by
    intro desk hdesk
    obtain ⟨engine, instanceId, rfl⟩ := hblank desk hdesk
    rfl
  refine ⟨?_, ?_, ?_, .nil⟩
  · intro index desk hdesk
    have hforeign : ∀ host, ¬(fresh config seats owner).Foreign index host := by
      rintro host ⟨other, desk', -, hdesk', hhost⟩
      rw [hpending desk' (List.mem_of_getElem? hdesk')] at hhost
      cases hhost
    obtain ⟨engine, instanceId, rfl⟩ := hblank desk (List.mem_of_getElem? hdesk)
    exact Scene.housed_fresh hforeign config engine instanceId owner
  · intro index other desk desk' _ hdesk _ call hcall
    obtain ⟨engine, instanceId, rfl⟩ := hblank desk (List.mem_of_getElem? hdesk)
    cases hcall
  · intro host
    constructor
    · intro hhost
      cases hhost
    · rintro ⟨desk, hdesk, hhost⟩
      rw [hpending desk hdesk] at hhost
      cases hhost

/-! ## What becomes of hosts -/

/-- The hosts of all calls on record. -/
def callHosts (room : Room σ ο) : List HostId :=
  room.desks.flatMap fun desk => desk.renderer.calls.filterMap (·.host?)

/-- No two calls have the same host. -/
theorem Housed.nodup_callHosts (h : room.Housed) : room.callHosts.Nodup := by
  refine List.pairwise_flatMap.mpr ⟨?_, ?_⟩
  · intro desk hmem
    obtain ⟨index, hdesk⟩ := List.mem_iff_getElem?.mp hmem
    refine List.pairwise_filterMap.mpr ((h.desks index desk hdesk).hosts.ascending.imp ?_)
    intro call call' hlt host hhost host' hhost' heq
    have hnumber := hlt host host' hhost hhost'
    rw [heq] at hnumber
    omega
  · refine List.pairwise_iff_getElem.mpr fun i j hi hj hij host hhost host' hhost' heq => ?_
    obtain ⟨call, hcall, hcalled⟩ := List.mem_filterMap.mp hhost
    obtain ⟨call', hcall', hcalled'⟩ := List.mem_filterMap.mp hhost'
    refine h.apart i j _ _ (Nat.ne_of_lt hij) (List.getElem?_eq_getElem hi)
      (List.getElem?_eq_getElem hj) call hcall host hcalled call' hcall' ?_
    rw [heq]
    exact hcalled'

/-- A host that is under way is awaited by a session, which is live unless it was given up, or by
the sweep after a session that ended. -/
theorem Housed.pending_iff (h : room.Housed) (hdesk : desk ∈ room.desks) (host : HostId) :
    host ∈ desk.renderer.pending ↔ ∃ x ∈ desk.schedule.sessions,
      x.progress = .waiting host ∧ x.cancelled = false ∧ desk.schedule.live = some x.seq ∨
      x.progress = .waiting host ∧ x.cancelled = true ∨
      x.abandoned = some host ∧ x.end? ≠ none := by
  obtain ⟨index, hindex⟩ := List.mem_iff_getElem?.mp hdesk
  have hhoused := h.desks index desk hindex
  have hpending : host ∈ desk.renderer.pending ↔ ∃ x ∈ desk.schedule.sessions, x.Holds host :=
    (hhoused.pending host).trans (by simp; rfl)
  rw [hpending]
  refine exists_congr fun x => and_congr_right fun hx => ?_
  constructor
  · rintro (hwaiting | hleft)
    · cases hcancelled : x.cancelled with
      | true => exact .inr (.inl ⟨hwaiting, rfl⟩)
      | false =>
        rcases hhoused.heeded x hx (.inr ⟨host, hwaiting⟩) with hgiven | hlive
        · rw [hcancelled] at hgiven
          cases hgiven
        · exact .inl ⟨hwaiting, rfl, hlive⟩
    · exact .inr (.inr ⟨hleft, hhoused.left x hx (by simp [hleft])⟩)
  · rintro (⟨hwaiting, -⟩ | ⟨hwaiting, -⟩ | ⟨hleft, -⟩)
    · exact .inl hwaiting
    · exact .inl hwaiting
    · exact .inr hleft

/-- A call that is over has no host. -/
theorem Housed.not_mem_hostIds (h : room.Housed) (hdesk : room.desks[index]? = some desk)
    {answer : Except String String} (hanswer : .result host answer ∈ desk.renderer.answers) :
    host ∉ room.page.surface.hostIds := by
  intro hhost
  have hhoused := h.desks index desk hdesk
  rcases (exists_pending_iff hdesk).mp ((h.lodged host).mp hhost) with hforeign | hpending
  · obtain ⟨call, hcall, hcalled⟩ := hhoused.answered host answer hanswer
    exact h.not_called hdesk hforeign call hcall hcalled
  · exact (Renderer.mem_pending.mp hpending).2 answer hanswer

/-- What becomes of hosts in a course of steps. -/
structure Lodging (e : Engine σ Order) (start : Room σ ο) (steps : List (Step σ)) : Prop where
  /-- The hosts that are attached are those of the calls under way. -/
  attached_iff : ∀ host, host ∈ (start.run e steps).page.surface.hostIds ↔
    ∃ desk ∈ (start.run e steps).desks, host ∈ desk.renderer.pending
  once : (start.run e steps).page.surface.hostIds.Nodup
  /-- A call under way is awaited by the live session, by one that was given up and has not had a
  turn since, or by the sweep after a session that ended. -/
  held_iff : ∀ desk ∈ (start.run e steps).desks, ∀ host, host ∈ desk.renderer.pending ↔
    ∃ x ∈ desk.schedule.sessions,
      x.progress = .waiting host ∧ x.cancelled = false ∧ desk.schedule.live = some x.seq ∨
      x.progress = .waiting host ∧ x.cancelled = true ∨
      x.abandoned = some host ∧ x.end? ≠ none
  /-- Nobody else holds its host. -/
  sole : ∀ desk ∈ (start.run e steps).desks, ∀ x ∈ desk.schedule.sessions,
    ∀ y ∈ desk.schedule.sessions, ∀ host, x.Holds host → y.Holds host → x = y
  distinct : (start.run e steps).callHosts.Nodup
  /-- Calls begun later have hosts that were not attached at any time before. -/
  unused : ∀ before after, steps = before ++ after → ∀ (index : Nat) (desk : Desk σ ο),
    (start.run e before).desks[index]? = some desk →
      ∃ (desk' : Desk σ ο) (added : List EngineCall),
        (start.run e steps).desks[index]? = some desk' ∧
        desk'.renderer.calls = desk.renderer.calls ++ added ∧
        ∀ call ∈ added, ∀ host, call.host? = some host →
          host ∉ (start.run e before).page.surface.hostIds
  /-- When a call is over, with success or failure, its host is gone for good, and a node that is
  inserted into it never appears. -/
  gone : ∀ before after, steps = before ++ after → ∀ desk ∈ (start.run e before).desks,
    ∀ host answer, .result host answer ∈ desk.renderer.answers →
      host ∉ (start.run e steps).page.surface.hostIds ∧
        ∀ node, (start.run e steps).page.surface.insert (.host host) node =
          (start.run e steps).page.surface
  /-- When every call is over no host is attached. -/
  settled : (∀ desk ∈ (start.run e steps).desks, ∀ call ∈ desk.renderer.calls, ∀ host,
      call.host? = some host → ∃ answer, .result host answer ∈ desk.renderer.answers) →
    (start.run e steps).page.surface.hosts = []

end Room

/-- Hosts are neither leaked nor used again: in every course of a room in which any number of
schedulers share a page, with engines that may give orders in the course of any call. -/
theorem hosts_neither_leaked_nor_reused (e : Engine σ Order) (config : SharedConfig)
    (seats : List (InstanceId × σ)) (owner : ο) (steps : List (Room.Step σ)) :
    (Room.fresh config seats owner).Lodging e steps := by
  have hfresh := Room.housed_fresh config seats owner
  have hhoused := (hfresh.run e steps).1
  have hbefore : ∀ before after, steps = before ++ after →
      ((Room.fresh config seats owner).run e before).Housed ∧
        ((Room.fresh config seats owner).run e before).Grows
          ((Room.fresh config seats owner).run e steps) := by
    rintro before after rfl
    have hhoused := (hfresh.run e before).1
    rw [Room.run_append]
    exact ⟨hhoused, (hhoused.run e after).2⟩
  refine ⟨hhoused.lodged, hhoused.nodup, fun _ => hhoused.pending_iff, ?_, hhoused.nodup_callHosts,
    ?_, ?_, ?_⟩
  · intro desk hdesk x hx y hy host hxhost hyhost
    obtain ⟨index, hindex⟩ := List.mem_iff_getElem?.mp hdesk
    exact (hhoused.desks index desk hindex).holder_eq hx hy hxhost hyhost
  · intro before after hsteps index desk hdesk
    obtain ⟨hthen, hgrows⟩ := hbefore before after hsteps
    obtain ⟨desk', hdesk', hrecord⟩ := hgrows.records index desk hdesk
    obtain ⟨added, hcalls, -, hnew⟩ := hrecord.calls
    refine ⟨desk', added, hdesk', hcalls, fun call hcall host hhost hattached => ?_⟩
    have hlt := (hnew call hcall host hhost).1
    exact Nat.not_le_of_lt hlt (hthen.known host hattached)
  · intro before after hsteps desk hdesk host answer hanswer
    obtain ⟨index, hindex⟩ := List.mem_iff_getElem?.mp hdesk
    obtain ⟨desk', hdesk', hrecord⟩ := (hbefore before after hsteps).2.records index desk hindex
    have hgone := hhoused.not_mem_hostIds hdesk' (hrecord.answers hanswer)
    exact ⟨hgone, Surface.insert_of_not_mem hgone⟩
  · intro hover
    have hnone : ((Room.fresh config seats owner).run e steps).page.surface.hostIds = [] := by
      refine List.eq_nil_iff_forall_not_mem.mpr fun host hhost => ?_
      obtain ⟨desk, hdesk, hpending⟩ := (hhoused.lodged host).mp hhost
      obtain ⟨⟨call, hcall, hcalled⟩, hunanswered⟩ := Renderer.mem_pending.mp hpending
      obtain ⟨answer, hanswer⟩ := hover desk hdesk call hcall host hcalled
      exact hunanswered answer hanswer
    exact List.map_eq_nil_iff.mp hnone

end DiagramView
