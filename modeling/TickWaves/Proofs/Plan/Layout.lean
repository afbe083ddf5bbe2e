import TickWaves.Plan.Basic
import TickWaves.Proofs.Graph.Layering
import TickWaves.Proofs.Order.Lookup

/-!
# How a plan is laid out

A plan that could be made holds every position of its list in one wave, and every
constraint between two systems leads from one wave to a later one.  The facts up to
`index_lt_of_leads` speak of positions and hold whatever identifiers the systems have.
With distinct identifiers the plan is found again by identifier, which gives the whole
layout (`isLayoutOf_of_build`).
-/

namespace TickWaves

universe u

variable {β : Type u}

def Graph.ofSystems (systems : List (Descriptor β)) (tags : TagOrder) : Graph :=
  Graph.assembled systems (SystemPair.conflicting systems) tags

theorem Graph.isScoped_ofSystems (systems : List (Descriptor β)) (tags : TagOrder) :
    (Graph.ofSystems systems tags).IsScoped :=
  Graph.isScoped_assembled

@[simp]
theorem Graph.size_ofSystems (systems : List (Descriptor β)) (tags : TagOrder) :
    (Graph.ofSystems systems tags).size = systems.length :=
  Graph.size_assembled

theorem Graph.idAt_ofSystems (systems : List (Descriptor β)) (tags : TagOrder)
    (node : Fin systems.length) :
    (Graph.ofSystems systems tags).idAt node = (systems.get node).id := by
  simp [Graph.idAt, Graph.ofSystems, Graph.assembled]

theorem eq_index_of_mem_of_nodup_flatten {layers : List (List Nat)}
    (hnodup : layers.flatten.Nodup) {first second node : Nat} {left right : List Nat}
    (hleft : layers[first]? = some left) (hright : layers[second]? = some right)
    (hmem : node ∈ left) (hmem' : node ∈ right) : first = second := by
  have hpairwise := (List.nodup_flatten.mp hnodup).2
  rw [List.pairwise_iff_getElem] at hpairwise
  obtain ⟨hfirst, rfl⟩ := List.getElem?_eq_some_iff.mp hleft
  obtain ⟨hsecond, rfl⟩ := List.getElem?_eq_some_iff.mp hright
  rcases Nat.lt_trichotomy first second with hlt | heq | hgt
  · exact absurd hmem' (hpairwise first second hfirst hsecond hlt hmem)
  · exact heq
  · exact absurd hmem (hpairwise second first hsecond hfirst hgt hmem')

namespace Plan

theorem layerOf_eq {layers : List (List Nat)} (hnodup : layers.flatten.Nodup)
    {index node : Nat} {layer : List Nat} (hlayer : layers[index]? = some layer)
    (hnode : node ∈ layer) : layerOf layers node = index := by
  obtain ⟨found, hfound⟩ : ∃ found, layers.findIdx? (fun layer => layer.contains node)
      = some found := by
    refine Option.isSome_iff_exists.mp (List.findIdx?_isSome.trans ?_)
    exact List.any_eq_true.mpr
      ⟨layer, List.mem_of_getElem? hlayer, List.contains_iff_mem.mpr hnode⟩
  obtain ⟨hbound, hcontains, -⟩ := List.findIdx?_eq_some_iff_getElem.mp hfound
  rw [layerOf, hfound, Option.getD_some]
  exact eq_index_of_mem_of_nodup_flatten hnodup (List.getElem?_eq_getElem hbound) hlayer
    (List.contains_iff_mem.mp hcontains) hnode

/-- A position is in the wave with an index. -/
def IsIn (plan : Plan β) (node index : Nat) : Prop :=
  ∃ wave, plan.waves[index]? = some wave ∧ node ∈ wave.nodes

section Built

variable {systems : List (Descriptor β)} {tags : TagOrder} {generation : Nat}
variable {plan : Plan β}

theorem build_eq_ok (hbuild : build systems tags generation = .ok plan) :
    (Graph.ofSystems systems tags).IsAcyclic ∧
      plan = ofGraph systems (Graph.ofSystems systems tags) generation := by
  rw [build] at hbuild
  split at hbuild
  · cases hbuild
  rename_i graph hgraph
  obtain ⟨rfl, hacyclic⟩ := Graph.build_eq_ok hgraph
  exact ⟨hacyclic, (Except.ok.inj hbuild).symm⟩

variable (hbuild : build systems tags generation = .ok plan)
include hbuild

theorem generation_of_build : plan.generation = generation := by
  rw [(build_eq_ok hbuild).2]
  rfl

theorem waves_of_build :
    plan.waves = (Graph.ofSystems systems tags).layers.map fun nodes =>
      ⟨nodes.map (Graph.ofSystems systems tags).idAt, nodes⟩ := by
  rw [(build_eq_ok hbuild).2]
  rfl

theorem map_nodes_waves_of_build :
    plan.waves.map Wave.nodes = (Graph.ofSystems systems tags).layers := by
  rw [waves_of_build hbuild, List.map_map]
  exact List.map_id _

theorem length_systems_of_build : plan.systems.length = systems.length := by
  rw [(build_eq_ok hbuild).2]
  simp [ofGraph]

/-- The planned system at a position has what the descriptor there says. -/
theorem getElem?_systems_of_build (node : Nat) :
    plan.systems[node]? = systems[node]?.map fun descriptor =>
      { id := descriptor.id
        name := descriptor.name
        wave := layerOf (Graph.ofSystems systems tags).layers node
        onMainThread := descriptor.onMainThread
        predecessors := (Graph.ofSystems systems tags).predecessors node
        body? := some descriptor.body } := by
  rw [(build_eq_ok hbuild).2]
  simp only [ofGraph, List.getElem?_map, List.getElem?_zipIdx, Option.map_map]
  cases systems[node]? with
  | none => rfl
  | some descriptor => simp

theorem flatten_layers_perm_of_build :
    (Graph.ofSystems systems tags).layers.flatten.Perm (List.range systems.length) := by
  have hperm := (build_eq_ok hbuild).1.flatten_layers_perm
    (Graph.isScoped_ofSystems systems tags)
  rwa [Graph.size_ofSystems] at hperm

/-- The waves hold every position of the list once. -/
theorem flatMap_nodes_perm_of_build :
    (plan.waves.flatMap Wave.nodes).Perm (List.range systems.length) := by
  rw [List.flatMap_def, map_nodes_waves_of_build hbuild]
  exact flatten_layers_perm_of_build hbuild

theorem nodes_ne_nil_of_build {wave : Wave} (hwave : wave ∈ plan.waves) : wave.nodes ≠ [] := by
  rw [waves_of_build hbuild] at hwave
  obtain ⟨layer, hlayer, rfl⟩ := List.mem_map.mp hwave
  exact Graph.ne_nil_of_mem_layers (Graph.isScoped_ofSystems systems tags) hlayer

/-- Only a plan without systems has no waves. -/
theorem waves_eq_nil_iff_of_build : plan.waves = [] ↔ systems = [] := by
  have hperm := flatMap_nodes_perm_of_build hbuild
  constructor
  · intro hwaves
    rw [hwaves, List.flatMap_nil, List.nil_perm] at hperm
    exact List.length_eq_zero_iff.mp (List.range_eq_nil.mp hperm)
  · rintro rfl
    rw [List.length_nil, List.range_zero, List.perm_nil, List.flatMap_eq_nil_iff] at hperm
    by_contra hsome
    obtain ⟨wave, hwave⟩ := List.exists_mem_of_ne_nil _ hsome
    exact nodes_ne_nil_of_build hbuild hwave (hperm wave hwave)

theorem nodup_flatten_layers_of_build :
    (Graph.ofSystems systems tags).layers.flatten.Nodup :=
  (flatten_layers_perm_of_build hbuild).nodup_iff.mpr List.nodup_range

theorem isIn_iff_layer {node index : Nat} :
    plan.IsIn node index ↔
      ∃ layer, (Graph.ofSystems systems tags).layers[index]? = some layer ∧
        node ∈ layer := by
  rw [IsIn, waves_of_build hbuild]
  simp only [List.getElem?_map, Option.map_eq_some_iff]
  constructor
  · rintro ⟨wave, ⟨layer, hlayer, rfl⟩, hnode⟩
    exact ⟨layer, hlayer, hnode⟩
  · rintro ⟨layer, hlayer, hnode⟩
    exact ⟨_, ⟨layer, hlayer, rfl⟩, hnode⟩

theorem nodup_nodes_of_build {wave : Wave} (hwave : wave ∈ plan.waves) :
    wave.nodes.Nodup := by
  have hflat := (flatMap_nodes_perm_of_build hbuild).nodup_iff.mpr List.nodup_range
  exact (List.nodup_flatMap.mp hflat).1 wave hwave

theorem pairwise_lt_nodes_of_build {wave : Wave} (hwave : wave ∈ plan.waves) :
    wave.nodes.Pairwise (· < ·) := by
  rw [waves_of_build hbuild] at hwave
  obtain ⟨layer, hlayer, rfl⟩ := List.mem_map.mp hwave
  exact Graph.pairwise_lt_of_mem_layers (Graph.isScoped_ofSystems systems tags) hlayer

theorem exists_isIn {node : Nat} (hnode : node < systems.length) :
    ∃ index, plan.IsIn node index := by
  have hmem : node ∈ (Graph.ofSystems systems tags).layers.flatten :=
    (flatten_layers_perm_of_build hbuild).mem_iff.mpr (List.mem_range.mpr hnode)
  obtain ⟨layer, hlayer, hnode⟩ := List.mem_flatten.mp hmem
  obtain ⟨index, hindex⟩ := List.getElem?_of_mem hlayer
  exact ⟨index, (isIn_iff_layer hbuild).mpr ⟨layer, hindex, hnode⟩⟩

theorem IsIn.lt_length {node index : Nat} (hin : plan.IsIn node index) :
    node < systems.length := by
  obtain ⟨layer, hlayer, hnode⟩ := (isIn_iff_layer hbuild).mp hin
  have hmem := List.mem_flatten.mpr ⟨layer, List.mem_of_getElem? hlayer, hnode⟩
  exact List.mem_range.mp ((flatten_layers_perm_of_build hbuild).mem_iff.mp hmem)

theorem node_lt_length_of_build {wave : Wave} (hwave : wave ∈ plan.waves) {node : Nat}
    (hnode : node ∈ wave.nodes) : node < plan.systems.length := by
  obtain ⟨index, hindex⟩ := List.getElem?_of_mem hwave
  rw [length_systems_of_build hbuild]
  exact IsIn.lt_length hbuild ⟨wave, hindex, hnode⟩

theorem IsIn.eq_index {node first second : Nat} (hfirst : plan.IsIn node first)
    (hsecond : plan.IsIn node second) : first = second := by
  obtain ⟨left, hleft, hmem⟩ := (isIn_iff_layer hbuild).mp hfirst
  obtain ⟨right, hright, hmem'⟩ := (isIn_iff_layer hbuild).mp hsecond
  exact eq_index_of_mem_of_nodup_flatten (nodup_flatten_layers_of_build hbuild) hleft hright
    hmem hmem'

/-- A constraint leads from one wave to a later one. -/
theorem index_lt_of_leads {before after first second : Nat}
    (hleads : (Graph.ofSystems systems tags).Leads before after)
    (hbefore : plan.IsIn before first) (hafter : plan.IsIn after second) :
    first < second := by
  obtain ⟨layer, hlayer, hmem⟩ := (isIn_iff_layer hbuild).mp hbefore
  obtain ⟨later, target, hlt, htarget, hmem'⟩ := Graph.exists_later_layer
    (Graph.isScoped_ofSystems systems tags) hlayer hmem hleads
  have heq := IsIn.eq_index hbuild ((isIn_iff_layer hbuild).mpr ⟨target, htarget, hmem'⟩) hafter
  omega

/-- No constraint joins two members of a wave. -/
theorem isIndependent_nodes_of_build {wave : Wave} (hwave : wave ∈ plan.waves) :
    (Graph.ofSystems systems tags).IsIndependent wave.nodes := by
  obtain ⟨index, hindex⟩ := List.getElem?_of_mem hwave
  intro before hbefore after hafter hleads
  have hlt := index_lt_of_leads hbuild hleads ⟨wave, hindex, hbefore⟩ ⟨wave, hindex, hafter⟩
  exact Nat.lt_irrefl index hlt

/-- Systems in conflict are never in one wave. -/
theorem index_ne_of_conflicts {first second : Fin systems.length} (hne : first ≠ second)
    (hconflict : (systems.get first).conflicts (systems.get second) = true) {left right : Nat}
    (hleft : plan.IsIn first left) (hright : plan.IsIn second right) : left ≠ right := by
  rcases Graph.goesFirst_or_goesFirst systems hne with hfirst | hsecond
  · have hleads : (Graph.ofSystems systems tags).Leads first second :=
      Graph.leads_conflicting_iff.mpr (Or.inl ⟨hconflict, hfirst⟩)
    exact Nat.ne_of_lt (index_lt_of_leads hbuild hleads hleft hright)
  · rw [Descriptor.conflicts_comm] at hconflict
    have hleads : (Graph.ofSystems systems tags).Leads second first :=
      Graph.leads_conflicting_iff.mpr (Or.inl ⟨hconflict, hsecond⟩)
    exact Nat.ne_of_gt (index_lt_of_leads hbuild hleads hright hleft)

end Built

/-! ## Finding systems by identifier -/

/-- One system is in an earlier wave than another one. -/
def RunsBefore (plan : Plan β) (before after : SystemId) : Prop :=
  ∃ first second, plan.waveOf? before = some first ∧ plan.waveOf? after = some second ∧
    first < second

/-- The waves of a plan hold the systems of a list once each and keep to the constraints
between them. -/
structure IsLayoutOf (plan : Plan β) (systems : List (Descriptor β)) (tags : TagOrder) :
    Prop where
  covers : (plan.waves.flatMap Wave.nodes).Perm (List.range systems.length)
  nonempty : ∀ wave ∈ plan.waves, wave.nodes ≠ []
  ascending : ∀ wave ∈ plan.waves, wave.nodes.Pairwise (· < ·)
  members : ∀ wave ∈ plan.waves, wave.members.map some =
    wave.nodes.map fun node => systems[node]?.map Descriptor.id
  waveOf : ∀ id index, plan.waveOf? id = some index ↔
    ∃ wave, plan.waves[index]? = some wave ∧ wave.contains id = true
  conflicting : ∀ first second : Fin systems.length,
    (systems.get first).conflicts (systems.get second) = true →
      Graph.GoesFirst systems first second →
        plan.RunsBefore (systems.get first).id (systems.get second).id
  tagged : ∀ first second : Fin systems.length, first ≠ second →
    Graph.TagsInOrder systems tags first second →
      plan.RunsBefore (systems.get first).id (systems.get second).id
  alone : ∀ node : Fin systems.length,
    (systems.get node).isExclusive = true ∨ (systems.get node).entityAccess = .write →
      ∀ wave ∈ plan.waves, wave.contains (systems.get node).id = true →
        wave.members = [(systems.get node).id]

theorem system?_eq_some_iff {plan : Plan β}
    (hids : (plan.systems.map PlannedSystem.id).Nodup) {id : SystemId}
    {system : PlannedSystem β} :
    plan.system? id = some system ↔ system ∈ plan.systems ∧ system.id = id := by
  have hids' : (plan.systems.reverse.map PlannedSystem.id).Nodup := by
    rwa [List.map_reverse, List.nodup_reverse]
  rw [system?, find?_key_eq_some_iff hids', List.mem_reverse]

theorem eq_of_id_eq {systems : List (Descriptor β)}
    (hids : (systems.map Descriptor.id).Nodup) {first second : Fin systems.length}
    (heq : (systems.get first).id = (systems.get second).id) : first = second := by
  have hfirst : first.val < (systems.map Descriptor.id).length := by simp
  have hsecond : second.val < (systems.map Descriptor.id).length := by simp
  have hsame : (systems.map Descriptor.id)[first.val] =
      (systems.map Descriptor.id)[second.val] := by
    rw [List.getElem_map, List.getElem_map]
    exact heq
  exact Fin.ext (hids.getElem_inj_iff.mp hsame)

section Distinct

variable {systems : List (Descriptor β)} {tags : TagOrder} {generation : Nat}
variable {plan : Plan β}
variable (hbuild : build systems tags generation = .ok plan)
include hbuild

theorem map_id_systems_of_build :
    plan.systems.map PlannedSystem.id = systems.map Descriptor.id := by
  apply List.ext_getElem?
  intro node
  rw [List.getElem?_map, getElem?_systems_of_build hbuild, Option.map_map,
    List.getElem?_map]
  rfl

/-- The members of a wave are the identifiers at its positions. -/
theorem map_some_members_of_build {wave : Wave} (hwave : wave ∈ plan.waves) :
    wave.members.map some = wave.nodes.map fun node => systems[node]?.map Descriptor.id := by
  obtain ⟨index, hindex⟩ := List.getElem?_of_mem hwave
  have hbound : ∀ node ∈ wave.nodes, node < systems.length := fun node hnode =>
    IsIn.lt_length hbuild ⟨wave, hindex, hnode⟩
  rw [waves_of_build hbuild] at hwave
  obtain ⟨layer, -, rfl⟩ := List.mem_map.mp hwave
  rw [List.map_map]
  refine List.map_congr_left fun node hnode => ?_
  have hnode' := hbound node hnode
  rw [Function.comp_apply, List.getElem?_eq_getElem hnode']
  exact congrArg some (Graph.idAt_ofSystems systems tags ⟨node, hnode'⟩)

theorem contains_wave_iff {wave : Wave} (hwave : wave ∈ plan.waves) {id : SystemId} :
    wave.contains id = true ↔
      ∃ node : Fin systems.length, node.val ∈ wave.nodes ∧ (systems.get node).id = id := by
  have hmembers := map_some_members_of_build hbuild hwave
  obtain ⟨index, hindex⟩ := List.getElem?_of_mem hwave
  rw [Wave.contains, decide_eq_true_eq]
  constructor
  · intro hid
    have hsome : some id ∈ wave.members.map some := List.mem_map_of_mem hid
    rw [hmembers] at hsome
    obtain ⟨node, hnode, hsystem⟩ := List.mem_map.mp hsome
    have hlt : node < systems.length := IsIn.lt_length hbuild ⟨wave, hindex, hnode⟩
    rw [List.getElem?_eq_getElem hlt] at hsystem
    exact ⟨⟨node, hlt⟩, hnode, Option.some.inj hsystem⟩
  · rintro ⟨node, hnode, rfl⟩
    have hsome : some (systems.get node).id ∈ wave.members.map some := by
      rw [hmembers]
      exact List.mem_map.mpr ⟨node, hnode, by simp⟩
    obtain ⟨id, hid, heq⟩ := List.mem_map.mp hsome
    rwa [← Option.some.inj heq]

variable (hids : (systems.map Descriptor.id).Nodup)
include hids

theorem waveOf?_of_isIn {node : Fin systems.length} {index : Nat}
    (hin : plan.IsIn node index) : plan.waveOf? (systems.get node).id = some index := by
  obtain ⟨layer, hlayer, hmem⟩ := (isIn_iff_layer hbuild).mp hin
  have hsystem := getElem?_systems_of_build hbuild node.val
  rw [List.getElem?_eq_getElem node.isLt, Option.map_some] at hsystem
  have hids' : (plan.systems.map PlannedSystem.id).Nodup := by
    rwa [map_id_systems_of_build hbuild]
  have hfound : plan.system? (systems.get node).id = some _ :=
    (system?_eq_some_iff hids').mpr ⟨List.mem_of_getElem? hsystem, rfl⟩
  rw [waveOf?, hfound, Option.map_some]
  exact congrArg some (layerOf_eq (nodup_flatten_layers_of_build hbuild) hlayer hmem)

theorem waveOf?_eq_some_iff {id : SystemId} {index : Nat} :
    plan.waveOf? id = some index ↔
      ∃ wave, plan.waves[index]? = some wave ∧ wave.contains id = true := by
  have hids' : (plan.systems.map PlannedSystem.id).Nodup := by
    rwa [map_id_systems_of_build hbuild]
  constructor
  · intro hwave
    obtain ⟨system, hsystem, -⟩ := Option.map_eq_some_iff.mp hwave
    obtain ⟨hmem, hid⟩ := (system?_eq_some_iff hids').mp hsystem
    have hid' : id ∈ systems.map Descriptor.id := by
      rw [← map_id_systems_of_build hbuild, ← hid]
      exact List.mem_map_of_mem hmem
    obtain ⟨position, hposition, rfl⟩ := List.mem_iff_getElem.mp hid'
    rw [List.length_map] at hposition
    rw [List.getElem_map] at hwave ⊢
    obtain ⟨found, hin⟩ := exists_isIn hbuild hposition
    let node : Fin systems.length := ⟨position, hposition⟩
    have hfound : plan.waveOf? (systems.get node).id = some found :=
      waveOf?_of_isIn hbuild hids hin
    obtain rfl : found = index := Option.some.inj (hfound.symm.trans hwave)
    obtain ⟨wave, hindex, hnode⟩ := hin
    exact ⟨wave, hindex, (contains_wave_iff hbuild (List.mem_of_getElem? hindex)).mpr
      ⟨⟨position, hposition⟩, hnode, rfl⟩⟩
  · rintro ⟨wave, hindex, hcontains⟩
    obtain ⟨node, hnode, rfl⟩ :=
      (contains_wave_iff hbuild (List.mem_of_getElem? hindex)).mp hcontains
    exact waveOf?_of_isIn hbuild hids ⟨wave, hindex, hnode⟩

theorem runsBefore_of_leads {first second : Fin systems.length}
    (hleads : (Graph.ofSystems systems tags).Leads first second) :
    plan.RunsBefore (systems.get first).id (systems.get second).id := by
  obtain ⟨left, hleft⟩ := exists_isIn hbuild first.isLt
  obtain ⟨right, hright⟩ := exists_isIn hbuild second.isLt
  exact ⟨left, right, waveOf?_of_isIn hbuild hids hleft, waveOf?_of_isIn hbuild hids hright,
    index_lt_of_leads hbuild hleads hleft hright⟩

omit hids in
/-- A system with a wave for itself shares it with no other position. -/
theorem nodes_eq_singleton_of_isSolitary {node : Fin systems.length} {wave : Wave}
    (hsolitary : (systems.get node).isSolitary = true) (hwave : wave ∈ plan.waves)
    (hnode : node.val ∈ wave.nodes) : wave.nodes = [node.val] := by
  obtain ⟨index, hindex⟩ := List.getElem?_of_mem hwave
  have hin : plan.IsIn node index := ⟨wave, hindex, hnode⟩
  have honly : ∀ other ∈ wave.nodes, other = node.val := by
    intro other hother
    have hin' : plan.IsIn other index := ⟨wave, hindex, hother⟩
    by_contra hne
    have hlt := IsIn.lt_length hbuild hin'
    have hne' : node ≠ ⟨other, hlt⟩ := fun heq => hne (congrArg Fin.val heq).symm
    have hconflict := Descriptor.conflicts_of_isSolitary (systems.get ⟨other, hlt⟩) hsolitary
    exact index_ne_of_conflicts hbuild hne' hconflict hin hin' rfl
  exact (List.perm_singleton.mp ((List.perm_ext_iff_of_nodup (nodup_nodes_of_build hbuild hwave)
    (List.nodup_singleton _)).mpr fun other => by
      rw [List.mem_singleton]
      exact ⟨honly other, fun heq => heq ▸ hnode⟩))

end Distinct

/-- A plan of systems with distinct identifiers is laid out as their conflicts and the
order of their tags demand, also if that order is cyclic. -/
theorem isLayoutOf_of_build {systems : List (Descriptor β)} {tags : TagOrder}
    {generation : Nat} {plan : Plan β} (hids : (systems.map Descriptor.id).Nodup)
    (hbuild : build systems tags generation = .ok plan) : plan.IsLayoutOf systems tags where
  covers := flatMap_nodes_perm_of_build hbuild
  nonempty wave hwave := by
    rw [waves_of_build hbuild] at hwave
    obtain ⟨layer, hlayer, rfl⟩ := List.mem_map.mp hwave
    exact Graph.ne_nil_of_mem_layers (Graph.isScoped_ofSystems systems tags) hlayer
  ascending wave hwave := by
    rw [waves_of_build hbuild] at hwave
    obtain ⟨layer, hlayer, rfl⟩ := List.mem_map.mp hwave
    exact Graph.pairwise_lt_of_mem_layers (Graph.isScoped_ofSystems systems tags) hlayer
  members _ hwave := map_some_members_of_build hbuild hwave
  waveOf _ _ := waveOf?_eq_some_iff hbuild hids
  conflicting _ _ hconflict hfirst := runsBefore_of_leads hbuild hids
    (Graph.leads_conflicting_iff.mpr (Or.inl ⟨hconflict, hfirst⟩))
  tagged _ _ hne htags := runsBefore_of_leads hbuild hids
    (Graph.leads_conflicting_iff.mpr (Or.inr ⟨hne, htags⟩))
  alone node hkind wave hwave hcontains := by
    have hsolitary : (systems.get node).isSolitary = true := by
      simpa [Descriptor.isSolitary] using hkind
    obtain ⟨other, hother, heq⟩ := (contains_wave_iff hbuild hwave).mp hcontains
    obtain rfl := eq_of_id_eq hids heq
    have hmembers := map_some_members_of_build hbuild hwave
    rw [nodes_eq_singleton_of_isSolitary hbuild hsolitary hwave hother] at hmembers
    simpa using hmembers

/-- A mover, a drawer that reads what the mover writes, and two that a tag order puts in
sequence, one of them with a wave for itself. -/
def sketch : List (Descriptor Unit) :=
  [((Descriptor.ofBody "draw" ()).withId ⟨4⟩).reading ⟨7⟩,
    (((Descriptor.ofBody "move" ()).withId ⟨2⟩).writing ⟨7⟩).withPriority 5,
    ((Descriptor.ofBody "input" ()).withId ⟨9⟩).withTag ⟨1⟩,
    (((Descriptor.ofBody "save" ()).withId ⟨3⟩).withTag ⟨2⟩).exclusive]

/-- The layout of the sketch, under an order that leads from one tag to the other through
a tag that no system carries. -/
theorem isLayoutOf_of_build_sketch :
    (sketch.map Descriptor.id).Nodup ∧
      ∃ plan, build sketch (TagOrder.ofPairs [(⟨1⟩, ⟨8⟩), (⟨8⟩, ⟨2⟩)]) 1 = .ok plan ∧
        plan.IsLayoutOf sketch (TagOrder.ofPairs [(⟨1⟩, ⟨8⟩), (⟨8⟩, ⟨2⟩)]) := by
  have hids : (sketch.map Descriptor.id).Nodup := by decide
  have hsome : (build sketch (TagOrder.ofPairs [(⟨1⟩, ⟨8⟩), (⟨8⟩, ⟨2⟩)]) 1).isOk = true := by
    decide +kernel
  cases hbuild : build sketch (TagOrder.ofPairs [(⟨1⟩, ⟨8⟩), (⟨8⟩, ⟨2⟩)]) 1 with
  | error dependency =>
      rw [hbuild] at hsome
      cases hsome
  | ok plan => exact ⟨hids, plan, rfl, isLayoutOf_of_build hids hbuild⟩

end Plan

end TickWaves
