import Mathlib.Data.List.NodupEquivFin
import TickWaves.Proofs.Plan.Placement
import TickWaves.Proofs.Scheduler.Freshness

/-!
# Taking constraints away

If a list of systems has a plan, then so has every part of the list, also with fewer pairs of
tags declared.  The plan of the part has no other edges than the plan of the whole, and not
more waves (`Plan.exists_isReduction_of_sublist`).  So a scheduler whose plan can be made
keeps it that way when systems are removed.
-/

namespace TickWaves

universe u

variable {β : Type u}

def Precedence.IsWithin (precedence : Precedence) (systems : List (Descriptor β)) : Prop :=
  precedence.before ∈ systems.map Descriptor.id ∧ precedence.after ∈ systems.map Descriptor.id

namespace Plan

/-- The edges of a plan are edges of another one, between the systems that were kept, and it
has no more waves. -/
structure IsReduction (part plan : Plan β) (kept : List (Descriptor β)) : Prop where
  precedences : ∀ precedence ∈ part.precedences,
    precedence ∈ plan.precedences ∧ precedence.IsWithin kept
  length_le : part.waves.length ≤ plan.waves.length

/-- The edges of a plan are all edges of another one between the systems that were kept. -/
structure IsRestriction (part plan : Plan β) (kept : List (Descriptor β)) : Prop
    extends IsReduction part plan kept where
  mem_of_isWithin : ∀ precedence ∈ plan.precedences, precedence.IsWithin kept →
    precedence ∈ part.precedences

section Sublist

variable {systems kept : List (Descriptor β)} {tags tags' : TagOrder}
variable {generation generation' : Nat} {plan part : Plan β}
variable {place : Fin kept.length → Fin systems.length}

/-- A sublist is placed where the list has its systems. -/
theorem exists_isPlacement_of_sublist (hkept : kept.Sublist systems)
    (htags : ∀ before after, tags'.Declares before after → tags.Declares before after) :
    ∃ place, Graph.IsPlacement kept tags' systems tags place ∧
      ∀ node, systems.get (place node) = kept.get node := by
  obtain ⟨place, hget⟩ := List.sublist_iff_exists_fin_orderEmbedding_get_eq.mp hkept
  have hget' : ∀ node, systems.get (place node) = kept.get node := fun node => (hget node).symm
  exact ⟨place, Graph.isPlacement_of_get_eq hget' place.injective
    (fun _ _ _ _ hlt => place.strictMono hlt) htags, hget'⟩

theorem exists_build_of_isPlacement
    (hplace : Graph.IsPlacement kept tags' systems tags place)
    (hbuild : build systems tags generation = .ok plan) (generation' : Nat) :
    ∃ part, build kept tags' generation' = .ok part :=
  exists_build_eq_ok_iff.mpr (hplace.embeds.isAcyclic (build_eq_ok hbuild).1)

theorem isReduction_of_isPlacement
    (hplace : Graph.IsPlacement kept tags' systems tags place)
    (hget : ∀ node, systems.get (place node) = kept.get node)
    (hbuild : build systems tags generation = .ok plan)
    (hpart : build kept tags' generation' = .ok part) : part.IsReduction plan kept where
  precedences precedence hprecedence := by
    obtain ⟨first, second, hbefore, hafter, hbinds⟩ := (mem_precedences_iff hpart).mp hprecedence
    refine ⟨(mem_precedences_iff hbuild).mpr ⟨place first, place second, ?_, ?_,
      hplace.binds hbinds⟩, ?_, ?_⟩
    · rw [hget, hbefore]
    · rw [hget, hafter]
    · rw [hbefore]
      exact List.mem_map_of_mem (kept.get_mem first)
    · rw [hafter]
      exact List.mem_map_of_mem (kept.get_mem second)
  length_le := by
    rw [waves_of_build hpart, waves_of_build hbuild, List.length_map, List.length_map]
    exact hplace.embeds.length_layers_le (Graph.isScoped_ofSystems kept tags')
      (Graph.isScoped_ofSystems systems tags) (build_eq_ok hbuild).1

theorem isRestriction_of_isPlacement (hids : (systems.map Descriptor.id).Nodup)
    (hplace : Graph.IsPlacement kept tags systems tags place)
    (hget : ∀ node, systems.get (place node) = kept.get node)
    (hbuild : build systems tags generation = .ok plan)
    (hpart : build kept tags generation' = .ok part) : part.IsRestriction plan kept where
  toIsReduction := isReduction_of_isPlacement hplace hget hbuild hpart
  mem_of_isWithin precedence hprecedence hwithin := by
    have hplaced : ∀ {node : Fin systems.length} {id : SystemId},
        id = (systems.get node).id → id ∈ kept.map Descriptor.id →
          ∃ source, place source = node ∧ id = (kept.get source).id := by
      intro node id hid hmem
      obtain ⟨descriptor, hdescriptor, hsame⟩ := List.mem_map.mp hmem
      obtain ⟨source, rfl⟩ := List.get_of_mem hdescriptor
      refine ⟨source, eq_of_id_eq hids ?_, hsame.symm⟩
      rw [hget, hsame, hid]
    obtain ⟨first, second, hbefore, hafter, hbinds⟩ := (mem_precedences_iff hbuild).mp hprecedence
    obtain ⟨first, rfl, hfirst⟩ := hplaced hbefore hwithin.1
    obtain ⟨second, rfl, hsecond⟩ := hplaced hafter hwithin.2
    refine (mem_precedences_iff hpart).mpr ⟨first, second, hfirst, hsecond, ?_⟩
    exact (hplace.binds_iff fun _ _ => (Graph.tagsInOrder_iff_of_get_eq hget).mp).mp hbinds

end Sublist

end Plan

namespace Scheduler

variable {scheduler result : Scheduler β}

theorem tags_foldl_forget (scheduler : Scheduler β) (removed : List SystemId) :
    (removed.foldl forget scheduler).tags = scheduler.tags := by
  induction removed generalizing scheduler with
  | nil => rfl
  | cons id rest ih => exact ih (scheduler.forget id)

/-- No removal makes the next rebuild fail. -/
structure OutlastsRemoval (scheduler : Scheduler β) : Prop where
  unregister : ∀ {id result}, scheduler.unregister id = .ok result →
    ∃ rebuilt, result.rebuild = .ok rebuilt
  unregisterModule : ∀ {owner removed result},
    scheduler.unregisterModule owner = .ok (removed, result) →
      ∃ rebuilt, result.rebuild = .ok rebuilt

theorem exists_rebuild_of_sublist {plan : Plan β} {generation : Nat}
    (hbuild : Plan.build scheduler.table.toList scheduler.tags generation = .ok plan)
    (hkept : result.table.toList.Sublist scheduler.table.toList)
    (htags : result.tags = scheduler.tags) : ∃ rebuilt, result.rebuild = .ok rebuilt := by
  rw [← htags] at hbuild
  obtain ⟨place, hplace, -⟩ :=
    Plan.exists_isPlacement_of_sublist hkept fun _ _ (hpair : result.tags.Declares _ _) => hpair
  obtain ⟨part, hpart⟩ :=
    Plan.exists_build_of_isPlacement hplace hbuild (result.plan.generation + 1)
  rw [rebuild, hpart]
  exact ⟨_, rfl⟩

theorem outlastsRemoval_of_build {plan : Plan β} {generation : Nat}
    (hbuild : Plan.build scheduler.table.toList scheduler.tags generation = .ok plan) :
    scheduler.OutlastsRemoval where
  unregister hunregister := by
    obtain ⟨descriptor, table, hfound, rfl⟩ := unregister_eq_ok hunregister
    exact exists_rebuild_of_sublist hbuild (Table.toList_unregister_sublist hfound) rfl
  unregisterModule hunregister := by
    obtain ⟨table, hfound, rfl⟩ := unregisterModule_eq_ok hunregister
    exact exists_rebuild_of_sublist hbuild (Table.toList_unregisterModule_sublist hfound)
      (tags_foldl_forget scheduler _)

end Scheduler

namespace Plan

/-- Where systems with distinct identifiers have a plan, those that are kept have one too,
which has fewer constraints only if fewer pairs of tags are declared. -/
theorem exists_isReduction_of_sublist {systems kept : List (Descriptor β)}
    {tags tags' : TagOrder} {generation : Nat} {plan : Plan β}
    (hids : (systems.map Descriptor.id).Nodup) (hkept : kept.Sublist systems)
    (htags : ∀ before after, tags'.Declares before after → tags.Declares before after)
    (hbuild : build systems tags generation = .ok plan) :
    (∀ generation', ∃ part, build kept tags' generation' = .ok part ∧
        part.IsReduction plan kept ∧ (tags' = tags → part.IsRestriction plan kept)) ∧
      ∀ scheduler : Scheduler β, scheduler.table.toList = systems → scheduler.tags = tags →
        scheduler.OutlastsRemoval := by
  constructor
  · intro generation'
    obtain ⟨place, hplace, hget⟩ := exists_isPlacement_of_sublist hkept htags
    obtain ⟨part, hpart⟩ := exists_build_of_isPlacement hplace hbuild generation'
    refine ⟨part, hpart, isReduction_of_isPlacement hplace hget hbuild hpart, ?_⟩
    rintro rfl
    exact isRestriction_of_isPlacement hids hplace hget hbuild hpart
  · rintro scheduler rfl rfl
    exact Scheduler.outlastsRemoval_of_build hbuild

def sketched : Scheduler Unit :=
  { (Scheduler.withPool (Config.ofCores 1) .inline : Scheduler Unit) with
    table := sketch.foldl (fun table descriptor =>
      match table.register descriptor with
      | .error _ => table
      | .ok (_, table) => table) Table.empty
    tags := TagOrder.ofPairs [(⟨1⟩, ⟨8⟩), (⟨8⟩, ⟨2⟩)] }

/-- The sketch without its mover, under the same order of tags and under a part of it. -/
theorem exists_isReduction_of_sublist_sketch :
    (sketch.map Descriptor.id).Nodup ∧ (sketch.eraseIdx 1).Sublist sketch ∧
      sketched.table.toList = sketch ∧ sketched.OutlastsRemoval ∧
      ∃ plan part smaller, build sketch sketched.tags 1 = .ok plan ∧
        build (sketch.eraseIdx 1) sketched.tags 2 = .ok part ∧ part.IsRestriction plan
          (sketch.eraseIdx 1) ∧
        build (sketch.eraseIdx 1) (TagOrder.ofPairs [(⟨1⟩, ⟨8⟩)]) 2 = .ok smaller ∧
          smaller.IsReduction plan (sketch.eraseIdx 1) := by
  have hids : (sketch.map Descriptor.id).Nodup := by decide
  have hkept : (sketch.eraseIdx 1).Sublist sketch := List.eraseIdx_sublist sketch 1
  have htags : ∀ before after, (TagOrder.ofPairs [(⟨1⟩, ⟨8⟩)]).Declares before after →
      sketched.tags.Declares before after :=
    fun _ _ hpair => TagOrder.mem_pairs_declare.mpr (Or.inr hpair)
  have hsome : (build sketch sketched.tags 1).isOk = true := by decide +kernel
  cases hbuild : build sketch sketched.tags 1 with
  | error dependency =>
      rw [hbuild] at hsome
      cases hsome
  | ok plan =>
      obtain ⟨hparts, hremoval⟩ :=
        exists_isReduction_of_sublist hids hkept (fun _ _ hpair => hpair) hbuild
      obtain ⟨part, hpart, -, hrestriction⟩ := hparts 2
      obtain ⟨smaller, hsmaller, hreduction, -⟩ :=
        (exists_isReduction_of_sublist hids hkept htags hbuild).1 2
      exact ⟨hids, hkept, rfl, hremoval sketched rfl rfl, plan, part, smaller, rfl, hpart,
        hrestriction rfl, hsmaller, hreduction⟩

end Plan

end TickWaves
