import TickWaves.Proofs.Graph.Embedding
import TickWaves.Proofs.Plan.Bindings

/-!
# Systems placed among other ones

A list of systems is placed among other ones (`IsPlacement`) if the systems at the places
conflict as those of the list do, have priorities in the same order, stand in the same order
where that decides, and have their tags in order where those of the list have.  Then whatever
binds two systems of the list also binds those at their places, and nothing else does if no
tags are newly in order.  So the graph of the list is laid into the graph of the others.
-/

namespace TickWaves

universe u

variable {β : Type u}

namespace Graph

/-- The function of positions on all numbers; other numbers stay. -/
def extended {count count' : Nat} (place : Fin count → Fin count') (node : Nat) : Nat :=
  if hnode : node < count then place ⟨node, hnode⟩ else node

@[simp]
theorem extended_val {count count' : Nat} (place : Fin count → Fin count') (node : Fin count) :
    extended place node = place node :=
  dif_pos node.isLt

/-- What a list demands of its systems is demanded of the systems at their places. -/
structure IsPlacement (systems : List (Descriptor β)) (tags : TagOrder)
    (others : List (Descriptor β)) (tags' : TagOrder)
    (place : Fin systems.length → Fin others.length) : Prop where
  injective : Function.Injective place
  conflicts_eq : ∀ first second,
    (others.get (place first)).conflicts (others.get (place second)) =
      (systems.get first).conflicts (systems.get second)
  priority_lt_iff : ∀ first second,
    (others.get (place first)).priority < (others.get (place second)).priority ↔
      (systems.get first).priority < (systems.get second).priority
  /-- Between systems in conflict with equal priority, the position decides. -/
  lt_of_tie : ∀ first second, (systems.get first).conflicts (systems.get second) = true →
    (systems.get second).priority = (systems.get first).priority → first < second →
      place first < place second
  tagsInOrder : ∀ first second, TagsInOrder systems tags first second →
    TagsInOrder others tags' (place first) (place second)

namespace IsPlacement

variable {systems others : List (Descriptor β)} {tags tags' : TagOrder}
variable {place : Fin systems.length → Fin others.length}
variable (hplace : IsPlacement systems tags others tags' place)
include hplace

theorem priority_eq_iff {first second : Fin systems.length} :
    (others.get (place first)).priority = (others.get (place second)).priority ↔
      (systems.get first).priority = (systems.get second).priority := by
  have hlt := hplace.priority_lt_iff first second
  have hgt := hplace.priority_lt_iff second first
  omega

theorem goesFirst_iff {first second : Fin systems.length}
    (hconflict : (systems.get first).conflicts (systems.get second) = true) :
    GoesFirst others (place first) (place second) ↔ GoesFirst systems first second := by
  have hpriority := hplace.priority_lt_iff second first
  have hequal : (others.get (place second)).priority = (others.get (place first)).priority ↔
      (systems.get second).priority = (systems.get first).priority := hplace.priority_eq_iff
  rw [GoesFirst, GoesFirst, hpriority, hequal]
  refine or_congr_right (and_congr_right fun htie => ⟨fun hlt => ?_, ?_⟩)
  · -- Places are distinct, so the order of the two positions cannot be the other one.
    by_contra hnot
    rcases Fin.lt_or_eq_of_le (Fin.not_lt.mp hnot) with hgt | rfl
    · have hgt' := hplace.lt_of_tie second first
        ((Descriptor.conflicts_comm _ _).trans hconflict) htie.symm hgt
      exact absurd hlt (Fin.lt_asymm hgt')
    · exact absurd hlt (Fin.lt_irrefl _)
  · exact hplace.lt_of_tie first second hconflict htie

theorem binds {first second : Fin systems.length} {reason : Reason}
    (hbinds : Binds systems tags first second reason) :
    Binds others tags' (place first) (place second) reason := by
  cases hbinds with
  | priority hconflict hpriority =>
      exact .priority ((hplace.conflicts_eq first second).trans hconflict)
        ((hplace.priority_lt_iff second first).mpr hpriority)
  | dataConflict hconflict hpriority hlt =>
      exact .dataConflict ((hplace.conflicts_eq first second).trans hconflict)
        (hplace.priority_eq_iff.mpr hpriority)
        (hplace.lt_of_tie first second hconflict hpriority hlt)
  | explicitTag hne htags hfree =>
      refine .explicitTag (hplace.injective.ne hne) (hplace.tagsInOrder first second htags) ?_
      rintro ⟨hconflict, hfirst⟩
      rw [hplace.conflicts_eq] at hconflict
      exact hfree ⟨hconflict, (hplace.goesFirst_iff hconflict).mp hfirst⟩

/-- If no tags are newly in order, then nothing else binds the systems at the places. -/
theorem binds_iff (htags : ∀ first second, TagsInOrder others tags' (place first) (place second) →
      TagsInOrder systems tags first second)
    {first second : Fin systems.length} {reason : Reason} :
    Binds others tags' (place first) (place second) reason ↔
      Binds systems tags first second reason := by
  refine ⟨fun hbinds => ?_, hplace.binds⟩
  cases hbinds with
  | priority hconflict hpriority =>
      rw [hplace.conflicts_eq] at hconflict
      exact .priority hconflict ((hplace.priority_lt_iff second first).mp hpriority)
  | dataConflict hconflict hpriority hlt =>
      rw [hplace.conflicts_eq] at hconflict
      have htie := hplace.priority_eq_iff.mp hpriority
      rcases (hplace.goesFirst_iff hconflict).mp (Or.inr ⟨hpriority, hlt⟩) with
        hless | ⟨-, hbefore⟩
      · exact absurd htie (Int.ne_of_lt hless)
      · exact .dataConflict hconflict htie hbefore
  | explicitTag hne hordered hfree =>
      refine .explicitTag (fun heq => hne (congrArg place heq)) (htags first second hordered) ?_
      rintro ⟨hconflict, hfirst⟩
      exact hfree ⟨(hplace.conflicts_eq first second).trans hconflict,
        (hplace.goesFirst_iff hconflict).mpr hfirst⟩

theorem embeds : (ofSystems systems tags).Embeds (ofSystems others tags') (extended place) where
  maps node hnode := by
    rw [size_ofSystems] at hnode ⊢
    have hval := extended_val place ⟨node, hnode⟩
    rw [hval]
    exact (place ⟨node, hnode⟩).isLt
  leads before after hleads := by
    obtain ⟨first, second, rfl, rfl⟩ := fin_of_leads_assembled hleads
    obtain ⟨reason, hbinds⟩ := leads_ofSystems_iff.mp hleads
    rw [extended_val, extended_val]
    exact leads_ofSystems_iff.mpr ⟨reason, hplace.binds hbinds⟩

/-- If every position is some place and no tags are newly in order, then the two graphs are
the same but for the places. -/
theorem matches_of_surjective (hall : Function.Surjective place)
    (htags : ∀ first second, TagsInOrder others tags' (place first) (place second) →
      TagsInOrder systems tags first second) :
    (ofSystems systems tags).Matches (ofSystems others tags') (extended place) where
  perm := by
    rw [size_ofSystems, size_ofSystems]
    have hnodup : ((List.range systems.length).map (extended place)).Nodup := by
      refine List.Nodup.map_on (fun left hleft right hright heq => ?_) List.nodup_range
      rw [List.mem_range] at hleft hright
      lift left to Fin systems.length using hleft
      lift right to Fin systems.length using hright
      rw [extended_val, extended_val] at heq
      exact congrArg Fin.val (hplace.injective (Fin.ext heq))
    refine (List.perm_ext_iff_of_nodup List.nodup_range hnodup).mpr fun node => ?_
    rw [List.mem_range, List.mem_map]
    constructor
    · intro hnode
      obtain ⟨source, hsource⟩ := hall ⟨node, hnode⟩
      refine ⟨source, List.mem_range.mpr source.isLt, ?_⟩
      rw [extended_val, hsource]
    · rintro ⟨source, hsource, rfl⟩
      rw [List.mem_range] at hsource
      lift source to Fin systems.length using hsource
      rw [extended_val]
      exact (place source).isLt
  leads_iff before hbefore after hafter := by
    rw [size_ofSystems] at hbefore hafter
    lift before to Fin systems.length using hbefore
    lift after to Fin systems.length using hafter
    rw [extended_val, extended_val, leads_ofSystems_iff, leads_ofSystems_iff]
    exact exists_congr fun reason => hplace.binds_iff htags

end IsPlacement

section Same

variable {systems others : List (Descriptor β)} {tags tags' : TagOrder}
variable {place : Fin systems.length → Fin others.length}

theorem TagsInOrder.mono {first second : Fin systems.length}
    (hordered : TagsInOrder systems tags first second)
    (htags : ∀ before after, tags.Declares before after → tags'.Declares before after) :
    TagsInOrder systems tags' first second := by
  obtain ⟨earlier, later, hearlier, hlater, hchain⟩ := hordered
  exact ⟨earlier, later, hearlier, hlater, hchain.lift id htags⟩

variable (hget : ∀ node, others.get (place node) = systems.get node)
include hget

theorem tagsInOrder_iff_of_get_eq {first second : Fin systems.length} :
    TagsInOrder others tags (place first) (place second) ↔
      TagsInOrder systems tags first second := by
  rw [TagsInOrder, TagsInOrder, hget, hget]

/-- A list of systems is placed where the same systems are found again, if ties are kept and
all pairs of tags are declared there too. -/
theorem isPlacement_of_get_eq (hinjective : Function.Injective place)
    (htie : ∀ first second, (systems.get first).conflicts (systems.get second) = true →
      (systems.get second).priority = (systems.get first).priority → first < second →
        place first < place second)
    (htags : ∀ before after, tags.Declares before after → tags'.Declares before after) :
    IsPlacement systems tags others tags' place where
  injective := hinjective
  conflicts_eq first second := by rw [hget, hget]
  priority_lt_iff first second := by rw [hget, hget]
  lt_of_tie := htie
  tagsInOrder _ _ hordered := (tagsInOrder_iff_of_get_eq hget).mpr (hordered.mono htags)

end Same

end Graph

end TickWaves
