import Mathlib
import TickWaves.Proofs.Graph.Listing
import TickWaves.Proofs.Plan.Placement
import TickWaves.Proofs.System.Declarations

/-!
# Plans do not depend on the values of identifiers

Types, tags and priorities are compared with each other and stand for nothing else.  A
`Respelling` gives new values to all of them; what a list of systems and an order of tags
declare under the new values may also be declared in another order and several times over.
The plan stays the same, and so does the cycle for which a list is refused
(`Plan.build_eq_of_respells`): no set that is kept in the order of its values shows that order.
-/

namespace TickWaves

open Relation

universe u

variable {β : Type u}

/-- New values for types, tags and priorities.  No two types get one value, and no two
tags. -/
structure Respelling where
  component : ComponentId → ComponentId
  tag : Tag → Tag
  priority : Int → Int
  component_injective : Function.Injective component
  tag_injective : Function.Injective tag

namespace Respelling

variable (spelling : Respelling)

def declaration : Declaration → Declaration
  | .reads id => .reads (spelling.component id)
  | .writes id => .writes (spelling.component id)
  | .avoids tag => .avoids (spelling.tag tag)

def pair (pair : Tag × Tag) : Tag × Tag :=
  (spelling.tag pair.1, spelling.tag pair.2)

/-- The same system under the new values, which the calls that fill its sets may name in any
order and more than once. -/
structure Respells (descriptor other : Descriptor β) : Prop where
  id : other.id = descriptor.id
  name : other.name = descriptor.name
  body : other.body = descriptor.body
  onMainThread : other.onMainThread = descriptor.onMainThread
  isExclusive : other.isExclusive = descriptor.isExclusive
  entityAccess : other.entityAccess = descriptor.entityAccess
  tag? : other.tag? = descriptor.tag?.map spelling.tag
  priority : other.priority = spelling.priority descriptor.priority
  declared : ∃ calls calls', descriptor.IsDeclaredBy calls ∧ other.IsDeclaredBy calls' ∧
    ∀ call, call ∈ calls' ↔ call ∈ calls.map spelling.declaration

/-- The same order of tags under the new values, declared in any order. -/
def RespellsOrder (tags tags' : TagOrder) : Prop :=
  ∃ pairs pairs', tags = TagOrder.ofPairs pairs ∧ tags' = TagOrder.ofPairs pairs' ∧
    ∀ pair, pair ∈ pairs' ↔ pair ∈ pairs.map spelling.pair

/-- What no call touches, under the new values. -/
def plain (descriptor : Descriptor β) : Descriptor β :=
  { descriptor.blank with
    tag? := descriptor.tag?.map spelling.tag
    priority := spelling.priority descriptor.priority }

/-- The calls may be made under the new values in any order and several times. -/
theorem respells_declareAll {descriptor : Descriptor β} {calls calls' : List Declaration}
    (hcalls : descriptor.IsDeclaredBy calls)
    (hsame : ∀ call, call ∈ calls' ↔ call ∈ calls.map spelling.declaration) :
    spelling.Respells descriptor ((spelling.plain descriptor).declareAll calls') := by
  have hblank := Descriptor.blank_declareAll (spelling.plain descriptor) calls'
  constructor
  case id => exact (congrArg Descriptor.id hblank :)
  case name => exact (congrArg Descriptor.name hblank :)
  case body => exact (congrArg Descriptor.body hblank :)
  case onMainThread => exact (congrArg Descriptor.onMainThread hblank :)
  case isExclusive => exact (congrArg Descriptor.isExclusive hblank :)
  case entityAccess => exact (congrArg Descriptor.entityAccess hblank :)
  case tag? => exact (congrArg Descriptor.tag? hblank :)
  case priority => exact (congrArg Descriptor.priority hblank :)
  case declared =>
    exact ⟨calls, calls', hcalls, Descriptor.isDeclaredBy_declareAll rfl, hsame⟩

/-- Every list of systems can be respelled. -/
theorem exists_forall₂_respells (systems : List (Descriptor β)) :
    ∃ others, List.Forall₂ spelling.Respells systems others := by
  induction systems with
  | nil => exact ⟨[], .nil⟩
  | cons descriptor systems ih =>
      obtain ⟨others, hothers⟩ := ih
      have hrespells := spelling.respells_declareAll descriptor.isDeclaredBy_declarations
        fun call => Iff.rfl
      exact ⟨_ :: others, .cons hrespells hothers⟩

variable {spelling}

theorem declaration_eq_writes_iff {call : Declaration} {id : ComponentId} :
    spelling.declaration call = .writes id ↔
      ∃ old, spelling.component old = id ∧ call = .writes old := by
  cases call <;> simp [declaration, eq_comm]

theorem declaration_eq_reads_iff {call : Declaration} {id : ComponentId} :
    spelling.declaration call = .reads id ↔
      ∃ old, spelling.component old = id ∧ call = .reads old := by
  cases call <;> simp [declaration, eq_comm]

theorem declaration_eq_avoids_iff {call : Declaration} {tag : Tag} :
    spelling.declaration call = .avoids tag ↔
      ∃ old, spelling.tag old = tag ∧ call = .avoids old := by
  cases call <;> simp [declaration, eq_comm]

namespace Respells

variable {descriptor descriptor' other other' : Descriptor β}
variable (hrespells : spelling.Respells descriptor descriptor')
include hrespells

theorem mem_writes_iff {id : ComponentId} :
    id ∈ descriptor'.access.writes ↔
      ∃ old, spelling.component old = id ∧ old ∈ descriptor.access.writes := by
  obtain ⟨calls, calls', hcalls, hcalls', hsame⟩ := hrespells.declared
  simp only [hcalls'.mem_writes_iff, hcalls.mem_writes_iff, hsame, List.mem_map,
    declaration_eq_writes_iff]
  grind

theorem accesses_iff {id : ComponentId} :
    descriptor'.access.accesses id = true ↔
      ∃ old, spelling.component old = id ∧ descriptor.access.accesses old = true := by
  obtain ⟨calls, calls', hcalls, hcalls', hsame⟩ := hrespells.declared
  simp only [hcalls'.accesses_iff, hcalls.accesses_iff, hsame, List.mem_map,
    declaration_eq_writes_iff, declaration_eq_reads_iff]
  grind

theorem tag_mem_excluded_iff {tag : Tag} :
    spelling.tag tag ∈ descriptor'.excluded ↔ tag ∈ descriptor.excluded := by
  obtain ⟨calls, calls', hcalls, hcalls', hsame⟩ := hrespells.declared
  simp only [hcalls'.mem_excluded_iff, hcalls.mem_excluded_iff, hsame, List.mem_map,
    declaration_eq_avoids_iff, spelling.tag_injective.eq_iff]
  grind

variable (hother : spelling.Respells other other')
include hother

theorem shuns_eq : descriptor'.shuns other' = descriptor.shuns other := by
  rw [Descriptor.shuns, Descriptor.shuns, hother.tag?, Option.any_map]
  congr 1
  funext tag
  exact decide_eq_decide.mpr hrespells.tag_mem_excluded_iff

theorem conflictsWith_eq :
    descriptor'.access.conflictsWith other'.access =
      descriptor.access.conflictsWith other.access := by
  rw [Bool.eq_iff_iff, Access.conflictsWith_iff_accesses, Access.conflictsWith_iff_accesses]
  simp only [hrespells.mem_writes_iff, hrespells.accesses_iff, hother.mem_writes_iff,
    hother.accesses_iff]
  have hsame := spelling.component_injective
  constructor
  case mp =>
    rintro ⟨id, ⟨⟨old, rfl, hwrites⟩, ⟨old', heq, htouches⟩⟩ |
      ⟨⟨old, rfl, htouches⟩, ⟨old', heq, hwrites⟩⟩⟩
    · exact ⟨old, Or.inl ⟨hwrites, hsame heq ▸ htouches⟩⟩
    · exact ⟨old, Or.inr ⟨htouches, hsame heq ▸ hwrites⟩⟩
  case mpr =>
    rintro ⟨id, ⟨hwrites, htouches⟩ | ⟨htouches, hwrites⟩⟩
    · exact ⟨spelling.component id, Or.inl ⟨⟨id, rfl, hwrites⟩, ⟨id, rfl, htouches⟩⟩⟩
    · exact ⟨spelling.component id, Or.inr ⟨⟨id, rfl, htouches⟩, ⟨id, rfl, hwrites⟩⟩⟩

/-- Systems conflict under the new values as they do under the old ones. -/
theorem conflicts_eq : descriptor'.conflicts other' = descriptor.conflicts other := by
  have hsolitary : ∀ {descriptor descriptor' : Descriptor β},
      spelling.Respells descriptor descriptor' →
        descriptor'.isSolitary = descriptor.isSolitary := by
    intro descriptor descriptor' hrespells
    rw [Descriptor.isSolitary, Descriptor.isSolitary, hrespells.isExclusive,
      hrespells.entityAccess]
  rw [Descriptor.conflicts, Descriptor.conflicts, hsolitary hrespells, hsolitary hother,
    Descriptor.excludes, Descriptor.excludes, hrespells.shuns_eq hother,
    hother.shuns_eq hrespells, hrespells.conflictsWith_eq hother]

end Respells

section Order

/-- If different elements keep different values, then a chain leads from one value to another
one exactly if a chain leads from the one element to the other. -/
theorem transGen_map_iff {α γ : Type*} {R : α → α → Prop} {f : α → γ}
    (hinjective : Function.Injective f) {before after : α} :
    TransGen (Relation.Map R f f) (f before) (f after) ↔ TransGen R before after := by
  constructor
  case mp =>
    have hchain : ∀ {before' after'}, TransGen (Relation.Map R f f) before' after' →
        Relation.Map (TransGen R) f f before' after' := by
      intro before' after' hchain
      induction hchain with
      | single hstep =>
          obtain ⟨before, after, hstep, rfl, rfl⟩ := hstep
          exact ⟨before, after, .single hstep, rfl, rfl⟩
      | tail _ hstep ih =>
          obtain ⟨before, middle, hchain, rfl, hmiddle⟩ := ih
          obtain ⟨middle', after, hstep, hmiddle', rfl⟩ := hstep
          obtain rfl := hinjective (hmiddle'.trans hmiddle.symm)
          exact ⟨before, after, hchain.tail hstep, rfl, rfl⟩
    intro hchain'
    exact (Relation.map_apply_apply hinjective hinjective _ _ _).mp (hchain hchain')
  case mpr =>
    intro hchain
    exact hchain.lift f fun before after hstep => ⟨before, after, hstep, rfl, rfl⟩

variable {tags tags' : TagOrder}

variable (spelling) in
/-- Every order of tags can be respelled. -/
theorem exists_respellsOrder (tags : TagOrder) : ∃ tags', spelling.RespellsOrder tags tags' := by
  have hpairs : tags = TagOrder.ofPairs tags.pairs.toList := by
    apply TagOrder.ext_pairs
    intro pair
    exact KeySet.mem_def.trans TagOrder.declares_ofPairs.symm
  exact ⟨_, _, tags.pairs.toList.map spelling.pair, hpairs, rfl, fun _ => Iff.rfl⟩

theorem RespellsOrder.declares_eq (horder : spelling.RespellsOrder tags tags') :
    tags'.Declares = Relation.Map tags.Declares spelling.tag spelling.tag := by
  obtain ⟨pairs, pairs', rfl, rfl, hsame⟩ := horder
  funext before after
  apply propext
  simp only [TagOrder.declares_ofPairs, hsame, List.mem_map, pair, Relation.map_apply, Prod.exists,
    Prod.mk.injEq]

end Order

section Systems

variable {systems others : List (Descriptor β)} {tags tags' : TagOrder}
variable (hsystems : List.Forall₂ spelling.Respells systems others)
variable (horder : spelling.RespellsOrder tags tags')
include hsystems

theorem get_cast (node : Fin systems.length) :
    spelling.Respells (systems.get node) (others.get (node.cast hsystems.length_eq)) :=
  hsystems.get node.isLt (node.cast hsystems.length_eq).isLt

include horder

theorem tagsInOrder_cast_iff {first second : Fin systems.length} :
    Graph.TagsInOrder others tags' (first.cast hsystems.length_eq)
        (second.cast hsystems.length_eq) ↔
      Graph.TagsInOrder systems tags first second := by
  have hfirst := (get_cast hsystems first).tag?
  have hsecond := (get_cast hsystems second).tag?
  rw [Graph.TagsInOrder, Graph.TagsInOrder, hfirst, hsecond, horder.declares_eq]
  constructor
  case mp =>
    intro hordered
    obtain ⟨earlier', later', hearlier', hlater', hchain⟩ := hordered
    obtain ⟨earlier, hearlier, rfl⟩ := Option.map_eq_some_iff.mp hearlier'
    obtain ⟨later, hlater, rfl⟩ := Option.map_eq_some_iff.mp hlater'
    exact ⟨earlier, later, hearlier, hlater,
      (transGen_map_iff spelling.tag_injective).mp hchain⟩
  case mpr =>
    intro hordered
    obtain ⟨earlier, later, hearlier, hlater, hchain⟩ := hordered
    exact ⟨_, _, Option.map_eq_some_iff.mpr ⟨earlier, hearlier, rfl⟩,
      Option.map_eq_some_iff.mpr ⟨later, hlater, rfl⟩,
      (transGen_map_iff spelling.tag_injective).mpr hchain⟩

/-- The systems stay in their places, which is all that a plan is made from. -/
theorem isPlacement_cast
    (hpriority : StrictMonoOn spelling.priority
      {priority | ∃ descriptor ∈ systems, descriptor.priority = priority}) :
    Graph.IsPlacement systems tags others tags' (Fin.cast hsystems.length_eq) where
  injective := Fin.cast_injective hsystems.length_eq
  conflicts_eq first second :=
    (get_cast hsystems first).conflicts_eq (get_cast hsystems second)
  priority_lt_iff first second := by
    rw [(get_cast hsystems first).priority, (get_cast hsystems second).priority]
    exact hpriority.lt_iff_lt ⟨_, systems.get_mem first, rfl⟩ ⟨_, systems.get_mem second, rfl⟩
  lt_of_tie _ _ _ _ hlt := hlt
  tagsInOrder _ _ := (tagsInOrder_cast_iff hsystems horder).mpr

end Systems

end Respelling

namespace Plan

/-- The plan over a graph depends on what each system is called and what it runs, and on nothing
else that the systems declare. -/
theorem ofGraph_congr {systems others : List (Descriptor β)}
    (hsystems : List.Forall₂ (fun descriptor other => other.id = descriptor.id ∧
      other.name = descriptor.name ∧ other.body = descriptor.body ∧
        other.onMainThread = descriptor.onMainThread) systems others)
    (graph : Graph) (generation : Nat) :
    ofGraph others graph generation = ofGraph systems graph generation := by
  simp only [ofGraph, Plan.mk.injEq, true_and, and_true]
  apply List.ext_getElem
  · simp [hsystems.length_eq]
  · intro node hnode' hnode
    simp only [List.length_map, List.length_zipIdx] at hnode hnode'
    obtain ⟨hid, hname, hbody, hthread⟩ := hsystems.get hnode hnode'
    simp only [List.get_eq_getElem] at hid hname hbody hthread
    simp [hid, hname, hbody, hthread]

/-- The plan is the same after new values are given to types, tags and priorities, as long as
the priorities in use keep their order.  What is refused is refused for the same cycle. -/
theorem build_eq_of_respells {spelling : Respelling} {systems others : List (Descriptor β)}
    {tags tags' : TagOrder} (hsystems : List.Forall₂ spelling.Respells systems others)
    (horder : spelling.RespellsOrder tags tags')
    (hpriority : StrictMonoOn spelling.priority
      {priority | ∃ descriptor ∈ systems, descriptor.priority = priority}) (generation : Nat) :
    build others tags' generation = build systems tags generation := by
  have hplace := Respelling.isPlacement_cast hsystems horder hpriority
  have hids : others.map Descriptor.id = systems.map Descriptor.id := by
    rw [← List.forall₂_eq_eq_eq, List.forall₂_map_left_iff, List.forall₂_map_right_iff]
    exact hsystems.flip.imp fun _ _ hrespells => hrespells.id
  have hgraph : Graph.ofSystems others tags' = Graph.ofSystems systems tags := by
    apply Graph.ofSystems_eq_of_binds_iff hids hsystems.length_eq
    intro first second reason
    exact hplace.binds_iff fun _ _ => (Respelling.tagsInOrder_cast_iff hsystems horder).mp
  have hplan : ofGraph others = ofGraph systems := by
    funext graph generation
    apply ofGraph_congr
    exact hsystems.imp fun _ _ hrespells =>
      ⟨hrespells.id, hrespells.name, hrespells.body, hrespells.onMainThread⟩
  rw [Graph.ofSystems, Graph.ofSystems] at hgraph
  rw [build, build, Graph.build, Graph.build, hgraph, hplan]

/-- All values in the opposite order, and priorities that are multiples of five made small. -/
def mirrored : Respelling where
  component id := ⟨~~~id.word⟩
  tag tag := ⟨~~~tag.word⟩
  priority priority := priority / 5
  component_injective := by
    intro id id' heq
    obtain ⟨word⟩ := id
    obtain ⟨word'⟩ := id'
    exact congrArg ComponentId.mk (UInt64.not_inj.mp (ComponentId.mk.inj heq))
  tag_injective := by
    intro tag tag' heq
    obtain ⟨word⟩ := tag
    obtain ⟨word'⟩ := tag'
    exact congrArg Tag.mk (UInt64.not_inj.mp (Tag.mk.inj heq))

def crew : List (Descriptor Unit) :=
  [((Descriptor.ofBody "draw" ()).withId ⟨4⟩).declareAll [.reads ⟨7⟩, .avoids ⟨2⟩],
    ((((Descriptor.ofBody "move" ()).withId ⟨2⟩).withTag ⟨1⟩).withPriority 5).declareAll
      [.writes ⟨7⟩, .reads ⟨8⟩, .reads ⟨7⟩],
    (((Descriptor.ofBody "score" ()).withId ⟨3⟩).withTag ⟨2⟩).declareAll [.writes ⟨9⟩]]

def mirroredCrew : List (Descriptor Unit) :=
  [((Descriptor.ofBody "draw" ()).withId ⟨4⟩).declareAll
      [.avoids ⟨~~~2⟩, .reads ⟨~~~7⟩, .avoids ⟨~~~2⟩],
    ((((Descriptor.ofBody "move" ()).withId ⟨2⟩).withTag ⟨~~~1⟩).withPriority 1).declareAll
      [.reads ⟨~~~7⟩, .reads ⟨~~~8⟩, .writes ⟨~~~7⟩, .reads ⟨~~~8⟩],
    (((Descriptor.ofBody "score" ()).withId ⟨3⟩).withTag ⟨~~~2⟩).declareAll
      [.writes ⟨~~~9⟩, .writes ⟨~~~9⟩]]

theorem forall₂_respells_crew : List.Forall₂ mirrored.Respells crew mirroredCrew := by
  have hsame : ∀ {calls calls' : List Declaration},
      calls' ⊆ calls.map mirrored.declaration → calls.map mirrored.declaration ⊆ calls' →
        ∀ call, call ∈ calls' ↔ call ∈ calls.map mirrored.declaration :=
    fun hleft hright call => ⟨@hleft call, @hright call⟩
  have hcalls : ∀ {descriptor : Descriptor Unit} {calls : List Declaration},
      descriptor.blank = descriptor → (descriptor.declareAll calls).IsDeclaredBy calls :=
    Descriptor.isDeclaredBy_declareAll
  exact .cons (mirrored.respells_declareAll (hcalls rfl) (hsame (by decide) (by decide)))
    (.cons (mirrored.respells_declareAll (hcalls rfl) (hsame (by decide) (by decide)))
      (.cons (mirrored.respells_declareAll (hcalls rfl) (hsame (by decide) (by decide))) .nil))

/-- A pair of tags, declared twice under the mirrored values. -/
theorem respellsOrder_crew : mirrored.RespellsOrder (TagOrder.ofPairs [(⟨1⟩, ⟨2⟩)])
    (TagOrder.ofPairs [(⟨~~~1⟩, ⟨~~~2⟩), (⟨~~~1⟩, ⟨~~~2⟩)]) :=
  ⟨_, _, rfl, rfl, by simp [Respelling.pair, mirrored]⟩

/-- A ring of tags, declared the other way round under the mirrored values. -/
theorem respellsOrder_ring : mirrored.RespellsOrder (TagOrder.ofPairs [(⟨1⟩, ⟨2⟩), (⟨2⟩, ⟨1⟩)])
    (TagOrder.ofPairs [(⟨~~~2⟩, ⟨~~~1⟩), (⟨~~~1⟩, ⟨~~~2⟩)]) :=
  ⟨_, _, rfl, rfl, by simp [Respelling.pair, mirrored, or_comm]⟩

theorem build_eq_of_respells_mirroredCrew :
    List.Forall₂ mirrored.Respells crew mirroredCrew ∧
      mirrored.RespellsOrder (TagOrder.ofPairs [(⟨1⟩, ⟨2⟩)])
        (TagOrder.ofPairs [(⟨~~~1⟩, ⟨~~~2⟩), (⟨~~~1⟩, ⟨~~~2⟩)]) ∧
      mirrored.RespellsOrder (TagOrder.ofPairs [(⟨1⟩, ⟨2⟩), (⟨2⟩, ⟨1⟩)])
        (TagOrder.ofPairs [(⟨~~~2⟩, ⟨~~~1⟩), (⟨~~~1⟩, ⟨~~~2⟩)]) ∧
      StrictMonoOn mirrored.priority
        {priority | ∃ descriptor ∈ crew, descriptor.priority = priority} ∧
      (build crew (TagOrder.ofPairs [(⟨1⟩, ⟨2⟩)]) 1).toOption.map waves =
        some [⟨[⟨2⟩], [1]⟩, ⟨[⟨4⟩], [0]⟩, ⟨[⟨3⟩], [2]⟩] ∧
      build mirroredCrew (TagOrder.ofPairs [(⟨~~~1⟩, ⟨~~~2⟩), (⟨~~~1⟩, ⟨~~~2⟩)]) 1 =
        build crew (TagOrder.ofPairs [(⟨1⟩, ⟨2⟩)]) 1 ∧
      build mirroredCrew (TagOrder.ofPairs [(⟨~~~2⟩, ⟨~~~1⟩), (⟨~~~1⟩, ⟨~~~2⟩)]) 1 =
        .error ⟨[⟨4⟩, ⟨3⟩, ⟨2⟩]⟩ := by
  have hpriority : StrictMonoOn mirrored.priority
      {priority | ∃ descriptor ∈ crew, descriptor.priority = priority} := by
    have hcrew : ∀ descriptor ∈ crew, descriptor.priority = 0 ∨ descriptor.priority = 5 := by
      decide
    intro lower hlower upper hupper hlt
    obtain ⟨descriptor, hin, rfl⟩ := hlower
    obtain ⟨other, hin', rfl⟩ := hupper
    have hlow := hcrew descriptor hin
    have hhigh := hcrew other hin'
    dsimp only [mirrored]
    omega
  refine ⟨forall₂_respells_crew, respellsOrder_crew, respellsOrder_ring, hpriority, ?_, ?_, ?_⟩
  · decide +kernel
  · exact build_eq_of_respells forall₂_respells_crew respellsOrder_crew hpriority 1
  · rw [build_eq_of_respells forall₂_respells_crew respellsOrder_ring hpriority 1]
    cbv

end Plan

end TickWaves
