import TickWaves.Ident
import TickWaves.Order.KeySet
import TickWaves.Order.Reach

/-!
# The order of sequence tags

Pairs of tags are declared: the systems of the first run before the systems of the
second.  The order is the transitive closure of the declared pairs
(`TagOrder.precedes`), also through tags that no system carries, and it may be cyclic.
-/

namespace TickWaves

instance : Keyed (Tag × Tag) where
  key pair := pair.1.word.toNat * UInt64.size + pair.2.word.toNat
  key_injective {a b} heq := by
    obtain ⟨⟨a₁⟩, ⟨a₂⟩⟩ := a
    obtain ⟨⟨b₁⟩, ⟨b₂⟩⟩ := b
    have ha := a₂.toNat_lt
    have hb := b₂.toNat_lt
    simp only [UInt64.size] at heq
    have hfirst : a₁ = b₁ := UInt64.toNat_inj.mp (by omega)
    have hsecond : a₂ = b₂ := UInt64.toNat_inj.mp (by omega)
    rw [hfirst, hsecond]

/-- The declared pairs of tags. -/
structure TagOrder where
  /-- Every declared pair: the tag that comes before, and the one that comes after. -/
  pairs : KeySet (Tag × Tag)
  deriving DecidableEq, Inhabited

namespace TagOrder

def empty : TagOrder := ⟨KeySet.empty⟩

def isEmpty (order : TagOrder) : Bool := order.pairs.isEmpty

/-- Declares that the systems of one tag run before those of another one. -/
def declare (order : TagOrder) (before after : Tag) : TagOrder :=
  ⟨order.pairs.insert (before, after)⟩

def ofPairs (pairs : List (Tag × Tag)) : TagOrder :=
  pairs.foldl (fun order pair => order.declare pair.1 pair.2) empty

/-- The order in which each tag of a list comes before the next one. -/
def chain (tags : List Tag) : TagOrder :=
  ofPairs (tags.zip tags.tail)

def declaredAfter (order : TagOrder) (tag : Tag) : List Tag :=
  order.pairs.toList.filterMap fun pair => if pair.1 = tag then some pair.2 else none

def laterTags (order : TagOrder) : KeySet Tag :=
  KeySet.ofList (order.pairs.toList.map Prod.snd)

/-- The tags that come after a tag, directly or through other tags. -/
def reachableFrom (order : TagOrder) (tag : Tag) : KeySet Tag :=
  KeySet.ofList (Reach.reached order.declaredAfter order.laterTags.toList tag)

/-- Whether one tag comes before another one, directly or through other tags. -/
def precedes (order : TagOrder) (before after : Tag) : Bool :=
  decide (after ∈ order.reachableFrom before)

@[simp]
theorem mem_pairs_declare {order : TagOrder} {before after : Tag} {pair : Tag × Tag} :
    pair ∈ (order.declare before after).pairs ↔ pair = (before, after) ∨ pair ∈ order.pairs :=
  KeySet.mem_insert

@[simp]
theorem mem_declaredAfter {order : TagOrder} {tag other : Tag} :
    other ∈ order.declaredAfter tag ↔ (tag, other) ∈ order.pairs := by
  simp only [declaredAfter, List.mem_filterMap, Option.ite_none_right_eq_some,
    Option.some.injEq, KeySet.mem_def]
  constructor
  · rintro ⟨⟨first, second⟩, hin, rfl, rfl⟩
    exact hin
  · intro hin
    exact ⟨(tag, other), hin, rfl, rfl⟩

/-- Two orders are equal if the same pairs are declared. -/
theorem ext_pairs {order other : TagOrder}
    (hpairs : ∀ pair, pair ∈ order.pairs ↔ pair ∈ other.pairs) : order = other := by
  cases order
  cases other
  exact congrArg mk (KeySet.ext_mem hpairs)

end TagOrder

end TickWaves
