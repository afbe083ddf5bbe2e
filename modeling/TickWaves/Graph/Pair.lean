import TickWaves.System.Descriptor

/-!
# Pairs of systems in conflict

Every two systems of a list are compared.  A pair names two positions of the list, so it
cannot point outside it; which of the two goes first is not decided here.
-/

namespace TickWaves

universe u

/-- Two positions in a list of `count` systems. -/
structure SystemPair (count : Nat) where
  first : Fin count
  second : Fin count
  deriving DecidableEq

namespace SystemPair

variable {β : Type u}

def ofNats? (count first second : Nat) : Option (SystemPair count) :=
  if hfirst : first < count then
    if hsecond : second < count then some ⟨⟨first, hfirst⟩, ⟨second, hsecond⟩⟩ else none
  else none

/-- All pairs of systems in conflict, the earlier one first, in lexicographic order. -/
def conflicting (systems : List (Descriptor β)) : List (SystemPair systems.length) :=
  (List.finRange systems.length).flatMap fun first =>
    (List.finRange systems.length).filterMap fun second =>
      if first < second ∧ systems[first].conflicts systems[second] then
        some ⟨first, second⟩
      else none

end SystemPair

end TickWaves
