import Mathlib.Logic.Equiv.Defs
import TickWaves.Ident

/-!
# Hashing permutes the states

A byte is xored into the state, which can be undone by the same byte, and the product with an odd
prime can be undone by the inverse of the prime modulo `2^64`.  So every byte permutes the states
(`Fnv.stepPerm`): texts may collide, but one text never leads from two states to one.  A resource
is hashed from the state that its mark leaves, and for that reason never gets the identifier of
the component that has its name (`ComponentId.resource_ne_ofName`).
-/

namespace TickWaves

namespace Fnv

def inversePrime : UInt64 := 0xce965057aff6957b

theorem prime_mul_inversePrime : prime * inversePrime = 1 := by decide

theorem inversePrime_mul_prime : inversePrime * prime = 1 := by
  rw [UInt64.mul_comm, prime_mul_inversePrime]

/-- What a byte does to the states, and how this is undone. -/
def stepPerm (byte : UInt8) : Equiv.Perm UInt64 where
  toFun state := step state byte
  invFun state := state * inversePrime ^^^ byte.toUInt64
  left_inv state := by
    calc
      (state ^^^ byte.toUInt64) * prime * inversePrime ^^^ byte.toUInt64
          = (state ^^^ byte.toUInt64) ^^^ byte.toUInt64 := by
        rw [UInt64.mul_assoc, prime_mul_inversePrime, UInt64.mul_one]
      _ = state := by rw [UInt64.xor_assoc, UInt64.xor_self, UInt64.xor_zero]
  right_inv state := by
    calc
      (state * inversePrime ^^^ byte.toUInt64 ^^^ byte.toUInt64) * prime
          = state * inversePrime * prime := by
        rw [UInt64.xor_assoc, UInt64.xor_self, UInt64.xor_zero]
      _ = state := by rw [UInt64.mul_assoc, inversePrime_mul_prime, UInt64.mul_one]

/-- Any bytes lead from different states to different states, and from some state to each. -/
theorem bijective_continued (bytes : List UInt8) :
    Function.Bijective fun state => continued state bytes := by
  induction bytes with
  | nil => exact Function.bijective_id
  | cons byte bytes ih => exact ih.comp (stepPerm byte).bijective

/-- What stands in front of a text changes its hash, unless it leaves the first state. -/
theorem ofText_append_eq_iff (front text : String) :
    ofText (front ++ text) = ofText text ↔ ofText front = offsetBasis := by
  simp only [ofText, Text.bytes_append, continued_append]
  exact (bijective_continued (Text.bytes text)).injective.eq_iff

end Fnv

namespace ComponentId

theorem ofText_resourceMark_ne : Fnv.ofText resourceMark ≠ Fnv.offsetBasis := by decide

/-- A resource never has the identifier of the component with the same name: it has that of the
component that is called as the resource is in full, since a hash may be fed in pieces. -/
theorem resource_ne_ofName (name : String) (state : UInt64) (front back : List UInt8) :
    resource name ≠ ofName name ∧
      resource name = ofName ("resource:" ++ name) ∧
      Fnv.continued (Fnv.continued state front) back = Fnv.continued state (front ++ back) := by
  have happart : resource name ≠ ofName name := by
    intro heq
    rw [resource_eq_ofName] at heq
    have hhash : Fnv.ofText (resourceMark ++ name) = Fnv.ofText name := congrArg word heq
    exact ofText_resourceMark_ne ((Fnv.ofText_append_eq_iff resourceMark name).mp hhash)
  exact ⟨happart, resource_eq_ofName name, (Fnv.continued_append state front back).symm⟩

end ComponentId

end TickWaves
