/-!
# The bytes of a text

Hashing and the order of names work on the UTF-8 bytes of a text.  A place in a text is
the number of bytes in front of it; a text can only be cut at the places between its
characters.
-/

namespace TickWaves.Text

def bytes (text : String) : List UInt8 :=
  text.toList.flatMap String.utf8EncodeChar

@[simp]
theorem bytes_append (left right : String) :
    bytes (left ++ right) = bytes left ++ bytes right := by
  simp [bytes]

def byteLength : List Char → Nat
  | [] => 0
  | char :: rest => char.utf8Size + byteLength rest

/-- The characters in front of a place and those behind it, unless the place is inside a
character or beyond the end. -/
def cutAt? : List Char → Nat → Option (List Char × List Char)
  | rest, 0 => some ([], rest)
  | [], _ + 1 => none
  | char :: rest, place =>
      if char.utf8Size ≤ place then
        (cutAt? rest (place - char.utf8Size)).map fun (front, back) => (char :: front, back)
      else none

/-- The characters between two places, unless one of these is inside a character. -/
def between? (chars : List Char) (start stop : Nat) : Option (List Char) := do
  let (_, back) ← cutAt? chars start
  let (part, _) ← cutAt? back (stop - start)
  return part

end TickWaves.Text
