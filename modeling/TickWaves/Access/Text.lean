import TickWaves.Access.Basic
import TickWaves.Json.Document
import TickWaves.Json.Skip

/-!
# Access declarations as JSON text

A declaration is written as a record of its two lists of identifiers (`Access.toText`).
Reading is more generous (`Access.ofText`): the lists may be in any order, overlap and
repeat, a missing list is empty, fields of other names are skipped, and the two lists
may also stand in a sequence instead of a record.  A list given twice is refused.
-/

namespace TickWaves

open Json

namespace Access

def readsName : String := "reads"

def writesName : String := "writes"

def idsDocument (ids : KeySet ComponentId) : Document :=
  .list (ids.toList.map fun id => .number id.word.toNat)

def document (access : Access) : Document :=
  .record
    [(readsName, idsDocument access.reads), (writesName, idsDocument access.writes)]

def toText (access : Access) : String :=
  access.document.compact

/-! ## Reading -/

/-- What is wrong with a value of the wrong shape: it may break the grammar before its
shape is known. -/
def wrongValue (text : List Char) : Fault :=
  let checked : Except Fault Unit :=
    match text with
    | 'n' :: rest => (word ['u', 'l', 'l'] rest).map fun _ => ()
    | 't' :: rest => (word ['r', 'u', 'e'] rest).map fun _ => ()
    | 'f' :: rest => (word ['a', 'l', 's', 'e'] rest).map fun _ => ()
    | '"' :: rest => (quotedText rest).map fun _ => ()
    | '-' :: rest => (number true rest).map fun _ => ()
    | '[' :: _ => .ok ()
    | '\x7b' :: _ => .ok ()
    | text => (if startsWithDigit text then number false text else .error .malformed).map
        fun _ => ()
  match checked with
  | .error fault => fault
  | .ok _ => .mismatch

/-- Reads an identifier: a natural number of 64 bits. -/
def readId (text : List Char) : Except Fault (ComponentId × List Char) :=
  match skipBlanks text with
  | [] => .error .endOfText
  | first :: rest =>
      if first.isDigit then
        match number false (first :: rest) with
        | .error fault => .error fault
        | .ok (some value, after) => .ok (⟨UInt64.ofNat value⟩, after)
        | .ok (none, _) => .error .mismatch
      else .error (wrongValue (first :: rest))

theorem length_readId_le {text rest : List Char} {id : ComponentId}
    (hread : readId text = .ok (id, rest)) : rest.length ≤ text.length := by
  unfold readId at hread
  have htext := length_skipBlanks_le text
  split at hread
  · simp at hread
  · rename_i first after hafter
    rw [hafter] at htext
    split at hread
    · split at hread
      · simp at hread
      · rename_i last hlast
        have hnumber := length_number_le hlast
        simp only [Except.ok.injEq, Prod.mk.injEq] at hread
        obtain ⟨_, rfl⟩ := hread
        omega
      · simp at hread
    · simp at hread

/-- Reads what follows an identifier of a list, up to the closing bracket. -/
def readMoreIds (text : List Char) : Except Fault (List ComponentId × List Char) :=
  match hblanks : skipBlanks text with
  | [] => .error .endOfText
  | ']' :: rest => .ok ([], rest)
  | ',' :: rest =>
      match skipBlanks rest with
      | [] => .error .endOfText
      | ']' :: _ => .error .malformed
      | _ =>
          match hid : readId rest with
          | .error fault => .error fault
          | .ok (id, after) =>
              have : after.length < text.length := by
                have htext := length_skipBlanks_le text
                have hafter := length_readId_le hid
                rw [hblanks] at htext
                simp only [List.length_cons] at htext
                omega
              match readMoreIds after with
              | .error fault => .error fault
              | .ok (ids, last) => .ok (id :: ids, last)
  | _ => .error .malformed
termination_by text.length

def readIds (text : List Char) : Except Fault (List ComponentId × List Char) :=
  match skipBlanks text with
  | [] => .error .endOfText
  | '[' :: rest =>
      match skipBlanks rest with
      | [] => .error .endOfText
      | ']' :: after => .ok ([], after)
      | _ =>
          match readId rest with
          | .error fault => .error fault
          | .ok (id, after) =>
              match readMoreIds after with
              | .error fault => .error fault
              | .ok (ids, last) => .ok (id :: ids, last)
  | other => .error (wrongValue other)

theorem length_readMoreIds_le {text rest : List Char} {ids : List ComponentId}
    (hread : readMoreIds text = .ok (ids, rest)) : rest.length ≤ text.length := by
  fun_induction readMoreIds text generalizing ids rest with
  | case1 => simp at hread
  | case2 =>
      rename_i text after hafter
      have htext := length_skipBlanks_le text
      rw [hafter] at htext
      simp only [Except.ok.injEq, Prod.mk.injEq] at hread
      obtain ⟨_, rfl⟩ := hread
      simp only [List.length_cons] at htext
      omega
  | case3 => simp at hread
  | case4 => simp at hread
  | case5 => simp at hread
  | case6 => simp at hread
  | case7 =>
      rename_i hlt _ _ hmore _ _ ih
      simp only [Except.ok.injEq, Prod.mk.injEq] at hread
      obtain ⟨_, rfl⟩ := hread
      exact Nat.le_of_lt (Nat.lt_of_le_of_lt (ih hmore) hlt)
  | case8 => simp at hread

theorem length_readIds_le {text rest : List Char} {ids : List ComponentId}
    (hread : readIds text = .ok (ids, rest)) : rest.length ≤ text.length := by
  unfold readIds at hread
  have htext := length_skipBlanks_le text
  split at hread
  · simp at hread
  · rename_i inner hinner
    have hblanks := length_skipBlanks_le inner
    rw [hinner] at htext
    simp only [List.length_cons] at htext
    split at hread
    · simp at hread
    · rename_i after hafter
      rw [hafter] at hblanks
      simp only [Except.ok.injEq, Prod.mk.injEq] at hread
      obtain ⟨_, rfl⟩ := hread
      simp only [List.length_cons] at hblanks
      omega
    · split at hread
      · simp at hread
      · rename_i after hid
        have hafter := length_readId_le hid
        split at hread
        · simp at hread
        · rename_i last hlast
          have hmore := length_readMoreIds_le hlast
          simp only [Except.ok.injEq, Prod.mk.injEq] at hread
          obtain ⟨_, rfl⟩ := hread
          omega
  · simp at hread

/-- The two lists of a declaration as far as they have been read. -/
structure Lists where
  /-- The list of reads, once it has been given. -/
  reads? : Option (List ComponentId)
  /-- The list of writes, once it has been given. -/
  writes? : Option (List ComponentId)

/-- The declaration that the lists make; a list that was not given is empty. -/
def Lists.access (lists : Lists) : Access :=
  ofLists (lists.reads?.getD []) (lists.writes?.getD [])

def readColon (text : List Char) : Except Fault (List Char) :=
  match skipBlanks text with
  | [] => .error .endOfText
  | ':' :: rest => .ok rest
  | _ => .error .malformed

theorem length_readColon_le {text rest : List Char}
    (hread : readColon text = .ok rest) : rest.length ≤ text.length := by
  unfold readColon at hread
  have htext := length_skipBlanks_le text
  split at hread
  · simp at hread
  · rename_i after hafter
    rw [hafter] at htext
    simp only [Except.ok.injEq] at hread
    subst hread
    simp only [List.length_cons] at htext
    omega
  · simp at hread

/-- Reads the value of a field that holds one of the two lists; `given` says whether the
field was read before. -/
def readList (given : Bool) (text : List Char) :
    Except Fault (List ComponentId × List Char) :=
  if given then .error .mismatch
  else
    match readColon text with
    | .error fault => .error fault
    | .ok rest => readIds rest

theorem length_readList_le {given : Bool} {text rest : List Char}
    {ids : List ComponentId} (hread : readList given text = .ok (ids, rest)) :
    rest.length ≤ text.length := by
  unfold readList at hread
  split at hread
  · simp at hread
  split at hread
  · simp at hread
  · rename_i after hafter
    exact Nat.le_trans (length_readIds_le hread) (length_readColon_le hafter)

/-- Reads a field whose opening quote has been taken. -/
def readField (lists : Lists) (text : List Char) : Except Fault (Lists × List Char) :=
  match quotedText text with
  | .error fault => .error fault
  | .ok (name, rest) =>
      if name = readsName.toList then
        match readList lists.reads?.isSome rest with
        | .error fault => .error fault
        | .ok (ids, after) => .ok ({ lists with reads? := some ids }, after)
      else if name = writesName.toList then
        match readList lists.writes?.isSome rest with
        | .error fault => .error fault
        | .ok (ids, after) => .ok ({ lists with writes? := some ids }, after)
      else
        match readColon rest with
        | .error fault => .error fault
        | .ok value =>
            match skipValue value with
            | .error fault => .error fault
            | .ok after => .ok (lists, after)

theorem length_readField_le {lists field : Lists} {text rest : List Char}
    (hread : readField lists text = .ok (field, rest)) : rest.length ≤ text.length := by
  unfold readField at hread
  split at hread
  · simp at hread
  · rename_i name after hname
    have hafter := length_quotedText_le hname
    split at hread
    · split at hread
      · simp at hread
      · rename_i last hlast
        have hlist := length_readList_le hlast
        simp only [Except.ok.injEq, Prod.mk.injEq] at hread
        obtain ⟨_, rfl⟩ := hread
        omega
    split at hread
    · split at hread
      · simp at hread
      · rename_i last hlast
        have hlist := length_readList_le hlast
        simp only [Except.ok.injEq, Prod.mk.injEq] at hread
        obtain ⟨_, rfl⟩ := hread
        omega
    · split at hread
      · simp at hread
      · rename_i value hvalue
        have hcolon := length_readColon_le hvalue
        split at hread
        · simp at hread
        · rename_i last hlast
          have hskip := length_skipValue_le hlast
          simp only [Except.ok.injEq, Prod.mk.injEq] at hread
          obtain ⟨_, rfl⟩ := hread
          omega

/-- Reads what follows a field of a record, up to the closing bracket. -/
def readMoreFields (lists : Lists) (text : List Char) :
    Except Fault (Lists × List Char) :=
  match hblanks : skipBlanks text with
  | [] => .error .endOfText
  | '\x7d' :: rest => .ok (lists, rest)
  | ',' :: rest =>
      match hnext : skipBlanks rest with
      | [] => .error .endOfText
      | '"' :: name =>
          match hfield : readField lists name with
          | .error fault => .error fault
          | .ok (lists, after) =>
              have : after.length < text.length := by
                have htext := length_skipBlanks_le text
                have hrest := length_skipBlanks_le rest
                have hafter := length_readField_le hfield
                rw [hblanks] at htext
                rw [hnext] at hrest
                simp only [List.length_cons] at htext hrest
                omega
              readMoreFields lists after
      | _ => .error .malformed
  | _ => .error .malformed
termination_by text.length

def readRecord (text : List Char) : Except Fault (Lists × List Char) :=
  match skipBlanks text with
  | [] => .error .endOfText
  | '\x7d' :: rest => .ok (⟨none, none⟩, rest)
  | '"' :: name =>
      match readField ⟨none, none⟩ name with
      | .error fault => .error fault
      | .ok (lists, after) => readMoreFields lists after
  | _ => .error .malformed

def readClosing (text : List Char) : Except Fault (List Char) :=
  match skipBlanks text with
  | [] => .error .endOfText
  | ']' :: rest => .ok rest
  | _ => .error .malformed

/-- Reads what follows the first list of a sequence. -/
def readSecondList (reads : List ComponentId) (text : List Char) :
    Except Fault (Lists × List Char) :=
  match skipBlanks text with
  | [] => .error .endOfText
  | ']' :: rest => .ok (⟨some reads, none⟩, rest)
  | ',' :: rest =>
      match skipBlanks rest with
      | [] => .error .endOfText
      | ']' :: _ => .error .malformed
      | _ =>
          match readIds rest with
          | .error fault => .error fault
          | .ok (writes, after) =>
              match readClosing after with
              | .error fault => .error fault
              | .ok last => .ok (⟨some reads, some writes⟩, last)
  | _ => .error .malformed

def readSequence (text : List Char) : Except Fault (Lists × List Char) :=
  match skipBlanks text with
  | [] => .error .endOfText
  | ']' :: rest => .ok (⟨none, none⟩, rest)
  | _ =>
      match readIds text with
      | .error fault => .error fault
      | .ok (reads, after) => readSecondList reads after

/-- Reads the two lists, in a record or in a sequence. -/
def readLists (text : List Char) : Except Fault (Lists × List Char) :=
  match skipBlanks text with
  | [] => .error .endOfText
  | '[' :: rest => readSequence rest
  | '\x7b' :: rest => readRecord rest
  | other => .error (wrongValue other)

/-- Reads a declaration.  Nothing but blanks may follow it. -/
def ofText (text : String) : Except Fault Access :=
  match readLists text.toList with
  | .error fault => .error fault
  | .ok (lists, rest) =>
      if (skipBlanks rest).isEmpty then .ok lists.access else .error .malformed

end Access

end TickWaves
