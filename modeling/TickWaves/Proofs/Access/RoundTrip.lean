import TickWaves.Access.Text
import TickWaves.Proofs.Access.Calls
import TickWaves.Proofs.Json.Layout

/-!
# Reading what was written

Written out, a declaration is a record of two lists.  Read back, the lists go through the calls
that add reads and writes, so any two lists are read as the declaration that these calls make
(`Access.ofText_eq_performAll`), and a declaration that was written out is read back as it was.
It makes no difference which of the fields comes first, whether the lists stand in a record or in a
sequence, and where blanks stand between the tokens.
-/

namespace TickWaves

open Json

namespace Access

def listDocument (ids : List ComponentId) : Document :=
  .list (ids.map fun id => .number id.word.toNat)

def readsField (ids : List ComponentId) : String × Document := (readsName, listDocument ids)

def writesField (ids : List ComponentId) : String × Document := (writesName, listDocument ids)

/-- The document has the two lists, as the fields of a record or as the items of a sequence. -/
def Holds (reads writes : List ComponentId) (document : Document) : Prop :=
  document = .record [readsField reads, writesField writes] ∨
    document = .record [writesField writes, readsField reads] ∨
    document = .list [listDocument reads, listDocument writes]

section Identifiers

variable {id : ComponentId} {ids : List ComponentId} {tokens : List (List Char)} {text : List Char}

def idToken (id : ComponentId) : List Char := (toString id.word.toNat).toList

/-- The tokens of identifiers that follow another one in a list. -/
def moreTokens (ids : List ComponentId) : List (List Char) :=
  ids.flatMap fun id => [[','], idToken id]

theorem moreTokens_cons : moreTokens (id :: ids) = [','] :: idToken id :: moreTokens ids := rfl

theorem itemsTokens_ids (ids : List ComponentId) :
    Document.itemsTokens (ids.map fun id => .number id.word.toNat) =
      ids.map fun id => [idToken id] := by
  induction ids with
  | nil => rfl
  | cons id ids ih => exact congrArg ([idToken id] :: ·) ih

theorem tokens_listDocument_cons :
    (listDocument (id :: ids)).tokens = ['['] :: idToken id :: (moreTokens ids ++ [[']']]) := by
  rw [listDocument, Document.tokens, itemsTokens_ids, List.map_cons, intercalate_cons,
    List.flatMap_map]
  rfl

theorem exists_idToken_eq (id : ComponentId) :
    ∃ char chars, idToken id = char :: chars ∧ char.isDigit = true := by
  cases hdigits : Nat.toDigits 10 id.word.toNat with
  | nil => exact absurd hdigits Nat.toDigits_ne_nil
  | cons char chars =>
      refine ⟨char, chars, ?_, ?_⟩
      · rw [idToken, Nat.toString_eq_repr, Nat.toList_repr, hdigits]
      · exact Nat.isDigit_of_mem_toDigits (by decide) (Nat.le_refl 10)
          (hdigits ▸ List.mem_cons_self)

theorem isBlank_of_isDigit {char : Char} (hdigit : char.isDigit = true) : isBlank char = false := by
  cases hblank : isBlank char with
  | false => rfl
  | true =>
      have hnot := continuesNumber_of_isBlank hblank
      simp [continuesNumber, hdigit] at hnot

/-- An identifier is read back where no number goes on behind it. -/
theorem exists_readId_eq {char : Char} {chars : List Char}
    (hlaid : LaidOut (idToken id :: (char :: chars) :: tokens) text)
    (hchar : continuesNumber char = false) :
    ∃ first rest after, skipBlanks text = first :: rest ∧ first.isDigit = true ∧
      readId text = .ok (id, after) ∧ LaidOut ((char :: chars) :: tokens) after := by
  obtain ⟨first, digits, htoken, hdigit⟩ := exists_idToken_eq id
  rw [htoken] at hlaid
  obtain ⟨after, hskip, hafter⟩ := hlaid.exists_skipBlanks_eq (isBlank_of_isDigit hdigit)
  refine ⟨first, digits ++ after, after, hskip, hdigit, ?_, hafter⟩
  have hnumber : number false (idToken id ++ after) = .ok (some id.word.toNat, after) :=
    number_toString id.word.toNat_lt (hafter.any_continuesNumber hchar)
  rw [htoken, List.cons_append] at hnumber
  simp only [readId, hskip, hdigit, if_true, hnumber, UInt64.ofNat_toNat]

theorem readMoreIds_closing {rest : List Char} (hskip : skipBlanks text = ']' :: rest) :
    readMoreIds text = .ok ([], rest) := by
  rw [readMoreIds]
  split <;> simp_all

theorem readMoreIds_comma {rest after last : List Char} {char : Char} {chars : List Char}
    (hskip : skipBlanks text = ',' :: rest) (hnext : skipBlanks rest = char :: chars)
    (hchar : char ≠ ']') (hid : readId rest = .ok (id, after))
    (hmore : readMoreIds after = .ok (ids, last)) :
    readMoreIds text = .ok (id :: ids, last) := by
  rw [readMoreIds]
  split
  case h_3 heq =>
    rw [hskip] at heq
    cases heq
    rw [hnext]
    split
    case h_1 heq => cases heq
    case h_2 heq =>
      cases heq
      exact absurd rfl hchar
    case h_3 =>
      split
      case h_1 heq =>
        rw [hid] at heq
        cases heq
      case h_2 heq =>
        rw [hid] at heq
        cases heq
        rw [hmore]
  all_goals simp_all

/-- What follows an identifier of a list continues no number. -/
theorem exists_moreTokens_eq (ids : List ComponentId) (tokens : List (List Char)) :
    ∃ char more, moreTokens ids ++ [']'] :: tokens = [char] :: more ∧
      continuesNumber char = false := by
  cases ids with
  | nil => exact ⟨']', tokens, rfl, by decide⟩
  | cons id ids => exact ⟨',', idToken id :: (moreTokens ids ++ [']'] :: tokens), rfl, by decide⟩

theorem exists_readMoreIds_eq (hlaid : LaidOut (moreTokens ids ++ [']'] :: tokens) text) :
    ∃ rest, readMoreIds text = .ok (ids, rest) ∧ LaidOut tokens rest := by
  induction ids generalizing text with
  | nil =>
      obtain ⟨rest, hskip, hrest⟩ := hlaid.exists_skipBlanks_eq_singleton (by decide)
      exact ⟨rest, readMoreIds_closing hskip, hrest⟩
  | cons id ids ih =>
      rw [moreTokens_cons, List.cons_append, List.cons_append] at hlaid
      obtain ⟨rest, hskip, hrest⟩ := hlaid.exists_skipBlanks_eq_singleton (by decide)
      obtain ⟨char, more, hmore, hchar⟩ := exists_moreTokens_eq ids tokens
      rw [hmore] at hrest
      obtain ⟨first, digits, after, hnext, hdigit, hid, hafter⟩ := exists_readId_eq hrest hchar
      rw [← hmore] at hafter
      obtain ⟨last, hlast, htokens⟩ := ih hafter
      refine ⟨last, readMoreIds_comma hskip hnext ?_ hid hlast, htokens⟩
      rintro rfl
      cases hdigit

/-- A list of identifiers is read back in the order in which it was written. -/
theorem exists_readIds_eq (hlaid : LaidOut ((listDocument ids).tokens ++ tokens) text) :
    ∃ rest, readIds text = .ok (ids, rest) ∧ LaidOut tokens rest := by
  cases ids with
  | nil =>
      have hlaid : LaidOut (['['] :: [']'] :: tokens) text := hlaid
      obtain ⟨inner, hskip, hinner⟩ := hlaid.exists_skipBlanks_eq_singleton (by decide)
      obtain ⟨rest, hclosing, hrest⟩ := hinner.exists_skipBlanks_eq_singleton (by decide)
      refine ⟨rest, ?_, hrest⟩
      simp only [readIds, hskip, hclosing]
  | cons id ids =>
      rw [tokens_listDocument_cons, List.cons_append, List.cons_append, List.append_assoc,
        List.singleton_append] at hlaid
      obtain ⟨inner, hskip, hinner⟩ := hlaid.exists_skipBlanks_eq_singleton (by decide)
      obtain ⟨char, more, hmore, hchar⟩ := exists_moreTokens_eq ids tokens
      rw [hmore] at hinner
      obtain ⟨first, digits, after, hnext, hdigit, hid, hafter⟩ := exists_readId_eq hinner hchar
      rw [← hmore] at hafter
      obtain ⟨rest, hrest, htokens⟩ := exists_readMoreIds_eq hafter
      refine ⟨rest, ?_, htokens⟩
      simp only [readIds, hskip, hnext]
      split
      case h_1 heq => cases heq
      case h_2 heq =>
        cases heq
        cases hdigit
      case h_3 => simp only [hid, hrest]

end Identifiers

section Fields

variable {lists lists' : Lists} {ids : List ComponentId}
variable {tokens : List (List Char)} {text : List Char}

theorem exists_readList_eq (hlaid : LaidOut ([':'] :: ((listDocument ids).tokens ++ tokens)) text) :
    ∃ rest, readList false text = .ok (ids, rest) ∧ LaidOut tokens rest := by
  obtain ⟨value, hskip, hvalue⟩ := hlaid.exists_skipBlanks_eq_singleton (by decide)
  obtain ⟨rest, hids, hrest⟩ := exists_readIds_eq hvalue
  refine ⟨rest, ?_, hrest⟩
  simp only [readList, Bool.false_eq_true, if_false, readColon, hskip, hids]

/-- A field of a plain name is read up to its list. -/
theorem exists_field_eq {name : String} (hplain : ∀ char ∈ name.toList, isPlain char = true)
    (hlaid : LaidOut (Document.fieldTokens (name, listDocument ids) ++ tokens) text) :
    ∃ opened value rest, skipBlanks text = '"' :: opened ∧
      quotedText opened = .ok (name.toList, value) ∧ readList false value = .ok (ids, rest) ∧
      LaidOut tokens rest := by
  rw [Document.fieldTokens, toList_quoted hplain] at hlaid
  obtain ⟨value, hskip, hvalue⟩ := hlaid.exists_skipBlanks_eq (by decide)
  obtain ⟨rest, hlist, hrest⟩ := exists_readList_eq hvalue
  rw [List.append_assoc, List.singleton_append] at hskip
  exact ⟨_, value, rest, hskip, quotedText_append hplain value, hlist, hrest⟩

/-- Reading a field changes what has been read of the lists. -/
def Takes (lists : Lists) (field : String × Document) (lists' : Lists) : Prop :=
  ∀ {tokens text}, LaidOut (Document.fieldTokens field ++ tokens) text →
    ∃ opened rest, skipBlanks text = '"' :: opened ∧ readField lists opened = .ok (lists', rest) ∧
      LaidOut tokens rest

theorem isPlain_readsName : ∀ char ∈ readsName.toList, isPlain char = true :=
  List.all_eq_true.mp (by decide)

theorem isPlain_writesName : ∀ char ∈ writesName.toList, isPlain char = true :=
  List.all_eq_true.mp (by decide)

theorem takes_readsField (hnone : lists.reads? = none) :
    Takes lists (readsField ids) { lists with reads? := some ids } := by
  intro tokens text hlaid
  obtain ⟨opened, value, rest, hskip, hname, hlist, hrest⟩ :=
    exists_field_eq isPlain_readsName hlaid
  refine ⟨opened, rest, hskip, ?_, hrest⟩
  simp only [readField, hname, if_true, hnone, Option.isSome_none, hlist]

theorem takes_writesField (hnone : lists.writes? = none) :
    Takes lists (writesField ids) { lists with writes? := some ids } := by
  intro tokens text hlaid
  obtain ⟨opened, value, rest, hskip, hname, hlist, hrest⟩ :=
    exists_field_eq isPlain_writesName hlaid
  refine ⟨opened, rest, hskip, ?_, hrest⟩
  have hother : ¬ writesName.toList = readsName.toList := by decide
  simp only [readField, hname, if_neg hother, if_true, hnone, Option.isSome_none, hlist]

theorem readMoreFields_closing {rest : List Char} (hskip : skipBlanks text = '\x7d' :: rest) :
    readMoreFields lists text = .ok (lists, rest) := by
  rw [readMoreFields]
  split <;> simp_all

theorem readMoreFields_comma {next opened after : List Char} (hskip : skipBlanks text = ',' :: next)
    (hopened : skipBlanks next = '"' :: opened)
    (hfield : readField lists opened = .ok (lists', after)) :
    readMoreFields lists text = readMoreFields lists' after := by
  rw [readMoreFields]
  split
  case h_3 heq =>
    rw [hskip] at heq
    cases heq
    split
    case h_2 heq =>
      rw [hopened] at heq
      cases heq
      split
      case h_1 heq =>
        rw [hfield] at heq
        cases heq
      case h_2 heq =>
        rw [hfield] at heq
        cases heq
        rfl
    all_goals simp_all
  all_goals simp_all

/-- A record is read field by field. -/
theorem exists_readLists_record {field field' : String × Document}
    (htakes : Takes ⟨none, none⟩ field lists) (htakes' : Takes lists field' lists')
    (hlaid : LaidOut (Document.record [field, field']).tokens text) :
    ∃ rest, readLists text = .ok (lists', rest) ∧ LaidOut [] rest := by
  have htokens : (Document.record [field, field']).tokens =
      ['\x7b'] :: (Document.fieldTokens field ++
        [','] :: (Document.fieldTokens field' ++ [['\x7d']])) := by
    simp [Document.tokens, Document.fieldsTokens]
  rw [htokens] at hlaid
  obtain ⟨inner, hskip, hinner⟩ := hlaid.exists_skipBlanks_eq_singleton (by decide)
  obtain ⟨opened, after, hopened, hfield, hafter⟩ := htakes hinner
  obtain ⟨next, hcomma, hnext⟩ := hafter.exists_skipBlanks_eq_singleton (by decide)
  obtain ⟨opened', after', hopened', hfield', hafter'⟩ := htakes' hnext
  obtain ⟨rest, hclosing, hrest⟩ := hafter'.exists_skipBlanks_eq_singleton (by decide)
  refine ⟨rest, ?_, hrest⟩
  calc
    readLists text = readMoreFields lists after := by
      simp only [readLists, hskip, readRecord, hopened, hfield]
    _ = readMoreFields lists' after' := readMoreFields_comma hcomma hopened' hfield'
    _ = .ok (lists', rest) := readMoreFields_closing hclosing

/-- A list of identifiers starts with its bracket. -/
theorem exists_tokens_listDocument_eq (ids : List ComponentId) :
    ∃ more, (listDocument ids).tokens = ['['] :: more :=
  ⟨_, rfl⟩

/-- A sequence is read list by list. -/
theorem exists_readLists_sequence {reads writes : List ComponentId}
    (hlaid : LaidOut (Document.list [listDocument reads, listDocument writes]).tokens text) :
    ∃ rest, readLists text = .ok (⟨some reads, some writes⟩, rest) ∧ LaidOut [] rest := by
  have htokens : (Document.list [listDocument reads, listDocument writes]).tokens =
      ['['] :: ((listDocument reads).tokens ++
        [','] :: ((listDocument writes).tokens ++ [[']']])) := by
    simp [Document.tokens, Document.itemsTokens]
  rw [htokens] at hlaid
  obtain ⟨inner, hskip, hinner⟩ := hlaid.exists_skipBlanks_eq_singleton (by decide)
  obtain ⟨after, hreads, hafter⟩ := exists_readIds_eq hinner
  obtain ⟨next, hcomma, hnext⟩ := hafter.exists_skipBlanks_eq_singleton (by decide)
  obtain ⟨after', hwrites, hafter'⟩ := exists_readIds_eq hnext
  obtain ⟨rest, hclosing, hrest⟩ := hafter'.exists_skipBlanks_eq_singleton (by decide)
  refine ⟨rest, ?_, hrest⟩
  -- Each list starts with a bracket of its own, so neither of them is taken for missing.
  obtain ⟨more, hmore⟩ := exists_tokens_listDocument_eq reads
  rw [hmore] at hinner
  obtain ⟨first, hfirst, -⟩ := LaidOut.exists_skipBlanks_eq_singleton hinner (by decide)
  obtain ⟨more', hmore'⟩ := exists_tokens_listDocument_eq writes
  rw [hmore'] at hnext
  obtain ⟨second, hsecond, -⟩ := LaidOut.exists_skipBlanks_eq_singleton hnext (by decide)
  simp only [readLists, hskip, readSequence, hfirst, hreads, readSecondList, hcomma, hsecond,
    hwrites, readClosing, hclosing]
  rfl

end Fields

section Read

variable {reads writes : List ComponentId} {document : Document} {text : String}

/-- Reading the lists makes the calls: first the writes, then the reads. -/
theorem ofLists_eq_performAll (reads writes : List ComponentId) :
    ofLists reads writes = empty.performAll (writes.map .write ++ reads.map .read) := by
  rw [ofLists, performAll, List.foldl_append, List.foldl_map, List.foldl_map]
  rfl

theorem ofText_eq_ofLists (hholds : Holds reads writes document)
    (hlaid : LaidOut document.tokens text.toList) : ofText text = .ok (ofLists reads writes) := by
  have hread : ∃ rest, readLists text.toList = .ok (⟨some reads, some writes⟩, rest) ∧
      LaidOut [] rest := by
    rcases hholds with rfl | rfl | rfl
    · exact exists_readLists_record (takes_readsField rfl) (takes_writesField rfl) hlaid
    · exact exists_readLists_record (takes_writesField rfl) (takes_readsField rfl) hlaid
    · exact exists_readLists_sequence hlaid
  obtain ⟨rest, hlists, hrest⟩ := hread
  simp only [ofText, hlists, hrest.skipBlanks_eq_nil]
  rfl

def numbers (ids : List ComponentId) : String :=
  String.intercalate "," (ids.map fun id => toString id.word.toNat)

theorem compact_listDocument (ids : List ComponentId) :
    (listDocument ids).compact = "[" ++ numbers ids ++ "]" := by
  have hitems : Document.compactItems (ids.map fun id => .number id.word.toNat) =
      ids.map fun id => toString id.word.toNat := by
    induction ids with
    | nil => rfl
    | cons id ids ih => exact congrArg (toString id.word.toNat :: ·) ih
  rw [listDocument, Document.compact, hitems]
  rfl

/-- What is written out is a record of the two lists, without blanks. -/
theorem toText_eq (access : Access) :
    access.toText = "\x7b\"reads\":[" ++ numbers access.reads.toList ++ "],\"writes\":[" ++
      numbers access.writes.toList ++ "]\x7d" := by
  have hreads : Document.compactField (readsName, idsDocument access.reads) =
      "\"reads\":" ++ ("[" ++ numbers access.reads.toList ++ "]") :=
    congrArg ("\"reads\":" ++ ·) (compact_listDocument access.reads.toList)
  have hwrites : Document.compactField (writesName, idsDocument access.writes) =
      "\"writes\":" ++ ("[" ++ numbers access.writes.toList ++ "]") :=
    congrArg ("\"writes\":" ++ ·) (compact_listDocument access.writes.toList)
  apply String.toList_inj.mp
  simp [toText, Access.document, Document.compact, Document.compactFields, hreads, hwrites,
    Document.toList_commaSeparated, List.intercalate_cons_cons]

/-- A text that gives two lists, in any of the forms and with any blanks between the tokens, is
read as the declaration that the calls for these lists make, in whatever order they are made.  So
a declaration that was written out is read back as it was. -/
theorem ofText_eq_performAll {calls : List Call}
    (hcalls : calls.Perm (reads.map .read ++ writes.map .write))
    (hholds : Holds reads writes document) (hlaid : LaidOut document.tokens text.toList) :
    ofText text = .ok (empty.performAll calls) ∧
      ofText document.compact = .ok (empty.performAll calls) ∧
      ∀ access : Access,
        access.toText = "\x7b\"reads\":[" ++ numbers access.reads.toList ++ "],\"writes\":[" ++
          numbers access.writes.toList ++ "]\x7d" ∧
        ofText access.toText = .ok access := by
  have hlists : ofLists reads writes = empty.performAll calls := by
    rw [ofLists_eq_performAll]
    exact performAll_eq_of_perm (List.perm_append_comm.trans hcalls.symm)
  refine ⟨?_, ?_, ?_⟩
  · rw [← hlists]
    exact ofText_eq_ofLists hholds hlaid
  · rw [← hlists]
    exact ofText_eq_ofLists hholds document.laidOut_compact
  · intro access
    refine ⟨toText_eq access, ?_⟩
    calc
      ofText access.toText = .ok (ofLists access.reads.toList access.writes.toList) :=
        ofText_eq_ofLists (Or.inl rfl) access.document.laidOut_compact
      _ = .ok access := by
        rw [ofLists_eq_performAll, performAll_eq_of_perm List.perm_append_comm,
          performAll_reads_writes]

/-- The lists may overlap and repeat, and the calls may come in another order. -/
theorem ofText_overlapping :
    [Call.write ⟨1⟩, .read ⟨3⟩, .read ⟨1⟩, .read ⟨3⟩].Perm
        ([⟨3⟩, ⟨1⟩, ⟨3⟩].map .read ++ [⟨1⟩].map .write) ∧
      Holds [⟨3⟩, ⟨1⟩, ⟨3⟩] [⟨1⟩] (.record [writesField [⟨1⟩], readsField [⟨3⟩, ⟨1⟩, ⟨3⟩]]) ∧
      ofText "\x7b\"writes\":[1],\"reads\":[3,1,3]\x7d" =
        .ok (empty.performAll [.write ⟨1⟩, .read ⟨3⟩, .read ⟨1⟩, .read ⟨3⟩]) := by
  have hcalls : [Call.write ⟨1⟩, .read ⟨3⟩, .read ⟨1⟩, .read ⟨3⟩].Perm
      ([⟨3⟩, ⟨1⟩, ⟨3⟩].map .read ++ [⟨1⟩].map .write) := by decide
  have hholds : Holds [⟨3⟩, ⟨1⟩, ⟨3⟩] [⟨1⟩]
      (.record [writesField [⟨1⟩], readsField [⟨3⟩, ⟨1⟩, ⟨3⟩]]) := Or.inr (Or.inl rfl)
  refine ⟨hcalls, hholds, ?_⟩
  exact (ofText_eq_performAll hcalls hholds (Document.laidOut_compact _)).2.1

end Read

end Access

end TickWaves
