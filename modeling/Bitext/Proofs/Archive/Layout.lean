import Bitext.Archive.Layout
import Bitext.Proofs.Archive.Stored
import Bitext.Proofs.Unicode.Utf8
import Mathlib.Data.List.Forall2

/-!
# Written archives read back

An archive is found by its end record, which is the last thing in it: whatever looks like an end
record behind that place is too short to be one.  From there the directory is read entry by entry,
and each entry leads to the record of its member.

## Main definitions

* `Fits`: the members are numbered and placed by the fields there are for it.
* `Stores`: the bytes hold the members, whichever way they were packed.

## Main results

* `entry?_directoryEntry`: an entry leads to the data of its member
* `entries?_encode`: what is listed of a written archive
* `stores_encode`: a written archive holds its members
-/

namespace Bitext.Archive

open Bitext.Bytes (little length_little field?_little field?_append_right field?_add field?_eq_none)
open Bitext.Unicode (Glyph)

variable {m : Member} {ms : List Member} {b x y : Bytes} {t : Text} {place start : Nat}

/-! ## Names -/

theorem length_encodeText (t : Text) : (Unicode.Utf8.encode t).length = Unicode.Utf8.size t := by
  induction t with
  | nil => rfl
  | cons c t ih =>
    rw [Unicode.Utf8.encode, List.flatMap_cons, List.length_append, String.length_utf8EncodeChar]
    exact congrArg (c.utf8Size + ·) ih

theorem nameInUtf8_encode (t : Text) : nameInUtf8 (Unicode.Utf8.encode t) = t := by
  rw [nameInUtf8, Unicode.Utf8.decode_encode, Glyph.shown_ofText]

/-- The characters of one byte are their own encoding. -/
theorem nameInCodePage_encode (h : ∀ c ∈ t, c.toNat < 0x80) :
    nameInCodePage (Unicode.Utf8.encode t) = t := by
  induction t with
  | nil => rfl
  | cons c t ih =>
    have hc : c.toNat < 0x80 := h c List.mem_cons_self
    have hbyte : String.utf8EncodeChar c = [UInt8.ofNat c.toNat] := by
      have hsmall : c.val.toNat ≤ 0x7F := Nat.le_of_lt_succ hc
      simp only [String.utf8EncodeChar, hsmall, if_true]
      rfl
    have hrest := ih fun d hd => h d (List.mem_cons_of_mem c hd)
    rw [nameInCodePage] at hrest ⊢
    rw [Unicode.Utf8.encode, List.flatMap_cons, hbyte, List.singleton_append, List.map_cons,
      Unicode.Utf8.toNat_byte (Nat.lt_trans hc (by decide)), if_pos hc, Char.ofNat_toNat]
    exact congrArg (c :: ·) hrest

/-- The flags of a member: the eleventh bit marks names in UTF-8. -/
def nameFlags (t : Text) : Nat := if t.all fun c => c.toNat < 0x80 then 0 else 0x800

theorem nameFlags_lt (t : Text) : nameFlags t < Nat.pow 256 2 := by
  unfold nameFlags
  split <;> decide

theorem testBit_nameFlags (t : Text) : (nameFlags t).testBit 0 = false := by
  unfold nameFlags
  split <;> decide

/-- The name is read back as it was, whichever way the flags say it is written. -/
theorem name_of_nameFlags (t : Text) :
    (if (nameFlags t).testBit 11 then nameInUtf8 (Unicode.Utf8.encode t)
      else nameInCodePage (Unicode.Utf8.encode t)) = t := by
  unfold nameFlags
  split
  · rename_i h
    rw [if_neg (by decide), nameInCodePage_encode]
    simpa using h
  · rw [if_pos (by decide), nameInUtf8_encode]

/-! ## Headers -/

theorem length_sharedHeader (m : Member) : (sharedHeader m).length = 26 := by
  simp only [sharedHeader, List.length_append, length_little]

/-- The fields of a header that are read. -/
theorem field?_sharedHeader (hpacked : (storedBlocks m.content).length < Nat.pow 256 4)
    (hname : Unicode.Utf8.size m.name < Nat.pow 256 2) (x : Bytes) :
    (sharedHeader m ++ x).field? 2 2 = some (nameFlags m.name) ∧
      (sharedHeader m ++ x).field? 4 2 = some deflated ∧
      (sharedHeader m ++ x).field? 14 4 = some (storedBlocks m.content).length ∧
      (sharedHeader m ++ x).field? 22 2 = some (Unicode.Utf8.size m.name) ∧
      (sharedHeader m ++ x).field? 24 2 = some 0 := by
  have hmethod : deflated < Nat.pow 256 2 := by decide
  have hnone : 0 < Nat.pow 256 2 := by decide
  have hflags := nameFlags_lt m.name
  have hheader : sharedHeader m = _ := sharedHeader.eq_1 m
  simp only [← nameFlags.eq_1] at hheader
  simp only [hheader, List.append_assoc]
  refine ⟨?_, ?_, ?_, ?_, ?_⟩
  · simp [field?_append_right, length_little, field?_little hflags]
  · simp [field?_append_right, length_little, field?_little hmethod]
  · simp [field?_append_right, length_little, field?_little hpacked]
  · simp [field?_append_right, length_little, field?_little hname]
  · simp [field?_append_right, length_little, field?_little hnone]

theorem length_memberRecord (m : Member) :
    (memberRecord m).length =
      30 + Unicode.Utf8.size m.name + (storedBlocks m.content).length := by
  simp only [memberRecord, memberMark, List.length_append, length_sharedHeader, length_encodeText,
    List.length_cons, List.length_nil]

theorem length_directoryEntry (place : Nat) (m : Member) :
    (directoryEntry place m).length = 46 + Unicode.Utf8.size m.name := by
  simp only [directoryEntry, entryMark, List.length_append, length_sharedHeader, length_encodeText,
    length_little, List.length_replicate, List.length_cons, List.length_nil]

theorem hasMark_of_drop {mark : Bytes} (h : b.drop place = mark ++ x) :
    hasMark mark b place = true := by
  rw [hasMark, h, List.isPrefixOf_iff_prefix]
  exact List.prefix_append mark x

/-- The entry of a member in the directory. -/
def listedEntry (m : Member) : Entry := ⟨m.name, false, deflated, storedBlocks m.content⟩

/-- The fields of a directory entry that are read. -/
theorem field?_directoryEntry (hpacked : (storedBlocks m.content).length < Nat.pow 256 4)
    (hname : Unicode.Utf8.size m.name < Nat.pow 256 2) (hplace : place < Nat.pow 256 4)
    (x : Bytes) :
    (directoryEntry place m ++ x).field? 8 2 = some (nameFlags m.name) ∧
      (directoryEntry place m ++ x).field? 10 2 = some deflated ∧
      (directoryEntry place m ++ x).field? 20 4 = some (storedBlocks m.content).length ∧
      (directoryEntry place m ++ x).field? 28 2 = some (Unicode.Utf8.size m.name) ∧
      (directoryEntry place m ++ x).field? 30 2 = some 0 ∧
      (directoryEntry place m ++ x).field? 32 2 = some 0 ∧
      (directoryEntry place m ++ x).field? 42 4 = some place := by
  have hnone : 0 < Nat.pow 256 2 := by decide
  have hlength : (entryMark ++ little 2 20).length = 6 := rfl
  have hzeros : List.replicate 10 0 = little 2 0 ++ List.replicate 8 0 := rfl
  have hentry : directoryEntry place m ++ x = (entryMark ++ little 2 20) ++ (sharedHeader m ++
      (little 2 0 ++ (List.replicate 8 0 ++ (little 4 place ++
        (Unicode.Utf8.encode m.name ++ x))))) := by
    simp only [directoryEntry, hzeros, List.append_assoc]
  have hshared := field?_sharedHeader hpacked hname (little 2 0 ++ (List.replicate 8 0 ++
    (little 4 place ++ (Unicode.Utf8.encode m.name ++ x))))
  obtain ⟨hflags, hmethod, hsize, hlocal, hextra⟩ := hshared
  -- The first fields are those of the shared header, six bytes later.
  have hskip (k w : Nat) : (directoryEntry place m ++ x).field? (6 + k) w = (sharedHeader m ++
      (little 2 0 ++ (List.replicate 8 0 ++ (little 4 place ++
        (Unicode.Utf8.encode m.name ++ x))))).field? k w := by
    rw [hentry, field?_append_right (by omega), hlength, Nat.add_sub_cancel_left]
  refine ⟨(hskip 2 2).trans hflags, (hskip 4 2).trans hmethod, (hskip 14 4).trans hsize,
    (hskip 22 2).trans hlocal, (hskip 24 2).trans hextra, (hskip 26 2).trans ?_,
    (hskip 36 4).trans ?_⟩
  · simp [field?_append_right, length_sharedHeader, field?_little hnone]
  · simp only [field?_append_right, length_sharedHeader, length_little, List.length_replicate,
      Nat.reduceLeDiff, Nat.reduceSub, field?_little hplace]

/-! ## Entries -/

/-- The fields of the record of a member that are read. -/
theorem field?_memberRecord (hpacked : (storedBlocks m.content).length < Nat.pow 256 4)
    (hname : Unicode.Utf8.size m.name < Nat.pow 256 2) (x : Bytes) :
    (memberRecord m ++ x).field? 26 2 = some (Unicode.Utf8.size m.name) ∧
      (memberRecord m ++ x).field? 28 2 = some 0 := by
  have hrecord : memberRecord m ++ x = memberMark ++ (sharedHeader m ++
      (Unicode.Utf8.encode m.name ++ (storedBlocks m.content ++ x))) := by
    rw [memberRecord]
    simp only [List.append_assoc]
  -- The shared header stands behind the mark.
  have hskip (k w : Nat) : (memberRecord m ++ x).field? (4 + k) w = (sharedHeader m ++
      (Unicode.Utf8.encode m.name ++ (storedBlocks m.content ++ x))).field? k w := by
    rw [hrecord, field?_append_right (Nat.le_add_right 4 k)]
    exact congrArg (Bytes.field? _ · w) (Nat.add_sub_cancel_left 4 k)
  obtain ⟨-, -, -, hlength, hextra⟩ := field?_sharedHeader hpacked hname
    (Unicode.Utf8.encode m.name ++ (storedBlocks m.content ++ x))
  exact ⟨(hskip 22 2).trans hlength, (hskip 24 2).trans hextra⟩

/-- The data in the record of a member. -/
theorem take_memberRecord (m : Member) (x : Bytes) :
    ((memberRecord m ++ x).drop (30 + Unicode.Utf8.size m.name)).take
      (storedBlocks m.content).length = storedBlocks m.content := by
  have hfront : (memberMark ++ sharedHeader m ++ Unicode.Utf8.encode m.name).length =
      30 + Unicode.Utf8.size m.name := by
    simp only [memberMark, List.length_append, length_sharedHeader, length_encodeText,
      List.length_cons, List.length_nil]
  rw [memberRecord, List.append_assoc _ _ x, List.drop_left' hfront, List.take_left]

/-- The name in a directory entry. -/
theorem take_directoryEntry (place : Nat) (m : Member) (x : Bytes) :
    ((directoryEntry place m ++ x).drop 46).take (Unicode.Utf8.size m.name) =
      Unicode.Utf8.encode m.name := by
  have hfront : (entryMark ++ little 2 20 ++ sharedHeader m ++ List.replicate 10 0 ++
      little 4 place).length = 46 := by
    simp only [entryMark, List.length_append, length_sharedHeader, length_little,
      List.length_replicate, List.length_cons, List.length_nil]
  rw [directoryEntry, List.append_assoc _ _ x, List.drop_left' hfront,
    List.take_left' (length_encodeText m.name)]

theorem hasMark_memberRecord (h : b.drop place = memberRecord m ++ x) :
    hasMark memberMark b place = true := by
  rw [memberRecord] at h
  simp only [List.append_assoc] at h
  exact hasMark_of_drop h

theorem hasMark_directoryEntry {offset : Nat} (h : b.drop place = directoryEntry offset m ++ x) :
    hasMark entryMark b place = true := by
  rw [directoryEntry] at h
  simp only [List.append_assoc] at h
  exact hasMark_of_drop h

/-- **An entry of the directory leads to the data of its member.** -/
theorem entry?_directoryEntry {offset : Nat} (hentry : b.drop place = directoryEntry offset m ++ x)
    (hrecord : b.drop offset = memberRecord m ++ y)
    (hname : Unicode.Utf8.size m.name < Nat.pow 256 2)
    (hstart : offset + (memberRecord m).length ≤ start) (hlimit : start < Nat.pow 256 4) :
    entry? b 0 start place = some (listedEntry m, place + (directoryEntry offset m).length) := by
  have hsizes := length_memberRecord m
  have hpacked : (storedBlocks m.content).length < Nat.pow 256 4 := by omega
  obtain ⟨hflags, hmethod, hsize, hlength, hextra, hcomment, hoffset⟩ :=
    field?_directoryEntry hpacked hname (by omega : offset < Nat.pow 256 4) x
  simp only [← hentry, ← field?_add] at hflags hmethod hsize hlength hextra hcomment hoffset
  obtain ⟨hlocal, hlocalExtra⟩ := field?_memberRecord hpacked hname y
  simp only [← hrecord, ← field?_add] at hlocal hlocalExtra
  have hmark := hasMark_directoryEntry hentry
  have hlocalMark := hasMark_memberRecord hrecord
  have hnameBytes : (b.drop (place + 46)).take (Unicode.Utf8.size m.name) =
      Unicode.Utf8.encode m.name := by
    rw [← List.drop_drop, hentry, take_directoryEntry]
  have hdata : (b.drop (offset + 30 + Unicode.Utf8.size m.name)).take
      (storedBlocks m.content).length = storedBlocks m.content := by
    rw [Nat.add_assoc, ← List.drop_drop, hrecord, take_memberRecord]
  -- The entry ends in the bytes, and the record of the member in front of the directory.
  have hentryLength := length_directoryEntry offset m
  have hnext : ¬ b.length < place + 46 + Unicode.Utf8.size m.name := by
    have hlength := congrArg List.length hentry
    rw [List.length_drop, List.length_append] at hlength
    omega
  have hbefore : ¬ start ≤ offset := by omega
  have hdataBefore : ¬ start < offset + 30 + Unicode.Utf8.size m.name := by omega
  have hmethods : ¬ deflated = 99 := by decide
  simp only [ entry?, hmark, hflags, hmethod, hsize, hlength, hextra, hcomment, hoffset, hnameBytes,
    Nat.add_zero, hnext, hbefore, hlocalMark, hmethods, hlocal, hlocalExtra, hdataBefore, hdata,
    testBit_nameFlags, name_of_nameFlags, Option.bind_eq_bind, Option.bind_some, Bool.not_true,
    Bool.false_eq_true, Bool.or_self, decide_false, if_false, hentryLength, ← Nat.add_assoc]
  rfl

/-! ## Directories -/

theorem directory_append (place : Nat) (before ms : List Member) :
    directory place (before ++ ms) =
      directory place before ++ directory (place + (before.flatMap memberRecord).length) ms := by
  induction before generalizing place with
  | nil => rfl
  | cons m before ih =>
    rw [List.cons_append, directory, directory, ih, List.append_assoc, List.flatMap_cons,
      List.length_append, Nat.add_assoc]

/-- The members are numbered and placed by the fields there are for it. -/
structure Fits (ms : List Member) : Prop where
  count : ms.length < Nat.pow 256 2
  names : ∀ m ∈ ms, Unicode.Utf8.size m.name < Nat.pow 256 2
  size : (ms.flatMap memberRecord).length < Nat.pow 256 4
  distinct : (ms.map (·.name)).Nodup

/-- **The directory is read entry by entry.**  Some members have been read, with their entries in
front of the place. -/
theorem listing?_directory (before : List Member) (h : Fits (before ++ ms))
    (hb : b = (before ++ ms).flatMap memberRecord ++ (directory 0 (before ++ ms) ++ x)) :
    listing? b 0 ((before ++ ms).flatMap memberRecord).length ms.length
      (((before ++ ms).flatMap memberRecord).length + (directory 0 before).length) =
        some (ms.map listedEntry) := by
  -- The records and the entries of all members stay in view, so the induction is over what is left.
  induction ms generalizing before with
  | nil => rfl
  | cons m ms ih =>
    have hmembers : before ++ m :: ms = before ++ [m] ++ ms := by
      rw [List.append_assoc, List.singleton_append]
    have hrest := ih (before ++ [m])
    rw [← hmembers] at hrest
    have hlisted : (directory 0 (before ++ [m])).length = (directory 0 before).length +
        (directoryEntry (before.flatMap memberRecord).length m).length := by
      rw [directory_append, List.length_append, Nat.zero_add, directory, directory, List.append_nil]
    have hentry : b.drop (((before ++ m :: ms).flatMap memberRecord).length +
        (directory 0 before).length) =
          directoryEntry (before.flatMap memberRecord).length m ++ (directory
            ((before.flatMap memberRecord).length + (memberRecord m).length) ms ++ x) := by
      rw [← List.drop_drop, hb, List.drop_left, directory_append, Nat.zero_add, List.append_assoc,
        List.drop_left, directory, List.append_assoc]
    have hrecord : b.drop (before.flatMap memberRecord).length = memberRecord m ++
        (ms.flatMap memberRecord ++ (directory 0 (before ++ m :: ms) ++ x)) := by
      rw [hb, List.flatMap_append, List.flatMap_cons, List.append_assoc, List.append_assoc,
        List.drop_left]
    have hstart : (before.flatMap memberRecord).length + (memberRecord m).length ≤
        ((before ++ m :: ms).flatMap memberRecord).length := by
      rw [List.flatMap_append, List.flatMap_cons, List.length_append, List.length_append]
      omega
    have hname := h.names m (List.mem_append_right before List.mem_cons_self)
    have hfirst := entry?_directoryEntry hentry hrecord hname hstart h.size
    simp only [List.length_cons, listing?, hfirst, Option.bind_eq_bind, Option.bind_some,
      List.map_cons]
    rw [Nat.add_assoc, ← hlisted, hrest h hb]
    rfl

/-! ## End records -/

/-- The end record of members with a directory of the given length behind their records. -/
def endRecord (count listing place : Nat) : Bytes :=
  endMark ++ List.replicate 4 0 ++ little 2 count ++ little 2 count ++ little 4 listing ++
    little 4 place ++ List.replicate 2 0

theorem length_endRecord (count listing place : Nat) :
    (endRecord count listing place).length = 22 := by
  simp only [endRecord, endMark, List.length_append, length_little, List.length_replicate,
    List.length_cons, List.length_nil]

theorem encode_eq (ms : List Member) :
    encode ms = ms.flatMap memberRecord ++ (directory 0 ms ++
      endRecord ms.length (directory 0 ms).length (ms.flatMap memberRecord).length) := by
  simp only [encode, endRecord, List.append_assoc]

/-- The fields of an end record that are read. -/
theorem field?_endRecord {count : Nat} (hcount : count < Nat.pow 256 2)
    (hplace : place < Nat.pow 256 4) (listing : Nat) :
    (endRecord count listing place).field? 4 2 = some 0 ∧
      (endRecord count listing place).field? 6 2 = some 0 ∧
      (endRecord count listing place).field? 8 2 = some count ∧
      (endRecord count listing place).field? 10 2 = some count ∧
      (endRecord count listing place).field? 16 4 = some place ∧
      (endRecord count listing place).field? 20 2 = some 0 := by
  have hnone : 0 < Nat.pow 256 2 := by decide
  have hmark : endMark.length = 4 := rfl
  have hend : endRecord count listing place = endMark ++ (little 2 0 ++ (little 2 0 ++
      (little 2 count ++ (little 2 count ++ (little 4 listing ++ (little 4 place ++
        (little 2 0 ++ []))))))) := by
    simp only [endRecord, List.append_assoc]
    rfl
  rw [hend]
  refine ⟨?_, ?_, ?_, ?_, ?_, ?_⟩
  · simp only [field?_append_right, hmark, Nat.reduceLeDiff, Nat.reduceSub, field?_little hnone]
  · simp only [field?_append_right, hmark, length_little, Nat.reduceLeDiff, Nat.reduceSub,
      field?_little hnone]
  · simp only [field?_append_right, hmark, length_little, Nat.reduceLeDiff, Nat.reduceSub,
      field?_little hcount]
  · simp only [field?_append_right, hmark, length_little, Nat.reduceLeDiff, Nat.reduceSub,
      field?_little hcount]
  · simp only [field?_append_right, hmark, length_little, Nat.reduceLeDiff, Nat.reduceSub,
      field?_little hplace]
  · simp only [field?_append_right, hmark, length_little, Nat.reduceLeDiff, Nat.reduceSub,
      field?_little hnone]

/-- An end record takes 22 bytes: nothing is read from a place with fewer bytes behind it. -/
theorem readFrom?_eq_none (h : b.length < place + 22) : readFrom? b place = none := by
  have hcomment : b.field? (place + 20) 2 = none := field?_eq_none (by omega) (by decide)
  simp only [readFrom?, hcomment, Option.bind_eq_bind, Option.bind_none, Option.bind_fun_none]

theorem findMark?_of_prefix {mark : Bytes} {stop : Nat} (hmark : mark ≠ [])
    (hstop : place + mark.length ≤ stop) : findMark? mark place stop (mark ++ x) = some place := by
  have hbelow : mark.isPrefixOf (mark ++ x) = true := by
    rw [List.isPrefixOf_iff_prefix]
    exact List.prefix_append mark x
  obtain ⟨c, rest, rfl⟩ := List.exists_cons_of_ne_nil hmark
  rw [List.cons_append] at hbelow ⊢
  rw [findMark?, if_neg (Nat.not_lt_of_le hstop), if_pos hbelow]

/-- The directory of members begins with the mark of an entry. -/
theorem directory_of_ne_nil (h : ms ≠ []) (x : Bytes) :
    entryMark.length ≤ (directory 0 ms).length ∧ ∃ y, directory 0 ms ++ x = entryMark ++ y := by
  obtain ⟨m, ms, rfl⟩ := List.exists_cons_of_ne_nil h
  constructor
  · rw [directory, List.length_append, length_directoryEntry, Nat.add_assoc]
    exact Nat.le_trans (by decide) (Nat.le_add_right 46 _)
  · rw [directory, directoryEntry]
    simp only [List.append_assoc]
    exact ⟨_, rfl⟩

/-- **The end record of a written archive leads to its directory.** -/
theorem readFrom?_encode (h : Fits ms) :
    readFrom? (encode ms) ((ms.flatMap memberRecord).length + (directory 0 ms).length) =
      some (ms.map listedEntry) := by
  have hend : (encode ms).drop ((ms.flatMap memberRecord).length + (directory 0 ms).length) =
      endRecord ms.length (directory 0 ms).length (ms.flatMap memberRecord).length := by
    rw [encode_eq, ← List.drop_drop, List.drop_left, List.drop_left]
  have hlength : (encode ms).length =
      (ms.flatMap memberRecord).length + (directory 0 ms).length + 22 := by
    rw [encode_eq, List.length_append, List.length_append, length_endRecord, Nat.add_assoc]
  have hfields := field?_endRecord h.count h.size (directory 0 ms).length
  simp only [← hend, ← field?_add] at hfields
  obtain ⟨hdisk, hdirectoryDisk, hentries, htotal, hoffset, hcomment⟩ := hfields
  have henough : ¬ (encode ms).length <
      (ms.flatMap memberRecord).length + (directory 0 ms).length + 22 + 0 := by omega
  simp only [readFrom?, hdisk, hdirectoryDisk, hentries, htotal, hoffset, hcomment, henough,
    Option.bind_eq_bind, Option.bind_some, if_false, ne_eq, not_true_eq_false]
  -- An archive without members has no directory to look for.
  by_cases hne : ms = []
  · subst hne
    rfl
  obtain ⟨hlisting, y, hy⟩ := directory_of_ne_nil hne (endRecord ms.length
    (directory 0 ms).length (ms.flatMap memberRecord).length)
  have hsome : ¬ ms.length = 0 := fun h => hne (List.length_eq_zero_iff.mp h)
  have hbefore : ¬ (ms.flatMap memberRecord).length + (directory 0 ms).length ≤
      (ms.flatMap memberRecord).length := by
    have hmark : entryMark.length = 4 := rfl
    omega
  have hmark : findMark? entryMark (ms.flatMap memberRecord).length
      ((ms.flatMap memberRecord).length + (directory 0 ms).length)
      ((encode ms).drop (ms.flatMap memberRecord).length) =
        some (ms.flatMap memberRecord).length := by
    rw [encode_eq, List.drop_left, hy]
    exact findMark?_of_prefix (by decide) (Nat.add_le_add_left hlisting _)
  have hlist : listing? (encode ms) 0 (ms.flatMap memberRecord).length
      ms.length ((ms.flatMap memberRecord).length + 0) = some (ms.map listedEntry) :=
    listing?_directory [] h (encode_eq ms)
  rw [Nat.add_zero] at hlist
  simp only [hsome, hbefore, hmark, if_false, Option.bind_some, Nat.sub_self, hlist]

/-- Places from which nothing is read are passed over. -/
theorem findSome?_markPlaces {α : Type} {mark : Bytes} {f : Nat → Option α} (seen : List Nat)
    (h : ∀ p, place ≤ p → f p = none) :
    (markPlaces mark place seen b).findSome? f = seen.findSome? f := by
  induction b generalizing place seen with
  | nil => rfl
  | cons c b ih =>
    rw [markPlaces, ih _ fun p hp => h p (by omega)]
    split
    · rw [List.findSome?_cons, h place (Nat.le_refl place)]
    · rfl

/-- The last place from which something is read is found first. -/
theorem findSome?_markPlaces_append {α : Type} {mark : Bytes} {f : Nat → Option α} {r : α}
    (seen : List Nat) (hmark : mark ≠ []) (hfound : f (place + b.length) = some r)
    (h : ∀ p, place + b.length < p → f p = none) :
    (markPlaces mark place seen (b ++ (mark ++ x))).findSome? f = some r := by
  induction b generalizing place seen with
  | nil =>
    have hbelow : mark.isPrefixOf (mark ++ x) = true := by
      rw [List.isPrefixOf_iff_prefix]
      exact List.prefix_append mark x
    obtain ⟨c, rest, rfl⟩ := List.exists_cons_of_ne_nil hmark
    rw [List.cons_append] at hbelow
    have hhere : f place = some r := hfound
    have hbehind : ∀ p, place + 1 ≤ p → f p = none := fun p hp => h p hp
    rw [List.nil_append, List.cons_append, markPlaces, if_pos hbelow,
      findSome?_markPlaces _ hbehind, List.findSome?_cons, hhere]
  | cons c b ih =>
    rw [List.length_cons, ← Nat.add_assoc, Nat.add_right_comm] at hfound h
    rw [List.cons_append, markPlaces]
    exact ih _ hfound h

/-! ## Archives -/

theorem insertEntry_of_not_mem {e : Entry} {es : List Entry} (h : e.name ∉ es.map (·.name)) :
    insertEntry e es = es ++ [e] := by
  induction es with
  | nil => rfl
  | cons f es ih =>
    rw [List.map_cons, List.mem_cons, not_or] at h
    rw [insertEntry, if_neg (Ne.symm h.1), ih h.2, List.cons_append]

/-- Entries with distinct names are all kept. -/
theorem foldl_insertEntry {es listed : List Entry} (h : ((listed ++ es).map (·.name)).Nodup) :
    es.foldl (fun listed e => insertEntry e listed) listed = listed ++ es := by
  induction es generalizing listed with
  | nil => rw [List.foldl_nil, List.append_nil]
  | cons e es ih =>
    have hjoin : listed ++ e :: es = listed ++ [e] ++ es := by
      rw [List.append_assoc, List.singleton_append]
    have hnew : e.name ∉ listed.map (·.name) := by
      rw [List.map_append, List.nodup_append] at h
      intro hmem
      exact h.2.2 _ hmem _ (List.mem_map_of_mem List.mem_cons_self) rfl
    rw [List.foldl_cons, insertEntry_of_not_mem hnew, ih (hjoin ▸ h), hjoin]

/-- **What is listed of a written archive**: its members, in order. -/
theorem entries?_encode (h : Fits ms) : entries? (encode ms) = some (ms.map listedEntry) := by
  have hlength : (encode ms).length =
      0 + (ms.flatMap memberRecord ++ directory 0 ms).length + 22 := by
    rw [encode_eq, List.length_append, List.length_append, length_endRecord, List.length_append]
    omega
  have hfound : readFrom? (encode ms) (0 + (ms.flatMap memberRecord ++ directory 0 ms).length) =
      some (ms.map listedEntry) := by
    rw [Nat.zero_add, List.length_append, readFrom?_encode h]
  -- The end record is the last of the places with its mark from which anything is read.
  have hbehind : ∀ p, 0 + (ms.flatMap memberRecord ++ directory 0 ms).length < p →
      readFrom? (encode ms) p = none := fun p hp => readFrom?_eq_none (by omega)
  obtain ⟨x, hx⟩ : ∃ x, encode ms =
      (ms.flatMap memberRecord ++ directory 0 ms) ++ (endMark ++ x) := by
    simp only [encode, List.append_assoc]
    exact ⟨_, rfl⟩
  have hmark : endMark ≠ [] := by decide
  have hplaces := findSome?_markPlaces_append (x := x) [] hmark hfound hbehind
  rw [← hx] at hplaces
  have hnames : ([] ++ ms.map listedEntry).map Entry.name = ms.map Member.name := by
    rw [List.nil_append, List.map_map]
    rfl
  rw [entries?, hplaces, Option.map_some, foldl_insertEntry (hnames ▸ h.distinct), List.nil_append]

/-- An entry has the content that comes of unpacking it without damage. -/
theorem Entry.content?_eq_some_iff {e : Entry} {b : Bytes} :
    e.content? = some b ↔ e.unpacked = .whole b := by
  unfold content?
  cases hdata : e.unpacked with
  | mk bytes isDamaged => cases isDamaged <;> simp [Data.whole]

theorem content?_listedEntry (m : Member) : (listedEntry m).content? = some m.content :=
  Entry.content?_eq_some_iff.mpr (inflate_storedBlocks m.content)

/-- The entry can be unpacked to the member. -/
structure Holds (e : Entry) (m : Member) : Prop where
  name : e.name = m.name
  isEncrypted : e.isEncrypted = false
  isReadable : e.isReadable = true
  content? : e.content? = some m.content

/-- The bytes hold the members, whichever way they are packed: they are an archive, and its entries
are the members in order. -/
def Stores (b : Bytes) (ms : List Member) : Prop :=
  isArchive b = true ∧ ∃ es, entries? b = some es ∧ List.Forall₂ Holds es ms

/-- **A written archive holds its members.** -/
theorem stores_encode (h : Fits ms) : Stores (encode ms) ms := by
  refine ⟨?_, ms.map listedEntry, entries?_encode h, ?_⟩
  · cases ms with
    | nil => rfl
    | cons m ms =>
      rw [encode_eq, List.flatMap_cons, memberRecord, memberMark]
      rfl
  · rw [List.forall₂_map_left_iff, List.forall₂_same]
    intro m hm
    exact ⟨rfl, rfl, rfl, content?_listedEntry m⟩

end Bitext.Archive
