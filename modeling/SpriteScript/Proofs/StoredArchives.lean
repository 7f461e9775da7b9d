import Mathlib.Algebra.Group.Nat.Defs
import Mathlib.Data.List.Forall2
import SpriteScript.Archive.Extract
import SpriteScript.Archive.Stored

/-!
Reading back archives whose files are stored as they are. Between its marks an archive may hold any
bytes, those of marks included: the end record is the last place where an end mark has a whole
record behind it, from there offsets lead to the directory and from each of its entries to the data
of one file, and nothing else is looked at.
-/

namespace SpriteScript.Archive

@[simp] theorem length_littleEndian (width n : Nat) : (littleEndian width n).length = width := by
  induction width generalizing n with
  | zero => rfl
  | succ width ih => rw [littleEndian, List.length_cons, ih]

theorem littleEndian?_littleEndian (width n : Nat) (rest : List UInt8) :
    littleEndian? width (littleEndian width n ++ rest) = some (n % 256 ^ width) := by
  induction width generalizing n with
  | zero => rw [Nat.pow_zero, Nat.mod_one]; rfl
  | succ width ih =>
      have byte : (UInt8.ofNat n).toNat = n % 256 := UInt8.toNat_ofNat'
      rw [littleEndian, List.cons_append, littleEndian?, ih, Option.map_some, byte,
        Nat.pow_succ', Nat.mod_mul]

theorem littleEndian?_of_short {width : Nat} {bytes : List UInt8} (h : bytes.length < width) :
    littleEndian? width bytes = none := by
  induction width generalizing bytes with
  | zero => cases h
  | succ width ih =>
      cases bytes with
      | nil => rfl
      | cons byte rest =>
          rw [littleEndian?, ih (Nat.lt_of_succ_lt_succ h), Option.map_none]

theorem field?_mod (width n : Nat) (rest : List UInt8) :
    field? (littleEndian width n ++ rest) 0 width = some (n % 256 ^ width) := by
  rw [field?, List.drop_zero, littleEndian?_littleEndian]

/-- A field is read off the number that stands at its offset. -/
theorem field?_zero {width n : Nat} (h : n < 256 ^ width) (rest : List UInt8) :
    field? (littleEndian width n ++ rest) 0 width = some n := by
  rw [field?_mod, Nat.mod_eq_of_lt h]

theorem drop_skip {width offset : Nat} (h : width ≤ offset) (n : Nat) (rest : List UInt8) :
    (littleEndian width n ++ rest).drop offset = rest.drop (offset - width) := by
  rw [List.drop_append, length_littleEndian, List.drop_eq_nil_of_le (by simpa), List.nil_append]

theorem field?_skip {width offset : Nat} (h : width ≤ offset) (n width' : Nat)
    (rest : List UInt8) :
    field? (littleEndian width n ++ rest) offset width' = field? rest (offset - width) width' := by
  rw [field?, field?, drop_skip h]

theorem startsWith_littleEndian {mark : Nat} (h : mark < 256 ^ 4) (rest : List UInt8) :
    startsWith mark (littleEndian 4 mark ++ rest) = true := by
  rw [startsWith, littleEndian?_littleEndian, Nat.mod_eq_of_lt h, beq_self_eq_true]

theorem le_of_mem_marksFrom {mark offset count place : Nat} {bytes : List UInt8}
    (h : place ∈ marksFrom mark offset count bytes) : offset ≤ place := by
  fun_induction marksFrom mark offset count bytes with
  | case1 | case2 => cases h
  | case3 offset count byte rest here ih =>
      obtain rfl | later := List.mem_cons.mp h
      · exact Nat.le_refl _
      · exact Nat.le_of_succ_le (ih later)
  | case4 offset count byte rest here ih => exact Nat.le_of_succ_le (ih h)

theorem marksFrom_append (mark offset count : Nat) (front bytes : List UInt8) :
    ∃ before, marksFrom mark offset (front.length + count) (front ++ bytes) =
      before ++ marksFrom mark (offset + front.length) count bytes := by
  induction front generalizing offset with
  | nil => exact ⟨[], by simp⟩
  | cons byte front ih =>
      obtain ⟨before, later⟩ := ih (offset + 1)
      rw [List.length_cons, Nat.add_right_comm, List.cons_append, marksFrom, later,
        Nat.add_assoc, Nat.add_comm 1]
      split
      · exact ⟨offset :: before, rfl⟩
      · exact ⟨before, rfl⟩

theorem marksFrom_of_startsWith {mark : Nat} {bytes : List UInt8}
    (h : startsWith mark bytes = true) (offset : Nat) {count : Nat} (room : 0 < count) :
    ∃ later, marksFrom mark offset count bytes = offset :: later ∧
      ∀ place ∈ later, offset < place := by
  obtain ⟨count, rfl⟩ := Nat.exists_eq_succ_of_ne_zero (Nat.ne_of_gt room)
  cases bytes with
  | nil => cases h
  | cons byte rest =>
      rw [marksFrom, if_pos h]
      exact ⟨_, rfl, fun _ mem => le_of_mem_marksFrom mem⟩

theorem endRecord?_of_short {bytes : List UInt8} (h : bytes.length < 22) :
    endRecord? bytes = none := by
  have comment : field? bytes 20 2 = none := by
    apply littleEndian?_of_short
    rw [List.length_drop]
    omega
  cases found : endRecord? bytes with
  | none => rfl
  | some record => simp [endRecord?, comment] at found

theorem endRecord?_endRecord {count offset : Nat} (hc : count < 256 ^ 2) (ho : offset < 256 ^ 4)
    (size : Nat) (rest : List UInt8) :
    endRecord? (endRecord count size offset ++ rest) = some ⟨0, 0, count, count, offset⟩ := by
  have zero : 0 < 256 ^ 2 := by decide
  simp only [endRecord, List.append_assoc]
  simp [endRecord?, startsWith_littleEndian, field?_skip, field?_zero hc, field?_zero ho,
    field?_zero zero, endMark]

/-- The fields that both records of a stored file share, up to the length of its extra field. What
is not needed to take the file out is open. -/
inductive Describes (member : Member) (extra : Nat) : List UInt8 → Prop where
  | fields (needed flags time date : Nat) (unlocked : flags % 2 = 0) :
      Describes member extra
        (littleEndian 2 needed ++ littleEndian 2 flags ++ littleEndian 2 0 ++
          littleEndian 2 time ++ littleEndian 2 date ++
          littleEndian 4 (crc32 member.content).toNat ++ littleEndian 4 member.content.length ++
          littleEndian 4 member.content.length ++ littleEndian 2 member.name.length ++
          littleEndian 2 extra)

theorem Describes.length {member : Member} {extra : Nat} {description : List UInt8}
    (h : Describes member extra description) : description.length = 26 := by
  obtain ⟨needed, flags, time, date, unlocked⟩ := h
  simp only [List.length_append, length_littleEndian]

/-- The record in front of the content of a file, with the content. -/
inductive IsLocalRecord (member : Member) : List UInt8 → Prop where
  | record {description : List UInt8} (extra : List UInt8) (short : extra.length < 256 ^ 2)
      (describes : Describes member extra.length description) :
      IsLocalRecord member
        (littleEndian 4 localMark ++ description ++ member.name ++ extra ++ member.content)

/-- The record in the directory of a file whose local record stands at `offset`. -/
inductive IsDirectoryRecord (member : Member) (offset : Nat) : List UInt8 → Prop where
  | record {description : List UInt8} (madeBy disk inner outer : Nat) (comment : List UInt8)
      (short : comment.length < 256 ^ 2) (describes : Describes member 0 description) :
      IsDirectoryRecord member offset
        (littleEndian 4 entryMark ++ littleEndian 2 madeBy ++ description ++
          littleEndian 2 comment.length ++ littleEndian 2 disk ++ littleEndian 2 inner ++
          littleEndian 4 outer ++ littleEndian 4 offset ++ member.name ++ comment)

/-- The local record of a file stands at an offset; what else there is is open. -/
def StandsAt (member : Member) (offset : Nat) (bytes : List UInt8) : Prop :=
  ∃ record rest, IsLocalRecord member record ∧ bytes.drop offset = record ++ rest

/-- A directory of files whose local records stand somewhere among `records`, in any order. -/
inductive Lists (records : List UInt8) : List Member → (directory : List UInt8) → Prop where
  | nil : Lists records [] []
  | cons {member : Member} {members : List Member} {offset : Nat} {entry directory : List UInt8}
      (stands : StandsAt member offset records) (listed : IsDirectoryRecord member offset entry)
      (others : Lists records members directory) :
      Lists records (member :: members) (entry ++ directory)

/-- An archive that stores files and has no comment. The greatest count and the greatest offset are
not used, since they stand for wide fields. -/
inductive IsArchive (members : List Member) : List UInt8 → Prop where
  | archive {records directory : List UInt8} (lists : Lists records members directory)
      (count : members.length < 0xFFFF) (size : records.length < 0xFFFFFFFF)
      (names : ∀ member ∈ members, member.name.length < 256 ^ 2) :
      IsArchive members
        (records ++ directory ++ endRecord members.length directory.length records.length)

theorem StandsAt.append {member : Member} {offset : Nat} {bytes : List UInt8}
    (h : StandsAt member offset bytes) (tail : List UInt8) :
    StandsAt member offset (bytes ++ tail) := by
  obtain ⟨record, rest, form, place⟩ := h
  refine ⟨record, rest ++ tail.drop (offset - bytes.length), form, ?_⟩
  rw [List.drop_append, place, List.append_assoc]

theorem StandsAt.length_lt {member : Member} {offset : Nat} {bytes : List UInt8}
    (h : StandsAt member offset bytes) : offset + member.content.length < bytes.length := by
  obtain ⟨record, rest, ⟨extra, short, describes⟩, place⟩ := h
  have length := congrArg List.length place
  simp only [List.length_drop, List.length_append, length_littleEndian] at length
  omega

theorem extended?_nil (entry : Entry) : entry.extended? [] = some entry := rfl

theorem entry?_of_isDirectoryRecord {member : Member} {offset : Nat} {record : List UInt8}
    (h : IsDirectoryRecord member offset record) (name : member.name.length < 256 ^ 2)
    (content : member.content.length < 256 ^ 4) {location : Location} (front : location.shift = 0)
    (inside : offset < location.start) (ends : location.start < 256 ^ 4) (rest : List UInt8) :
    ∃ comment, entry? location (record ++ rest) =
      some (⟨member.name, comment, false, false, 0, (crc32 member.content).toNat,
        member.content.length, member.content.length, offset⟩, rest) := by
  obtain ⟨madeBy, disk, inner, outer, comment, short, ⟨needed, flags, time, date, unlocked⟩⟩ := h
  have place : offset < 256 ^ 4 := Nat.lt_trans inside ends
  have checksum : (crc32 member.content).toNat < 256 ^ 4 := UInt32.toNat_lt _
  have zero : 0 < 256 ^ 2 := by decide
  refine ⟨commentText (flags % 256 ^ 2) comment, ?_⟩
  simp only [List.append_assoc]
  simp [startsWith_littleEndian, entry?, entryMark, field?_skip, drop_skip, field?_mod 2 flags,
    field?_zero zero, field?_zero name, field?_zero content, field?_zero place,
    field?_zero checksum, field?_zero short, extended?_nil, encryptedMethod, front, inside,
    unlocked]

/-- An entry that leads to the local record of a file. -/
structure LeadsTo (bytes : List UInt8) (member : Member) (entry : Entry) : Prop where
  name : entry.name = member.name
  unlocked : entry.encrypted = false
  unsealed : entry.sealed = false
  method : entry.method = 0
  checksum : entry.checksum = (crc32 member.content).toNat
  packedSize : entry.packedSize = member.content.length
  place : StandsAt member entry.offset bytes

theorem packedData?_of_leadsTo {bytes : List UInt8} {member : Member} {entry : Entry}
    (h : LeadsTo bytes member entry) (name : member.name.length < 256 ^ 2) :
    packedData? bytes entry = some member.content := by
  obtain ⟨record, rest, ⟨extra, short, describes⟩, place⟩ := h.place
  rw [packedData?, h.packedSize]
  generalize bytes.drop entry.offset = found at place ⊢
  have data : found.drop (30 + member.name.length + extra.length) =
      member.content ++ rest := by
    rw [place, List.append_assoc]
    apply List.drop_left'
    simp only [List.length_append, length_littleEndian, describes.length]
  obtain ⟨needed, flags, time, date, unlocked⟩ := describes
  simp only [List.append_assoc] at place
  have marked : startsWith localMark found = true := by
    rw [place, startsWith_littleEndian (by decide)]
  have nameLength : field? found 26 2 = some member.name.length := by
    simp only [place, field?_skip, Nat.reduceLeDiff, Nat.reduceSub, field?_zero name]
  have extraLength : field? found 28 2 = some extra.length := by
    simp only [place, field?_skip, Nat.reduceLeDiff, Nat.reduceSub, field?_zero short]
  simp [marked, nameLength, extraLength, data]

theorem content_of_leadsTo {bytes : List UInt8} {member : Member} {entry : Entry}
    (h : LeadsTo bytes member entry) (name : member.name.length < 256 ^ 2) :
    content bytes entry = .ok member.content := by
  have packing : entry.packing? = some .stored := by
    simp [Entry.packing?, h.unlocked, h.unsealed, h.method]
  simp [content, packing, packedData?_of_leadsTo h name, Packing.unpack?, h.checksum]

/-- Each entry of the directory leads to its file, since the offset that is written is one at which
the local record stands. -/
theorem entries?_of_lists {records directory : List UInt8} {members : List Member}
    (h : Lists records members directory)
    (names : ∀ member ∈ members, member.name.length < 256 ^ 2) (location : Location)
    (front : location.shift = 0) (behind : location.start = records.length)
    (size : records.length < 256 ^ 4) (tail rest : List UInt8) :
    ∃ entries, entries? location members.length (directory ++ rest) = some entries ∧
      List.Forall₂ (LeadsTo (records ++ tail)) members entries := by
  induction h with
  | nil => exact ⟨[], rfl, .nil⟩
  | @cons member members offset entry directory stands listed others ih =>
      rw [List.forall_mem_cons] at names
      have inside := stands.length_lt
      obtain ⟨entries, read, leads⟩ := ih names.2
      obtain ⟨comment, here⟩ := entry?_of_isDirectoryRecord listed names.1 (by omega) front
        (by omega) (by omega) (directory ++ rest)
      have lead : LeadsTo (records ++ tail) member ⟨member.name, comment, false, false, 0,
          (crc32 member.content).toNat, member.content.length, member.content.length, offset⟩ :=
        ⟨rfl, rfl, rfl, rfl, rfl, rfl, stands.append tail⟩
      refine ⟨_, ?_, .cons lead leads⟩
      simp [entries?, here, read]

/-- An end record whose offset is that of an entry leads there. -/
theorem location?_of_exact {bytes : List UInt8} {place : Nat} {record : EndRecord}
    (found : endRecord? (bytes.drop place) = some record)
    (narrow : record.entries ≠ 0xFFFF ∧ record.directoryOffset ≠ 0xFFFFFFFF)
    (disk : record.disk = record.directoryDisk) (nonempty : record.entries ≠ 0)
    (marked : startsWith entryMark (bytes.drop record.directoryOffset) = true)
    (room : record.directoryOffset < place) :
    location? bytes place = some ⟨0, record.directoryOffset, record.entriesHere⟩ := by
  have locator : locatorBefore? bytes place record = none := by
    simp [locatorBefore?, narrow]
  obtain ⟨later, first, _⟩ :=
    marksFrom_of_startsWith marked record.directoryOffset (Nat.sub_pos_of_lt room)
  have start : (marks entryMark bytes record.directoryOffset place).head? =
      some record.directoryOffset := by
    rw [marks, first, List.head?_cons]
  simp [location?, found, locator, plainLocation?, disk, nonempty, start]

/-- Behind the end record of an archive there is no room for another one. -/
theorem directoryAt?_of_later {bytes : List UInt8} {place : Nat}
    (h : bytes.length < place + 22) : directoryAt? bytes place = none := by
  have short : endRecord? (bytes.drop place) = none := by
    apply endRecord?_of_short
    rw [List.length_drop]
    omega
  simp [directoryAt?, location?, short]

theorem directory?_of_last {front ending : List UInt8} {entries : List Entry}
    (marked : startsWith endMark ending = true) (length : ending.length = 22)
    (h : directoryAt? (front ++ ending) front.length = some entries) :
    directory? (front ++ ending) = some entries := by
  obtain ⟨before, first⟩ := marksFrom_append endMark 0 ending.length front ending
  obtain ⟨later, last, behind⟩ :=
    marksFrom_of_startsWith marked (0 + front.length) (show 0 < ending.length by omega)
  have absent : later.reverse.findSome? (directoryAt? (front ++ ending)) = none := by
    rw [List.findSome?_eq_none_iff]
    intro place mem
    have behind := behind place (List.mem_reverse.mp mem)
    apply directoryAt?_of_later
    rw [List.length_append]
    omega
  rw [last] at first
  rw [directory?, marks, List.drop_zero, Nat.sub_zero, List.length_append, first]
  simp [absent, h]

theorem Lists.startsWith {records directory : List UInt8} {members : List Member}
    (h : Lists records members directory) (nonempty : members ≠ []) (rest : List UInt8) :
    0 < directory.length ∧ startsWith entryMark (directory ++ rest) = true := by
  cases h with
  | nil => contradiction
  | cons stands listed others =>
      obtain ⟨madeBy, disk, inner, outer, comment, short, describes⟩ := listed
      simp only [List.append_assoc, startsWith_littleEndian (show entryMark < 256 ^ 4 by decide),
        List.length_append, length_littleEndian, and_true]
      omega

/-- The directory of an archive lists its files, in order. -/
theorem directory?_of_isArchive {members : List Member} {bytes : List UInt8}
    (h : IsArchive members bytes) (nonempty : members ≠ []) :
    ∃ entries, directory? bytes = some entries ∧
      List.Forall₂ (LeadsTo bytes) members entries := by
  obtain @⟨records, directory, lists, count, size, names⟩ := h
  generalize ending_eq :
    endRecord members.length directory.length records.length = ending
  obtain ⟨room, marked⟩ := lists.startsWith nonempty ending
  have found : endRecord? ((records ++ directory ++ ending).drop (records ++ directory).length) =
      some ⟨0, 0, members.length, members.length, records.length⟩ := by
    rw [List.drop_left, ← ending_eq, ← List.append_nil (endRecord _ _ _)]
    exact endRecord?_endRecord (by omega) (by omega) _ []
  have start : (records ++ directory ++ ending).drop records.length = directory ++ ending := by
    rw [List.append_assoc, List.drop_left]
  have location := location?_of_exact found
    ⟨show members.length ≠ 0xFFFF by omega, show records.length ≠ 0xFFFFFFFF by omega⟩ rfl
    (show members.length ≠ 0 by simpa using nonempty) (by rw [start]; exact marked)
    (show records.length < _ by rw [List.length_append]; omega)
  obtain ⟨entries, read, leads⟩ := entries?_of_lists lists names
    ⟨0, records.length, members.length⟩ rfl rfl (by omega) (directory ++ ending) ending
  rw [← List.append_assoc] at leads
  refine ⟨entries, directory?_of_last ?_ ?_ ?_, leads⟩
  · rw [← ending_eq]
    simp only [endRecord, List.append_assoc]
    exact startsWith_littleEndian (by decide) _
  · simp only [← ending_eq, endRecord, List.length_append, length_littleEndian]
  · simp only [directoryAt?, location, start, read, Option.bind_eq_bind, Option.bind_some]

/-- Taking a file out of an archive gives its content, if no other file has its name. -/
theorem extract_of_isArchive {before after : List Member} {member : Member} {bytes : List UInt8}
    (h : IsArchive (before ++ member :: after) bytes)
    (once : ∀ other ∈ before ++ after, other.name ≠ member.name) :
    extract member.name bytes = .ok member.content := by
  have names : member.name.length < 256 ^ 2 := by
    obtain ⟨_, _, _, names⟩ := h
    exact names member (by simp)
  obtain ⟨entries, listed, leads⟩ := directory?_of_isArchive h (by simp)
  have single : (before ++ member :: after).filter (·.name = member.name) = [member] := by
    have dropped {others : List Member} (h : ∀ other ∈ others, other.name ≠ member.name) :
        others.filter (·.name = member.name) = [] := by
      simpa [List.filter_eq_nil_iff] using h
    rw [List.forall_mem_append] at once
    rw [List.filter_append, dropped once.1, List.filter_cons_of_pos (by simp), dropped once.2,
      List.nil_append]
  have same : List.Forall₂ (LeadsTo bytes) [member] (entries.filter (·.name = member.name)) := by
    rw [← single]
    exact List.rel_filter (fun _ _ lead => by simp [lead.name]) leads
  generalize named : entries.filter (·.name = member.name) = found at same
  obtain _ | @⟨_, entry, _, _, lead, _ | _⟩ := same
  have last : entries.reverse.find? (·.name = member.name) = some entry := by
    rw [← List.head?_filter, List.filter_reverse, named]
    rfl
  rw [extract, listed]
  simp only [last, content_of_leadsTo lead names]

theorem Member.isLocalRecord (member : Member) : IsLocalRecord member member.localRecord := by
  have record : IsLocalRecord member _ := .record [] (by decide) (.fields 20 0 0 33 rfl)
  rwa [List.append_nil] at record

theorem Member.isDirectoryRecord (member : Member) (offset : Nat) :
    IsDirectoryRecord member offset (member.directoryRecord offset) := by
  have record : IsDirectoryRecord member offset _ :=
    .record 20 0 0 0 [] (by decide) (.fields 20 0 0 33 rfl)
  rwa [List.append_nil] at record

theorem lists_localRecords (before members : List Member) :
    Lists (localRecords (before ++ members)) members
      (directoryFrom (localRecords before).length members) := by
  induction members generalizing before with
  | nil => exact .nil
  | cons member members ih =>
      have stands : StandsAt member (localRecords before).length
          (localRecords (before ++ member :: members)) := by
        refine ⟨member.localRecord, localRecords members, member.isLocalRecord, ?_⟩
        rw [localRecords, localRecords, List.flatMap_append, List.drop_left, List.flatMap_cons]
        rfl
      have length : (localRecords (before ++ [member])).length =
          (localRecords before).length + member.localRecord.length := by
        simp [localRecords]
      have others := ih (before ++ [member])
      rw [length, ← List.append_cons] at others
      exact .cons stands (member.isDirectoryRecord _) others

/-- What is written is an archive, within the limits. -/
theorem isArchive_stored {members : List Member} (count : members.length < 0xFFFF)
    (size : (localRecords members).length < 0xFFFFFFFF)
    (names : ∀ member ∈ members, member.name.length < 256 ^ 2) :
    IsArchive members (stored members) :=
  .archive (lists_localRecords [] members) count size names

end SpriteScript.Archive
