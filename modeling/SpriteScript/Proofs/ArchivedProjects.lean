import SpriteScript.Conversion
import SpriteScript.Proofs.StoredArchives

/-!
A project is the same in an archive and in a file of its own. An archive that stores the text of a
project gives this text back, whatever other files it holds and wherever the text stands among
them; and from the text on nothing depends on where it came from.
-/

namespace SpriteScript

open Archive (Member IsArchive)

theorem Text.utf8Text?_utf8Bytes (text : String) : utf8Text? (utf8Bytes text) = some text := by
  have bytes : (⟨(utf8Bytes text).toArray⟩ : ByteArray) = text.toUTF8 := rfl
  rw [utf8Text?, bytes, String.fromUTF8?, String.toUTF8_eq_toByteArray, dif_pos text.isValidUTF8]
  rfl

section

variable {tree : FileTree} {path : Path} {text : String}

theorem loadFile_of_text (h : projectText tree path = .ok text) :
    loadFile tree path = Loading.projectOfText text := by
  rw [loadFile, h]
  rfl

theorem projectText_of_plain (read : tree.read path = .ok (Text.utf8Bytes text))
    (plain : path.hasExtension "json".toList = true) : projectText tree path = .ok text := by
  simp only [projectText, read, plain, if_true, Text.utf8Text?_utf8Bytes]

theorem projectText_of_archive {bytes : List UInt8} (read : tree.read path = .ok bytes)
    (archive : path.hasExtension "json".toList = false)
    (holds : Archive.extract projectEntry bytes = .ok (Text.utf8Bytes text)) :
    projectText tree path = .ok text := by
  simp only [projectText, read, archive, Bool.false_eq_true, if_false, holds,
    Text.utf8Text?_utf8Bytes]

end

/-- Whatever else an archive stores, and in whatever order: the project in it is loaded as the one
in a file of its own, with the same notices, or fails with the same error. -/
theorem loadFile_archive_eq_plain {text : String} {others members : List Member}
    {bytes : List UInt8} {tree tree' : FileTree} {path path' : Path}
    (order : members.Perm (⟨projectEntry, Text.utf8Bytes text⟩ :: others))
    (names : ∀ other ∈ others, other.name ≠ projectEntry) (stored : IsArchive members bytes)
    (read : tree.read path = .ok bytes) (archive : path.hasExtension "json".toList = false)
    (read' : tree'.read path' = .ok (Text.utf8Bytes text))
    (plain : path'.hasExtension "json".toList = true) :
    loadFile tree path = Loading.projectOfText text ∧
      loadFile tree' path' = Loading.projectOfText text := by
  have mem := order.mem_iff.mpr List.mem_cons_self
  obtain ⟨before, after, rfl⟩ := List.append_of_mem mem
  have rest : (before ++ after).Perm others :=
    List.Perm.cons_inv (List.perm_middle.symm.trans order)
  have holds : Archive.extract projectEntry bytes = .ok (Text.utf8Bytes text) :=
    Archive.extract_of_isArchive stored fun other inside => names other (rest.mem_iff.mp inside)
  exact ⟨loadFile_of_text (projectText_of_archive read archive holds),
    loadFile_of_text (projectText_of_plain read' plain)⟩

/-- An archive with a file in front of the project that is an end record, and one behind it that
starts like the record of a file. -/
theorem loadFile_archive_eq_plain_decoys : ∃ (text : String) (members : List Member)
    (tree : FileTree),
    members = [⟨Text.utf8Bytes "a.bin", Archive.endRecord 0 0 0⟩,
      ⟨projectEntry, Text.utf8Bytes text⟩,
      ⟨Text.utf8Bytes "b", Archive.littleEndian 4 Archive.localMark⟩] ∧
    IsArchive members (Archive.stored members) ∧
    tree.read ⟨"/a.sb3"⟩ = .ok (Archive.stored members) ∧
    tree.read ⟨"/a.JSON"⟩ = .ok (Text.utf8Bytes text) ∧
    (Loading.projectOfText text).result = .ok ⟨[.sprite "a"]⟩ ∧
    loadFile tree ⟨"/a.sb3"⟩ = Loading.projectOfText text ∧
    loadFile tree ⟨"/a.JSON"⟩ = Loading.projectOfText text := by
  let text := r#"{"targets":[{"name":"a","isStage":false}]}"#
  let members : List Member := [⟨Text.utf8Bytes "a.bin", Archive.endRecord 0 0 0⟩,
    ⟨projectEntry, Text.utf8Bytes text⟩,
    ⟨Text.utf8Bytes "b", Archive.littleEndian 4 Archive.localMark⟩]
  let tree : FileTree := ⟨[], [(["a.sb3"], .file (Archive.stored members)),
    (["a.JSON"], .file (Text.utf8Bytes text))]⟩
  have stored : IsArchive members (Archive.stored members) :=
    Archive.isArchive_stored (by decide +kernel) (by decide +kernel) (by decide +kernel)
  have loaded : (Loading.projectOfText text).result = .ok ⟨[.sprite "a"]⟩ := by decide +kernel
  refine ⟨text, members, tree, rfl, stored, rfl, rfl, loaded, ?_⟩
  exact loadFile_archive_eq_plain (.swap _ _ _) (by decide +kernel) stored rfl (by decide +kernel)
    rfl (by decide +kernel)

end SpriteScript
