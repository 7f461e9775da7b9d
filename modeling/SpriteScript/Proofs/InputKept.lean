import SpriteScript.Archive.Stored
import SpriteScript.Proofs.RunEffects

/-!
What becomes of the input. Without an output argument the source goes beside the input: into a
directory next to it, or into the file of the same name with another extension. Neither is the
input itself, unless it has that extension already: then a run that succeeds has written its source
over the project.
-/

namespace SpriteScript

namespace FileTree

variable {before after tree : FileTree} {path : Path} {place : Place} {extension : List Char}
  {content : List UInt8}

theorem read_eq_of_keeps (kept : Keeps before after) (found : before.resolve path = .ok place)
    (same : after.get? place = before.get? place) : after.read path = before.read path := by
  rw [read, read, kept.resolve found, found]
  simp only [bind, Except.bind, same]

/-- Beside a place another extension names another file. -/
theorem get?_of_write_beside (slash : '/' ∉ extension) (dot : '.' ∉ extension)
    (other : (pathOf place).extension? ≠ some extension)
    (written : tree.write ((pathOf place).withExtension extension) content = .ok after) :
    after.get? place = tree.get? place := by
  obtain ⟨home, name, writes⟩ := write_ok written
  apply writes.get?_of_ne
  rintro rfl
  obtain ⟨front, segments, _⟩ := writes.segments
  have plain := writes.plain
  obtain ⟨stem, nonempty, cut⟩ := Path.last_withExtension slash segments plain.1 plain.2
  have clean : '/' ∉ (String.ofList name).toList := by
    rw [String.toList_ofList]
    apply Path.slash_notMem_splitSlashes
    rw [← Path.segments, segments]
    exact List.mem_append_right _ List.mem_cons_self
  obtain ⟨front', last⟩ := last_pathOf home clean
  rw [String.toList_ofList] at last
  apply other
  rw [Path.extension?, Path.fileName?_of_segments last plain.1 plain.2, Option.bind_some, cut,
    Path.splitExtension_append stem dot, if_neg nonempty]

/-- Beside a place its own extension names the place. -/
theorem get?_of_write_over (nonroot : place ≠ []) (plain : ∀ name ∈ place, IsPlain name)
    (same : (pathOf place).extension? = some extension)
    (written : tree.write ((pathOf place).withExtension extension) content = .ok after) :
    after.get? place = some (.file content) := by
  obtain rfl | ⟨home, name, rfl⟩ := List.eq_nil_or_concat' place
  · contradiction
  have last := plain name (List.mem_append_right _ List.mem_cons_self)
  obtain ⟨front, segments⟩ := last_pathOf home last.slash
  rw [Path.withExtension_self segments last.idle last.upwards same] at written
  obtain ⟨home', name', writes⟩ := write_ok written
  have there := walk_pathOf nonroot plain (resolve_ok_iff.mp writes.resolve).2
  rw [← there]
  exact writes.get?_self

end FileTree

namespace Command

open Run

variable {arguments : Arguments} {tree : FileTree} {input : Path} {place : Place}

theorem inputFile_ok {path : Path} (h : inputFile tree path = .ok input) :
    ∃ place content, tree.resolve path = .ok place ∧ tree.get? place = some (.file content) ∧
      input = FileTree.pathOf place := by
  rw [inputFile] at h
  split at h
  · next file canonical =>
    cases h
    rw [FileTree.canonicalFile?] at canonical
    split at canonical
    · next place found =>
      split at canonical
      · next content present =>
        cases canonical
        exact ⟨place, content, found, present, rfl⟩
      · contradiction
    · contradiction
  · contradiction

theorem isPlain_beside {name : List Char} (clean : '/' ∉ name) :
    FileTree.IsPlain (String.ofList ((Path.splitExtension name).1 ++ "_rb".toList)) := by
  have letter : 'b' ∈ (Path.splitExtension name).1 ++ "_rb".toList :=
    List.mem_append_right _ (by decide)
  have slash : '/' ∉ (Path.splitExtension name).1 ++ "_rb".toList := by
    rw [List.mem_append, not_or]
    exact ⟨fun stem => clean (Path.mem_of_mem_stem stem), by decide⟩
  rw [← @String.toList_ofList ((Path.splitExtension name).1 ++ "_rb".toList)] at letter slash
  exact .of_mem slash letter (by decide)

theorem outputDirectory_of_segments {front : List (List Char)} {name : List Char}
    (segments : input.segments = front ++ [name]) (busy : Path.isIdle name = false)
    (upwards : name ≠ ['.', '.']) :
    ∃ parent, input.parent? = some parent ∧ outputDirectory input none =
      parent.join (String.ofList ((Path.splitExtension name).1 ++ "_rb".toList)) := by
  have core := Path.reversedCore_of_segments segments busy
  obtain ⟨parent, above⟩ : ∃ parent, input.parent? = some parent := by
    simp only [Path.parent?, core]
    split <;> exact ⟨_, rfl⟩
  refine ⟨parent, above, ?_⟩
  simp only [outputDirectory, Path.stem?, above, Path.fileName?_of_segments segments busy upwards,
    Option.map_some, Option.getD_some]

/-- The directory beside a place holds no file at that place. -/
theorem not_namedIn_beside {names : List String} (plain : ∀ name ∈ names, FileTree.IsPlain name) :
    ¬ FileTree.NamedIn tree (outputDirectory (FileTree.pathOf place) none) names place := by
  rintro ⟨home, name, walked, mem, rfl⟩
  have last := plain name mem
  obtain ⟨front, segments⟩ := FileTree.last_pathOf home last.slash
  obtain ⟨parent, above, beside⟩ := outputDirectory_of_segments segments last.idle last.upwards
  have next := isPlain_beside last.slash
  rw [beside] at walked
  have absolute : (parent.join (String.ofList
      ((Path.splitExtension name.toList).1 ++ "_rb".toList))).isAbsolute = true := by
    rw [Path.isAbsolute_join parent next.slash]
    exact Path.isAbsolute_parent above (FileTree.isAbsolute_pathOf _)
  have upper : ∀ other ∈ home, FileTree.IsPlain other := by
    rw [FileTree.start, if_pos absolute] at walked
    exact FileTree.isPlain_of_walk (fun _ => Path.slash_notMem_splitSlashes) (by simp) walked
  have all : ∀ other ∈ home ++ [name], FileTree.IsPlain other := by
    rw [List.forall_mem_append, List.forall_mem_singleton]
    exact ⟨upper, last⟩
  cases above.symm.trans (FileTree.parent?_pathOf all)
  -- The directory would stand in itself.
  obtain ⟨home', walked', inside⟩ := FileTree.walk_join next walked
  have nonroot : home ≠ [] := inside ▸ List.append_ne_nil_of_right_ne_nil _ (List.cons_ne_nil _ _)
  cases FileTree.walk_pathOf nonroot upper walked'
  simp at inside

/-- Separate files leave the input alone. -/
theorem splitTargets_beside {project : Project} {only : Option String} {targets : List Entity}
    {world : World} (selected : project.select only = .ok targets)
    (present : world.tree.get? place ≠ none) :
    (splitTargets project only (outputDirectory (FileTree.pathOf place) none) world).2.tree.get?
      place = world.tree.get? place := by
  obtain same | ⟨missing, _⟩ | named := splitTargets_frame selected place
  · exact same
  · exact absurd missing present
  · exact absurd named (not_namedIn_beside (isPlain_filesFor targets))

theorem writeSource_beside {source : String} {world : World}
    (present : world.tree.get? place ≠ none)
    (other : (writeSource (outputFile (FileTree.pathOf place) none) source world).1 = .ok () →
      (FileTree.pathOf place).extension? ≠ some "rb".toList) :
    (writeSource (outputFile (FileTree.pathOf place) none) source world).2.tree.get? place =
      world.tree.get? place := by
  cases done : (writeSource (outputFile (FileTree.pathOf place) none) source world).1 with
  | ok _ =>
      have written := writeSource_ok done
      rw [FileTree.get?_of_write_beside (by decide) (by decide) (other done) written]
      exact treeAbove_old _ _ present
  | error error =>
      rw [writeSource_error done]
      exact treeAbove_old _ _ present

theorem splitTargets_keeps {project : Project} {only : Option String} {targets : List Entity}
    (selected : project.select only = .ok targets) (directory : Path) (world : World) :
    FileTree.Keeps world.tree (splitTargets project only directory world).2.tree := by
  have extended := (world.tree.makeDirectories_extends directory).keeps
  cases made : (world.tree.makeDirectories directory).error with
  | none =>
      rw [splitTargets_of_made selected made, (writeTargets_writeAll _ _ _ _).1]
      exact extended.trans (FileTree.writeAll_keeps _ _ _)
  | some error =>
      rw [splitTargets_of_unmade selected made]
      exact extended

theorem treeAbove_keeps (tree : FileTree) (file : Path) :
    FileTree.Keeps tree (treeAbove tree file) := by
  rw [treeAbove]
  split
  · exact (tree.makeDirectories_extends _).keeps
  · exact .refl tree

theorem writeSource_keeps (file : Path) (source : String) (world : World) :
    FileTree.Keeps world.tree (writeSource file source world).2.tree := by
  have above := treeAbove_keeps world.tree file
  cases done : (writeSource file source world).1 with
  | ok _ =>
      obtain ⟨home, name, writes⟩ := FileTree.write_ok (writeSource_ok done)
      exact above.trans writes.keeps
  | error error =>
      rw [writeSource_error done]
      exact above

/-- A run succeeds in writing one file beside an input that has the extension of that file. -/
structure WritesOver (arguments : Arguments) (tree : FileTree) (input : Path) : Prop where
  found : inputFile tree ⟨arguments.input⟩ = .ok input
  extension : input.extension? = some "rb".toList
  joint : arguments.splitTargets = false
  silent : arguments.stdout = false
  done : (execute arguments tree).1 = .ok ()

theorem execute_kept (beside : arguments.output = none)
    (apart : ∀ input, ¬ WritesOver arguments tree input) :
    (execute arguments tree).2.tree.read ⟨arguments.input⟩ = tree.read ⟨arguments.input⟩ := by
  obtain unchanged | ⟨input, world, found, rfl, written⟩ := execute_cases arguments tree
  · rw [unchanged]
  obtain ⟨place, content, resolved, file, rfl⟩ := inputFile_ok found
  have present : world.tree.get? place ≠ none := by simp [file]
  obtain ⟨project, targets, _, selected, same⟩ | ⟨source, joint, silent, same⟩ := written
  · rw [same, beside]
    exact FileTree.read_eq_of_keeps (splitTargets_keeps selected _ world) resolved
      (splitTargets_beside selected present)
  · have apart : (execute arguments world.tree).1 = .ok () →
        (FileTree.pathOf place).extension? ≠ some "rb".toList :=
      fun done extension => apart _ ⟨found, extension, joint, silent, done⟩
    rw [same, beside] at apart ⊢
    exact FileTree.read_eq_of_keeps (writeSource_keeps _ source world) resolved
      (writeSource_beside present apart)

theorem WritesOver.read (h : WritesOver arguments tree input) (beside : arguments.output = none)
    (plain : ∀ name ∈ tree.workingDirectory, FileTree.IsPlain name) :
    ∃ source, (convertFile tree ⟨arguments.input⟩ arguments.target).result = .ok source ∧
      (execute arguments tree).2.tree.read ⟨arguments.input⟩ = .ok (Text.utf8Bytes source) := by
  cases converted : (convertFile tree ⟨arguments.input⟩ arguments.target).result with
  | error error =>
      cases h.done.symm.trans (execute_of_unconverted converted).1
  | ok source =>
      refine ⟨source, rfl, ?_⟩
      obtain ⟨input', project, found, loaded, emitted⟩ := convertFile_ok converted
      cases h.found.symm.trans found
      obtain ⟨place, content, resolved, file, rfl⟩ := inputFile_ok found
      have written := execute_file found loaded h.joint emitted h.silent h.done
      rw [beside, outputFile] at written
      obtain ⟨home, name, writes⟩ := FileTree.write_ok written
      have kept := (treeAbove_keeps _ _).trans writes.keeps
      have nonroot : place ≠ [] := by
        rintro rfl
        cases file
      have names : ∀ name ∈ place, FileTree.IsPlain name := by
        refine FileTree.isPlain_of_walk (fun _ => Path.slash_notMem_splitSlashes) ?_
          (FileTree.resolve_ok_iff.mp resolved).2
        rw [FileTree.start]
        split
        · simp
        · exact plain
      have replaced := FileTree.get?_of_write_over nonroot names h.extension written
      exact FileTree.read_ok_iff.mpr ⟨place, kept.resolve resolved, replaced⟩

/-- Without an output argument the input stays as it is, whatever the mode and the outcome, but
for a run that succeeds in writing one file where the input has the extension of that file: then
the input holds the source, and the project is lost. -/
theorem execute_input (arguments : Arguments) (tree : FileTree) (beside : arguments.output = none) :
    let after := (execute arguments tree).2.tree
    ((∀ input, ¬ WritesOver arguments tree input) →
      after.read ⟨arguments.input⟩ = tree.read ⟨arguments.input⟩) ∧
    ((∀ name ∈ tree.workingDirectory, FileTree.IsPlain name) →
      ∀ input, WritesOver arguments tree input →
        ∃ source, (convertFile tree ⟨arguments.input⟩ arguments.target).result = .ok source ∧
          after.read ⟨arguments.input⟩ = .ok (Text.utf8Bytes source)) :=
  ⟨execute_kept beside, fun plain _ lost => lost.read beside plain⟩

/-- Of one archive, separate files leave what it was, and a single file takes its place. -/
theorem execute_input_by_mode : ∃ (tree : FileTree) (archive : List UInt8),
    tree.read ⟨"../work/game.rb"⟩ = .ok archive ∧
    (execute ⟨"../work/game.rb", none, none, true, false⟩ tree).2.tree.read
      ⟨"../work/game.rb"⟩ = .ok archive ∧
    (execute ⟨"../work/game.rb", none, none, false, false⟩ tree).2.tree.read
      ⟨"../work/game.rb"⟩ = .ok (Text.utf8Bytes "Sprite.new(\"a\")\n") := by
  obtain ⟨tree, archive, read, home, converted, found, done⟩ :
      ∃ (tree : FileTree) (archive : List UInt8),
      tree.read ⟨"../work/game.rb"⟩ = .ok archive ∧ tree.workingDirectory = ["work"] ∧
      (convertFile tree ⟨"../work/game.rb"⟩ none).result = .ok "Sprite.new(\"a\")\n" ∧
      inputFile tree ⟨"../work/game.rb"⟩ = .ok ⟨"/work/game.rb"⟩ ∧
      (execute ⟨"../work/game.rb", none, none, false, false⟩ tree).1 = .ok () :=
    ⟨⟨["work"], [(["work"], .directory), (["work", "game.rb"], .file (Archive.stored
      [⟨projectEntry, Text.utf8Bytes
        r#"{"targets":[{"name":"a","isStage":false}]}"#⟩]))]⟩,
      _, rfl, by decide +kernel⟩
  have plain : ∀ name ∈ tree.workingDirectory, FileTree.IsPlain name := by
    rw [home, List.forall_mem_singleton]
    exact ⟨by decide, by decide, by decide⟩
  refine ⟨tree, archive, read, ?_, ?_⟩
  · rw [← read]
    apply (execute_input ⟨"../work/game.rb", none, none, true, false⟩ tree rfl).1
    intro input lost
    cases lost.joint
  · obtain ⟨source, same, lost⟩ :=
      (execute_input ⟨"../work/game.rb", none, none, false, false⟩ tree rfl).2 plain _
        ⟨found, by decide, rfl, rfl, done⟩
    cases converted.symm.trans same
    exact lost

/-- An archive that is called as if it were a source is written over. -/
theorem execute_loses_input : ∃ (arguments : Arguments) (tree : FileTree),
    parseArguments ["game.rb"] = .ok arguments ∧ arguments.output = none ∧
    (execute arguments tree).2.tree.read ⟨arguments.input⟩ ≠ tree.read ⟨arguments.input⟩ :=
  ⟨⟨"game.rb", none, none, false, false⟩,
    ⟨[], [(["game.rb"], .file (Archive.stored [⟨projectEntry, Text.utf8Bytes
      r#"{"targets":[{"name":"a","isStage":false}]}"#⟩]))]⟩,
    by decide +kernel⟩

end Command

end SpriteScript
