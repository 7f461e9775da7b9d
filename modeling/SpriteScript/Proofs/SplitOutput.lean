import SpriteScript.Command.Run
import SpriteScript.Proofs.FileNames
import SpriteScript.Proofs.FileTreeLaws

/-!
Writing every target to a file of its own. The run writes files under the allocated names into
one directory, so it changes nothing but children of that directory, and since the names differ no
file is written twice: at the end each one holds what was written for its target.
-/

namespace SpriteScript

namespace FileTree

variable {tree after : FileTree} {directory : Path}

/-- Writes named texts into a directory, up to the first that cannot be written. -/
def writeAll (directory : Path) : FileTree → List (String × String) → Outcome
  | tree, [] => ⟨tree, none⟩
  | tree, (name, text) :: files =>
    match tree.write (directory.join name) (Text.utf8Bytes text) with
    | .ok tree => writeAll directory tree files
    | .error error => ⟨tree, some error⟩

theorem write_join {name : String} {content : List UInt8} (clean : '/' ∉ name.toList)
    (h : tree.write (directory.join name) content = .ok after) :
    ∃ home, Writes tree (directory.join name) content after home name.toList ∧
      tree.walk (tree.start directory) directory.segments = .ok home := by
  obtain ⟨home, last, writes⟩ := write_ok h
  obtain ⟨rfl, walked⟩ := writes.join clean
  exact ⟨home, writes, walked⟩

theorem writeAll_keeps (directory : Path) (tree : FileTree) (files : List (String × String)) :
    Keeps tree (writeAll directory tree files).tree := by
  induction files generalizing tree with
  | nil => exact Keeps.refl tree
  | cons file files ih =>
      rw [writeAll]
      split
      · next middle written =>
        obtain ⟨home, last, writes⟩ := write_ok written
        exact writes.keeps.trans (ih middle)
      · exact Keeps.refl tree

/-- The places of given names in the directory to which a path leads. -/
def NamedIn (tree : FileTree) (directory : Path) (names : List String) (place : Place) : Prop :=
  ∃ home name, tree.walk (tree.start directory) directory.segments = .ok home ∧
    name ∈ names ∧ place = home ++ [name]

theorem NamedIn.mono {names more : List String} {place : Place}
    (h : NamedIn tree directory names place) (kept : Keeps tree after) (sub : names ⊆ more) :
    NamedIn after directory more place := by
  obtain ⟨home, name, walked, mem, same⟩ := h
  refine ⟨home, name, ?_, sub mem, same⟩
  rw [kept.start]
  exact kept.walk walked

theorem writeAll_get? {files : List (String × String)}
    (clean : ∀ name ∈ files.map Prod.fst, '/' ∉ name.toList) (place : Place) :
    (writeAll directory tree files).tree.get? place = tree.get? place ∨
      NamedIn (writeAll directory tree files).tree directory (files.map Prod.fst) place := by
  induction files generalizing tree with
  | nil => exact .inl rfl
  | cons file files ih =>
      obtain ⟨name, text⟩ := file
      rw [writeAll]
      split
      · next middle written =>
        have rest := @ih middle fun name mem => clean name (List.mem_cons_of_mem _ mem)
        obtain ⟨home, writes, walked⟩ := write_join (clean name List.mem_cons_self) written
        have kept : Keeps tree (writeAll directory middle files).tree :=
          writes.keeps.trans (writeAll_keeps directory middle files)
        obtain same | later := rest
        · by_cases here : place = home ++ [name]
          · have named : NamedIn tree directory (((name, text) :: files).map Prod.fst) place :=
              ⟨home, name, walked, List.mem_cons_self, here⟩
            exact .inr (named.mono kept (List.Subset.refl _))
          · refine .inl (same.trans (writes.get?_of_ne ?_))
            rwa [String.ofList_toList]
        · exact .inr (later.mono (Keeps.refl _) (List.subset_cons_self _ _))
      · exact .inl rfl

/-- Files with different names are all there after the last one is written. -/
theorem writeAll_read {files : List (String × String)}
    (clean : ∀ name ∈ files.map Prod.fst, '/' ∉ name.toList)
    (distinct : (files.map Prod.fst).Nodup) (done : (writeAll directory tree files).error = none) :
    ∀ file ∈ files, (writeAll directory tree files).tree.read (directory.join file.1) =
      .ok (Text.utf8Bytes file.2) := by
  induction files generalizing tree with
  | nil => exact fun file mem => absurd mem List.not_mem_nil
  | cons first files ih =>
      obtain ⟨name, text⟩ := first
      rw [List.map_cons, List.nodup_cons] at distinct
      have cleanRest : ∀ name ∈ files.map Prod.fst, '/' ∉ name.toList :=
        fun name mem => clean name (List.mem_cons_of_mem _ mem)
      rw [writeAll] at done ⊢
      split at done
      · next middle written =>
        intro file mem
        obtain rfl | later := List.mem_cons.mp mem
        · obtain ⟨home, writes, walked⟩ := write_join (clean name List.mem_cons_self) written
          apply writes.read_of_keeps (writeAll_keeps directory middle files)
          -- The later files have other names in the same directory.
          obtain same | ⟨home', other, walked', mem, place⟩ :=
            @writeAll_get? middle directory files cleanRest (home ++ [String.ofList name.toList])
          · exact same.trans writes.get?_self
          · obtain ⟨_, alike⟩ := List.append_inj' place rfl
            rw [String.ofList_toList, List.singleton_inj] at alike
            exact absurd (alike ▸ mem) distinct.1
        · exact ih cleanRest distinct.2 done file later
      · contradiction

/-- Compared with the tree before, there are only new directories on the way of a path and files
under given names in the directory to which it leads. -/
def Confined (directory : Path) (names : List String) (before after : FileTree) : Prop :=
  ∀ place, after.get? place = before.get? place ∨
    (before.get? place = none ∧ after.get? place = some .directory ∧
      OnWay after directory place) ∨
    NamedIn after directory names place

theorem Extends.confined {before : FileTree} (h : Extends directory before after)
    (names : List String) : Confined directory names before after :=
  fun place => (h.nodes place).imp_right .inl

theorem confined_writeAll {before : FileTree} {files : List (String × String)}
    (made : Extends directory before tree)
    (clean : ∀ name ∈ files.map Prod.fst, '/' ∉ name.toList) :
    Confined directory (files.map Prod.fst) before (writeAll directory tree files).tree := by
  intro place
  have kept := writeAll_keeps directory tree files
  obtain same | named := writeAll_get? clean place
  · rw [same]
    obtain old | ⟨missing, new, way⟩ := made.nodes place
    · exact .inl old
    · exact .inr (.inl ⟨missing, new, way.mono kept⟩)
  · exact .inr (.inr named)

end FileTree

namespace Command

open Run

namespace Run

variable {α β : Type} {first : Run α} {next : α → Run β} {world after : World}

theorem bind_of_ok {value : α} (h : first world = (.ok value, after)) :
    (first >>= next) world = next value after := by
  change first.andThen next world = _
  rw [andThen, h]

theorem bind_of_error {error : RunError} (h : first world = (.error error, after)) :
    (first >>= next) world = (.error error, after) := by
  change first.andThen next world = _
  rw [andThen, h]

theorem note_apply (notice : Notice) (world : World) :
    note notice world = (.ok (), { world with notices := world.notices ++ [notice] }) := rfl

variable {file : Path} {text : String}

theorem writeFile_of_ok {tree : FileTree}
    (h : world.tree.write file (Text.utf8Bytes text) = .ok tree) :
    writeFile file text world = (.ok (), { world with tree }) := by
  rw [writeFile, h]

theorem writeFile_of_error {error : FileError}
    (h : world.tree.write file (Text.utf8Bytes text) = .error error) :
    writeFile file text world = (.error (.writing file.shown error), world) := by
  rw [writeFile, h]

variable {directory : Path} {wrap : FileError → RunError}

theorem makeDirectories_of_none (h : (world.tree.makeDirectories directory).error = none) :
    makeDirectories directory wrap world =
      (.ok (), { world with tree := (world.tree.makeDirectories directory).tree }) := by
  rw [makeDirectories, h]

theorem makeDirectories_of_some {error : FileError}
    (h : (world.tree.makeDirectories directory).error = some error) :
    makeDirectories directory wrap world =
      (.error (wrap error),
        { world with tree := (world.tree.makeDirectories directory).tree }) := by
  rw [makeDirectories, h]

end Run

/-- The names and texts of the files for targets. -/
def filesFor (taken : List String) (targets : List Entity) : List (String × String) :=
  (FileName.allocateAll taken (targets.map Entity.name)).zip
    (targets.map fun target => Source.entity target ++ "\n")

theorem filesFor_names (taken : List String) (targets : List Entity) :
    (filesFor taken targets).map Prod.fst =
      FileName.allocateAll taken (targets.map Entity.name) := by
  rw [filesFor, List.map_fst_zip]
  rw [FileName.length_allocateAll, List.length_map, List.length_map]

theorem filesFor_texts (taken : List String) (targets : List Entity) :
    (filesFor taken targets).map Prod.snd =
      targets.map fun target => Source.entity target ++ "\n" := by
  rw [filesFor, List.map_snd_zip]
  rw [FileName.length_allocateAll, List.length_map, List.length_map]

theorem writeTargets_cons_of_ok {directory : Path} {taken : List String} {target : Entity}
    {world : World} {tree : FileTree}
    (h : world.tree.write (directory.join (FileName.fresh target.name taken))
      (Text.utf8Bytes (Source.entity target ++ "\n")) = .ok tree) (targets : List Entity) :
    writeTargets directory taken (target :: targets) world =
      writeTargets directory (FileName.allocate target.name taken).2 targets
        { world with
          tree
          notices := world.notices ++ [Source.entityNotice target] ++
            [.wrote (FileName.fresh target.name taken) target.name] } := by
  rw [writeTargets]
  dsimp only [FileName.allocate]
  rw [bind_of_ok (note_apply _ _)]
  refine Eq.trans (bind_of_ok (writeFile_of_ok ?_)) (bind_of_ok (note_apply _ _))
  exact h

theorem writeTargets_cons_of_error {directory : Path} {taken : List String} {target : Entity}
    {world : World} {error : FileError}
    (h : world.tree.write (directory.join (FileName.fresh target.name taken))
      (Text.utf8Bytes (Source.entity target ++ "\n")) = .error error) (targets : List Entity) :
    writeTargets directory taken (target :: targets) world =
      (.error (.writing (directory.join (FileName.fresh target.name taken)).shown error),
        { world with notices := world.notices ++ [Source.entityNotice target] }) := by
  rw [writeTargets]
  dsimp only [FileName.allocate]
  rw [bind_of_ok (note_apply _ _)]
  exact bind_of_error (writeFile_of_error h)

/-- The run writes the files of the targets in order and fails when one of them cannot be
written. -/
theorem writeTargets_writeAll (directory : Path) (taken : List String) (targets : List Entity)
    (world : World) :
    (writeTargets directory taken targets world).2.tree =
        (world.tree.writeAll directory (filesFor taken targets)).tree ∧
      ((writeTargets directory taken targets world).1 = .ok () ↔
        (world.tree.writeAll directory (filesFor taken targets)).error = none) := by
  induction targets generalizing taken world with
  | nil => exact ⟨rfl, iff_of_true rfl rfl⟩
  | cons target targets ih =>
      have files : filesFor taken (target :: targets) =
          (FileName.fresh target.name taken, Source.entity target ++ "\n") ::
            filesFor (FileName.allocate target.name taken).2 targets := rfl
      rw [files, FileTree.writeAll]
      cases written : world.tree.write (directory.join (FileName.fresh target.name taken))
          (Text.utf8Bytes (Source.entity target ++ "\n")) with
      | ok tree =>
          rw [writeTargets_cons_of_ok written]
          exact ih _ _
      | error error =>
          rw [writeTargets_cons_of_error written]
          exact ⟨rfl, by simp⟩

variable {project : Project} {only : Option String} {targets : List Entity} {directory : Path}
  {world : World}

theorem traced_select (selected : project.select only = .ok targets) :
    traced ((Traced.ofExcept (project.select only)).mapError .unknownTarget) world =
      (.ok targets, world) := by
  rw [selected, traced]
  simp [Traced.ofExcept, Traced.mapError, Except.mapError]

theorem splitTargets_of_made (selected : project.select only = .ok targets)
    (made : (world.tree.makeDirectories directory).error = none) :
    splitTargets project only directory world =
      writeTargets directory [] targets
        { world with tree := (world.tree.makeDirectories directory).tree } := by
  rw [splitTargets, bind_of_ok (traced_select selected)]
  exact bind_of_ok (makeDirectories_of_none made)

theorem splitTargets_of_unmade {error : FileError} (selected : project.select only = .ok targets)
    (unmade : (world.tree.makeDirectories directory).error = some error) :
    splitTargets project only directory world =
      (.error (.creating directory.shown error),
        { world with tree := (world.tree.makeDirectories directory).tree }) := by
  rw [splitTargets, bind_of_ok (traced_select selected)]
  exact bind_of_error (makeDirectories_of_some unmade)

/-- A run that succeeds has made the directory and written all files into it. -/
theorem splitTargets_ok (selected : project.select only = .ok targets)
    (done : (splitTargets project only directory world).1 = .ok ()) :
    (world.tree.makeDirectories directory).tree.writeAll directory (filesFor [] targets) =
      ⟨(splitTargets project only directory world).2.tree, none⟩ := by
  cases made : (world.tree.makeDirectories directory).error with
  | none =>
      rw [splitTargets_of_made selected made] at done ⊢
      obtain ⟨tree, success⟩ := writeTargets_writeAll directory [] targets
        { world with tree := (world.tree.makeDirectories directory).tree }
      rw [tree, ← success.mp done]
  | some error =>
      rw [splitTargets_of_unmade selected made] at done
      contradiction

theorem filesFor_clean (targets : List Entity) :
    ∀ name ∈ (filesFor [] targets).map Prod.fst, '/' ∉ name.toList := by
  intro name mem
  rw [filesFor_names] at mem
  exact (FileName.isName_allocateAll _ _ name mem).notMem (by decide) (by decide)

theorem filesFor_distinct (targets : List Entity) :
    ((filesFor [] targets).map Prod.fst).Nodup := by
  rw [filesFor_names]
  exact (FileName.lowercase_allocateAll _ _).1.of_map _

theorem splitTargets_frame (selected : project.select only = .ok targets) :
    FileTree.Confined directory ((filesFor [] targets).map Prod.fst) world.tree
      (splitTargets project only directory world).2.tree := by
  have extended := world.tree.makeDirectories_extends directory
  cases made : (world.tree.makeDirectories directory).error with
  | none =>
      rw [splitTargets_of_made selected made, (writeTargets_writeAll _ _ _ _).1]
      exact FileTree.confined_writeAll extended (filesFor_clean targets)
  | some error =>
      rw [splitTargets_of_unmade selected made]
      exact extended.confined _

theorem splitTargets_read (selected : project.select only = .ok targets)
    (done : (splitTargets project only directory world).1 = .ok ()) :
    List.Forall₂ (fun name target =>
      (splitTargets project only directory world).2.tree.read (directory.join name) =
        .ok (Text.utf8Bytes (Source.entity target ++ "\n")))
      (FileName.allocateAll [] (targets.map Entity.name)) targets := by
  have all := splitTargets_ok selected done
  have found := FileTree.writeAll_read (filesFor_clean targets) (filesFor_distinct targets)
    (congrArg FileTree.Outcome.error all)
  rw [all, filesFor] at found
  generalize (splitTargets project only directory world).2.tree = after at found ⊢
  have texts : List.Forall₂ (fun name text =>
      after.read (directory.join name) = .ok (Text.utf8Bytes text))
      (FileName.allocateAll [] (targets.map Entity.name))
      (targets.map fun target => Source.entity target ++ "\n") := by
    rw [List.forall₂_iff_zip]
    refine ⟨by rw [FileName.length_allocateAll, List.length_map, List.length_map], ?_⟩
    intro name text mem
    exact found (name, text) mem
  rwa [List.forall₂_map_right_iff] at texts

/-- The names of separate files differ even in lowercase and are single components of paths.
Whatever the run comes to, it changes nothing beside them and the directories on the way to them;
if it succeeds, each file holds the source of its target. -/
theorem splitTargets_confined (project : Project) (only : Option String) (directory : Path)
    (world : World) (targets : List Entity) (selected : project.select only = .ok targets) :
    let names := FileName.allocateAll [] (targets.map Entity.name)
    let outcome := splitTargets project only directory world
    (names.length = targets.length ∧ (names.map Text.lowercase).Nodup ∧
      ∀ name ∈ names, FileName.IsName name ∧ '/' ∉ name.toList ∧ '\x00' ∉ name.toList ∧
        ¬['.', '.'] <:+: name.toList) ∧
    FileTree.Confined directory names world.tree outcome.2.tree ∧
    (outcome.1 = .ok () →
      List.Forall₂ (fun name target => outcome.2.tree.read (directory.join name) =
        .ok (Text.utf8Bytes (Source.entity target ++ "\n"))) names targets) := by
  intro names outcome
  have length : names.length = targets.length := by
    rw [FileName.length_allocateAll, List.length_map]
  refine ⟨⟨length, (FileName.lowercase_allocateAll _ _).1, ?_⟩, ?_, ?_⟩
  · intro name mem
    have shape := FileName.isName_allocateAll _ _ name mem
    exact ⟨shape, shape.notMem (by decide) (by decide), shape.notMem (by decide) (by decide),
      shape.no_dots⟩
  · have frame := @splitTargets_frame project only targets directory world selected
    rwa [filesFor_names] at frame
  · exact splitTargets_read selected

theorem splitTargets_confined_clash :
    ∃ project targets outcome, project.select none = .ok targets ∧
      splitTargets project none ⟨"out"⟩ { tree := ⟨[], []⟩ } = outcome ∧
      targets.map Entity.name = ["Cat", "cat", "../../cat"] ∧ outcome.1 = .ok () ∧
      List.Forall₂ (fun name target => outcome.2.tree.read ((⟨"out"⟩ : Path).join name) =
        .ok (Text.utf8Bytes (Source.entity target ++ "\n")))
        ["Cat.rb", "cat_2.rb", "cat_3.rb"] targets := by
  have selected : (⟨[.sprite "Cat", .sprite "cat", .sprite "../../cat"]⟩ : Project).select none =
      .ok [.sprite "Cat", .sprite "cat", .sprite "../../cat"] := by decide +kernel
  have done : (splitTargets ⟨[.sprite "Cat", .sprite "cat", .sprite "../../cat"]⟩ none ⟨"out"⟩
      { tree := ⟨[], []⟩ }).1 = .ok () := by decide +kernel
  have names : FileName.allocateAll [] ["Cat", "cat", "../../cat"] =
      ["Cat.rb", "cat_2.rb", "cat_3.rb"] := by decide +kernel
  have files := (splitTargets_confined _ _ _ _ _ selected).2.2 done
  refine ⟨_, _, _, selected, rfl, rfl, done, ?_⟩
  rw [← names]
  exact files

end Command

end SpriteScript
