import SpriteScript.Proofs.OutputModes

/-!
What a run leaves in the file tree. Printing leaves it alone, and so does every run that fails
before it comes to writing. A run that writes one file changes that file and adds directories
above it. A run that writes a file for each target stops at the first one that cannot be written:
those before it are complete, and those from it on were not written.
-/

namespace SpriteScript

namespace FileTree

variable {before after tree : FileTree} {file directory : Path}

/-- Compared with the tree before, only the file to which a path leads may have changed, and only
that file and directories above it may be new. -/
structure OnlyWrites (file : Path) (before after : FileTree) : Prop where
  old : ∀ place, before.get? place ≠ none →
    after.get? place = before.get? place ∨ after.resolve file = .ok place
  new : ∀ place, before.get? place = none → after.get? place ≠ none →
    after.resolve file = .ok place ∨
      after.get? place = some .directory ∧
        ∃ parent, file.parent? = some parent ∧ OnWay after parent place

theorem OnlyWrites.refl (file : Path) (tree : FileTree) : OnlyWrites file tree tree where
  old := fun _ _ => .inl rfl
  new := fun _ missing present => absurd missing present

theorem Extends.onlyWrites {parent : Path} (h : Extends parent before after)
    (above : file.parent? = some parent) : OnlyWrites file before after where
  old := fun _ present => .inl (h.get?_of_ne_none present)
  new := by
    intro place missing present
    obtain same | ⟨_, made, way⟩ := h.nodes place
    · exact absurd (same.trans missing) present
    · exact .inr ⟨made, parent, above, way⟩

theorem OnlyWrites.write {middle : FileTree} {content : List UInt8}
    (h : OnlyWrites file before middle) (written : middle.write file content = .ok after) :
    OnlyWrites file before after := by
  obtain ⟨home, name, writes⟩ := write_ok written
  have kept := writes.keeps
  constructor
  · intro place present
    by_cases here : place = home ++ [String.ofList name]
    · exact .inr (here ▸ writes.resolve)
    · rw [writes.get?_of_ne here]
      exact (h.old place present).imp_right kept.resolve
  · intro place missing present
    by_cases here : place = home ++ [String.ofList name]
    · exact .inl (here ▸ writes.resolve)
    · rw [writes.get?_of_ne here] at present ⊢
      refine (h.new place missing present).imp kept.resolve ?_
      rintro ⟨made, parent, above, way⟩
      exact ⟨made, parent, above, way.mono kept⟩

/-- No file was put where a path leads: what files there are were there before. -/
def Unwritten (path : Path) (before after : FileTree) : Prop :=
  ∀ place, after.resolve path = .ok place → ∀ content,
    after.get? place = some (.file content) ↔ before.get? place = some (.file content)

theorem Confined.unwritten {names : List String} {name : String}
    (h : Confined directory names before after) (plain : IsPlain name) (other : name ∉ names) :
    Unwritten (directory.join name) before after := by
  intro place found content
  obtain same | ⟨missing, made, _⟩ | ⟨home, named, walked, mem, eq⟩ := h place
  · rw [same]
  · simp [missing, made]
  · obtain ⟨home', _, eq'⟩ := walk_join plain (resolve_ok_iff.mp found).2
    obtain ⟨_, alike⟩ := List.append_inj' (eq'.symm.trans eq) rfl
    rw [List.singleton_inj] at alike
    exact absurd (alike ▸ mem) other

/-- How far the writing of files into a directory came: the first ones are there with their whole
texts, the others were not written, and nothing else has changed but for new directories on the
way. -/
structure WrittenUpTo (done : Nat) (directory : Path) (files : List (String × String))
    (before after : FileTree) : Prop where
  le : done ≤ files.length
  written : ∀ file ∈ files.take done,
    after.read (directory.join file.1) = .ok (Text.utf8Bytes file.2)
  unwritten : ∀ file ∈ files.drop done, Unwritten (directory.join file.1) before after
  confined : Confined directory ((files.take done).map Prod.fst) before after

/-- Once the first files are written, the others still have their names to themselves. -/
theorem WrittenUpTo.of_writeAll {done : Nat} {files : List (String × String)}
    (plain : ∀ name ∈ files.map Prod.fst, IsPlain name) (distinct : (files.map Prod.fst).Nodup)
    (extended : Extends directory before tree) (le : done ≤ files.length)
    (h : tree.writeAll directory (files.take done) = ⟨after, none⟩) :
    WrittenUpTo done directory files before after := by
  have first : (files.take done).map Prod.fst = (files.map Prod.fst).take done := List.map_take
  have clean : ∀ name ∈ (files.take done).map Prod.fst, '/' ∉ name.toList := by
    intro name mem
    exact (plain name (List.mem_of_mem_take (first ▸ mem))).slash
  have confined := confined_writeAll extended clean
  have read := writeAll_read clean (first ▸ distinct.sublist (List.take_sublist done _))
    (congrArg Outcome.error h)
  rw [h] at confined read
  refine ⟨le, read, ?_, confined⟩
  intro file mem
  have later : file.1 ∈ (files.map Prod.fst).drop done := by
    rw [← List.map_drop]
    exact List.mem_map_of_mem mem
  refine confined.unwritten (plain file.1 (List.mem_of_mem_drop later)) ?_
  intro early
  exact List.disjoint_take_drop distinct (Nat.le_refl done) (first ▸ early) later

end FileTree

theorem FileName.IsName.isPlain {file : String} (h : IsName file) : FileTree.IsPlain file := by
  obtain ⟨body, whole, _⟩ := h.body
  have letter : 'r' ∈ file.toList := by simp [whole]
  exact .of_mem (h.notMem (by decide) (by decide)) letter (by decide)

namespace Command

open Run

/-- Printing and writing separate files exclude each other. -/
theorem parseArguments_modes {line : List String} {arguments : Arguments}
    (accepted : parseArguments line = .ok arguments) (printed : arguments.stdout = true) :
    arguments.splitTargets = false := by
  rw [parseArguments, Except.bind_eq_ok_iff] at accepted
  obtain ⟨scan, _, accepted⟩ := accepted
  rw [Except.bind_eq_ok_iff] at accepted
  obtain ⟨settled, _, accepted⟩ := accepted
  dsimp only at accepted
  split at accepted
  · contradiction
  · next apart =>
    split at accepted
    · contradiction
    · cases accepted
      rw [Bool.and_eq_true, not_and, Bool.not_eq_true] at apart
      exact apart printed

variable {file : Path} {source : String} {world : World}

theorem writeFile_error {error : RunError}
    (failed : (writeFile file source world).1 = .error error) :
    (writeFile file source world).2.tree = world.tree := by
  cases written : world.tree.write file (Text.utf8Bytes source) with
  | ok tree =>
      rw [writeFile_of_ok written] at failed
      contradiction
  | error cause => rw [writeFile_of_error written]

/-- A run that fails has at most made directories. -/
theorem writeSource_error {error : RunError}
    (failed : (writeSource file source world).1 = .error error) :
    (writeSource file source world).2.tree = treeAbove world.tree file := by
  rw [writeSource] at failed ⊢
  rw [treeAbove]
  cases above : file.parent? with
  | none =>
      rw [above] at failed
      exact writeFile_error failed
  | some parent =>
      rw [above] at failed
      dsimp only at failed ⊢
      cases made : (world.tree.makeDirectories parent).error with
      | none =>
          rw [bind_of_ok (makeDirectories_of_none made)] at failed ⊢
          exact writeFile_error failed
      | some error => rw [bind_of_error (makeDirectories_of_some made)]

theorem treeAbove_onlyWrites (tree : FileTree) (file : Path) :
    FileTree.OnlyWrites file tree (treeAbove tree file) := by
  rw [treeAbove]
  split
  · next parent above => exact (tree.makeDirectories_extends parent).onlyWrites above
  · exact .refl file tree

theorem treeAbove_old (tree : FileTree) (file : Path) {place : Place}
    (present : tree.get? place ≠ none) : (treeAbove tree file).get? place = tree.get? place := by
  rw [treeAbove]
  split
  · next parent above => exact (tree.makeDirectories_extends parent).get?_of_ne_none present
  · rfl

theorem writeSource_onlyWrites (file : Path) (source : String) (world : World) :
    FileTree.OnlyWrites file world.tree (writeSource file source world).2.tree := by
  have above := treeAbove_onlyWrites world.tree file
  cases done : (writeSource file source world).1 with
  | ok _ => exact above.write (writeSource_ok done)
  | error error =>
      rw [writeSource_error done]
      exact above

theorem writeTargets_account (directory : Path) (taken : List String) (targets : List Entity)
    (world : World) :
    let files := filesFor taken targets
    let outcome := writeTargets directory taken targets world
    ∃ done ≤ files.length,
      world.tree.writeAll directory (files.take done) = ⟨outcome.2.tree, none⟩ ∧
      (outcome.1 = .ok () ∧ done = files.length ∨
        ∃ file cause, files[done]? = some file ∧
          outcome.2.tree.write (directory.join file.1) (Text.utf8Bytes file.2) = .error cause ∧
          outcome.1 = .error (.writing (directory.join file.1).shown cause)) := by
  induction targets generalizing taken world with
  | nil => exact ⟨0, Nat.le_refl 0, rfl, .inl ⟨rfl, rfl⟩⟩
  | cons target targets ih =>
      have files : filesFor taken (target :: targets) =
          (FileName.fresh target.name taken, Source.entity target ++ "\n") ::
            filesFor (FileName.allocate target.name taken).2 targets := rfl
      cases written : world.tree.write (directory.join (FileName.fresh target.name taken))
          (Text.utf8Bytes (Source.entity target ++ "\n")) with
      | ok tree =>
          obtain ⟨done, le, all, ended⟩ := ih (FileName.allocate target.name taken).2
            { world with
              tree
              notices := world.notices ++ [Source.entityNotice target] ++
                [.wrote (FileName.fresh target.name taken) target.name] }
          dsimp only
          rw [writeTargets_cons_of_ok written, files]
          refine ⟨done + 1, Nat.succ_le_succ le, ?_, ?_⟩
          · rw [List.take_succ_cons, FileTree.writeAll, written]
            exact all
          · rw [List.length_cons, List.getElem?_cons_succ, Nat.add_right_cancel_iff]
            exact ended
      | error cause =>
          dsimp only
          rw [writeTargets_cons_of_error written, files]
          exact ⟨0, Nat.zero_le _, rfl, .inr ⟨_, cause, rfl, written, rfl⟩⟩

theorem isPlain_filesFor (targets : List Entity) :
    ∀ name ∈ (filesFor [] targets).map Prod.fst, FileTree.IsPlain name := by
  intro name mem
  rw [filesFor_names] at mem
  exact (FileName.isName_allocateAll _ _ name mem).isPlain

/-- The run writes all files, or it fails at one of them or at their directory. -/
theorem splitTargets_account {project : Project} {only : Option String} {targets : List Entity}
    (selected : project.select only = .ok targets) (directory : Path) (world : World) :
    let files := filesFor [] targets
    let outcome := splitTargets project only directory world
    ∃ done, FileTree.WrittenUpTo done directory files world.tree outcome.2.tree ∧
      (outcome.1 = .ok () ∧ done = files.length ∨
        (∃ cause, outcome.1 = .error (.creating directory.shown cause) ∧ done = 0) ∨
        ∃ file cause, files[done]? = some file ∧
          outcome.2.tree.write (directory.join file.1) (Text.utf8Bytes file.2) = .error cause ∧
          outcome.1 = .error (.writing (directory.join file.1).shown cause)) := by
  have extended := world.tree.makeDirectories_extends directory
  have plain := isPlain_filesFor targets
  have distinct := filesFor_distinct targets
  dsimp only
  cases made : (world.tree.makeDirectories directory).error with
  | none =>
      rw [splitTargets_of_made selected made]
      obtain ⟨done, le, all, ended⟩ := writeTargets_account directory [] targets
        { world with tree := (world.tree.makeDirectories directory).tree }
      exact ⟨done, .of_writeAll plain distinct extended le all, ended.imp_right .inr⟩
  | some cause =>
      rw [splitTargets_of_unmade selected made]
      exact ⟨0, .of_writeAll plain distinct extended (Nat.zero_le _) rfl,
        .inr (.inl ⟨cause, rfl, rfl⟩)⟩

section

variable {arguments : Arguments} {tree : FileTree} {input : Path} {project : Project}
  {targets : List Entity}

/-- A run that fails while it finds or loads the input or selects targets changes nothing. -/
theorem execute_of_unconverted {error : RunError}
    (failed : (convertFile tree ⟨arguments.input⟩ arguments.target).result = .error error) :
    (execute arguments tree).1 = .error error ∧ (execute arguments tree).2.tree = tree :=
  (run_of_error failed).failed.imp_right Told.tree

theorem execute_printed (printed : arguments.stdout = true)
    (joint : arguments.splitTargets = false) : (execute arguments tree).2.tree = tree := by
  cases converted : (convertFile tree ⟨arguments.input⟩ arguments.target).result with
  | error error => exact (execute_of_unconverted converted).2
  | ok source =>
      obtain ⟨input, project, found, loaded, emitted⟩ := convertFile_ok converted
      exact (execute_stdout found loaded joint emitted printed).2.2

/-- The files are as before, or the run came to writing the targets or the source of its input. -/
theorem execute_cases (arguments : Arguments) (tree : FileTree) :
    (execute arguments tree).2.tree = tree ∨
    ∃ input world, inputFile tree ⟨arguments.input⟩ = .ok input ∧ world.tree = tree ∧
      ((∃ project targets, arguments.splitTargets = true ∧
          project.select arguments.target = .ok targets ∧
          execute arguments tree = splitTargets project arguments.target
            (outputDirectory input arguments.output) world) ∨
        ∃ source, arguments.splitTargets = false ∧ arguments.stdout = false ∧
          execute arguments tree =
            writeSource (outputFile input arguments.output) source world) := by
  cases converted : (convertFile tree ⟨arguments.input⟩ arguments.target).result with
  | error error => exact .inl (execute_of_unconverted converted).2
  | ok source =>
      obtain ⟨input, project, found, loaded, emitted⟩ := convertFile_ok converted
      cases split : arguments.splitTargets with
      | true =>
          obtain ⟨targets, selected, _⟩ := Source.select_of_project emitted
          obtain ⟨world, told, same⟩ := run_splitTargets found loaded split
          exact .inr ⟨input, world, found, told.tree,
            .inl ⟨project, targets, rfl, selected, same⟩⟩
      | false =>
          cases printed : arguments.stdout with
          | true => exact .inl (execute_printed printed split)
          | false =>
              obtain ⟨world, told, same⟩ := run_writeSource found loaded split emitted printed
              exact .inr ⟨input, world, found, told.tree, .inr ⟨source, rfl, rfl, same⟩⟩

theorem execute_onlyWrites (found : inputFile tree ⟨arguments.input⟩ = .ok input)
    (joint : arguments.splitTargets = false) :
    FileTree.OnlyWrites (outputFile input arguments.output) tree (execute arguments tree).2.tree ∧
      ((execute arguments tree).1 ≠ .ok () → ∀ place, tree.get? place ≠ none →
        (execute arguments tree).2.tree.get? place = tree.get? place) := by
  obtain unchanged | ⟨input', world, found', rfl, written⟩ := execute_cases arguments tree
  · rw [unchanged]
    exact ⟨.refl _ tree, fun _ _ _ => rfl⟩
  obtain ⟨_, _, split, _⟩ | ⟨source, _, _, same⟩ := written
  · rw [joint] at split
    contradiction
  · cases found.symm.trans found'
    rw [same]
    refine ⟨writeSource_onlyWrites _ _ world, ?_⟩
    intro unfinished place present
    cases done : (writeSource (outputFile input arguments.output) source world).1 with
    | ok _ => exact absurd done unfinished
    | error error =>
        rw [writeSource_error done]
        exact treeAbove_old _ _ present

end

/-- What the run of an accepted line leaves in the file tree. When it prints, and when it fails
before writing, all is as before. When it writes one file, only that file changes, if the run
succeeds, and only directories above it are new besides. When it writes a file for each target,
those before the one that fails are complete, and that one and those behind it were not written. -/
theorem execute_effects {line : List String} {arguments : Arguments}
    (accepted : parseArguments line = .ok arguments) (tree : FileTree) :
    let outcome := execute arguments tree
    (arguments.stdout = true → outcome.2.tree = tree) ∧
    (∀ error, (convertFile tree ⟨arguments.input⟩ arguments.target).result = .error error →
      outcome.1 = .error error ∧ outcome.2.tree = tree) ∧
    (∀ input, inputFile tree ⟨arguments.input⟩ = .ok input →
      arguments.stdout = false → arguments.splitTargets = false →
      FileTree.OnlyWrites (outputFile input arguments.output) tree outcome.2.tree ∧
        (outcome.1 ≠ .ok () → ∀ place, tree.get? place ≠ none →
          outcome.2.tree.get? place = tree.get? place)) ∧
    ∀ input project targets, inputFile tree ⟨arguments.input⟩ = .ok input →
      (loadInput tree input).result = .ok project →
      project.select arguments.target = .ok targets → arguments.splitTargets = true →
      let directory := outputDirectory input arguments.output
      let files := filesFor [] targets
      ∃ done, FileTree.WrittenUpTo done directory files tree outcome.2.tree ∧
        (outcome.1 = .ok () ∧ done = files.length ∨
          (∃ cause, outcome.1 = .error (.creating directory.shown cause) ∧ done = 0) ∨
          ∃ file cause, files[done]? = some file ∧
            outcome.2.tree.write (directory.join file.1) (Text.utf8Bytes file.2) = .error cause ∧
            outcome.1 = .error (.writing (directory.join file.1).shown cause)) := by
  refine ⟨?_, ?_, ?_, ?_⟩
  · intro printed
    exact execute_printed printed (parseArguments_modes accepted printed)
  · intro error failed
    exact execute_of_unconverted failed
  · intro input found _ joint
    exact execute_onlyWrites found joint
  · intro input project targets found loaded selected split directory files
    obtain ⟨after, told, same⟩ := run_splitTargets found loaded split
    have start : after.tree = tree := told.tree
    rw [execute, same, ← start]
    exact splitTargets_account selected directory after

/-- The second of two targets cannot be written where a directory stands. -/
theorem execute_effects_stopped : ∃ arguments tree,
    parseArguments ["p.json", "out", "--split-targets"] = .ok arguments ∧
    (execute arguments tree).1 = .error (.writing "out/b.rb" .isDirectory) ∧
    (execute arguments tree).2.tree.read ⟨"out/a.rb"⟩ =
      .ok (Text.utf8Bytes "Sprite.new(\"a\")\n") ∧
    FileTree.Unwritten ⟨"out/b.rb"⟩ tree (execute arguments tree).2.tree := by
  have accepted : parseArguments ["p.json", "out", "--split-targets"] =
      .ok ⟨"p.json", some "out", none, true, false⟩ := by decide +kernel
  obtain ⟨tree, found, loaded, failed⟩ : ∃ tree,
      inputFile tree ⟨"p.json"⟩ = .ok ⟨"/p.json"⟩ ∧
      (loadInput tree ⟨"/p.json"⟩).result = .ok ⟨[.sprite "a", .sprite "b"]⟩ ∧
      (execute ⟨"p.json", some "out", none, true, false⟩ tree).1 =
        .error (.writing "out/b.rb" .isDirectory) :=
    ⟨⟨[], [(["p.json"], .file (Text.utf8Bytes
      (r#"{"targets":[{"name":"a","isStage":false},"# ++
        r#"{"name":"b","isStage":false}]}"#))),
      (["out"], .directory), (["out", "b.rb"], .directory)]⟩, by decide +kernel⟩
  have selected : (⟨[.sprite "a", .sprite "b"]⟩ : Project).select none =
      .ok [.sprite "a", .sprite "b"] := by decide +kernel
  have files : filesFor [] [.sprite "a", .sprite "b"] =
      [("a.rb", "Sprite.new(\"a\")\n"), ("b.rb", "Sprite.new(\"b\")\n")] := by decide +kernel
  refine ⟨_, tree, accepted, failed, ?_⟩
  obtain ⟨done, upTo, ended⟩ :=
    (execute_effects accepted tree).2.2.2 _ _ _ found loaded selected rfl
  rw [failed, files] at ended
  rw [files] at upTo
  obtain ⟨success, _⟩ | ⟨cause, unmade, _⟩ | ⟨file, cause, place, _, stopped⟩ := ended
  · cases success
  · cases unmade
  · obtain _ | _ | done := done
    · cases place
      exact absurd (RunError.writing.inj (Except.error.inj stopped)).1 (by decide)
    · have first : (outputDirectory ⟨"/p.json"⟩ (some "out")).join "a.rb" = ⟨"out/a.rb"⟩ := by
        decide
      have second : (outputDirectory ⟨"/p.json"⟩ (some "out")).join "b.rb" = ⟨"out/b.rb"⟩ := by
        decide
      have written := upTo.written ("a.rb", "Sprite.new(\"a\")\n") List.mem_cons_self
      have unwritten := upTo.unwritten ("b.rb", "Sprite.new(\"b\")\n") List.mem_cons_self
      rw [first] at written
      rw [second] at unwritten
      exact ⟨written, unwritten⟩
    · cases place

end Command

end SpriteScript
