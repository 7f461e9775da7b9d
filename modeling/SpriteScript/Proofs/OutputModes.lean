import SpriteScript.Proofs.SplitOutput
import SpriteScript.Proofs.TargetOrder

/-!
The three ways to put out a source agree. Every run finds the input, loads it and selects targets
as the conversion of a file does, so it fails with the same error; and what it prints, writes to
one file or writes to several files is the converted source.
-/

namespace SpriteScript

theorem intercalate_feeds {texts : List String} (nonempty : texts ≠ []) :
    "\n".intercalate (texts.map (· ++ "\n")) = "\n\n".intercalate texts ++ "\n" := by
  induction texts with
  | nil => exact absurd rfl nonempty
  | cons text texts ih =>
      cases texts with
      | nil => simp [String.intercalate_singleton]
      | cons next texts =>
          have rest := ih (List.cons_ne_nil _ _)
          rw [List.map_cons] at rest
          rw [List.map_cons, List.map_cons, String.intercalate_cons_cons, rest,
            String.intercalate_cons_cons]
          simp only [String.append_assoc]
          rfl

namespace Command

open Run

/-- The separate files of targets, one after the other, are the source of them all. -/
theorem intercalate_filesFor {targets : List Entity} (nonempty : targets ≠ []) :
    "\n".intercalate ((filesFor [] targets).map Prod.snd) =
      "\n\n".intercalate (targets.map Source.entity) ++ "\n" := by
  rw [filesFor_texts, ← intercalate_feeds (by simpa using nonempty), List.map_map]
  rfl

/-- Something may have been said in between, but nothing was printed or written. -/
structure Told (before after : World) : Prop where
  tree : after.tree = before.tree
  stdout : after.stdout = before.stdout

/-- After steps that only talk, a run goes on as another one. -/
def GoesOn {α : Type} (program : Run α) (world : World) (rest : Run α) : Prop :=
  ∃ after, Told world after ∧ program world = rest after

namespace GoesOn

variable {α β : Type} {program middle rest : Run β} {next : α → Run β} {world : World}

theorem trans (h : GoesOn program world middle)
    (h' : ∀ after, Told world after → GoesOn middle after rest) : GoesOn program world rest := by
  obtain ⟨after, told, eq⟩ := h
  obtain ⟨last, told', eq'⟩ := h' after told
  exact ⟨last, ⟨told'.tree.trans told.tree, told'.stdout.trans told.stdout⟩, eq.trans eq'⟩

theorem progress (step total : Nat) (label : String) (program : Run β) (world : World) :
    GoesOn (Run.progress step total label >>= fun _ => program) world program :=
  ⟨{ world with stderr := world.stderr ++ progressLine step total label }, ⟨rfl, rfl⟩,
    bind_of_ok rfl⟩

theorem traced_ok {computation : Traced RunError α} {value : α}
    (h : computation.result = .ok value) :
    GoesOn (traced computation >>= next) world (next value) :=
  ⟨{ world with notices := world.notices ++ computation.notices }, ⟨rfl, rfl⟩,
    bind_of_ok (by rw [traced, h])⟩

theorem traced_error {computation : Traced RunError α} {error : RunError}
    (h : computation.result = .error error) :
    GoesOn (traced computation >>= next) world (fail error) :=
  ⟨{ world with notices := world.notices ++ computation.notices }, ⟨rfl, rfl⟩,
    bind_of_error (by rw [traced, h])⟩

theorem failed {error : RunError} (h : GoesOn program world (fail error)) :
    (program world).1 = .error error ∧ Told world (program world).2 := by
  obtain ⟨after, told, eq⟩ := h
  rw [eq]
  exact ⟨rfl, told⟩

end GoesOn

/-- The tree with the directories above a file. -/
def treeAbove (tree : FileTree) (file : Path) : FileTree :=
  match file.parent? with
  | some parent => (tree.makeDirectories parent).tree
  | none => tree

theorem writeFile_ok {file : Path} {text : String} {world : World}
    (done : (writeFile file text world).1 = .ok ()) :
    world.tree.write file (Text.utf8Bytes text) = .ok (writeFile file text world).2.tree := by
  cases written : world.tree.write file (Text.utf8Bytes text) with
  | ok tree => rw [writeFile_of_ok written]
  | error error =>
      rw [writeFile_of_error written] at done
      contradiction

theorem writeSource_ok {file : Path} {source : String} {world : World}
    (done : (writeSource file source world).1 = .ok ()) :
    (treeAbove world.tree file).write file (Text.utf8Bytes source) =
      .ok (writeSource file source world).2.tree := by
  rw [writeSource] at done ⊢
  rw [treeAbove]
  cases above : file.parent? with
  | none =>
      rw [above] at done
      exact writeFile_ok done
  | some parent =>
      rw [above] at done
      dsimp only at done ⊢
      cases made : (world.tree.makeDirectories parent).error with
      | none =>
          rw [bind_of_ok (makeDirectories_of_none made)] at done ⊢
          exact writeFile_ok done
      | some error =>
          rw [bind_of_error (makeDirectories_of_some made)] at done
          contradiction

/-- Prints a source or writes it to one file. -/
def putOut (arguments : Arguments) (input : Path) (source : String) : Run Unit :=
  if arguments.stdout then print source
  else do
    progress 4 (if arguments.stdout then 3 else 4) "Writing output"
    writeSource (outputFile input arguments.output) source

/-- The part of a run that comes after loading. -/
def deliver (arguments : Arguments) (input : Path) (project : Project) : Run Unit := do
  let total := if arguments.stdout then 3 else 4
  if arguments.splitTargets then do
    progress 3 total "Selecting targets"
    progress 4 total "Writing target files"
    splitTargets project arguments.target (outputDirectory input arguments.output)
  else do
    progress 3 total "Emitting Ruby source"
    let source ← traced ((Source.project project arguments.target).mapError .unknownTarget)
    putOut arguments input source

section

variable {arguments : Arguments} {world : World} {input : Path} {project : Project}

theorem deliver_split (split : arguments.splitTargets = true) :
    GoesOn (deliver arguments input project) world
      (splitTargets project arguments.target (outputDirectory input arguments.output)) := by
  rw [deliver, if_pos split]
  apply GoesOn.trans (GoesOn.progress _ _ _ _ _)
  intro after _
  exact GoesOn.progress _ _ _ _ _

theorem deliver_joint (joint : arguments.splitTargets = false) :
    GoesOn (deliver arguments input project) world
      (traced ((Source.project project arguments.target).mapError .unknownTarget) >>=
        putOut arguments input) := by
  rw [deliver, joint]
  exact GoesOn.progress _ _ _ _ _

theorem deliver_unknown {unknown : UnknownTarget}
    (unselected : project.select arguments.target = .error unknown) :
    GoesOn (deliver arguments input project) world (fail (.unknownTarget unknown)) := by
  cases mode : arguments.splitTargets with
  | true =>
      apply (deliver_split mode).trans
      intro after _
      apply GoesOn.traced_error
      rw [unselected]
      rfl
  | false =>
      apply (deliver_joint mode).trans
      intro after _
      apply GoesOn.traced_error
      rw [Source.project, unselected]
      rfl

end

section

variable {arguments : Arguments} {tree : FileTree} {input : Path} {project : Project}
  {source : String} {error : RunError}

theorem run_goesOn (arguments : Arguments) (world : World) :
    GoesOn (run arguments) world
      (traced (Traced.ofExcept (inputFile world.tree ⟨arguments.input⟩)) >>= fun input =>
        progress 2 (if arguments.stdout then 3 else 4) "Reading project" >>= fun _ =>
        traced (loadInput world.tree input) >>= deliver arguments input) := by
  apply GoesOn.trans (GoesOn.progress _ _ _ _ _)
  intro after told
  refine ⟨after, ⟨rfl, rfl⟩, ?_⟩
  rw [← told.tree]
  rfl

theorem run_of_missing (missing : inputFile tree ⟨arguments.input⟩ = .error error) :
    GoesOn (run arguments) { tree } (fail error) :=
  (run_goesOn arguments { tree }).trans fun _ _ => GoesOn.traced_error missing

theorem run_of_found (found : inputFile tree ⟨arguments.input⟩ = .ok input) :
    GoesOn (run arguments) { tree }
      (traced (loadInput tree input) >>= deliver arguments input) :=
  (run_goesOn arguments { tree }).trans fun _ _ =>
    (GoesOn.traced_ok found).trans fun _ _ => GoesOn.progress _ _ _ _ _

theorem run_of_unloaded (found : inputFile tree ⟨arguments.input⟩ = .ok input)
    (unloaded : (loadInput tree input).result = .error error) :
    GoesOn (run arguments) { tree } (fail error) :=
  (run_of_found found).trans fun _ _ => GoesOn.traced_error unloaded

section Loaded

variable (found : inputFile tree ⟨arguments.input⟩ = .ok input)
  (loaded : (loadInput tree input).result = .ok project)
include found loaded

theorem run_of_loaded : GoesOn (run arguments) { tree } (deliver arguments input project) :=
  (run_of_found found).trans fun _ _ => GoesOn.traced_ok loaded

theorem run_splitTargets (split : arguments.splitTargets = true) :
    GoesOn (run arguments) { tree }
      (splitTargets project arguments.target (outputDirectory input arguments.output)) :=
  (run_of_loaded found loaded).trans fun _ _ => deliver_split split

theorem execute_split {targets : List Entity} (split : arguments.splitTargets = true)
    (selected : project.select arguments.target = .ok targets)
    (done : (execute arguments tree).1 = .ok ()) :
    (tree.makeDirectories (outputDirectory input arguments.output)).tree.writeAll
      (outputDirectory input arguments.output) (filesFor [] targets) =
      ⟨(execute arguments tree).2.tree, none⟩ := by
  obtain ⟨after, told, same⟩ := run_splitTargets found loaded split
  rw [execute, same] at done ⊢
  have written := splitTargets_ok selected done
  rwa [told.tree] at written

variable (joint : arguments.splitTargets = false)
  (emitted : (Source.project project arguments.target).result = .ok source)
include joint emitted

theorem run_putOut : GoesOn (run arguments) { tree } (putOut arguments input source) := by
  apply (run_of_loaded found loaded).trans
  intro _ _
  apply (deliver_joint joint).trans
  intro _ _
  exact GoesOn.traced_ok (Traced.mapError_ok_iff.mpr emitted)

theorem execute_stdout (printed : arguments.stdout = true) :
    (execute arguments tree).1 = .ok () ∧ (execute arguments tree).2.stdout = source ∧
      (execute arguments tree).2.tree = tree := by
  obtain ⟨after, told, same⟩ := run_putOut found loaded joint emitted
  rw [putOut, if_pos printed] at same
  rw [execute, same, print]
  exact ⟨rfl, by rw [told.stdout, String.empty_append], told.tree⟩

theorem run_writeSource (silent : arguments.stdout = false) :
    GoesOn (run arguments) { tree }
      (writeSource (outputFile input arguments.output) source) := by
  apply (run_putOut found loaded joint emitted).trans
  intro _ _
  rw [putOut, silent]
  exact GoesOn.progress _ _ _ _ _

theorem execute_file (silent : arguments.stdout = false)
    (done : (execute arguments tree).1 = .ok ()) :
    (treeAbove tree (outputFile input arguments.output)).write (outputFile input arguments.output)
      (Text.utf8Bytes source) = .ok (execute arguments tree).2.tree := by
  obtain ⟨after, told, same⟩ := run_writeSource found loaded joint emitted silent
  rw [execute, same] at done ⊢
  have written := writeSource_ok done
  rwa [told.tree] at written

end Loaded

theorem loadInput_ok (loaded : (loadInput tree input).result = .ok project) :
    ∃ text, projectText tree input = .ok text ∧
      (Loading.projectOfText text).result = .ok project := by
  rw [loadInput, Traced.mapError_ok_iff, loadFile, Traced.bind_ok_iff] at loaded
  exact loaded

theorem convertFile_ok {path : Path} {only : Option String}
    (h : (convertFile tree path only).result = .ok source) :
    ∃ input project, inputFile tree path = .ok input ∧
      (loadInput tree input).result = .ok project ∧
      (Source.project project only).result = .ok source := by
  rw [convertFile, Traced.bind_ok_iff] at h
  obtain ⟨input, found, h⟩ := h
  rw [Traced.bind_ok_iff] at h
  obtain ⟨project, loaded, h⟩ := h
  exact ⟨input, project, found, loaded, Traced.mapError_ok_iff.mp h⟩

/-- Where the conversion of the input file fails, the run fails with the same error. -/
theorem run_of_error {error : RunError}
    (h : (convertFile tree ⟨arguments.input⟩ arguments.target).result = .error error) :
    GoesOn (run arguments) { tree } (fail error) := by
  rw [convertFile, Traced.bind_error_iff] at h
  obtain missing | ⟨input, found, h⟩ := h
  · exact run_of_missing missing
  rw [Traced.bind_error_iff] at h
  obtain unloaded | ⟨project, loaded, h⟩ := h
  · exact run_of_unloaded found unloaded
  apply (run_of_loaded found loaded).trans
  intro after _
  cases selected : project.select arguments.target with
  | ok targets =>
      rw [Traced.mapError_ok_iff.mpr (Source.project_of_select selected)] at h
      contradiction
  | error unknown =>
      rw [Source.project, selected] at h
      cases h
      exact deliver_unknown selected

end

/-- Every mode fails where the conversion of the input file fails, with the same error and with
nothing printed or written. Where it gives a source, that source is what is printed, what one file
holds, and what the separate files hold with a line feed between them. -/
theorem modes_agree (arguments : Arguments) (tree : FileTree) :
    let converted := (convertFile tree ⟨arguments.input⟩ arguments.target).result
    let outcome := execute arguments tree
    (∀ error, converted = .error error →
      outcome.1 = .error error ∧ outcome.2.stdout = "" ∧ outcome.2.tree = tree) ∧
    ∀ source, converted = .ok source →
      ∃ input text project, inputFile tree ⟨arguments.input⟩ = .ok input ∧
        projectText tree input = .ok text ∧
        (Loading.projectOfText text).result = .ok project ∧
        (convertText text arguments.target).result = .ok source ∧
        (arguments.splitTargets = false → arguments.stdout = true →
          outcome.1 = .ok () ∧ outcome.2.stdout = source ∧ outcome.2.tree = tree) ∧
        (arguments.splitTargets = false → arguments.stdout = false → outcome.1 = .ok () →
          let file := outputFile input arguments.output
          (treeAbove tree file).write file (Text.utf8Bytes source) = .ok outcome.2.tree ∧
            outcome.2.tree.read file = .ok (Text.utf8Bytes source)) ∧
        (arguments.splitTargets = true → outcome.1 = .ok () →
          let directory := outputDirectory input arguments.output
          ∃ targets files, project.select arguments.target = .ok targets ∧
            files.map Prod.snd = targets.map (fun target => Source.entity target ++ "\n") ∧
            (files.map Prod.fst).Nodup ∧
            (tree.makeDirectories directory).tree.writeAll directory files =
              ⟨outcome.2.tree, none⟩ ∧
            (∀ file ∈ files, outcome.2.tree.read (directory.join file.1) =
              .ok (Text.utf8Bytes file.2)) ∧
            (targets = [] → files = [] ∧ source = "\n") ∧
            (targets ≠ [] → "\n".intercalate (files.map Prod.snd) = source)) := by
  intro converted outcome
  constructor
  · intro error failed
    obtain ⟨same, told⟩ := (run_of_error failed).failed
    exact ⟨same, told.stdout, told.tree⟩
  · intro source success
    obtain ⟨input, project, found, loaded, emitted⟩ := convertFile_ok success
    obtain ⟨text, read, parsed⟩ := loadInput_ok loaded
    refine ⟨input, text, project, found, read, parsed, convertText_of_loaded parsed emitted,
      ?_, ?_, ?_⟩
    · intro joint printed
      exact execute_stdout found loaded joint emitted printed
    · intro joint silent done file
      have written := execute_file found loaded joint emitted silent done
      obtain ⟨home, name, writes⟩ := FileTree.write_ok written
      exact ⟨written, writes.read⟩
    · intro split done directory
      obtain ⟨targets, selected, joined⟩ := Source.select_of_project emitted
      have written := execute_split found loaded split selected done
      have texts := FileTree.writeAll_read (filesFor_clean targets) (filesFor_distinct targets)
        (congrArg FileTree.Outcome.error written)
      rw [written] at texts
      refine ⟨targets, filesFor [] targets, selected, filesFor_texts [] targets,
        filesFor_distinct targets, written, texts, ?_, ?_⟩
      · intro empty
        rw [joined, empty]
        exact ⟨rfl, rfl⟩
      · intro nonempty
        rw [joined, intercalate_filesFor nonempty]

theorem modes_agree_two : ∃ tree source,
    (convertFile tree ⟨"p.json"⟩ none).result = .ok source ∧
    (execute ⟨"p.json", none, none, false, true⟩ tree).2.stdout = source ∧
    (execute ⟨"p.json", none, none, false, false⟩ tree).2.tree.read ⟨"/p.rb"⟩ =
      .ok (Text.utf8Bytes source) ∧
    ∃ files : List (String × String), "\n".intercalate (files.map Prod.snd) = source ∧
      ∀ file ∈ files, (execute ⟨"p.json", none, none, true, false⟩ tree).2.tree.read
        ((⟨"/p_rb"⟩ : Path).join file.1) = .ok (Text.utf8Bytes file.2) := by
  obtain ⟨tree, converted, found, file, split⟩ : ∃ tree,
      (convertFile tree ⟨"p.json"⟩ none).result =
        .ok "Stage.new(\"s\")\n\nSprite.new(\"a\")\n" ∧
      inputFile tree ⟨"p.json"⟩ = .ok ⟨"/p.json"⟩ ∧
      (execute ⟨"p.json", none, none, false, false⟩ tree).1 = .ok () ∧
      (execute ⟨"p.json", none, none, true, false⟩ tree).1 = .ok () :=
    ⟨⟨[], [(["p.json"], .file (Text.utf8Bytes
      (r#"{"targets":[{"name":"s","isStage":true},"# ++
        r#"{"name":"a","isStage":false}]}"#)))]⟩, by decide +kernel⟩
  refine ⟨tree, _, converted, ?_, ?_, ?_⟩
  · obtain ⟨_, _, _, _, _, _, _, printed, _⟩ :=
      (modes_agree ⟨"p.json", none, none, false, true⟩ tree).2 _ converted
    exact (printed rfl rfl).2.1
  · obtain ⟨input, _, _, same, _, _, _, _, written, _⟩ :=
      (modes_agree ⟨"p.json", none, none, false, false⟩ tree).2 _ converted
    cases found.symm.trans same
    exact (written rfl rfl file).2
  · obtain ⟨input, _, _, same, _, _, _, _, _, written⟩ :=
      (modes_agree ⟨"p.json", none, none, true, false⟩ tree).2 _ converted
    cases found.symm.trans same
    obtain ⟨targets, files, _, _, _, _, texts, none, joined⟩ := written rfl split
    refine ⟨files, joined ?_, texts⟩
    intro empty
    exact absurd (none empty).2 (by decide)

end Command

end SpriteScript
