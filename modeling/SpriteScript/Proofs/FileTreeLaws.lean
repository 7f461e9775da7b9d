import SpriteScript.FileTree
import SpriteScript.Proofs.KeyedLaws
import SpriteScript.Proofs.PathLaws

/-!
What writing a file and making directories do to a tree. A write that succeeds puts one node into
a directory; everything else stays, every path keeps its way, and reading the path gives what was
written. Making directories adds directories on the way of the path, where there was nothing, and
changes nothing else.
-/

namespace SpriteScript

theorem Except.bind_eq_ok_iff {ε α β : Type} {first : Except ε α} {rest : α → Except ε β}
    {result : β} :
    (first >>= rest) = .ok result ↔ ∃ value, first = .ok value ∧ rest value = .ok result := by
  cases first <;> simp [bind, Except.bind]

namespace FileTree

variable {tree before after : FileTree} {path : Path} {place next : Place}

theorem get?_put (node : Node) (other : Place) (h : place ≠ []) :
    (tree.put place node).get? other = if place = other then some node else tree.get? other := by
  rw [get?, get?, put, Keyed.find?_put]
  by_cases root : other = []
  · simp [root, h]
  · simp [root]

theorem child_ok_iff {name : List Char} :
    child place name = .ok next ↔
      (String.ofList name).utf8ByteSize ≤ 255 ∧ next = place ++ [String.ofList name] := by
  simp only [child]
  split
  · simp; omega
  · simp [eq_comm]; omega

theorem enter_ok_iff {segment : List Char} :
    tree.enter place segment = .ok next ↔
      tree.get? place = some .directory ∧
        (Path.isIdle segment = true ∧ next = place ∨
          Path.isIdle segment = false ∧ segment = ['.', '.'] ∧ next = place.dropLast ∨
          Path.isIdle segment = false ∧ segment ≠ ['.', '.'] ∧ child place segment = .ok next ∧
            tree.get? next ≠ none) := by
  rw [enter]
  cases tree.get? place with
  | none => simp
  | some node =>
      cases node with
      | file content => simp
      | directory =>
          cases Path.isIdle segment with
          | true => simp [eq_comm]
          | false =>
              by_cases upwards : segment = ['.', '.']
              · simp [upwards, eq_comm]
              · rw [if_neg Bool.false_ne_true, if_neg upwards, Except.bind_eq_ok_iff]
                constructor
                · rintro ⟨lower, below, found⟩
                  split at found
                  · contradiction
                  · next node present =>
                    cases found
                    have there : tree.get? next ≠ none := by simp [present]
                    exact ⟨rfl, .inr (.inr ⟨rfl, upwards, below, there⟩)⟩
                · rintro ⟨_, ⟨idle, _⟩ | ⟨_, upper, _⟩ | ⟨_, _, below, present⟩⟩
                  · contradiction
                  · exact absurd upper upwards
                  · refine ⟨next, below, ?_⟩
                    cases found : tree.get? next with
                    | none => exact absurd found present
                    | some node => rfl

theorem walk_cons {segment : List Char} {segments : List (List Char)} :
    tree.walk place (segment :: segments) = .ok next ↔
      ∃ lower, tree.enter place segment = .ok lower ∧ tree.walk lower segments = .ok next := by
  rw [walk, Except.bind_eq_ok_iff]

theorem walk_append {front rest : List (List Char)} :
    tree.walk place (front ++ rest) = .ok next ↔
      ∃ lower, tree.walk place front = .ok lower ∧ tree.walk lower rest = .ok next := by
  induction front generalizing place with
  | nil => simp [walk]
  | cons segment front ih =>
      simp only [List.cons_append, walk_cons, ih]
      constructor
      · rintro ⟨first, entered, lower, walked, rest⟩
        exact ⟨lower, ⟨first, entered, walked⟩, rest⟩
      · rintro ⟨lower, ⟨first, entered, walked⟩, rest⟩
        exact ⟨first, entered, lower, walked, rest⟩

theorem walk_singleton {segment : List Char} :
    tree.walk place [segment] = .ok next ↔ tree.enter place segment = .ok next := by
  rw [walk_cons]
  simp [walk]

/-- Behind a directory an empty segment leads nowhere else. -/
theorem walk_of_above {start : Place} {segments front : List (List Char)}
    (above : segments = front ∨ segments = front ++ [[]])
    (walked : tree.walk start front = .ok place) (found : tree.get? place = some .directory) :
    tree.walk start segments = .ok place := by
  obtain rfl | rfl := above
  · exact walked
  · have idle : tree.enter place [] = .ok place := enter_ok_iff.mpr ⟨found, .inl ⟨rfl, rfl⟩⟩
    exact walk_append.mpr ⟨place, walked, walk_singleton.mpr idle⟩

/-- Directories stay what they are, and what is there stays there. -/
structure Keeps (before after : FileTree) : Prop where
  workingDirectory : after.workingDirectory = before.workingDirectory
  directory : ∀ place, before.get? place = some .directory → after.get? place = some .directory
  present : ∀ place, before.get? place ≠ none → after.get? place ≠ none

namespace Keeps

theorem refl (tree : FileTree) : Keeps tree tree :=
  ⟨rfl, fun _ => id, fun _ => id⟩

theorem trans {middle : FileTree} (h : Keeps before middle) (h' : Keeps middle after) :
    Keeps before after where
  workingDirectory := h'.workingDirectory.trans h.workingDirectory
  directory := fun place found => h'.directory place (h.directory place found)
  present := fun place found => h'.present place (h.present place found)

theorem start (h : Keeps before after) (path : Path) : after.start path = before.start path := by
  rw [FileTree.start, FileTree.start, h.workingDirectory]

theorem enter (h : Keeps before after) {segment : List Char}
    (entered : before.enter place segment = .ok next) : after.enter place segment = .ok next := by
  rw [enter_ok_iff] at entered ⊢
  obtain ⟨found, way⟩ := entered
  refine ⟨h.directory place found, way.imp_right (Or.imp_right ?_)⟩
  rintro ⟨busy, lower, below, present⟩
  exact ⟨busy, lower, below, h.present next present⟩

theorem walk (h : Keeps before after) {segments : List (List Char)}
    (walked : before.walk place segments = .ok next) : after.walk place segments = .ok next := by
  induction segments generalizing place with
  | nil => exact walked
  | cons segment segments ih =>
      rw [walk_cons] at walked ⊢
      obtain ⟨lower, entered, rest⟩ := walked
      exact ⟨lower, h.enter entered, ih rest⟩

/-- A node that is no directory, or a new directory, may be put in place of a file or of nothing. -/
theorem put {node : Node} (nonroot : place ≠ [])
    (free : tree.get? place ≠ some .directory) : Keeps tree (tree.put place node) where
  workingDirectory := rfl
  directory := by
    intro other found
    rw [get?_put node other nonroot]
    split
    · next same => exact absurd (same ▸ found) free
    · exact found
  present := by
    intro other found
    rw [get?_put node other nonroot]
    split
    · exact Option.some_ne_none node
    · exact found

end Keeps

theorem read_ok_iff {content : List UInt8} :
    tree.read path = .ok content ↔
      ∃ place, tree.resolve path = .ok place ∧ tree.get? place = some (.file content) := by
  rw [read, Except.bind_eq_ok_iff]
  refine exists_congr fun place => and_congr_right fun _ => ?_
  split <;> simp_all

theorem resolve_ok_iff :
    tree.resolve path = .ok place ↔
      allowed path = .ok () ∧ tree.walk (tree.start path) path.segments = .ok place := by
  rw [resolve, Except.bind_eq_ok_iff]
  constructor
  · rintro ⟨_, allowed, walked⟩
    exact ⟨allowed, walked⟩
  · rintro ⟨allowed, walked⟩
    exact ⟨(), allowed, walked⟩

theorem Keeps.resolve (h : Keeps before after) (found : before.resolve path = .ok place) :
    after.resolve path = .ok place := by
  rw [resolve_ok_iff] at found ⊢
  rw [h.start]
  exact ⟨found.1, h.walk found.2⟩

theorem directoryOf_ok_iff {segments : List (List Char)} :
    tree.directoryOf path segments = .ok place ↔
      tree.walk (tree.start path) segments = .ok place ∧ tree.get? place = some .directory := by
  rw [directoryOf, Except.bind_eq_ok_iff]
  constructor
  · rintro ⟨lower, walked, found⟩
    split at found
    · next directory =>
      cases found
      exact ⟨walked, directory⟩
    · contradiction
    · contradiction
  · rintro ⟨walked, found⟩
    exact ⟨place, walked, by rw [found]⟩

/-- A name that a segment of a path can lead to. -/
structure IsPlain (name : String) : Prop where
  slash : '/' ∉ name.toList
  idle : Path.isIdle name.toList = false
  upwards : name.toList ≠ ['.', '.']

theorem IsPlain.of_mem {name : String} {c : Char} (slash : '/' ∉ name.toList)
    (mem : c ∈ name.toList) (letter : c ≠ '.') : IsPlain name where
  slash := slash
  idle := by
    rw [Path.isIdle, Bool.or_eq_false_iff, List.isEmpty_eq_false_iff, beq_eq_false_iff_ne]
    refine ⟨List.ne_nil_of_mem mem, ?_⟩
    intro dot
    rw [dot, List.mem_singleton] at mem
    exact letter mem
  upwards := by
    intro dots
    simp [dots, letter] at mem

theorem enter_plain {name : String} (plain : IsPlain name)
    (h : tree.enter place name.toList = .ok next) :
    tree.get? place = some .directory ∧ next = place ++ [name] := by
  obtain ⟨found, ⟨idle, _⟩ | ⟨_, upwards, _⟩ | ⟨_, _, below, _⟩⟩ := enter_ok_iff.mp h
  · rw [plain.idle] at idle
    contradiction
  · exact absurd upwards plain.upwards
  · rw [child_ok_iff, String.ofList_toList] at below
    exact ⟨found, below.2⟩

theorem walk_plain {names : List String} (plain : ∀ name ∈ names, IsPlain name)
    (h : tree.walk place (names.map String.toList) = .ok next) : next = place ++ names := by
  induction names generalizing place with
  | nil =>
      cases h
      rw [List.append_nil]
  | cons name names ih =>
      rw [List.forall_mem_cons] at plain
      obtain ⟨lower, entered, walked⟩ := walk_cons.mp h
      rw [ih plain.2 walked, (enter_plain plain.1 entered).2, List.append_assoc,
        List.singleton_append]

theorem isPlain_of_enter {segment : List Char} (clean : '/' ∉ segment)
    (plain : ∀ name ∈ place, IsPlain name) (h : tree.enter place segment = .ok next) :
    ∀ name ∈ next, IsPlain name := by
  obtain ⟨_, ⟨_, rfl⟩ | ⟨_, _, rfl⟩ | ⟨busy, upwards, below, _⟩⟩ := enter_ok_iff.mp h
  · exact plain
  · exact fun name mem => plain name (List.dropLast_subset place mem)
  · obtain ⟨_, rfl⟩ := child_ok_iff.mp below
    rw [List.forall_mem_append, List.forall_mem_singleton]
    refine ⟨plain, ?_, ?_, ?_⟩ <;> rwa [String.toList_ofList]

/-- A path leads from plain names to plain names. -/
theorem isPlain_of_walk {segments : List (List Char)} (clean : ∀ segment ∈ segments, '/' ∉ segment)
    (plain : ∀ name ∈ place, IsPlain name) (h : tree.walk place segments = .ok next) :
    ∀ name ∈ next, IsPlain name := by
  induction segments generalizing place with
  | nil =>
      cases h
      exact plain
  | cons segment segments ih =>
      rw [List.forall_mem_cons] at clean
      obtain ⟨lower, entered, walked⟩ := walk_cons.mp h
      exact ih clean.2 (isPlain_of_enter clean.1 plain entered) walked

/-- What is named in a directory stands in the place of the directory. -/
theorem walk_join {directory : Path} {name : String} (plain : IsPlain name)
    (h : tree.walk (tree.start (directory.join name)) (directory.join name).segments = .ok place) :
    ∃ home, tree.walk (tree.start directory) directory.segments = .ok home ∧
      place = home ++ [name] := by
  obtain ⟨front, joined, above⟩ := Path.segments_join directory plain.slash
  have start : tree.start (directory.join name) = tree.start directory := by
    rw [FileTree.start, FileTree.start, Path.isAbsolute_join directory plain.slash]
  rw [joined, start] at h
  obtain ⟨home, before, last⟩ := walk_append.mp h
  obtain ⟨found, rfl⟩ := enter_plain plain (walk_singleton.mp last)
  exact ⟨home, walk_of_above above before found, rfl⟩

theorem isAbsolute_pathOf (place : Place) : (pathOf place).isAbsolute = true := by
  rw [Path.isAbsolute, pathOf, String.toList_append]
  rfl

theorem segments_pathOf (nonroot : place ≠ []) (clean : ∀ name ∈ place, '/' ∉ name.toList) :
    (pathOf place).segments = [] :: place.map String.toList := by
  rw [Path.segments, pathOf, String.toList_append, String.toList_intercalate]
  have names : ∀ segment ∈ place.map String.toList, '/' ∉ segment := by
    simpa using clean
  exact (Path.splitSlashes_slash _).trans
    (congrArg _ (Path.splitSlashes_intercalate (by simpa using nonroot) names))

/-- The last name of a place is the last segment of its path, whatever the others are. -/
theorem last_pathOf (home : Place) {name : String} (clean : '/' ∉ name.toList) :
    ∃ front, (pathOf (home ++ [name])).segments = front ++ [name.toList] := by
  have cut (names : List (List Char)) : ∃ front,
      '/' :: ['/'].intercalate (names ++ [name.toList]) = front ++ '/' :: name.toList := by
    induction names with
    | nil => exact ⟨[], by simp⟩
    | cons first names ih =>
        obtain ⟨front, behind⟩ := ih
        refine ⟨'/' :: first ++ front, ?_⟩
        have joined : ['/'].intercalate (first :: (names ++ [name.toList])) =
            first ++ '/' :: ['/'].intercalate (names ++ [name.toList]) := by
          obtain ⟨next, others, rest⟩ := List.exists_cons_of_ne_nil
            (List.append_ne_nil_of_right_ne_nil names (List.cons_ne_nil name.toList []))
          rw [rest, List.intercalate_cons_cons, List.append_assoc, List.singleton_append]
        simp only [List.cons_append, joined, behind, List.append_assoc]
  obtain ⟨front, whole⟩ := cut (home.map String.toList)
  refine ⟨Path.splitSlashes front, ?_⟩
  have text : (pathOf (home ++ [name])).text.toList =
      '/' :: ['/'].intercalate (home.map String.toList ++ [name.toList]) := by
    rw [pathOf, String.toList_append, String.toList_intercalate, List.map_append]
    rfl
  rw [Path.segments, text, whole, Path.splitSlashes_append_slash,
    Path.splitSlashes_of_notMem clean]

/-- A place of plain names is where its path leads. -/
theorem walk_pathOf (nonroot : place ≠ []) (plain : ∀ name ∈ place, IsPlain name)
    (h : tree.walk (tree.start (pathOf place)) (pathOf place).segments = .ok next) :
    next = place := by
  rw [start, if_pos (isAbsolute_pathOf place),
    segments_pathOf nonroot fun name mem => (plain name mem).slash] at h
  obtain ⟨root, entered, walked⟩ := walk_cons.mp h
  obtain ⟨_, ⟨_, rfl⟩ | ⟨busy, _⟩ | ⟨busy, _⟩⟩ := enter_ok_iff.mp entered
  · rw [walk_plain plain walked, List.nil_append]
  · contradiction
  · contradiction

theorem parent?_pathOf {home : Place} {name : String}
    (plain : ∀ other ∈ home ++ [name], IsPlain other) :
    (pathOf (home ++ [name])).parent? = some (pathOf home) := by
  have nonroot : home ++ [name] ≠ [] := List.append_ne_nil_of_right_ne_nil _ (List.cons_ne_nil _ _)
  have segments := segments_pathOf nonroot fun other mem => (plain other mem).slash
  rw [List.map_append, List.map_singleton, ← List.cons_append] at segments
  rw [List.forall_mem_append, List.forall_mem_singleton] at plain
  have core := Path.reversedCore_of_segments segments plain.2.idle
  have absolute := isAbsolute_pathOf (home ++ [name])
  obtain rfl | ⟨upper, last, rfl⟩ := List.eq_nil_or_concat' home
  · simp only [Path.parent?, core, absolute]
    rfl
  · have busy := (plain.1 last (by simp)).idle
    have lower : upper ++ [last] ≠ [] :=
      List.append_ne_nil_of_right_ne_nil _ (List.cons_ne_nil _ _)
    have above := segments_pathOf lower fun other mem => (plain.1 other mem).slash
    have dropped : ([] :: (upper ++ [last]).map String.toList).reverse.dropWhile Path.isIdle =
        (pathOf (upper ++ [last])).segments.reverse := by
      rw [above, List.map_append, ← List.cons_append, List.reverse_append]
      exact List.dropWhile_cons_of_neg (by simp [busy])
    have nonempty : (pathOf (upper ++ [last])).segments.reverse ≠ [] := by
      rw [above]
      simp
    simp only [Path.parent?, core, dropped]
    rw [List.reverse_reverse, Path.ofSegments_segments]

/-- What a successful write does: the last segment of the path names a node in the directory to
which the segments before it lead. -/
structure Writes (tree : FileTree) (path : Path) (content : List UInt8) (after : FileTree)
    (home : Place) (name : List Char) : Prop where
  allowed : FileTree.allowed path = .ok ()
  segments : ∃ front, path.segments = front ++ [name] ∧
    tree.walk (tree.start path) front = .ok home
  directory : tree.get? home = some .directory
  plain : Path.isIdle name = false ∧ name ≠ ['.', '.']
  child : FileTree.child home name = .ok (home ++ [String.ofList name])
  free : tree.get? (home ++ [String.ofList name]) ≠ some .directory
  after_eq : after = tree.put (home ++ [String.ofList name]) (.file content)

theorem write_ok {content : List UInt8} (h : tree.write path content = .ok after) :
    ∃ home name, Writes tree path content after home name := by
  rw [write, Except.bind_eq_ok_iff] at h
  obtain ⟨_, allowed, h⟩ := h
  split at h
  · contradiction
  · next name front cut =>
    split at h
    · split at h
      · contradiction
      · rw [Except.bind_eq_ok_iff] at h
        obtain ⟨_, _, h⟩ := h
        contradiction
    · next nonempty =>
      rw [Except.bind_eq_ok_iff] at h
      obtain ⟨home, found, h⟩ := h
      rw [directoryOf_ok_iff] at found
      split at h
      · contradiction
      · next plain =>
        rw [Except.bind_eq_ok_iff] at h
        obtain ⟨place, below, h⟩ := h
        obtain ⟨_, rfl⟩ := child_ok_iff.mp below
        have segments : path.segments = front.reverse ++ [name] := by
          rw [← List.reverse_reverse path.segments, cut, List.reverse_cons]
        split at h
        · contradiction
        · next free =>
          cases h
          refine ⟨home, name, allowed, ⟨front.reverse, segments, found.1⟩, found.2, ?_, below,
            free, rfl⟩
          rw [Bool.or_eq_true, not_or, decide_eq_true_eq, decide_eq_true_eq] at plain
          rw [Bool.not_eq_true] at nonempty
          simp [Path.isIdle, nonempty, plain]

namespace Writes

variable {content : List UInt8} {home : Place} {name : List Char}

theorem nonroot (home : Place) (name : List Char) : home ++ [String.ofList name] ≠ [] :=
  List.append_ne_nil_of_right_ne_nil home (List.cons_ne_nil _ _)

theorem keeps (h : Writes tree path content after home name) : Keeps tree after := by
  rw [h.after_eq]
  exact Keeps.put (nonroot home name) h.free

theorem get?_of_ne (h : Writes tree path content after home name)
    (other : place ≠ home ++ [String.ofList name]) : after.get? place = tree.get? place := by
  rw [h.after_eq, get?_put _ _ (nonroot home name), if_neg (Ne.symm other)]

theorem get?_self (h : Writes tree path content after home name) :
    after.get? (home ++ [String.ofList name]) = some (.file content) := by
  rw [h.after_eq, get?_put _ _ (nonroot home name), if_pos rfl]

/-- The path leads to what was written as long as the node stays. -/
theorem resolve_of_keeps (h : Writes tree path content after home name) {final : FileTree}
    (kept : Keeps after final)
    (stays : final.get? (home ++ [String.ofList name]) = some (.file content)) :
    final.resolve path = .ok (home ++ [String.ofList name]) := by
  obtain ⟨front, segments, walked⟩ := h.segments
  have all : Keeps tree final := h.keeps.trans kept
  have entered : final.enter home name = .ok (home ++ [String.ofList name]) := by
    refine enter_ok_iff.mpr ⟨all.directory home h.directory, .inr (.inr ?_)⟩
    exact ⟨h.plain.1, h.plain.2, h.child, by simp [stays]⟩
  refine resolve_ok_iff.mpr ⟨h.allowed, ?_⟩
  rw [segments, all.start]
  exact walk_append.mpr ⟨home, all.walk walked, walk_singleton.mpr entered⟩

theorem resolve (h : Writes tree path content after home name) :
    after.resolve path = .ok (home ++ [String.ofList name]) :=
  h.resolve_of_keeps (Keeps.refl after) h.get?_self

theorem read_of_keeps (h : Writes tree path content after home name) {final : FileTree}
    (kept : Keeps after final)
    (stays : final.get? (home ++ [String.ofList name]) = some (.file content)) :
    final.read path = .ok content :=
  read_ok_iff.mpr ⟨_, h.resolve_of_keeps kept stays, stays⟩

theorem read (h : Writes tree path content after home name) : after.read path = .ok content :=
  h.read_of_keeps (Keeps.refl after) h.get?_self

/-- A file that is named in a directory is put into the place of the directory. -/
theorem join {directory : Path} {file : String} (clean : '/' ∉ file.toList)
    (h : Writes tree (directory.join file) content after home name) :
    name = file.toList ∧ tree.walk (tree.start directory) directory.segments = .ok home := by
  obtain ⟨front, segments, walked⟩ := h.segments
  obtain ⟨before, joined, above⟩ := Path.segments_join directory clean
  rw [joined] at segments
  obtain ⟨rfl, last⟩ := List.append_inj' segments rfl
  have start : tree.start (directory.join file) = tree.start directory := by
    rw [FileTree.start, FileTree.start, Path.isAbsolute_join directory clean]
  rw [start] at walked
  exact ⟨(List.singleton_inj.mp last).symm, walk_of_above above walked h.directory⟩

end Writes

/-- The places to which beginnings of a path lead. -/
def OnWay (tree : FileTree) (path : Path) (place : Place) : Prop :=
  ∃ part, part <+: path.segments ∧ tree.walk (tree.start path) part = .ok place

theorem OnWay.mono (h : OnWay before path place) (kept : Keeps before after) :
    OnWay after path place := by
  obtain ⟨part, beginning, walked⟩ := h
  refine ⟨part, beginning, ?_⟩
  rw [kept.start]
  exact kept.walk walked

/-- The tree has more directories than before, on the way of a path, and is otherwise the same. -/
structure Extends (path : Path) (before after : FileTree) : Prop where
  workingDirectory : after.workingDirectory = before.workingDirectory
  nodes : ∀ place, after.get? place = before.get? place ∨
    (before.get? place = none ∧ after.get? place = some .directory ∧ OnWay after path place)

namespace Extends

theorem refl (path : Path) (tree : FileTree) : Extends path tree tree :=
  ⟨rfl, fun _ => .inl rfl⟩

theorem get?_of_ne_none (h : Extends path before after) (present : before.get? place ≠ none) :
    after.get? place = before.get? place := by
  obtain same | ⟨missing, _⟩ := h.nodes place
  · exact same
  · exact absurd missing present

theorem keeps (h : Extends path before after) : Keeps before after where
  workingDirectory := h.workingDirectory
  directory := by
    intro place found
    rw [h.get?_of_ne_none (by simp [found]), found]
  present := by
    intro place found
    rw [h.get?_of_ne_none found]
    exact found

theorem trans {middle : FileTree} (h : Extends path before middle)
    (h' : Extends path middle after) : Extends path before after where
  workingDirectory := h'.workingDirectory.trans h.workingDirectory
  nodes := by
    intro place
    obtain same' | ⟨missing', made', way'⟩ := h'.nodes place
    · obtain same | ⟨missing, made, way⟩ := h.nodes place
      · exact .inl (same'.trans same)
      · exact .inr ⟨missing, same'.trans made, way.mono h'.keeps⟩
    · obtain same | ⟨_, made, _⟩ := h.nodes place
      · exact .inr ⟨same ▸ missing', made', way'⟩
      · rw [missing'] at made
        contradiction

theorem of_parent {parent : Path} (h : Extends parent before after)
    (above : parent.segments <+: path.segments) (role : parent.isAbsolute = path.isAbsolute) :
    Extends path before after where
  workingDirectory := h.workingDirectory
  nodes := by
    intro place
    refine (h.nodes place).imp_right ?_
    rintro ⟨missing, made, part, beginning, walked⟩
    refine ⟨missing, made, part, beginning.trans above, ?_⟩
    rw [start, ← role]
    exact walked

end Extends

theorem makeDirectory_extends (h : tree.makeDirectory path = .ok after) :
    Extends path tree after := by
  rw [makeDirectory, Except.bind_eq_ok_iff] at h
  obtain ⟨_, _, h⟩ := h
  split at h
  · contradiction
  · next last front found =>
    rw [Except.bind_eq_ok_iff] at h
    obtain ⟨home, above, h⟩ := h
    obtain ⟨walked, directory⟩ := directoryOf_ok_iff.mp above
    split at h
    · contradiction
    · next plain =>
      rw [Except.bind_eq_ok_iff] at h
      obtain ⟨place, below, h⟩ := h
      split at h
      · contradiction
      · next free =>
        cases h
        obtain ⟨_, rfl⟩ := child_ok_iff.mp below
        have nonroot := Writes.nonroot home last
        have kept : Keeps tree (tree.put (home ++ [String.ofList last]) .directory) :=
          Keeps.put nonroot (by simp [free])
        have beginning : front.reverse ++ [last] <+: path.segments := by
          have dropped := List.rdropWhile_prefix List.isEmpty path.segments
          rwa [List.rdropWhile, found, List.reverse_cons] at dropped
        have busy : Path.isIdle last = false := by
          have nonempty := List.head?_dropWhile_not List.isEmpty path.segments.reverse
          simp only [found, List.head?_cons] at nonempty
          rw [Bool.or_eq_true, not_or, decide_eq_true_eq, decide_eq_true_eq] at plain
          simp [Path.isIdle, nonempty, plain]
        have upwards : last ≠ ['.', '.'] := by
          rintro rfl
          exact plain rfl
        have made : (tree.put (home ++ [String.ofList last]) .directory).get?
            (home ++ [String.ofList last]) = some .directory := by
          rw [get?_put _ _ nonroot, if_pos rfl]
        refine ⟨rfl, fun other => ?_⟩
        by_cases same : home ++ [String.ofList last] = other
        · subst same
          refine .inr ⟨free, made, _, beginning, ?_⟩
          rw [kept.start]
          refine walk_append.mpr ⟨home, kept.walk walked, walk_singleton.mpr ?_⟩
          refine enter_ok_iff.mpr ⟨kept.directory home directory, .inr (.inr ?_)⟩
          exact ⟨busy, upwards, below, by simp [made]⟩
        · exact .inl ((get?_put .directory other nonroot).trans (if_neg same))

theorem ensureDirectory_extends (tree : FileTree) (path : Path) :
    Extends path tree (tree.ensureDirectory path).tree := by
  rw [ensureDirectory]
  split
  · next made => exact makeDirectory_extends made
  · split <;> exact Extends.refl path tree

theorem ensureDirectory_of_error {error : FileError} (h : tree.makeDirectory path = .error error) :
    (tree.ensureDirectory path).tree = tree := by
  rw [ensureDirectory, h]
  dsimp only
  split <;> rfl

/-- The empty path and the root need no directory. -/
theorem makeDirectoriesWithin_idle (fuel : Nat) (tree : FileTree)
    (h : path.text = "" ∨ path.text = "/") :
    (makeDirectoriesWithin fuel tree path).tree = tree := by
  obtain ⟨text⟩ := path
  cases fuel with
  | zero => rfl
  | succ fuel =>
      obtain rfl | rfl := h
      · rfl
      · exact @ensureDirectory_of_error tree ⟨"/"⟩ .alreadyExists rfl

theorem makeDirectoriesWithin_extends (fuel : Nat) (tree : FileTree) (path : Path) :
    Extends path tree (makeDirectoriesWithin fuel tree path).tree := by
  induction fuel generalizing path with
  | zero => exact Extends.refl path tree
  | succ fuel ih =>
      rw [makeDirectoriesWithin]
      split
      · exact Extends.refl path tree
      · split
        · exact Extends.refl path tree
        · next parent _ found =>
          have upper : Extends path tree (makeDirectoriesWithin fuel tree parent).tree := by
            obtain empty | root | ⟨above, role⟩ := Path.parent?_cases found
            · rw [makeDirectoriesWithin_idle fuel tree (.inl empty.1)]
              exact Extends.refl path tree
            · rw [makeDirectoriesWithin_idle fuel tree (.inr root)]
              exact Extends.refl path tree
            · exact (ih parent).of_parent above role
          dsimp only
          split
          · exact upper
          · exact upper.trans (ensureDirectory_extends _ path)
        · exact ensureDirectory_extends tree path

theorem makeDirectories_extends (tree : FileTree) (path : Path) :
    Extends path tree (tree.makeDirectories path).tree :=
  makeDirectoriesWithin_extends _ tree path

end FileTree

end SpriteScript
