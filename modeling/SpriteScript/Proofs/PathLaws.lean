import Mathlib.Data.List.DropRight
import SpriteScript.Path

/-!
Laws of paths. Cutting at slashes and joining with them undo each other, so a name without a
slash stays one segment when it is put behind a directory, and the path above another one is the
beginning of its segments. Another extension takes the place of the old one in the last segment.
-/

namespace SpriteScript.Path

theorem splitSlashes_slash (rest : List Char) :
    splitSlashes ('/' :: rest) = [] :: splitSlashes rest := by
  rw [splitSlashes]

theorem splitSlashes_ne_nil (text : List Char) : splitSlashes text ≠ [] := by
  fun_cases splitSlashes text <;> simp

theorem splitSlashes_cons {c : Char} (h : c ≠ '/') (rest : List Char) :
    ∃ segment others, splitSlashes rest = segment :: others ∧
      splitSlashes (c :: rest) = (c :: segment) :: others := by
  obtain ⟨segment, others, cut⟩ := List.exists_cons_of_ne_nil (splitSlashes_ne_nil rest)
  refine ⟨segment, others, cut, ?_⟩
  rw [splitSlashes, cut]
  exact h

theorem slash_notMem_splitSlashes {text segment : List Char} (h : segment ∈ splitSlashes text) :
    '/' ∉ segment := by
  induction text generalizing segment with
  | nil =>
      rw [splitSlashes, List.mem_singleton] at h
      simp [h]
  | cons c rest ih =>
      by_cases slash : c = '/'
      · rw [slash, splitSlashes_slash, List.mem_cons] at h
        obtain rfl | later := h
        · exact List.not_mem_nil
        · exact ih later
      · obtain ⟨first, others, cut, longer⟩ := splitSlashes_cons slash rest
        rw [longer, List.mem_cons] at h
        obtain rfl | later := h
        · have clean : '/' ∉ first := ih (cut ▸ List.mem_cons_self)
          simp [clean, Ne.symm slash]
        · exact ih (cut ▸ List.mem_cons_of_mem _ later)

theorem splitSlashes_append_slash (front rest : List Char) :
    splitSlashes (front ++ '/' :: rest) = splitSlashes front ++ splitSlashes rest := by
  induction front with
  | nil => exact splitSlashes_slash rest
  | cons c front ih =>
      by_cases slash : c = '/'
      · rw [slash, List.cons_append, splitSlashes_slash, splitSlashes_slash, ih, List.cons_append]
      · obtain ⟨first, others, cut, longer⟩ := splitSlashes_cons slash front
        obtain ⟨first', others', cut', longer'⟩ := splitSlashes_cons slash (front ++ '/' :: rest)
        rw [ih, cut, List.cons_append, List.cons.injEq] at cut'
        rw [List.cons_append, longer', longer, ← cut'.1, ← cut'.2, List.cons_append]

theorem splitSlashes_of_notMem {name : List Char} (h : '/' ∉ name) :
    splitSlashes name = [name] := by
  induction name with
  | nil => rfl
  | cons c name ih =>
      rw [List.mem_cons, not_or] at h
      obtain ⟨first, others, cut, longer⟩ := splitSlashes_cons (Ne.symm h.1) name
      rw [ih h.2, List.cons.injEq] at cut
      rw [longer, ← cut.1, ← cut.2]

theorem splitSlashes_intercalate {segments : List (List Char)} (nonempty : segments ≠ [])
    (clean : ∀ segment ∈ segments, '/' ∉ segment) :
    splitSlashes (['/'].intercalate segments) = segments := by
  induction segments with
  | nil => exact absurd rfl nonempty
  | cons segment segments ih =>
      have first := splitSlashes_of_notMem (clean segment List.mem_cons_self)
      cases segments with
      | nil => rw [List.intercalate_singleton, first]
      | cons next segments =>
          have rest := ih (List.cons_ne_nil _ _) fun other mem =>
            clean other (List.mem_cons_of_mem _ mem)
          rw [List.intercalate_cons_cons, List.append_assoc, List.singleton_append,
            splitSlashes_append_slash, first, rest, List.singleton_append]

theorem intercalate_splitSlashes (text : List Char) :
    ['/'].intercalate (splitSlashes text) = text := by
  induction text with
  | nil => rfl
  | cons c rest ih =>
      by_cases slash : c = '/'
      · obtain ⟨segment, others, cut⟩ := List.exists_cons_of_ne_nil (splitSlashes_ne_nil rest)
        rw [slash, splitSlashes_slash, cut, List.intercalate_cons_cons, ← cut, ih]
        rfl
      · obtain ⟨segment, others, cut, longer⟩ := splitSlashes_cons slash rest
        rw [cut] at ih
        rw [longer, ← ih]
        cases others with
        | nil => rw [List.intercalate_singleton, List.intercalate_singleton]
        | cons next others =>
            rw [List.intercalate_cons_cons, List.intercalate_cons_cons]
            rfl

theorem ofSegments_segments (path : Path) : ofSegments path.segments = path := by
  rw [ofSegments, segments, intercalate_splitSlashes, String.ofList_toList]

theorem segments_ofSegments {parts : List (List Char)} (nonempty : parts ≠ [])
    (clean : ∀ part ∈ parts, '/' ∉ part) : (ofSegments parts).segments = parts := by
  rw [segments, ofSegments, String.toList_ofList, splitSlashes_intercalate nonempty clean]

theorem isAbsolute_iff (path : Path) :
    path.isAbsolute = true ↔ ∃ rest, rest ≠ [] ∧ path.segments = [] :: rest := by
  rw [isAbsolute, segments, beq_iff_eq]
  cases path.text.toList with
  | nil => simp [splitSlashes]
  | cons c rest =>
      by_cases slash : c = '/'
      · rw [slash, splitSlashes_slash]
        exact ⟨fun _ => ⟨_, splitSlashes_ne_nil rest, rfl⟩, fun _ => rfl⟩
      · obtain ⟨first, others, _, longer⟩ := splitSlashes_cons slash rest
        simp [longer, slash]

theorem segments_join (directory : Path) {name : String} (h : '/' ∉ name.toList) :
    ∃ before, (directory.join name).segments = before ++ [name.toList] ∧
      (directory.segments = before ∨ directory.segments = before ++ [[]]) := by
  obtain ⟨text⟩ := directory
  have alone := splitSlashes_of_notMem h
  simp only [join, segments]
  split
  · next ends =>
    rw [Bool.or_eq_true, String.isEmpty_iff, beq_iff_eq] at ends
    obtain rfl | slash := ends
    · exact ⟨[], by simpa using alone, .inr rfl⟩
    · -- The slash at the end of the directory is the one in front of the name.
      obtain ⟨front, cut⟩ := List.getLast?_eq_some_iff.mp slash
      refine ⟨splitSlashes front, ?_, .inr ?_⟩
      · rw [String.toList_append, cut, List.append_assoc, List.singleton_append,
          splitSlashes_append_slash, alone]
      · rw [cut, splitSlashes_append_slash]
        rfl
  · have slash : "/".toList = ['/'] := rfl
    refine ⟨_, ?_, .inl rfl⟩
    rw [String.toList_append, String.toList_append, slash, List.append_assoc,
      List.singleton_append, splitSlashes_append_slash, alone]

theorem isAbsolute_join (directory : Path) {name : String} (h : '/' ∉ name.toList) :
    (directory.join name).isAbsolute = directory.isAbsolute := by
  obtain ⟨text⟩ := directory
  have relative : (name.toList.head? == some '/') = false := by
    rw [beq_eq_false_iff_ne]
    intro slash
    exact h (List.mem_of_mem_head? slash)
  simp only [join, isAbsolute]
  by_cases empty : text = ""
  · subst empty
    simpa using relative
  · have nonempty : text.toList ≠ [] := by simpa using empty
    split
    · rw [String.toList_append, List.head?_append_of_ne_nil _ nonempty]
    · rw [String.toList_append, String.toList_append, List.append_assoc,
        List.head?_append_of_ne_nil _ nonempty]

theorem isAbsolute_of_prefix {path parent : Path} (h : parent.segments <+: path.segments)
    (named : ∃ segment ∈ parent.segments, segment ≠ []) :
    parent.isAbsolute = path.isAbsolute := by
  obtain ⟨rest, whole⟩ := h
  rw [Bool.eq_iff_iff, isAbsolute_iff, isAbsolute_iff, ← whole]
  cases segments : parent.segments with
  | nil => simp [segments] at named
  | cons first others =>
      rw [List.cons_append]
      constructor
      · rintro ⟨_, nonempty, eq⟩
        obtain ⟨rfl, rfl⟩ := List.cons.inj eq
        exact ⟨_, List.append_ne_nil_of_left_ne_nil nonempty _, rfl⟩
      · rintro ⟨_, _, eq⟩
        obtain ⟨rfl, rfl⟩ := List.cons.inj eq
        refine ⟨others, ?_, rfl⟩
        rintro rfl
        obtain ⟨segment, mem, nonempty⟩ := named
        rw [segments, List.mem_singleton] at mem
        exact nonempty mem

/-- The path above is the root, a beginning of the path or, for a relative one, empty. -/
theorem parent?_cases {path parent : Path} (h : path.parent? = some parent) :
    (parent.text = "" ∧ path.isAbsolute = false) ∨ parent.text = "/" ∨
      (parent.segments <+: path.segments ∧ parent.isAbsolute = path.isAbsolute) := by
  simp only [parent?] at h
  split at h
  · split at h
    · next dotted =>
      cases h
      refine .inl ⟨rfl, Bool.eq_false_iff.mpr fun absolute => ?_⟩
      obtain ⟨rest, _, root⟩ := (isAbsolute_iff path).mp absolute
      simp [root] at dotted
    · contradiction
  · next name before found =>
    have front : before.reverse <+: path.segments := by
      refine List.IsPrefix.trans ?_ (List.rdropWhile_prefix isIdle path.segments)
      rw [List.rdropWhile, show path.segments.reverse.dropWhile isIdle = name :: before from found,
        List.reverse_cons]
      exact List.prefix_append _ _
    split at h
    · cases h
      by_cases absolute : path.isAbsolute = true
      · exact .inr (.inl (if_pos absolute))
      · by_cases dotted : (path.segments.head? == some ['.']) = true
        · refine .inr (.inr ?_)
          simp only [if_neg absolute, if_pos dotted]
          obtain ⟨rest, cut⟩ := List.head?_eq_some_iff.mp (beq_iff_eq.mp dotted)
          have dot : (⟨"."⟩ : Path).segments = [['.']] := rfl
          have above : (⟨"."⟩ : Path).segments <+: path.segments := by
            rw [dot, cut]
            exact ⟨rest, rfl⟩
          exact ⟨above, isAbsolute_of_prefix above ⟨['.'], by simp [dot], by simp⟩⟩
        · exact .inl ⟨by simp only [if_neg absolute, if_neg dotted], Bool.eq_false_iff.mpr absolute⟩
    · next nonempty =>
      cases h
      have above : (before.dropWhile isIdle).reverse <+: path.segments := by
        refine List.IsPrefix.trans ?_ front
        have dropped := List.rdropWhile_prefix isIdle before.reverse
        rwa [List.rdropWhile, List.reverse_reverse] at dropped
      have kept : (before.dropWhile isIdle).reverse ≠ [] := by
        simpa using nonempty
      have segments : (ofSegments (before.dropWhile isIdle).reverse).segments =
          (before.dropWhile isIdle).reverse := by
        refine segments_ofSegments kept fun part mem => ?_
        exact slash_notMem_splitSlashes (above.subset mem)
      refine .inr (.inr ?_)
      have beginning := segments.symm ▸ above
      refine ⟨beginning, isAbsolute_of_prefix beginning ?_⟩
      rw [segments]
      obtain ⟨last, others, core⟩ := List.exists_cons_of_ne_nil (List.reverse_ne_nil_iff.mp kept)
      refine ⟨last, by simp [core], ?_⟩
      rintro rfl
      have busy := List.head?_dropWhile_not isIdle before
      simp [core, isIdle] at busy

theorem isAbsolute_parent {path parent : Path} (h : path.parent? = some parent)
    (absolute : path.isAbsolute = true) : parent.isAbsolute = true := by
  obtain ⟨_, relative⟩ | root | ⟨_, role⟩ := parent?_cases h
  · rw [absolute] at relative
    contradiction
  · rw [isAbsolute, root]
    rfl
  · rw [role, absolute]

theorem splitExtension_append (stem : List Char) {extension : List Char} (clean : '.' ∉ extension) :
    splitExtension (stem ++ '.' :: extension) =
      if stem = [] then ('.' :: extension, none) else (stem, some extension) := by
  have after : ((stem ++ '.' :: extension).reverse.takeWhile (· != '.')).reverse = extension := by
    have cut : (stem ++ '.' :: extension).reverse = extension.reverse ++ '.' :: stem.reverse := by
      simp
    rw [cut, List.takeWhile_append_of_pos, List.takeWhile_cons_of_neg (by simp), List.append_nil,
      List.reverse_reverse]
    intro c mem
    rw [bne_iff_ne]
    rintro rfl
    exact clean (List.mem_reverse.mp mem)
  have front : (stem ++ '.' :: extension).take
      ((stem ++ '.' :: extension).length - extension.length - 1) = stem := by
    apply List.take_left'
    rw [List.length_append, List.length_cons]
    omega
  have longer : extension.length ≠ (stem ++ '.' :: extension).length := by
    rw [List.length_append, List.length_cons]
    omega
  simp only [splitExtension, after, front]
  by_cases empty : stem = []
  · simp [empty]
  · simp only [longer, empty, decide_false, List.isEmpty_iff, Bool.or_eq_true, or_self, if_false,
      Bool.false_eq_true]

/-- The extension of a name, if it has one, stands behind its last dot. -/
theorem splitExtension_cases (name : List Char) :
    splitExtension name = (name, none) ∨
      ∃ stem extension, stem ≠ [] ∧ name = stem ++ '.' :: extension ∧
        splitExtension name = (stem, some extension) := by
  by_cases dot : '.' ∈ name
  · obtain ⟨extension, stem, cut, clean⟩ := List.eq_append_cons_of_mem (List.mem_reverse.mpr dot)
    have whole : name = stem.reverse ++ '.' :: extension.reverse := by
      rw [← List.reverse_reverse name, cut]
      simp
    have behind : '.' ∉ extension.reverse := by simpa using clean
    have parts := splitExtension_append stem.reverse behind
    rw [← whole] at parts
    by_cases empty : stem.reverse = []
    · rw [if_pos empty] at parts
      rw [empty, List.nil_append] at whole
      exact .inl (whole ▸ parts)
    · rw [if_neg empty] at parts
      exact .inr ⟨stem.reverse, extension.reverse, empty, whole, parts⟩
  · have all : name.reverse.takeWhile (· != '.') = name.reverse := by
      rw [List.takeWhile_eq_self_iff]
      intro c mem
      rw [bne_iff_ne]
      rintro rfl
      exact dot (List.mem_reverse.mp mem)
    refine .inl ?_
    simp only [splitExtension, all, List.reverse_reverse]
    simp

theorem mem_of_mem_stem {name : List Char} {c : Char} (h : c ∈ (splitExtension name).1) :
    c ∈ name := by
  obtain whole | ⟨stem, extension, _, cut, parts⟩ := splitExtension_cases name
  · rwa [whole] at h
  · rw [parts] at h
    rw [cut]
    exact List.mem_append_left _ h

theorem stem_ne_nil {name : List Char} (h : name ≠ []) : (splitExtension name).1 ≠ [] := by
  obtain whole | ⟨stem, extension, nonempty, _, parts⟩ := splitExtension_cases name
  · rwa [whole]
  · rwa [parts]

section

variable {path : Path} {front before : List (List Char)} {name extension : List Char}

theorem reversedCore_of_segments (segments : path.segments = front ++ [name])
    (busy : isIdle name = false) : path.reversedCore = name :: front.reverse := by
  rw [reversedCore, segments, List.reverse_append, List.reverse_singleton, List.singleton_append,
    List.dropWhile_cons_of_neg (by simp [busy])]

theorem isIdle_of_reversedCore (core : path.reversedCore = name :: before) :
    isIdle name = false := by
  have busy := List.head?_dropWhile_not isIdle path.segments.reverse
  rw [← reversedCore, core] at busy
  simpa using busy

theorem fileName?_of_segments (segments : path.segments = front ++ [name])
    (busy : isIdle name = false) (upwards : name ≠ ['.', '.']) : path.fileName? = some name := by
  rw [fileName?, reversedCore_of_segments segments busy]
  exact if_neg upwards

theorem segments_withExtension (core : path.reversedCore = name :: before)
    (upwards : name ≠ ['.', '.']) (clean : '/' ∉ extension) :
    (path.withExtension extension).segments =
      before.reverse ++ [(splitExtension name).1 ++ '.' :: extension] := by
  have slashes : ∀ segment ∈ name :: before, '/' ∉ segment := by
    intro segment mem
    rw [← core] at mem
    exact slash_notMem_splitSlashes (List.mem_reverse.mp ((List.dropWhile_suffix _).subset mem))
  rw [List.forall_mem_cons] at slashes
  simp only [withExtension, core]
  rw [if_neg upwards, List.reverse_cons, segments_ofSegments (by simp)]
  intro segment mem
  obtain early | last := List.mem_append.mp mem
  · exact slashes.2 segment (List.mem_reverse.mp early)
  · rw [List.mem_singleton.mp last, List.mem_append, List.mem_cons]
    rintro (stem | dot | tail)
    · exact slashes.1 (mem_of_mem_stem stem)
    · cases dot
    · exact clean tail

/-- A path keeps its extension when it gets the same one. -/
theorem withExtension_self (segments : path.segments = front ++ [name])
    (busy : isIdle name = false) (upwards : name ≠ ['.', '.'])
    (h : path.extension? = some extension) : path.withExtension extension = path := by
  rw [extension?, fileName?_of_segments segments busy upwards, Option.bind_some] at h
  obtain whole | ⟨stem, extension', _, cut, parts⟩ := splitExtension_cases name
  · rw [whole] at h
    contradiction
  · rw [parts] at h
    cases h
    simp only [withExtension, reversedCore_of_segments segments busy]
    rw [if_neg upwards, parts, ← cut, List.reverse_cons, List.reverse_reverse, ← segments,
      ofSegments_segments]

/-- The last segment of a path that got an extension is a name with that extension. -/
theorem last_withExtension (clean : '/' ∉ extension)
    (segments : (path.withExtension extension).segments = front ++ [name])
    (busy : isIdle name = false) (upwards : name ≠ ['.', '.']) :
    ∃ stem, stem ≠ [] ∧ name = stem ++ '.' :: extension := by
  have unchanged (same : path.withExtension extension = path) :
      path.reversedCore = name :: front.reverse :=
    reversedCore_of_segments (same ▸ segments) busy
  cases core : path.reversedCore with
  | nil =>
      have same : path.withExtension extension = path := by simp only [withExtension, core]
      cases core.symm.trans (unchanged same)
  | cons old before =>
      by_cases up : old = ['.', '.']
      · have same : path.withExtension extension = path := by
          simp only [withExtension, core, up, if_true]
        cases core.symm.trans (unchanged same)
        exact absurd up upwards
      · rw [segments_withExtension core up clean] at segments
        obtain ⟨_, last⟩ := List.append_inj' segments rfl
        refine ⟨(splitExtension old).1, stem_ne_nil ?_, (List.singleton_inj.mp last).symm⟩
        rintro rfl
        exact absurd (isIdle_of_reversedCore core) (by decide)

end

end SpriteScript.Path
