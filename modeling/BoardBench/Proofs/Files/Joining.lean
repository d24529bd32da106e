import BoardBench.Files.Tree
import BoardBench.Proofs.Text.Blank

/-!
# Joined paths

Main result: a file that a joined path names is the one that its second part names, seen from the
directory that its first part names.

Proof strategy: the segments of a joined path are those of its parts, one after the other, and a
walk over segments can be stopped at any place and gone on with from there.
-/
namespace BoardBench

/-! ### Walks -/

namespace Files

variable (files : Files)

theorem walk_through {start : List String} (there : files.entry? start = some .directory)
    (segment : String) (rest : List String) :
    files.walk start (segment :: rest) =
      if Path.isIdle segment then files.walk start rest
      else if segment = ".." then files.walk start.dropLast rest
      else if Path.isLongPart segment then .error .nameTooLong
      else files.walk (start ++ [segment]) rest := by
  rw [walk, there]

theorem walk_blocked {start : List String} (absent : files.entry? start ≠ some .directory) :
    ∃ cause, cause ≠ .unknownFormat ∧
      ∀ segment rest, files.walk start (segment :: rest) = .error cause := by
  cases standing : files.entry? start with
  | none => exact ⟨.notFound, by decide, fun segment rest => by rw [walk, standing]⟩
  | some entry =>
    cases entry with
    | directory => exact absurd standing absent
    | file => exact ⟨.notADirectory, by decide, fun segment rest => by rw [walk, standing]⟩
    | device => exact ⟨.notADirectory, by decide, fun segment rest => by rw [walk, standing]⟩

theorem walk_append (start : List String) (first rest : List String) :
    files.walk start (first ++ rest) =
      (files.walk start first).bind fun place => files.walk place rest := by
  induction first generalizing start with
  | nil => rfl
  | cons segment more ih =>
    rw [List.cons_append]
    by_cases there : files.entry? start = some .directory
    · rw [walk_through files there, walk_through files there, ih, ih, ih]
      split
      · rfl
      · split
        · rfl
        · split <;> rfl
    · obtain ⟨cause, -, blocked⟩ := walk_blocked files there
      rw [blocked, blocked]
      rfl

theorem walk_idle {segment : String} (idle : Path.isIdle segment = true) (start : List String)
    {rest : List String} (more : rest ≠ []) :
    files.walk start (segment :: rest) = files.walk start rest := by
  by_cases there : files.entry? start = some .directory
  · rw [walk_through files there, if_pos idle]
  -- An idle segment only asks for a directory, which the segment after it does too.
  · obtain ⟨cause, -, blocked⟩ := walk_blocked files there
    obtain ⟨next, rest, rfl⟩ := List.exists_cons_of_ne_nil more
    rw [blocked, blocked]

theorem walk_ne_unknownFormat (start segments : List String) :
    files.walk start segments ≠ .error .unknownFormat := by
  induction segments generalizing start with
  | nil => exact nofun
  | cons segment rest ih =>
    by_cases there : files.entry? start = some .directory
    · rw [walk_through files there]
      split
      · exact ih _
      · split
        · exact ih _
        · split
          · decide
          · exact ih _
    · obtain ⟨cause, other, blocked⟩ := walk_blocked files there
      rw [blocked]
      simpa using other

/-- The same files seen from another place. -/
def seenFrom (place : List String) : Files :=
  { files with current := place }

theorem walk_seenFrom (place start : List String) (segments : List String) :
    (files.seenFrom place).walk start segments = files.walk start segments := by
  induction segments generalizing start with
  | nil => rfl
  | cons segment rest ih =>
    have same : Files.entry? (files.seenFrom place) start = files.entry? start := rfl
    simp only [walk, same, ih]

end Files

/-! ### Segments -/

namespace Path

theorem isAbsolute_append {base : String} (some : base ≠ "") (path : String) :
    isAbsolute (base ++ path) = isAbsolute base := by
  have nonempty : base.toList ≠ [] := by simpa using some
  rw [isAbsolute, isAbsolute, String.toList_append, List.head?_append_of_ne_nil _ nonempty]

variable {base path : String}

theorem join_of_relative (relative : isAbsolute path = false) (some : base ≠ "") :
    join base path = if endsInSlash base then base ++ path else base ++ "/" ++ path := by
  have nonempty : base.isEmpty = false := by simpa using some
  rw [join, relative, nonempty]
  rfl

theorem segments_append_slash (front path : String) :
    segments (front ++ "/" ++ path) = segments front ++ segments path := by
  have slashed : (front ++ "/" ++ path).toList = front.toList ++ slash :: path.toList := by
    simp [String.toList_append, slash]
  rw [segments, slashed, pieces_append_cons (by decide), List.map_append]
  rfl

theorem segments_ne_nil (path : String) : segments path ≠ [] := by
  rw [segments, Ne, List.map_eq_nil_iff]
  exact pieces_ne_nil _ _

theorem ne_empty_of_not_isBare (pathed : isBare path = false) : path ≠ "" := by
  rintro rfl
  exact absurd pathed (by decide)

theorem exists_front_of_endsInSlash (ends : endsInSlash base = true) :
    ∃ front : String, base = front ++ "/" := by
  rw [endsInSlash, beq_iff_eq] at ends
  refine ⟨String.ofList base.toList.dropLast, ?_⟩
  apply String.toList_inj.mp
  rw [String.toList_append, String.toList_ofList]
  exact (List.dropLast_append_getLast? _ ends).symm

end Path

theorem Files.walk_join (files : Files) {base path : String}
    (relative : Path.isAbsolute path = false) (some : base ≠ "") (start : List String) :
    files.walk start (Path.segments (Path.join base path)) =
      (files.walk start (Path.segments base)).bind fun place =>
        files.walk place (Path.segments path) := by
  rw [Path.join_of_relative relative some]
  split
  next ends =>
    obtain ⟨front, rfl⟩ := Path.exists_front_of_endsInSlash ends
    have tail : Path.segments (front ++ "/") = Path.segments front ++ [""] := by
      have cut := Path.segments_append_slash front ""
      rwa [String.append_empty] at cut
    -- The empty segment at the end of the first part makes no difference.
    rw [Path.segments_append_slash, tail, ← Files.walk_append, List.append_assoc,
      List.singleton_append, Files.walk_append, Files.walk_append]
    congr 1
    funext place
    exact (files.walk_idle (by decide) place (Path.segments_ne_nil path)).symm
  next => rw [Path.segments_append_slash, Files.walk_append]

/-! ### What a path names -/

namespace Files

variable {files : Files} {base path : String}

theorem lookup_eq_ok_iff {entry : Entry} : files.lookup path = .ok entry ↔
    ∃ place, files.locate path = .ok place ∧ files.entry? place = some entry := by
  unfold lookup
  cases located : files.locate path with
  | error cause => simp [bind, Except.bind]
  | ok place =>
    cases standing : files.entry? place with
    | none => simp [bind, Except.bind, throw, throwThe, MonadExceptOf.throw, standing]
    | some entry => simp [bind, Except.bind, pure, Except.pure, standing]

theorem isDirectory_iff : files.isDirectory path = true ↔
    ∃ place, files.locate path = .ok place ∧ files.entry? place = some .directory := by
  rw [← lookup_eq_ok_iff]
  unfold isDirectory
  split
  next found => simp [found]
  next other => simpa using other

theorem isExecutable_iff : files.isExecutable path = true ↔
    ∃ place content, files.locate path = .ok place ∧
      files.entry? place = some (.file content true) := by
  rw [exists_comm]
  simp only [← lookup_eq_ok_iff]
  unfold isExecutable
  split
  next content executable found => simp [found]
  next other => simpa using fun content => other content true

theorem lookup_ne_unknownFormat (files : Files) (path : String) :
    files.lookup path ≠ .error .unknownFormat := by
  have flaw : flaw? path ≠ some .unknownFormat := by
    unfold flaw?
    split
    · decide
    · split
      · decide
      · split <;> decide
  have located : files.locate path ≠ .error .unknownFormat := by
    unfold locate
    split
    next cause flawed =>
      rintro ⟨⟩
      exact flaw flawed
    next => exact files.walk_ne_unknownFormat _ _
  unfold lookup
  cases found : files.locate path with
  | error cause =>
    rw [found] at located
    simpa [bind, Except.bind] using located
  | ok place =>
    cases standing : files.entry? place with
    | none =>
      simp only [bind, Except.bind, standing]
      decide
    | some entry => simp [bind, Except.bind, pure, Except.pure, standing]

theorem flaw?_of_locate {place : List String} (located : files.locate path = .ok place) :
    flaw? path = none ∧ files.walk (files.startOf path) (Path.segments path) = .ok place := by
  unfold locate at located
  split at located
  · cases located
  next sound => exact ⟨sound, located⟩

theorem flaw?_eq_none_iff : flaw? path = none ↔
    Path.hasNul path = false ∧ path ≠ "" ∧ Path.isLong path = false := by
  have empty : path.isEmpty = true ↔ path = "" := String.isEmpty_iff
  unfold flaw?
  by_cases filled : path = "" <;> cases Path.hasNul path <;> cases Path.isLong path <;>
    simp [empty, filled]

theorem flaw?_of_join (relative : Path.isAbsolute path = false) (some : base ≠ "")
    (filled : path ≠ "") (sound : flaw? (Path.join base path) = none) : flaw? path = none := by
  obtain ⟨front, joined⟩ : ∃ front, Path.join base path = front ++ path := by
    rw [Path.join_of_relative relative some]
    split
    · exact ⟨base, rfl⟩
    · exact ⟨base ++ "/", rfl⟩
  obtain ⟨clean, -, short⟩ := flaw?_eq_none_iff.mp sound
  rw [joined] at clean short
  apply flaw?_eq_none_iff.mpr
  refine ⟨?_, filled, ?_⟩
  · simp only [Path.hasNul, String.toList_append, List.contains_eq_mem, List.mem_append,
      decide_eq_false_iff_not, not_or] at clean ⊢
    exact clean.2
  · simp only [Path.isLong, decide_eq_false_iff_not, Nat.not_le,
      String.utf8ByteSize_append] at short ⊢
    omega

theorem startOf_join (relative : Path.isAbsolute path = false) (some : base ≠ "") :
    files.startOf (Path.join base path) = files.startOf base := by
  have same : Path.isAbsolute (Path.join base path) = Path.isAbsolute base := by
    rw [Path.join_of_relative relative some]
    split
    · exact Path.isAbsolute_append some path
    · rw [String.append_assoc]
      exact Path.isAbsolute_append some _
  rw [startOf, startOf, same]

/-- What a joined path names is named by its second part, seen from the directory that its first
part names. -/
theorem locate_of_join {directory place : List String} (filled : path ≠ "")
    (there : files.locate base = .ok directory)
    (located : files.locate (Path.join base path) = .ok place) :
    (files.seenFrom directory).locate path = .ok place := by
  obtain ⟨-, way⟩ := flaw?_of_locate there
  have some : base ≠ "" := (flaw?_eq_none_iff.mp (flaw?_of_locate there).1).2.1
  obtain ⟨sound, walked⟩ := flaw?_of_locate located
  by_cases absolute : Path.isAbsolute path = true
  · -- An absolute path is the same one from everywhere.
    have same : Path.join base path = path := by simp [Path.join, absolute]
    rw [same] at sound walked
    rw [locate, sound]
    simp only [walk_seenFrom]
    rw [← walked, startOf, startOf, if_pos absolute, if_pos absolute]
  · rw [Bool.not_eq_true] at absolute
    rw [startOf_join absolute some, walk_join files absolute some, way] at walked
    rw [locate, flaw?_of_join absolute some filled sound]
    simp only [walk_seenFrom, startOf, absolute]
    exact walked

end Files

/-! ### Programs in a directory -/

/-- The program can be executed by a command that is started in the directory. -/
def Files.isExecutableFrom (files : Files) (directory program : String) : Bool :=
  match files.locate directory with
  | .ok place => (files.seenFrom place).isExecutable program
  | .error _ => false

theorem Files.isExecutableFrom_of_join {files : Files} {directory program : String}
    (filled : program ≠ "") (there : files.isDirectory directory = true)
    (found : files.isExecutable (Path.join directory program) = true) :
    files.isExecutableFrom directory program = true := by
  obtain ⟨start, located, -⟩ := isDirectory_iff.mp there
  obtain ⟨place, content, joined, standing⟩ := isExecutable_iff.mp found
  rw [isExecutableFrom, located]
  apply isExecutable_iff.mpr
  exact ⟨place, content, locate_of_join filled located joined, standing⟩

end BoardBench
