import Mathlib.Data.List.DropRight
import Monkey.Proofs.File.RealPath

/-!
# Files beside a file

A relative path behind the directory part of another path leads to what it leads to from the
directory that holds the file of that path. So an import finds the files beside the one that it is
written in before all others, if the path of that one has a directory part. A path without one gives
no directory to look in, although the file that it names is held by the working directory.
-/

set_option autoImplicit false

namespace Monkey

/-! ## Directory parts -/

namespace Path

variable {path : String}

theorem dropSlashes_append (chars : List Char) :
    ∃ count, chars = dropSlashes chars ++ List.replicate count '/' := by
  refine ⟨(chars.rtakeWhile (· == '/')).length, ?_⟩
  have slashes : chars.rtakeWhile (· == '/') =
      List.replicate (chars.rtakeWhile (· == '/')).length '/' :=
    List.eq_replicate_iff.mpr ⟨rfl, fun char member => by
      simpa using List.mem_rtakeWhile_imp member⟩
  rw [← slashes]
  exact List.rdropWhile_append_rtakeWhile.symm

theorem getLast?_dropSlashes (chars : List Char) : (dropSlashes chars).getLast? ≠ some '/' := by
  by_cases nonempty : dropSlashes chars = []
  · simp [nonempty]
  · rw [List.getLast?_eq_some_getLast nonempty]
    have notSlash := List.rdropWhile_last_not (· == '/') chars nonempty
    exact fun ends => notSlash (beq_iff_eq.mpr (Option.some.inj ends))

/-- A path with a slash in it is cut at its last one. -/
theorem exists_front (slash : '/' ∈ path.toList) :
    ∃ front last, path.toList = front ++ '/' :: last ∧ '/' ∉ last := by
  obtain ⟨last, front, reversed, noSlash⟩ :=
    List.eq_append_cons_of_mem (List.mem_reverse.mpr slash)
  refine ⟨front.reverse, last.reverse, ?_, by simpa using noSlash⟩
  rw [← List.reverse_reverse path.toList, reversed]
  simp

theorem toList_directory {front last : List Char} (whole : path.toList = front ++ '/' :: last)
    (noSlash : '/' ∉ last) :
    (directory path).toList =
      if (dropSlashes front).isEmpty then front ++ ['/'] else dropSlashes front := by
  have cut : (path.toList.reverse.dropWhile (· != '/')).reverse = front ++ ['/'] := by
    have others : ∀ char ∈ last.reverse, (char != '/') = true := fun char member => by
      simpa using ne_of_mem_of_not_mem (List.mem_reverse.mp member) noSlash
    rw [whole, List.reverse_append, List.reverse_cons, List.append_assoc,
      List.dropWhile_append_of_pos others]
    simp
  have trimmed : dropSlashes (front ++ ['/']) = dropSlashes front :=
    List.rdropWhile_concat_pos (· == '/') front '/' rfl
  rw [directory, cut, trimmed, String.toList_ofList]

theorem directory_ne_empty (slash : '/' ∈ path.toList) : directory path ≠ "" := by
  obtain ⟨front, last, whole, noSlash⟩ := exists_front slash
  rw [ne_eq, ← String.toList_eq_nil_iff, toList_directory whole noSlash]
  split
  · simp
  next trimmed => simpa using trimmed

/-- A relative path behind the directory part of a path takes the place of what follows the slashes
that the directory part ends at. -/
theorem exists_stem (slash : '/' ∈ path.toList) :
    ∃ stem count last, path.toList = stem ++ List.replicate count '/' ++ '/' :: last ∧ '/' ∉ last ∧
      ∀ file, isAbsolute file = false →
        (join (directory path) file).toList = stem ++ '/' :: file.toList := by
  obtain ⟨front, last, whole, noSlash⟩ := exists_front slash
  have isDirectory := toList_directory whole noSlash
  obtain ⟨count, isFront⟩ := dropSlashes_append front
  cases trimmed : (dropSlashes front).isEmpty with
  | true =>
      rw [trimmed, if_pos rfl] at isDirectory
      refine ⟨front, 0, last, by simpa using whole, noSlash, fun file relative => ?_⟩
      have ends : (directory path).toList.getLast? = some '/' := by simp [isDirectory]
      rw [join, relative, ends]
      simp [isDirectory]
  | false =>
      rw [trimmed, if_neg Bool.false_ne_true] at isDirectory
      refine ⟨dropSlashes front, count, last, by rw [← isFront, whole], noSlash,
        fun file relative => ?_⟩
      have ends := getLast?_dropSlashes front
      simp [join, relative, ends, directory_ne_empty slash, isDirectory]

theorem splitOn_slashes (chars : List Char) (count : Nat) :
    (chars ++ List.replicate count '/').splitOn '/' =
      chars.splitOn '/' ++ List.replicate count [] := by
  induction count with
  | zero => simp
  | succ count ih =>
      rw [List.replicate_succ', List.replicate_succ', ← List.append_assoc,
        List.splitOn_append_cons_self, ih, List.splitOn_nil, List.append_assoc]

/-- The names that lead to the directory of a file, as the path of the file has them and as a path
behind its directory part has them. -/
theorem names_join_directory (slash : '/' ∈ path.toList) :
    ∃ leading count, (names path).dropLast = leading ++ List.replicate count "" ∧
      ∀ file, isAbsolute file = false →
        names (join (directory path) file) = leading ++ names file := by
  obtain ⟨stem, count, last, whole, noSlash, joined⟩ := exists_stem slash
  refine ⟨(stem.splitOn '/').map String.ofList, count, ?_, fun file relative => ?_⟩
  · have pieces : path.toList.splitOn '/' =
        stem.splitOn '/' ++ List.replicate count [] ++ [last] := by
      rw [whole, List.splitOn_append_cons_self, splitOn_slashes, List.splitOn_eq_singleton noSlash]
    rw [names, pieces, List.map_append, List.map_singleton, List.dropLast_concat]
    simp
  · rw [names, joined file relative, List.splitOn_append_cons_self, List.map_append]
    rfl

theorem isAbsolute_join_directory (slash : '/' ∈ path.toList) {file : String}
    (relative : isAbsolute file = false) :
    isAbsolute (join (directory path) file) = isAbsolute path := by
  obtain ⟨stem, count, last, whole, -, joined⟩ := exists_stem slash
  rw [isAbsolute, isAbsolute, joined file relative, whole]
  cases stem with
  | nil => cases count <;> rfl
  | cons first others => rfl

theorem directory_bare (bare : '/' ∉ path.toList) : directory path = "" := by
  have cut : path.toList.reverse.dropWhile (· != '/') = [] := by
    refine List.dropWhile_eq_nil_iff.mpr fun char member => ?_
    simpa using ne_of_mem_of_not_mem (List.mem_reverse.mp member) bare
  rw [directory, cut]
  rfl

theorem join_directory_ne_empty (slash : '/' ∈ path.toList) {file : String}
    (relative : isAbsolute file = false) : join (directory path) file ≠ "" := by
  obtain ⟨stem, count, last, -, -, joined⟩ := exists_stem slash
  rw [ne_eq, ← String.toList_eq_nil_iff, joined file relative]
  simp

theorem utf8ByteSize_le_join (directory file : String) :
    file.utf8ByteSize ≤ (join directory file).utf8ByteSize := by
  unfold join
  split
  · exact Nat.le_refl _
  split <;> simp only [String.utf8ByteSize_append] <;> omega

theorem mem_join {directory file : String} (relative : isAbsolute file = false) {char : Char}
    (notSlash : char ≠ '/') :
    char ∈ (join directory file).toList ↔ char ∈ directory.toList ∨ char ∈ file.toList := by
  rw [join, relative, if_neg Bool.false_ne_true]
  split <;> simp [notSlash]

end Path

/-! ## Files of one directory -/

namespace FileSystem

variable (files : FileSystem)

/-- The same files, seen from a directory. -/
def within (directory : RealPath) : FileSystem := { files with workingDirectory := directory }

/-- The directory that holds what a path names, whether or not anything of that name is there. -/
def holding (path : String) : Except PathFault RealPath :=
  if (Path.directory path).toList.contains '\x00' then .error .invalidCharacter
  else files.follow (Path.names path).dropLast (files.origin path)

/-- The file that a relative path leads to from the directory that holds what another path names. -/
def sibling? (path file : String) : Option (RealPath × List UInt8) :=
  match files.holding path with
  | .error _ => none
  | .ok directory => (files.within directory).file? file

theorem follow_within (directory : RealPath) (names : List String) (path : RealPath) :
    (files.within directory).follow names path = files.follow names path := by
  have entries : FileSystem.entry? (files.within directory) = files.entry? := rfl
  induction names generalizing path with
  | nil => rfl
  | cons name rest ih => simp only [follow, entries, ih]

theorem follow_append (first second : List String) (path : RealPath) :
    files.follow (first ++ second) path = (files.follow first path).bind (files.follow second) := by
  induction first generalizing path with
  | nil => rfl
  | cons name rest ih =>
      simp only [List.cons_append, follow]
      repeat' split
      all_goals first | exact ih _ | rfl

/-- An empty name before another one only repeats that a directory is needed. -/
theorem follow_empty (name : String) (rest : List String) (path : RealPath) :
    files.follow ("" :: name :: rest) path = files.follow (name :: rest) path := by
  rw [follow]
  split
  next => rfl
  next notDirectory entry =>
    rw [follow, entry]
    split
    next isDirectory => exact absurd (Option.some.inj isDirectory) notDirectory
    next => rfl
    next none => cases none
  next entry => rw [follow, entry]

theorem follow_empties (count : Nat) {names : List String} (nonempty : names ≠ [])
    (path : RealPath) :
    files.follow (List.replicate count "" ++ names) path = files.follow names path := by
  obtain ⟨name, rest, rfl⟩ := List.exists_cons_of_ne_nil nonempty
  induction count with
  | zero => rfl
  | succ count ih =>
      rw [← ih]
      cases count <;> exact files.follow_empty _ _ path

theorem names_ne_nil (path : String) : Path.names path ≠ [] :=
  List.map_eq_nil_iff.not.mpr (List.splitOn_ne_nil _ _)

/-- A relative path behind the directory part of a path leads to what it leads to from the directory
that holds the file of that path. -/
theorem follow_join_directory {path file : String} (slash : '/' ∈ path.toList)
    (relative : Path.isAbsolute file = false) (directory : RealPath) :
    files.follow (Path.names (Path.join (Path.directory path) file)) directory =
      (files.follow (Path.names path).dropLast directory).bind
        (files.follow (Path.names file)) := by
  obtain ⟨leading, count, holds, joined⟩ := Path.names_join_directory slash
  rw [joined file relative, holds, ← follow_append, List.append_assoc, follow_append,
    follow_append]
  refine congrArg _ (funext fun reached => ?_)
  exact (files.follow_empties count (names_ne_nil file) reached).symm

theorem follow_emptyName {directory real : RealPath}
    (found : files.follow [""] directory = .ok real) : files.entry? real = some .directory := by
  rw [follow] at found
  split at found
  next isDirectory =>
    cases found
    exact isDirectory
  next => cases found
  next => cases found

/-- The file that a real path leads to, if it leads to one. -/
def fileAt? (real : RealPath) : Option (RealPath × List UInt8) :=
  match files.entry? real with
  | some (.file content) => some (real, content)
  | _ => none

theorem file?_eq (path : String) :
    files.file? path = (files.find path).toOption.bind files.fileAt? := by
  rw [file?]
  cases files.find path <;> rfl

theorem find_eq {path : String} (nonempty : path ≠ "") (noNul : '\x00' ∉ path.toList)
    (fits : path.utf8ByteSize ≤ pathLimit) :
    files.find path = files.follow (Path.names path) (files.origin path) := by
  rw [find, if_neg (String.isEmpty_iff.not.mpr nonempty), if_neg (by simpa using noNul),
    if_neg (Nat.not_lt.mpr fits)]

variable {files}

theorem file?_of_nul {path : String} (nul : '\x00' ∈ path.toList) : files.file? path = none := by
  have nonempty : path ≠ "" := by
    rintro rfl
    cases nul
  rw [file?, find, if_neg (String.isEmpty_iff.not.mpr nonempty), if_pos (by simpa using nul)]

/-- A relative path is followed from the directory that the files are seen from. -/
theorem file?_within {file : String} (relative : Path.isAbsolute file = false)
    (noNul : '\x00' ∉ file.toList) (fits : file.utf8ByteSize ≤ pathLimit) (directory : RealPath) :
    (files.within directory).file? file =
      (files.follow (Path.names file) directory).toOption.bind files.fileAt? := by
  by_cases nonempty : file = ""
  · subst nonempty
    have none : (files.within directory).file? "" = none := rfl
    have names : Path.names "" = [""] := rfl
    rw [none, names]
    cases found : files.follow [""] directory with
    | error fault => rfl
    | ok real =>
        change _ = files.fileAt? real
        rw [fileAt?, follow_emptyName files found]
  · have here : (files.within directory).origin file = directory := by
      rw [FileSystem.origin, relative]
      rfl
    rw [file?_eq, find_eq _ nonempty noNul fits, here, follow_within]
    rfl

/-- What is behind the directory part of a path is a sibling of the file that the path names. -/
theorem file?_join_directory {path file : String} (slash : '/' ∈ path.toList)
    (relative : Path.isAbsolute file = false)
    (fits : (Path.join (Path.directory path) file).utf8ByteSize ≤ pathLimit) :
    files.file? (Path.join (Path.directory path) file) = files.sibling? path file := by
  have nuls : '\x00' ∈ (Path.join (Path.directory path) file).toList ↔ _ :=
    Path.mem_join relative (by decide)
  by_cases nul : '\x00' ∈ (Path.directory path).toList
  · rw [file?_of_nul (nuls.mpr (.inl nul)), sibling?, holding, if_pos (by simpa using nul)]
  by_cases nulFile : '\x00' ∈ file.toList
  · rw [file?_of_nul (nuls.mpr (.inr nulFile)), sibling?]
    split
    · rfl
    · exact (file?_of_nul nulFile).symm
  have joined := files.find_eq (Path.join_directory_ne_empty slash relative)
    (nuls.not.mpr (by simp [nul, nulFile])) fits
  have origin : files.origin (Path.join (Path.directory path) file) = files.origin path := by
    rw [FileSystem.origin, Path.isAbsolute_join_directory slash relative, FileSystem.origin]
  rw [origin, follow_join_directory files slash relative] at joined
  rw [file?_eq, joined, sibling?, holding, if_neg (by simpa using nul)]
  cases files.follow (Path.names path).dropLast (files.origin path) with
  | error fault => rfl
  | ok directory =>
      have fits := Nat.le_trans (Path.utf8ByteSize_le_join _ _) fits
      exact (file?_within relative nulFile fits directory).symm

end FileSystem

/-! ## Imports -/

namespace World

variable (world : World)

/-- What a relative path means where no directory goes before the search path. -/
def elsewhere (file : String) : Option (RealPath × List UInt8) :=
  (world.searchPath ++ [Path.ofNames world.files.workingDirectory]).findSome? fun directory =>
    world.files.file? (Path.join directory file)

variable {file : String} (relative : Path.isAbsolute file = false)
include relative

theorem resolveImport_of_directory {path : String} (slash : '/' ∈ path.toList)
    (fits : (Path.join (Path.directory path) file).utf8ByteSize ≤ FileSystem.pathLimit) :
    world.resolveImport (some path) file =
      (world.files.sibling? path file).or (world.elsewhere file) := by
  have isDirectory : importDirectory (some path) = some (Path.directory path) :=
    if_neg (String.isEmpty_iff.not.mpr (Path.directory_ne_empty slash))
  rw [← FileSystem.file?_join_directory slash relative fits, resolveImport, importCandidates,
    relative, isDirectory, elsewhere, if_neg Bool.false_ne_true, List.findSome?_map]
  change List.findSome? _ (Path.directory path :: _) = _
  rw [List.findSome?_cons, Function.comp_apply]
  cases world.files.file? (Path.join (Path.directory path) file) <;> rfl

theorem resolveImport_elsewhere {sourcePath : Option String}
    (noDirectory : importDirectory sourcePath = none) :
    world.resolveImport sourcePath file = world.elsewhere file := by
  rw [resolveImport, importCandidates, relative, noDirectory, elsewhere,
    if_neg Bool.false_ne_true, List.findSome?_map]
  rfl

end World

end Monkey
