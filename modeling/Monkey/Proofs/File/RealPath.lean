import Monkey.Eval.Import

/-!
# Real paths

A snapshot of a file system is coherent if what it says of links is true of them: they lead to paths
of proper names on which nothing is a link, and so does the working directory. What is found by
following a path is then such a path as well, so written as a text and resolved again it comes back.
-/

set_option autoImplicit false

namespace Monkey

/-! ## Names and texts -/

/-- A name that an entry of a directory can have. -/
structure Path.IsName (name : String) : Prop where
  notEmpty : name ≠ ""
  notHere : name ≠ "."
  notParent : name ≠ ".."
  noSlash : '/' ∉ name.toList

theorem Path.not_mem_of_mem_splitOn {separator : Char} {piece : List Char} (text : List Char)
    (member : piece ∈ text.splitOn separator) : separator ∉ piece := by
  induction text generalizing piece with
  | nil =>
      cases List.mem_singleton.mp (List.splitOn_nil separator ▸ member)
      exact List.not_mem_nil
  | cons c rest ih =>
      rw [List.splitOn_cons_eq_if_modifyHead] at member
      split at member
      · rcases List.mem_cons.mp member with rfl | later
        · exact List.not_mem_nil
        · exact ih later
      next notSeparator =>
        obtain ⟨first, others, pieces⟩ :=
          List.exists_cons_of_ne_nil (List.splitOn_ne_nil separator rest)
        rw [pieces] at member ih
        rcases List.mem_cons.mp member with rfl | later
        · have differ : separator ≠ c := fun isSeparator => notSeparator (by simp [isSeparator])
          rw [List.mem_cons, not_or]
          exact ⟨differ, ih List.mem_cons_self⟩
        · exact ih (List.mem_cons_of_mem _ later)

theorem Path.noSlash_of_mem_names {path name : String} (member : name ∈ Path.names path) :
    '/' ∉ name.toList := by
  obtain ⟨piece, isPiece, rfl⟩ := List.mem_map.mp member
  rw [String.toList_ofList]
  exact not_mem_of_mem_splitOn path.toList isPiece

/-- A real path as a text has the names of the path, after an empty one for the root. -/
theorem Path.names_ofNames {names : List String} (nonempty : names ≠ [])
    (noSlash : ∀ name ∈ names, '/' ∉ name.toList) :
    Path.names (Path.ofNames names) = "" :: names := by
  have chars : (Path.ofNames names).toList =
      ['/'].intercalate ([] :: names.map String.toList) := by
    obtain ⟨first, others, rfl⟩ := List.exists_cons_of_ne_nil nonempty
    simp [Path.ofNames, String.toList_intercalate, List.intercalate_cons_cons]
  have apart : ∀ piece ∈ [] :: names.map String.toList, '/' ∉ piece := by
    refine List.forall_mem_cons.mpr ⟨List.not_mem_nil, fun piece member => ?_⟩
    obtain ⟨name, isName, rfl⟩ := List.mem_map.mp member
    exact noSlash name isName
  rw [Path.names, chars, List.splitOn_intercalate '/' apart (List.cons_ne_nil _ _)]
  simp

namespace Path.IsName

variable {name : String}

/-! A name on its own is a path with no other name in it. -/

end Path.IsName

namespace FileSystem

/-! ## Paths free of links -/

/-- The path is made of proper names, and no entry on it is a link. -/
structure IsReal (files : FileSystem) (path : RealPath) : Prop where
  names : ∀ name ∈ path, Path.IsName name
  noLinks : ∀ leading name, leading ++ [name] <+: path → ∀ target,
    files.entry? (leading ++ [name]) ≠ some (.link target)

/-- The working directory and the links of the snapshot are given by real paths. -/
structure Coherent (files : FileSystem) : Prop where
  workingDirectory : files.IsReal files.workingDirectory
  links : ∀ path target, (path, .link target) ∈ files.entries → files.IsReal target

variable {files : FileSystem} {path real : RealPath}

theorem IsReal.root : files.IsReal [] :=
  ⟨nofun, fun _ _ isPrefix => absurd (List.prefix_nil.mp isPrefix) (by simp)⟩

theorem IsReal.dropLast (isReal : files.IsReal path) : files.IsReal path.dropLast where
  names name member := isReal.names name (List.dropLast_subset path member)
  noLinks leading name isPrefix := isReal.noLinks leading name (isPrefix.trans path.dropLast_prefix)

theorem IsReal.append (isReal : files.IsReal path) {name : String} (isName : Path.IsName name)
    (noLink : ∀ target, files.entry? (path ++ [name]) ≠ some (.link target)) :
    files.IsReal (path ++ [name]) where
  names := List.forall_mem_append.mpr ⟨isReal.names, List.forall_mem_singleton.mpr isName⟩
  noLinks leading last isPrefix := by
    rcases List.prefix_concat_iff.mp isPrefix with whole | shorter
    · rw [whole]
      exact noLink
    · exact isReal.noLinks leading last shorter

theorem mem_of_entry?_link {target : RealPath} (entry : files.entry? path = some (.link target)) :
    (path, .link target) ∈ files.entries := by
  unfold entry? at entry
  split at entry
  next held =>
    cases entry
    obtain ⟨before, after, entries, -⟩ := List.lookup_eq_some_iff.mp held
    rw [entries]
    exact List.mem_append_right before List.mem_cons_self
  next => split at entry <;> cases entry

theorem follow_isReal (coherent : files.Coherent) {names : List String}
    (noSlash : ∀ name ∈ names, '/' ∉ name.toList) (isReal : files.IsReal path)
    (found : files.follow names path = .ok real) : files.IsReal real := by
  induction names generalizing path with
  | nil =>
      cases found
      exact isReal
  | cons name rest ih =>
      obtain ⟨here, later⟩ := List.forall_mem_cons.mp noSlash
      rw [follow] at found
      split at found
      case h_1 =>
        split at found
        next => exact ih later isReal found
        split at found
        next => exact ih later isReal.dropLast found
        next notHere notParent =>
        have isName : Path.IsName name :=
          ⟨fun isEmpty => notHere (.inl isEmpty), fun isHere => notHere (.inr isHere), notParent,
            here⟩
        split at found
        · cases found
        split at found
        next => cases found
        next target entry =>
          exact ih later (coherent.links _ target (mem_of_entry?_link entry)) found
        next other notLink entry =>
          refine ih later (isReal.append isName fun target isLink => ?_) found
          exact notLink target (Option.some.inj (entry.symm.trans isLink))
      case h_2 => cases found
      case h_3 => cases found

theorem find_isReal (coherent : files.Coherent) {path : String}
    (found : files.find path = .ok real) : files.IsReal real := by
  unfold find at found
  split at found
  · cases found
  split at found
  · cases found
  split at found
  · cases found
  refine follow_isReal coherent (fun name => Path.noSlash_of_mem_names) ?_ found
  unfold origin
  split
  · exact .root
  · exact coherent.workingDirectory

theorem foldl_resolveName (leading : RealPath) {rest : RealPath}
    (isReal : files.IsReal (leading ++ rest)) :
    rest.foldl files.resolveName leading = leading ++ rest := by
  induction rest generalizing leading with
  | nil => simp
  | cons name rest ih =>
      have isName := isReal.names name (by simp)
      have noLink := isReal.noLinks leading name ⟨rest, by simp⟩
      have step : files.resolveName leading name = leading ++ [name] := by
        unfold resolveName
        rw [if_neg (by simp [isName.notEmpty, isName.notHere]), if_neg isName.notParent]
        split
        next target entry => exact absurd entry (noLink target)
        next => rfl
      rw [List.foldl_cons, step, ih _ (by simpa using isReal)]
      simp

theorem IsReal.realPath_eq (isReal : files.IsReal path) :
    files.realPath (Path.ofNames path) = path := by
  have absolute : files.origin (Path.ofNames path) = [] := by
    simp [origin, Path.isAbsolute, Path.ofNames]
  rw [realPath, absolute]
  cases path with
  | nil => rfl
  | cons name rest =>
      have noSlash : ∀ other ∈ name :: rest, '/' ∉ other.toList :=
        fun other member => (isReal.names other member).noSlash
      rw [Path.names_ofNames (List.cons_ne_nil _ _) noSlash, List.foldl_cons]
      exact foldl_resolveName [] isReal

end FileSystem

/-- The file that an import finds has its own real path. -/
theorem World.realPath_of_resolveImport {world : World} (coherent : world.files.Coherent)
    {sourcePath : Option String} {path : String} {real : RealPath} {content : List UInt8}
    (found : world.resolveImport sourcePath path = some (real, content)) :
    world.files.realPath (Path.ofNames real) = real := by
  obtain ⟨candidate, -, isFile⟩ := List.exists_of_findSome?_eq_some found
  refine FileSystem.IsReal.realPath_eq ?_
  unfold FileSystem.file? at isFile
  split at isFile
  · cases isFile
  next reached =>
    split at isFile
    · cases isFile
      exact FileSystem.find_isReal coherent reached
    · cases isFile

end Monkey
