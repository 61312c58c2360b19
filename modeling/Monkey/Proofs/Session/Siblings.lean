import Monkey.CommandLine.Basic
import Monkey.Proofs.File.Siblings
import Monkey.Proofs.Session.Modules
import Monkey.Proofs.Session.Origins

/-!
# What imports find

The file that a relative import means depends on the path that the importing file goes by. If that
path has a directory part, a file beside the importing one comes before all others; the path of an
imported file always has one. A script that goes by a bare name is different: its imports look in
the directories of the search path first, and in its own directory only last.
-/

set_option autoImplicit false

namespace Monkey

/-- What an import does with the file that its path means, if it means one. -/
def Eval.importFound (world : World) (inner : Evaluator) (path : String) :
    Option (RealPath × List UInt8) → Eval Value
  | none => Eval.fail (.importing path .notFound)
  | some (real, content) => fun machine =>
      if machine.running.contains real then Eval.fail (.importing path .cyclic) machine
      else Machine.load inner real path (ModuleText.ofContent content world.nestingLimit) machine

theorem Eval.importFile_eq_importFound (world : World) (inner : Evaluator) (frame : FrameId)
    (path : String) (machine : Machine) :
    Eval.importFile world inner frame path machine =
      importFound world inner path (world.resolveImport (machine.frame frame).sourcePath path)
        machine := by
  refine (Eval.bind_ok rfl).trans ?_
  cases world.resolveImport (machine.frame frame).sourcePath path with
  | none => rfl
  | some found =>
      obtain ⟨real, content⟩ := found
      dsimp only [importFound]
      split
      · rfl
      · cases ModuleText.ofContent content world.nestingLimit <;> rfl

theorem Path.slash_mem_ofNames (names : List String) : '/' ∈ (Path.ofNames names).toList := by
  simp [Path.ofNames]

namespace Machine

variable (world : World) (initial sourcePath : Option String)

/-- The path of a script may have no directory part, but that of an imported file has one. -/
theorem Written.slash_mem {script origin : Origin} {start : Machine} {moment : Moment}
    (written : Written world script start origin moment) :
    origin = script ∨ ∃ path, origin.sourcePath = some path ∧ '/' ∈ path.toList := by
  rcases written.isRead with same | ⟨real, content, -, -, named⟩
  · exact .inl same
  · exact .inr ⟨_, named, Path.slash_mem_ofNames real⟩

/-- In a run on a new machine, a relative import that is written in a file with a directory part in
its path takes the file that the path it imports leads to from the directory of the importing file.
Only if there is none is it looked for in the directories of the search path, in their order, and
last in the working directory. An import in a script that goes by a bare name, or by none, has these
to look in alone. -/
theorem imports_siblings (program : Program) :
    let start := (Machine.start initial).entered world sourcePath
    let script : Origin := ⟨program, sourcePath.or initial⟩
    ∀ origin moment limit file called, Written world script start origin moment →
      moment.limit = limit + 1 →
      Calls (evaluate world limit) moment.frame moment.phrase moment.machine
        (.builtin .importFile) [.string file] called →
      Path.isAbsolute file = false →
      (origin = script ∨ ∃ path, origin.sourcePath = some path ∧ '/' ∈ path.toList) ∧
      ∃ found,
        moment.result world = Eval.located moment.phrase.site
          (Eval.importFound world (evaluate world limit) file found) called ∧
        (∀ path, origin.sourcePath = some path → '/' ∈ path.toList →
          (Path.join (Path.directory path) file).utf8ByteSize ≤ FileSystem.pathLimit →
          found = (world.files.sibling? path file).or (world.elsewhere file)) ∧
        ((∀ path, origin.sourcePath = some path → '/' ∉ path.toList) →
          found = world.elsewhere file) := by
  intro start script origin moment limit file called written depth makes relative
  have top : start.Belongs topFrame script.sourcePath := belongs_entered world initial sourcePath
  have belongs := (written.belongs top).later makes.becomes.grows
  refine ⟨written.slash_mem, world.resolveImport origin.sourcePath file, ?_, ?_, ?_⟩
  · obtain ⟨_, calls, frame, phrase, machine⟩ := moment
    cases depth
    have ends : Eval.phrase world (evaluate world limit) frame phrase machine =
        Eval.importFound world (evaluate world limit) file
          (world.resolveImport origin.sourcePath file) called := by
      rw [← belongs.sourcePath, ← Eval.importFile_eq_importFound]
      exact Eval.phrase_calls makes
    change Eval.located phrase.site _ machine = _
    rw [Eval.located, ends, Eval.located]
  · intro path named slash fits
    rw [named]
    exact world.resolveImport_of_directory relative slash fits
  · intro bare
    refine world.resolveImport_elsewhere relative ?_
    cases named : origin.sourcePath with
    | none => rfl
    | some path =>
        rw [importDirectory, Path.directory_bare (bare path named)]
        rfl

/-- The search path has a file of the name as well, but the one beside the script is taken. -/
theorem imports_siblings_shadowed :
    let files : FileSystem := ⟨[], [(["d", "a"], .file []), (["lib", "a"], .file [])]⟩
    let world : World := { files, searchPath := ["lib"] }
    let call : Expr := .call (.leaf ⟨.identifier, "import", ⟨1, 1⟩⟩) ⟨1, 7⟩
      [.leaf ⟨.string, "a", ⟨1, 8⟩⟩]
    let start := (Machine.start none).entered world (some "d/main")
    world.elsewhere "a" = some (["lib", "a"], []) ∧
      evaluate world 2999 topFrame (.expr call) start = Eval.located ⟨⟨1, 7⟩, .expr call⟩
        (Eval.importFound world (evaluate world 2998) "a" (some (["d", "a"], []))) start := by
  intro files world call start
  have written : Written world ⟨⟨⟨1, 1⟩, [.expr ⟨1, 1⟩ call]⟩, some "d/main"⟩ start _ _ :=
    .nested (.statement .first) (.operand .first)
  have makes : Calls (evaluate world 2998) topFrame (.expr call) start (.builtin .importFile)
      [.string "a"] start := .expr rfl rfl
  obtain ⟨-, found, ends, beside, -⟩ := imports_siblings world none (some "d/main") _ _ _ 2998 "a"
    start written rfl makes rfl
  have isFound : found = some (["d", "a"], []) := beside "d/main" rfl (by decide) (by decide)
  rw [isFound] at ends
  exact ⟨rfl, ends⟩

end Machine

/-- A script is run under a bare name from the directory that holds it. Its import takes the file of
the search path, although there is one beside the script. -/
theorem CommandLine.run_bareName :
    let script : List UInt8 := [112, 117, 116, 115, 40, 105, 109, 112, 111, 114, 116, 40, 34, 109,
      46, 109, 107, 34, 41, 91, 34, 120, 34, 93, 41, 59]
    let one : List UInt8 := [108, 101, 116, 32, 120, 32, 61, 32, 49, 59]
    let two : List UInt8 := [108, 101, 116, 32, 120, 32, 61, 32, 50, 59]
    let files : FileSystem := ⟨[],
      [(["main.mk"], .file script), (["m.mk"], .file one), (["lib", "m.mk"], .file two)]⟩
    Text.fileText script = .ok "puts(import(\"m.mk\")[\"x\"]);" ∧
      Text.fileText one = .ok "let x = 1;" ∧ Text.fileText two = .ok "let x = 2;" ∧
      files.sibling? "main.mk" "m.mk" = some (["m.mk"], one) ∧
      CommandLine.run ⟨some "lib", none, none, {}⟩ files ["main.mk"] "" [] =
        .ok ⟨0, "2\n", ""⟩ := by
  decide +kernel

end Monkey
