import Monkey.Eval.Import
import Monkey.Proofs.Grammar.Places
import Monkey.Proofs.Program.Leaves
import Monkey.Proofs.Token.Order

/-!
# Where the nodes of a program are

Every node of a program is at the position of one of the tokens that the program was read from. In a
program that was read from a source text and is fit to be run, all these positions are known.
-/

set_option autoImplicit false

namespace Monkey

variable {placed : Position → Prop}

theorem Reading.Placed.restarted {reading : Reading} (isPlaced : reading.Placed placed)
    (diagnostic : Diagnostic) : (reading.restarted diagnostic).Placed placed := by
  obtain ⟨skipped, split, notEnd, -⟩ := skipStatement_drops reading.tokens reading.depth
  exact isPlaced.drop split notEnd

namespace Read

theorem round_places {statement : Read Stmt}
    (places : ∀ reading, statement.Places placed (Stmt.Placed placed) reading) (reading : Reading) :
    (round statement).Places placed (fun read => ∀ stmt ∈ read, stmt.Placed placed) reading := by
  intro isPlaced
  unfold round
  cases ran : statement reading with
  | ok stmt rest =>
      obtain ⟨stmtPlaced, stillPlaced⟩ := (places reading).ok isPlaced ran
      exact ⟨List.forall_mem_singleton.mpr stmtPlaced, stillPlaced⟩
  | error failure rest =>
      have stillPlaced := (places reading).error isPlaced ran
      cases failure with
      | fault fault position => exact ⟨List.forall_mem_nil _, stillPlaced.restarted _⟩
      | tooDeep => exact ⟨List.forall_mem_nil _, stillPlaced.restarted _⟩
      | numeral unread => exact stillPlaced

theorem programStatements_places {statement : Read Stmt}
    (places : ∀ reading, statement.Places placed (Stmt.Placed placed) reading) (budget : Nat)
    {done : List Stmt} (donePlaced : ∀ stmt ∈ done, stmt.Placed placed) (reading : Reading) :
    (programStatements statement budget done).Places placed
      (fun list => ∀ stmt ∈ list, stmt.Placed placed) reading := by
  intro isPlaced
  induction budget generalizing done reading with
  | zero => exact ⟨by simpa using donePlaced, isPlaced⟩
  | succ budget ih =>
      by_cases ended : reading.current.kind = .endOfInput
      · rw [programStatements_ended _ _ _ ended]
        exact ⟨by simpa using donePlaced, isPlaced⟩
      · rw [programStatements_succ _ _ _ ended]
        refine Places.bind (round_places places reading) (fun read rest _ readPlaced => ?_) isPlaced
        exact ih (List.forall_mem_append.mpr ⟨readPlaced, donePlaced⟩) rest

end Read

namespace Program

variable {limit : Nat}

theorem ofTokens_places {tokens : List Token} {parsed : Parsed}
    (read : ofTokens tokens limit = .ok parsed) (all : ∀ token ∈ tokens, placed token.position)
    (ended : ∃ token ∈ tokens, token.kind = .endOfInput) :
    parsed.program.tree.Placed placed := by
  have isPlaced : Reading.Placed placed ⟨tokens, 0, []⟩ := ⟨all, ended⟩
  have places := Read.programStatements_places (phrases_places placed limit).statement
    (tokens.length + 1) (List.forall_mem_nil _) ⟨tokens, 0, []⟩
  rw [ofTokens_eq] at read
  cases result : Read.programStatements (phrases limit).statement (tokens.length + 1) []
      ⟨tokens, 0, []⟩ with
  | error failure rest =>
      obtain ⟨unread, rfl, -⟩ := Read.programStatements_error limit _ _ result
      rw [result] at read
      cases read
  | ok statements rest =>
      rw [result] at read
      cases read
      exact (placed_tree _).mpr ⟨isPlaced.current, (places.ok isPlaced result).1⟩

theorem ofSource_known {source : String} {parsed : Parsed}
    (read : ofSource source limit = .ok parsed) (clean : parsed.diagnostics = []) :
    parsed.program.tree.Placed Position.IsKnown := by
  unfold ofSource at read
  split at read
  · cases read
    cases clean
  · next tokens scanned =>
    obtain ⟨leading, position, isEnded, -⟩ := tokenize_spelt scanned
    refine ofTokens_places read (tokenize_known scanned) ⟨.endOfInput position, ?_, rfl⟩
    rw [isEnded]
    exact List.mem_append_right leading (List.mem_singleton.mpr rfl)

end Program

theorem ModuleText.known {content : List UInt8} {limit : Nat} {program : Program}
    (text : ModuleText.ofContent content limit = .program program) :
    program.tree.Placed Position.IsKnown := by
  unfold ModuleText.ofContent at text
  split at text
  · cases text
  split at text
  · cases text
  next read =>
    split at text
    · next clean =>
      cases text
      exact Program.ofSource_known read clean
    · cases text

end Monkey
