import Monkey.Proofs.Grammar.Locality
import Monkey.Proofs.Text.Numeral

/-!
# Faults stay where they are

A program is read statement by statement, and a fault never reaches past the end of its own
top-level statement. So tokens that end in a semicolon outside all braces are read by themselves,
whatever is wrong with them and whatever follows.
-/

set_option autoImplicit false

namespace Monkey

/-- Tokens without the end of the input in which every brace closed has been opened before, and
every brace opened is closed. -/
def Closed (tokens : List Token) : Prop := levelAfter? .statements tokens 0 = some 0

instance (tokens : List Token) : Decidable (Closed tokens) :=
  inferInstanceAs (Decidable (levelAfter? .statements tokens 0 = some 0))

/-! ## Counting braces -/

def openings (tokens : List Token) : Nat :=
  tokens.countP fun token => token.kind = .leftBrace ∨ token.kind = .hashBrace

def closings (tokens : List Token) : Nat :=
  tokens.countP fun token => token.kind = .rightBrace

theorem openings_cons (token : Token) (rest : List Token) :
    openings (token :: rest) = openings [token] + openings rest := by
  rw [openings, List.countP_cons, Nat.add_comm, ← List.countP_singleton]
  rfl

theorem closings_cons (token : Token) (rest : List Token) :
    closings (token :: rest) = closings [token] + closings rest := by
  rw [closings, List.countP_cons, Nat.add_comm, ← List.countP_singleton]
  rfl

theorem Token.levelAfter?_iff (token : Token) (level next : Nat) :
    token.kind.levelAfter? .statements level = some next ↔
      token.kind ≠ .endOfInput ∧ closings [token] ≤ level + openings [token] ∧
        level + openings [token] = next + closings [token] := by
  cases kind : token.kind <;> simp [TokenKind.levelAfter?, openings, closings, kind]
  all_goals omega

theorem levelAfter?_iff (tokens : List Token) (level last : Nat) :
    levelAfter? .statements tokens level = some last ↔
      (∀ token ∈ tokens, token.kind ≠ .endOfInput) ∧
        (∀ leading, leading <+: tokens → closings leading ≤ level + openings leading) ∧
        level + openings tokens = last + closings tokens := by
  induction tokens generalizing level with
  | nil => simp [openings, closings]
  | cons token rest ih =>
      rw [levelAfter?_cons, Option.bind_eq_some_iff, openings_cons, closings_cons]
      constructor
      · rintro ⟨next, step, remaining⟩
        obtain ⟨notEnd, bounded, counted⟩ := (token.levelAfter?_iff level next).mp step
        obtain ⟨noEnd, restBounded, restCounted⟩ := (ih next).mp remaining
        refine ⟨List.forall_mem_cons.mpr ⟨notEnd, noEnd⟩, ?_, by omega⟩
        intro leading isPrefix
        rcases List.prefix_cons_iff.mp isPrefix with rfl | ⟨tail, rfl, tailPrefix⟩
        · exact Nat.zero_le _
        · have tailBounded := restBounded tail tailPrefix
          rw [openings_cons, closings_cons]
          omega
      · rintro ⟨noEnd, bounded, counted⟩
        obtain ⟨notEnd, restNoEnd⟩ := List.forall_mem_cons.mp noEnd
        have here := bounded [token] ⟨rest, rfl⟩
        refine ⟨level + openings [token] - closings [token],
          (token.levelAfter?_iff _ _).mpr ⟨notEnd, here, by omega⟩,
          (ih _).mpr ⟨restNoEnd, ?_, by omega⟩⟩
        intro leading isPrefix
        have whole := bounded (token :: leading) (List.prefix_cons_inj token |>.mpr isPrefix)
        rw [openings_cons, closings_cons] at whole
        omega

/-- Closed tokens hold no end of the input, never close more braces than they have opened, and
close all of them. -/
theorem closed_iff (tokens : List Token) :
    Closed tokens ↔
      (∀ token ∈ tokens, token.kind ≠ .endOfInput) ∧
        (∀ leading, leading <+: tokens → closings leading ≤ openings leading) ∧
        openings tokens = closings tokens := by
  unfold Closed
  simpa using levelAfter?_iff tokens 0 0

/-! ## Tokens that end a statement -/

def EndsInSemicolon (tokens : List Token) : Prop :=
  tokens.getLast?.map Token.kind = some .semicolon

instance (tokens : List Token) : Decidable (EndsInSemicolon tokens) :=
  inferInstanceAs (Decidable (tokens.getLast?.map Token.kind = some .semicolon))

theorem EndsInSemicolon.ne_nil {tokens : List Token} (ends : EndsInSemicolon tokens) :
    tokens ≠ [] := by
  rintro rfl
  cases ends

theorem EndsInSemicolon.of_append (leading : List Token) {trailing : List Token}
    (ends : EndsInSemicolon (leading ++ trailing)) (nonempty : trailing ≠ []) :
    EndsInSemicolon trailing := by
  simpa [EndsInSemicolon, List.getLast?_append, nonempty] using ends

/-- Closed tokens that are none or end in a semicolon, as they are left over after a statement. -/
structure Sealed (tokens : List Token) : Prop where
  closed : Closed tokens
  ends : tokens = [] ∨ EndsInSemicolon tokens

theorem Sealed.of_append (leading : List Token) {trailing : List Token}
    (ends : EndsInSemicolon (leading ++ trailing)) (closed : Closed trailing) :
    Sealed trailing := by
  by_cases finished : trailing = []
  · exact ⟨closed, .inl finished⟩
  · exact ⟨closed, .inr (.of_append leading ends finished)⟩

/-! ## Recovery at top level -/

def Reading.restarted (diagnostic : Diagnostic) (reading : Reading) : Reading :=
  ⟨skipStatement reading.tokens reading.depth, 0, reading.diagnostics ++ [diagnostic]⟩

theorem skipStatement_suffix (tokens : List Token) (depth : Nat) :
    skipStatement tokens depth <:+ tokens := by
  fun_induction skipStatement tokens depth with
  | case1 => exact List.suffix_refl _
  | case2 => exact List.suffix_refl _
  | case3 _ _ _ _ _ _ ih => exact ih.trans (List.suffix_cons _ _)
  | case4 => exact (List.suffix_cons _ _).trans (List.suffix_cons _ _)
  | case5 => exact List.suffix_cons _ _
  | case6 => exact List.nil_suffix
  | case7 => exact List.suffix_cons _ _
  | case8 _ _ _ _ _ _ _ _ ih => exact ih.trans (List.suffix_cons _ _)

/-- Skipping takes at least one token, unless the input is at its end. -/
theorem skipStatement_suffix_tail {token : Token} (rest : List Token) (depth : Nat)
    (notEnd : token.kind ≠ .endOfInput) : skipStatement (token :: rest) depth <:+ rest := by
  simp only [skipStatement, if_neg notEnd]
  split
  · exact skipStatement_suffix rest _
  split
  · cases rest with
    | nil => exact List.suffix_refl _
    | cons next after =>
        dsimp only
        split
        · exact List.suffix_cons next after
        · exact List.suffix_refl _
  split
  · exact List.suffix_refl rest
  · exact skipStatement_suffix rest _

section Skips

variable {token next : Token} {level : Nat}

theorem skipStatement_inside (notEnd : token.kind ≠ .endOfInput)
    (inside : token.kind.depthAfter level > 0) (rest : List Token) :
    skipStatement (token :: rest) level = skipStatement rest (token.kind.depthAfter level) := by
  simp only [skipStatement, if_neg notEnd, if_pos inside]

theorem skipStatement_closing (closing : token.kind = .rightBrace)
    (outside : token.kind.depthAfter level = 0) (following : next.kind ≠ .semicolon)
    (rest : List Token) : skipStatement (token :: next :: rest) level = next :: rest := by
  rw [closing] at outside
  simp [skipStatement, closing, following, outside]

theorem skipStatement_closing_semicolon (closing : token.kind = .rightBrace)
    (outside : token.kind.depthAfter level = 0) (following : next.kind = .semicolon)
    (rest : List Token) : skipStatement (token :: next :: rest) level = rest := by
  rw [closing] at outside
  simp [skipStatement, closing, following, outside]

theorem skipStatement_semicolon (semicolon : token.kind = .semicolon)
    (outside : token.kind.depthAfter level = 0) (rest : List Token) :
    skipStatement (token :: rest) level = rest := by
  rw [semicolon] at outside
  simp [skipStatement, semicolon, outside]

theorem skipStatement_other (notEnd : token.kind ≠ .endOfInput)
    (notClosing : token.kind ≠ .rightBrace) (notSemicolon : token.kind ≠ .semicolon)
    (outside : token.kind.depthAfter level = 0) (rest : List Token) :
    skipStatement (token :: rest) level = skipStatement rest 0 := by
  simp [skipStatement, notEnd, outside, notClosing, notSemicolon]

end Skips

/-- Skipping on from inside a statement stops outside all braces, at the latest after the last
semicolon, and never looks at what follows that. -/
theorem skipStatement_append (tokens : List Token) (level : Nat)
    (closes : levelAfter? .statements tokens level = some 0) (ends : EndsInSemicolon tokens) :
    (∀ after, skipStatement (tokens ++ after) level = skipStatement tokens level ++ after) ∧
      Sealed (skipStatement tokens level) := by
  induction tokens generalizing level with
  | nil => cases ends
  | cons token rest ih =>
      obtain ⟨next, step, remaining⟩ := Option.bind_eq_some_iff.mp closes
      have notEnd : token.kind ≠ .endOfInput := by
        intro atEnd
        simp [atEnd, TokenKind.levelAfter?] at step
      have depth : token.kind.depthAfter level = next := by
        simpa using TokenKind.depthAfter_of_levelAfter? step 0
      by_cases inside : token.kind.depthAfter level > 0
      · have nonempty : rest ≠ [] := by
          rintro rfl
          simp only [levelAfter?_nil, Option.some.injEq] at remaining
          omega
        simp only [List.cons_append, skipStatement_inside notEnd inside]
        rw [depth]
        exact ih next remaining (.of_append [token] ends nonempty)
      have outside : token.kind.depthAfter level = 0 := Nat.eq_zero_of_not_pos inside
      obtain rfl : next = 0 := depth.symm.trans outside
      by_cases closing : token.kind = .rightBrace
      · cases rest with
        | nil => simp [EndsInSemicolon, closing] at ends
        | cons following others =>
            by_cases semicolon : following.kind = .semicolon
            · have skips := skipStatement_closing_semicolon closing outside semicolon
              have closed : Closed others := by
                simpa [Closed, semicolon, TokenKind.levelAfter?] using remaining
              rw [skips]
              exact ⟨fun after => skips (others ++ after),
                .of_append [token, following] ends closed⟩
            · have skips := skipStatement_closing closing outside semicolon
              rw [skips]
              exact ⟨fun after => skips (others ++ after), .of_append [token] ends remaining⟩
      by_cases semicolon : token.kind = .semicolon
      · have skips := skipStatement_semicolon semicolon outside
        rw [skips]
        exact ⟨fun after => skips (rest ++ after), .of_append [token] ends remaining⟩
      · have nonempty : rest ≠ [] := by
          rintro rfl
          simp [EndsInSemicolon, semicolon] at ends
        simp only [List.cons_append, skipStatement_other notEnd closing semicolon outside]
        exact ih 0 remaining (.of_append [token] ends nonempty)

/-! ## Rounds of the program loop -/

namespace Read

/-- What one round of the loop over a program reads: a statement, or nothing where it had to
recover. -/
def round (statement : Read Stmt) : Read (List Stmt) := fun reading =>
  match statement reading with
  | .ok stmt rest => .ok [stmt] rest
  | .error (.fault fault position) rest => .ok [] (rest.restarted ⟨.syntactic fault, position⟩)
  | .error .tooDeep rest =>
      .ok [] (rest.restarted ⟨.syntactic .nestedTooDeeply, rest.current.position⟩)
  | .error (.numeral unread) rest => .error (.numeral unread) rest

theorem programStatements_ended (statement : Read Stmt) (budget : Nat) (done : List Stmt)
    {reading : Reading} (ended : reading.current.kind = .endOfInput) :
    programStatements statement (budget + 1) done reading = .ok done.reverse reading := by
  rw [programStatements, bind_apply]
  simp only [Read.current]
  rw [ite_apply, if_pos ended]
  rfl

theorem programStatements_succ (statement : Read Stmt) (budget : Nat) (done : List Stmt)
    {reading : Reading} (notEnded : reading.current.kind ≠ .endOfInput) :
    programStatements statement (budget + 1) done reading =
      (round statement >>= fun read => programStatements statement budget (read ++ done))
        reading := by
  rw [programStatements, bind_apply, bind_apply]
  simp only [Read.current, round]
  rw [ite_apply, if_neg notEnded, bind_apply, attempt]
  cases statement reading with
  | ok stmt rest => rfl
  | error failure rest => cases failure <;> rfl

theorem restarted_extend_nil (before : List Diagnostic) (diagnostic : Diagnostic)
    (reading : Reading) :
    (reading.extend before []).restarted diagnostic =
      (reading.restarted diagnostic).extend before [] := by
  simp [Reading.restarted, Reading.extend]

/-- What has been recorded before does not matter to a round. -/
theorem round_extend_nil (limit : Nat) (before : List Diagnostic) (reading : Reading) :
    round (phrases limit).statement (reading.extend before []) =
      extendResult before [] (round (phrases limit).statement reading) := by
  have carried := ((phrases_local limit).statement reading).carries before [] (.inr rfl)
  simp only [round, carried]
  cases (phrases limit).statement reading with
  | ok stmt rest => rfl
  | error failure rest =>
      cases failure with
      | numeral unread => rfl
      | fault fault position => simp only [extendResult, restarted_extend_nil]
      | tooDeep =>
          have covers : rest.Covers [] := .inr rfl
          simp only [extendResult, restarted_extend_nil, covers.current]

/-- Recovery takes a token even where the statement failed at its first one. -/
theorem restarted_progress {reading broken : Reading} {failure : ReadFailure}
    (notEnded : reading.current.kind ≠ .endOfInput)
    (failed : reading.Broken .phrase 0 failure broken) (diagnostic : Diagnostic) :
    (broken.restarted diagnostic).tokens <:+ reading.tokens ∧
      (broken.restarted diagnostic).tokens.length < reading.tokens.length := by
  obtain ⟨used, found, level, takes, -⟩ := failed
  have split := takes.tokens
  cases used with
  | cons token tail =>
      have skipped := skipStatement_suffix broken.tokens broken.depth
      constructor
      · rw [split]
        exact skipped.trans (List.suffix_append _ _)
      · rw [split, List.cons_append, List.length_cons, List.length_append]
        exact Nat.lt_succ_of_le (Nat.le_trans skipped.length_le (Nat.le_add_left _ _))
  | nil =>
      rw [List.nil_append] at split
      cases left : broken.tokens with
      | nil => exact absurd (by simp [Reading.current, split, left, Token.endOfInput]) notEnded
      | cons token tail =>
          have isNext : reading.current = token := by simp [Reading.current, split, left]
          have skipped := skipStatement_suffix_tail tail broken.depth (isNext ▸ notEnded)
          rw [split, left, Reading.restarted, left]
          exact ⟨skipped.trans (List.suffix_cons _ _), Nat.lt_succ_of_le skipped.length_le⟩

theorem round_progress (limit : Nat) {reading rest : Reading} {read : List Stmt}
    (notEnded : reading.current.kind ≠ .endOfInput)
    (result : round (phrases limit).statement reading = .ok read rest) :
    rest.tokens <:+ reading.tokens ∧ rest.tokens.length < reading.tokens.length := by
  have spans := (phrases_span limit).statement true reading
  simp only [round] at result
  cases ran : (phrases limit).statement reading with
  | ok stmt after =>
      rw [ran] at result
      cases result
      obtain ⟨used, found, takes, -⟩ := spans.ok ran
      exact ⟨⟨used, takes.tokens.symm⟩, (spans.ok ran).length_lt⟩
  | error failure after =>
      have broken := spans.error ran
      rw [ran] at result
      cases failure with
      | numeral unread => cases result
      | fault fault position =>
          cases result
          exact restarted_progress notEnded broken _
      | tooDeep =>
          cases result
          exact restarted_progress notEnded broken _

theorem round_depth (limit : Nat) {reading rest : Reading} {read : List Stmt}
    (atTop : reading.depth = 0)
    (result : round (phrases limit).statement reading = .ok read rest) : rest.depth = 0 := by
  simp only [round] at result
  cases ran : (phrases limit).statement reading with
  | ok stmt after =>
      rw [ran] at result
      cases result
      exact (((phrases_span limit).statement false reading).ok ran).depth_eq.trans atTop
  | error failure after =>
      rw [ran] at result
      cases failure <;> cases result <;> rfl

theorem round_error (limit : Nat) {reading rest : Reading} {failure : ReadFailure}
    (result : round (phrases limit).statement reading = .error failure rest) :
    ∃ unread, failure = .numeral unread ∧
      ∃ token ∈ reading.tokens, token.kind = .integer ∧
        Text.readInteger token.text = .error unread := by
  simp only [round] at result
  cases ran : (phrases limit).statement reading with
  | ok stmt after =>
      rw [ran] at result
      cases result
  | error failure after =>
      obtain ⟨used, found, level, takes, arises, -⟩ :=
        ((phrases_span limit).statement true reading).error ran
      rw [ran] at result
      cases failure with
      | fault fault position => cases result
      | tooDeep => cases result
      | numeral unread =>
          cases result
          obtain ⟨token, member, numeral⟩ := arises
          exact ⟨unread, rfl, token, takes.tokens ▸ List.mem_append_left _ member, numeral⟩

/-- A statement that fails in tokens that end in a semicolon outside all braces has not taken that
semicolon, so the recovery is the same whatever follows them, and leaves such tokens or none. -/
theorem restarted_isolated (limit : Nat) {tokens : List Token} {found : List Diagnostic}
    {failure : ReadFailure} {rest : Reading} (closed : Closed tokens)
    (ends : EndsInSemicolon tokens)
    (failed : (phrases limit).statement ⟨tokens, 0, found⟩ = .error failure rest) :
    rest.tokens ≠ [] ∧
      (∀ before after diagnostic, (rest.extend before after).restarted diagnostic =
        (rest.restarted diagnostic).extend before after) ∧
      ∀ diagnostic, Sealed (rest.restarted diagnostic).tokens := by
  have spans := (phrases_span limit).statement false ⟨tokens, 0, found⟩
  obtain ⟨used, new, level, takes, -⟩ := spans.error failed
  obtain rfl : tokens = used ++ rest.tokens := takes.tokens
  have depth : rest.depth = level := by simpa using takes.depth 0 rfl
  have remaining : levelAfter? .statements rest.tokens level = some 0 := by
    unfold Closed at closed
    rwa [levelAfter?_append, levelAfter?_statements takes.level] at closed
  have unfinished : rest.tokens ≠ [] := by
    intro finished
    rw [finished] at remaining
    cases remaining
    rw [finished, List.append_nil] at ends
    exact getLast?_ne_semicolon takes.level ends
  obtain ⟨skips, leaves⟩ :=
    skipStatement_append rest.tokens level remaining (.of_append used ends unfinished)
  refine ⟨unfinished, ?_, ?_⟩
  · intro before after diagnostic
    simp [Reading.restarted, Reading.extend, depth, skips]
  · intro diagnostic
    rw [← depth] at leaves
    exact leaves

/-- On tokens that end in a semicolon outside all braces, a round is the same whatever follows
them. -/
theorem round_append (limit : Nat) {tokens : List Token} (found : List Diagnostic)
    (closed : Closed tokens) (ends : EndsInSemicolon tokens) (before : List Diagnostic)
    (after : List Token) :
    round (phrases limit).statement (Reading.extend before after ⟨tokens, 0, found⟩) =
      extendResult before after (round (phrases limit).statement ⟨tokens, 0, found⟩) := by
  have isLocal := phrases_statement_local limit ⟨tokens, 0, found⟩
  have isCarried : (phrases limit).statement.Carries ⟨tokens, 0, found⟩
      ((phrases limit).statement ⟨tokens, 0, found⟩) := isLocal.isLocal
  simp only [round]
  cases ran : (phrases limit).statement ⟨tokens, 0, found⟩ with
  | ok stmt rest =>
      rw [isLocal.ends ran ends before after]
      rfl
  | error failure rest =>
      obtain ⟨unfinished, restarts, -⟩ := restarted_isolated limit closed ends ran
      have covers : rest.Covers after := .inl unfinished
      rw [ran] at isCarried
      rw [isCarried.carries before after covers]
      cases failure with
      | numeral unread => rfl
      | fault fault position => simp only [extendResult, restarts]
      | tooDeep => simp only [extendResult, restarts, covers.current]

theorem round_sealed (limit : Nat) {tokens : List Token} {found : List Diagnostic}
    {read : List Stmt} {rest : Reading} (closed : Closed tokens) (ends : EndsInSemicolon tokens)
    (result : round (phrases limit).statement ⟨tokens, 0, found⟩ = .ok read rest) :
    Sealed rest.tokens := by
  have spans := (phrases_span limit).statement false ⟨tokens, 0, found⟩
  simp only [round] at result
  cases ran : (phrases limit).statement ⟨tokens, 0, found⟩ with
  | ok stmt after =>
      rw [ran] at result
      cases result
      obtain ⟨used, new, takes, -⟩ := spans.ok ran
      obtain rfl : tokens = used ++ rest.tokens := takes.tokens
      unfold Closed at closed
      rw [levelAfter?_append, takes.level] at closed
      exact .of_append used ends closed
  | error failure after =>
      obtain ⟨-, -, leaves⟩ := restarted_isolated limit closed ends ran
      rw [ran] at result
      cases failure with
      | numeral unread => cases result
      | fault fault position =>
          cases result
          exact leaves _
      | tooDeep =>
          cases result
          exact leaves _

/-! ## The program loop -/

def preceded (earlier : List Stmt) (before : List Diagnostic) :
    EStateM.Result ReadFailure Reading (List Stmt) → EStateM.Result ReadFailure Reading (List Stmt)
  | .ok statements rest => .ok (earlier ++ statements) (rest.extend before [])
  | .error failure rest => .error failure (rest.extend before [])

/-- The loop over a program needs no more rounds than there are tokens, and does not depend on what
was read and recorded before. -/
theorem programStatements_preceded (limit : Nat) (earlier : List Stmt) (before : List Diagnostic)
    (budget more : Nat) (done : List Stmt) (reading : Reading)
    (enough : reading.tokens.length < budget) (alsoEnough : reading.tokens.length < more) :
    programStatements (phrases limit).statement more (done ++ earlier.reverse)
        (reading.extend before []) =
      preceded earlier before
        (programStatements (phrases limit).statement budget done reading) := by
  induction budget generalizing more done reading with
  | zero => omega
  | succ budget ih =>
      obtain ⟨fewer, rfl⟩ : ∃ fewer, more = fewer + 1 := ⟨more - 1, by omega⟩
      have covers : reading.Covers [] := .inr rfl
      by_cases ended : reading.current.kind = .endOfInput
      · rw [programStatements_ended _ _ _ ended,
          programStatements_ended _ _ _ (by rwa [covers.current])]
        simp [preceded]
      · rw [programStatements_succ _ _ _ ended,
          programStatements_succ _ _ _ (by rwa [covers.current]), bind_apply, bind_apply,
          round_extend_nil]
        cases result : round (phrases limit).statement reading with
        | error failure rest => rfl
        | ok read rest =>
            have shorter := (round_progress limit ended result).2
            simp only [extendResult, ← List.append_assoc]
            exact ih fewer (read ++ done) rest (by omega) (by omega)

theorem programStatements_budget (limit budget more : Nat) (done : List Stmt) (reading : Reading)
    (enough : reading.tokens.length < budget) (alsoEnough : reading.tokens.length < more) :
    programStatements (phrases limit).statement more done reading =
      programStatements (phrases limit).statement budget done reading := by
  have same := programStatements_preceded limit [] [] budget more done reading enough alsoEnough
  have nothing : reading.extend [] [] = reading := by simp [Reading.extend]
  rw [nothing, List.reverse_nil, List.append_nil] at same
  rw [same]
  cases programStatements (phrases limit).statement budget done reading <;>
    simp [preceded, Reading.extend]

/-- The loop over tokens that end in a semicolon outside all braces comes to the same whatever
follows them, and then goes on with what follows. -/
theorem programStatements_isolated (limit : Nat) (before : List Diagnostic) (after : List Token)
    (budget more : Nat) (done : List Stmt) (tokens : List Token) (found : List Diagnostic)
    (enough : tokens.length < budget) (alsoEnough : tokens.length + after.length < more)
    (isSealed : Sealed tokens) :
    programStatements (phrases limit).statement more done
        (Reading.extend before after ⟨tokens, 0, found⟩) =
      match programStatements (phrases limit).statement budget done ⟨tokens, 0, found⟩ with
      | .ok statements rest =>
          programStatements (phrases limit).statement (after.length + 1) statements.reverse
            ⟨after, 0, before ++ rest.diagnostics⟩
      | .error failure rest => .error failure (rest.extend before after) := by
  -- Every round leaves sealed tokens, so that the next one is isolated again.
  induction budget generalizing more done tokens found with
  | zero => omega
  | succ budget ih =>
      obtain ⟨closed, rfl | ends⟩ := isSealed
      · rw [programStatements_ended _ _ _ rfl]
        simp only [List.reverse_reverse]
        exact programStatements_budget limit _ _ done _ (Nat.lt_succ_self _)
          (by simpa [Reading.extend] using alsoEnough)
      · have covers : Reading.Covers after ⟨tokens, 0, found⟩ := .inl ends.ne_nil
        have notEnded : (Reading.mk tokens 0 found).current.kind ≠ .endOfInput := by
          intro atEnd
          cases tokens with
          | nil => exact ends.ne_nil rfl
          | cons token rest =>
              have isEnd : token.kind = .endOfInput := atEnd
              simp [Closed, isEnd, TokenKind.levelAfter?] at closed
        obtain ⟨fewer, rfl⟩ : ∃ fewer, more = fewer + 1 := ⟨more - 1, by omega⟩
        rw [programStatements_succ _ _ _ notEnded,
          programStatements_succ _ _ _ (by rwa [covers.current]), bind_apply, bind_apply,
          round_append limit found closed ends]
        cases result : round (phrases limit).statement ⟨tokens, 0, found⟩ with
        | error failure rest => rfl
        | ok read rest =>
            have atTop := round_depth limit rfl result
            have left := round_sealed limit closed ends result
            have shorter := (round_progress limit notEnded result).2
            obtain ⟨restTokens, depth, diagnostics⟩ := rest
            obtain rfl : depth = 0 := atTop
            have restEnough : restTokens.length < budget :=
              Nat.lt_of_lt_of_le shorter (Nat.le_of_lt_succ enough)
            have restAlsoEnough : restTokens.length + after.length < fewer := by
              dsimp only at shorter
              omega
            exact ih fewer (read ++ done) restTokens diagnostics restEnough restAlsoEnough left

theorem programStatements_error (limit budget : Nat) (done : List Stmt) {reading rest : Reading}
    {failure : ReadFailure}
    (result : programStatements (phrases limit).statement budget done reading =
      .error failure rest) :
    ∃ unread, failure = .numeral unread ∧
      ∃ token ∈ reading.tokens, token.kind = .integer ∧
        Text.readInteger token.text = .error unread := by
  induction budget generalizing done reading with
  | zero => cases result
  | succ budget ih =>
      by_cases ended : reading.current.kind = .endOfInput
      · rw [programStatements_ended _ _ _ ended] at result
        cases result
      · rw [programStatements_succ _ _ _ ended, bind_apply] at result
        cases ran : round (phrases limit).statement reading with
        | error failed after =>
            rw [ran] at result
            cases result
            exact round_error limit ran
        | ok read after =>
            rw [ran] at result
            obtain ⟨unread, same, token, member, numeral⟩ := ih (read ++ done) result
            exact ⟨unread, same, token, (round_progress limit ended ran).1.subset member, numeral⟩

end Read

/-! ## Whole programs -/

/-- One program after another, with what is wrong with each. -/
def Parsed.append (first second : Parsed) : Parsed :=
  ⟨⟨first.program.position, first.program.statements ++ second.program.statements⟩,
    first.diagnostics ++ second.diagnostics⟩

theorem Parsed.of_map_append {first parsed : Parsed} {read : Except Text.NumeralFault Parsed}
    (result : read.map first.append = .ok parsed) :
    ∃ second, read = .ok second ∧ parsed = first.append second := by
  cases read with
  | error unread => cases result
  | ok second =>
      cases result
      exact ⟨second, rfl, rfl⟩

namespace Program

variable {limit : Nat}

def outcome (position : Position) :
    EStateM.Result ReadFailure Reading (List Stmt) → Except Text.NumeralFault Parsed
  | .ok statements rest => .ok ⟨⟨position, statements⟩, rest.diagnostics⟩
  | .error (.numeral unread) _ => .error unread
  | .error _ rest => .ok ⟨⟨.unknown, []⟩, rest.diagnostics⟩

theorem ofTokens_eq (tokens : List Token) :
    ofTokens tokens limit = outcome (Reading.mk tokens 0 []).current.position
      (Read.programStatements (phrases limit).statement (tokens.length + 1) []
        ⟨tokens, 0, []⟩) := by
  unfold ofTokens Read.program
  simp only [Read.bind_apply, Read.current, Read.remaining]
  cases Read.programStatements (phrases limit).statement (tokens.length + 1) []
    ⟨tokens, 0, []⟩ with
  | ok statements rest => rfl
  | error failure rest => cases failure <;> rfl

theorem ofTokens_ok (limit : Nat) (tokens : List Token)
    (readable : ∀ token ∈ tokens, token.IsReadable) :
    ∃ parsed, ofTokens tokens limit = .ok parsed := by
  rw [ofTokens_eq]
  cases result : Read.programStatements (phrases limit).statement (tokens.length + 1) []
      ⟨tokens, 0, []⟩ with
  | ok statements rest => exact ⟨_, rfl⟩
  | error failure rest =>
      obtain ⟨unread, -, token, member, isInteger, unreadable⟩ :=
        Read.programStatements_error limit _ _ result
      obtain ⟨value, read⟩ := readable token member isInteger
      rw [read] at unreadable
      cases unreadable

theorem ofTokens_preceded (limit : Nat) (tokens : List Token) (first : Parsed) :
    outcome first.program.position
      (Read.programStatements (phrases limit).statement (tokens.length + 1)
        first.program.statements.reverse ⟨tokens, 0, first.diagnostics⟩) =
      (ofTokens tokens limit).map first.append := by
  have after := Read.programStatements_preceded limit first.program.statements
    first.diagnostics (tokens.length + 1) (tokens.length + 1) [] ⟨tokens, 0, []⟩
    (Nat.lt_succ_self _) (Nat.lt_succ_self _)
  have same : Reading.extend first.diagnostics [] ⟨tokens, 0, []⟩ =
      ⟨tokens, 0, first.diagnostics⟩ := by simp [Reading.extend]
  rw [same, List.nil_append] at after
  rw [after, ofTokens_eq]
  cases result : Read.programStatements (phrases limit).statement (tokens.length + 1) []
      ⟨tokens, 0, []⟩ with
  | ok statements rest => rfl
  | error failure rest =>
      obtain ⟨unread, rfl, -⟩ := Read.programStatements_error limit _ _ result
      rfl

theorem ofTokens_round {tokens : List Token}
    (notEnded : (Reading.mk tokens 0 []).current.kind ≠ .endOfInput) :
    ofTokens tokens limit =
      match Read.round (phrases limit).statement ⟨tokens, 0, []⟩ with
      | .ok read rest =>
          (ofTokens rest.tokens limit).map (Parsed.append
            ⟨⟨(Reading.mk tokens 0 []).current.position, read.reverse⟩, rest.diagnostics⟩)
      | .error (.numeral unread) _ => .error unread
      | .error _ rest => .ok ⟨⟨.unknown, []⟩, rest.diagnostics⟩ := by
  rw [ofTokens_eq, Read.programStatements_succ _ _ _ notEnded, Read.bind_apply]
  cases ran : Read.round (phrases limit).statement ⟨tokens, 0, []⟩ with
  | error failure rest =>
      obtain ⟨unread, rfl, -⟩ := Read.round_error limit ran
      rfl
  | ok read rest =>
      have shorter := (Read.round_progress limit notEnded ran).2
      have atTop := Read.round_depth limit rfl ran
      obtain ⟨restTokens, depth, diagnostics⟩ := rest
      obtain rfl : depth = 0 := atTop
      have after := ofTokens_preceded limit restTokens
        ⟨⟨(Reading.mk tokens 0 []).current.position, read.reverse⟩, diagnostics⟩
      simp only [List.reverse_reverse] at after
      simp only [List.append_nil]
      rw [← after, Read.programStatements_budget limit (restTokens.length + 1) _ _ _
        (Nat.lt_succ_self _) shorter]

/-- The program is read without getting to the limit of nesting. -/
def Shallow (tokens : List Token) (limit : Nat := nestingLimit) : Prop :=
  ∀ parsed, ofTokens tokens limit = .ok parsed →
    ∀ diagnostic ∈ parsed.diagnostics, diagnostic.fault ≠ .syntactic .nestedTooDeeply

theorem ofTokens_tooDeep {tokens : List Token} {rest : Reading}
    (readable : ∀ token ∈ tokens, token.IsReadable)
    (notEnded : (Reading.mk tokens 0 []).current.kind ≠ .endOfInput)
    (failed : (phrases limit).statement ⟨tokens, 0, []⟩ = .error .tooDeep rest) :
    ¬ Shallow tokens limit := by
  intro shallow
  obtain ⟨parsed, result⟩ := ofTokens_ok limit tokens readable
  have first := result
  rw [ofTokens_round notEnded] at first
  simp only [Read.round, failed, Reading.restarted] at first
  cases later : ofTokens (skipStatement rest.tokens rest.depth) limit with
  | error unread =>
      rw [later] at first
      cases first
  | ok second =>
      rw [later] at first
      cases first
      refine shallow _ result ⟨.syntactic .nestedTooDeeply, rest.current.position⟩ ?_ rfl
      simp [Parsed.append]

theorem ofTokens_isolated {tokens : List Token} (closed : Closed tokens)
    (ends : EndsInSemicolon tokens) (following : List Token) :
    ofTokens (tokens ++ following) limit =
      (ofTokens tokens limit).bind fun first => (ofTokens following limit).map first.append := by
  have isolated := Read.programStatements_isolated limit [] following (tokens.length + 1)
    ((tokens ++ following).length + 1) [] tokens [] (Nat.lt_succ_self _) (by simp)
    ⟨closed, .inr ends⟩
  have covers : Reading.Covers following ⟨tokens, 0, []⟩ := .inl ends.ne_nil
  have same : Reading.extend [] following ⟨tokens, 0, []⟩ = ⟨tokens ++ following, 0, []⟩ := rfl
  have start : (Reading.mk (tokens ++ following) 0 []).current =
      (Reading.mk tokens 0 []).current := by
    rw [← same]
    exact covers.current
  rw [same] at isolated
  rw [ofTokens_eq (tokens ++ following), ofTokens_eq tokens, start, isolated]
  cases result : Read.programStatements (phrases limit).statement (tokens.length + 1) []
      ⟨tokens, 0, []⟩ with
  | ok statements rest =>
      exact ofTokens_preceded limit following
        ⟨⟨(Reading.mk tokens 0 []).current.position, statements⟩, rest.diagnostics⟩
  | error failure rest =>
      obtain ⟨unread, rfl, -⟩ := Read.programStatements_error limit _ _ result
      rfl

theorem ofTokens_ended {ending : Token} (atEnd : ending.kind = .endOfInput) (rest : List Token) :
    ofTokens (ending :: rest) limit = .ok ⟨⟨ending.position, []⟩, []⟩ := by
  have ended : (Reading.mk (ending :: rest) 0 []).current.kind = .endOfInput := atEnd
  rw [ofTokens_eq, Read.programStatements_ended _ _ _ ended]
  rfl

/-- Statement isolation: however broken the leading tokens are, what follows their last top-level
semicolon is read as it is alone, statements and diagnostics following each other. -/
theorem ofTokens_append (limit : Nat) {leading : List Token} (closed : Closed leading)
    (ends : EndsInSemicolon leading) {ending : Token} (atEnd : ending.kind = .endOfInput)
    (following : List Token) :
    (ofTokens (leading ++ following) limit = do
      let first ← ofTokens (leading ++ [ending]) limit
      let second ← ofTokens following limit
      pure (first.append second)) ∧
    ((∀ token ∈ leading ++ following, token.IsReadable) →
      ∃ parsed, ofTokens (leading ++ following) limit = .ok parsed) := by
  refine ⟨?_, ofTokens_ok limit _⟩
  have alone : ofTokens (leading ++ [ending]) limit = ofTokens leading limit := by
    rw [ofTokens_isolated closed ends, ofTokens_ended atEnd]
    cases ofTokens leading limit with
    | error unread => rfl
    | ok first => simp [Except.bind, Except.map, Parsed.append]
  rw [alone, ofTokens_isolated closed ends]
  cases ofTokens leading limit with
  | error unread => rfl
  | ok first => cases ofTokens following limit <;> rfl

/-- Two faults, the first of them skipped up to the end of a block, before a statement. -/
theorem ofTokens_append_broken :
    let leading : List Token :=
      [⟨.rightParen, ")", ⟨1, 1⟩⟩, ⟨.leftBrace, "\x7b", ⟨1, 3⟩⟩, ⟨.star, "*", ⟨1, 5⟩⟩,
        ⟨.rightBrace, "\x7d", ⟨1, 7⟩⟩, ⟨.star, "*", ⟨1, 9⟩⟩, ⟨.semicolon, ";", ⟨1, 10⟩⟩]
    let following : List Token := [⟨.kwNil, "nil", ⟨1, 12⟩⟩]
    Closed leading ∧ EndsInSemicolon leading ∧
      (∀ token ∈ leading ++ following, token.IsReadable) ∧
      (ofTokens (leading ++ following) = do
        let first ← ofTokens (leading ++ [.endOfInput ⟨1, 11⟩])
        let second ← ofTokens following
        pure (first.append second)) ∧
      ∃ parsed, ofTokens (leading ++ following) = .ok parsed := by
  intro leading following
  have closed : Closed leading := by decide
  have ends : EndsInSemicolon leading := by decide
  have readable : ∀ token ∈ leading ++ following, token.IsReadable := by
    simp [leading, following, Token.IsReadable]
  have atEnd : (Token.endOfInput ⟨1, 11⟩).kind = .endOfInput := rfl
  have isolated := ofTokens_append nestingLimit closed ends atEnd following
  exact ⟨closed, ends, readable, isolated.1, isolated.2 readable⟩

end Program

end Monkey
