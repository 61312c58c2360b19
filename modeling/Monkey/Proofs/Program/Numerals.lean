import Monkey.Proofs.Program.Meeting
import Monkey.Proofs.Program.Placement
import Monkey.Proofs.Program.Progress
import Monkey.Proofs.Token.Division
import Monkey.Proofs.Token.Spelling

/-!
# Integers too large

An integer that is out of range, where an expression is asked for, is a fault in its statement like
any other, and reading goes on after it. But an integer with more digits than are read as a number
at all ends the reading of the whole text, and nothing else does.
-/

set_option autoImplicit false

namespace Monkey

/-- The number that the digits of an integer denote, however many there are. -/
def Token.magnitude (token : Token) : Int :=
  Text.ofDecimalDigits (token.text.toList.map Text.digitValue)

theorem Token.IsSpelt.readInteger {token : Token} (isSpelt : token.IsSpelt)
    (isInteger : token.kind = .integer) :
    Text.readInteger token.text =
      if Text.digitLimit < token.text.length then .error (.overlong token.text.length)
      else .ok token.magnitude := by
  obtain ⟨nonempty, digits⟩ := isSpelt isInteger
  exact Text.readInteger_digits nonempty digits

/-- An integer that is bounded has no more digits than are read, and is in range. -/
theorem Token.IsBounded.magnitude_le {token : Token} (bounded : token.IsBounded)
    (isSpelt : token.IsSpelt) (isInteger : token.kind = .integer) :
    token.text.length ≤ Text.digitLimit ∧ token.magnitude ≤ Integer.largest := by
  obtain ⟨value, read, inRange⟩ := bounded isInteger
  rw [isSpelt.readInteger isInteger] at read
  split at read
  · cases read
  next short =>
    cases read
    exact ⟨Nat.not_lt.mp short, inRange⟩

theorem Token.IsSpelt.unbounded {token : Token} (isSpelt : token.IsSpelt)
    (isInteger : token.kind = .integer)
    (outside : Text.digitLimit < token.text.length ∨ Integer.largest < token.magnitude) :
    ¬ token.IsBounded := by
  intro bounded
  obtain ⟨short, inRange⟩ := bounded.magnitude_le isSpelt isInteger
  exact outside.elim (Nat.not_lt.mpr short) (Int.not_lt.mpr inRange)

/-! ## Integers in expressions -/

/-- How reading fails at an integer out of range. -/
def Token.overflow (literal : Token) : ReadFailure :=
  .fault (.integerOutOfRange literal.text) literal.position

namespace Read

section Integers

variable {reading : Reading} (isSpelt : reading.current.IsSpelt)
  (isInteger : reading.current.kind = .integer)
include isSpelt isInteger

theorem integer_overlong (long : Text.digitLimit < reading.current.text.length) :
    integer reading =
      .error (.numeral (.overlong reading.current.text.length)) reading.advance := by
  rw [integer_apply, isSpelt.readInteger isInteger, if_pos long]

theorem integer_outOfRange (short : reading.current.text.length ≤ Text.digitLimit)
    (tooLarge : Integer.largest < reading.current.magnitude) :
    integer reading = .error reading.current.overflow reading.advance := by
  rw [integer_apply, isSpelt.readInteger isInteger, if_neg (Nat.not_lt.mpr short)]
  exact if_pos tooLarge

end Integers

/-- An expression that begins with an integer fails where the integer does. -/
theorem expr_integer_error (limit power : Nat) {reading rest : Reading} {failure : ReadFailure}
    (isInteger : reading.current.kind = .integer)
    (failed : integer reading = .error failure rest) :
    (phrases (limit + 1)).expr power reading = .error failure rest := by
  show expr (phrases limit) power reading = _
  rw [expr, bind_apply, operand_integer _ isInteger, failed]

theorem statement_integer_error (limit : Nat) {reading rest : Reading} {failure : ReadFailure}
    (isInteger : reading.current.kind = .integer)
    (failed : integer reading = .error failure rest) :
    (phrases (limit + 2)).statement reading = .error failure rest := by
  show statement (phrases (limit + 1)) reading = _
  unfold statement exprStmt
  simp only [bind_apply, Read.current, isInteger, expr_integer_error limit 0 isInteger failed]

end Read

/-! ## Going on after an integer out of range -/

namespace Program

/-- How the reading of tokens deals with an integer among them that is out of range. -/
structure Tolerates (limit : Nat) (before : List Token) (literal : Token) (after : List Token) :
    Prop where
  /-- It is taken and blamed where an expression is asked for. -/
  blamed : ∀ inner power depth found,
    (phrases (inner + 1)).expr power ⟨literal :: after, depth, found⟩ =
      .error literal.overflow ⟨after, depth, found⟩
  /-- Wherever a phrase is read, it is the fault of the phrase or is reported within it, or its text
  does not matter to what is read. -/
  noticed : ∀ inner, (phrases inner).Notices literal
  /-- It is reported if it is met. -/
  reported : Meets limit before literal after → ∀ parsed,
    ofTokens (before ++ literal :: after) limit = .ok parsed →
    literal.outOfRange ∈ parsed.diagnostics
  /-- If it is the fault of a statement at the top, what follows the statement is read as it is
  alone. -/
  outside : ∀ done place broken,
    (Read.programLoop (phrases limit).statement).Starts [] ⟨before ++ literal :: after, 0, []⟩ done
      place →
    (phrases limit).statement place = .error literal.overflow broken →
    ofTokens (before ++ literal :: after) limit =
      (ofTokens (skipStatement broken.tokens broken.depth) limit).map (Parsed.append
        ⟨⟨((before ++ literal :: after).headD literal).position, done.reverse⟩,
          broken.diagnostics ++ [literal.outOfRange]⟩)
  /-- If it is the fault of a statement of a block, it is reported and the block goes on at its own
  level with what follows the statement, or it is the fault of the block if the input ends before
  that. -/
  inside : ∀ inner done place broken, place.current.kind ≠ .rightBrace →
    place.current.kind ≠ .endOfInput →
    (phrases inner).statement place = .error literal.overflow broken →
    let round := (Read.blockLoop (phrases inner).statement place.depth).round done place
    let next := broken.resumed place.depth
    (next.current.kind = .endOfInput → round = .error literal.overflow next) ∧
    (next.current.kind ≠ .endOfInput → round = .ok done (next.record literal.outOfRange) ∧
      place.Advances next ∧ next.depth = place.depth)
  /-- However deep it is nested, the statements after the top-level one that holds it are read as
  they are alone. -/
  isolated : ∀ closing following, after = closing ++ following →
    Closed (before ++ literal :: closing) → EndsInSemicolon (before ++ literal :: closing) →
    ofTokens (before ++ literal :: after) limit =
      (ofTokens (before ++ literal :: closing) limit).bind fun first =>
        (ofTokens following limit).map first.append

theorem tolerates_outOfRange (limit : Nat) (before : List Token) {literal : Token}
    (after : List Token) (isSpelt : literal.IsSpelt) (isInteger : literal.kind = .integer)
    (short : literal.text.length ≤ Text.digitLimit)
    (tooLarge : Integer.largest < literal.magnitude) : Tolerates limit before literal after := by
  have unbounded := isSpelt.unbounded isInteger (.inr tooLarge)
  constructor
  case blamed =>
    intro inner power depth found
    have sameDepth : literal.kind.depthAfter depth = depth := by rw [isInteger]; rfl
    have failed : Read.integer ⟨literal :: after, depth, found⟩ = .error literal.overflow
        ⟨after, literal.kind.depthAfter depth, found⟩ :=
      Read.integer_outOfRange isSpelt isInteger short tooLarge
    rw [sameDepth] at failed
    exact Read.expr_integer_error inner power isInteger failed
  case noticed => exact phrases_notices unbounded
  case reported => exact fun meets parsed read => reported_of_meets unbounded meets read
  case outside =>
    intro done place broken starts failed
    have start : (Reading.mk (before ++ literal :: after) 0 []).current =
        (before ++ literal :: after).headD literal := by
      cases before <;> rfl
    rw [← start]
    exact ofTokens_recovers starts failed
  case inside =>
    intro inner done place broken notClosing notEnded failed
    exact Read.blockRound_recovers inner done notClosing notEnded failed
  case isolated =>
    intro closing following isAfter closed ends
    have split : before ++ literal :: after = (before ++ literal :: closing) ++ following := by
      rw [isAfter, List.append_assoc, List.cons_append]
    rw [split]
    exact ofTokens_isolated closed ends following

end Program

/-! ## Integers at the start of a program -/

namespace Program

theorem ofTokens_overlong (limit : Nat) {literal : Token} (isSpelt : literal.IsSpelt)
    (isInteger : literal.kind = .integer) (long : Text.digitLimit < literal.text.length)
    (following : List Token) :
    ofTokens (literal :: following) (limit + 2) = .error (.overlong literal.text.length) := by
  have failed : (phrases (limit + 2)).statement ⟨literal :: following, 0, []⟩ =
      .error (.numeral (.overlong literal.text.length)) _ :=
    Read.statement_integer_error limit isInteger
      (Read.integer_overlong isSpelt isInteger long)
  have notEnded : (Reading.mk (literal :: following) 0 []).current.kind ≠ .endOfInput :=
    ne_of_eq_of_ne isInteger nofun
  rw [ofTokens_round notEnded]
  simp only [Read.round, failed]

/-! ## Whole texts -/

/-- A text that begins with more digits than are read gives no program. -/
theorem ofSource_overlong (limit : Nat) {source : String} {digits : List Char}
    {following : List Token} (areDigits : ∀ c ∈ digits, c.isDigit = true) (long : Text.digitLimit < digits.length)
    (spells : Spells source.toList (⟨.integer, String.ofList digits, .unknown⟩ :: following)) :
    ofSource source (limit + 2) = .error (.overlong digits.length) := by
  obtain ⟨placed, position, scanned, places⟩ := tokenize_spells spells
  cases placed with
  | nil => cases places
  | cons literal rest =>
      obtain ⟨kind, text, place⟩ := literal
      obtain ⟨same, -⟩ := List.cons.inj places
      obtain rfl : kind = .integer := congrArg Token.kind same
      obtain rfl : text = String.ofList digits := congrArg Token.text same
      have nonempty : digits ≠ [] := List.length_pos_iff.mp (Nat.zero_lt_of_lt long)
      have isSpelt : Token.IsSpelt ⟨.integer, String.ofList digits, place⟩ :=
        fun _ => ⟨by simpa using nonempty, by simpa using areDigits⟩
      have failed := ofTokens_overlong limit isSpelt rfl (by simpa using long)
        (rest ++ [.endOfInput position])
      unfold ofSource
      rw [scanned]
      simpa using failed

theorem ofSource_overlong_nil (limit : Nat) {digits : List Char}
    (areDigits : ∀ c ∈ digits, c.isDigit = true)
    (long : Text.digitLimit < digits.length) :
    ofSource (String.ofList (digits ++ [';', ' '] ++ "nil".toList)) (limit + 2) =
      .error (.overlong digits.length) := by
  have nonempty : digits ≠ [] := List.length_pos_iff.mp (Nat.zero_lt_of_lt long)
  have punctuation : Finishes [';', ' '] [TokenKind.semicolon.mark] :=
    Finishes.append (.char rfl rfl) .space
  have spells := ((Spells.integer nonempty areDigits).append ⟨rfl, by decide, rfl⟩
    punctuation).append_spells .kwNil
  exact ofSource_overlong limit areDigits long (by simpa using spells)

/-- A text that cannot be divided into tokens gives one diagnostic. Any other text gives a program,
unless an integer in it has more digits than are read at all; the integers of the program are in
range, and so are all integers of the text if nothing is wrong with it. An integer that is not met
where an expression is asked for is passed over. If it is met, one with too many digits ends the
reading, and any other one out of range is reported, and reading goes on after it. -/
theorem ofSource_integers (limit : Nat) (source : String) :
    (∀ fault position, tokenize source = .error (fault, position) →
      ofSource source limit = .ok ⟨⟨.unknown, []⟩, [⟨.lexical fault, position⟩]⟩) ∧
    ∀ tokens, tokenize source = .ok tokens →
      ofSource source limit = ofTokens tokens limit ∧
      (∀ unread, ofSource source limit = .error unread → ∃ token ∈ tokens, token.kind = .integer ∧
        Text.digitLimit < token.text.length ∧ unread = .overlong token.text.length) ∧
      (∀ parsed, ofSource source limit = .ok parsed →
        (∀ token ∈ parsed.program.tree.leaves, token.kind = .integer →
          token.magnitude ≤ Integer.largest) ∧
        (parsed.diagnostics = [] → ∀ token ∈ tokens, token.kind = .integer →
          token.magnitude ≤ Integer.largest)) ∧
      ∀ before literal after, tokens = before ++ literal :: after → literal.kind = .integer →
        (¬ Meets limit before literal after → PassesOver limit before literal after) ∧
        (Text.digitLimit < literal.text.length →
          (Meets limit before literal after ↔ ∃ unread, ofSource source limit = .error unread)) ∧
        (literal.text.length ≤ Text.digitLimit → Integer.largest < literal.magnitude →
          Tolerates limit before literal after) := by
  constructor
  · intro fault position failed
    unfold ofSource
    rw [failed]
  intro tokens scanned
  have same : ofSource source limit = ofTokens tokens limit := by
    unfold ofSource
    rw [scanned]
  have spelt := tokenize_isSpelt scanned
  refine ⟨same, ?_⟩
  rw [same]
  refine ⟨?_, ?_, ?_⟩
  · intro unread failed
    obtain ⟨token, member, isInteger, unreadable⟩ := ofTokens_unreadable failed
    refine ⟨token, member, isInteger, ?_⟩
    rw [(spelt token member).readInteger isInteger] at unreadable
    split at unreadable
    next long =>
      cases unreadable
      exact ⟨long, rfl⟩
    · cases unreadable
  · intro parsed read
    obtain ⟨some, all⟩ := ofTokens_kept read
    have bounded := leaves_bounded (wellFormed_of_ofTokens read)
    have inRange : ∀ token ∈ parsed.program.tree.leaves, token.kind = .integer →
        token.magnitude ≤ Integer.largest := by
      intro token member isInteger
      have isSpelt := spelt token (List.takeWhile_subset _ (some.subset member))
      exact ((bounded token member).magnitude_le isSpelt isInteger).2
    refine ⟨inRange, fun clean token member isInteger => inRange token ?_ isInteger⟩
    obtain ⟨leading, position, rfl, notEnd⟩ := tokenize_spelt scanned
    have inside : token ∈ leading := by
      rcases List.mem_append.mp member with found | ending
      · exact found
      · rw [List.mem_singleton.mp ending] at isInteger
        cases isInteger
    have whole : beforeEnd (leading ++ [.endOfInput position]) = leading :=
      beforeEnd_append (fun token member => (notEnd token member).1) rfl
    rw [all clean, whole]
    exact List.mem_filter.mpr ⟨inside, by rw [isInteger]; rfl⟩
  · intro before literal after split isInteger
    subst split
    have isSpelt := spelt literal (List.mem_append_right before List.mem_cons_self)
    refine ⟨passesOver_of_not_meets isInteger, fun long => ?_,
      tolerates_outOfRange limit before after isSpelt isInteger⟩
    refine meets_iff_error (isSpelt.unbounded isInteger (.inl long)) fun readable => ?_
    obtain ⟨value, read⟩ := readable isInteger
    rw [isSpelt.readInteger isInteger, if_pos long] at read
    cases read

/-- The tokens of a binding before the integer in it. -/
def bindingBefore : List Token :=
  [⟨.kwLet, "let", ⟨1, 1⟩⟩, ⟨.identifier, "x", ⟨1, 5⟩⟩, ⟨.assign, "=", ⟨1, 7⟩⟩]

/-- The tokens that end the binding, and another statement. -/
def bindingAfter : List Token :=
  [⟨.semicolon, ";", ⟨1, 28⟩⟩, ⟨.kwNil, "nil", ⟨1, 30⟩⟩, .endOfInput ⟨1, 33⟩]

/-- A character that begins no token, an integer in range, one out of range in a statement before
another one and one that is not read at all. -/
theorem ofSource_integers_each :
    let large := "let x = 9223372036854775808; nil"
    let long := String.ofList (List.replicate 5000 '1' ++ [';', ' '] ++ "nil".toList)
    ofSource "$" = .ok ⟨⟨.unknown, []⟩, [⟨.lexical (.illegalCharacter '$'), ⟨1, 1⟩⟩]⟩ ∧
    (∃ tokens parsed, tokenize "1" = .ok tokens ∧ ofSource "1" = .ok parsed ∧
      parsed.diagnostics = [] ∧
      (∀ token ∈ parsed.program.tree.leaves, token.kind = .integer →
        token.magnitude ≤ Integer.largest) ∧
      ∀ token ∈ tokens, token.kind = .integer → token.magnitude ≤ Integer.largest) ∧
    (∃ before literal after parsed, tokenize large = .ok (before ++ literal :: after) ∧
      literal.kind = .integer ∧ literal.text.length ≤ Text.digitLimit ∧
      Integer.largest < literal.magnitude ∧ ofSource large = .ok parsed ∧
      Tolerates nestingLimit before literal after ∧ Meets nestingLimit before literal after ∧
      literal.outOfRange ∈ parsed.diagnostics) ∧
    ∃ before literal after unread, tokenize long = .ok (before ++ literal :: after) ∧
      literal.kind = .integer ∧ Text.digitLimit < literal.text.length ∧
      ofSource long = .error unread ∧ Meets nestingLimit before literal after := by
  intro large long
  have one : ∃ tokens, tokenize "1" = .ok tokens := ⟨_, rfl⟩
  have program : ∃ parsed, ofSource "1" = .ok parsed ∧ parsed.diagnostics = [] := ⟨_, rfl, rfl⟩
  obtain ⟨tokens, scanned⟩ := one
  obtain ⟨parsed, read, clean⟩ := program
  have ofOne := (ofSource_integers nestingLimit "1").2 tokens scanned
  obtain ⟨inTree, inText⟩ := ofOne.2.2.1 parsed read
  refine ⟨(ofSource_integers nestingLimit "$").1 _ _ rfl,
    ⟨tokens, parsed, scanned, read, clean, inTree, inText clean⟩, ?_, ?_⟩
  · have scannedLarge : tokenize "let x = 9223372036854775808; nil" = .ok
      (bindingBefore ++ ⟨.integer, "9223372036854775808", ⟨1, 9⟩⟩ :: bindingAfter) := rfl
    have readLarge : ∃ parsed, ofTokens (bindingBefore ++
        ⟨.integer, "9223372036854775808", ⟨1, 9⟩⟩ :: bindingAfter) = .ok parsed := ⟨_, rfl⟩
    have meets : Meets nestingLimit bindingBefore ⟨.integer, "9223372036854775808", ⟨1, 9⟩⟩
        bindingAfter := ⟨"", _, rfl⟩
    have short : (19 : Nat) ≤ Text.digitLimit := by decide
    have tooLarge : Integer.largest <
        Token.magnitude ⟨.integer, "9223372036854775808", ⟨1, 9⟩⟩ := by decide
    have ofLarge := (ofSource_integers nestingLimit large).2 _ scannedLarge
    have tolerates := (ofLarge.2.2.2 _ _ _ rfl rfl).2.2 short tooLarge
    obtain ⟨parsed, readLarge⟩ := readLarge
    exact ⟨_, _, _, parsed, scannedLarge, rfl, short, tooLarge, ofLarge.1.trans readLarge,
      tolerates, meets, tolerates.reported meets parsed readLarge⟩
  · have areDigits : ∀ c ∈ List.replicate 5000 '1', c.isDigit = true := by
      intro c member
      rw [List.eq_of_mem_replicate member]
      rfl
    have failed : ofSource long = .error (.overlong (List.replicate 5000 '1').length) :=
      ofSource_overlong_nil 1998 areDigits (by rw [List.length_replicate]; decide)
    cases scannedLong : tokenize long with
    | error fault =>
        rw [ofSource, scannedLong] at failed
        cases failed
    | ok tokens =>
        have ofLong := (ofSource_integers nestingLimit long).2 tokens scannedLong
        obtain ⟨literal, member, isInteger, overlong, -⟩ := ofLong.2.1 _ failed
        obtain ⟨before, after, rfl⟩ := List.append_of_mem member
        exact ⟨before, literal, after, _, rfl, isInteger, overlong, failed,
          ((ofLong.2.2.2 before literal after rfl isInteger).2.1 overlong).mpr ⟨_, failed⟩⟩

/-- There is no program for four thousand three hundred and one nines before a statement. -/
theorem ofSource_nines :
    let source := String.ofList (List.replicate 4301 '9' ++ [';', ' '] ++ "nil".toList)
    ofSource source = .error (.overlong 4301) ∧ ¬ ∃ parsed, ofSource source = .ok parsed := by
  intro source
  have areDigits : ∀ c ∈ List.replicate 4301 '9', c.isDigit = true := by
    intro c member
    rw [List.eq_of_mem_replicate member]
    rfl
  have count : (List.replicate 4301 '9').length = 4301 := List.length_replicate
  have failed : ofSource source = .error (.overlong 4301) := by
    have long : ofSource source = _ := ofSource_overlong_nil 1998 areDigits (by rw [count]; decide)
    rwa [count] at long
  refine ⟨failed, ?_⟩
  rintro ⟨parsed, read⟩
  rw [failed] at read
  cases read

end Program

end Monkey
