import Monkey.Proofs.Token.Lexemes
import Monkey.Proofs.Token.Scanning

/-!
# Dividing a text without remainder

The tokens a scanner finds in a text come from lexemes that are the whole text, up to blank text at
its end. While it reads, the characters behind the last token found are blank text, and after that
what the mode says about the token or the comment begun.
-/

set_option autoImplicit false

namespace Monkey

namespace Scanner

/-- The tokens found, the last one first, are written in the preceding text, and each of them fits
where it stands. -/
inductive Covers : (preceding following : List Char) → List Token → Prop
  | nil (following : List Char) : Covers [] following []
  | add {preceding gap chars following : List Char} {tokens : List Token} {token : Token}
      (covers : Covers preceding (gap ++ chars ++ following) tokens)
      (fits : Lexeme.Fits ⟨gap, chars, token⟩ preceding following) :
      Covers (preceding ++ gap ++ chars) following (token :: tokens)

/-- Whether a token has been begun that is not finished. -/
def Mode.isOpen : Mode → Bool
  | opened _ | number _ | word _ | string _ | escape .. => true
  | between | comment | failed .. => false

/-- The characters the scanner has read of a token or a comment that is not finished. -/
inductive Mode.Reads : Mode → List Char → Prop
  | between : Reads .between []
  | opened (first : Char) : Reads (.opened first) [first]
  | comment {body : List Char} (inLine : '\n' ∉ body) : Reads .comment ('/' :: '/' :: body)
  | number {first : Char} {rest digits : List Char} (isFirst : isDigit first = true)
      (others : ∀ c ∈ rest, isDigit c = true ∨ c = '_')
      (areDigits : digits.reverse = (first :: rest).filter (· != '_')) :
      Reads (.number digits) (first :: rest)
  | word {first : Char} {rest letters : List Char} (isFirst : startsWord first = true)
      (others : ∀ c ∈ rest, continuesWord c = true) (areLetters : letters.reverse = first :: rest) :
      Reads (.word letters) (first :: rest)
  | string {body content : List Char} (decodes : Decodes body content.reverse) :
      Reads (.string content) ('"' :: body)
  | escape {body content : List Char} (backslash : Position)
      (decodes : Decodes body content.reverse) :
      Reads (.escape content backslash) ('"' :: (body ++ ['\\']))
  | failed (fault : LexicalFault) (position : Position) (chars : List Char) :
      Reads (.failed fault position) chars

/-- The scanner has found the tokens of the preceding text. Behind that it has read blank text and
some characters of what it is inside of. -/
structure Stands (preceding gap chars following : List Char) (scanner : Scanner) : Prop where
  covers : Covers preceding (gap ++ chars ++ following) scanner.tokens
  blank : Blank gap
  reads : scanner.mode.Reads chars
  start : scanner.mode.isOpen = true → scanner.start = .behind (preceding ++ gap)

/-- What the scanner has found and begun is the whole text it has read. -/
def Accounts (done following : List Char) (scanner : Scanner) : Prop :=
  ∃ preceding gap chars, preceding ++ gap ++ chars = done ∧
    scanner.Stands preceding gap chars following

theorem Accounts.initial (source : List Char) : Scanner.initial.Accounts [] source :=
  ⟨[], [], [], rfl, .nil _, .nil, .between, nofun⟩

variable {scanner : Scanner} {preceding gap chars following : List Char}

theorem Accounts.failed (covers : Covers preceding (gap ++ chars ++ following) scanner.tokens)
    (blank : Blank gap) (fault : LexicalFault) (position : Position) :
    (scanner.fail fault position).Accounts (preceding ++ gap ++ chars) following :=
  ⟨preceding, gap, chars, rfl, covers, blank, .failed fault position chars, nofun⟩

/-! ## Finishing a token -/

theorem Stands.emit (covers : Covers preceding (gap ++ chars ++ following) scanner.tokens)
    (blank : Blank gap) (start : scanner.start = .behind (preceding ++ gap)) {kind : TokenKind}
    {text : String} (written : Written kind text chars) (maximal : Maximal chars following) :
    (scanner.emit kind text).Stands (preceding ++ gap ++ chars) [] [] following where
  covers := covers.add ⟨blank, written, maximal, start⟩
  blank := .nil
  reads := .between
  start := nofun

theorem spelling_of_char {c : Char} {kind : TokenKind} (isKind : TokenKind.ofChar? c = some kind) :
    kind.spelling = String.ofList [c] := by
  unfold TokenKind.ofChar? at isKind
  split at isKind <;> cases isKind <;> rfl

theorem spelling_of_pair {first second : Char} {kind : TokenKind}
    (isKind : TokenKind.ofPair? first second = some kind) :
    kind.spelling = String.ofList [first, second] := by
  unfold TokenKind.ofPair? at isKind
  split at isKind <;> cases isKind <;> rfl

theorem opensPair_of_pair {first second : Char} {kind : TokenKind}
    (isKind : TokenKind.ofPair? first second = some kind) : opensPair first = true := by
  unfold TokenKind.ofPair? at isKind
  split at isKind <;> cases isKind <;> rfl

/-- The character is no beginning of a pair or a comment with the one after it. -/
def StandsAlone (c : Char) (following : List Char) : Prop :=
  ∀ next, following.head? = some next →
    ¬(c = '/' ∧ next = '/') ∧ TokenKind.ofPair? c next = none

theorem StandsAlone.of_closed {c : Char} (closed : opensPair c = false) (following : List Char) :
    StandsAlone c following := by
  refine fun next _ => ⟨?_, ?_⟩
  · rintro ⟨rfl, rfl⟩
    cases closed
  · cases isPair : TokenKind.ofPair? c next with
    | none => rfl
    | some kind =>
        rw [opensPair_of_pair isPair] at closed
        cases closed

theorem Stands.emitChar {c : Char}
    (covers : Covers preceding (gap ++ [c] ++ following) scanner.tokens) (blank : Blank gap)
    (start : scanner.start = .behind (preceding ++ gap)) (alone : StandsAlone c following)
    {kind : TokenKind} (isKind : TokenKind.ofChar? c = some kind) :
    (scanner.emit kind kind.spelling).Stands (preceding ++ gap ++ [c]) [] [] following := by
  rw [spelling_of_char isKind]
  exact .emit covers blank start (.char isKind) (.char isKind alone)

theorem Accounts.emitChar {c : Char}
    (covers : Covers preceding (gap ++ [c] ++ following) scanner.tokens) (blank : Blank gap)
    (start : scanner.start = .behind (preceding ++ gap)) (alone : StandsAlone c following) :
    (scanner.emitChar c).Accounts (preceding ++ gap ++ [c]) following := by
  unfold Scanner.emitChar
  cases isKind : TokenKind.ofChar? c with
  | none => exact .failed covers blank _ _
  | some kind => exact ⟨_, [], [], by simp, .emitChar covers blank start alone isKind⟩

theorem Stands.emitNumber {digits : List Char}
    (stands : scanner.Stands preceding gap chars following) (inside : scanner.mode = .number digits)
    (ends : ∀ c, following.head? = some c → isDigit c = false ∧ c ≠ '_') :
    (scanner.emitNumber digits).Stands (preceding ++ gap ++ chars) [] [] following := by
  obtain ⟨covers, blank, reads, start⟩ := stands
  rw [inside] at reads start
  cases reads with
  | number isFirst others areDigits =>
      rw [Scanner.emitNumber, areDigits]
      exact .emit covers blank (start rfl) (.integer isFirst others) (.integer isFirst ends)

theorem Stands.emitWord {letters : List Char}
    (stands : scanner.Stands preceding gap chars following) (inside : scanner.mode = .word letters)
    (ends : ∀ c, following.head? = some c → continuesWord c = false) :
    (scanner.emitWord letters).Stands (preceding ++ gap ++ chars) [] [] following := by
  obtain ⟨covers, blank, reads, start⟩ := stands
  rw [inside] at reads start
  cases reads with
  | word isFirst others areLetters =>
      rw [Scanner.emitWord, areLetters]
      exact .emit covers blank (start rfl) (.word isFirst others) (.word isFirst ends)

/-! ## Reading a character -/

/-- Between tokens, a character is blank or begins what comes next, and may be all of it. -/
theorem Accounts.begin {c : Char} (covers : Covers preceding (gap ++ c :: following) scanner.tokens)
    (blank : Blank gap) (position : scanner.position = .behind (preceding ++ gap)) :
    (scanner.begin c).Accounts (preceding ++ gap ++ [c]) following := by
  have begun : Covers preceding (gap ++ [c] ++ following) scanner.tokens := by simpa using covers
  unfold Scanner.begin
  split
  · next isSpace =>
    refine ⟨preceding, gap ++ [c], [], by simp, ?_, blank.space isSpace, .between, nofun⟩
    simpa using begun
  dsimp only
  split
  · next isQuote =>
    subst isQuote
    exact ⟨preceding, gap, ['"'], rfl, begun, blank, .string .nil, fun _ => position⟩
  split
  · next digit =>
    refine ⟨preceding, gap, [c], rfl, begun, blank, .number digit nofun ?_, fun _ => position⟩
    have notSeparator : c ≠ '_' := by
      rintro rfl
      cases digit
    simp [notSeparator]
  split
  · next letter =>
    exact ⟨preceding, gap, [c], rfl, begun, blank, .word letter nofun rfl, fun _ => position⟩
  split
  · exact ⟨preceding, gap, [c], rfl, begun, blank, .opened c, fun _ => position⟩
  · next notPair =>
    have alone := StandsAlone.of_closed (Bool.eq_false_iff.mpr notPair) following
    refine Accounts.emitChar ?_ blank position alone
    exact begun

/-- A character after a finished token is read as one between tokens. -/
theorem Stands.begin {c : Char} (stands : scanner.Stands preceding [] [] (c :: following))
    (position : scanner.position = .behind preceding) :
    (scanner.begin c).Accounts (preceding ++ [c]) following := by
  rw [← List.append_nil preceding] at position
  simpa using Accounts.begin stands.covers .nil position

theorem begin_nul (scanner : Scanner) : scanner.begin '\x00' =
    { scanner with start := scanner.position }.fail (.illegalCharacter '\x00') scanner.position :=
  rfl

section Read

variable {c : Char} (stands : scanner.Stands preceding gap chars (c :: following))
include stands

theorem Stands.covers_further :
    Covers preceding (gap ++ (chars ++ [c]) ++ following) scanner.tokens := by
  simpa using stands.covers

/-- The character is one more of what the scanner is inside of. -/
theorem Stands.goesOn {scanner' : Scanner} (tokens : scanner'.tokens = scanner.tokens)
    (reads : scanner'.mode.Reads (chars ++ [c]))
    (start : scanner'.mode.isOpen = true → scanner'.start = .behind (preceding ++ gap)) :
    scanner'.Accounts (preceding ++ gap ++ chars ++ [c]) following := by
  refine ⟨preceding, gap, chars ++ [c], by simp, ?_, stands.blank, reads, start⟩
  rw [tokens]
  exact stands.covers_further

theorem Stands.read_comment (inside : scanner.mode = .comment) :
    (scanner.read c).Accounts (preceding ++ gap ++ chars ++ [c]) following := by
  obtain ⟨covers, blank, reads, _⟩ := id stands
  rw [inside] at reads
  rw [Scanner.read, inside]
  cases reads with
  | @comment body inLine =>
    dsimp only
    split
    · next isEnd =>
      rcases isEnd with rfl | rfl
      · rw [begin_newline]
        refine ⟨preceding, gap ++ '/' :: '/' :: (body ++ ['\n']), [], by simp, ?_,
          blank.comment inLine, .between, nofun⟩
        simpa using covers
      -- a NUL ends the comment, but it is no character of any token, and so it is a fault
      · rw [begin_nul]
        exact stands.goesOn rfl (.failed ..) nofun
    · next notEnd =>
      have goesOn : '\n' ∉ body ++ [c] := by
        simpa [inLine] using fun isNewline => notEnd (.inl isNewline.symm)
      refine stands.goesOn rfl ?_ fun isOpen => ?_
      · rw [inside]
        exact .comment goesOn
      · rw [inside] at isOpen
        cases isOpen

theorem Stands.read_string {content : List Char} (inside : scanner.mode = .string content) :
    (scanner.read c).Accounts (preceding ++ gap ++ chars ++ [c]) following := by
  obtain ⟨_, blank, reads, start⟩ := id stands
  have further := stands.covers_further
  rw [inside] at reads start
  rw [Scanner.read, inside]
  cases reads with
  | string decodes =>
  dsimp only
  split
  · next isQuote =>
    subst isQuote
    have closed := Stands.emit further blank (start rfl) (.string decodes) (.string decodes _)
    exact ⟨_, [], [], by simp, closed⟩
  next notQuote =>
  split
  · next isBackslash =>
    subst isBackslash
    exact stands.goesOn rfl (.escape _ decodes) start
  · next notBackslash =>
    refine stands.goesOn rfl (.string ?_) start
    rw [List.reverse_cons]
    exact decodes.append (.plain notQuote notBackslash .nil)

theorem Stands.read_escape {content : List Char} {backslash : Position}
    (inside : scanner.mode = .escape content backslash) :
    (scanner.read c).Accounts (preceding ++ gap ++ chars ++ [c]) following := by
  obtain ⟨_, _, reads, start⟩ := id stands
  rw [inside] at reads start
  rw [Scanner.read, inside]
  cases reads with
  | escape _ decodes =>
  dsimp only
  cases isMeant : escaped? c with
  | none => exact stands.goesOn rfl (.failed ..) nofun
  | some meant =>
      have decoded := decodes.append (.escape isMeant .nil)
      refine stands.goesOn rfl ?_ start
      rw [← List.reverse_cons] at decoded
      simpa using Mode.Reads.string decoded

variable (position : scanner.position = .behind (preceding ++ gap ++ chars))
include position

theorem Stands.read_opened {first : Char} (inside : scanner.mode = .opened first) :
    (scanner.read c).Accounts (preceding ++ gap ++ chars ++ [c]) following := by
  obtain ⟨covers, blank, reads, start⟩ := id stands
  have further := stands.covers_further
  rw [inside] at reads start
  cases reads
  rw [Scanner.read, inside]
  dsimp only
  split
  · next isComment =>
    obtain ⟨rfl, rfl⟩ := isComment
    exact stands.goesOn rfl (.comment nofun) nofun
  next notComment =>
  cases isPair : TokenKind.ofPair? first c with
  | some kind =>
      have emitted := Stands.emit further blank (start rfl) (.pair isPair) (.pair isPair following)
      rw [← spelling_of_pair isPair] at emitted
      exact ⟨_, [], [], by simp, emitted⟩
  | none =>
      dsimp only [Scanner.emitChar]
      cases isKind : TokenKind.ofChar? first with
      | none => exact stands.goesOn rfl (.failed ..) nofun
      | some kind =>
          have alone : StandsAlone first (c :: following) := by
            rintro next ⟨⟩
            exact ⟨notComment, isPair⟩
          exact (Stands.emitChar covers blank (start rfl) alone isKind).begin position

theorem Stands.read_number {digits : List Char} (inside : scanner.mode = .number digits) :
    (scanner.read c).Accounts (preceding ++ gap ++ chars ++ [c]) following := by
  have reads := stands.reads
  have start := stands.start
  rw [inside] at reads start
  rw [Scanner.read, inside]
  dsimp only
  split
  · next digit =>
    have notSeparator : c ≠ '_' := by
      rintro rfl
      cases digit
    cases reads with
    | @number first rest _ isFirst others areDigits =>
    have longer : ∀ next ∈ rest ++ [c], isDigit next = true ∨ next = '_' :=
      List.forall_mem_append.mpr ⟨others, List.forall_mem_singleton.mpr (.inl digit)⟩
    have added : (c :: digits).reverse = (first :: (rest ++ [c])).filter (· != '_') := by
      rw [List.reverse_cons, areDigits, ← List.cons_append, List.filter_append]
      simp [notSeparator]
    exact stands.goesOn rfl (.number isFirst longer added) start
  next notDigit =>
  split
  · next isSeparator =>
    cases reads with
    | @number first rest _ isFirst others areDigits =>
    have longer : ∀ next ∈ rest ++ [c], isDigit next = true ∨ next = '_' :=
      List.forall_mem_append.mpr ⟨others, List.forall_mem_singleton.mpr (.inr isSeparator)⟩
    have same : digits.reverse = (first :: (rest ++ [c])).filter (· != '_') := by
      rw [areDigits, ← List.cons_append, List.filter_append, isSeparator]
      exact (List.append_nil _).symm
    refine stands.goesOn rfl ?_ fun _ => start rfl
    rw [inside]
    exact .number isFirst longer same
  · next notSeparator =>
    refine (stands.emitNumber inside ?_).begin position
    rintro next ⟨⟩
    exact ⟨Bool.eq_false_iff.mpr notDigit, notSeparator⟩

theorem Stands.read_word {letters : List Char} (inside : scanner.mode = .word letters) :
    (scanner.read c).Accounts (preceding ++ gap ++ chars ++ [c]) following := by
  have reads := stands.reads
  have start := stands.start
  rw [inside] at reads start
  rw [Scanner.read, inside]
  dsimp only
  split
  · next continues =>
    cases reads with
    | @word first rest _ isFirst others areLetters =>
    have longer : ∀ next ∈ rest ++ [c], continuesWord next = true :=
      List.forall_mem_append.mpr ⟨others, List.forall_mem_singleton.mpr continues⟩
    have added : (c :: letters).reverse = first :: (rest ++ [c]) := by
      rw [List.reverse_cons, areLetters, List.cons_append]
    exact stands.goesOn rfl (.word isFirst longer added) start
  · next ends =>
    refine (stands.emitWord inside ?_).begin position
    rintro next ⟨⟩
    exact Bool.eq_false_iff.mpr ends

end Read

/-- Every character read is accounted for. -/
theorem Accounts.read {done : List Char} {c : Char}
    (accounts : scanner.Accounts done (c :: following))
    (position : scanner.position = .behind done) :
    (scanner.read c).Accounts (done ++ [c]) following := by
  obtain ⟨preceding, gap, chars, rfl, stands⟩ := accounts
  cases inside : scanner.mode with
  | between =>
      obtain ⟨covers, blank, reads, _⟩ := stands
      rw [inside] at reads
      cases reads
      rw [List.append_nil] at covers position ⊢
      rw [Scanner.read, inside]
      exact .begin covers blank position
  | opened first => exact stands.read_opened position inside
  | comment => exact stands.read_comment inside
  | number digits => exact stands.read_number position inside
  | word letters => exact stands.read_word position inside
  | string content => exact stands.read_string inside
  | escape content backslash => exact stands.read_escape inside
  | failed fault blamed =>
      rw [Scanner.read, inside]
      refine stands.goesOn rfl ?_ stands.start
      rw [inside]
      exact .failed ..

/-- The scanner accounts for all that it reads, from a place where it stands right. -/
theorem Accounts.scan {done rest : List Char} (accounts : scanner.Accounts done rest)
    (position : scanner.position = .behind done) :
    (scanner.scan rest).Accounts (done ++ rest) [] := by
  induction rest generalizing scanner done with
  | nil => simpa using accounts
  | cons c rest ih =>
      have moved : (scanner.step c).position = .behind (done ++ [c]) := by
        rw [step_position, position, Position.behind_concat]
      obtain ⟨preceding, gap, chars, isDone, covers, blank, reads, start⟩ := accounts.read position
      have stepped : (scanner.step c).Accounts (done ++ [c]) rest :=
        ⟨preceding, gap, chars, isDone, covers, blank, reads, start⟩
      simpa using ih stepped moved

/-! ## The end of the text -/

/-- A text that has no fault ends between tokens, in a comment, or with a token that ends there. -/
theorem Accounts.close {done : List Char} {tokens : List Token}
    (accounts : scanner.Accounts done []) (finished : scanner.finish = .ok tokens) :
    ∃ preceding trailing, done = preceding ++ trailing ∧ Trailing trailing ∧
      Covers preceding trailing scanner.close.tokens := by
  obtain ⟨preceding, gap, chars, rfl, stands⟩ := accounts
  obtain ⟨covers, blank, reads, start⟩ := id stands
  unfold Scanner.finish at finished
  unfold Scanner.close at finished ⊢
  cases inside : scanner.mode with
  | between =>
      rw [inside] at reads
      cases reads
      exact ⟨preceding, gap, by simp, .blank blank, by simpa using covers⟩
  | comment =>
      rw [inside] at reads
      cases reads with
      | comment inLine =>
      exact ⟨preceding, _, List.append_assoc .., .comment blank inLine, by simpa using covers⟩
  | opened first =>
      rw [inside] at reads start finished
      cases reads
      dsimp only [Scanner.emitChar] at finished ⊢
      cases isKind : TokenKind.ofChar? first with
      | none =>
          rw [isKind] at finished
          cases finished
      | some kind =>
          have emitted := Stands.emitChar covers blank (start rfl) nofun isKind
          exact ⟨_, [], (List.append_nil _).symm, .blank .nil, emitted.covers⟩
  | number digits =>
      have emitted := stands.emitNumber inside nofun
      exact ⟨_, [], (List.append_nil _).symm, .blank .nil, emitted.covers⟩
  | word letters =>
      have emitted := stands.emitWord inside nofun
      exact ⟨_, [], (List.append_nil _).symm, .blank .nil, emitted.covers⟩
  | string content | escape content backslash =>
      rw [inside] at finished
      cases finished
  | failed fault blamed =>
      simp only [inside] at finished
      cases finished

end Scanner

/-! ## Tokens of a text -/

theorem Scanner.Covers.divides {preceding following : List Char} {tokens : List Token}
    (covers : Scanner.Covers preceding following tokens) :
    ∃ lexemes : List Lexeme, preceding = lexemes.flatMap Lexeme.text ∧
      tokens.reverse = lexemes.map Lexeme.token ∧ Divides lexemes following := by
  induction covers with
  | nil following => exact ⟨[], rfl, rfl, .nil following⟩
  | @add _ gap chars _ _ token _ fits ih =>
      obtain ⟨lexemes, rfl, isFound, divides⟩ := ih
      refine ⟨lexemes ++ [⟨gap, chars, token⟩], ?_, ?_, divides.concat fits⟩
      · simp [Lexeme.text]
      · simp [isFound]

/-- The tokens of a text are written in it, and blank text is behind them. -/
theorem tokenize_covers {source : String} {tokens : List Token}
    (scanned : tokenize source = .ok tokens) :
    ∃ preceding trailing found, source.toList = preceding ++ trailing ∧ Trailing trailing ∧
      Scanner.Covers preceding trailing found ∧
      tokens = found.reverse ++ [.endOfInput (.behind source.toList)] := by
  have accounts := (Scanner.Accounts.initial source.toList).scan rfl
  obtain ⟨preceding, trailing, isSource, isTrailing, covers⟩ := accounts.close scanned
  refine ⟨preceding, trailing, _, isSource, isTrailing, covers, ?_⟩
  have ending : (Scanner.initial.scan source.toList).close.position = .behind source.toList := by
    rw [Scanner.close_position, Scanner.scan_position]
    exact (Position.behind_append [] source.toList).symm
  rw [Scanner.finish_ok scanned, ending]

theorem TokenKind.IsPlain.isSpelt {kind : TokenKind} (isPlain : kind.IsPlain) {text : String} :
    kind ≠ .endOfInput ∧ (kind = .integer → Text.IsDigits text) :=
  ⟨isPlain.2, fun isInteger => absurd isInteger isPlain.1⟩

/-- A token that is written in a text is no end of it, and if it is an integer, it is digits. -/
theorem Written.isSpelt {kind : TokenKind} {text : String} {chars : List Char}
    (written : Written kind text chars) :
    kind ≠ .endOfInput ∧ (kind = .integer → Text.IsDigits text) := by
  cases written with
  | @integer first rest isFirst others =>
      refine ⟨nofun, fun _ => ?_⟩
      have notSeparator : first ≠ '_' := by
        rintro rfl
        cases isFirst
      rw [Text.IsDigits, String.toList_ofList]
      refine ⟨by simp [notSeparator], fun c member => ?_⟩
      obtain ⟨isIn, notSeparator⟩ := List.mem_filter.mp member
      rw [← Scanner.isDigit_eq]
      rcases List.mem_cons.mp isIn with rfl | isLater
      · exact isFirst
      · exact (others c isLater).resolve_right (by simpa using notSeparator)
  | string => exact ⟨nofun, nofun⟩
  | word => exact (TokenKind.IsPlain.ofWord _).isSpelt
  | char isKind => exact (TokenKind.IsPlain.of_ofChar? isKind).isSpelt
  | pair isKind => exact (TokenKind.IsPlain.of_ofPair? isKind).isSpelt

theorem Scanner.Covers.written {preceding following : List Char} {tokens : List Token}
    (covers : Scanner.Covers preceding following tokens) :
    ∀ token ∈ tokens, ∃ chars, Written token.kind token.text chars := by
  induction covers with
  | nil => exact fun _ member => absurd member List.not_mem_nil
  | add _ fits ih => exact List.forall_mem_cons.mpr ⟨⟨_, fits.written⟩, ih⟩

/-- The end of the input comes last and nowhere else, and the text of every integer is digits, in
ASCII. -/
theorem tokenize_spelt {source : String} {tokens : List Token}
    (scanned : tokenize source = .ok tokens) :
    ∃ leading position, tokens = leading ++ [.endOfInput position] ∧
      ∀ token ∈ leading, token.kind ≠ .endOfInput ∧ token.IsSpelt := by
  obtain ⟨_, _, found, -, -, covers, rfl⟩ := tokenize_covers scanned
  refine ⟨_, _, rfl, fun token member => ?_⟩
  obtain ⟨chars, written⟩ := covers.written token (List.mem_reverse.mp member)
  exact written.isSpelt

theorem tokenize_isSpelt {source : String} {tokens : List Token}
    (scanned : tokenize source = .ok tokens) : ∀ token ∈ tokens, token.IsSpelt := by
  obtain ⟨leading, position, rfl, spelt⟩ := tokenize_spelt scanned
  intro token member
  rcases List.mem_append.mp member with found | ending
  · exact (spelt token found).2
  · rw [List.mem_singleton.mp ending]
    exact nofun

/-- The token stream accounts for the whole text: it is the lexemes of its tokens, in their order,
and blank text behind them, and each lexeme fits where it stands. The token that ends the stream is
the only one that ends it, and stands where the text ends. -/
theorem tokenize_divides {source : String} {tokens : List Token}
    (scanned : tokenize source = .ok tokens) :
    ∃ lexemes trailing,
      source.toList = lexemes.flatMap Lexeme.text ++ trailing ∧ Trailing trailing ∧
      Divides lexemes trailing ∧
      tokens = lexemes.map Lexeme.token ++ [.endOfInput (.behind source.toList)] ∧
      ∀ lexeme ∈ lexemes, lexeme.token.kind ≠ .endOfInput := by
  obtain ⟨_, trailing, found, isSource, isTrailing, covers, isScanned⟩ := tokenize_covers scanned
  obtain ⟨lexemes, rfl, isFound, divides⟩ := covers.divides
  refine ⟨lexemes, trailing, isSource, isTrailing, divides, by rw [isScanned, isFound], ?_⟩
  intro lexeme member
  obtain ⟨earlier, later, isSplit⟩ := List.append_of_mem member
  exact (divides earlier lexeme later isSplit).written.isSpelt.1

/-- With comments, a separator between digits, and a newline and an escape in a string. -/
theorem tokenize_divides_commented :
    let source := "é=1_0//a\n\"\\t\n\"==b//"
    let tokens : List Token := [⟨.identifier, "é", ⟨1, 1⟩⟩, ⟨.assign, "=", ⟨1, 2⟩⟩,
      ⟨.integer, "10", ⟨1, 3⟩⟩, ⟨.string, "\t\n", ⟨2, 1⟩⟩, ⟨.equal, "==", ⟨3, 2⟩⟩,
      ⟨.identifier, "b", ⟨3, 4⟩⟩, .endOfInput ⟨3, 7⟩]
    tokenize source = .ok tokens ∧
      ∃ lexemes trailing,
        source.toList = lexemes.flatMap Lexeme.text ++ trailing ∧ Trailing trailing ∧
        Divides lexemes trailing ∧
        tokens = lexemes.map Lexeme.token ++ [.endOfInput (.behind source.toList)] ∧
        ∀ lexeme ∈ lexemes, lexeme.token.kind ≠ .endOfInput := by
  intro source tokens
  have scanned : tokenize "é=1_0//a\n\"\\t\n\"==b//" = .ok tokens := rfl
  exact ⟨scanned, tokenize_divides scanned⟩

end Monkey
