import Mathlib.Data.List.TakeWhile
import Monkey.Highlight
import Monkey.Proofs.Token.Division

/-!
# Fragments and lexemes

The fragments of a line are cut at indices that are counted anew: where a token begins is read from
its column, and where it ends from the characters there. A lexeme of a line goes just as far
(`tokenLength_written`), so that the fragments of a line are those of its lexemes, one after the
other, and of what trails behind them. Nothing is lost, and nothing shown twice.
-/

set_option autoImplicit false

namespace Monkey

open Scanner

/-! ## Lines -/

/-- On a line, columns count the characters. -/
theorem Position.behind_column {text : List Char} (inLine : '\n' ∉ text) :
    (behind text).column - 1 = text.length := by
  have whole : text.reverse.takeWhile (· != '\n') = text.reverse := by
    rw [List.takeWhile_eq_self_iff]
    intro c member
    rw [bne_iff_ne]
    rintro rfl
    exact inLine (List.mem_reverse.mp member)
  rw [behind, whole, List.length_reverse, Nat.add_sub_cancel_left]

/-- A comment between tokens ends its line. -/
theorem Blank.areSpaces {text : List Char} (blank : Blank text) (inLine : '\n' ∉ text) :
    ∀ c ∈ text, isSpace c = true := by
  induction blank with
  | nil => exact nofun
  | space _ isSpace ih =>
      rw [List.mem_append, not_or] at inLine
      exact List.forall_mem_append.mpr ⟨ih inLine.1, List.forall_mem_singleton.mpr isSpace⟩
  | comment => exact absurd (by simp) inLine

theorem Trailing.split {text : List Char} (trailing : Trailing text) (inLine : '\n' ∉ text) :
    ∃ spaces comment, text = spaces ++ comment ∧ (∀ c ∈ spaces, isSpace c = true) ∧
      (comment = [] ∨ ['/', '/'] <+: comment) := by
  cases trailing with
  | blank blank =>
      exact ⟨text, [], (List.append_nil _).symm, blank.areSpaces inLine, .inl rfl⟩
  | @comment spaces body blank =>
      rw [List.mem_append, not_or] at inLine
      exact ⟨spaces, _, rfl, blank.areSpaces inLine.1, .inr ⟨body, rfl⟩⟩

namespace Highlight

/-! ## Where a token ends -/

theorem stringTail_decodes {body content : List Char} (decodes : Decodes body content)
    (following : List Char) : stringTail (body ++ '"' :: following) = body.length + 1 := by
  induction decodes with
  | nil => simp [stringTail]
  | plain notQuote notBackslash _ ih => simp [stringTail, notQuote, notBackslash, ih]
  | escape _ _ ih =>
      rw [List.cons_append, List.cons_append, stringTail, ih]
      rfl

/-- Where a token stops, a run of characters that would make it longer has stopped, too. -/
theorem takeWhile_maximal {chars following : List Char} {inClass : Char → Bool}
    (inside : ∀ c ∈ chars, inClass c = true) (maximal : Maximal chars following)
    (goesOn : ∀ c, inClass c = true → ∃ kind text, Written kind text (chars ++ [c])) :
    (chars ++ following).takeWhile inClass = chars := by
  rw [List.takeWhile_append_of_pos inside]
  cases following with
  | nil => exact List.append_nil chars
  | cons c rest =>
      cases continues : inClass c with
      | false => rw [List.takeWhile_cons_of_neg (by simp [continues]), List.append_nil]
      | true =>
          obtain ⟨kind, text, written⟩ := goesOn c continues
          have isPrefix : chars ++ [c] <+: chars ++ c :: rest := ⟨rest, by simp⟩
          have noLonger := maximal.longest kind text _ isPrefix written
          rw [List.length_append, List.length_singleton] at noLonger
          omega

theorem tokenLength_word (word : String) (position : Position) (chars : List Char) :
    tokenLength ⟨.ofWord word, word, position⟩ chars =
      (chars.takeWhile continuesWord).length := by
  unfold TokenKind.ofWord
  cases found : List.find? (fun kind => TokenKind.spelling kind == word)
      [.kwLet, .kwReturn, .kwIf, .kwElse, .kwFn, .kwTrue, .kwFalse, .kwNil] with
  | none => rfl
  | some kind =>
      have member := List.mem_of_find?_eq_some found
      simp only [List.mem_cons, List.not_mem_nil, or_false] at member
      rcases member with rfl | rfl | rfl | rfl | rfl | rfl | rfl | rfl <;> rfl

theorem tokenLength_char {c : Char} {kind : TokenKind} (isKind : TokenKind.ofChar? c = some kind)
    (text : String) (position : Position) (chars : List Char) :
    tokenLength ⟨kind, text, position⟩ chars = text.length := by
  unfold TokenKind.ofChar? at isKind
  split at isKind <;> cases isKind <;> rfl

theorem tokenLength_pair {first second : Char} {kind : TokenKind}
    (isKind : TokenKind.ofPair? first second = some kind) (text : String) (position : Position)
    (chars : List Char) : tokenLength ⟨kind, text, position⟩ chars = text.length := by
  unfold TokenKind.ofPair? at isKind
  split at isKind <;> cases isKind <;> rfl

/-- A token is found to go as far as it is written. -/
theorem tokenLength_written {kind : TokenKind} {text : String} {chars following : List Char}
    (written : Written kind text chars) (maximal : Maximal chars following)
    (position : Position) :
    tokenLength ⟨kind, text, position⟩ (chars ++ following) = chars.length := by
  cases written with
  | @integer first rest isFirst others =>
      have inside : ∀ c ∈ first :: rest, (isDigit c || c == '_') = true := by
        intro c member
        rw [Bool.or_eq_true, beq_iff_eq]
        rcases List.mem_cons.mp member with rfl | later
        · exact .inl isFirst
        · exact others c later
      have goesOn : ∀ c, (isDigit c || c == '_') = true →
          ∃ kind text, Written kind text (first :: rest ++ [c]) := by
        intro c continues
        rw [Bool.or_eq_true, beq_iff_eq] at continues
        have others' := List.forall_mem_append.mpr ⟨others, List.forall_mem_singleton.mpr continues⟩
        exact ⟨_, _, .integer isFirst others'⟩
      exact congrArg List.length (takeWhile_maximal inside maximal goesOn)
  | @string body content decodes =>
      have shape : '"' :: (body ++ ['"']) ++ following = '"' :: (body ++ '"' :: following) := by
        simp
      have closes : tokenLength ⟨.string, String.ofList content, position⟩
          ('"' :: (body ++ '"' :: following)) = body.length + 1 + 1 :=
        congrArg (· + 1) (stringTail_decodes decodes following)
      rw [shape, closes]
      simp
  | @word first rest isFirst others =>
      have inside : ∀ c ∈ first :: rest, continuesWord c = true :=
        List.forall_mem_cons.mpr ⟨continuesWord_of_startsWord isFirst, others⟩
      have goesOn : ∀ c, continuesWord c = true →
          ∃ kind text, Written kind text (first :: rest ++ [c]) := by
        intro c continues
        have others' := List.forall_mem_append.mpr ⟨others, List.forall_mem_singleton.mpr continues⟩
        exact ⟨_, _, .word isFirst others'⟩
      rw [tokenLength_word, takeWhile_maximal inside maximal goesOn]
  | char isKind => rw [tokenLength_char isKind, String.length_ofList]
  | pair isKind => rw [tokenLength_pair isKind, String.length_ofList]

/-! ## Between the tokens -/

theorem splitComment_spaces {spaces comment : List Char}
    (areSpaces : ∀ c ∈ spaces, isSpace c = true)
    (isComment : comment = [] ∨ ['/', '/'] <+: comment) :
    splitComment (spaces ++ comment) = (spaces, comment) := by
  induction spaces with
  | nil =>
      rcases isComment with rfl | ⟨body, rfl⟩
      · rfl
      · rfl
  | cons c rest ih =>
      have notSlash : c ≠ '/' := by
        rintro rfl
        exact absurd (areSpaces '/' List.mem_cons_self) (by decide)
      have later := ih fun c member => areSpaces c (List.mem_cons_of_mem _ member)
      rw [List.cons_append, splitComment, if_neg fun isSlash => notSlash isSlash.1, later]

theorem gap_spaces {spaces comment : List Char} (areSpaces : ∀ c ∈ spaces, isSpace c = true)
    (isComment : comment = [] ∨ ['/', '/'] <+: comment) :
    gap (spaces ++ comment) = fragment? .plain spaces ++ fragment? .comment comment := by
  rw [gap, splitComment_spaces areSpaces isComment]

/-! ## The fragments of a line -/

/-- The fragments a lexeme is shown as: its own characters in one of them, in the style of its
token, and the spaces before it without a style. -/
def lexemeFragments (builtins : List String) (lexeme : Lexeme) : List Fragment :=
  fragment? .plain lexeme.gap ++ [⟨groupOf builtins lexeme.token, String.ofList lexeme.chars⟩]

theorem slice_middle (before middle after : List Char) :
    slice (before ++ middle ++ after) before.length (before.length + middle.length) = middle := by
  rw [slice, ← List.length_append, List.take_left, List.drop_left]

theorem fragments_step (builtins : List String) {preceding following : List Char} {lexeme : Lexeme}
    (fits : lexeme.Fits preceding following)
    (inLine : '\n' ∉ preceding ++ lexeme.text ++ following) (rest : List Token) :
    fragments builtins (preceding ++ lexeme.text ++ following) (lexeme.token :: rest)
        preceding.length =
      lexemeFragments builtins lexeme ++
        fragments builtins (preceding ++ lexeme.text ++ following) rest
          (preceding ++ lexeme.text).length := by
  obtain ⟨between, chars, token⟩ := lexeme
  have shape : preceding ++ Lexeme.text ⟨between, chars, token⟩ ++ following =
      preceding ++ between ++ chars ++ following := by
    simp [Lexeme.text]
  rw [shape] at inLine ⊢
  simp only [List.mem_append, not_or] at inLine
  obtain ⟨⟨⟨beforeInLine, gapInLine⟩, -⟩, -⟩ := inLine
  have begins : token.position.column - 1 = (preceding ++ between).length := by
    rw [fits.position]
    exact Position.behind_column (by simp [beforeInLine, gapInLine])
  have goes : tokenLength token ((preceding ++ between ++ chars ++ following).drop
      (preceding ++ between).length) = chars.length := by
    rw [List.append_assoc (preceding ++ between), List.drop_left]
    exact tokenLength_written fits.written fits.maximal token.position
  have isGap : slice (preceding ++ between ++ chars ++ following) preceding.length
      (preceding ++ between).length = between := by
    rw [List.append_assoc (preceding ++ between), List.length_append]
    exact slice_middle preceding between (chars ++ following)
  have isSpaces := gap_spaces (fits.blank.areSpaces gapInLine) (.inl rfl)
  rw [List.append_nil] at isSpaces
  rw [fragments, if_neg fits.written.isSpelt.1]
  dsimp only
  rw [begins, goes, isGap, slice_middle, isSpaces]
  simp [lexemeFragments, fragment?, Lexeme.text, Nat.add_assoc]

theorem fragments_lexemes (builtins : List String) {following line : List Char}
    {earlier later : List Lexeme} (divides : Divides (earlier ++ later) following)
    (isLine : line = (earlier ++ later).flatMap Lexeme.text ++ following) (inLine : '\n' ∉ line)
    (position : Position) :
    fragments builtins line (later.map Lexeme.token ++ [.endOfInput position])
        (earlier.flatMap Lexeme.text).length =
      later.flatMap (lexemeFragments builtins) ++ gap following := by
  induction later generalizing earlier with
  | nil =>
      rw [List.append_nil] at isLine
      rw [isLine]
      simp [fragments, Token.endOfInput]
  | cons lexeme later ih =>
      have isSplit : earlier ++ lexeme :: later = earlier ++ [lexeme] ++ later := by simp
      have fits := divides earlier lexeme later rfl
      have shape : line = earlier.flatMap Lexeme.text ++ lexeme.text ++
          (later.flatMap Lexeme.text ++ following) := by
        simp [isLine]
      have rest := ih (isSplit ▸ divides) (isSplit ▸ isLine)
      have reached : (earlier ++ [lexeme]).flatMap Lexeme.text =
          earlier.flatMap Lexeme.text ++ lexeme.text := by
        simp
      rw [reached] at rest
      rw [shape] at inLine
      have step := fragments_step builtins fits inLine
        (later.map Lexeme.token ++ [.endOfInput position])
      rw [← shape, rest] at step
      rw [List.map_cons, List.cons_append, step, List.flatMap_cons, List.append_assoc]

/-- The fragments of lexemes, and those of the spaces and the comment behind them. -/
def shown (builtins : List String) (lexemes : List Lexeme) (spaces comment : List Char) :
    List Fragment :=
  lexemes.flatMap (lexemeFragments builtins) ++
    (fragment? .plain spaces ++ fragment? .comment comment)

/-- A text that can be divided is shown as its lexemes, and what trails behind them. -/
theorem fragments_divided (builtins : List String) {text : String} (inLine : '\n' ∉ text.toList)
    {tokens : List Token} (scanned : tokenize text = .ok tokens) :
    ∃ lexemes spaces comment,
      text.toList = lexemes.flatMap Lexeme.text ++ (spaces ++ comment) ∧
      Divides lexemes (spaces ++ comment) ∧
      tokens = lexemes.map Lexeme.token ++ [.endOfInput (.behind text.toList)] ∧
      (∀ c ∈ spaces, isSpace c = true) ∧ (comment = [] ∨ ['/', '/'] <+: comment) ∧
      fragments builtins text.toList tokens 0 = shown builtins lexemes spaces comment := by
  obtain ⟨_, trailing, found, isText, isTrailing, covers, isScanned⟩ := tokenize_covers scanned
  obtain ⟨lexemes, rfl, isFound, divides⟩ := covers.divides
  have trailingInLine : '\n' ∉ trailing := fun member => inLine (by simp [isText, member])
  obtain ⟨spaces, comment, rfl, areSpaces, isComment⟩ := isTrailing.split trailingInLine
  rw [isFound] at isScanned
  refine ⟨lexemes, spaces, comment, isText, divides, isScanned, areSpaces, isComment, ?_⟩
  rw [isScanned, shown, ← gap_spaces areSpaces isComment]
  exact @fragments_lexemes builtins _ _ [] lexemes divides isText inLine _

theorem line_scanned (builtins : List String) {text : String} {tokens : List Token}
    (scanned : tokenize text = .ok tokens) :
    line builtins text =
      if text = "" then [⟨.plain, ""⟩] else fragments builtins text.toList tokens 0 := by
  simp only [line, scanned, String.isEmpty_iff]

/-! ## Nothing lost -/

theorem join_fragment? (group : Group) (chars : List Char) :
    (fragment? group chars).flatMap (·.text.toList) = chars := by
  unfold fragment?
  cases chars <;> simp

theorem join_lexemes (builtins : List String) (lexemes : List Lexeme) :
    (lexemes.flatMap (lexemeFragments builtins)).flatMap (·.text.toList) =
      lexemes.flatMap Lexeme.text := by
  induction lexemes with
  | nil => rfl
  | cons lexeme later ih =>
      rw [List.flatMap_cons, List.flatMap_append, ih, lexemeFragments, List.flatMap_append,
        join_fragment?]
      simp [Lexeme.text]

theorem join_line (builtins : List String) {text : String} (inLine : '\n' ∉ text.toList) :
    String.join ((line builtins text).map Fragment.text) = text := by
  cases scanned : tokenize text with
  | error fault =>
      by_cases isEmpty : text = "" <;> simp [line, isEmpty, scanned]
  | ok tokens =>
      obtain ⟨lexemes, spaces, comment, isText, -, -, -, -, isShown⟩ :=
        fragments_divided builtins inLine scanned
      rw [line_scanned builtins scanned, isShown]
      by_cases isEmpty : text = ""
      · simp [isEmpty]
      · rw [if_neg isEmpty, ← String.toList_inj, String.toList_join, List.flatMap_map, shown,
          List.flatMap_append, List.flatMap_append, join_lexemes, join_fragment?, join_fragment?,
          isText]

theorem groupOf_builtin (builtins : List String) (token : Token) :
    groupOf builtins token = .builtin ↔ token.kind = .identifier ∧ token.text ∈ builtins := by
  obtain ⟨kind, text, position⟩ := token
  cases kind <;> simp [groupOf]

/-- A line is shown as it is, whatever names are built in. If it can be divided into tokens, a
fragment for each token shows just the characters the token is written with, in the style of the
token, and apart from these there are only spaces, without a style, and a comment at the end. The
style for what is built in is for the identifiers that name it. -/
theorem line_lexemes (builtins : List String) {text : String} (inLine : '\n' ∉ text.toList) :
    String.join ((line builtins text).map Fragment.text) = text ∧
    (∀ tokens, tokenize text = .ok tokens → ∃ lexemes spaces comment,
      text.toList = lexemes.flatMap Lexeme.text ++ (spaces ++ comment) ∧
      Divides lexemes (spaces ++ comment) ∧
      tokens = lexemes.map Lexeme.token ++ [.endOfInput (.behind text.toList)] ∧
      (∀ lexeme ∈ lexemes, lexeme.token.kind ≠ .endOfInput ∧
        ∀ c ∈ lexeme.gap, isSpace c = true) ∧
      (∀ c ∈ spaces, isSpace c = true) ∧ (comment = [] ∨ ['/', '/'] <+: comment) ∧
      line builtins text =
        if text = "" then [⟨.plain, ""⟩] else shown builtins lexemes spaces comment) ∧
    ∀ token, groupOf builtins token = .builtin ↔
      token.kind = .identifier ∧ token.text ∈ builtins := by
  refine ⟨join_line builtins inLine, fun tokens scanned => ?_, groupOf_builtin builtins⟩
  obtain ⟨lexemes, spaces, comment, isText, divides, areTokens, areSpaces, isComment, isShown⟩ :=
    fragments_divided builtins inLine scanned
  have isLine := line_scanned builtins scanned
  rw [isShown] at isLine
  refine ⟨lexemes, spaces, comment, isText, divides, areTokens, ?_, areSpaces, isComment, isLine⟩
  intro lexeme member
  obtain ⟨earlier, later, rfl⟩ := List.append_of_mem member
  have fits := divides earlier lexeme later rfl
  have gapInLine : '\n' ∉ lexeme.gap := fun member =>
    inLine (by simp [isText, Lexeme.text, member])
  exact ⟨fits.written.isSpelt.1, fits.blank.areSpaces gapInLine⟩

/-- With slashes and an escaped quote in a string, a separator between digits, a name that is built
in and a comment. -/
theorem line_lexemes_commented :
    let text := " lené=1_0 +len(\"\\\"//\")// é\""
    let fragments : List Fragment := [⟨.plain, " "⟩, ⟨.identifier, "lené"⟩, ⟨.operator, "="⟩,
      ⟨.number, "1_0"⟩, ⟨.plain, " "⟩, ⟨.operator, "+"⟩, ⟨.builtin, "len"⟩,
      ⟨.punctuation, "("⟩, ⟨.string, "\"\\\"//\""⟩, ⟨.punctuation, ")"⟩, ⟨.comment, "// é\""⟩]
    '\n' ∉ text.toList ∧ line ["len"] text = fragments ∧
      String.join (fragments.map Fragment.text) = text := by
  intro text fragments
  have inLine : '\n' ∉ text.toList := by decide
  have isLine : line ["len"] text = fragments := by decide +kernel
  have joined := (line_lexemes ["len"] inLine).1
  rw [isLine] at joined
  exact ⟨inLine, isLine, joined⟩

end Highlight

end Monkey
