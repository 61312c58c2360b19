import Monkey.Token.Scanner

/-!
# How tokens stand in a text

A text is its lexemes, one for each token, and blank text. A lexeme is the characters a token is
written with, and the blank text before them: spaces, and comments up to their newlines. How a token
may be written says nothing about how long it is, so a lexeme has to be as long as it can be where
it stands: no token is written with more of the text than that, and no comment begins there.
-/

set_option autoImplicit false

namespace Monkey

open Scanner

/-- Where a character stands that has this text before it. Lines and columns are counted from one,
and what comes after a newline is on the next line. -/
def Position.behind (text : List Char) : Position :=
  ⟨1 + text.count '\n', 1 + (text.reverse.takeWhile (· != '\n')).length⟩

theorem Position.behind_concat (text : List Char) (c : Char) :
    behind (text ++ [c]) = (behind text).next c := by
  by_cases isNewline : c = '\n'
  · simp [behind, next, isNewline, Nat.add_assoc]
  · simp [behind, next, isNewline, Nat.add_assoc]

theorem Position.behind_append (text more : List Char) :
    behind (text ++ more) = (behind text).after more := by
  induction more generalizing text with
  | nil => rw [List.append_nil, after_nil]
  | cons c rest ih => rw [List.append_cons, ih, behind_concat, after_cons]

/-- Text between two tokens. A newline ends every comment in it. -/
inductive Blank : List Char → Prop
  | nil : Blank []
  | space {text : List Char} {c : Char} (blank : Blank text) (isSpace : isSpace c = true) :
      Blank (text ++ [c])
  | comment {text body : List Char} (blank : Blank text) (inLine : '\n' ∉ body) :
      Blank (text ++ '/' :: '/' :: (body ++ ['\n']))

/-- Text behind the last token. The end of the text may end a comment, too. -/
inductive Trailing : List Char → Prop
  | blank {text : List Char} (blank : Blank text) : Trailing text
  | comment {text body : List Char} (blank : Blank text) (inLine : '\n' ∉ body) :
      Trailing (text ++ '/' :: '/' :: body)

/-- Between quotation marks, the body stands for the content. -/
inductive Decodes : (body content : List Char) → Prop
  | nil : Decodes [] []
  | plain {c : Char} {body content : List Char} (notQuote : c ≠ '"') (notBackslash : c ≠ '\\')
      (decodes : Decodes body content) : Decodes (c :: body) (c :: content)
  | escape {code meant : Char} {body content : List Char} (isMeant : escaped? code = some meant)
      (decodes : Decodes body content) : Decodes ('\\' :: code :: body) (meant :: content)

/-- A token of the kind and with the text is written with these characters. -/
inductive Written : TokenKind → String → List Char → Prop
  | integer {first : Char} {rest : List Char} (isFirst : isDigit first = true)
      (others : ∀ c ∈ rest, isDigit c = true ∨ c = '_') :
      Written .integer (String.ofList ((first :: rest).filter (· != '_'))) (first :: rest)
  | string {body content : List Char} (decodes : Decodes body content) :
      Written .string (String.ofList content) ('"' :: (body ++ ['"']))
  | word {first : Char} {rest : List Char} (isFirst : startsWord first = true)
      (others : ∀ c ∈ rest, continuesWord c = true) :
      Written (.ofWord (String.ofList (first :: rest))) (String.ofList (first :: rest))
        (first :: rest)
  | char {c : Char} {kind : TokenKind} (isKind : TokenKind.ofChar? c = some kind) :
      Written kind (String.ofList [c]) [c]
  | pair {first second : Char} {kind : TokenKind}
      (isKind : TokenKind.ofPair? first second = some kind) :
      Written kind (String.ofList [first, second]) [first, second]

/-- What begins with the characters goes no further than they do, whatever follows them. -/
structure Maximal (chars following : List Char) : Prop where
  longest : ∀ kind text longer, longer <+: chars ++ following → Written kind text longer →
    longer.length ≤ chars.length
  notComment : ¬['/', '/'] <+: chars ++ following

/-- A token, the characters it is written with and the blank text before them. -/
structure Lexeme where
  gap : List Char
  chars : List Char
  token : Token

namespace Lexeme

def text (lexeme : Lexeme) : List Char := lexeme.gap ++ lexeme.chars

/-- The lexeme stands right between two texts. -/
structure Fits (lexeme : Lexeme) (preceding following : List Char) : Prop where
  blank : Blank lexeme.gap
  written : Written lexeme.token.kind lexeme.token.text lexeme.chars
  maximal : Maximal lexeme.chars following
  position : lexeme.token.position = .behind (preceding ++ lexeme.gap)

end Lexeme

/-- Each of the lexemes stands right between those before it and those after it, which the last text
follows. -/
def Divides (lexemes : List Lexeme) (following : List Char) : Prop :=
  ∀ earlier lexeme later, lexemes = earlier ++ lexeme :: later →
    lexeme.Fits (earlier.flatMap Lexeme.text) (later.flatMap Lexeme.text ++ following)

theorem Divides.nil (following : List Char) : Divides [] following := by
  intro earlier lexeme later isSplit
  simp at isSplit

theorem Divides.concat {lexemes : List Lexeme} {lexeme : Lexeme} {following : List Char}
    (divides : Divides lexemes (lexeme.text ++ following))
    (fits : lexeme.Fits (lexemes.flatMap Lexeme.text) following) :
    Divides (lexemes ++ [lexeme]) following := by
  intro earlier here later isSplit
  rcases List.eq_nil_or_concat later with rfl | ⟨between, last, rfl⟩
  · obtain ⟨rfl, isHere⟩ := List.append_inj' isSplit rfl
    obtain rfl : lexeme = here := by simpa using isHere
    exact fits
  · rw [List.concat_eq_append] at isSplit ⊢
    rw [← List.cons_append, ← List.append_assoc] at isSplit
    obtain ⟨before, isLast⟩ := List.append_inj' isSplit rfl
    obtain rfl : lexeme = last := by simpa using isLast
    simpa using divides earlier here between before

/-! ## Strings -/

theorem Decodes.append {body body' content content' : List Char} (first : Decodes body content)
    (second : Decodes body' content') : Decodes (body ++ body') (content ++ content') := by
  induction first with
  | nil => exact second
  | plain notQuote notBackslash _ ih => exact .plain notQuote notBackslash ih
  | escape isMeant _ ih => exact .escape isMeant ih

/-- The first quotation mark that no backslash escapes is the closing one. -/
theorem Decodes.eq_of_closed {body body' content content' rest rest' : List Char}
    (decodes : Decodes body content) (decodes' : Decodes body' content')
    (same : body ++ '"' :: rest = body' ++ '"' :: rest') : body = body' := by
  induction decodes generalizing body' content' with
  | nil =>
      cases decodes' with
      | nil => rfl
      | plain notQuote => exact absurd (List.cons.inj same).1.symm notQuote
      | escape => exact absurd (List.cons.inj same).1 (by decide)
  | plain notQuote notBackslash _ ih =>
      cases decodes' with
      | nil => exact absurd (List.cons.inj same).1 notQuote
      | plain _ _ decodes' =>
          obtain ⟨rfl, sameRest⟩ := List.cons.inj same
          rw [ih decodes' sameRest]
      | escape => exact absurd (List.cons.inj same).1 notBackslash
  | escape _ _ ih =>
      cases decodes' with
      | nil => exact absurd (List.cons.inj same).1 (by decide)
      | plain _ notBackslash => exact absurd (List.cons.inj same).1.symm notBackslash
      | escape _ decodes' =>
          obtain ⟨rfl, sameRest⟩ := List.cons.inj (List.cons.inj same).2
          rw [ih decodes' sameRest]

/-! ## First characters

The first character of a token tells what it is: digits, letters, the quotation mark and the
characters of operators and punctuation are all different. -/

theorem Text.RangeTable.le_of_holds {low high code : Nat} {rest : RangeTable}
    (isIn : RangeTable.holds ((low, high) :: rest) code = true) : low ≤ code := by
  rw [holds, Bool.and_eq_true, decide_eq_true_eq] at isIn
  exact isIn.1

theorem le_of_isLetter {c : Char} (isLetter : Text.isLetter c = true) : 0x41 ≤ c.toNat :=
  Text.RangeTable.le_of_holds isLetter

theorem continuesWord_of_startsWord {c : Char} (starts : startsWord c = true) :
    continuesWord c = true := by
  rw [startsWord, Bool.or_eq_true] at starts
  rw [continuesWord, Text.isAlphanumeric, Bool.or_eq_true, Bool.or_eq_true]
  exact starts.imp_left .inl

theorem startsWord_of_isDigit {c : Char} (digit : isDigit c = true) : startsWord c = false := by
  have low : c.toNat ≤ 0x39 := by
    rw [isDigit, Bool.and_eq_true, decide_eq_true_eq, decide_eq_true_eq] at digit
    exact digit.2
  rw [startsWord, Bool.or_eq_false_iff, beq_eq_false_iff_ne]
  constructor
  · refine Bool.eq_false_iff.mpr fun isLetter => ?_
    have := le_of_isLetter isLetter
    omega
  · rintro rfl
    cases digit

/-- Neither a number nor a word nor a string begins with the character. -/
structure IsSign (c : Char) : Prop where
  notDigit : isDigit c = false
  notWord : startsWord c = false
  notQuote : c ≠ '"'

theorem IsSign.of_char {c : Char} {kind : TokenKind} (isKind : TokenKind.ofChar? c = some kind) :
    IsSign c := by
  unfold TokenKind.ofChar? at isKind
  split at isKind <;> cases isKind <;> exact ⟨rfl, rfl, by decide⟩

theorem IsSign.of_pair {first second : Char} {kind : TokenKind}
    (isKind : TokenKind.ofPair? first second = some kind) : IsSign first := by
  unfold TokenKind.ofPair? at isKind
  split at isKind <;> cases isKind <;> exact ⟨rfl, rfl, by decide⟩

namespace Written

variable {kind : TokenKind} {text : String} {first : Char} {rest : List Char}

theorem of_digit (written : Written kind text (first :: rest)) (isFirst : isDigit first = true) :
    ∀ c ∈ rest, isDigit c = true ∨ c = '_' := by
  cases written with
  | integer _ others => exact others
  | string => cases isFirst
  | word isWord =>
      rw [startsWord_of_isDigit isFirst] at isWord
      cases isWord
  | char isKind => exact fun _ member => absurd member List.not_mem_nil
  | pair isKind =>
      rw [(IsSign.of_pair isKind).notDigit] at isFirst
      cases isFirst

theorem of_letter (written : Written kind text (first :: rest))
    (isFirst : startsWord first = true) : ∀ c ∈ rest, continuesWord c = true := by
  cases written with
  | integer isDigit =>
      rw [startsWord_of_isDigit isDigit] at isFirst
      cases isFirst
  | string => cases isFirst
  | word _ others => exact others
  | char isKind => exact fun _ member => absurd member List.not_mem_nil
  | pair isKind =>
      rw [(IsSign.of_pair isKind).notWord] at isFirst
      cases isFirst

theorem of_quote (written : Written kind text ('"' :: rest)) :
    ∃ body content, Decodes body content ∧ rest = body ++ ['"'] := by
  cases written with
  | integer isDigit => cases isDigit
  | string decodes => exact ⟨_, _, decodes, rfl⟩
  | word isWord => cases isWord
  | char isKind => cases isKind
  | pair isKind => exact absurd rfl (IsSign.of_pair isKind).notQuote

theorem of_sign (written : Written kind text (first :: rest)) (isSign : IsSign first) :
    rest = [] ∨ ∃ second, rest = [second] ∧ TokenKind.ofPair? first second = some kind := by
  cases written with
  | integer isDigit =>
      rw [isSign.notDigit] at isDigit
      cases isDigit
  | string => exact absurd rfl isSign.notQuote
  | word isWord =>
      rw [isSign.notWord] at isWord
      cases isWord
  | char => exact .inl rfl
  | pair isKind => exact .inr ⟨_, rfl, isKind⟩

theorem ne_nil {chars : List Char} (written : Written kind text chars) : chars ≠ [] := by
  cases written <;> exact nofun

end Written

/-! ## Maximal munch -/

/-- A run of characters of a class ends with the class. -/
theorem length_le_of_run {inClass : Char → Prop} {run chars following : List Char}
    (isPrefix : run <+: chars ++ following) (inside : ∀ c ∈ run, inClass c)
    (outside : ∀ c, following.head? = some c → ¬inClass c) : run.length ≤ chars.length := by
  rcases List.prefix_or_prefix_of_prefix isPrefix (List.prefix_append chars following) with
    within | ⟨more, rfl⟩
  · exact within.length_le
  · have further := (List.prefix_append_right_inj chars).mp isPrefix
    cases more with
    | nil => simp
    | cons c more =>
        obtain ⟨rest, rfl⟩ := further
        exact absurd (inside c (by simp)) (outside c rfl)

namespace Maximal

/-- A character that begins no comment is followed by no more than there is. -/
theorem of_cons {first : Char} {rest following : List Char} (notSlash : first ≠ '/')
    (longest : ∀ kind text more, more <+: rest ++ following → Written kind text (first :: more) →
      more.length ≤ rest.length) : Maximal (first :: rest) following where
  longest kind text longer isPrefix written := by
    cases longer with
    | nil => exact absurd rfl written.ne_nil
    | cons c more =>
        obtain ⟨rfl, further⟩ := List.cons_prefix_cons.mp isPrefix
        exact Nat.succ_le_succ (longest kind text more further written)
  notComment isPrefix := notSlash (List.cons_prefix_cons.mp isPrefix).1.symm

theorem integer {first : Char} {rest following : List Char} (isFirst : isDigit first = true)
    (ends : ∀ c, following.head? = some c → isDigit c = false ∧ c ≠ '_') :
    Maximal (first :: rest) following := by
  have notSlash : first ≠ '/' := by
    rintro rfl
    cases isFirst
  refine .of_cons notSlash fun kind text more isPrefix written => ?_
  refine length_le_of_run isPrefix (written.of_digit isFirst) fun c isHead inClass => ?_
  obtain ⟨notDigit, notSeparator⟩ := ends c isHead
  rcases inClass with isDigit | isSeparator
  · rw [notDigit] at isDigit
    cases isDigit
  · exact notSeparator isSeparator

theorem word {first : Char} {rest following : List Char} (isFirst : startsWord first = true)
    (ends : ∀ c, following.head? = some c → continuesWord c = false) :
    Maximal (first :: rest) following := by
  have notSlash : first ≠ '/' := by
    rintro rfl
    cases isFirst
  refine .of_cons notSlash fun kind text more isPrefix written => ?_
  refine length_le_of_run isPrefix (written.of_letter isFirst) fun c isHead inClass => ?_
  rw [ends c isHead] at inClass
  cases inClass

/-- A string ends where it is closed. -/
theorem string {body content : List Char} (decodes : Decodes body content)
    (following : List Char) : Maximal ('"' :: (body ++ ['"'])) following := by
  refine .of_cons (by decide) fun kind text more isPrefix written => ?_
  obtain ⟨body', content', decodes', rfl⟩ := written.of_quote
  obtain ⟨rest, same⟩ := isPrefix
  obtain rfl : body' = body := decodes'.eq_of_closed decodes (by simpa using same)
  exact Nat.le_refl _

theorem char {c : Char} {kind : TokenKind} {following : List Char}
    (isKind : TokenKind.ofChar? c = some kind)
    (ends : ∀ next, following.head? = some next →
      ¬(c = '/' ∧ next = '/') ∧ TokenKind.ofPair? c next = none) : Maximal [c] following where
  longest kind' text longer isPrefix written := by
    cases longer with
    | nil => exact absurd rfl written.ne_nil
    | cons first rest =>
        obtain ⟨rfl, further⟩ := List.cons_prefix_cons.mp isPrefix
        rcases written.of_sign (.of_char isKind) with rfl | ⟨second, rfl, isPair⟩
        · exact Nat.le_refl 1
        · obtain ⟨rest, rfl⟩ : [second] <+: following := further
          rw [(ends second rfl).2] at isPair
          cases isPair
  notComment isPrefix := by
    obtain ⟨isSlash, rest, rfl⟩ := List.cons_prefix_cons.mp isPrefix
    exact (ends '/' rfl).1 ⟨isSlash.symm, rfl⟩

theorem pair {first second : Char} {kind : TokenKind}
    (isKind : TokenKind.ofPair? first second = some kind) (following : List Char) :
    Maximal [first, second] following := by
  have notSlash : first ≠ '/' := by
    rintro rfl
    cases isKind
  refine .of_cons notSlash fun kind' text more isPrefix written => ?_
  rcases written.of_sign (.of_pair isKind) with rfl | ⟨last, rfl, _⟩ <;> simp

end Maximal

end Monkey
