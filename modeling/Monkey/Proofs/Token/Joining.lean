import Monkey.Proofs.Printing.Basic
import Monkey.Proofs.Token.Scanning

/-!
# Tokens of texts that are put together

What a scanner has found before has no influence on what it finds next, and no position has any
either: positions are carried along, and finished tokens are only added to. So the tokens of two
texts with a newline between them are those of the one and those of the other, in other places.
-/

set_option autoImplicit false

namespace Monkey

namespace Scanner

/-- Inside of the same, wherever that is. -/
inductive Mode.Same : Mode → Mode → Prop
  | between : Same .between .between
  | opened (first : Char) : Same (.opened first) (.opened first)
  | comment : Same .comment .comment
  | number (digits : List Char) : Same (.number digits) (.number digits)
  | word (letters : List Char) : Same (.word letters) (.word letters)
  | string (content : List Char) : Same (.string content) (.string content)
  | escape (content : List Char) (backslash backslash' : Position) :
      Same (.escape content backslash) (.escape content backslash')
  | failed (fault : LexicalFault) (position position' : Position) :
      Same (.failed fault position) (.failed fault position')

/-- The second scanner has found what the first has found after some other tokens, and is inside of
the same. -/
structure Follows (before : List Token) (first second : Scanner) : Prop where
  mode : first.mode.Same second.mode
  tokens : ∃ added, second.tokens = added ++ before ∧
    first.tokens.map Token.unplaced = added.map Token.unplaced

variable {before : List Token} {first second : Scanner}

section Steps

variable (tokens : ∃ added, second.tokens = added ++ before ∧
  first.tokens.map Token.unplaced = added.map Token.unplaced)
include tokens

theorem Follows.emit (kind : TokenKind) (text : String) :
    Follows before (first.emit kind text) (second.emit kind text) := by
  obtain ⟨added, isAdded, same⟩ := tokens
  refine ⟨.between, ⟨kind, text, second.start⟩ :: added, ?_, ?_⟩
  · rw [Scanner.emit, isAdded, List.cons_append]
  · rw [Scanner.emit, List.map_cons, List.map_cons, same]
    rfl

theorem Follows.emitChar (c : Char) : Follows before (first.emitChar c) (second.emitChar c) := by
  unfold Scanner.emitChar
  cases TokenKind.ofChar? c with
  | some kind => exact .emit tokens kind kind.spelling
  | none => exact ⟨.failed _ _ _, tokens⟩

theorem Follows.begin (c : Char) : Follows before (first.begin c) (second.begin c) := by
  unfold Scanner.begin
  split
  · exact ⟨.between, tokens⟩
  dsimp only
  split
  · exact ⟨.string [], tokens⟩
  split
  · exact ⟨.number [c], tokens⟩
  split
  · exact ⟨.word [c], tokens⟩
  split
  · exact ⟨.opened c, tokens⟩
  · refine Follows.emitChar ?_ c
    exact tokens

end Steps

theorem Follows.beginAfter (follows : Follows before first second) (c : Char) :
    Follows before (first.beginAfter c) (second.beginAfter c) := by
  have mode := follows.mode
  have begun := Follows.begin follows.tokens c
  unfold Scanner.beginAfter
  generalize first.mode = here, second.mode = there at mode
  cases mode with
  | failed fault position position' => exact follows
  | _ => exact begun

theorem Follows.read (follows : Follows before first second) (c : Char) :
    Follows before (first.read c) (second.read c) := by
  have mode := follows.mode
  have tokens := follows.tokens
  have begun := Follows.begin tokens c
  unfold Scanner.read
  generalize first.mode = here, second.mode = there at mode
  cases mode with
  | between => exact begun
  | opened opening =>
      dsimp only
      split
      · exact ⟨.comment, tokens⟩
      cases TokenKind.ofPair? opening c with
      | some kind => exact .emit tokens kind kind.spelling
      | none => exact (Follows.emitChar tokens opening).beginAfter c
  | comment =>
      dsimp only
      split
      · exact begun
      · exact follows
  | number digits =>
      dsimp only
      split
      · exact ⟨.number _, tokens⟩
      split
      · exact follows
      · exact .begin (Follows.emit tokens _ _).tokens c
  | word letters =>
      dsimp only
      split
      · exact ⟨.word _, tokens⟩
      · exact .begin (Follows.emit tokens _ _).tokens c
  | string content =>
      dsimp only
      split
      · exact .emit tokens _ _
      split
      · exact ⟨.escape _ _ _, tokens⟩
      · exact ⟨.string _, tokens⟩
  | escape content backslash backslash' =>
      dsimp only
      cases escaped? c with
      | some meant => exact ⟨.string _, tokens⟩
      | none => exact ⟨.failed _ _ _, tokens⟩
  | failed fault position position' => exact follows

theorem Follows.scan (follows : Follows before first second) (chars : List Char) :
    Follows before (first.scan chars) (second.scan chars) := by
  induction chars generalizing first second with
  | nil => exact follows
  | cons c rest ih =>
      obtain ⟨mode, tokens⟩ := follows.read c
      exact ih ⟨mode, tokens⟩

theorem Follows.close (follows : Follows before first second) :
    Follows before first.close second.close := by
  have mode := follows.mode
  have tokens := follows.tokens
  unfold Scanner.close
  generalize first.mode = here, second.mode = there at mode
  cases mode with
  | between | comment | failed => exact follows
  | opened opening => exact .emitChar tokens opening
  | number digits => exact .emit tokens _ _
  | word letters => exact .emit tokens _ _
  | string content => exact ⟨.failed _ _ _, tokens⟩
  | escape content backslash backslash' => exact ⟨.failed _ _ _, tokens⟩

theorem Follows.finish (follows : Follows before first second) {tokens : List Token}
    (finished : first.finish = .ok tokens) :
    ∃ tokens', second.finish = .ok (before.reverse ++ tokens') ∧
      tokens.map Token.unplaced = tokens'.map Token.unplaced := by
  have isFinished := finish_ok finished
  obtain ⟨mode, added, isAdded, same⟩ := follows.close
  refine ⟨added.reverse ++ [.endOfInput second.close.position], ?_, ?_⟩
  · unfold Scanner.finish at finished ⊢
    dsimp only at finished ⊢
    generalize first.close.mode = here, second.close.mode = there at mode finished
    cases mode with
    | failed fault position position' => cases finished
    | _ => simp [isAdded]
  · rw [isFinished, List.map_append, List.map_append, List.map_reverse, List.map_reverse, same]
    rfl

/-- A newline ends whatever token a text leaves open, as the end of the text does. -/
theorem read_newline {scanner : Scanner} {tokens : List Token}
    (finished : scanner.finish = .ok tokens) :
    (scanner.read '\n').mode = .between ∧ (scanner.read '\n').tokens = scanner.close.tokens := by
  unfold finish at finished
  unfold close at finished ⊢
  unfold read
  cases mode : scanner.mode with
  | between => simp [begin_newline]
  | comment => simp [begin_newline]
  | failed fault position => simp [mode] at finished
  | string content => simp [mode, fail] at finished
  | escape content backslash => simp [mode, fail] at finished
  | number digits =>
      dsimp only
      rw [if_neg (by decide), if_neg (by decide), begin_newline]
      exact ⟨rfl, rfl⟩
  | word letters =>
      dsimp only
      rw [if_neg (by decide), begin_newline]
      exact ⟨rfl, rfl⟩
  | opened opening =>
      have alone : TokenKind.ofPair? opening '\n' = none := by
        unfold TokenKind.ofPair?
        split <;> simp_all
      rw [mode] at finished
      dsimp only at finished ⊢
      rw [if_neg (by simp), alone]
      unfold emitChar at finished ⊢
      cases kind : TokenKind.ofChar? opening with
      | none =>
          rw [kind] at finished
          cases finished
      | some kind =>
          dsimp only [beginAfter, emit]
          rw [begin_newline]
          exact ⟨rfl, rfl⟩

end Scanner

/-- The tokens of two texts with a newline between them, in terms of those of each. -/
theorem tokenize_joined {first second : String} {tokens tokens' : List Token}
    (scanned : tokenize first = .ok tokens) (scanned' : tokenize second = .ok tokens') :
    ∃ placed, tokenize (first ++ "\n" ++ second) = .ok (tokens.dropLast ++ placed) ∧
      tokens'.map Token.unplaced = placed.map Token.unplaced := by
  obtain ⟨mode, found⟩ := Scanner.read_newline scanned
  have joined : (first ++ "\n" ++ second).toList = first.toList ++ '\n' :: second.toList := by
    simp
  have follows : Scanner.Follows (Scanner.initial.scan first.toList).close.tokens Scanner.initial
      ((Scanner.initial.scan first.toList).step '\n') := by
    refine ⟨?_, [], found, rfl⟩
    rw [show ((Scanner.initial.scan first.toList).step '\n').mode = .between from mode]
    exact .between
  obtain ⟨placed, isPlaced, same⟩ := (follows.scan second.toList).finish scanned'
  refine ⟨placed, ?_, same⟩
  rw [tokenize, joined, Scanner.scan_append, Scanner.scan_cons, isPlaced, Scanner.finish_ok scanned,
    List.dropLast_concat]

end Monkey
