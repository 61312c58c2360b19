import Monkey.Token

/-!
# Brackets

Brackets are nested if each opening one is closed by one of its own kind, with nothing but nested
brackets between the two. Going through the tokens one by one, this is to say that every closing
bracket is the one that the last bracket still open asks for, and that none is open at the end.
-/

set_option autoImplicit false

namespace Monkey

/-- The bracket that closes an opening one. -/
def TokenKind.closer? : TokenKind → Option TokenKind
  | leftParen => some rightParen
  | leftBracket => some rightBracket
  | leftBrace | hashBrace => some rightBrace
  | _ => none

def TokenKind.isCloser : TokenKind → Bool
  | rightParen | rightBracket | rightBrace => true
  | _ => false

/-- The token neither opens nor closes a bracket. -/
def TokenKind.NoBracket (kind : TokenKind) : Prop := kind.closer? = none ∧ kind.isCloser = false

/-- The brackets among the tokens are nested and matched by their kinds. -/
inductive WellBracketed : List Token → Prop
  | nil : WellBracketed []
  | other {token : Token} {rest : List Token} (noBracket : token.kind.NoBracket)
      (after : WellBracketed rest) : WellBracketed (token :: rest)
  | enclosed {opening closing : Token} {inside rest : List Token}
      (closes : opening.kind.closer? = some closing.kind) (within : WellBracketed inside)
      (after : WellBracketed rest) : WellBracketed (opening :: (inside ++ closing :: rest))

/-- The closing brackets still wanted after a token, the next one first, if these were wanted before
it. There are none after a closing bracket that is not wanted there. -/
def TokenKind.pendingAfter? (kind : TokenKind) (pending : List TokenKind) :
    Option (List TokenKind) :=
  match kind.closer?, kind.isCloser, pending with
  | some closer, _, pending => some (closer :: pending)
  | none, false, pending => some pending
  | none, true, [] => none
  | none, true, wanted :: outer => if wanted = kind then some outer else none

def pendingAfter? : List Token → List TokenKind → Option (List TokenKind)
  | [], pending => some pending
  | token :: rest, pending => (token.kind.pendingAfter? pending).bind (pendingAfter? rest)

@[simp] theorem pendingAfter?_nil (pending : List TokenKind) :
    pendingAfter? [] pending = some pending := rfl

@[simp] theorem pendingAfter?_cons (token : Token) (rest : List Token)
    (pending : List TokenKind) :
    pendingAfter? (token :: rest) pending =
      (token.kind.pendingAfter? pending).bind (pendingAfter? rest) := rfl

theorem pendingAfter?_append (leading trailing : List Token) (pending : List TokenKind) :
    pendingAfter? (leading ++ trailing) pending =
      (pendingAfter? leading pending).bind (pendingAfter? trailing) := by
  induction leading generalizing pending with
  | nil => rfl
  | cons token rest ih =>
      cases step : token.kind.pendingAfter? pending with
      | none => simp [step]
      | some next => simp [step, ih]

namespace TokenKind

variable {kind closer : TokenKind} {pending : List TokenKind}

theorem pendingAfter?_opening (opens : kind.closer? = some closer) :
    kind.pendingAfter? pending = some (closer :: pending) := by
  simp only [pendingAfter?, opens]

theorem pendingAfter?_closing (closes : kind.isCloser = true) :
    kind.pendingAfter? (kind :: pending) = some pending := by
  cases kind <;> first | rfl | cases closes

theorem pendingAfter?_other (noBracket : kind.NoBracket) :
    kind.pendingAfter? pending = some pending := by
  simp only [pendingAfter?, noBracket.1, noBracket.2]

theorem isCloser_of_closer? (opens : kind.closer? = some closer) : closer.isCloser = true := by
  cases kind <;> cases opens <;> rfl

/-- A token opens a bracket, closes the one that is wanted, or is no bracket. -/
theorem pendingAfter?_cases {next : List TokenKind}
    (step : kind.pendingAfter? pending = some next) :
    (∃ closer, kind.closer? = some closer ∧ next = closer :: pending) ∨
      (kind.isCloser = true ∧ pending = kind :: next) ∨
      (kind.NoBracket ∧ next = pending) := by
  unfold pendingAfter? at step
  split at step
  next opens =>
    cases step
    exact .inl ⟨_, opens, rfl⟩
  next noOpener noCloser =>
    cases step
    exact .inr (.inr ⟨⟨noOpener, noCloser⟩, rfl⟩)
  next => cases step
  next wanted outer closes =>
    split at step
    next isWanted =>
      cases step
      exact .inr (.inl ⟨closes, by rw [isWanted]⟩)
    next => cases step

end TokenKind

theorem WellBracketed.pendingAfter? {tokens : List Token} (nested : WellBracketed tokens)
    (pending : List TokenKind) : Monkey.pendingAfter? tokens pending = some pending := by
  induction nested generalizing pending with
  | nil => rfl
  | other noBracket _ ih =>
      rw [pendingAfter?_cons, TokenKind.pendingAfter?_other noBracket]
      exact ih pending
  | enclosed closes _ _ inside after =>
      have isCloser := TokenKind.isCloser_of_closer? closes
      rw [pendingAfter?_cons, TokenKind.pendingAfter?_opening closes, Option.bind_some,
        pendingAfter?_append, inside, Option.bind_some, pendingAfter?_cons,
        TokenKind.pendingAfter?_closing isCloser]
      exact after pending

/-- The tokens close the brackets that are wanted, in their order, and all that they open. -/
def Unwinds : List TokenKind → List Token → Prop
  | [], tokens => WellBracketed tokens
  | wanted :: outer, tokens =>
      ∃ inside closing rest, tokens = inside ++ closing :: rest ∧ WellBracketed inside ∧
        closing.kind = wanted ∧ Unwinds outer rest

namespace Unwinds

variable {pending : List TokenKind} {token : Token} {tokens : List Token}

theorem other (noBracket : token.kind.NoBracket) (unwinds : Unwinds pending tokens) :
    Unwinds pending (token :: tokens) := by
  cases pending with
  | nil => exact .other noBracket unwinds
  | cons wanted outer =>
      obtain ⟨inside, closing, rest, rfl, nested, isWanted, outside⟩ := unwinds
      exact ⟨token :: inside, closing, rest, rfl, .other noBracket nested, isWanted, outside⟩

theorem opening {closer : TokenKind} (opens : token.kind.closer? = some closer)
    (unwinds : Unwinds (closer :: pending) tokens) : Unwinds pending (token :: tokens) := by
  obtain ⟨inside, closing, rest, rfl, nested, rfl, outside⟩ := unwinds
  cases pending with
  | nil => exact .enclosed opens nested outside
  | cons wanted outer =>
      obtain ⟨between, last, after, rfl, nestedAfter, isWanted, outside⟩ := outside
      refine ⟨token :: (inside ++ closing :: between), last, after, ?_,
        .enclosed opens nested nestedAfter, isWanted, outside⟩
      simp

theorem of_pending (closed : pendingAfter? tokens pending = some []) : Unwinds pending tokens := by
  induction tokens generalizing pending with
  | nil =>
      cases closed
      exact .nil
  | cons token rest ih =>
      obtain ⟨next, step, remaining⟩ := Option.bind_eq_some_iff.mp closed
      rcases TokenKind.pendingAfter?_cases step with
        ⟨closer, opens, rfl⟩ | ⟨-, rfl⟩ | ⟨noBracket, rfl⟩
      · exact opening opens (ih remaining)
      · exact ⟨[], token, rest, rfl, .nil, rfl, ih remaining⟩
      · exact other noBracket (ih remaining)

end Unwinds

theorem wellBracketed_iff (tokens : List Token) :
    WellBracketed tokens ↔ pendingAfter? tokens [] = some [] :=
  ⟨fun nested => nested.pendingAfter? [], fun closed => Unwinds.of_pending closed⟩

end Monkey
