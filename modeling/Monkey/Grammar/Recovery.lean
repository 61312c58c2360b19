import Monkey.Grammar.Reading

/-!
# Going on after a fault

A statement that cannot be read is skipped at the level it belongs to: inside a block up to the end
of the statement or of the block, and outside all blocks up to the end of the statement.
-/

set_option autoImplicit false

namespace Monkey

/-- The tokens after a faulty top-level statement: after the first semicolon outside all braces, or
after the brace that closes all that are open and a semicolon following it. -/
def skipStatement : List Token → Nat → List Token
  | [], _ => []
  | token :: rest, depth =>
      if token.kind = .endOfInput then token :: rest
      else
        let depth := token.kind.depthAfter depth
        if depth > 0 then skipStatement rest depth
        else if token.kind = .rightBrace then
          match rest with
          | next :: after => if next.kind = .semicolon then after else rest
          | [] => []
        else if token.kind = .semicolon then rest
        else skipStatement rest depth

/-- The tokens after a faulty statement of a block, and the open braces there: after the first
semicolon at the depth of the block, or at the brace that closes the block. -/
def skipInBlock (blockDepth : Nat) : List Token → Nat → List Token × Nat
  | [], depth => ([], depth)
  | token :: rest, depth =>
      if token.kind = .endOfInput ∨ token.kind = .rightBrace ∧ depth = blockDepth then
        (token :: rest, depth)
      else
        let depth := token.kind.depthAfter depth
        if token.kind = .semicolon ∧ depth = blockDepth then (rest, depth)
        else skipInBlock blockDepth rest depth

namespace Read

def resumeProgram : Read Unit := fun reading =>
  .ok () { reading with tokens := skipStatement reading.tokens reading.depth, depth := 0 }

def resumeBlock (blockDepth : Nat) : Read Unit := fun reading =>
  let (tokens, depth) := skipInBlock blockDepth reading.tokens reading.depth
  .ok () { reading with tokens, depth }

end Read

end Monkey
