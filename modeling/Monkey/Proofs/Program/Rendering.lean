import Monkey.Proofs.Program.Leaves
import Monkey.Proofs.Program.Placement
import Monkey.Proofs.Text.Quoted
import Monkey.Proofs.Token.Division

/-!
# The rendered tree shows the program

The s-expression of a program leaves out positions and the kinds of tokens, and nothing else that
cannot be found again. Names, numbers and operators go on to the next space or closing parenthesis,
and a string is delimited by its quotes, so the text of a tree tells where the tree ends and how it
was put together; the first characters of a token tell its kind.
-/

set_option autoImplicit false

namespace Monkey

open Scanner Text

/-! ## Trees without positions -/

mutual

def Tree.unplaced : Tree → Tree
  | .leaf token => .leaf token.unplaced
  | .node label _ children => .node label .unknown (Tree.unplacedAll children)

def Tree.unplacedAll : List Tree → List Tree
  | [] => []
  | tree :: rest => tree.unplaced :: Tree.unplacedAll rest

end

mutual

/-- The text does not depend on positions. -/
theorem Tree.render_unplaced : ∀ tree : Tree, tree.unplaced.render = tree.render
  | .leaf token => rfl
  | .node label _ children => by
      rw [unplaced, render, Tree.renderAll_unplaced children, render]

theorem Tree.renderAll_unplaced :
    ∀ trees : List Tree, Tree.renderAll (Tree.unplacedAll trees) = Tree.renderAll trees
  | [] => rfl
  | tree :: rest => by
      rw [Tree.unplacedAll, Tree.renderAll, tree.render_unplaced, Tree.renderAll_unplaced rest,
        Tree.renderAll]

end

/-! ## Words of a rendered tree -/

/-- The characters that nothing contains but quoted text, and that begin and end all else. -/
def delimiters : List Char := [' ', '(', ')', '\'', '"']

def IsWordChar (c : Char) : Prop := c ∉ delimiters

/-- The text is at its end, or begins with what comes after a word. -/
def Parted (rest : List Char) : Prop := ∀ c, rest.head? = some c → ¬ IsWordChar c

theorem parted_nil : Parted [] := nofun

theorem parted_close (rest : List Char) : Parted (')' :: rest) := by
  rintro c ⟨⟩ isWordChar
  exact isWordChar (by decide)

/-- A word ends where the text is parted. -/
theorem word_append_inj {word word' rest rest' : List Char} (inside : ∀ c ∈ word, IsWordChar c)
    (inside' : ∀ c ∈ word', IsWordChar c) (parted : Parted rest) (parted' : Parted rest')
    (same : word ++ rest = word' ++ rest') : word = word' ∧ rest = rest' := by
  have atMost := length_le_of_run (same ▸ List.prefix_append word rest) inside parted'
  have atLeast := length_le_of_run (same ▸ List.prefix_append word' rest') inside' parted
  exact List.append_inj same (Nat.le_antisymm atMost atLeast)

/-- A test that all delimiters fail is passed by characters of words only. -/
theorem isWordChar_of_test {test : Char → Bool} (fails : delimiters.any test = false) {c : Char}
    (passes : test c = true) : IsWordChar c := by
  intro member
  exact Bool.eq_false_iff.mp fails (List.any_eq_true.mpr ⟨c, member, passes⟩)

theorem Label.isWordChar_name (label : Label) : ∀ c ∈ label.name.toList, IsWordChar c := by
  have fails : delimiters.any label.name.toList.contains = false := by cases label <;> decide
  exact fun c member => isWordChar_of_test fails (List.contains_iff_mem.mpr member)

theorem Label.name_inj {label label' : Label} (same : label.name = label'.name) :
    label = label' := by
  revert same
  cases label <;> cases label' <;> decide

/-! ## Kinds and texts of tokens -/

/-- The kind of the token, other than a string, that is shown by the characters. -/
def TokenKind.ofShown? : List Char → Option TokenKind
  | [] => none
  | first :: rest =>
      if isDigit first then some .integer
      else if startsWord first then some (.ofWord (String.ofList (first :: rest)))
      else
        match rest with
        | [] => ofChar? first
        | [second] => ofPair? first second
        | _ => none

/-- The text of a token tells its kind, if it is no string. -/
theorem Written.ofShown? {kind : TokenKind} {text : String} {chars : List Char}
    (written : Written kind text chars) (notString : kind ≠ .string) :
    TokenKind.ofShown? text.toList = some kind := by
  cases written with
  | @integer first rest isFirst =>
      have notSeparator : first ≠ '_' := by
        rintro rfl
        cases isFirst
      simp [TokenKind.ofShown?, notSeparator, isFirst]
  | string => exact absurd rfl notString
  | word isFirst =>
      have notDigit := Bool.eq_false_iff.mpr fun isDigit =>
        absurd isFirst (Bool.eq_false_iff.mp (startsWord_of_isDigit isDigit))
      simp [TokenKind.ofShown?, notDigit, isFirst]
  | char isKind =>
      have isSign := IsSign.of_char isKind
      simp [TokenKind.ofShown?, isSign.notDigit, isSign.notWord, isKind]
  | pair isKind =>
      have isSign := IsSign.of_pair isKind
      simp [TokenKind.ofShown?, isSign.notDigit, isSign.notWord, isKind]

theorem isWordChar_of_isDigit {c : Char} (digit : isDigit c = true) : IsWordChar c :=
  isWordChar_of_test (by decide) digit

theorem isWordChar_of_continuesWord {c : Char} (continues : continuesWord c = true) :
    IsWordChar c :=
  isWordChar_of_test (by decide) continues

theorem isWordChar_of_ofChar? {c : Char} {kind : TokenKind}
    (isKind : TokenKind.ofChar? c = some kind) (isKept : kind.isKept = true) : IsWordChar c := by
  have fails :
      delimiters.any (fun c => (TokenKind.ofChar? c).any TokenKind.isKept) = false := by decide
  refine isWordChar_of_test fails ?_
  rw [isKind]
  exact isKept

theorem isWordChar_of_ofPair? {first second : Char} {kind : TokenKind}
    (isKind : TokenKind.ofPair? first second = some kind) :
    IsWordChar first ∧ IsWordChar second := by
  unfold IsWordChar
  unfold TokenKind.ofPair? at isKind
  split at isKind <;> cases isKind <;> decide

/-- What is no string and kept by trees has the text of a word. -/
theorem Written.isWord {kind : TokenKind} {text : String} {chars : List Char}
    (written : Written kind text chars) (notString : kind ≠ .string) (isKept : kind.isKept = true) :
    text.toList ≠ [] ∧ ∀ c ∈ text.toList, IsWordChar c := by
  cases written with
  | @integer first rest isFirst others =>
      have notSeparator : first ≠ '_' := by
        rintro rfl
        cases isFirst
      have inside : ∀ c ∈ rest, c ≠ '_' → IsWordChar c := fun c member notSeparator =>
        isWordChar_of_isDigit ((others c member).resolve_right notSeparator)
      simpa [notSeparator, isWordChar_of_isDigit isFirst] using inside
  | string => exact absurd rfl notString
  | word isFirst others =>
      have first := isWordChar_of_continuesWord (continuesWord_of_startsWord isFirst)
      simpa [first] using fun c member => isWordChar_of_continuesWord (others c member)
  | char isKind => simpa using isWordChar_of_ofChar? isKind isKept
  | pair isKind => simpa using isWordChar_of_ofPair? isKind

/-! ## Leaves -/

theorem not_isWordChar_of_isMark {mark : Char} (isMark : IsMark mark) : ¬ IsWordChar mark := by
  unfold IsWordChar
  rcases isMark with rfl | rfl <;> decide

/-- The token can be shown in a tree so that it can be read: trees keep it, and it is written in
some way. -/
structure Token.IsLegible (token : Token) : Prop where
  isKept : token.kind.isKept = true
  isWritten : ∃ chars, Written token.kind token.text chars

namespace Token.IsLegible

variable {token other : Token} {rest rest' : List Char}

theorem isWord (legible : token.IsLegible) (notString : token.kind ≠ .string) :
    token.text.toList ≠ [] ∧ ∀ c ∈ token.text.toList, IsWordChar c := by
  obtain ⟨chars, written⟩ := legible.isWritten
  exact written.isWord notString legible.isKept

theorem ofShown? (legible : token.IsLegible) (notString : token.kind ≠ .string) :
    TokenKind.ofShown? token.text.toList = some token.kind := by
  obtain ⟨chars, written⟩ := legible.isWritten
  exact written.ofShown? notString

/-- A string begins with its opening quote, and what is no string with a character of a word. -/
theorem begins (legible : token.IsLegible) :
    ∃ first more, (Tree.leaf token).render.toList = first :: more ∧
      (token.kind = .string ∧ IsMark first ∨ token.kind ≠ .string ∧ IsWordChar first) := by
  by_cases isString : token.kind = .string
  · have shown : (Tree.leaf token).render = quote token.text := if_pos isString
    rw [shown, quote, String.toList_ofList]
    exact ⟨_, _, rfl, .inl ⟨isString, isMark_quoteMark _⟩⟩
  · obtain ⟨notEmpty, inside⟩ := legible.isWord isString
    obtain ⟨first, more, isText⟩ := List.exists_cons_of_ne_nil notEmpty
    have shown : (Tree.leaf token).render = token.text := if_neg isString
    rw [shown, isText]
    rw [isText] at inside
    exact ⟨_, _, rfl, .inr ⟨isString, inside first List.mem_cons_self⟩⟩

theorem append_inj (legible : token.IsLegible) (legible' : other.IsLegible) (parted : Parted rest)
    (parted' : Parted rest')
    (same : (Tree.leaf token).render.toList ++ rest = (Tree.leaf other).render.toList ++ rest') :
    token.unplaced = other.unplaced ∧ rest = rest' := by
  obtain ⟨first, more, isFirst, kind⟩ := legible.begins
  obtain ⟨first', more', isFirst', kind'⟩ := legible'.begins
  obtain rfl : first = first' := by
    rw [isFirst, isFirst'] at same
    exact (List.cons.inj same).1
  rcases kind with ⟨isString, isMark⟩ | ⟨notString, inWord⟩ <;>
    rcases kind' with ⟨isString', isMark'⟩ | ⟨notString', inWord'⟩
  · rw [Tree.render, Tree.render, if_pos isString, if_pos isString'] at same
    obtain ⟨sameText, rfl⟩ := quote_append_inj same
    exact ⟨(unplaced_eq_iff _ _).mpr ⟨isString.trans isString'.symm, sameText⟩, rfl⟩
  · exact absurd inWord' (not_isWordChar_of_isMark isMark)
  · exact absurd inWord (not_isWordChar_of_isMark isMark')
  · rw [Tree.render, Tree.render, if_neg notString, if_neg notString'] at same
    obtain ⟨sameText, rfl⟩ := word_append_inj (legible.isWord notString).2
      (legible'.isWord notString').2 parted parted' same
    have kinds := legible.ofShown? notString
    rw [sameText, legible'.ofShown? notString'] at kinds
    exact ⟨(unplaced_eq_iff _ _).mpr
      ⟨(Option.some.inj kinds).symm, String.toList_inj.mp sameText⟩, rfl⟩

end Token.IsLegible

/-! ## Trees -/

/-- A node begins with a parenthesis, which no leaf does. -/
theorem Token.IsLegible.ne_node {token : Token} (legible : token.IsLegible) (label : Label)
    (position : Position) (children : List Tree) (rest rest' : List Char) :
    (Tree.leaf token).render.toList ++ rest ≠
      (Tree.node label position children).render.toList ++ rest' := by
  intro same
  obtain ⟨first, more, isFirst, kind⟩ := legible.begins
  rw [isFirst, Tree.render, String.toList_append, String.toList_append,
    String.toList_append] at same
  obtain rfl : first = '(' := (List.cons.inj same).1
  rcases kind with ⟨-, isMark⟩ | ⟨-, inWord⟩
  · rcases isMark with isQuote | isQuote <;> cases isQuote
  · exact inWord (by decide)

def Tree.IsLegible (tree : Tree) : Prop := ∀ token ∈ tree.leaves, token.IsLegible

theorem Tree.toList_render_node (label : Label) (position : Position) (children : List Tree)
    (rest : List Char) :
    (Tree.node label position children).render.toList ++ rest =
      '(' :: (label.name.toList ++ ((renderAll children).toList ++ ')' :: rest)) := by
  simp [render, String.toList_append]

theorem Tree.toList_renderAll_cons (tree : Tree) (trees : List Tree) (rest : List Char) :
    (renderAll (tree :: trees)).toList ++ rest =
      ' ' :: (tree.render.toList ++ ((renderAll trees).toList ++ rest)) := by
  simp [renderAll, String.toList_append]

theorem Tree.parted_renderAll (trees : List Tree) (rest : List Char) :
    Parted ((renderAll trees).toList ++ ')' :: rest) := by
  cases trees with
  | nil => exact parted_close rest
  | cons tree trees =>
      rw [toList_renderAll_cons]
      rintro c ⟨⟩ inWord
      exact inWord (by decide)

mutual

/-- Where trees end can be told from the text that begins with them, and what they are but for
positions. -/
theorem Tree.render_append_inj : ∀ (tree other : Tree) {rest rest' : List Char},
    tree.IsLegible → other.IsLegible → Parted rest → Parted rest' →
    tree.render.toList ++ rest = other.render.toList ++ rest' →
    tree.unplaced = other.unplaced ∧ rest = rest'
  | .leaf token, .leaf other, _, _, legible, legible', parted, parted', same => by
      obtain ⟨sameToken, sameRest⟩ := (legible token List.mem_cons_self).append_inj
        (legible' other List.mem_cons_self) parted parted' same
      exact ⟨congrArg Tree.leaf sameToken, sameRest⟩
  | .leaf token, .node .., _, _, legible, _, _, _, same =>
      absurd same ((legible token List.mem_cons_self).ne_node _ _ _ _ _)
  | .node .., .leaf other, _, _, _, legible', _, _, same =>
      absurd same.symm ((legible' other List.mem_cons_self).ne_node _ _ _ _ _)
  | .node label _ children, .node label' _ others, rest, rest', legible, legible', _, _, same => by
      rw [Tree.toList_render_node, Tree.toList_render_node] at same
      obtain ⟨sameName, sameChildren⟩ := word_append_inj label.isWordChar_name
        label'.isWordChar_name (Tree.parted_renderAll children rest)
        (Tree.parted_renderAll others rest') (List.cons.inj same).2
      obtain rfl := Label.name_inj (String.toList_inj.mp sameName)
      obtain ⟨sameTrees, sameRest⟩ :=
        Tree.renderAll_append_inj children others legible legible' sameChildren
      exact ⟨congrArg (Tree.node label .unknown) sameTrees, sameRest⟩

theorem Tree.renderAll_append_inj : ∀ (trees others : List Tree) {rest rest' : List Char},
    (∀ token ∈ Tree.leavesAll trees, token.IsLegible) →
    (∀ token ∈ Tree.leavesAll others, token.IsLegible) →
    (Tree.renderAll trees).toList ++ ')' :: rest = (Tree.renderAll others).toList ++ ')' :: rest' →
    Tree.unplacedAll trees = Tree.unplacedAll others ∧ rest = rest'
  | [], [], _, _, _, _, same => ⟨rfl, (List.cons.inj same).2⟩
  | [], other :: others, rest, rest', _, _, same => by
      rw [Tree.toList_renderAll_cons] at same
      exact absurd (List.cons.inj same).1 (by decide)
  | tree :: trees, [], rest, rest', _, _, same => by
      rw [Tree.toList_renderAll_cons] at same
      exact absurd (List.cons.inj same).1 (by decide)
  | tree :: trees, other :: others, rest, rest', legible, legible', same => by
      rw [Tree.toList_renderAll_cons, Tree.toList_renderAll_cons] at same
      obtain ⟨first, later⟩ := List.forall_mem_append.mp legible
      obtain ⟨first', later'⟩ := List.forall_mem_append.mp legible'
      obtain ⟨sameTree, sameOthers⟩ := Tree.render_append_inj tree other first first'
        (Tree.parted_renderAll trees rest) (Tree.parted_renderAll others rest')
        (List.cons.inj same).2
      obtain ⟨sameTrees, sameRest⟩ := Tree.renderAll_append_inj trees others later later' sameOthers
      exact ⟨congrArg₂ List.cons sameTree sameTrees, sameRest⟩

end

/-- Legible trees are shown alike just if they differ in nothing but positions. -/
theorem Tree.render_eq_iff {tree other : Tree} (legible : tree.IsLegible)
    (legible' : other.IsLegible) :
    tree.render = other.render ↔ tree.unplaced = other.unplaced := by
  constructor
  · intro same
    have shown : tree.render.toList ++ [] = other.render.toList ++ [] := by rw [same]
    exact (tree.render_append_inj other legible legible' parted_nil parted_nil shown).1
  · intro same
    rw [← tree.render_unplaced, same, other.render_unplaced]

/-! ## Programs -/

theorem tokenize_written {source : String} {tokens : List Token}
    (scanned : tokenize source = .ok tokens) :
    ∀ token ∈ tokens, token.kind.isKept = true → ∃ chars, Written token.kind token.text chars := by
  obtain ⟨_, _, found, -, -, covers, rfl⟩ := tokenize_covers scanned
  intro token member isKept
  rcases List.mem_append.mp member with inside | ending
  · exact covers.written token (List.mem_reverse.mp inside)
  · rw [List.mem_singleton.mp ending] at isKept
    cases isKept

/-- Every leaf of a program is a token of the source it was read from. -/
theorem Program.isLegible_of_ofSource {limit : Nat} {source : String} {parsed : Parsed}
    (read : ofSource source limit = .ok parsed) : parsed.program.tree.IsLegible := by
  unfold ofSource at read
  split at read
  · cases read
    exact fun _ member => absurd member List.not_mem_nil
  · next tokens scanned =>
    intro token member
    have isKept := (leaves_isLeaf (wellFormed_of_ofTokens read) token member).isKept
    have inTokens : token ∈ tokens :=
      (List.takeWhile_sublist _).subset ((ofTokens_kept read).1.subset member)
    exact ⟨isKept, tokenize_written scanned token inTokens isKept⟩

/-- Rendering identifies the tree. The trees of two sources, faulty ones too, are rendered alike
just if they have the same labels, children, kinds and texts of tokens everywhere. -/
theorem Program.ofSource_render {limit : Nat} {source source' : String}
    {parsed parsed' : Parsed}
    (read : ofSource source limit = .ok parsed) (read' : ofSource source' limit = .ok parsed') :
    parsed.program.tree.render = parsed'.program.tree.render ↔
      parsed.program.tree.unplaced = parsed'.program.tree.unplaced :=
  Tree.render_eq_iff (isLegible_of_ofSource read) (isLegible_of_ofSource read')

/-- Two ways of writing a binding are rendered alike, though the string looks like part of a tree,
and a name is not rendered as the string with its text. -/
theorem Program.ofSource_render_binding :
    ∃ first second name string : Parsed,
      ofSource "let s=\") (s\";" = .ok first ∧ ofSource "let s =\n  \") (s\";" = .ok second ∧
      ofSource "s" = .ok name ∧ ofSource "\"s\"" = .ok string ∧
      first.program.tree.render = "(program (let s ') (s'))" ∧
      first.program.tree.unplaced = second.program.tree.unplaced ∧
      name.program.tree.render ≠ string.program.tree.render := by
  have first : ofSource "let s=\") (s\";" = .ok ⟨⟨⟨1, 1⟩, [.binding ⟨1, 1⟩
      ⟨.identifier, "s", ⟨1, 5⟩⟩ (.leaf ⟨.string, ") (s", ⟨1, 7⟩⟩)]⟩, []⟩ := rfl
  have second : ofSource "let s =\n  \") (s\";" = .ok ⟨⟨⟨1, 1⟩, [.binding ⟨1, 1⟩
      ⟨.identifier, "s", ⟨1, 5⟩⟩ (.leaf ⟨.string, ") (s", ⟨2, 3⟩⟩)]⟩, []⟩ := rfl
  have name : ofSource "s" =
      .ok ⟨⟨⟨1, 1⟩, [.expr ⟨1, 1⟩ (.leaf ⟨.identifier, "s", ⟨1, 1⟩⟩)]⟩, []⟩ := rfl
  have string : ofSource "\"s\"" =
      .ok ⟨⟨⟨1, 1⟩, [.expr ⟨1, 1⟩ (.leaf ⟨.string, "s", ⟨1, 1⟩⟩)]⟩, []⟩ := rfl
  refine ⟨_, _, _, _, first, second, name, string, rfl, (ofSource_render first second).mp rfl, ?_⟩
  intro same
  have unplaced := (ofSource_render name string).mp same
  cases unplaced

end Monkey
