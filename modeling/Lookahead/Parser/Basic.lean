import Lookahead.Recognizer.Speculation
import Lookahead.Stream.Tokens
import Lookahead.Tree.Build
import Lookahead.Tree.Shape

/-!
# Parsers

A parser recognizes a token stream and builds trees.  Grammar rules call `matchToken` and its
relatives on the input, and the tree operations on what was matched; the latter do nothing during
speculation.  This module has the matching of what is there and the building of trees; mismatches
are the business of `Lookahead.Parser.Recovery`.
-/

namespace Lookahead

/-- The trees that a parser builds, and where it is building. -/
structure TreeBuilder where
  tree : Tree
  /-- The root that the current rule adds to, if it builds a tree. -/
  root : Option NodeId
  deriving DecidableEq, Repr

/-- A recognizer of tokens that builds trees. -/
abbrev Parser (σ : Type) := Recognizer (TokenStream σ) TreeBuilder

/-- A rule invocation in progress, with the place and the unit where it started. -/
structure RuleStart where
  rule : Rule
  index : Nat
  token : Token
  deriving DecidableEq, Repr

namespace Recognizer

variable {S X : Type} [Cursor S]

/-- Is the recognizer parsing speculatively? -/
def isBacktracking : Action (Recognizer S X) Bool := readState fun s => 0 < s.backtracking

/-- Are rule outcomes recorded now? That is so during speculation, if the options ask for it. -/
def isMemoizing : Action (Recognizer S X) Bool :=
  readState fun s => 0 < s.backtracking && s.options.memoize

/-- Note a match, which ends the recovery from an error. -/
def noteMatch : Action (Recognizer S X) Unit :=
  updateState fun s => { s with recovering := false, failed := false }

/-- Do what is recorded about a rule that starts here, if outcomes are recorded now. A recorded
failure gives up, a recorded success takes the input to where the rule stopped and answers true. -/
def replay (rule : Rule) : Action (Recognizer S X) Bool := do
  let index ← index
  if ← isMemoizing then
    match ← readState fun s => s.memoized rule index with
    | some .failed => giveUp
    | some (.parsed stop) =>
      seek stop
      return true
    | none => return false
  else return false

/-- Record what came of a rule, if outcomes are recorded now. Every fault counts as a failure, and a
success is recorded with the place of the cursor. -/
def record {α : Type} (start : RuleStart) (outcome : Except Fault α) :
    Action (Recognizer S X) Unit := do
  if ← isMemoizing then
    let stop ← index
    updateState fun s => s.memoize start.rule start.index <|
      match outcome with
      | .ok _ => .parsed stop
      | .error _ => .failed

end Recognizer

namespace Parser

open Recognizer

variable {σ : Type} [TokenSource σ]

/-- A parser that has not run, with no trees and nothing to add to. -/
def ofStream (input : TokenStream σ) (options : Options) (vocabulary : Vocabulary) : Parser σ :=
  .ofInput input ⟨.empty, none⟩ options vocabulary

/-! ## Matching what is there -/

/-- Take the current token, whatever it is. -/
def matchAny : Action (Parser σ) Token := do
  let token ← symbol
  consume
  noteMatch
  return token

/-- The token `k` channel tokens in front of the cursor, if there are so many. -/
def lookBehind (k : Nat) : Action (Parser σ) (Option Token) := stepInput fun s => s.lookBehind k

/-! ## Entering a rule -/

/-- Enter a rule, which `follow` may stand behind. A rule that is recorded to match is not entered:
the input goes to where it stopped, and there is nothing to do. A rule that is recorded to fail
gives up. -/
def enterRule (rule : Rule) (follow : TokenSet) : Action (Parser σ) (Option RuleStart) := do
  if ← replay rule then return none
  else
    let token ← symbol
    let index ← index
    updateState fun s => s.pushFrame rule follow index
    return some ⟨rule, index, token⟩

/-! ## Trees -/

/-- Compute a value from the trees and change them, and nothing else. -/
def stepTree {α : Type} (f : Tree → α × Tree) : Action (Parser σ) α :=
  stepOwn fun b => let (a, tree) := f b.tree; (a, { b with tree })

/-- Change the trees and nothing else. -/
def updateTree (f : Tree → Tree) : Action (Parser σ) Unit :=
  updateOwn fun b => { b with tree := f b.tree }

/-- A new list to build a rule's tree in, or none during speculation. -/
def beginTree : Action (Parser σ) (Option NodeId) := do
  if ← isBacktracking then return none
  else return some (← stepTree Tree.newList)

/-- Add a new node for a token under a parent. Nothing is built during speculation, or without a
parent. -/
def addLeaf (parent : Option NodeId) (token : Token) : Action (Parser σ) Unit := do
  match parent, ← isBacktracking with
  | some parent, false =>
    let leaf ← stepTree fun t => t.newToken token
    updateTree fun t => t.addChild parent leaf
  | _, _ => return

/-- Add a tree under a parent, if there are both and the parser is not speculating. -/
def addSubtree (parent child : Option NodeId) : Action (Parser σ) Unit := do
  match parent, child, ← isBacktracking with
  | some parent, some child, false => updateTree fun t => t.addChild parent child
  | _, _, _ => return

/-- Put a new node for a token over a root, and return the new root. During speculation, or without
a root, there is none. -/
def addRoot (root : Option NodeId) (token : Token) : Action (Parser σ) (Option NodeId) := do
  match root, ← isBacktracking with
  | some root, false =>
    let newRoot ← stepTree fun t => t.newToken token
    match ← readOwn fun b => b.tree.becomeRoot newRoot root with
    | .ok (node, tree) =>
      updateTree fun _ => tree
      return some node
    | .error cause => .fault (.misuse cause)
  | _, _ => return none

/-- The tree of a finished rule, with the tokens that it covers: from the one where the rule started
to the last one in front of the cursor. A rule that built nothing has none. -/
def finishTree (root : Option NodeId) (start : RuleStart) : Action (Parser σ) (Option NodeId) := do
  match root, ← isBacktracking with
  | some root, false =>
    match ← stepTree fun t => t.ruleResult root with
    | some result =>
      let last ← lookBehind 1
      updateTree fun t => t.setBounds result start.token.index (last.bind Token.index)
      return some result
    | none => return none
  | _, _ => return none

end Parser

end Lookahead
