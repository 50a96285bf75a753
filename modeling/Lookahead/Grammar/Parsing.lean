import Lookahead.Grammar.Run
import Lookahead.Parser.Recovery

/-!
# Parser grammars

The instructions of grammars that parse tokens.  Every run of a rule has a root of its own, to which
the rule's instructions add what they match; whatever becomes of the run, the root of the caller is
back in its place afterwards.
-/

namespace Lookahead

/-- What a rule of a parser grammar can do besides the statements of all grammars. -/
inductive ParserInstruction where
  /-- Match a token and add it to nothing. -/
  | token (type : TokenType) (follow : TokenSet)
  /-- Match a token and add it to the root. -/
  | child (type : TokenType) (follow : TokenSet)
  /-- Match a token and put it over the root. -/
  | root (type : TokenType) (follow : TokenSet)
  /-- Match a token of a set and add it to the root. -/
  | set (types follow : TokenSet)
  /-- Take the current token and add it to the root. -/
  | any
  /-- Call a rule and add its tree to the root. -/
  | call (rule : Nat) (follow : TokenSet)
  deriving DecidableEq, Repr

namespace Parser

open Recognizer

variable {σ : Type} [TokenSource σ]

/-- The root that the current rule adds to. -/
def currentRoot : Action (Parser σ) (Option NodeId) := readOwn TreeBuilder.root

/-- Set the root of the current rule, and leave the trees as they are. -/
def setRoot (root : Option NodeId) : Action (Parser σ) Unit := updateOwn fun b => { b with root }

/-- Run something with a root of its own, and return the root that it ends with. Whatever becomes of
it, the root of the caller is in its place again afterwards. -/
def withRoot {α : Type} (root : Option NodeId) (body : Action (Parser σ) α) :
    Action (Parser σ) (Option NodeId) := do
  let outer ← currentRoot
  setRoot root
  let outcome ← body.attempt
  let inner ← currentRoot
  setRoot outer
  discard (Action.ofExcept outcome)
  return inner

/-- Run the block of a rule with a new list as its root, and finish the tree if the block comes to
its end. -/
def runBody (start : RuleStart) (body : Action (Parser σ) Unit) :
    Action (Parser σ) (Option NodeId) := do
  let root ← withRoot (← beginTree) body
  finishTree root start

/-- Call a rule that has the given body: enter it, run the body, and leave it with what became of
the body. Entry and exit are noted. -/
def call (rule : Rule) (follow : TokenSet) (body : Action (Parser σ) Unit) :
    Action (Parser σ) (Option NodeId) := do
  let entry ← (enterRule rule follow).attempt
  note (.entered rule.name (← index) (Fault.ofOutcome entry))
  match ← .ofExcept entry with
  | none => return none
  | some start =>
    let outcome ← (runBody start body).attempt
    let result ← (exitRule start outcome).attempt
    let tree ← readOwn fun b =>
      match result with
      | .ok (some node) => some (b.tree.render node)
      | _ => none
    note (.exited rule.name (← index) (Fault.ofOutcome result) tree)
    .ofExcept result

/-- Carry out an instruction. What is matched is noted, and then added to the root. -/
def perform (g : Grammar ParserInstruction)
    (run : Block ParserInstruction → Action (Parser σ) Unit) :
    ParserInstruction → Action (Parser σ) Unit
  | .token type follow => do
    note (.matchedToken (← matchToken type follow))
  | .child type follow => do
    note (.matchedToken (← matchChild (← currentRoot) type follow))
  | .root type follow => do
    let node ← matchRoot (← currentRoot) type follow
    setRoot node
    note (.rooted node)
  | .set types follow => do
    let token ← matchSet types follow
    note (.matchedToken token)
    addLeaf (← currentRoot) token
  | .any => do
    let token ← matchAny
    note (.matchedToken token)
    addLeaf (← currentRoot) token
  | .call rule follow => do
    let node ← call (g.rule rule) follow (run (g.body rule))
    addSubtree (← currentRoot) node

/-- The instructions of parser grammars.  A fragment that is to build nothing has no root. -/
def dialect : Dialect (TokenStream σ) TreeBuilder ParserInstruction where
  perform := perform
  apart body := discard (withRoot none body)

/-- Run a block of a parser grammar with the given fuel. -/
def run (g : Grammar ParserInstruction) (fuel : Nat) (block : Block ParserInstruction) :
    Action (Parser σ) Unit :=
  g.run dialect fuel block

/-- Run a block with a new root, and return the root that it ends with. -/
def runBlock (g : Grammar ParserInstruction) (fuel : Nat) (block : Block ParserInstruction) :
    Action (Parser σ) (Option NodeId) := do
  withRoot (← beginTree) (run g fuel block)

/-- Call a rule of a parser grammar, and return its tree. -/
def callRule (g : Grammar ParserInstruction) (fuel : Nat) (rule : Nat) (follow : TokenSet) :
    Action (Parser σ) (Option NodeId) :=
  call (g.rule rule) follow (run g fuel (g.body rule))

end Parser

end Lookahead
