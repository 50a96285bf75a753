import Lookahead.Edit.Folding

/-!
# Edit queues

Edits are queued in named programs and never touch the buffer.  Rendering folds a program and then
goes through the tokens once, with the edit that starts at each of them.
-/

namespace Lookahead

namespace Edit

/-- The text of a token; the end of input has none. -/
def tokenText (t : Token) : String := if t.isEof then "" else t.text

/-- The text of the tokens that `rest` holds, the first of which has place `i`, with the edits
applied.  `skip` tokens are still covered by a replacement. -/
def renderFrom (edits : List Edit) : (i skip : Nat) → (rest : List Token) → String
  | _, _, [] => ""
  | i, skip + 1, _ :: rest => renderFrom edits (i + 1) skip rest
  | i, 0, t :: rest =>
    match edits.find? (fun e => e.start == i) with
    | some (.insert _ text) => text ++ tokenText t ++ renderFrom edits (i + 1) 0 rest
    | some (.replace _ last text) =>
      text.getD "" ++ renderFrom edits (i + 1) (last - i) rest
    | none => tokenText t ++ renderFrom edits (i + 1) 0 rest

/-- The inserts behind token `last`, in the order of their places. -/
def tail (edits : List Edit) (last : Nat) : String :=
  let behind := edits.filter fun e => last < e.start
  String.join ((behind.mergeSort fun a b => a.start ≤ b.start).filterMap fun
    | .insert _ text => some text
    | .replace .. => none)

/-- The text of the tokens from `first` to `last` as they are. -/
def plain (tokens : List Token) (first last : Nat) : String :=
  String.join (((tokens.take (last + 1)).drop first).map tokenText)

/-- The text of the tokens from `first` to `last` with a program applied.  Inserts behind the last
token show only if the range reaches it. -/
def render (edits : List Edit) (tokens : List Token) (first last : Nat) :
    Except Misuse String :=
  if edits.isEmpty then .ok (plain tokens first last)
  else do
    let reduced ← reduce edits
    let end' := tokens.length - 1
    let last := min last end'
    let body := renderFrom reduced first 0 ((tokens.take (last + 1)).drop first)
    .ok (if last = end' then body ++ tail reduced end' else body)

end Edit

/-- Named programs of edits, in the order in which they were begun. -/
structure EditQueue where
  programs : List (String × List Edit)
  deriving DecidableEq, Repr, Inhabited

namespace EditQueue

/-- The program that is rendered by default. -/
def defaultProgram : String := "default"

/-- The queue in which no program was begun. -/
def empty : EditQueue := ⟨[]⟩

/-- The edits of a program; none if it was not begun. -/
def edits (q : EditQueue) (program : String) : List Edit := (q.programs.lookup program).getD []

/-- The number of edits of a program. -/
def count (q : EditQueue) (program : String) : Nat := (q.edits program).length

/-- The names of the programs that were begun. -/
def names (q : EditQueue) : List String := q.programs.map Prod.fst

/-- Queue an edit, in a program that is begun if need be. -/
def push (q : EditQueue) (program : String) (e : Edit) : EditQueue :=
  if program ∈ q.names then
    ⟨q.programs.map fun (name, es) => if name = program then (name, es ++ [e]) else (name, es)⟩
  else ⟨q.programs ++ [(program, [e])]⟩

/-- Queue an insert in front of a token. -/
def insertBefore (q : EditQueue) (program : String) (index : Nat) (text : String) : EditQueue :=
  q.push program (.insert index text)

/-- Queue an insert behind a token, which is in front of the next one. -/
def insertAfter (q : EditQueue) (program : String) (index : Nat) (text : String) : EditQueue :=
  q.insertBefore program (index + 1) text

/-- Queue a replacement of a range of tokens, by nothing if there is no text. A range whose end lies
before its start is refused, and nothing is queued. -/
def replace (q : EditQueue) (program : String) (first last : Nat) (text : Option String) :
    Except Misuse EditQueue :=
  if last < first then .error (.reversedRange first last)
  else .ok (q.push program (.replace first last text))

/-- Queue the deletion of a range of tokens. -/
def delete (q : EditQueue) (program : String) (first last : Nat) : Except Misuse EditQueue :=
  q.replace program first last none

/-- Drop the edits of a program from number `n` on.  The program stays begun. -/
def rollback (q : EditQueue) (program : String) (n : Nat) : EditQueue :=
  ⟨q.programs.map fun (name, es) => if name = program then (name, es.take n) else (name, es)⟩

/-- Drop all edits of a program. The program stays begun. -/
def clear (q : EditQueue) (program : String) : EditQueue := q.rollback program 0

/-- The text of the tokens from `first` to `last` with a program applied. -/
def render (q : EditQueue) (tokens : List Token) (program : String) (first last : Nat) :
    Except Misuse String :=
  Edit.render (q.edits program) tokens first last

/-- The text of all tokens with the default program applied. -/
def renderAll (q : EditQueue) (tokens : List Token) : Except Misuse String :=
  q.render tokens defaultProgram 0 (tokens.length - 1)

end EditQueue

end Lookahead
