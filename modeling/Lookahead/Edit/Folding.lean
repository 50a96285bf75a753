import Lookahead.Misuse
import Lookahead.Token

/-!
# Edits of a token buffer

An edit puts a text in front of a token, or in the place of a range of tokens.  A list of edits, the
oldest first, is folded into at most one edit for each token:

* inserts in front of the same token join, the later one first;
* an insert in front of a replaced range joins the replacement, and an insert further inside the
  range is dropped if it came first and refused if it comes later;
* a replacement takes the place of earlier ones inside its range; any other overlap is refused,
  except that two deletions that overlap become one.

The folding is done by three passes over the list (`foldReplaces`, `foldInserts`,
`joinEarlierInserts`), each of which takes the edits in order and looks at those already taken.
`Lookahead.Edit.Queue` applies the outcome to the tokens.
-/

namespace Lookahead

/-- An edit of a token buffer. -/
inductive Edit where
  /-- Put a text in front of token `index`. -/
  | insert (index : Nat) (text : String)
  /-- Put a text in the place of the tokens from `first` to `last`, or nothing. -/
  | replace (first last : Nat) (text : Option String)
  deriving DecidableEq, Repr

namespace Edit

/-- The token at which an edit starts. -/
def start : Edit → Nat
  | insert index _ => index
  | replace first _ _ => first

/-! ## Replacements against what came before -/

/-- What is left of the earlier edits while a replacement is held against them, and the range that
it has grown to. -/
structure Absorbed where
  kept : List Edit
  first : Nat
  last : Nat
  deriving DecidableEq, Repr

/-- Let the replacement of `first` to `last` by `text` take in one earlier edit. -/
def Absorbed.take (text : Option String) (a : Absorbed) (e : Edit) : Except Misuse Absorbed :=
  match e with
  | .insert index _ =>
    if a.first < index ∧ index ≤ a.last then .ok a else .ok { a with kept := a.kept ++ [e] }
  | .replace first last earlier =>
    if a.first ≤ first ∧ last ≤ a.last then .ok a
    else if last < a.first ∨ a.last < first then .ok { a with kept := a.kept ++ [e] }
    else if earlier.isNone ∧ text.isNone then
      .ok { a with first := min a.first first, last := max a.last last }
    else .error (.overlappingReplace a.first a.last first last)

/-- Take an edit behind those already taken; a replacement absorbs what it covers. -/
def absorb (taken : List Edit) : Edit → Except Misuse (List Edit)
  | .insert index text => .ok (taken ++ [.insert index text])
  | .replace first last text =>
    (taken.foldlM (Absorbed.take text) ⟨[], first, last⟩).map fun a =>
      a.kept ++ [.replace a.first a.last text]

/-- The edits with every replacement held against all earlier edits. -/
def foldReplaces (edits : List Edit) : Except Misuse (List Edit) := edits.foldlM absorb []

/-! ## Inserts against what came before -/

/-- Hold an insert against the edits before it, which are given in order.  It takes in an earlier
insert at its token; it joins a replacement that starts there, and then nothing is left of it. -/
def joinEarlier (index : Nat) (text : String) : List Edit → Except Misuse (List Edit)
  | [] => .ok [.insert index text]
  | .insert i earlier :: rest =>
    if i = index then joinEarlier index (text ++ earlier) rest
    else (joinEarlier index text rest).map (.insert i earlier :: ·)
  | .replace first last replacement :: rest =>
    if index = first then .ok (.replace first last (some (text ++ replacement.getD "")) :: rest)
    else if first < index ∧ index ≤ last then .error (.insertInsideReplace index first last)
    else (joinEarlier index text rest).map (.replace first last replacement :: ·)

/-- Take an edit behind those already taken; an insert joins the earlier edit at its token. -/
def join (taken : List Edit) : Edit → Except Misuse (List Edit)
  | .insert index text => joinEarlier index text taken
  | .replace first last text => .ok (taken ++ [.replace first last text])

/-- The edits with every insert held against all earlier edits. -/
def foldInserts (edits : List Edit) : Except Misuse (List Edit) := edits.foldlM join []

/-! ## Inserts in front of a later replacement -/

/-- The text of an insert in front of token `index`. -/
def insertedAt (index : Nat) : Edit → Option String
  | .insert i text => if i = index then some text else none
  | .replace .. => none

/-- Take an edit behind those already taken; a replacement puts earlier inserts at its first token
in front of its own text. -/
def prepend (taken : List Edit) : Edit → List Edit
  | .insert index text => taken ++ [.insert index text]
  | .replace first last text =>
    match taken.filterMap (insertedAt first) with
    | [] => taken ++ [.replace first last text]
    | inserted =>
      taken.filter (fun e => (insertedAt first e).isNone) ++
        [.replace first last (some (String.join inserted ++ text.getD ""))]

/-- The edits with every replacement joined by the inserts in front of it. -/
def joinEarlierInserts (edits : List Edit) : List Edit := edits.foldl prepend []

/-- The token that two of the edits start at. -/
def firstConflict : List Edit → List Nat → Option Nat
  | [], _ => none
  | e :: rest, seen => if e.start ∈ seen then some e.start else firstConflict rest (e.start :: seen)

/-- The edits of a program, at most one for each token. -/
def reduce (edits : List Edit) : Except Misuse (List Edit) := do
  let replaced ← foldReplaces edits
  let inserted ← foldInserts replaced
  let reduced := joinEarlierInserts inserted
  match firstConflict reduced [] with
  | some index => .error (.conflictingEdits index)
  | none => .ok reduced

end Edit

end Lookahead
