import Lookahead.Text.Printable

/-!
# Escaped text

Messages show characters and token texts in a form that can be read on any terminal.  The common
control characters have short escapes, other unprintable characters are written by code point, and
the backslash and the quotes are escaped so that the end of the quotation stays visible.

A character that joins the one before it would join the opening quote instead.  It is therefore
written by code point where it stands alone or comes first, and as it is anywhere else.
-/

namespace Lookahead.Text

/-- How a character is written inside a quotation: which quotes are escaped, and whether a character
that joins the one before it is. -/
structure EscapeStyle where
  /-- Are single quotes escaped? -/
  singleQuote : Bool
  /-- Are double quotes escaped? -/
  doubleQuote : Bool
  /-- Are extending characters written by code point? -/
  extending : Bool
  deriving DecidableEq, Repr

/-- The style for a character alone between single quotes. -/
def EscapeStyle.character : EscapeStyle := ⟨true, false, true⟩

/-- The style for the first character of a text, which would join the opening quote. -/
def EscapeStyle.textHead : EscapeStyle := ⟨true, true, true⟩

/-- The style for the other characters of a text, which join one of its own. -/
def EscapeStyle.textTail : EscapeStyle := ⟨true, true, false⟩

/-- The escape by code point: its hexadecimal digits, in lower case and without leading zeros. -/
def codePointEscape (c : Char) : String :=
  "\\u\x7b" ++ String.ofList (Nat.toDigits 16 c.toNat) ++ "\x7d"

/-- A character in the given style: by its short escape, by code point, or as it is. -/
def escapeChar (style : EscapeStyle) (c : Char) : String :=
  match c with
  | '\x00' => "\\0"
  | '\t' => "\\t"
  | '\r' => "\\r"
  | '\n' => "\\n"
  | '\\' => "\\\\"
  | '\'' => if style.singleQuote then "\\'" else "'"
  | '"' => if style.doubleQuote then "\\\"" else "\""
  | c =>
    if (style.extending && isExtending c) || !isPrintable c then codePointEscape c
    else c.toString

/-- A character between single quotes. -/
def quoteChar (c : Char) : String := "'" ++ escapeChar .character c ++ "'"

/-- The characters of a text, escaped, of which the first is in a style of its own. -/
def escapeChars : List Char → String
  | [] => ""
  | c :: rest => rest.foldl (fun out d => out ++ escapeChar .textTail d) (escapeChar .textHead c)

/-- A text between single quotes. -/
def quoteText (text : String) : String := "'" ++ escapeChars text.toList ++ "'"

end Lookahead.Text
