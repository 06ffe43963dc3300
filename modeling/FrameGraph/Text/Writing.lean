/-
  FrameGraph.Text.Writing: texts as they are cut, quoted and shown.

  Inside double quotes, the characters with a short escape take it, unprintable ones are written
  by code point in lower-case hexadecimal, and the rest stand for themselves. `quoted` also
  escapes the apostrophe; `displayed`, the form used in messages, leaves it alone.

  A terminal obeys some characters where it shows the others: bell, backspace, form feed,
  escape and delete, and the controls from U+0080 to U+009F. A message spells these out by
  code point, so a name in it cannot give orders. All else stays, tabs and line ends too.
-/

import FrameGraph.Text.Characters

namespace FrameGraph.Text

/-! ## Trimming -/

def trimEnd (cs : List Char) : List Char :=
  (cs.reverse.dropWhile isBlank).reverse

/-- White space is dropped at both ends, and nothing else. -/
def trim (cs : List Char) : List Char :=
  trimEnd (cs.dropWhile isBlank)

/-! ## Quotes -/

def codePointEscape (c : Char) : List Char :=
  ['\\', 'u', '\x7b'] ++ Nat.toDigits 16 c.toNat ++ ['\x7d']

def escape (c : Char) : List Char :=
  if c = '\x00' then ['\\', '0']
  else if c = '\t' then ['\\', 't']
  else if c = '\r' then ['\\', 'r']
  else if c = '\n' then ['\\', 'n']
  else if c = '\'' then ['\\', '\'']
  else if c = '"' then ['\\', '"']
  else if c = '\\' then ['\\', '\\']
  else if isPrintable c then [c]
  else codePointEscape c

def escapeDisplayed (c : Char) : List Char :=
  if c = '\'' then ['\''] else escape c

def quoted (s : String) : String :=
  String.ofList ('"' :: s.toList.flatMap escape ++ ['"'])

def displayed (s : String) : String :=
  String.ofList ('"' :: s.toList.flatMap escapeDisplayed ++ ['"'])

/-! ## Messages on a terminal -/

/-- The controls above ASCII, of one character each. -/
def isUpperControl (c : Char) : Bool := '\u0080' ≤ c && c ≤ '\u009f'

def disarm (c : Char) : List Char :=
  if c = '\x07' then ['\\', 'x', '0', '7']
  else if c = '\x08' then ['\\', 'x', '0', '8']
  else if c = '\x0c' then ['\\', 'x', '0', 'c']
  else if c = '\x1b' then ['\\', 'x', '1', 'b']
  else if c = '\x7f' then ['\\', 'x', '7', 'f']
  else if isUpperControl c then codePointEscape c
  else [c]

def disarmed (s : String) : String := String.ofList (s.toList.flatMap disarm)

/-! ## Columns of log lines -/

/-- Fills with blanks on the right; width is counted in characters. A cell longer than its column is
kept whole. -/
def padRight (width : Nat) (s : String) : String :=
  s ++ String.ofList (List.replicate (width - s.length) ' ')

/-- A row number of at least two digits. -/
def rowNumber (n : Nat) : String :=
  (if n < 10 then "0" else "") ++ toString n

end FrameGraph.Text
