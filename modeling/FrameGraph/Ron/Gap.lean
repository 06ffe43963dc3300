/-
  FrameGraph.Ron.Gap: what may stand between the words of object notation.

  Blanks and comments fill a gap. A line comment ends with its line or with the text; block
  comments nest and have to be closed. A slash that begins no comment belongs nowhere.
-/

namespace FrameGraph.Ron

/-- The pattern white space of the notation. -/
def isGap (c : Char) : Bool :=
  c == ' ' || c == '\t' || c == '\n' || c == '\r' || c == '\x0B' || c == '\x0C'
    || c == '\u0085' || c == '\u200E' || c == '\u200F' || c == '\u2028' || c == '\u2029'

inductive Gap where
  | blank
  | line
  | block (outer : Nat)

namespace Gap

/-- Drops the rest of a gap. -/
def drop? : Gap → List Char → Option (List Char)
  | .block _, [] => none
  | _, [] => some []
  | .blank, '/' :: '/' :: cs => drop? .line cs
  | .blank, '/' :: '*' :: cs => drop? (.block 0) cs
  | .blank, '/' :: _ => none
  | .blank, c :: cs => if isGap c then drop? .blank cs else some (c :: cs)
  | .line, c :: cs => if c = '\n' then drop? .blank cs else drop? .line cs
  | .block outer, '/' :: '*' :: cs => drop? (.block (outer + 1)) cs
  | .block 0, '*' :: '/' :: cs => drop? .blank cs
  | .block (outer + 1), '*' :: '/' :: cs => drop? (.block outer) cs
  | .block outer, _ :: cs => drop? (.block outer) cs

theorem drop?_length {g : Gap} {cs r : List Char} (h : g.drop? cs = some r) :
    r.length ≤ cs.length := by
  fun_induction drop? g cs <;> simp_all <;> omega

end Gap

def dropGap? (cs : List Char) : Option (List Char) := Gap.blank.drop? cs

theorem dropGap?_length {cs r : List Char} (h : dropGap? cs = some r) : r.length ≤ cs.length :=
  Gap.drop?_length h

end FrameGraph.Ron
