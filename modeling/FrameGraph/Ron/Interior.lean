/-
  FrameGraph.Ron.Interior: what stands between the parentheses of an option or variant.

  Where a value may lose its own parentheses, the text decides whether there are named fields,
  one value or many. A first identifier with a colon means fields. Otherwise the text is
  followed up to the first comma outside all brackets, or to the closing parenthesis; brackets
  in text, in bytes and between single quotes do not count. Comments are passed over only
  where one of the steps along the text begins.
-/

import FrameGraph.Ron.Gap
import FrameGraph.Ron.Quoted
import FrameGraph.Ron.Word

namespace FrameGraph.Ron

inductive Interior where
  | fields
  | one
  | many
  deriving DecidableEq, Repr

namespace Interior

def dropCharacter (cs : List Char) : List Char :=
  match Quoted.character? cs with
  | some (_, r) => r
  | none => cs

/-- Drops what was read; text that never ends stops the search. -/
def dropQuoted? (found : Except Quoted.Flaw (List Char × List Char)) (cs : List Char) :
    Option (List Char) :=
  match found with
  | .ok (_, r) => some r
  | .error .unclosed => none
  | .error .malformed => some cs

def dropText? (cs : List Char) : Option (List Char) := dropQuoted? (Quoted.text cs) cs

def dropBytes? (cs : List Char) : Option (List Char) := dropQuoted? (Quoted.bytes cs) cs

/-- The text from the next character on that may be a bracket or a comma. -/
def seek? (cs : List Char) : Option (List Char) :=
  (dropGap? cs).bind fun cs => (dropText? (dropCharacter cs)).bind dropBytes?

/-- Decides by what follows a comma outside all brackets. -/
def afterComma? (cs : List Char) : Option Interior :=
  (dropGap? cs).map fun r => if r.head? = some ')' then one else many

theorem dropCharacter_length (cs : List Char) : (dropCharacter cs).length ≤ cs.length := by
  unfold dropCharacter
  split
  · rename_i found
    exact Quoted.character?_length found
  · exact Nat.le_refl _

theorem dropText?_length {cs r : List Char} (h : dropText? cs = some r) : r.length ≤ cs.length := by
  unfold dropText? dropQuoted? at h
  split at h <;> cases h
  · rename_i found
    exact Quoted.text_length found
  · exact Nat.le_refl _

theorem dropBytes?_length {cs r : List Char} (h : dropBytes? cs = some r) :
    r.length ≤ cs.length := by
  unfold dropBytes? dropQuoted? at h
  split at h <;> cases h
  · rename_i found
    exact Quoted.bytes_length found
  · exact Nat.le_refl _

theorem seek?_length {cs r : List Char} (h : seek? cs = some r) : r.length ≤ cs.length := by
  obtain ⟨a, ha, h⟩ := Option.bind_eq_some_iff.1 h
  obtain ⟨b, hb, h⟩ := Option.bind_eq_some_iff.1 h
  exact Nat.le_trans (dropBytes?_length h) (Nat.le_trans (dropText?_length hb)
    (Nat.le_trans (dropCharacter_length a) (dropGap?_length ha)))

/-- Follows a text inside as many brackets as are open. -/
def follow? (opened : Nat) (cs : List Char) : Option Interior :=
  match _ : seek? cs with
  | none => none
  | some [] => none
  | some (c :: r) =>
    if c = '(' ∨ c = '[' ∨ c = '\x7b' then follow? (opened + 1) r
    else if c = ')' ∨ c = ']' ∨ c = '\x7d' then
      match opened with
      | 0 => some one
      | outer + 1 => follow? outer r
    else if c = ',' ∧ opened = 0 then afterComma? r
    else follow? opened r
termination_by cs.length
decreasing_by
  all_goals exact Nat.lt_of_succ_le (seek?_length (r := c :: r) (by assumption))

def of? (cs : List Char) : Option Interior := do
  let cs ← dropGap? cs
  match word? cs with
  | none => follow? 0 cs
  | some (_, r) =>
    match ← dropGap? r with
    | ':' :: _ => some fields
    | ',' :: r => afterComma? r
    | ')' :: _ => some one
    | r => follow? 0 r

/-- Whether a text begins with a parenthesis and the name of a field. -/
def opensFields : List Char → Bool
  | '(' :: cs =>
    match (dropGap? cs).bind word? with
    | some (_, r) => ((dropGap? r).bind List.head?) == some ':'
    | none => false
  | _ => false

end Interior

end FrameGraph.Ron
