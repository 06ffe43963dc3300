/-
  FrameGraph.Ron.Word: identifiers and keywords.

  An identifier begins like a name and goes on like one. Raw identifiers (`r#name`) may also
  hold points and signs, which may not follow a plain one where a name is wanted. What begins
  like quoted text or bytes is never an identifier.
-/

import FrameGraph.Text.Characters

namespace FrameGraph.Ron

structure Word where
  name : String
  raw : Bool
  deriving DecidableEq, Repr

/-- Characters that a raw identifier may hold beside those of any identifier. -/
def isRawOnly (c : Char) : Bool := c == '.' || c == '+' || c == '-'

def isRawPart (c : Char) : Bool := Text.isIdentifierPart c || isRawOnly c

def opensQuoted : List Char → Bool
  | 'r' :: '"' :: _ | 'r' :: '#' :: '"' :: _ | 'r' :: '#' :: '#' :: _ => true
  | 'b' :: '"' :: _ | 'b' :: '\'' :: _ => true
  | 'b' :: 'r' :: '"' :: _ | 'b' :: 'r' :: '#' :: _ => true
  | _ => false

/-- The identifier at the start of a text, as far as it reaches. -/
def word? (cs : List Char) : Option (Word × List Char) :=
  if opensQuoted cs then none
  else
    match cs with
    | 'r' :: '#' :: cs =>
      let name := cs.takeWhile isRawPart
      if name.isEmpty then none else some (⟨String.ofList name, true⟩, cs.dropWhile isRawPart)
    | c :: cs =>
      if Text.isIdentifierStart c || c == '_' then
        some (⟨String.ofList (c :: cs.takeWhile Text.isIdentifierPart), false⟩,
          cs.dropWhile Text.isIdentifierPart)
      else none
    | [] => none

/-- The name that an identifier stands for, where a name is wanted. -/
def name? (cs : List Char) : Option (String × List Char) :=
  match word? cs with
  | some (w, rest) => if !w.raw && rest.head?.any isRawOnly then none else some (w.name, rest)
  | none => none

/-- What follows a keyword that does not run on. -/
def dropKeyword? (keyword : String) (cs : List Char) : Option (List Char) :=
  let word := keyword.toList
  let rest := cs.drop word.length
  if word.isPrefixOf cs && !rest.head?.any Text.isIdentifierPart then some rest else none

/-! ## What is left is no longer -/

theorem dropWhile_length (p : Char → Bool) (cs : List Char) : (cs.dropWhile p).length ≤ cs.length :=
  (List.dropWhile_sublist p).length_le

theorem word?_length {cs : List Char} {r : Word × List Char} (h : word? cs = some r) :
    r.2.length ≤ cs.length := by
  unfold word? at h
  split at h
  · cases h
  · split at h
    · dsimp only at h
      split at h <;> cases h
      exact Nat.le_trans (dropWhile_length _ _) (by simp only [List.length_cons]; omega)
    · split at h <;> cases h
      exact Nat.le_succ_of_le (dropWhile_length _ _)
    · cases h

theorem name?_length {cs : List Char} {r : String × List Char} (h : name? cs = some r) :
    r.2.length ≤ cs.length := by
  unfold name? at h
  split at h
  · rename_i found
    split at h <;> cases h
    exact word?_length found
  · cases h

theorem dropKeyword?_length {keyword : String} {cs r : List Char}
    (h : dropKeyword? keyword cs = some r) : r.length ≤ cs.length := by
  simp only [dropKeyword?] at h
  split at h <;> cases h
  simp only [List.length_drop]
  omega

end FrameGraph.Ron
