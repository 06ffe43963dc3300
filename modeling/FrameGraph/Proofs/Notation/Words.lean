/-
  FrameGraph.Proofs.Notation.Words: where the words of the notation end.

  Blanks before a word are dropped and nothing else is (`dropGap?_solid`). A word that is written
  is followed by punctuation (`Ends`), which no name, keyword or number goes on with, so the
  longest name at the start of a text is the one that was written (`name?_written`).
-/

import FrameGraph.Proofs.Notation.Floats
import FrameGraph.Proofs.Notation.Quotes
import FrameGraph.Ron.Printer
import FrameGraph.Ron.Scalar

namespace FrameGraph.Ron

-- Lists of characters are checked one by one; a quantifier would range over all characters.
theorem none_of {p : Char → Bool} {cs : List Char} (h : cs.all (fun c => !p c) = true) : ∀ c ∈ cs, p c = false := by
  simpa using h

/-! ## Gaps -/

/-- The text begins with something that is no gap, closes no bracket and opens no attribute. -/
def Solid (cs : List Char) : Prop :=
  ∃ c tail, cs = c :: tail ∧ isGap c = false ∧ c ∉ ['#', '/', ')', ']', '\x7d']

theorem Solid.append {cs : List Char} (h : Solid cs) (rest : List Char) : Solid (cs ++ rest) := by
  obtain ⟨c, tail, rfl, opens⟩ := h
  exact ⟨c, tail ++ rest, rfl, opens⟩

theorem Solid.head? {cs : List Char} (h : Solid cs) {close : Char} (closes : close ∈ [')', ']', '\x7d']) :
    cs.head? ≠ some close := by
  obtain ⟨c, tail, rfl, -, other⟩ := h
  intro head
  cases head
  exact other (List.mem_cons_of_mem _ (List.mem_cons_of_mem _ closes))

theorem solid_cons {c : Char} (h : isGap c = false ∧ c ∉ ['#', '/', ')', ']', '\x7d']) (cs : List Char) : Solid (c :: cs) :=
  ⟨c, cs, rfl, h⟩

/-- What begins no value. -/
def breaks : List Char :=
  [' ', '\t', '\n', '\r', '\x0B', '\x0C', '\u0085', '\u200E', '\u200F', '\u2028', '\u2029', '#', '/', ')', ']', '\x7d']

theorem breaks_of_isGap {c : Char} (h : isGap c = true) : c ∈ breaks := by
  simp only [isGap, Bool.or_eq_true, beq_iff_eq, or_assoc] at h
  rcases h with rfl | rfl | rfl | rfl | rfl | rfl | rfl | rfl | rfl | rfl | rfl
  all_goals decide

theorem solid_part {p : Char → Bool} (none : breaks.all (fun c => !p c) = true) {c : Char} (part : p c = true)
    (cs : List Char) : Solid (c :: cs) := by
  have other : c ∉ breaks := by
    intro h
    rw [none_of none c h] at part
    cases part
  refine solid_cons ⟨?_, fun h => other (List.mem_append_right (breaks.take 11) h)⟩ cs
  cases gap : isGap c with
  | false => rfl
  | true => exact absurd (breaks_of_isGap gap) other

theorem dropGap?_cons {c : Char} (slash : c ≠ '/') (cs : List Char) :
    dropGap? (c :: cs) = if isGap c then dropGap? cs else some (c :: cs) := by
  rw [dropGap?, Gap.drop?.eq_def]
  split <;> simp_all [dropGap?]

theorem dropGap?_blanks (blanks : List Char) (all : blanks.all isGap = true) (cs : List Char) :
    dropGap? (blanks ++ cs) = dropGap? cs := by
  induction blanks with
  | nil => rfl
  | cons c blanks ih =>
    obtain ⟨blank, blanks'⟩ := Bool.and_eq_true_iff.1 all
    have slash : c ≠ '/' := by
      intro same
      subst same
      cases blank
    rw [List.cons_append, dropGap?_cons slash, if_pos blank]
    exact ih blanks'

theorem dropGap?_newline (depth : Nat) (cs : List Char) :
    dropGap? (Value.newline depth ++ cs) = dropGap? cs := by
  apply dropGap?_blanks (Value.newline depth)
  rw [List.all_eq_true]
  intro c h
  rcases List.mem_cons.1 h with rfl | h
  · rfl
  · rw [(List.mem_replicate.1 h).2]
    rfl

/-- No gap begins here. -/
theorem dropGap?_stop {c : Char} (gap : isGap c = false) (slash : c ≠ '/') (cs : List Char) :
    dropGap? (c :: cs) = some (c :: cs) := by
  rw [dropGap?_cons slash, gap]
  rfl

theorem dropGap?_solid {cs : List Char} (h : Solid cs) : dropGap? cs = some cs := by
  obtain ⟨c, tail, rfl, gap, other⟩ := h
  exact dropGap?_stop gap (fun slash => other (slash ▸ List.mem_cons_of_mem _ List.mem_cons_self)) tail

/-- What is left has no gap at its start. -/
theorem Gap.drop?_dropped {g : Gap} {cs r : List Char} (h : g.drop? cs = some r) : dropGap? r = some r := by
  fun_induction Gap.drop? g cs with
  | case1 => cases h
  | case2 =>
    cases h
    rfl
  | case5 => cases h
  | case7 c cs _ _ slash gap =>
    cases h
    exact dropGap?_stop (by simpa using gap) slash cs
  | _ =>
    rename_i ih
    exact ih h

theorem dropGap?_dropped {cs r : List Char} (h : dropGap? cs = some r) : dropGap? r = some r := Gap.drop?_dropped h

/-! ## Ends of words -/

/-- What stands behind names, keywords and numbers. -/
def delimiters : List Char := [',', ')', ':', '(']

def Ends (rest : List Char) : Prop := ∀ c, rest.head? = some c → c ∈ delimiters

theorem ends_cons {c : Char} (h : c ∈ delimiters) (cs : List Char) : Ends (c :: cs) := by
  intro _ head
  cases head
  exact h

theorem ends_nil : Ends [] := by
  intro _ head
  cases head

theorem Ends.not {rest : List Char} (h : Ends rest) {p : Char → Bool} (none : ∀ c ∈ delimiters, p c = false) :
    rest.head?.any p = false := by
  cases rest with
  | nil => rfl
  | cons c rest => exact none c (h c rfl)

theorem isIdentifierPart_delimiter : ∀ c ∈ delimiters, Text.isIdentifierPart c = false := none_of (by decide)

theorem isRawOnly_delimiter : ∀ c ∈ delimiters, isRawOnly c = false := none_of (by decide)

theorem isNumberPart_delimiter : ∀ c ∈ delimiters, isNumberPart c = false := none_of (by decide)

/-! ## Keywords -/

theorem dropKeyword?_written (keyword : String) {rest : List Char} (ends : Ends rest) :
    dropKeyword? keyword (keyword.toList ++ rest) = some rest := by
  simp [dropKeyword?, ends.not isIdentifierPart_delimiter]

/-- A text that begins otherwise has no keyword to drop. -/
theorem dropKeyword?_other {keyword : String} {cs : List Char} (h : keyword.toList.isPrefixOf cs = false) :
    dropKeyword? keyword cs = none := by
  simp [dropKeyword?, h]

/-! ## Names -/

def isName (name : String) : Bool :=
  name.toList.head?.any (fun c => Text.isIdentifierStart c || c == '_') && name.toList.all Text.isIdentifierPart

/-- A run of identifier characters is followed by what follows the name. -/
theorem name_run {name rest : List Char} (run tail : List Char) (parts : ∀ c ∈ name, Text.isIdentifierPart c = true)
    (ends : Ends rest) (more : run.all Text.isIdentifierPart = true) {c : Char}
    (stop : Text.isIdentifierPart c = false) (h : name ++ rest = run ++ c :: tail) : c ∈ delimiters := by
  have written := Decimal.takeWhile_run Text.isIdentifierPart name rest parts fun c head =>
    isIdentifierPart_delimiter c (ends c head)
  have found := Decimal.takeWhile_run Text.isIdentifierPart run (c :: tail) (List.all_eq_true.1 more) (by
    intro _ head
    cases head
    exact stop)
  have same : rest = c :: tail := by rw [← written.2, h, found.2]
  exact ends c (by rw [same, List.head?_cons])

theorem opensQuoted_name {name rest : List Char} (parts : ∀ c ∈ name, Text.isIdentifierPart c = true)
    (ends : Ends rest) : opensQuoted (name ++ rest) = false := by
  have quote : ∀ run c tail, run.all Text.isIdentifierPart = true → Text.isIdentifierPart c = false → c ∉ delimiters →
      name ++ rest = run ++ c :: tail → False := by
    intro run c tail more stop other h
    exact other (name_run run tail parts ends more stop h)
  unfold opensQuoted
  split
  · rename_i h
    exact (quote ['r'] '"' _ (by decide) (by decide) (by decide) h).elim
  · rename_i h
    exact (quote ['r'] '#' _ (by decide) (by decide) (by decide) h).elim
  · rename_i h
    exact (quote ['r'] '#' _ (by decide) (by decide) (by decide) h).elim
  · rename_i h
    exact (quote ['b'] '"' _ (by decide) (by decide) (by decide) h).elim
  · rename_i h
    exact (quote ['b'] '\'' _ (by decide) (by decide) (by decide) h).elim
  · rename_i h
    exact (quote ['b', 'r'] '"' _ (by decide) (by decide) (by decide) h).elim
  · rename_i h
    exact (quote ['b', 'r'] '#' _ (by decide) (by decide) (by decide) h).elim
  · rfl

/-- A written name reads as itself. -/
theorem name?_written {name : String} (h : isName name = true) {rest : List Char} (ends : Ends rest) :
    name? (name.toList ++ rest) = some (name, rest) := by
  obtain ⟨start, all⟩ := Bool.and_eq_true_iff.1 h
  have parts := List.all_eq_true.1 all
  have quoted := opensQuoted_name parts ends
  have text : String.ofList name.toList = name := String.ofList_toList
  cases chars : name.toList with
  | nil => simp [chars] at start
  | cons c cs =>
    rw [chars] at start parts quoted text
    have tail := Decimal.takeWhile_run Text.isIdentifierPart cs rest
      (fun d hd => parts d (List.mem_cons_of_mem _ hd)) fun d head => isIdentifierPart_delimiter d (ends d head)
    have word : word? (c :: cs ++ rest) = some (⟨name, false⟩, rest) := by
      unfold word?
      rw [if_neg (by rw [quoted]; exact Bool.false_ne_true)]
      split
      · rename_i raw
        have stop := name_run ['r'] _ parts ends (by decide) (c := '#') (by decide) raw
        exact absurd stop (by decide)
      · rename_i first
        cases first
        show (if _ then some ((⟨String.ofList (c :: (cs ++ rest).takeWhile _), false⟩ : Word), _) else none) = _
        rw [if_pos (by simpa using start), tail.1]
        exact congrArg some (Prod.ext (congrArg (Word.mk · false) text) tail.2)
      · rename_i empty
        cases empty
    rw [name?, word]
    simp [ends.not isRawOnly_delimiter]

theorem solid_name {name : String} (h : isName name = true) : Solid name.toList := by
  obtain ⟨start, all⟩ := Bool.and_eq_true_iff.1 h
  cases chars : name.toList with
  | nil => simp [chars] at start
  | cons c cs =>
    exact solid_part (p := Text.isIdentifierPart) (by decide +kernel) (List.all_eq_true.1 all c (by simp [chars])) cs

end FrameGraph.Ron
