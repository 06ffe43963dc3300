/-
  FrameGraph.Proofs.Notation.Reading: what each reader makes of what is written for it.

  A reader reads a text as a datum if it leaves whatever punctuation stands behind (`Reads`).
  Numbers, texts and words come first, then the brackets: a list with a line for each part is
  read part by part (`reads_lines`), given that every part reads. Every bracket, and every part
  in it, takes a level of depth.
-/

import FrameGraph.Proofs.Notation.Words
import FrameGraph.Ron.Schema

namespace FrameGraph.Ron.Reader

-- Powers are the core ones, as where numbers are read.
local instance (priority := high) partPower : Pow Nat Nat := instPowNat

variable {α β κ : Type} {n : Nat}

/-! ## Steps -/

/-- The plain dialect, with some levels left. -/
def level (depth : Nat) : Mode := ⟨.plain, depth, false⟩

@[simp] theorem run_pure (a : α) (m : Mode) (cs : List Char) : (pure a : Reader α).run m cs = some (a, cs) := rfl

@[simp] theorem run_bind (x : Reader α) (f : α → Reader β) (m : Mode) (cs : List Char) :
    (x >>= f).run m cs = (x.run m cs).bind fun r => (f r.1).run m r.2 := rfl

@[simp] theorem run_map (f : α → β) (x : Reader α) (m : Mode) (cs : List Char) :
    (f <$> x).run m cs = (x.run m cs).map fun r => (f r.1, r.2) := by
  show (x.run m cs).bind (fun r => some (f r.1, r.2)) = _
  cases x.run m cs <;> rfl

@[simp] theorem run_mode (m : Mode) (cs : List Char) : mode.run m cs = some (m, cs) := rfl

@[simp] theorem run_next? (m : Mode) (cs : List Char) : next?.run m cs = some (cs.head?, cs) := rfl

@[simp] theorem run_ofOption (a : α) (m : Mode) (cs : List Char) : (ofOption (some a)).run m cs = some (a, cs) := rfl

@[simp] theorem run_nested (x : Reader α) (cs : List Char) : (nested x).run (level (n + 1)) cs = x.run (level n) cs := rfl

@[simp] theorem run_setBare (x : Reader α) (cs : List Char) :
    (setBare false x).run (level n) cs = x.run (level n) cs := rfl

@[simp] theorem run_gap (m : Mode) (cs : List Char) : gap.run m cs = (dropGap? cs).map fun r => ((), r) := rfl

@[simp] theorem run_char (c : Char) (m : Mode) (cs : List Char) : (char c).run m (c :: cs) = some ((), cs) := by
  show (dropChar? c (c :: cs)).map _ = _
  simp [dropChar?]

@[simp] theorem run_comma (m : Mode) (cs : List Char) : comma.run m cs = comma? cs := rfl

@[simp] theorem run_name (m : Mode) (cs : List Char) : name.run m cs = name? cs := rfl

@[simp] theorem run_text (m : Mode) (cs : List Char) : text.run m cs = text? cs := rfl

theorem run_keyword (word : String) (m : Mode) (cs : List Char) :
    (keyword word).run m cs = some (match dropKeyword? word cs with
      | some r => (true, r)
      | none => (false, cs)) := by
  show ((if (dropKeyword? word cs).isSome then _ else _ : Reader Bool)).run m cs = _
  cases found : dropKeyword? word cs with
  | none => rfl
  | some r =>
    show ((dropKeyword? word cs).map _).bind _ = _
    rw [found]
    rfl

/-! ## Words -/

/-- The text reads as a datum, whatever punctuation follows. -/
def Reads (x : Reader α) (m : Mode) (cs : List Char) (a : α) : Prop :=
  ∀ rest, Ends rest → x.run m (cs ++ rest) = some (a, rest)

theorem Reads.map {x : Reader α} {m : Mode} {cs : List Char} {a : α} (h : Reads x m cs a) (f : α → β) :
    Reads (f <$> x) m cs (f a) := by
  intro rest ends
  rw [run_map, h rest ends, Option.map_some]

theorem Reads.nested {x : Reader α} {cs : List Char} {a : α} (h : Reads x (level n) cs a) :
    Reads (nested x) (level (n + 1)) cs a := h

theorem reads_keyword (word : String) (m : Mode) : Reads (keyword word) m word.toList true := by
  intro rest ends
  rw [run_keyword, dropKeyword?_written word ends]

theorem run_keyword_other {word : String} {cs : List Char} (m : Mode) (h : word.toList.isPrefixOf cs = false) :
    (keyword word).run m cs = some (false, cs) := by
  rw [run_keyword, dropKeyword?_other h]

theorem reads_name {key : String} (h : isName key = true) (m : Mode) : Reads name m key.toList key :=
  fun _ ends => name?_written h ends

theorem reads_bool (b : Bool) (m : Mode) : Reads bool m (if b then "true" else "false").toList b := by
  intro rest ends
  cases b with
  | true =>
    have read := reads_keyword "true" m rest ends
    rw [bool, run_bind, if_pos rfl, read]
    rfl
  | false =>
    have other : (keyword "true").run m ("false".toList ++ rest) = some (false, "false".toList ++ rest) :=
      run_keyword_other m rfl
    have read := reads_keyword "false" m rest ends
    rw [bool, run_bind, if_neg Bool.false_ne_true, other]
    show ((keyword "false").run m _).bind _ = _
    rw [read]
    rfl

/-- Numbers end where punctuation begins. -/
theorem reads_number {cs : List Char} (parts : ∀ c ∈ cs, isNumberPart c = true) (m : Mode) :
    Reads number m cs cs := by
  intro rest ends
  have run := Decimal.takeWhile_run isNumberPart cs rest parts fun c head =>
    isNumberPart_delimiter c (ends c head)
  show some ((cs ++ rest).takeWhile isNumberPart, (cs ++ rest).dropWhile isNumberPart) = _
  rw [run.1, run.2]

theorem isNumberPart_toDigits {k : Nat} {c : Char} (h : c ∈ Nat.toDigits 10 k) : isNumberPart c = true := by
  simp [isNumberPart, Char.isAlphanum, Decimal.isDigit_toDigits h]

theorem reads_unsigned {k bits : Nat} (range : k < 2 ^ bits) (suffix : String) (m : Mode) :
    Reads (unsigned suffix bits) m (Nat.toDigits 10 k) k := by
  intro rest ends
  simp [unsigned, reads_number (fun c => isNumberPart_toDigits) m rest ends, Number.readUnsigned?_toDigits range]

theorem isNumberPart_text (x : Binary32) : ∀ c ∈ x.text.toList, isNumberPart c = true := by
  unfold Binary32.text
  rw [← List.all_eq_true]
  split
  · cases x.negative <;> rfl
  split
  · cases x.negative <;> rfl
  split
  · cases x.negative <;> rfl
  · rw [List.all_eq_true]
    intro c h
    rcases Number.text_chars _ h with digit | rfl | rfl
    · simp [isNumberPart, Char.isAlphanum, digit]
    · rfl
    · rfl

theorem reads_binary32 (x : Binary32) (m : Mode) : Reads binary32 m x.text.toList x.plain := by
  intro rest ends
  simp [binary32, reads_number (isNumberPart_text x) m rest ends, Number.readBinary32?_text x]

theorem reads_text (s : String) (m : Mode) : Reads text m (Text.quoted s).toList s := by
  intro rest _
  rw [run_text, text?, Quoted.text_quoted]
  simp

/-! ## One value between parentheses -/

theorem dropGap?_close {close : Char} (closes : close ∈ [')', ']', '\x7d']) (cs : List Char) :
    dropGap? (close :: cs) = some (close :: cs) := by
  have gap : isGap close = false := none_of (by decide) close closes
  have slash : close ≠ '/' := by
    intro same
    subst same
    exact absurd closes (by decide)
  exact dropGap?_stop gap slash cs

theorem comma?_close {close : Char} (closes : close ∈ [')', ']', '\x7d']) (cs : List Char) :
    comma? (close :: cs) = some (false, close :: cs) := by
  have comma : close ≠ ',' := by
    intro same
    subst same
    exact absurd closes (by decide)
  unfold comma?
  rw [dropGap?_close closes]
  split
  · rename_i none
    cases none
  · rename_i found
    cases found
    exact absurd rfl comma
  · rename_i found
    cases found
    rfl

/-- No type is named before a parenthesis. -/
theorem run_typeName (type : String) (cs : List Char) :
    (typeName type).run (level n) ('(' :: cs) = some (false, '(' :: cs) := by
  have outside : Text.isIdentifierPart '(' = false := by decide
  simp [typeName, outside, level, Dialect.plain]

/-- A gap before a text may be passed over. -/
theorem Reads.afterGap {x : Reader α} {m : Mode} {cs : List Char} {a : α} (h : Reads x m cs a) (solid : Solid cs) :
    Reads (do gap; x) m cs a := by
  intro rest ends
  rw [run_bind, run_gap, dropGap?_solid (solid.append rest)]
  exact h rest ends

/-- So may the name of the type before a parenthesis. -/
theorem Reads.afterType {x : Reader α} {cs : List Char} {a : α} (h : Reads x (level n) ('(' :: cs) a) (type : String) :
    Reads (do let _ ← typeName type; x) (level n) ('(' :: cs) a := by
  intro rest ends
  rw [run_bind, List.cons_append, run_typeName]
  exact h rest ends

theorem reads_unit (type : String) : Reads (Reader.unit type) (level n) ['(', ')'] () := by
  intro rest _
  have named := run_typeName (n := n) type (')' :: rest)
  have whole : (level n).bare = false := rfl
  simp [Reader.unit, named, whole, emptyParentheses]

theorem reads_enclosed {content : Reader α} {cs : List Char} {a : α} (solid : Solid cs)
    (h : Reads content (level n) cs a) : Reads (enclosed false content) (level (n + 1)) ('(' :: cs ++ [')']) a := by
  intro rest _
  have first := dropGap?_solid (solid.append (')' :: rest))
  have read := h (')' :: rest) (ends_cons (by decide) rest)
  have last : comma? (')' :: rest) = some (false, ')' :: rest) := comma?_close (by decide) rest
  simp [enclosed, first, read, last]

theorem reads_wrapped (type : String) {content : Reader α} {cs : List Char} {a : α} (solid : Solid cs)
    (h : Reads content (level n) cs a) : Reads (wrapped type content) (level (n + 1)) ('(' :: cs ++ [')']) a :=
  ((reads_enclosed solid h).afterGap (solid_cons (by decide) _)).afterType type

theorem reads_absent (content : Reader α) : Reads (option content) (level n) "None".toList none := by
  intro rest ends
  have read := reads_keyword "None" (level n) rest ends
  rw [option, run_bind, read]
  rfl

theorem reads_present {content : Reader α} {cs : List Char} {a : α} (solid : Solid cs)
    (h : Reads content (level n) cs a) :
    Reads (option content) (level (n + 1)) ("Some(".toList ++ cs ++ [')']) (some a) := by
  intro rest ends
  have split : "Some(".toList ++ cs ++ [')'] ++ rest = "Some".toList ++ ('(' :: cs ++ [')'] ++ rest) := by simp
  have other : (keyword "None").run (level (n + 1)) ("Some".toList ++ ('(' :: cs ++ [')'] ++ rest))
      = some (false, "Some".toList ++ ('(' :: cs ++ [')'] ++ rest)) := run_keyword_other _ rfl
  have word := reads_keyword "Some" (level (n + 1)) ('(' :: cs ++ [')'] ++ rest) (ends_cons (by decide) _)
  have stop := dropGap?_stop (c := '(') rfl (by decide) (cs ++ ')' :: rest)
  have read := reads_enclosed solid h rest ends
  have inner : (contentOfSome content).run (level (n + 1)) ('(' :: (cs ++ ')' :: rest)) = some (a, rest) := by
    have plain : (level (n + 1)).dialect.unwrapVariants = false := rfl
    simp only [List.cons_append, List.append_assoc, List.nil_append] at read
    simp [contentOfSome, stop, plain, read]
  simp only [List.cons_append, List.append_assoc, List.nil_append] at other word
  rw [split, option, run_bind]
  simp only [List.cons_append, List.append_assoc, List.nil_append]
  rw [other, Option.bind_some, if_neg Bool.false_ne_true, run_bind, word, Option.bind_some, if_pos rfl, run_map, inner]
  rfl

/-! ## Parts -/

theorem readParts_eq (close : Char) (part : Reader α) (m : Mode) (cs : List Char) :
    readParts close part m cs = (dropGap? cs).bind fun r =>
      if r.head? = some close then some ([], r)
      else (part.run m r).bind fun s => (comma? s.2).bind fun u =>
        if u.1 then (readParts close part m u.2).map fun r => (s.1 :: r.1, r.2)
        else if u.2.head? = some close then some ([s.1], u.2) else none := by
  rw [readParts]
  split <;> rename_i gap <;> rw [gap]
  · rfl
  rw [Option.bind_some]
  split
  · rfl
  split <;> rename_i taken <;> rw [taken]
  · rfl
  rw [Option.bind_some]
  split <;> rename_i separated <;> rw [separated] <;> rfl

variable {close : Char} {part : Reader α} {m : Mode} {cs rest : List Char}

/-- Gaps before the first part do not matter. -/
theorem readParts_dropped {r : List Char} (h : dropGap? cs = some r) :
    readParts close part m r = readParts close part m cs := by
  rw [readParts_eq, readParts_eq _ _ _ cs, h, dropGap?_dropped h]

theorem readParts_none (h : dropGap? cs = some (close :: rest)) :
    readParts close part m cs = some ([], close :: rest) := by
  rw [readParts_eq, h]
  simp

/-- A last part without a comma. -/
theorem readParts_last {a : α} (closes : close ∈ [')', ']', '\x7d']) (solid : Solid cs) (h : Reads part m cs a)
    (ends : close ∈ delimiters) : readParts close part m (cs ++ close :: rest) = some ([a], close :: rest) := by
  have first := dropGap?_solid (solid.append (close :: rest))
  have opens := (solid.append (close :: rest)).head? closes
  have read := h (close :: rest) (ends_cons ends rest)
  rw [readParts_eq, first, Option.bind_some, if_neg opens, read]
  simp [comma?_close closes]

/-- A part with a comma behind it, and what may stand before the next. -/
theorem readParts_more {a : α} (closes : close ∈ [')', ']', '\x7d']) (solid : Solid cs) (h : Reads part m cs a)
    {more : List Char} {as : List α} (others : readParts close part m more = some (as, rest)) :
    readParts close part m (cs ++ ',' :: more) = some (a :: as, rest) := by
  have first := dropGap?_solid (solid.append (',' :: more))
  have opens := (solid.append (',' :: more)).head? closes
  have read := h (',' :: more) (ends_cons (by decide) more)
  have comma := dropGap?_stop (c := ',') rfl (by decide) more
  cases dropped : dropGap? more with
  | none =>
    rw [readParts_eq, dropped] at others
    cases others
  | some r =>
    have separated : comma? (',' :: more) = some (true, r) := by simp [comma?, comma, dropped]
    rw [← readParts_dropped dropped] at others
    rw [readParts_eq, first, Option.bind_some, if_neg opens, read]
    simp [separated, others]

/-! ## Brackets -/

theorem run_bracketed (opening : Char) (closes : close ∈ [')', ']', '\x7d']) {as : List α}
    (h : readParts close part (level n) cs = some (as, close :: rest)) :
    (bracketed opening close false part).run (level (n + 1)) (opening :: cs) = some (as, rest) := by
  have inner : (parts close part).run (level n) cs = some (as, close :: rest) := h
  simp [bracketed, inner, dropGap?_close closes]

theorem reads_pair {item : Reader α} {cs ds : List Char} {a b : α} (solid : Solid cs) (h : Reads item (level n) cs a)
    (solid' : Solid ds) (h' : Reads item (level n) ds b) :
    Reads (Reader.pair item) (level (n + 2)) ('(' :: cs ++ ',' :: ' ' :: ds ++ [')']) [a, b] := by
  intro rest _
  have second : readParts ')' (Reader.nested item) (level (n + 1)) (ds ++ ')' :: rest) = some ([b], ')' :: rest) :=
    readParts_last (by decide) solid' h'.nested (by decide)
  have blank : dropGap? (' ' :: (ds ++ ')' :: rest)) = some (ds ++ ')' :: rest) :=
    (dropGap?_blanks [' '] (by decide) _).trans (dropGap?_solid (solid'.append _))
  have both : readParts ')' (Reader.nested item) (level (n + 1)) (cs ++ ',' :: ' ' :: (ds ++ ')' :: rest))
      = some ([a, b], ')' :: rest) := by
    refine readParts_more (by decide) solid h.nested ?_
    rw [← readParts_dropped blank, second]
  have whole : (level (n + 2)).bare = false := rfl
  have read := run_bracketed (n := n + 1) '(' (by decide) both
  simp [Reader.pair, whole, read]

/-- Texts on lines of their own, each with a comma behind it. -/
def lines (depth : Nat) (texts : List (List Char)) : List Char :=
  texts.flatMap fun cs => Value.newline depth ++ cs ++ [',']

theorem readParts_lines {ι : Type} {written : ι → List Char} {value : ι → α}
    (closes : close ∈ [')', ']', '\x7d']) (depth : Nat) {items : List ι}
    (h : ∀ i ∈ items, Solid (written i) ∧ Reads part m (written i) (value i))
    {tail : List Char} (last : dropGap? tail = some (close :: rest)) :
    readParts close part m (lines depth (items.map written) ++ tail) = some (items.map value, close :: rest) := by
  induction items with
  | nil => exact readParts_none last
  | cons i items ih =>
    obtain ⟨solid, read⟩ := h i List.mem_cons_self
    have others := ih fun j hj => h j (List.mem_cons_of_mem _ hj)
    have found := readParts_more closes solid read others
    have gap : dropGap? (lines depth ((i :: items).map written) ++ tail)
        = some (written i ++ ',' :: (lines depth (items.map written) ++ tail)) := by
      simp only [lines, List.map_cons, List.flatMap_cons, List.append_assoc, List.cons_append, List.nil_append]
      rw [dropGap?_newline]
      exact dropGap?_solid (solid.append _)
    rw [← readParts_dropped gap, found, List.map_cons]

/-- Parts on lines of their own between brackets. -/
theorem reads_lines {ι : Type} {written : ι → List Char} {value : ι → α} (opening close : Char)
    (closes : close ∈ [')', ']', '\x7d']) (depth : Nat) {items : List ι}
    (h : ∀ i ∈ items, Solid (written i) ∧ Reads part (level n) (written i) (value i)) :
    Reads (bracketed opening close false part) (level (n + 1))
      (opening :: lines (depth + 1) (items.map written) ++ Value.closing depth items.isEmpty close)
      (items.map value) := by
  intro rest _
  have last : dropGap? (Value.closing depth items.isEmpty close ++ rest) = some (close :: rest) := by
    unfold Value.closing
    rw [List.append_assoc]
    split
    · exact dropGap?_close closes rest
    · rw [dropGap?_newline]
      exact dropGap?_close closes rest
  have found := readParts_lines closes (depth + 1) h last
  have read := run_bracketed opening closes found
  rwa [List.append_assoc]

theorem reads_keyed {key : Reader κ} {value : κ → Reader α} {ks vs : List Char} {k : κ} {a : α}
    (h : Reads key (level n) ks k) (solid : Solid vs) (h' : Reads (value k) (level n) vs a) :
    Reads (keyed key value) (level (n + 1)) (ks ++ ':' :: ' ' :: vs) a := by
  intro rest ends
  have read := h (':' :: ' ' :: (vs ++ rest)) (ends_cons (by decide) _)
  have colon := dropGap?_stop (c := ':') rfl (by decide) (' ' :: (vs ++ rest))
  have blank := dropGap?_blanks [' '] (by decide) (vs ++ rest)
  have first := dropGap?_solid (solid.append rest)
  have read' := h' rest ends
  rw [first] at blank
  simp only [List.cons_append, List.nil_append] at blank
  simp [keyed, read, colon, blank, read']

/-- Wanted fields on lines of their own. -/
theorem reads_fields {field? : String → Option (Reader α)} {written : String × α → List Char} (depth : Nat)
    {fields : List (String × α)} (h : ∀ f ∈ fields, isName f.1 = true ∧ Solid (written f)
      ∧ ∃ value, field? f.1 = some value ∧ Reads value (level n) (written f) f.2) :
    Reads (Reader.fields false field?) (level (n + 2))
      ('(' :: lines (depth + 1) (fields.map fun f => f.1.toList ++ ':' :: ' ' :: written f)
        ++ Value.closing depth fields.isEmpty ')') fields := by
  have wanted : (fields.map some).filterMap id = fields := by simp [List.filterMap_map]
  refine (congrArg (Reads (Reader.fields false field?) (level (n + 2)) _) wanted).mp ?_
  show Reads (List.filterMap id <$> bracketed '(' ')' false (keyed name _)) _ _ _
  refine (reads_lines '(' ')' (by decide) depth fun f hf => ?_).map _
  obtain ⟨named, solid, value, known, read⟩ := h f hf
  refine ⟨(solid_name named).append _, reads_keyed (reads_name named _) solid ?_⟩
  simp only [known]
  exact read.map fun a => some (f.1, a)

end FrameGraph.Ron.Reader
