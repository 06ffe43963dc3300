/-
  FrameGraph.Proofs.Notation.TypeNames: the written form of a type.

  Reading a type first drops the white space at both ends of a text; what is left over is settled
  by that (`trims_iff`). It takes what is left if this is the written form of a plain type, one
  whose base is not empty and holds neither brackets nor white space (`parse_eq_ok_iff`), and
  quotes it in the complaint otherwise (`parse_eq_error_iff`). So plain types are read back as they
  were written, and no two of them are written alike (`parse_exact`).
-/

import FrameGraph.PinType
import Mathlib.Data.List.DropRight

namespace FrameGraph

namespace Text

/-! ## Trimming -/

variable {s text front back : List Char}

/-- `text` is what remains of `s` without the white space at both ends. -/
structure Trims (s text : List Char) : Prop where
  cut : ∃ front back, s = front ++ (text ++ back) ∧ (∀ c ∈ front, isBlank c = true) ∧ ∀ c ∈ back, isBlank c = true
  first : ∀ c, text.head? = some c → isBlank c = false
  last : ∀ c, text.getLast? = some c → isBlank c = false

theorem dropWhile_blank (blank : ∀ c ∈ front, isBlank c = true)
    (first : ∀ c, text.head? = some c → isBlank c = false) : (front ++ text).dropWhile isBlank = text := by
  rw [List.dropWhile_append_of_pos blank]
  cases text with
  | nil => rfl
  | cons c text => exact List.dropWhile_cons_of_neg (by simp [first c rfl])

theorem trimEnd_blank (blank : ∀ c ∈ back, isBlank c = true)
    (last : ∀ c, text.getLast? = some c → isBlank c = false) : trimEnd (text ++ back) = text := by
  have reversed : (back.reverse ++ text.reverse).dropWhile isBlank = text.reverse :=
    dropWhile_blank (by simpa using blank) (by simpa using last)
  rw [trimEnd, List.reverse_append, reversed, List.reverse_reverse]

theorem Trims.trim_eq (h : Trims s text) : trim s = text := by
  obtain ⟨⟨front, back, rfl, before, after⟩, first, last⟩ := h
  rw [trim]
  cases text with
  | nil =>
    -- Where nothing is left, the white space behind goes with that in front.
    have blank : ∀ c ∈ front ++ back, isBlank c = true := List.forall_mem_append.2 ⟨before, after⟩
    rw [List.nil_append, List.dropWhile_eq_nil_iff.2 blank]
    rfl
  | cons c text =>
    have start : ∀ d, (c :: text ++ back).head? = some d → isBlank d = false := first
    rw [dropWhile_blank before start, trimEnd_blank after last]

theorem trims_trim (s : List Char) : Trims s (trim s) := by
  let rest := s.dropWhile isBlank
  have joined : trim s ++ rest.rtakeWhile isBlank = rest := List.rdropWhile_append_rtakeWhile
  refine ⟨⟨s.takeWhile isBlank, rest.rtakeWhile isBlank, ?_, ?_, ?_⟩, fun c head => ?_, fun c ending => ?_⟩
  · rw [joined, List.takeWhile_append_dropWhile]
  · exact fun c member => List.mem_takeWhile_imp member
  · exact fun c member => List.mem_rtakeWhile_imp member
  · have kept := List.head?_dropWhile_not isBlank s
    have head' : rest.head? = some c := by rw [← joined, List.head?_append, head]; rfl
    rw [head'] at kept
    simpa using kept
  · have kept := List.head?_dropWhile_not isBlank rest.reverse
    have end' : (trim s).getLast? = (rest.reverse.dropWhile isBlank).head? := List.getLast?_reverse
    rw [← end', ending] at kept
    simpa using kept

theorem trims_iff : Trims s text ↔ text = trim s :=
  ⟨fun h => h.trim_eq.symm, fun same => same ▸ trims_trim s⟩

end Text

namespace PinType

variable {s : String} {t t' : PinType} {base : List Char}

/-! ## Plain types -/

structure Plain (t : PinType) : Prop where
  nonempty : t.base ≠ ""
  clean : ∀ c ∈ t.base.toList, c ≠ '[' ∧ c ≠ ']' ∧ Text.isBlank c = false

theorem isBaseChar_iff {c : Char} : isBaseChar c = true ↔ c ≠ '[' ∧ c ≠ ']' ∧ Text.isBlank c = false := by
  simp [isBaseChar, and_assoc]

/-- What an array's base is followed by. -/
def brackets (isArray : Bool) : String := if isArray then "[]" else ""

theorem toString_eq (t : PinType) : toString t = t.base ++ brackets t.isArray := by
  obtain ⟨base, isArray⟩ := t
  cases isArray
  · exact String.append_empty.symm
  · rfl

theorem toList_toString (t : PinType) : (toString t).toList = t.base.toList ++ (brackets t.isArray).toList := by
  rw [toString_eq, String.toList_append]

/-! ## Splitting brackets off -/

@[simp] theorem brackets_array : brackets true = "[]" := rfl

@[simp] theorem brackets_scalar : brackets false = "" := rfl

theorem splitBrackets_join (cs : List Char) :
    cs = (splitBrackets cs).1 ++ (brackets (splitBrackets cs).2).toList := by
  unfold splitBrackets
  split
  · rename_i found
    obtain ⟨front, rfl⟩ := List.isSuffixOf_iff_suffix.1 found
    simp
  · simp

/-- Nothing but a final pair of brackets is split off. -/
theorem splitBrackets_eq (clean : ∀ c ∈ base, c ≠ ']') (isArray : Bool) :
    splitBrackets (base ++ (brackets isArray).toList) = (base, isArray) := by
  unfold splitBrackets
  cases isArray with
  | true =>
    have found : ['[', ']'].isSuffixOf (base ++ (brackets true).toList) = true :=
      List.isSuffixOf_iff_suffix.2 (List.suffix_append ..)
    rw [if_pos found]
    simp
  | false =>
    have absent : ¬['[', ']'].isSuffixOf (base ++ (brackets false).toList) = true := by
      intro found
      have member : ']' ∈ base ++ (brackets false).toList :=
        (List.isSuffixOf_iff_suffix.1 found).subset (by simp)
      rw [brackets_scalar, String.toList_empty, List.append_nil] at member
      exact clean _ member rfl
    rw [if_neg absent]
    simp

/-! ## Reading -/

theorem Plain.trims (plain : t.Plain) : Text.Trims (toString t).toList (toString t).toList := by
  obtain ⟨nonempty, clean⟩ := plain
  have filled : t.base.toList ≠ [] := fun none => nonempty (String.toList_eq_nil_iff.1 none)
  refine ⟨⟨[], [], by simp, nofun, nofun⟩, fun c head => ?_, fun c ending => ?_⟩
  · rw [toList_toString, List.head?_append_of_ne_nil _ filled] at head
    exact (clean c (List.mem_of_head? head)).2.2
  · rw [toList_toString] at ending
    cases array : t.isArray with
    | true =>
      -- The last character is the closing bracket.
      rw [array, brackets_array, List.getLast?_append_of_ne_nil _ (by decide)] at ending
      cases ending
      decide
    | false =>
      rw [array, brackets_scalar, String.toList_empty, List.append_nil] at ending
      exact (clean c (List.mem_of_getLast? ending)).2.2

theorem plain_ofList_iff {isArray : Bool} :
    Plain ⟨String.ofList base, isArray⟩ ↔ (base.isEmpty || !base.all isBaseChar) = false := by
  rw [Bool.or_eq_false_iff, Bool.not_eq_false', List.all_eq_true, List.isEmpty_eq_false_iff]
  constructor
  · intro plain
    obtain ⟨nonempty, clean⟩ := plain
    rw [String.toList_ofList] at clean
    refine ⟨fun none => nonempty (by rw [none]), fun c member => isBaseChar_iff.2 (clean c member)⟩
  · intro checked
    obtain ⟨nonempty, clean⟩ := checked
    refine ⟨fun none => nonempty ?_, ?_⟩
    · exact String.ofList_eq_empty_iff.1 none
    · rw [String.toList_ofList]
      exact fun c member => isBaseChar_iff.1 (clean c member)

theorem parse_eq_ok_iff : parse s = .ok t ↔ t.Plain ∧ (toString t).toList = Text.trim s.toList := by
  constructor
  · intro read
    unfold parse at read
    dsimp only at read
    split at read
    · cases read
    · rename_i checked
      cases read
      refine ⟨plain_ofList_iff.2 (Bool.eq_false_iff.2 checked), ?_⟩
      rw [toList_toString, String.toList_ofList]
      exact (splitBrackets_join _).symm
  · intro written
    obtain ⟨plain, written⟩ := written
    have split : splitBrackets (Text.trim s.toList) = (t.base.toList, t.isArray) := by
      rw [← written, toList_toString]
      exact splitBrackets_eq (fun c member => (plain.clean c member).2.1) _
    have whole : (⟨String.ofList t.base.toList, t.isArray⟩ : PinType) = t := by rw [String.ofList_toList]
    have checked := plain_ofList_iff.1 (whole.symm ▸ plain)
    unfold parse
    simp only [split, checked, whole]
    rfl

theorem parse_eq_error_iff {e : Invalid} : parse s = .error e
    ↔ (∀ t : PinType, t.Plain → (toString t).toList ≠ Text.trim s.toList)
      ∧ e = ⟨String.ofList (Text.trim s.toList)⟩ := by
  have quoted : ∀ e, parse s = .error e → e = ⟨String.ofList (Text.trim s.toList)⟩ := by
    intro e refused
    unfold parse at refused
    dsimp only at refused
    split at refused <;> cases refused
    rfl
  cases read : parse s with
  | ok t =>
    obtain ⟨plain, written⟩ := parse_eq_ok_iff.1 read
    exact ⟨nofun, fun unwritten => absurd written (unwritten.1 t plain)⟩
  | error e' =>
    have unwritten : ∀ t : PinType, t.Plain → (toString t).toList ≠ Text.trim s.toList := by
      intro t plain written
      rw [parse_eq_ok_iff.2 ⟨plain, written⟩] at read
      cases read
    rw [quoted e' read, Except.error.injEq, eq_comm]
    exact ⟨fun same => ⟨unwritten, same⟩, And.right⟩

theorem parse_toString (plain : t.Plain) : parse (toString t) = .ok t :=
  parse_eq_ok_iff.2 ⟨plain, Text.trims_iff.1 plain.trims⟩

theorem toString_injective (plain : t.Plain) (plain' : t'.Plain) (same : toString t = toString t') : t = t' := by
  have read := parse_toString plain
  rw [same, parse_toString plain'] at read
  exact (Except.ok.inj read).symm

/-- How a text is read of which `text` remains: as the plain type that it spells, or not at all. -/
structure Reads (s text : String) : Prop where
  trims : Text.Trims s.toList text.toList
  taken : ∀ t, parse s = .ok t ↔ t.Plain ∧ text = t.base ++ brackets t.isArray
  shown : ∀ t, parse s = .ok t → toString t = text
  refused : ∀ e, parse s = .error e ↔ (∀ t : PinType, t.Plain → text ≠ t.base ++ brackets t.isArray) ∧ e = ⟨text⟩

theorem reads_trim (s : String) : Reads s (String.ofList (Text.trim s.toList)) := by
  have same (t : PinType) : (toString t).toList = Text.trim s.toList
      ↔ String.ofList (Text.trim s.toList) = t.base ++ brackets t.isArray := by
    rw [← toString_eq, ← String.toList_inj, String.toList_ofList, eq_comm]
  refine ⟨?_, fun t => ?_, fun t read => ?_, fun e => ?_⟩
  · rw [String.toList_ofList]
    exact Text.trims_trim _
  · rw [parse_eq_ok_iff, same]
  · rw [toString_eq, (same t).1 (parse_eq_ok_iff.1 read).2]
  · simp only [parse_eq_error_iff, ne_eq, same]

theorem Reads.text_eq {text : String} (h : Reads s text) : text = String.ofList (Text.trim s.toList) := by
  rw [← Text.trims_iff.1 h.trims, String.ofList_toList]

/-- Every text is read by what remains of it without white space at the ends, and plain types are
read back as they were written. -/
theorem parse_exact : (∀ s, ∃! text, Reads s text) ∧ (∀ t : PinType, t.Plain → parse (toString t) = .ok t)
    ∧ ∀ t t' : PinType, t.Plain → t'.Plain → toString t = toString t' → t = t' :=
  ⟨fun s => ⟨_, reads_trim s, fun _ h => h.text_eq⟩, fun _ => parse_toString, fun _ _ => toString_injective⟩

/-- One pair of brackets is split off, and only from the end. -/
example : ["\u3000Eye[]\n", "Eye[][]", "Eye []", "[]"].map parse
    = [.ok (.array "Eye"), .error ⟨"Eye[][]"⟩, .error ⟨"Eye []"⟩, .error ⟨"[]"⟩] := by cbv

end PinType

end FrameGraph
