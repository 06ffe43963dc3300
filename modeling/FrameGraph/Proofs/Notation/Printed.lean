/-
  FrameGraph.Proofs.Notation.Printed: printed values read back.

  A value fits a schema at some depth if it has the shape that the schema asks for, its names are
  identifiers, its numbers are in range, those that are not numbers have the usual bits, and it
  nests no deeper than the depth (`Fits`). Whatever fits is read back from its print
  (`read?_print`): every shape is read by the reader of its schema, given that its parts are
  (`Fits.reads`).
-/

import FrameGraph.Proofs.Notation.Reading

namespace FrameGraph.Ron

open Reader

-- Powers are the core ones, as where numbers are read.
local instance (priority := high) printedPower : Pow Nat Nat := instPowNat

inductive Fits : Schema → Nat → Value → Prop
  | bool {n : Nat} (b : Bool) : Fits .bool n (.bool b)
  | nat {suffix : String} {bits n k : Nat} : k < 2 ^ bits → Fits (.nat suffix bits) n (.nat k)
  | single {n : Nat} {x : Binary32} : x.plain = x → Fits .single n (.single x)
  | text {n : Nat} (s : String) : Fits .text n (.text s)
  | unit {n : Nat} (type : String) : Fits (.unit type) n .unit
  | wrapped {content : Schema} {n : Nat} {v : Value} (type : String) :
      Fits content n v → Fits (.wrapped type content) (n + 1) (.tuple none [v])
  | absent {content : Schema} {n : Nat} : Fits (.option content) n .absent
  | present {content : Schema} {n : Nat} {v : Value} :
      Fits content n v → Fits (.option content) (n + 1) (.present v)
  | pair {item : Schema} {n : Nat} {a b : Value} :
      Fits item n a → Fits item n b → Fits (.pair item) (n + 2) (.tuple none [a, b])
  | list {item : Schema} {n : Nat} {items : List Value} :
      (∀ v ∈ items, Fits item n v) → Fits (.list item) (n + 2) (.list items)
  | map {key value : Schema} {n : Nat} {entries : List (Value × Value)} :
      (∀ e ∈ entries, Fits key n e.1) → (∀ e ∈ entries, Fits value n e.2) →
        Fits (.map key value) (n + 2) (.map entries)
  | record {schemas : List (String × Schema)} {n : Nat} {fields : List (String × Value)} (type : String) :
      (∀ f ∈ fields, isName f.1 = true ∧ (schemas.lookup f.1).isSome) →
        (∀ f ∈ fields, ∀ s, schemas.lookup f.1 = some s → Fits s n f.2) →
          Fits (.record type schemas) (n + 2) (.record none fields)
  | word {cases : List (String × Case)} {n : Nat} {key : String} : isName key = true →
      cases.lookup key = some .plain → Fits (.choice cases) (n + 2) (.word key)
  | variant {cases : List (String × Case)} {content : Schema} {n : Nat} {key : String} {v : Value} :
      isName key = true → cases.lookup key = some (.holding content) → Fits content n v →
        Fits (.choice cases) (n + 2) (.tuple (some key) [v])
  | fields {cases : List (String × Case)} {schemas : List (String × Schema)} {n : Nat} {key : String}
      {fields : List (String × Value)} : isName key = true → cases.lookup key = some (.fields schemas) →
        (∀ f ∈ fields, isName f.1 = true ∧ (schemas.lookup f.1).isSome) →
          (∀ f ∈ fields, ∀ s, schemas.lookup f.1 = some s → Fits s n f.2) →
            Fits (.choice cases) (n + 3) (.record (some key) fields)

/-! ## Fields -/

/-- Each field has a schema that its value fits. -/
def Wanted (schemas : List (String × Schema)) (n : Nat) (fields : List (String × Value)) : Prop :=
  ∀ f ∈ fields, isName f.1 = true ∧ ∃ s, schemas.lookup f.1 = some s ∧ Fits s n f.2

theorem wanted_nil {schemas : List (String × Schema)} {n : Nat} : Wanted schemas n [] :=
  List.forall_mem_nil _

theorem wanted_cons {schemas : List (String × Schema)} {s : Schema} {n : Nat} {key : String} {v : Value}
    {fields : List (String × Value)} (named : isName key = true) (known : schemas.lookup key = some s)
    (fit : Fits s n v) (rest : Wanted schemas n fields) : Wanted schemas n ((key, v) :: fields) :=
  List.forall_mem_cons.2 ⟨⟨named, s, known, fit⟩, rest⟩

theorem Wanted.record {schemas : List (String × Schema)} {n : Nat} {fields : List (String × Value)}
    (h : Wanted schemas n fields) (type : String) : Fits (.record type schemas) (n + 2) (.record none fields) := by
  refine .record type (fun f hf => ?_) fun f hf s hs => ?_
  · obtain ⟨named, s, known, -⟩ := h f hf
    exact ⟨named, Option.isSome_of_eq_some known⟩
  · obtain ⟨-, s', known, fit⟩ := h f hf
    cases hs.symm.trans known
    exact fit

/-! ## Lines -/

theorem renderLines_eq (depth : Nat) (items : List Value) :
    Value.renderLines depth items = lines depth (items.map (Value.render depth)) := by
  induction items with
  | nil => rfl
  | cons v items ih => simp [Value.renderLines, ih, lines]

theorem renderFields_eq (depth : Nat) (fields : List (String × Value)) :
    Value.renderFields depth fields
      = lines depth (fields.map fun f => f.1.toList ++ ':' :: ' ' :: Value.render depth f.2) := by
  induction fields with
  | nil => rfl
  | cons f fields ih => simp [Value.renderFields, ih, lines]

theorem renderEntries_eq (depth : Nat) (entries : List (Value × Value)) :
    Value.renderEntries depth entries
      = lines depth (entries.map fun e => Value.render depth e.1 ++ ':' :: ' ' :: Value.render depth e.2) := by
  induction entries with
  | nil => rfl
  | cons e entries ih => simp [Value.renderEntries, ih, lines]

/-! ## Brackets -/

theorem render_pair (depth : Nat) (a b : Value) : Value.render depth (.tuple none [a, b])
    = '(' :: Value.render depth a ++ ',' :: ' ' :: Value.render depth b ++ [')'] := by
  show ['('] ++ (Value.render depth a ++ [',', ' '] ++ Value.render depth b) ++ [')'] = _
  simp

theorem render_variant (depth : Nat) (key : String) (v : Value) :
    Value.render depth (.tuple (some key) [v]) = key.toList ++ ('(' :: Value.render depth v ++ [')']) := by
  show key.toList ++ ['('] ++ Value.render depth v ++ [')'] = _
  simp

theorem render_fields (depth : Nat) (key : String) (fields : List (String × Value)) :
    Value.render depth (.record (some key) fields)
      = key.toList ++ ('(' :: Value.renderFields (depth + 1) fields ++ Value.closing depth fields.isEmpty ')') := by
  show key.toList ++ ['('] ++ Value.renderFields (depth + 1) fields ++ _ = _
  simp

/-! ## Look-ups -/

theorem fieldReader?_eq (schemas : List (String × Schema)) (key : String) :
    fieldReader? schemas key = (schemas.lookup key).map Schema.reader := by
  induction schemas with
  | nil => rfl
  | cons s schemas ih =>
    rw [fieldReader?, List.lookup_cons, ih]
    by_cases same : s.1 = key
    · simp [same]
    · have other : (key == s.1) = false := by simpa using fun h => same h.symm
      simp [same, other]

theorem caseReader?_eq (cases : List (String × Case)) (key : String) :
    caseReader? cases key = (cases.lookup key).map fun c => c.reader key := by
  induction cases with
  | nil => rfl
  | cons c cases ih =>
    rw [caseReader?, List.lookup_cons, ih]
    by_cases same : c.1 = key
    · simp [same]
    · have other : (key == c.1) = false := by simpa using fun h => same h.symm
      simp [same, other]

/-! ## Values -/

theorem solid_number {cs : List Char} (some : cs ≠ []) (h : ∀ c ∈ cs, isNumberPart c = true) : Solid cs := by
  obtain ⟨c, tail, rfl⟩ := List.exists_cons_of_ne_nil some
  exact solid_part (p := isNumberPart) (by decide +kernel) (h c List.mem_cons_self) tail

/-- Whatever fits begins with something that is no gap and closes no bracket. -/
theorem Fits.solid {s : Schema} {n : Nat} {v : Value} (h : Fits s n v) (depth : Nat) : Solid (v.render depth) := by
  cases h with
  | bool b => cases b <;> exact solid_cons (by decide) _
  | nat range => exact solid_number Nat.toDigits_ne_nil fun c => isNumberPart_toDigits
  | @single _ x plain => exact solid_number x.text_ne_nil (isNumberPart_text x)
  | text s =>
    show Solid (Text.quoted s).toList
    rw [Text.quoted, String.toList_ofList]
    exact solid_cons (by decide) _
  | absent => exact solid_cons (by decide) _
  | present content => exact solid_cons (by decide) _
  | word named known => exact solid_name named
  | variant named known content => exact (((solid_name named).append _).append _).append _
  | fields named known each fit => exact (((solid_name named).append _).append _).append _
  | _ => exact solid_cons (by decide) _

/-- Wanted fields read if each of them does. -/
theorem reads_record {schemas : List (String × Schema)} {n : Nat} {fields : List (String × Value)} (depth : Nat)
    (known : ∀ f ∈ fields, isName f.1 = true ∧ (schemas.lookup f.1).isSome)
    (fit : ∀ f ∈ fields, ∀ s, schemas.lookup f.1 = some s → Fits s n f.2)
    (read : ∀ f ∈ fields, ∀ s, schemas.lookup f.1 = some s →
      ∀ depth, Reads s.reader (level n) (f.2.render depth) f.2) :
    Reads (Reader.fields false (fieldReader? schemas)) (level (n + 2))
      ('(' :: Value.renderFields (depth + 1) fields ++ Value.closing depth fields.isEmpty ')') fields := by
  rw [renderFields_eq]
  refine reads_fields depth fun f hf => ?_
  obtain ⟨named, found⟩ := known f hf
  obtain ⟨s, hs⟩ := Option.isSome_iff_exists.1 found
  refine ⟨named, (fit f hf s hs).solid _, s.reader, ?_, read f hf s hs (depth + 1)⟩
  rw [fieldReader?_eq, hs, Option.map_some]

/-- A choice reads if the case of its name does. -/
theorem reads_choice {cases : List (String × Case)} {case : Case} {n : Nat} {key : String} {cs : List Char} {v : Value}
    (named : isName key = true) (known : cases.lookup key = some case)
    (follows : ∀ rest, Ends rest → Ends (cs ++ rest))
    (read : Reads (case.reader key) (level (n + 1)) cs v) :
    Reads (Schema.choice cases).reader (level (n + 2)) (key.toList ++ cs) v := by
  intro rest ends
  have first := dropGap?_solid ((solid_name named).append (cs ++ rest))
  have word := name?_written named (follows rest ends)
  have found : caseReader? cases key = some (case.reader key) := by rw [caseReader?_eq, known, Option.map_some]
  rw [Schema.reader, List.append_assoc]
  simp [first, word, found, read rest ends]

/-- Entries read if each key and each value does. -/
theorem reads_entries {key value : Reader Value} {n : Nat} {entries : List (Value × Value)} (depth : Nat)
    (keys : ∀ e ∈ entries, Solid (e.1.render (depth + 1)) ∧ Reads key (level n) (e.1.render (depth + 1)) e.1)
    (values : ∀ e ∈ entries, Solid (e.2.render (depth + 1)) ∧ Reads value (level n) (e.2.render (depth + 1)) e.2) :
    Reads (bracketed '\x7b' '\x7d' false (keyed key fun k => (fun v => (k, v)) <$> value)) (level (n + 2))
      ('\x7b' :: Value.renderEntries (depth + 1) entries ++ Value.closing depth entries.isEmpty '\x7d')
      entries := by
  have each : ∀ e ∈ entries, Solid (e.1.render (depth + 1) ++ ':' :: ' ' :: e.2.render (depth + 1))
      ∧ Reads (keyed key fun k => (fun v => (k, v)) <$> value) (level (n + 1))
        (e.1.render (depth + 1) ++ ':' :: ' ' :: e.2.render (depth + 1)) e := by
    intro e he
    obtain ⟨solid, read⟩ := keys e he
    obtain ⟨solid', read'⟩ := values e he
    exact ⟨solid.append _, reads_keyed read solid' (read'.map fun v => (e.1, v))⟩
  have read := reads_lines '\x7b' '\x7d' (by decide) depth each
  rwa [List.map_id', ← renderEntries_eq] at read

/-- Whatever fits is read as it was written. -/
theorem Fits.reads {s : Schema} {n : Nat} {v : Value} (h : Fits s n v) :
    ∀ depth, Reads s.reader (level n) (v.render depth) v := by
  induction h with
  | bool b => exact fun depth => (reads_bool b _).map Value.bool
  | nat range => exact fun depth => (reads_unsigned range _ _).map Value.nat
  | @single n x plain =>
    intro depth
    have read := (reads_binary32 x (level n)).map Value.single
    rw [plain] at read
    exact read
  | text s => exact fun depth => (reads_text s _).map Value.text
  | unit type => exact fun depth => (reads_unit type).map fun _ => Value.unit
  | wrapped type fit ih => exact fun depth => (reads_wrapped type (fit.solid depth) (ih depth)).map Value.wrapped
  | absent => exact fun depth => (reads_absent _).map Value.ofOption
  | present fit ih => exact fun depth => (reads_present (fit.solid depth) (ih depth)).map Value.ofOption
  | pair fit fit' ih ih' =>
    intro depth
    rw [render_pair]
    exact (reads_pair (fit.solid depth) (ih depth) (fit'.solid depth) (ih' depth)).map (Value.tuple none)
  | @list item n items fit ih =>
    intro depth
    have each : ∀ v ∈ items, Solid (v.render (depth + 1))
        ∧ Reads (Reader.nested item.reader) (level (n + 1)) (v.render (depth + 1)) v := fun v hv =>
      ⟨(fit v hv).solid (depth + 1), (ih v hv (depth + 1)).nested⟩
    have read := reads_lines '[' ']' (by decide) depth each
    rw [List.map_id', ← renderLines_eq] at read
    exact read.map Value.list
  | map keys values ihKeys ihValues =>
    intro depth
    have read := reads_entries depth (fun e he => ⟨(keys e he).solid (depth + 1), ihKeys e he (depth + 1)⟩)
      fun e he => ⟨(values e he).solid (depth + 1), ihValues e he (depth + 1)⟩
    exact read.map Value.map
  | record type known fit ih =>
    intro depth
    have read := (reads_record depth known fit ih).map (Value.record none)
    exact (read.afterGap (solid_cons (by decide) _)).afterType type
  | @word cases n key named known =>
    intro depth
    have read : Reads (Schema.choice cases).reader (level (n + 2)) (key.toList ++ []) (.word key) :=
      reads_choice named known (fun rest ends => ends) fun rest _ => rfl
    rwa [List.append_nil] at read
  | @variant cases content n key v named known fit ih =>
    intro depth
    have read := (reads_enclosed (fit.solid depth) (ih depth)).map (Value.variant key)
    rw [render_variant]
    exact reads_choice named known (fun rest _ => ends_cons (by decide) _)
      (read.afterGap (solid_cons (by decide) _))
  | @fields cases schemas n key fields named known each fit ih =>
    intro depth
    have read := (reads_record depth each fit ih).map (Value.record (some key))
    rw [render_fields]
    exact reads_choice named known (fun rest _ => ends_cons (by decide) _)
      (read.afterGap (solid_cons (by decide) _))

/-! ## Whole texts -/

/-- What fits at the depth that texts may have is read back from its print. -/
theorem Fits.read?_print {s : Schema} {v : Value} (h : Fits s depthLimit v) : s.read? v.print = some v := by
  have read := h.reads 0 [] ends_nil
  have gap := dropGap?_solid (h.solid 0)
  have attributes : readAttributes (level depthLimit) (v.render 0) = some (.plain, v.render 0) := by
    rw [readAttributes]
    · rfl
    · intro cs mark
      obtain ⟨c, tail, first, -, other⟩ := h.solid 0
      rw [mark] at first
      cases first
      exact other List.mem_cons_self
  rw [List.append_nil] at read
  rw [Schema.read?, readAll?, Value.print, String.toList_ofList, gap]
  show (readAttributes (level depthLimit) (v.render 0)).bind _ = _
  rw [attributes]
  show (s.reader.run (level depthLimit) (v.render 0)).bind _ = _
  rw [read]
  rfl

end FrameGraph.Ron
