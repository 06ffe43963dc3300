/-
  FrameGraph.Table: finite maps that remember the order in which keys were added.

  A table is its list of entries, with no key twice. Putting a known key again replaces the
  value where it stands, a new key goes to the end, and removal closes the gap.
-/

namespace FrameGraph

structure Table (κ α : Type) where
  entries : List (κ × α)
  nodup : (entries.map Prod.fst).Nodup
  deriving DecidableEq, Repr

namespace Table

variable {κ α : Type}

def empty : Table κ α := ⟨[], by simp⟩

instance : Inhabited (Table κ α) := ⟨empty⟩

def keys (t : Table κ α) : List κ := t.entries.map Prod.fst

def values (t : Table κ α) : List α := t.entries.map Prod.snd

def size (t : Table κ α) : Nat := t.entries.length

@[ext] theorem ext {s t : Table κ α} (h : s.entries = t.entries) : s = t := by
  cases s; cases t; cases h; rfl

/-! ## Changing values in place -/

/-- Changes every value, given its key. -/
def mapWithKey {β : Type} (f : κ → α → β) (t : Table κ α) : Table κ β where
  entries := t.entries.map fun e => (e.1, f e.1 e.2)
  nodup := by
    have h := t.nodup
    rw [List.map_map]
    exact h

@[simp] theorem keys_mapWithKey {β : Type} (f : κ → α → β) (t : Table κ α) :
    (t.mapWithKey f).keys = t.keys := by
  simp [keys, mapWithKey]

def map {β : Type} (f : α → β) (t : Table κ α) : Table κ β :=
  t.mapWithKey fun _ => f

variable [DecidableEq κ]

def modify (t : Table κ α) (k : κ) (f : α → α) : Table κ α :=
  t.mapWithKey fun key v => if key = k then f v else v

@[simp] theorem keys_modify (t : Table κ α) (k : κ) (f : α → α) :
    (t.modify k f).keys = t.keys := keys_mapWithKey _ _

/-! ## Looking up -/

def get? (t : Table κ α) (k : κ) : Option α :=
  (t.entries.find? fun e => decide (e.1 = k)).map Prod.snd

theorem find?_of_mem {k : κ} {v : α} : ∀ {l : List (κ × α)}, (l.map Prod.fst).Nodup →
    (k, v) ∈ l → (l.find? fun e => decide (e.1 = k)) = some (k, v)
  | e :: l, nodup, member => by
    simp only [List.map_cons, List.nodup_cons] at nodup
    rcases List.mem_cons.1 member with rfl | rest
    · simp
    · have ne : e.1 ≠ k := fun eq => nodup.1 (eq ▸ List.mem_map.2 ⟨(k, v), rest, rfl⟩)
      rw [List.find?_cons_of_neg (by simpa using ne)]
      exact find?_of_mem nodup.2 rest

theorem get?_eq_some_iff {t : Table κ α} {k : κ} {v : α} :
    t.get? k = some v ↔ (k, v) ∈ t.entries := by
  constructor
  · intro h
    obtain ⟨⟨key, value⟩, found, rfl⟩ := Option.map_eq_some_iff.1 h
    have key_eq : key = k := by simpa using List.find?_some found
    exact key_eq ▸ List.mem_of_find?_eq_some found
  · intro h
    simp [get?, find?_of_mem t.nodup h]

theorem mem_keys_iff {t : Table κ α} {k : κ} : k ∈ t.keys ↔ ∃ v, t.get? k = some v := by
  simp [keys, get?_eq_some_iff]

theorem mem_keys_of_get? {t : Table κ α} {k : κ} {v : α} (h : t.get? k = some v) :
    k ∈ t.keys :=
  mem_keys_iff.2 ⟨v, h⟩

theorem get?_eq_none_iff {t : Table κ α} {k : κ} : t.get? k = none ↔ k ∉ t.keys := by
  simp [mem_keys_iff, Option.eq_none_iff_forall_ne_some]

@[simp] theorem get?_empty (k : κ) : (empty : Table κ α).get? k = none := rfl

@[simp] theorem get?_mapWithKey {β : Type} (f : κ → α → β) (t : Table κ α) (k : κ) :
    (t.mapWithKey f).get? k = (t.get? k).map (f k) := by
  cases h : t.get? k with
  | none => simp_all [get?_eq_none_iff]
  | some v =>
    refine get?_eq_some_iff.2 (List.mem_map.2 ⟨(k, v), get?_eq_some_iff.1 h, rfl⟩)

@[simp] theorem get?_map {β : Type} (f : α → β) (t : Table κ α) (k : κ) :
    (t.map f).get? k = (t.get? k).map f := get?_mapWithKey _ _ _

theorem get?_modify (t : Table κ α) (k key : κ) (f : α → α) :
    (t.modify k f).get? key = if key = k then (t.get? key).map f else t.get? key := by
  rw [modify, get?_mapWithKey]
  split <;> simp

def contains (t : Table κ α) (k : κ) : Bool :=
  decide (k ∈ t.keys)

@[simp] theorem contains_iff {t : Table κ α} {k : κ} : t.contains k = true ↔ k ∈ t.keys := by
  simp [contains]

/-! ## Adding and removing -/

def insert (t : Table κ α) (k : κ) (v : α) : Table κ α :=
  if h : k ∈ t.keys then t.modify k fun _ => v
  else
    { entries := t.entries ++ [(k, v)]
      nodup := by
        rw [List.map_append, List.nodup_append]
        refine ⟨t.nodup, by simp, ?_⟩
        intro a ha b hb hab
        simp only [List.map_cons, List.map_nil, List.mem_singleton] at hb
        exact h (by rw [← hb, ← hab]; exact ha) }

theorem entries_insert_of_new {t : Table κ α} {k : κ} {v : α} (h : k ∉ t.keys) :
    (t.insert k v).entries = t.entries ++ [(k, v)] := by
  simp [insert, h]

theorem keys_insert (t : Table κ α) (k : κ) (v : α) :
    (t.insert k v).keys = if k ∈ t.keys then t.keys else t.keys ++ [k] := by
  split
  · simp [insert, *]
  · rename_i h
    simp [keys, entries_insert_of_new h]

theorem get?_insert (t : Table κ α) (k key : κ) (v : α) :
    (t.insert k v).get? key = if key = k then some v else t.get? key := by
  by_cases h : k ∈ t.keys
  · obtain ⟨w, hw⟩ := mem_keys_iff.1 h
    simp only [insert, h, dite_true, get?_modify]
    split <;> simp_all
  · simp only [get?, entries_insert_of_new h, List.find?_append]
    split
    · subst key
      have absent := Option.map_eq_none_iff.1 (get?_eq_none_iff.2 h)
      simp [absent]
    · rename_i ne
      simp [Ne.symm ne]

def erase (t : Table κ α) (k : κ) : Table κ α where
  entries := t.entries.filter fun e => decide (e.1 ≠ k)
  nodup := t.nodup.sublist (List.filter_sublist.map _)

theorem keys_erase (t : Table κ α) (k : κ) :
    (t.erase k).keys = t.keys.filter fun key => decide (key ≠ k) := by
  simp only [keys, erase, List.filter_map]
  rfl

theorem get?_erase (t : Table κ α) (k key : κ) :
    (t.erase k).get? key = if key = k then none else t.get? key := by
  split
  · simp [get?_eq_none_iff, keys_erase, *]
  · apply Option.ext
    intro v
    simp_all [get?_eq_some_iff, erase]

/-- Enters pairs one after another. -/
def ofList (entries : List (κ × α)) : Table κ α :=
  entries.foldl (fun t e => t.insert e.1 e.2) empty

end Table

end FrameGraph
