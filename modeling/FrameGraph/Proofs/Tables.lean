/-
  FrameGraph.Proofs.Tables: what a table holds after several changes.

  Changing values in place composes, and only the values that are there matter. A run of
  `modify`s over distinct keys is one change in place; a run of `erase`s keeps the entries
  that none of the keys name, in their order. Values and look-ups say the same thing, and a
  property of each value found under its key can be checked entry by entry.
-/

import FrameGraph.Table

namespace FrameGraph.Table

variable {κ α β γ : Type}

/-! ## Changing values in place -/

theorem mapWithKey_mapWithKey (f : κ → α → β) (g : κ → β → γ) (t : Table κ α) :
    (t.mapWithKey f).mapWithKey g = t.mapWithKey fun k v => g k (f k v) := by
  apply ext
  simp [mapWithKey, Function.comp_def]

theorem mapWithKey_congr {f g : κ → α → β} {t : Table κ α}
    (h : ∀ k v, (k, v) ∈ t.entries → f k v = g k v) : t.mapWithKey f = t.mapWithKey g := by
  apply ext
  apply List.map_congr_left
  intro e he
  rw [h e.1 e.2 he]

theorem mapWithKey_id {f : κ → α → α} {t : Table κ α}
    (h : ∀ k v, (k, v) ∈ t.entries → f k v = v) : t.mapWithKey f = t := by
  rw [mapWithKey_congr h]
  apply ext
  simp [mapWithKey]

variable [DecidableEq κ]

/-! ## Entries, values and look-ups -/

theorem mem_values_iff {t : Table κ α} {v : α} : v ∈ t.values ↔ ∃ k, t.get? k = some v := by
  simp [values, get?_eq_some_iff]

theorem find?_values {t : Table κ α} {p : α → Bool} {v : α} (h : t.values.find? p = some v) :
    ∃ k, t.get? k = some v ∧ p v = true :=
  have ⟨k, hk⟩ := mem_values_iff.1 (List.mem_of_find?_eq_some h)
  ⟨k, hk, List.find?_some h⟩

theorem get?_of_mem {t : Table κ α} {k : κ} {v : α} (h : (k, v) ∈ t.entries) :
    t.get? k = some v :=
  get?_eq_some_iff.2 h

theorem get?_mapWithKey_eq_some {f : κ → α → β} {t : Table κ α} {k : κ} {b : β} :
    (t.mapWithKey f).get? k = some b ↔ ∃ v, t.get? k = some v ∧ f k v = b := by
  rw [get?_mapWithKey, Option.map_eq_some_iff]

theorem get?_erase_eq_some {t : Table κ α} {k key : κ} {v : α} :
    (t.erase k).get? key = some v ↔ t.get? key = some v ∧ key ≠ k := by
  rw [get?_erase]
  by_cases h : key = k <;> simp [h]

theorem erase_of_not_mem {t : Table κ α} {k : κ} (h : k ∉ t.keys) : t.erase k = t := by
  apply ext
  apply List.filter_eq_self.2
  intro e he
  have ne : e.1 ≠ k := fun eq => h (eq ▸ List.mem_map.2 ⟨e, he, rfl⟩)
  simp [ne]

/-- Putting a new key in and taking it out again. -/
theorem erase_insert {t : Table κ α} {k : κ} (new : k ∉ t.keys) (v : α) : (t.insert k v).erase k = t := by
  have kept : t.entries.filter (fun e => decide (e.1 ≠ k)) = t.entries :=
    congrArg entries (erase_of_not_mem new)
  apply ext
  simp only [erase, entries_insert_of_new new, List.filter_append, kept]
  simp

/-! ## Several keys at once -/

def eraseAll (t : Table κ α) (keys : List κ) : Table κ α := keys.foldl erase t

theorem entries_eraseAll (keys : List κ) (t : Table κ α) :
    (t.eraseAll keys).entries = t.entries.filter fun e => decide (e.1 ∉ keys) := by
  induction keys generalizing t with
  | nil => exact (List.filter_eq_self.2 fun _ _ => by simp).symm
  | cons k keys ih =>
    have step : t.eraseAll (k :: keys) = (t.erase k).eraseAll keys := rfl
    rw [step, ih, erase, List.filter_filter]
    apply List.filter_congr
    intro e _
    simp [Bool.and_comm]

theorem get?_eraseAll_eq_some {t : Table κ α} {keys : List κ} {k : κ} {v : α} :
    (t.eraseAll keys).get? k = some v ↔ t.get? k = some v ∧ k ∉ keys := by
  simp [get?_eq_some_iff, entries_eraseAll]

theorem keys_eraseAll (t : Table κ α) (keys : List κ) :
    (t.eraseAll keys).keys = t.keys.filter fun k => decide (k ∉ keys) := by
  simp only [Table.keys, entries_eraseAll, List.filter_map]
  rfl

theorem eraseAll_cons (t : Table κ α) (k : κ) (keys : List κ) :
    t.eraseAll (k :: keys) = (t.erase k).eraseAll keys := rfl

theorem eraseAll_append (t : Table κ α) (keys keys' : List κ) :
    t.eraseAll (keys ++ keys') = (t.eraseAll keys).eraseAll keys' :=
  List.foldl_append

/-- Known keys that are erased are those that were there before and are not there after. -/
theorem mem_dead_iff {t : Table κ α} {dead : List κ} (known : ∀ k ∈ dead, k ∈ t.keys) {k : κ} :
    k ∈ dead ↔ k ∈ t.keys ∧ k ∉ (t.eraseAll dead).keys := by
  rw [keys_eraseAll, List.mem_filter, decide_eq_true_iff]
  constructor
  · intro gone
    exact ⟨known k gone, fun kept => kept.2 gone⟩
  · intro lost
    exact Classical.byContradiction fun kept => lost.2 ⟨lost.1, kept⟩

theorem eraseAll_mapWithKey (f : κ → α → β) (t : Table κ α) (keys : List κ) :
    (t.mapWithKey f).eraseAll keys = (t.eraseAll keys).mapWithKey f := by
  apply ext
  simp only [entries_eraseAll, mapWithKey, List.filter_map]
  rfl

/-- The value assigned to a key, if there is one, changes what is stored there. -/
def assigned (f : β → α → α) (values : List (κ × β)) (k : κ) (v : α) : α :=
  match values.lookup k with
  | some b => f b v
  | none => v

/-- Modifying distinct keys one after another assigns all of their values at once. -/
theorem foldl_modify (f : β → α → α) {values : List (κ × β)} (distinct : (values.map Prod.fst).Nodup)
    (t : Table κ α) :
    values.foldl (fun t e => t.modify e.1 (f e.2)) t = t.mapWithKey (assigned f values) := by
  induction values generalizing t with
  | nil => exact (mapWithKey_id fun _ _ _ => rfl).symm
  | cons e values ih =>
    obtain ⟨key, b⟩ := e
    simp only [List.map_cons, List.nodup_cons] at distinct
    rw [List.foldl_cons, ih distinct.2, modify, mapWithKey_mapWithKey]
    apply mapWithKey_congr
    intro k v _
    by_cases h : k = key
    · subst h
      have absent : values.lookup k = none := by
        rw [List.lookup_eq_none_iff]
        intro p hp
        simp only [bne_iff_ne, ne_eq]
        exact fun eq => distinct.1 (eq ▸ List.mem_map.2 ⟨p, hp, rfl⟩)
      simp [assigned, absent]
    · have other : (k == key) = false := by simpa using h
      simp [assigned, List.lookup_cons, other, h]

end FrameGraph.Table
