/-
  FrameGraph.Proofs.Results: computations that may fail, taken apart and put together.
-/

import Mathlib.Data.List.Forall2

namespace FrameGraph

variable {α β ε : Type}

theorem bind_eq_ok_iff {x : Except ε α} {f : α → Except ε β} {b : β} :
    (x >>= f) = .ok b ↔ ∃ a, x = .ok a ∧ f a = .ok b := by
  cases x with
  | error e => exact ⟨nofun, fun ⟨_, h, _⟩ => nomatch h⟩
  | ok a =>
    refine ⟨fun h => ⟨a, rfl, h⟩, ?_⟩
    intro found
    obtain ⟨_, ⟨⟩, h⟩ := found
    exact h

theorem mapM_ok {f : α → Except ε β} {g : α → β} :
    ∀ {l : List α}, (∀ a ∈ l, f a = .ok (g a)) → l.mapM f = .ok (l.map g)
  | [], _ => rfl
  | a :: l, h => by
    rw [List.mapM_cons, h a List.mem_cons_self, mapM_ok fun a ha => h a (List.mem_cons_of_mem _ ha)]
    rfl

theorem mapM_eq_ok {f : α → Except ε β} :
    ∀ {l : List α} {bs : List β}, l.mapM f = .ok bs → List.Forall₂ (fun a b => f a = .ok b) l bs
  | [], _, h => by
    cases h
    exact .nil
  | a :: l, _, h => by
    rw [List.mapM_cons] at h
    obtain ⟨b, first, h⟩ := bind_eq_ok_iff.1 h
    obtain ⟨bs, rest, h⟩ := bind_eq_ok_iff.1 h
    cases h
    exact .cons first (mapM_eq_ok rest)

theorem mapM_error {f : α → Except ε β} {e : ε} :
    ∀ {l : List α}, l.mapM f = .error e → ∃ a ∈ l, f a = .error e
  | a :: l, h => by
    rw [List.mapM_cons] at h
    cases first : f a with
    | error e' =>
      rw [first] at h
      cases h
      exact ⟨a, List.mem_cons_self, first⟩
    | ok b =>
      rw [first] at h
      cases rest : l.mapM f with
      | error e' =>
        rw [rest] at h
        cases h
        obtain ⟨a, member, failed⟩ := mapM_error rest
        exact ⟨a, List.mem_cons_of_mem _ member, failed⟩
      | ok bs =>
        rw [rest] at h
        cases h

/-- Each result comes from some element. -/
theorem mapM_mem {f : α → Except ε β} {l : List α} {bs : List β} (h : l.mapM f = .ok bs) :
    ∀ b ∈ bs, ∃ a ∈ l, f a = .ok b := by
  have each := mapM_eq_ok h
  clear h
  induction each with
  | nil =>
    intro b none
    cases none
  | cons first _ ih =>
    intro b member
    rcases List.mem_cons.1 member with rfl | member
    · exact ⟨_, List.mem_cons_self, first⟩
    · obtain ⟨a, listed, made⟩ := ih b member
      exact ⟨a, List.mem_cons_of_mem _ listed, made⟩

/-- Steps that succeed one by one succeed together. -/
theorem mapM_each {f : α → Except ε β} {related : α → β → Prop} {l : List α}
    (each : ∀ a ∈ l, ∃ b, f a = .ok b ∧ related a b) : ∃ bs, l.mapM f = .ok bs ∧ List.Forall₂ related l bs := by
  induction l with
  | nil => exact ⟨[], rfl, .nil⟩
  | cons a l ih =>
    obtain ⟨b, made, same⟩ := each a List.mem_cons_self
    obtain ⟨bs, rest, all⟩ := ih fun a member => each a (List.mem_cons_of_mem _ member)
    refine ⟨b :: bs, ?_, .cons same all⟩
    rw [List.mapM_cons, made, rest]
    rfl

/-- Related lists have related elements at each place. -/
theorem forall₂_getElem? {related : α → β → Prop} {l : List α} {bs : List β} (h : List.Forall₂ related l bs)
    {i : Nat} {b : β} (place : bs[i]? = some b) : ∃ a, l[i]? = some a ∧ related a b := by
  obtain ⟨bound, rfl⟩ := List.getElem?_eq_some_iff.1 place
  have bound' : i < l.length := h.length_eq ▸ bound
  exact ⟨l[i], List.getElem?_eq_getElem bound', h.get bound' bound⟩

end FrameGraph
