import Mathlib.Data.List.Forall2

/-!
# Steps that can fail

A step that fails ends what it is a step of, with its own failure. So a chain of steps succeeds if
and only if all of them do, each with what the one in front has given, and going through a list
succeeds if and only if every item does.
-/

namespace CanonicalTokens

variable {Failure First Second Item Result : Type} {step : Item → Except Failure Result}

theorem bind_eq_ok_iff {first : Except Failure First} {next : First → Except Failure Second}
    {result : Second} :
    first >>= next = .ok result ↔ ∃ value, first = .ok value ∧ next value = .ok result := by
  cases first <;> simp [bind, Except.bind]

theorem map_eq_ok_iff {first : Except Failure First} {next : First → Second} {result : Second} :
    first.map next = .ok result ↔ ∃ value, first = .ok value ∧ next value = result := by
  cases first <;> simp [Except.map]

theorem exists_map_eq_ok_iff {first : Except Failure First} {next : First → Second} :
    (∃ result, first.map next = .ok result) ↔ ∃ value, first = .ok value := by
  cases first <;> simp [Except.map]

/-- A list is taken through a step exactly if each item is, one result for each. -/
theorem mapM_eq_ok_iff {items : List Item} {results : List Result} :
    items.mapM step = .ok results ↔
      List.Forall₂ (fun item result => step item = .ok result) items results := by
  induction items generalizing results with
  | nil => simp [pure, Except.pure, eq_comm]
  | cons item items ih =>
    rw [List.mapM_cons, List.forall₂_cons_left_iff]
    simp only [bind_eq_ok_iff, ih, pure, Except.pure, Except.ok.injEq]
    constructor
    · rintro ⟨result, hresult, rest, hrest, rfl⟩
      exact ⟨result, rest, hresult, hrest, rfl⟩
    · rintro ⟨result, rest, hresult, hrest, rfl⟩
      exact ⟨result, hresult, rest, hrest, rfl⟩

/-- Nothing is passed from one item to the next, so a list is taken through if every item is by
itself. -/
theorem exists_mapM_eq_ok_iff {items : List Item} :
    (∃ results, items.mapM step = .ok results) ↔
      ∀ item ∈ items, ∃ result, step item = .ok result := by
  simp only [mapM_eq_ok_iff]
  induction items with
  | nil => simp
  | cons item items ih =>
    rw [List.forall_mem_cons, ← ih]
    constructor
    · rintro ⟨results, hresults⟩
      obtain ⟨result, rest, hresult, hrest, -⟩ := List.forall₂_cons_left_iff.mp hresults
      exact ⟨⟨result, hresult⟩, rest, hrest⟩
    · rintro ⟨⟨result, hresult⟩, rest, hrest⟩
      exact ⟨result :: rest, .cons hresult hrest⟩

end CanonicalTokens
