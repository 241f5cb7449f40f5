/-!
# Attempts in a row

The second of two attempts goes on with what the first gives.  Both together succeed exactly
if each of them does (`bind_eq_ok_iff`), and they fail exactly if one of them fails
(`bind_eq_error_iff`).
-/

namespace ActivityCatalogue

variable {ε α β : Type} {first : Except ε α} {next other : α → Except ε β}

theorem bind_eq_ok_iff {result : β} :
    first >>= next = .ok result ↔ ∃ value, first = .ok value ∧ next value = .ok result := by
  cases first with
  | error failure => exact ⟨nofun, fun ⟨_, herror, _⟩ => nomatch herror⟩
  | ok value =>
      constructor
      · exact fun hnext => ⟨value, rfl, hnext⟩
      · rintro ⟨_, heq, hnext⟩
        cases heq
        exact hnext

theorem bind_eq_error_iff {failure : ε} :
    first >>= next = .error failure ↔
      first = .error failure ∨ ∃ value, first = .ok value ∧ next value = .error failure := by
  cases first with
  | error earlier =>
      constructor
      · intro herror
        cases herror
        exact Or.inl rfl
      · rintro (herror | ⟨_, hok, _⟩)
        · cases herror
          rfl
        · exact nomatch hok
  | ok value =>
      constructor
      · exact fun hnext => Or.inr ⟨value, rfl, hnext⟩
      · rintro (herror | ⟨_, heq, hnext⟩)
        · exact nomatch herror
        · cases heq
          exact hnext

/-- What follows need only agree on what the first attempt gives. -/
theorem bind_congr_of_ok (hagree : ∀ value, first = .ok value → next value = other value) :
    first >>= next = first >>= other := by
  cases first with
  | error failure => rfl
  | ok value => exact hagree value rfl

end ActivityCatalogue
