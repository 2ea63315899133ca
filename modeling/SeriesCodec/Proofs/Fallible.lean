/-!
# Steps that may fail

A computation in steps succeeds exactly when each of its steps does.
-/

namespace SeriesCodec

namespace Fallible

variable {ε ε' α β : Type}

theorem ok_bind (value : α) (next : α → Except ε β) : (.ok value >>= next) = next value := rfl

theorem bind_ok (outcome : Except ε α) : (outcome >>= .ok) = outcome := by
  cases outcome <;> rfl

theorem bind_eq_ok_iff {first : Except ε α} {next : α → Except ε β} {result : β} :
    (first >>= next) = .ok result ↔
      ∃ middle, first = .ok middle ∧ next middle = .ok result := by
  cases first with
  | error reason =>
      constructor
      · intro impossible
        cases impossible
      · rintro ⟨_, impossible, _⟩
        cases impossible
  | ok middle =>
      constructor
      · intro rest
        exact ⟨middle, rfl, rest⟩
      · rintro ⟨_, same, rest⟩
        cases same
        exact rest

theorem bind_eq_error_iff {first : Except ε α} {next : α → Except ε β} {reason : ε} :
    (first >>= next) = .error reason ↔
      first = .error reason ∨ ∃ middle, first = .ok middle ∧ next middle = .error reason := by
  cases first with
  | error other =>
      constructor
      · intro same
        cases same
        exact .inl rfl
      · rintro (same | ⟨_, impossible, _⟩)
        · cases same
          rfl
        · cases impossible
  | ok middle =>
      constructor
      · intro rest
        exact .inr ⟨middle, rfl, rest⟩
      · rintro (impossible | ⟨_, same, rest⟩)
        · cases impossible
        · cases same
          exact rest

theorem map_eq_ok_iff {first : Except ε α} {next : α → β} {result : β} :
    first.map next = .ok result ↔ ∃ middle, first = .ok middle ∧ next middle = result := by
  cases first <;> simp [Except.map]

theorem mapError_eq_ok_iff {first : Except ε α} {describe : ε → ε'} {result : α} :
    first.mapError describe = .ok result ↔ first = .ok result := by
  cases first with
  | error reason =>
      constructor
      · intro impossible
        cases impossible
      · intro impossible
        cases impossible
  | ok value =>
      constructor
      · intro same
        cases same
        rfl
      · intro same
        cases same
        rfl

theorem mapError_bind (first : Except ε α) (next : α → Except ε β) (describe : ε → ε') :
    (first >>= next).mapError describe =
      (first.mapError describe >>= fun value => (next value).mapError describe) := by
  cases first <;> rfl

theorem exists_error_of_not_ok {outcome : Except ε α}
    (never : ∀ result, outcome ≠ .ok result) : ∃ reason, outcome = .error reason := by
  cases outcome with
  | error reason => exact ⟨reason, rfl⟩
  | ok result => exact absurd rfl (never result)

end Fallible

end SeriesCodec
