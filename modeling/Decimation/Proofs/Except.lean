/-!
# Results of checked computations

The library's operations are `do`-blocks over `Except` that check one condition after another
and throw at the first that fails. These rewrites turn "the block returns `a`" into "every check
passes and the last step returns `a`".

A check `if c then throw e` with more of the block after it is elaborated with that rest
copied into both branches, so a chain of `k` checks grows to `2^k` copies. Rewriting with
`ite_throw_bind` before anything else (as `↓ite_throw_bind`) drops the copy in each failing
branch first, and the block stays as long as its text.
-/

namespace Decimation

section Except

variable {ε ε' α β : Type}

theorem pure_eq_ok (a : α) : (pure a : Except ε α) = .ok a := rfl

theorem ok_bind (a : α) (f : α → Except ε β) : (Except.ok a : Except ε α) >>= f = f a := rfl

theorem bind_eq_ok {x : Except ε α} {f : α → Except ε β} {b : β} :
    x >>= f = .ok b ↔ ∃ a, x = .ok a ∧ f a = .ok b := by
  cases x <;> simp [bind, Except.bind]

theorem mapError_eq_ok {x : Except ε α} {f : ε → ε'} {a : α} :
    x.mapError f = .ok a ↔ x = .ok a := by
  cases x with
  | error e => exact ⟨fun h => (nomatch h), fun h => (nomatch h)⟩
  | ok b => exact ⟨fun h => by cases h; rfl, fun h => by cases h; rfl⟩

theorem eq_ok_of_toOption {x : Except ε α} {a : α} (h : x.toOption = some a) : x = .ok a := by
  cases x with
  | error e => cases h
  | ok b => cases h; rfl

theorem ite_throw_bind (c : Prop) [Decidable c] (e : ε) (k : Except ε α) :
    (if c then (throw e : Except ε PUnit) >>= (fun _ => k) else k) = if c then .error e else k := by
  split <;> rfl

theorem ite_error_eq_ok (c : Prop) [Decidable c] (e : ε) (k : Except ε α) (a : α) :
    (if c then .error e else k) = .ok a ↔ ¬ c ∧ k = .ok a := by
  split <;> simp_all

end Except

end Decimation
