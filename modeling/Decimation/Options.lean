/-!
# Options applied in order

Configurations are built by applying options to a starting value one after another. An option
may refuse its argument, and the first refusal ends the build: the options after it never run.
An option may also be absent (a nil option), and an absent option is skipped.

`applyOptions_eq_foldlM`: skipping the absent options is folding over the options present, so
what is known of a fold over options carries over to lists with absent ones.
-/

namespace Decimation

variable {ο α ε : Type}

/-- One option applied to `a`, or `a` as it is when the option is absent. -/
def applyOption (apply : ο → α → Except ε α) (a : α) : Option ο → Except ε α
  | some o => apply o a
  | none => .ok a

/-- The options applied in order to `init`, each to the result of the one before, stopping at the
first that refuses; absent options are skipped. -/
def applyOptions (apply : ο → α → Except ε α) (opts : List (Option ο)) (init : α) :
    Except ε α :=
  opts.foldlM (applyOption apply) init

section

variable (apply : ο → α → Except ε α) (a : α)

@[simp]
theorem applyOptions_nil : applyOptions apply [] a = .ok a := rfl

@[simp]
theorem applyOptions_none_cons (opts : List (Option ο)) :
    applyOptions apply (none :: opts) a = applyOptions apply opts a := rfl

theorem applyOptions_some_cons (o : ο) (opts : List (Option ο)) :
    applyOptions apply (some o :: opts) a = apply o a >>= applyOptions apply opts := rfl

/-- Skipping the absent options is applying the options present. -/
theorem applyOptions_eq_foldlM (opts : List (Option ο)) :
    applyOptions apply opts a = (opts.filterMap id).foldlM (fun a o => apply o a) a := by
  induction opts generalizing a with
  | nil => rfl
  | cons o os ih =>
    cases o with
    | none => exact ih a
    | some o =>
      rw [applyOptions_some_cons, List.filterMap_cons_some (show id (some o) = some o from rfl),
        List.foldlM_cons]
      exact congrArg (apply o a >>= ·) (funext ih)

end

end Decimation
