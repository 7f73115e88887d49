import Mathlib
import Decimation.Proofs.Downsampling
/-!
# Building a configuration from options

Whether an option accepts its argument depends on the argument only: the algorithm code must
name an algorithm, the algorithm name must parse, the range must be valid (`ConfigOption.refusal`).
An accepted option sets one field and leaves the others (`ConfigOption.apply_eq_ok_iff`). Applying
a list of options therefore fails with the refusal of the first option that refuses, whatever came
before it and whatever follows, and otherwise leaves the width, the algorithm of the last option
that selects one and the range of the last option that sets one (`foldlM_apply_eq_ok_iff`).

Absent options are skipped (`applyOptions_eq_error_iff`, `applyOptions_eq_described`). The main
statement, `Config.build_settles_options`, adds the final check: a configuration builds exactly
when every option present accepts and the configuration they describe passes it.
-/

namespace Decimation

namespace ConfigOption

/-- Why the option refuses its argument, whatever configuration it is applied to; nothing when
it accepts it. -/
def refusal : ConfigOption → Option ConfigError
  | algorithmCode code =>
    match Algorithm.ofCode? code with
    | some _ => none
    | none => some (.unknownAlgorithmCode code)
  | algorithmName name =>
    match parseAlgorithm name with
    | .ok _ => none
    | .error e => some e
  | xRange r =>
    match r.validate with
    | .ok _ => none
    | .error e => some (.range e)

/-- The algorithm an option selects when it accepts its argument. -/
def algorithm? : ConfigOption → Option Algorithm
  | algorithmCode code => Algorithm.ofCode? code
  | algorithmName name => (parseAlgorithm name).toOption
  | xRange _ => none

/-- The range an option sets. -/
def range? : ConfigOption → Option XRange
  | xRange r => some r
  | _ => none

variable {o : ConfigOption} {c c' : Config} {e : ConfigError}

/-- An option refuses with the same error whatever configuration it is applied to. -/
theorem apply_eq_error_iff : o.apply c = .error e ↔ o.refusal = some e := by
  cases o with
  | algorithmCode code =>
    simp only [apply, refusal]
    cases Algorithm.ofCode? code <;> simp
  | algorithmName name =>
    simp only [apply, refusal]
    cases parseAlgorithm name <;> simp [bind, Except.bind, pure, Except.pure]
  | xRange r =>
    simp only [apply, refusal]
    cases r.validate <;> simp

/-- An option that accepts its argument sets the algorithm it selects or the range it sets, and
keeps the rest. -/
theorem apply_eq_ok_iff : o.apply c = .ok c' ↔
    o.refusal = none ∧ c' = ⟨c.width, o.algorithm?.getD c.algorithm, o.range?.or c.range⟩ := by
  cases o with
  | algorithmCode code =>
    simp only [apply, refusal, algorithm?, range?]
    cases Algorithm.ofCode? code <;> simp [eq_comm]
  | algorithmName name =>
    simp only [apply, refusal, algorithm?, range?]
    cases parseAlgorithm name <;> simp [bind, Except.bind, pure, Except.pure, Except.toOption, eq_comm]
  | xRange r =>
    simp only [apply, refusal, algorithm?, range?]
    cases r.validate <;> simp [eq_comm]

end ConfigOption

/-! ## A list of options -/

section

variable {opts : List ConfigOption}

/-- Applying options in order stops at the first present option that refuses, with its refusal;
the absent options before it are skipped and the options after it never run. -/
theorem applyOptions_eq_error_iff {opts : List (Option ConfigOption)} {c : Config}
    {e : ConfigError} :
    applyOptions ConfigOption.apply opts c = .error e ↔
      ∃ pre o post, opts = pre ++ some o :: post ∧ (∀ p ∈ pre.filterMap id, p.refusal = none) ∧
        o.refusal = some e := by
  induction opts generalizing c with
  | nil => simp
  | cons o? os ih =>
    cases o? with
    | none =>
      rw [applyOptions_none_cons, ih]
      constructor
      · rintro ⟨pre, p, post, rfl, hpre, hp⟩
        exact ⟨none :: pre, p, post, rfl, by simpa using hpre, hp⟩
      · rintro ⟨pre, p, post, heq, hpre, hp⟩
        cases pre with
        | nil => cases heq
        | cons q pre =>
          obtain ⟨rfl, rfl⟩ := List.cons.inj heq
          exact ⟨pre, p, post, rfl, by simpa using hpre, hp⟩
    | some o =>
      rw [applyOptions_some_cons]
      cases ho : o.apply c with
      | error e' =>
        -- `o` refuses: it is the first option that does
        have hr := ConfigOption.apply_eq_error_iff.mp ho
        simp only [bind, Except.bind, Except.error.injEq]
        constructor
        · rintro rfl
          exact ⟨[], o, os, rfl, by simp, hr⟩
        · rintro ⟨pre, p, post, heq, hpre, hp⟩
          cases pre with
          | nil =>
            obtain ⟨⟨⟩, -⟩ := List.cons.inj heq
            exact Option.some.inj (hr.symm.trans hp)
          | cons q pre =>
            obtain ⟨rfl, -⟩ := List.cons.inj heq
            rw [hpre o (by simp)] at hr
            cases hr
      | ok d =>
        -- `o` accepts: the first refusal lies among the options after it
        have hr := (ConfigOption.apply_eq_ok_iff.mp ho).1
        simp only [bind, Except.bind]
        rw [ih]
        constructor
        · rintro ⟨pre, p, post, rfl, hpre, hp⟩
          refine ⟨some o :: pre, p, post, rfl, ?_, hp⟩
          intro q hq
          change q ∈ o :: pre.filterMap id at hq
          rcases List.mem_cons.mp hq with rfl | hq
          · exact hr
          · exact hpre q hq
        · rintro ⟨pre, p, post, heq, hpre, hp⟩
          cases pre with
          | nil =>
            obtain ⟨⟨⟩, -⟩ := List.cons.inj heq
            rw [hr] at hp
            cases hp
          | cons q pre =>
            obtain ⟨rfl, rfl⟩ := List.cons.inj heq
            exact ⟨pre, p, post, rfl, fun q hq => hpre q (List.mem_cons_of_mem o hq), hp⟩

/-- Applying options that all accept leaves the width, the algorithm of the last option that
selects one and the range of the last option that sets one, each falling back to the starting
configuration. -/
theorem foldlM_apply_eq_ok_iff {c c' : Config} :
    opts.foldlM (fun c o => o.apply c) c = .ok c' ↔ (∀ o ∈ opts, o.refusal = none) ∧
      c' = ⟨c.width, (opts.filterMap ConfigOption.algorithm?).getLastD c.algorithm,
        (opts.filterMap ConfigOption.range?).getLast?.or c.range⟩ := by
  induction opts generalizing c with
  | nil =>
    simp only [List.foldlM_nil, pure, Except.pure, Except.ok.injEq, List.not_mem_nil,
      IsEmpty.forall_iff, implies_true, List.filterMap_nil, List.getLastD_nil, List.getLast?_nil,
      Option.none_or, true_and]
    exact eq_comm
  | cons o os ih =>
    rw [List.foldlM_cons, bind_eq_ok]
    constructor
    · rintro ⟨d, hd, hrest⟩
      obtain ⟨ho, rfl⟩ := ConfigOption.apply_eq_ok_iff.mp hd
      obtain ⟨hos, rfl⟩ := ih.mp hrest
      refine ⟨fun q hq => ?_, ?_⟩
      · rcases List.mem_cons.mp hq with rfl | hq
        · exact ho
        · exact hos q hq
      · -- the option in front counts only when no later option sets the same field
        cases ha : o.algorithm? <;> cases hg : o.range? <;>
          simp [ha, hg, List.getLast?_cons, Option.or_some]
    · rintro ⟨hall, rfl⟩
      refine ⟨_, ConfigOption.apply_eq_ok_iff.mpr ⟨hall o List.mem_cons_self, rfl⟩,
        ih.mpr ⟨fun q hq => hall q (List.mem_cons_of_mem _ hq), ?_⟩⟩
      cases ha : o.algorithm? <;> cases hg : o.range? <;>
        simp [ha, hg, List.getLast?_cons, Option.or_some]

end

namespace Config

/-- The configuration a list of options describes for width `w`: the algorithm of the last option
that selects one, LTTB when none does, and the range of the last option that sets one, none when
none does. -/
def described (w : Int) (opts : List ConfigOption) : Config :=
  ⟨w, (opts.filterMap ConfigOption.algorithm?).getLastD .lttb,
    (opts.filterMap ConfigOption.range?).getLast?⟩

/-- Applying options to LTTB with width `w` and no range gives the configuration the options
present describe, when all of them accept. -/
theorem applyOptions_eq_described {w : Int} {opts : List (Option ConfigOption)} {c : Config} :
    applyOptions ConfigOption.apply opts ⟨w, .lttb, none⟩ = .ok c ↔
      (∀ o ∈ opts.filterMap id, o.refusal = none) ∧ c = described w (opts.filterMap id) := by
  rw [applyOptions_eq_foldlM, foldlM_apply_eq_ok_iff, Option.or_none]
  rfl

/-- A build fails where an option refuses, or else where the check fails. -/
theorem build_eq_error_iff {w : Int} {opts : List (Option ConfigOption)} {e : ConfigError} :
    build w opts = .error e ↔ applyOptions ConfigOption.apply opts ⟨w, .lttb, none⟩ = .error e ∨
      ∃ c, applyOptions ConfigOption.apply opts ⟨w, .lttb, none⟩ = .ok c ∧
        c.validate = .error e := by
  unfold build
  cases applyOptions ConfigOption.apply opts ⟨w, .lttb, none⟩ with
  | error e' => simp [bind, Except.bind]
  | ok c =>
    simp only [bind, Except.bind, reduceCtorEq, false_or, Except.ok.injEq, exists_eq_left']
    cases c.validate <;> simp [pure, Except.pure]

/-- Building a configuration from a width and options, absent ones among them. It succeeds exactly
when every option present accepts its argument and the configuration those options describe
passes the check, and then returns that configuration, which has a positive width at least what
its algorithm needs and a valid range if any. It fails with the refusal of the first present
option that refuses, whatever the options after it, or else with the failure of the check. -/
theorem build_settles_options (w : Int) (opts : List (Option ConfigOption)) :
    (∀ c, build w opts = .ok c ↔ (∀ o ∈ opts.filterMap id, o.refusal = none) ∧
      (described w (opts.filterMap id)).validate = .ok () ∧ c = described w (opts.filterMap id)) ∧
    (∀ c, build w opts = .ok c →
      0 < c.width ∧ c.algorithm.minOutput ≤ c.width ∧ ∀ r, c.range = some r → r.validate = .ok ()) ∧
    (∀ e, build w opts = .error e ↔
      (∃ pre o post, opts = pre ++ some o :: post ∧ (∀ p ∈ pre.filterMap id, p.refusal = none) ∧
        o.refusal = some e) ∨
      ((∀ o ∈ opts.filterMap id, o.refusal = none) ∧
        (described w (opts.filterMap id)).validate = .error e)) := by
  refine ⟨fun c => ?_, fun c hc => validate_eq_ok.mp (build_ok_valid w opts c hc), fun e => ?_⟩
  · simp only [build, bind_eq_ok, applyOptions_eq_described, pure, Except.pure, Except.ok.injEq]
    constructor
    · rintro ⟨d, ⟨hall, rfl⟩, u, hv, rfl⟩
      exact ⟨hall, hv, rfl⟩
    · rintro ⟨hall, hv, rfl⟩
      exact ⟨_, ⟨hall, rfl⟩, (), hv, rfl⟩
  · rw [build_eq_error_iff, applyOptions_eq_error_iff]
    simp only [applyOptions_eq_described]
    constructor
    · rintro (h | ⟨c, ⟨hall, rfl⟩, hv⟩)
      · exact .inl h
      · exact .inr ⟨hall, hv⟩
    · rintro (h | ⟨hall, hv⟩)
      · exact .inl h
      · exact .inr ⟨_, ⟨hall, rfl⟩, hv⟩

example : build 5 [none, some (.algorithmCode 2), none] = .ok ⟨5, .nth, none⟩ := by rfl

end Config

end Decimation
