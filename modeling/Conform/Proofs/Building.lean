import Conform.Blueprint
import Conform.Proofs.Assembly

set_option autoImplicit false

/-!
# What is built after a blueprint

A blueprint is built by the calls that it lists.  If no part of it is written by hand, and the
validators that it refers to by name were obtained by builder calls, then the validator built is
obtained by builder calls as well; whether one of them added an asynchronous check can be read off
the blueprint.

## Main definitions

* `Conform.Build.Gives` — what is known of the result of a build.
* `Conform.Blueprint.Composed` — no part of a blueprint is written by hand.
* `Conform.Blueprint.addsAsync` — whether a blueprint adds an asynchronous check.

## Main results

* `Conform.Blueprint.build_gives` — the validator built is obtained by builder calls.
-/

namespace Conform

/-! ## Builds -/

namespace Build

variable {α β : Type} {named : List (String × Validator)} {good : α → Prop}

/-- What is known of a build where some validators have names: if it comes to a result, the result
is a good one, and the same validators have names afterwards. -/
def Gives (named : List (String × Validator)) (good : α → Prop) (build : Build α) : Prop :=
  ∀ workshop a workshop', workshop.named = named →
    build workshop = .ok (a, workshop') → good a ∧ workshop'.named = named

theorem gives_pure {a : α} (h : good a) : Gives named good (pure a) := by
  rintro workshop _ _ hn ⟨⟩
  exact ⟨h, hn⟩

theorem gives_throw (error : BuildError) : Gives named good (throw error) :=
  nofun

/-- The workshop as it is. -/
theorem gives_get : Gives named (fun workshop => workshop.named = named) get := by
  rintro workshop _ _ hn ⟨⟩
  exact ⟨hn, hn⟩

/-- A result read off the workshop, and a workshop made of it. -/
theorem gives_modifyGet {f : Workshop → α × Workshop} (hf : ∀ workshop, good (f workshop).1)
    (hn : ∀ workshop, (f workshop).2.named = workshop.named) :
    Gives named good (modifyGet f) := by
  rintro workshop a workshop' rfl hb
  obtain ⟨rfl, rfl⟩ := Prod.mk.inj (Except.ok.inj hb)
  exact ⟨hf workshop, hn workshop⟩

/-- What follows a build starts from a good result, with the same names. -/
theorem Gives.bind {good' : β → Prop} {build : Build α} {next : α → Build β}
    (h : Gives named good build) (hn : ∀ a, good a → Gives named good' (next a)) :
    Gives named good' (build >>= next) := by
  intro workshop b workshop' hw hb
  cases ha : build workshop with
  | error error => simp [StateT.bind, Bind.bind, Except.bind, ha] at hb
  | ok reached =>
    obtain ⟨hgood, hnamed⟩ := h workshop reached.1 reached.2 hw ha
    simp only [Bind.bind, StateT.bind, Except.bind, ha] at hb
    exact hn reached.1 hgood reached.2 b workshop' hnamed hb

theorem Gives.map {good' : β → Prop} {build : Build α} {f : α → β} (h : Gives named good build)
    (hf : ∀ a, good a → good' (f a)) : Gives named good' (f <$> build) := by
  rw [map_eq_pure_bind]
  exact h.bind fun a ha => gives_pure (hf a ha)

/-- Parts are built one after the other, each to its own result. -/
theorem gives_mapM : ∀ {count : Nat} {good : Fin count → α → Prop} {parts : Fin count → Build α},
    (∀ i, Gives named (good i) (parts i)) →
      Gives named (fun built => ∃ h : built.length = count, ∀ i, good i (built.get (i.cast h.symm)))
        ((List.ofFn parts).mapM id)
  | 0, _, _, _ => gives_pure ⟨rfl, fun i => i.elim0⟩
  | count + 1, good, parts, h => by
    rw [List.ofFn_succ, List.mapM_cons]
    refine (h 0).bind fun a ha => ?_
    refine (gives_mapM fun i => h (Fin.succ i)).bind fun rest hr => gives_pure ?_
    obtain ⟨hl, hr⟩ := hr
    exact ⟨by simp [hl], Fin.cases ha hr⟩

end Build

/-- Whether an action is an asynchronous check. -/
def Action.isAsync : Action → Bool
  | asyncCheck .. => true
  | _ => false

namespace Validator

/-- An action is an operation on what the validator's operations work on. -/
theorem exists_operate_of_act (action : Action) (validator : Validator) :
    ∃ operation : Operation validator.Operand,
      operation.isAsync = action.isAsync ∧ validator.act action = validator.operate operation := by
  cases validator <;> exact ⟨_, by cases action <;> rfl, rfl⟩

/-- A refinement is an operation that need not be awaited. -/
theorem exists_operate_of_refine {refinement : Refinement} {validator refined : Validator}
    (h : validator.refine? refinement = some refined) :
    ∃ operation : Operation validator.Operand,
      operation.isAsync = false ∧ refined = validator.operate operation := by
  unfold refine? at h
  split at h
  all_goals first
    | obtain ⟨bound, -, rfl⟩ := Option.map_eq_some_iff.mp h
      exact ⟨_, rfl, rfl⟩
    | exact ⟨_, rfl, (Option.some.inj h).symm⟩
    | cases h

end Validator

/-! ## Blueprints -/

namespace Blueprint

/-- No part of the blueprint is written by hand. -/
def Composed : Blueprint → Prop
  | byHand _ => False
  | leaf _ | named _ | noAlternative => True
  | bareList base | bareNullable base | many base | orNull base | orDefault base _
  | withDefault base _ | refine base _ | act base _ | annotate base _ _ | bindTo base _ =>
    base.Composed
  | tuple _ elements => ∀ i, (elements i).Composed
  | pipe first next _ | and first next | or first next => first.Composed ∧ next.Composed

/-- Whether the blueprint adds an asynchronous check, or refers to a name that stands for a
validator to which one was added. -/
def addsAsync (known : String → Bool) : Blueprint → Bool
  | named name => known name
  | leaf _ | byHand _ | noAlternative => false
  | bareList base | bareNullable base | many base | orNull base | orDefault base _
  | withDefault base _ | refine base _ | annotate base _ _ | bindTo base _ => base.addsAsync known
  | act base action => base.addsAsync known || action.isAsync
  | tuple _ elements => (List.ofFn fun i => (elements i).addsAsync known).any id
  | pipe first next _ | and first next | or first next =>
    first.addsAsync known || next.addsAsync known

open Validator

/-- **What is built after a blueprint is obtained by builder calls**, and the blueprint tells
whether one of them added an asynchronous check.

**Proof sketch.** Induction on the blueprint: each step makes one builder call on what the steps
before it built. -/
theorem build_gives {known : String → Bool} {named : List (String × Validator)}
    (hk : ∀ name validator, named.lookup name = some validator →
      Assembled (known name) validator)
    {blueprint : Blueprint} (h : blueprint.Composed) :
    Build.Gives named (Assembled (blueprint.addsAsync known)) blueprint.build := by
  induction blueprint with
  | leaf type => exact Build.gives_pure (.leaf type)
  | byHand behaviour => exact h.elim
  | named name =>
    refine Build.gives_get.bind fun workshop hw => ?_
    cases hf : workshop.find? name with
    | none => exact Build.gives_throw _
    | some validator => exact Build.gives_pure (hk name validator (by rw [← hw]; exact hf))
  | noAlternative => exact Build.gives_pure .noAlternative
  | bareList element ih => exact (ih h).bind fun _ he => Build.gives_pure (.bareList he)
  | bareNullable inner ih => exact (ih h).bind fun _ hi => Build.gives_pure (.bareNullable hi)
  | tuple arity elements ih =>
    refine (Build.gives_mapM fun i => ih i (h i)).bind fun built hb => Build.gives_pure ?_
    obtain ⟨rfl, hb⟩ := hb
    exact .ofElements hb
  | pipe input output conversion ihi iho =>
    exact (ihi h.1).bind fun _ hi => (iho h.2).bind fun _ ho =>
      Build.gives_pure (.thenTo conversion hi ho)
  | many element ih => exact (ih h).map fun _ he => .many he
  | orNull inner ih => exact (ih h).map fun _ hi => .orNull hi
  | orDefault inner default ih => exact (ih h).map fun _ hi => .orDefault default hi
  | and first next ihf ihn =>
    exact (ihf h.1).bind fun _ hf => (ihn h.2).bind fun _ hn => Build.gives_pure (.and hf hn)
  | or first next ihf ihn =>
    exact (ihf h.1).bind fun _ hf => (ihn h.2).bind fun _ hn => Build.gives_pure (.or hf hn)
  | withDefault base default ih =>
    refine (ih h).bind fun validator hv => ?_
    cases hd : validator.withDefault? default with
    | none => exact Build.gives_throw _
    | some changed => exact Build.gives_pure (.withDefault default hv hd)
  | refine base refinement ih =>
    refine (ih h).bind fun validator hv => ?_
    cases hr : validator.refine? refinement with
    | none => exact Build.gives_throw _
    | some refined =>
      obtain ⟨operation, ho, rfl⟩ := exists_operate_of_refine hr
      refine Build.gives_pure ?_
      have hop := Assembled.operate hv operation
      rwa [ho, Bool.or_false] at hop
  | act base action ih =>
    refine (ih h).map fun validator hv => ?_
    obtain ⟨operation, ho, he⟩ := exists_operate_of_act action validator
    rw [he, addsAsync, ← ho]
    exact .operate hv operation
  | annotate base scope entry ih =>
    exact (ih h).bind fun validator hv =>
      Build.gives_modifyGet (fun workshop => .annotate hv scope entry workshop.store) fun _ => rfl
  | bindTo base handle ih => exact (ih h).map fun _ hv => .bindTo hv handle

end Blueprint

end Conform
