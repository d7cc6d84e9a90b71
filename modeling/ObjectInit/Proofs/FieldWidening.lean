import ObjectInit.FieldRead
import ObjectInit.Nullness
import ObjectInit.Proofs.Qualifier.Lattice

/-! # Reads and the order of receivers

What a read asks is a question of the lattice: is the receiver at most unknown up to the class that
declares the field? So a join of receivers is trusted as far as both are.
-/

namespace ObjectInit.Analysis

open Qualifier

universe u v

variable {V : Type u} {Q : Type v} {a : Analysis V}

/-- Is the declared type of a read kept whatever the field is read through? -/
def keepsDeclared (a : Analysis V) (access : FieldAccess) (knownAssigned : Bool) : Bool :=
  a.options.assumeInitialized || access.kind ≠ .reference || a.declaredUnknown access.field ||
    knownAssigned || access.isTarget

theorem coversOwner_eq_le (q : Qualifier) (f : FieldId) :
    a.coversOwner q f = le a.oracle q (.unknown f.owner) := by
  cases q <;> rfl

theorem coversOwner_of_not_isPartial {q : Qualifier} (finished : q.isPartial = false)
    (f : FieldId) : a.coversOwner q f = true := by
  cases q with
  | bottom => rfl
  | initialized => rfl
  | under f => cases finished
  | unknown f => cases finished

/-- The order of the tests plays no part. -/
theorem adapt_eq (access : FieldAccess) (receiver : Qualifier) (known : Bool)
    (system : QualifierSystem Q) :
    a.adapt access receiver known system =
      if a.keepsDeclared access known || le a.oracle receiver (.unknown access.field.owner) then
        none
      else some system.top := by
  rw [← coversOwner_eq_le]
  unfold adapt keepsDeclared
  cases partly : receiver.isPartial with
  | false => simp [coversOwner_of_not_isPartial partly]
  | true =>
      cases a.options.assumeInitialized <;> cases decide (access.kind ≠ .reference) <;>
        cases a.declaredUnknown access.field <;> simp [or_assoc, or_comm, or_left_comm]

theorem adapt_eq_none_iff {access : FieldAccess} {receiver : Qualifier} {known : Bool}
    {system : QualifierSystem Q} :
    a.adapt access receiver known system = none ↔ a.keepsDeclared access known = true ∨
      le a.oracle receiver (.unknown access.field.owner) = true := by
  rw [adapt_eq, ← Bool.or_eq_true]
  split <;> simp_all

theorem adapt_eq_none_of_le
    (trans : ∀ f g k, a.oracle.isSubtype f g = true → a.oracle.isSubtype g k = true →
      a.oracle.isSubtype f k = true)
    {access : FieldAccess} {known : Bool} {system : QualifierSystem Q} {r r' : Qualifier}
    (below : le a.oracle r r' = true) (kept : a.adapt access r' known system = none) :
    a.adapt access r known system = none := by
  rw [adapt_eq_none_iff] at kept ⊢
  exact kept.imp_right (le_trans_of_trans trans below)

theorem adapt_lub (joins : a.oracle.HasJoins) (access : FieldAccess) (known : Bool)
    (system : QualifierSystem Q) (r r' : Qualifier) :
    a.adapt access (lub a.oracle r r') known system =
      (a.adapt access r known system).or (a.adapt access r' known system) := by
  have both : le a.oracle (lub a.oracle r r') (.unknown access.field.owner) =
      (le a.oracle r (.unknown access.field.owner) &&
        le a.oracle r' (.unknown access.field.owner)) := by
    rw [Bool.eq_iff_iff, Bool.and_eq_true, lub_le_iff_of_hasJoins joins]
  rw [adapt_eq, adapt_eq, adapt_eq, both]
  cases a.keepsDeclared access known <;>
    cases le a.oracle r (.unknown access.field.owner) <;> rfl

/-- A read that keeps its declared type through a receiver keeps it through every smaller one, if
the oracle's order is transitive. Over an oracle with joins, a read through the join of two
receivers is widened exactly if it is through one of them. -/
theorem adapt_antitone_and_exact_at_joins (a : Analysis V) (access : FieldAccess) (known : Bool)
    (system : QualifierSystem Q) (r r' : Qualifier) :
    ((∀ f g k, a.oracle.isSubtype f g = true → a.oracle.isSubtype g k = true →
          a.oracle.isSubtype f k = true) →
        le a.oracle r r' = true → a.adapt access r' known system = none →
          a.adapt access r known system = none) ∧
      (a.oracle.HasJoins →
        ((a.adapt access (lub a.oracle r r') known system).isSome = true ↔
          (a.adapt access r known system).isSome = true ∨
            (a.adapt access r' known system).isSome = true)) := by
  refine ⟨fun trans => adapt_eq_none_of_le trans, fun joins => ?_⟩
  rw [adapt_lub joins, Option.isSome_or, Bool.or_eq_true]

/-- The frames 1 and 2 lie side by side below the root, and 3 below both. A field of 1 is trusted
through 3, since it is through 1. Through 2 it is not, nor through the join of 2 with 1. -/
theorem adapt_antitone_and_exact_at_joins_of_diamond :
    let a : Analysis TrackedValue := ⟨∅, .diamond, {}, ∅⟩
    let read (receiver : Qualifier) : Option Nullness :=
      a.adapt (.ofSelf ⟨⟨1⟩, ⟨5⟩⟩) receiver false Nullness.qualifiers
    TypeOracle.diamond.HasJoins ∧
      (le .diamond (.under ⟨3⟩) (.unknown ⟨1⟩) = true ∧ read (.unknown ⟨1⟩) = none ∧
        read (.under ⟨3⟩) = none) ∧
      read (.under ⟨1⟩) = none ∧ read (.under ⟨2⟩) = some .nullable ∧
        (read (lub .diamond (.under ⟨1⟩) (.under ⟨2⟩))).isSome = true := by
  intro a read
  have joins : TypeOracle.diamond.HasJoins := TypeOracle.diamond_lawful.hasJoins
  have smaller := (adapt_antitone_and_exact_at_joins a (.ofSelf ⟨⟨1⟩, ⟨5⟩⟩) false
    Nullness.qualifiers (.under ⟨3⟩) (.unknown ⟨1⟩)).1 fun _ _ _ => joins.trans
  have joined := (adapt_antitone_and_exact_at_joins a (.ofSelf ⟨⟨1⟩, ⟨5⟩⟩) false
    Nullness.qualifiers (.under ⟨1⟩) (.under ⟨2⟩)).2 joins
  have below : le .diamond (.under ⟨3⟩) (.unknown ⟨1⟩) = true := by decide
  have trusted : read (.unknown ⟨1⟩) = none := by decide
  have widened : read (.under ⟨2⟩) = some .nullable := by decide
  refine ⟨joins, ⟨below, trusted, smaller below trusted⟩, by decide, widened, ?_⟩
  exact joined.mpr (.inr (congrArg Option.isSome widened))

end ObjectInit.Analysis
