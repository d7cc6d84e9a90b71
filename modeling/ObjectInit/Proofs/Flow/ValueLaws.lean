import ObjectInit.Nullness

/-! # Lawful values

Where joins have to be exact, a type system promises a partial semilattice, in which "nothing can be
said" is an answer like any other. The values of the nullness checker keep the promise, also mixed
in one store.
-/

namespace ObjectInit

universe u

open AbstractValue (join? atLeastAsPrecise)

/-- Values with a join that is idempotent, commutative and associative. If one side of a law has
no join, neither has the other. -/
class LawfulJoin (V : Type u) [DecidableEq V] [AbstractValue V] : Prop where
  join?_self (a : V) : join? a a = some a
  join?_comm (a b : V) : join? a b = join? b a
  join?_assoc (a b c : V) :
    ((join? a b).bind fun ab => join? ab c) = (join? b c).bind fun bc => join? a bc

/-- Values with a lawful join whose precision is the order of the join. -/
class LawfulPrecision (V : Type u) [DecidableEq V] [AbstractValue V] : Prop
    extends LawfulJoin V where
  atLeastAsPrecise_iff (a b : V) : atLeastAsPrecise a b = true ↔ join? a b = some b

/-! ## What two sides know of one expression -/

namespace AbstractValue

section Known

variable {V : Type u} [DecidableEq V] [AbstractValue V]

/-- What remains known of an expression where two sides meet: the join of two known values, and
nothing if one of them is missing or they have no join. -/
def joinKnown (a b : Option V) : Option V :=
  a.bind fun mine => b.bind fun theirs => join? mine theirs

@[simp] theorem joinKnown_none_left (b : Option V) : joinKnown none b = none := rfl

@[simp] theorem joinKnown_none_right (a : Option V) : joinKnown a none = none := by
  cases a <;> rfl

@[simp] theorem joinKnown_some (a b : V) : joinKnown (some a) (some b) = join? a b := rfl

theorem joinKnown_eq_right_iff (a b : Option V) :
    joinKnown a b = b ↔ ∀ v, b = some v → ∃ mine, a = some mine ∧ join? mine v = some v := by
  cases b with
  | none => simp
  | some v =>
      cases a with
      | none => simp
      | some mine => simp

variable [LawfulJoin V]

theorem joinKnown_self (a : Option V) : joinKnown a a = a := by
  cases a with
  | none => rfl
  | some a => exact LawfulJoin.join?_self a

theorem joinKnown_comm (a b : Option V) : joinKnown a b = joinKnown b a := by
  cases a with
  | none => simp
  | some a =>
      cases b with
      | none => rfl
      | some b => exact LawfulJoin.join?_comm a b

theorem joinKnown_assoc (a b c : Option V) :
    joinKnown (joinKnown a b) c = joinKnown a (joinKnown b c) := by
  cases a with
  | none => rfl
  | some a =>
      cases b with
      | none => rfl
      | some b =>
          cases c with
          | none => simp
          | some c => exact LawfulJoin.join?_assoc a b c

end Known

end AbstractValue

/-! ## References and tags -/

namespace Nullness

theorem lub_comm (a b : Nullness) : a.lub b = b.lub a := by
  cases a <;> cases b <;> rfl

theorem lub_assoc (a b c : Nullness) : (a.lub b).lub c = a.lub (b.lub c) := by
  cases a <;> cases b <;> cases c <;> rfl

theorem le_iff_lub_eq (a b : Nullness) : a.le b = true ↔ a.lub b = b := by
  cases a <;> cases b <;> decide

end Nullness

namespace TrackedValue

theorem join?_assoc (a b c : TrackedValue) :
    ((a.join? b).bind fun ab => ab.join? c) = (b.join? c).bind fun bc => a.join? bc := by
  cases a with
  | reference n q =>
      cases b with
      | reference n' q' =>
          cases c with
          | reference n'' q'' =>
              simp only [join?, Option.bind_some, Nullness.lub_assoc, Option.some.injEq,
                reference.injEq, true_and]
              split <;> split <;> split <;> simp_all
          | tag k => rfl
      | tag k =>
          cases c with
          | reference n'' q'' => rfl
          | tag k' =>
              simp only [join?, Option.bind_none]
              split <;> rfl
  | tag k =>
      cases b with
      | reference n q => cases c <;> rfl
      | tag k' =>
          cases c with
          | reference n q =>
              simp only [join?, Option.bind_none]
              split <;> rfl
          | tag k'' =>
              simp only [join?]
              split <;> split <;> simp_all

theorem atLeastAsPrecise_iff (a b : TrackedValue) :
    a.atLeastAsPrecise b = true ↔ a.join? b = some b := by
  cases a with
  | reference n q =>
      cases b with
      | reference n' q' =>
          simp only [atLeastAsPrecise, join?, Bool.and_eq_true, Bool.or_eq_true,
            decide_eq_true_eq, Nullness.le_iff_lub_eq, Option.some.injEq, reference.injEq]
          refine and_congr_right fun _ => ?_
          split <;> simp_all [eq_comm]
      | tag k => simp [atLeastAsPrecise, join?]
  | tag k =>
      cases b with
      | reference n q => simp [atLeastAsPrecise, join?]
      | tag k' => simp [atLeastAsPrecise, join?]

instance : LawfulPrecision TrackedValue where
  join?_self a := by
    show a.join? a = some a
    cases a with
    | reference n q => simp [TrackedValue.join?, Nullness.lub]
    | tag k => simp [TrackedValue.join?]
  join?_comm a b := by
    show a.join? b = b.join? a
    cases a <;> cases b <;> simp only [TrackedValue.join?, Nullness.lub_comm, eq_comm]
    all_goals (split <;> simp_all)
  join?_assoc := TrackedValue.join?_assoc
  atLeastAsPrecise_iff := TrackedValue.atLeastAsPrecise_iff

end TrackedValue

end ObjectInit
