import ObjectInit.Proofs.Flow.Merge

/-! # Assigned expressions where paths meet

Whether an expression counts as assigned is read off the set of fields, or off the qualifier of a
value. The two are merged by different rules, but both keep exactly what held on both sides, as long
as the join of two values is committed only if both are.
-/

namespace ObjectInit

universe u

open AbstractValue (joinKnown)

namespace AbstractValue

variable {V : Type u} [DecidableEq V] [AbstractValue V]

def isCommitted (known : Option V) : Bool := (known.bind initialization?).any (·.isInitialized)

end AbstractValue

/-- Values whose join is committed exactly if both are: it neither finishes an object that is still
under construction on one side nor forgets that both are finished. -/
class LawfulCommitment (V : Type u) [DecidableEq V] [AbstractValue V] : Prop where
  isCommitted_joinKnown (a b : Option V) :
    AbstractValue.isCommitted (joinKnown a b) =
      (AbstractValue.isCommitted a && AbstractValue.isCommitted b)

/-! ## What is asked of an expression -/

/-- The reference whose value decides whether the expression is assigned: the expression itself, or
the variable that a field is reached through. -/
def FlowExpr.reference? : FlowExpr → Option FlowExpr
  | .field (.localVar l) _ | .localVar l => some (.localVar l)
  | .self => some .self
  | .field .self _ | .field (.ofClass _) _ | .field .other _ => none

namespace Store

variable {V : Type u} [DecidableEq V] [AbstractValue V] {s : Store V} {e : FlowExpr}

theorem isCommitted_iff : s.isCommitted e = true ↔
    ∃ v, s.value? e = some v ∧ AbstractValue.initialization? v = some .initialized := by
  unfold isCommitted
  simp [Option.any_eq_true, Option.bind_eq_some_iff, Qualifier.isInitialized]

/-- A field of the current object or of a class is assigned if it is in the set; any other
expression, if it refers to a finished object or is reached through a variable that does. -/
theorem isExpressionInitialized_iff : s.isExpressionInitialized e = true ↔
    (∃ f, e.ownField? = some f ∧ s.isInitialized f = true) ∨
      ∃ r v, e.reference? = some r ∧ s.value? r = some v ∧
        AbstractValue.initialization? v = some .initialized := by
  cases e with
  | self | localVar l =>
      simp [isExpressionInitialized, isCommitted_iff, FlowExpr.ownField?, FlowExpr.reference?]
  | field receiver f =>
      cases receiver with
      | self | ofClass | other =>
          simp [isExpressionInitialized, FlowExpr.ownField?, FlowExpr.reference?]
      | localVar l =>
          simp [isExpressionInitialized, isCommitted_iff, FlowExpr.ownField?, FlowExpr.reference?]

end Store

/-! ## References and tags -/

namespace TrackedValue

theorem isCommitted_reference (n : Nullness) (q : Option Qualifier) :
    AbstractValue.isCommitted (some (reference n q)) = q.any (·.isInitialized) := rfl

theorem isCommitted_tag (k : Nat) : AbstractValue.isCommitted (some (tag k)) = false := rfl

theorem isCommitted_join? (a b : TrackedValue) :
    AbstractValue.isCommitted (a.join? b) =
      (AbstractValue.isCommitted (some a) && AbstractValue.isCommitted (some b)) := by
  cases a with
  | reference n q =>
      cases b with
      | reference n' q' =>
          simp only [join?, isCommitted_reference]
          by_cases same : q = q'
          · rw [if_pos same, same, Bool.and_self]
          · rw [if_neg same]
            -- two different qualifiers are not both that of a finished object
            cases q with
            | none => rfl
            | some q =>
                cases q' with
                | none => simp
                | some q' =>
                    cases q <;> cases q' <;> simp_all [Qualifier.isInitialized]
      | tag k => rw [isCommitted_tag, Bool.and_false]; rfl
  | tag k =>
      cases b with
      | reference n q => rfl
      | tag k' =>
          simp only [join?, isCommitted_tag, Bool.and_false]
          by_cases same : k = k'
          · rw [if_pos same, isCommitted_tag]
          · rw [if_neg same]
            rfl

instance : LawfulCommitment TrackedValue where
  isCommitted_joinKnown a b := by
    cases a with
    | none => rfl
    | some a =>
        cases b with
        | none => rw [AbstractValue.joinKnown_none_right]; exact (Bool.and_false _).symm
        | some b => exact isCommitted_join? a b

end TrackedValue

/-! ## Stores -/

namespace Store

section LawfulCommitment

variable {V : Type u} [DecidableEq V] [AbstractValue V] [LawfulCommitment V]

theorem isCommitted_merge (a b : Store V) (e : FlowExpr) :
    (a.merge b).isCommitted e = (a.isCommitted e && b.isCommitted e) := by
  have hread (s : Store V) : s.isCommitted e = AbstractValue.isCommitted (s.value? e) := rfl
  rw [hread, hread, hread, value?_merge, LawfulCommitment.isCommitted_joinKnown]

/-- Receiver by receiver, one of the two rules of merging applies. -/
theorem isExpressionInitialized_merge (a b : Store V) (e : FlowExpr) :
    (a.merge b).isExpressionInitialized e =
      (a.isExpressionInitialized e && b.isExpressionInitialized e) := by
  cases e with
  | self => exact isCommitted_merge a b .self
  | localVar l => exact isCommitted_merge a b (.localVar l)
  | field receiver f =>
      cases receiver with
      | self => exact isInitialized_merge a b f
      | ofClass frame => exact isInitialized_merge a b f
      | localVar l => exact isCommitted_merge a b (.localVar l)
      | other => rfl

theorem isExpressionInitialized_of_le [LawfulJoin V] {a b : Store V} (precise : a ≤ b)
    {e : FlowExpr} (known : b.isExpressionInitialized e = true) :
    a.isExpressionInitialized e = true := by
  rw [← le_iff_merge_eq.mp precise, isExpressionInitialized_merge, Bool.and_eq_true] at known
  exact known.1

end LawfulCommitment

/-- With the values of the nullness checker, an expression counts as assigned where two paths meet
exactly if it did on both, and a store that is at least as precise as another one counts every
expression as assigned that the other one does. -/
theorem isExpressionInitialized_exact_at_merges (a b : Store TrackedValue) (e : FlowExpr) :
    ((a.merge b).isExpressionInitialized e = true ↔
        a.isExpressionInitialized e = true ∧ b.isExpressionInitialized e = true) ∧
      (a.atLeastAsPrecise b = true → b.isExpressionInitialized e = true →
        a.isExpressionInitialized e = true) := by
  refine ⟨?_, fun precise known => ?_⟩
  · rw [isExpressionInitialized_merge, Bool.and_eq_true]
  · exact isExpressionInitialized_of_le (atLeastAsPrecise_iff.mp precise) known

/-- A field of a local variable that refers to a finished object, null on one side only: it stays
assigned where the sides meet, and on the side that is the more precise one. Where a side with
another value of the variable comes in, the value is dropped and the field no longer counts as
assigned, nor does a field of the current object that only this side assigns. A field that is
reached in any other way never does. -/
theorem isExpressionInitialized_exact_at_merges_of_local_receiver :
    let object : FlowExpr := .localVar ⟨0⟩
    let x : FlowExpr := .field (.localVar ⟨0⟩) ⟨⟨1⟩, ⟨1⟩⟩
    let own : FlowExpr := .field .self ⟨⟨1⟩, ⟨1⟩⟩
    let foreign : FlowExpr := .field .other ⟨⟨1⟩, ⟨1⟩⟩
    let a := (∅ : Store TrackedValue).assign object (.reference .nonNull (some .initialized))
    let b := (∅ : Store TrackedValue).assign object (.reference .nullable (some .initialized))
    let c := ((∅ : Store TrackedValue).assign object (.tag 1)).assign own (.tag 2)
    (a.atLeastAsPrecise b = true ∧ b.isExpressionInitialized x = true ∧
        a.isExpressionInitialized x = true ∧ (a.merge b).isExpressionInitialized x = true) ∧
      ((a.merge c).value? object = none ∧ (a.merge c).isExpressionInitialized x = false) ∧
      (c.isExpressionInitialized own = true ∧ (a.merge c).isExpressionInitialized own = false) ∧
      c.isExpressionInitialized foreign = false := by
  intro object x own foreign a b c
  have precise : a.atLeastAsPrecise b = true := by decide
  have known : b.isExpressionInitialized x = true := by decide
  obtain ⟨both, lowered⟩ := isExpressionInitialized_exact_at_merges a b x
  have dropped : (a.merge c).isExpressionInitialized x = false := by
    rw [← Bool.not_eq_true, (isExpressionInitialized_exact_at_merges a c x).1]
    decide
  have oneSided : (a.merge c).isExpressionInitialized own = false := by
    rw [← Bool.not_eq_true, (isExpressionInitialized_exact_at_merges a c own).1]
    decide
  refine ⟨⟨precise, known, lowered precise known, ?_⟩, ?_, ?_, ?_⟩
  · exact both.mpr ⟨lowered precise known, known⟩
  · exact ⟨by decide, dropped⟩
  · exact ⟨by decide, oneSided⟩
  · rfl

end Store

end ObjectInit
