import ObjectInit.Proofs.Hierarchy.Growth
import ObjectInit.SelfQualifier

/-! # The qualifier of an object under construction

Where an object is being built, its qualifier has one of two values, and which one depends on the
store before the place alone. Over a hierarchy the two differ for every class but the root.
-/

namespace ObjectInit.Analysis

universe u

variable {V : Type u} {a : Analysis V}

theorem ownFieldsAssigned_iff {m : MemberDecl} {s : Store V} :
    a.ownFieldsAssigned m s = true ↔ ∀ f ∈ a.declarations.instanceFieldsOf m.owner,
      f.isUnusedFor m.declaredReceiver = false → s.isInitialized f.id = true := by
  unfold ownFieldsAssigned
  simp only [List.all_eq_true, List.mem_filter, Bool.not_eq_true', and_imp]

theorem committedQualifier_ne_uncommittedQualifier {h : Hierarchy} (hr : h.Reachable)
    (oracle : a.oracle = h.oracle) {frame : Frame} (hf : frame ≠ Hierarchy.root) :
    a.committedQualifier frame ≠ a.uncommittedQualifier frame := by
  have hlt := hr.parentsFirst.supertypeOrRoot_lt hf
  unfold committedQualifier uncommittedQualifier
  rw [oracle]
  split
  · intro heq
    cases heq
  · intro heq
    rw [← Qualifier.under.inj heq] at hlt
    exact absurd hlt (Nat.lt_irrefl _)

/-! ## Inside a constructor or an instance initializer -/

variable {l : Location} {m : MemberDecl} {s : Store V}

theorem selfQualifierAt_eq (enabled : a.options.assumeInitialized = false)
    (enclosing : a.declarations.enclosingMember? l = some m)
    (kind : m.kind = .constructor ∨ m.kind = .instanceInitializer) :
    a.selfQualifierAt l =
      if a.declarations.allFieldsInitializedOnly m.owner &&
          (a.results.storeBefore? l).any (a.ownFieldsAssigned m) then
        a.committedQualifier m.owner
      else a.uncommittedQualifier m.owner := by
  unfold selfQualifierAt
  rw [enabled, enclosing, if_neg Bool.false_ne_true]
  show a.selfQualifierIn m l = _
  unfold selfQualifierIn
  cases kind with
  | inl hk => rw [hk]
  | inr hk => rw [hk]

theorem selfQualifierAt_under_construction (enabled : a.options.assumeInitialized = false)
    (enclosing : a.declarations.enclosingMember? l = some m)
    (kind : m.kind = .constructor ∨ m.kind = .instanceInitializer)
    (plain : a.declarations.allFieldsInitializedOnly m.owner = true)
    (before : a.results.storeBefore? l = some s) :
    a.selfQualifierAt l = if a.ownFieldsAssigned m s then a.committedQualifier m.owner
      else a.uncommittedQualifier m.owner := by
  rw [selfQualifierAt_eq enabled enclosing kind, plain, before, Bool.true_and, Option.any_some]

/-- While a field that the receiver uses is unassigned, the object counts as initialized up to the
superclass only. -/
theorem selfQualifierAt_of_unassigned (enabled : a.options.assumeInitialized = false)
    (enclosing : a.declarations.enclosingMember? l = some m)
    (kind : m.kind = .constructor ∨ m.kind = .instanceInitializer) {f : FieldDecl}
    (declared : f ∈ a.declarations.instanceFieldsOf m.owner)
    (used : f.isUnusedFor m.declaredReceiver = false)
    (unassigned : (a.results.storeBefore? l).any (·.isInitialized f.id) = false) :
    a.selfQualifierAt l = a.uncommittedQualifier m.owner := by
  have lacking : (a.results.storeBefore? l).any (a.ownFieldsAssigned m) = false := by
    cases before : a.results.storeBefore? l with
    | none => rfl
    | some s =>
        rw [before, Option.any_some] at unassigned
        rw [Option.any_some, Bool.eq_false_iff]
        intro assigned
        rw [ownFieldsAssigned_iff.mp assigned f declared used] at unassigned
        cases unassigned
  rw [selfQualifierAt_eq enabled enclosing kind, lacking, Bool.and_false,
    if_neg Bool.false_ne_true]

end ObjectInit.Analysis
