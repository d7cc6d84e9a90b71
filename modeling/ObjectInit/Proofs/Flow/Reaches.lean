import ObjectInit.Flow.Entry
import ObjectInit.Proofs.Flow.Operation

/-! # Stores that a member's body reaches

The stores of a walk come from the entry of the member by operations and merges, and what is
assigned at the entry stays assigned in all of them.
-/

namespace ObjectInit.DeclarationTable

universe u

variable {V : Type u} (t : DeclarationTable) (options : Options) (m : MemberId)

/-! ## The entry -/

theorem isInitialized_entryStore {m : MemberId} {d : MemberDecl} (hm : t.member? m = some d)
    (f : FieldId) :
    (t.entryStore options m : Store V).isInitialized f = true ↔
      ∃ g ∈ t.fieldsOf d.owner, g.isSetOnEntry options d.kind = true ∧ g.id = f := by
  have hentry : (t.entryStore options m : Store V) = Store.empty.markAll
      (((t.fieldsOf d.owner).filter fun g => g.isSetOnEntry options d.kind).map (·.id)) := by
    simp only [entryStore, hm]
  rw [hentry, Store.isInitialized_markAll]
  simp [and_assoc]

theorem isInitialized_entryStoreAfterInitializers (results : FlowResults V) {f : FieldId}
    (hf : (t.entryStore options m : Store V).isInitialized f = true) :
    (t.entryStoreAfterInitializers options results m).isInitialized f = true := by
  unfold entryStoreAfterInitializers
  cases t.member? m with
  | none => exact hf
  | some d =>
      by_cases hd : d.kind = .constructor
      · simp only [hd, if_true]
        exact (Store.isInitialized_markAll _ _ f).mpr (.inr hf)
      · simp only [hd, if_false]
        exact hf

/-! ## The body -/

variable [DecidableEq V] [AbstractValue V]

/-- The stores that come from the entry of a member by operations and merges. -/
inductive Reaches : Store V → Prop
  | entry : Reaches (t.entryStore options m)
  | entryAfterInitializers (results : FlowResults V) :
      Reaches (t.entryStoreAfterInitializers options results m)
  | step {s : Store V} (op : Operation V) : Reaches s → Reaches (op.apply t s)
  | merge {a b : Store V} : Reaches a → Reaches b → Reaches (a.merge b)

variable {t options m}

theorem Reaches.isInitialized_of_entry {s : Store V} (hs : t.Reaches options m s) {f : FieldId}
    (hf : (t.entryStore options m : Store V).isInitialized f = true) :
    s.isInitialized f = true := by
  induction hs with
  | entry => exact hf
  | entryAfterInitializers results =>
      exact isInitialized_entryStoreAfterInitializers t options m results hf
  | step op _ ih => exact (op.isInitialized_apply t _ f).mpr (.inr ih)
  | merge _ _ iha ihb => rw [Store.isInitialized_merge, iha, ihb, Bool.and_self]

theorem Reaches.isInitialized_of_isSetOnEntry {s : Store V} (hs : t.Reaches options m s)
    {d : MemberDecl} (hm : t.member? m = some d) {f : FieldDecl} (hf : f ∈ t.fieldsOf d.owner)
    (hset : f.isSetOnEntry options d.kind = true) : s.isInitialized f.id = true :=
  hs.isInitialized_of_entry ((isInitialized_entryStore t options hm f.id).mpr ⟨f, hf, hset, rfl⟩)

end ObjectInit.DeclarationTable
