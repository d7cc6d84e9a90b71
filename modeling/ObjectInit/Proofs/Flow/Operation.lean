import ObjectInit.Flow.Effect
import ObjectInit.Proofs.Flow.Merge

/-! # Operations along a path

An operation assigns a field or leaves it, and keeps what is known of an expression or replaces it
by something that does not depend on the store. So paths commute with merging, and running a second
path after a first says nothing that one of the two, or neither, does not say already.
-/

namespace ObjectInit

open AbstractValue (joinKnown)

universe u

/-- What a walk through a body does to its store. -/
inductive Operation (V : Type u)
  | assign (target : FlowExpr) (value : V)
  | mark (field : FieldId)
  | call (sideEffectFree : Bool)
  /-- A constructor of the class hands over to another one. -/
  | thisCall (frame : Frame)
deriving DecidableEq

inductive ValueEffect (V : Type u)
  | keep
  /-- Whatever was known, this is known now; `none` if nothing is. -/
  | become (known : Option V)

namespace ValueEffect

variable {V : Type u}

def apply : ValueEffect V → Option V → Option V
  | keep, known => known
  | become known, _ => known

def andThen (first : ValueEffect V) : ValueEffect V → ValueEffect V
  | keep => first
  | become known => become known

theorem apply_andThen (first second : ValueEffect V) (known : Option V) :
    (first.andThen second).apply known = second.apply (first.apply known) := by
  cases second <;> rfl

variable [DecidableEq V] [AbstractValue V] [LawfulJoin V]

theorem apply_joinKnown (effect : ValueEffect V) (a b : Option V) :
    effect.apply (joinKnown a b) = joinKnown (effect.apply a) (effect.apply b) := by
  cases effect with
  | keep => rfl
  | become known => exact (AbstractValue.joinKnown_self known).symm

/-- After two effects nothing is known that the second alone or the first alone does not say. -/
theorem joinKnown_apply_apply (first second : ValueEffect V) (known : Option V) :
    joinKnown (second.apply (first.apply known))
        (joinKnown (first.apply known) (second.apply known)) =
      joinKnown (first.apply known) (second.apply known) := by
  cases second with
  | keep =>
      show joinKnown (first.apply known) (joinKnown (first.apply known) known) = _
      rw [← AbstractValue.joinKnown_assoc, AbstractValue.joinKnown_self]
      rfl
  | become written =>
      show joinKnown written (joinKnown (first.apply known) written) = _
      rw [AbstractValue.joinKnown_comm, AbstractValue.joinKnown_assoc,
        AbstractValue.joinKnown_self]
      rfl

end ValueEffect

namespace Operation

variable {V : Type u} (t : DeclarationTable)

def apply : Operation V → Store V → Store V
  | assign target value, s => s.assign target value
  | mark f, s => s.mark f
  | call sideEffectFree, s => s.callMethod t sideEffectFree
  | thisCall frame, s => s.callThisConstructor t frame

/-- The operations that assign a field of the current object or of a class. -/
inductive Sets (f : FieldId) : Operation V → Prop
  | assignSelf (value : V) : Sets f (assign (.field .self f) value)
  | assignClass (frame : Frame) (value : V) : Sets f (assign (.field (.ofClass frame) f) value)
  | mark : Sets f (mark f)
  | thisCall {frame : Frame} {d : FieldDecl} (declared : d ∈ t.instanceFieldsOf frame)
      (same : d.id = f) : Sets f (thisCall frame)

def effectOn (e : FlowExpr) : Operation V → ValueEffect V
  | assign target value =>
    if e = target ∧ target.isTrackable = true then .become (some value) else .keep
  | mark _ | thisCall _ => .keep
  | call sideEffectFree =>
    if e.survivesCall sideEffectFree (fun f => (t.field? f).any (·.isFinal))
        (fun f => (t.field? f).any (·.declaredInvariant)) = true then .keep
    else .become none

theorem sets_assign_iff {f : FieldId} {target : FlowExpr} {value : V} :
    Sets t f (assign target value) ↔ target.ownField? = some f := by
  constructor
  · intro h
    cases h <;> rfl
  · intro h
    unfold FlowExpr.ownField? at h
    split at h
    · cases h
      exact .assignSelf value
    · cases h
      exact .assignClass _ value
    · cases h

theorem sets_mark_iff {f g : FieldId} : Sets t f (mark g : Operation V) ↔ f = g := by
  constructor
  · intro h
    cases h
    rfl
  · intro h
    subst h
    exact .mark

theorem sets_thisCall_iff {f : FieldId} {frame : Frame} :
    Sets t f (thisCall frame : Operation V) ↔ f ∈ (t.instanceFieldsOf frame).map (·.id) := by
  rw [List.mem_map]
  constructor
  · intro h
    cases h with
    | thisCall declared same => exact ⟨_, declared, same⟩
  · intro ⟨d, declared, same⟩
    exact .thisCall declared same

theorem isInitialized_apply (op : Operation V) (s : Store V) (f : FieldId) :
    (op.apply t s).isInitialized f = true ↔ op.Sets t f ∨ s.isInitialized f = true := by
  cases op with
  | assign target value => rw [sets_assign_iff]; exact s.isInitialized_assign target value f
  | mark g => rw [sets_mark_iff]; exact s.isInitialized_mark g f
  | call sideEffectFree =>
      have hno : ¬ Sets t f (call sideEffectFree : Operation V) := fun h => by cases h
      simp [hno, apply, Store.callMethod]
  | thisCall frame => rw [sets_thisCall_iff]; exact s.isInitialized_markAll _ f

theorem value?_apply (op : Operation V) (s : Store V) (e : FlowExpr) :
    (op.apply t s).value? e = (op.effectOn t e).apply (s.value? e) := by
  cases op with
  | assign target value =>
      refine (s.value?_assign target value e).trans ?_
      simp only [effectOn]
      split <;> rfl
  | mark g => exact s.value?_mark g e
  | call sideEffectFree =>
      refine (s.value?_call sideEffectFree _ _ e).trans ?_
      simp only [effectOn]
      split <;> rfl
  | thisCall frame => exact s.value?_markAll _ e

end Operation

/-! ## Paths -/

/-- The operations met along one way through a body. -/
abbrev Path (V : Type u) := List (Operation V)

namespace Path

variable {V : Type u} (t : DeclarationTable)

def run (p : Path V) (s : Store V) : Store V := p.foldl (fun s op => op.apply t s) s

def effectOn (e : FlowExpr) : Path V → ValueEffect V
  | [] => .keep
  | op :: rest => (op.effectOn t e).andThen (effectOn e rest)

theorem run_append (p q : Path V) (s : Store V) :
    run t (p ++ q) s = run t q (run t p s) := List.foldl_append

theorem isInitialized_run (p : Path V) (s : Store V) (f : FieldId) :
    (run t p s).isInitialized f = true ↔ s.isInitialized f = true ∨ ∃ op ∈ p, op.Sets t f := by
  induction p generalizing s with
  | nil => simp [run]
  | cons op rest ih =>
      have hstep : run t (op :: rest) s = run t rest (op.apply t s) := rfl
      simp only [hstep, ih (op.apply t s), op.isInitialized_apply, List.mem_cons, exists_eq_or_imp]
      rw [or_comm (a := op.Sets t f), or_assoc]

theorem value?_run (p : Path V) (s : Store V) (e : FlowExpr) :
    (run t p s).value? e = (effectOn t e p).apply (s.value? e) := by
  induction p generalizing s with
  | nil => rfl
  | cons op rest ih =>
      have hstep : run t (op :: rest) s = run t rest (op.apply t s) := rfl
      rw [hstep, ih (op.apply t s), op.value?_apply, effectOn, ValueEffect.apply_andThen]

variable [DecidableEq V] [AbstractValue V] [LawfulJoin V]

theorem run_merge (p : Path V) (a b : Store V) :
    run t p (a.merge b) = (run t p a).merge (run t p b) := by
  apply Store.ext_answers
  · intro f
    rw [Bool.eq_iff_iff, Store.isInitialized_merge, Bool.and_eq_true, isInitialized_run,
      isInitialized_run, isInitialized_run, Store.isInitialized_merge, Bool.and_eq_true,
      and_or_right]
  · intro e
    rw [Store.value?_merge, value?_run, value?_run, value?_run, Store.value?_merge,
      ValueEffect.apply_joinKnown]

/-- A second path after a first says at least as much as the two paths together. -/
theorem run_run_le (p q : Path V) (s : Store V) :
    run t q (run t p s) ≤ (run t p s).merge (run t q s) := by
  rw [Store.le_iff_answers]
  constructor
  · intro f hf
    rw [Store.isInitialized_merge, Bool.and_eq_true] at hf
    exact (isInitialized_run t q _ f).mpr (.inl hf.1)
  · intro e
    rw [Store.value?_merge, value?_run t q, value?_run t q, value?_run t p]
    exact ValueEffect.joinKnown_apply_apply _ _ _

end Path

end ObjectInit
