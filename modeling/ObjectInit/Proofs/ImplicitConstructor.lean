import ObjectInit.Proofs.Declaration.Members
import ObjectInit.Proofs.ExitCheck

/-! # The implicit constructor

A constructor that does nothing ends with the store at its entry, and then its check and that of the
implicit constructor find the same fields.
-/

namespace ObjectInit

universe u

namespace DeclarationTable

variable {V : Type u} {t : DeclarationTable} {frame : Frame}

theorem Reachable.isInitialized_entry_of_constructor (collected : t.Reachable) (options : Options)
    (results : FlowResults V) {m : MemberId} {d : MemberDecl} (declared : t.member? m = some d)
    (kind : d.kind = .constructor) {f : FieldDecl} (own : f ∈ t.fieldsOf d.owner) :
    (t.entryStoreAfterInitializers options results m).isInitialized f.id =
      (f.isSetOnEntry options .constructor ||
        (t.assignedBy results d.owner .instanceInitializer).contains f.id) := by
  have hentry : t.entryStoreAfterInitializers options results m =
      (t.entryStore options m).markAll (t.assignedBy results d.owner .instanceInitializer) := by
    simp only [entryStoreAfterInitializers, declared, kind, if_true]
  -- There is only one declaration of the field, so the entry cannot have it by another one.
  have hset : (t.entryStore options m : Store V).isInitialized f.id = true ↔
      f.isSetOnEntry options .constructor = true := by
    rw [isInitialized_entryStore t options declared, kind]
    constructor
    · intro ⟨g, hg, hset, same⟩
      have hfield := (collected.mem_fieldsOf_iff.mp own).1
      have hfield' := (collected.mem_fieldsOf_iff.mp hg).1
      rw [same, hfield] at hfield'
      cases hfield'
      exact hset
    · intro hset
      exact ⟨f, own, hset, rfl⟩
  rw [hentry, Bool.eq_iff_iff, Store.isInitialized_markAll, hset, Bool.or_eq_true,
    List.contains_iff_mem, or_comm]

theorem assignedBy_of_new_constructor {t' : DeclarationTable} {d : MemberDecl}
    (kind : d.kind = .constructor)
    (members : t'.membersOf frame = t.membersOf frame ++ [d]) (results : FlowResults V) :
    t'.assignedBy results frame .instanceInitializer =
      t.assignedBy results frame .instanceInitializer := by
  unfold assignedBy membersOfKind
  rw [members, List.filter_append, List.filter_cons_of_neg (by simp [kind]), List.filter_nil,
    List.append_nil]

end DeclarationTable

theorem FieldDecl.isUnusedFor_none (f : FieldDecl) : f.isUnusedFor none = false := by
  unfold isUnusedFor
  split
  · rename_i none
    cases none
  · rfl

/-- The fields that neither their declaration nor the listed assignments set before a constructor
begins. -/
def unsetBeforeConstructor (options : Options) (fields : List FieldDecl)
    (assigned : List FieldId) : List FieldId :=
  (fields.filter fun f =>
    !(f.isSetOnEntry options .constructor || assigned.contains f.id)).map (·.id)

namespace Analysis

variable {V : Type u} {a : Analysis V} {frame : Frame}

theorem unassignedByDefault_eq :
    a.unassignedByDefault frame =
      unsetBeforeConstructor a.options (a.declarations.instanceFieldsOf frame)
        (a.declarations.assignedBy a.results frame .instanceInitializer) := by
  unfold unassignedByDefault unsetBeforeConstructor
  dsimp only
  congr 1
  apply List.filter_congr
  intro f hf
  have ofObject := (DeclarationTable.mem_instanceFieldsOf.mp hf).2
  rw [f.needsNoAssignment_eq ofObject, f.isUnusedFor_none, Bool.false_or, Bool.not_or]

theorem unassignedByConstructor_of_entry {d : MemberDecl} {s : Store V} {assigned : List FieldId}
    (receiver : d.declaredReceiver = none)
    (entry : ∀ f ∈ a.declarations.fieldsOf d.owner, s.isInitialized f.id =
      (f.isSetOnEntry a.options .constructor || assigned.contains f.id)) :
    a.unassignedByConstructor d s =
      unsetBeforeConstructor a.options (a.declarations.instanceFieldsOf d.owner) assigned := by
  unfold unassignedByConstructor unsetBeforeConstructor
  rw [List.filter_filter]
  congr 1
  apply List.filter_congr
  intro f hf
  obtain ⟨hfield, ofObject⟩ := DeclarationTable.mem_instanceFieldsOf.mp hf
  rw [f.needsNoAssignment_eq ofObject, receiver, f.isUnusedFor_none, Bool.false_or,
    entry f hfield]
  cases f.isSetOnEntry a.options .constructor <;> simp

/-- A constructor that is added to a class at a free place and does nothing is judged as the class
would be without constructors: either neither check records anything, or both record the same fields
in the same order. -/
theorem emptyConstructor_judged_as_implicit {c : ClassDecl} {l : Location}
    (enabled : a.options.assumeInitialized = false) (collected : a.declarations.Reachable)
    (declared : a.declarations.class? frame = some c)
    (free : a.declarations.memberAt.get? l = none) :
    let left := unsetBeforeConstructor a.options (a.declarations.instanceFieldsOf frame)
      (a.declarations.assignedBy a.results frame .instanceInitializer)
    ∃ m t', a.declarations.declareMember frame .constructor l none = (.ok m, t') ∧
      ∀ results : FlowResults V,
        results.exitStore? m = some (t'.entryStoreAfterInitializers a.options a.results m) →
        let extended : Analysis V := { a with declarations := t', results := results }
        ∀ b, extended.checkConstructor m b =
              (if left = [] then b
                else b.record { location := l, fields := left,
                                key := Template.fieldsUninitialized }) ∧
            a.checkDefaultConstructor frame b =
              (if left = [] then b
                else b.record { location := c.location, fields := left,
                                key := Template.fieldUninitialized, perField := true }) := by
  intro left
  obtain ⟨d, t', hd, hdeclare, hextended, hmember, hfields, hmembers⟩ :=
    collected.declareMember_at_free .constructor none free declared
  refine ⟨d.id, t', hdeclare, ?_⟩
  intro results exit extended b
  constructor
  · have owner : d.owner = frame := by rw [hd]
    have kind : d.kind = .constructor := by rw [hd]
    have receiver : d.declaredReceiver = none := by rw [hd]
    have hassigned : t'.assignedBy a.results d.owner .instanceInitializer =
        a.declarations.assignedBy a.results frame .instanceInitializer := by
      rw [owner]
      exact DeclarationTable.assignedBy_of_new_constructor kind
        ((hmembers frame).trans (if_pos rfl)) a.results
    have hinstance : t'.instanceFieldsOf d.owner = a.declarations.instanceFieldsOf frame := by
      unfold DeclarationTable.instanceFieldsOf
      rw [hfields, owner]
    have hleft : extended.unassignedByConstructor d
        (t'.entryStoreAfterInitializers a.options a.results d.id) = left := by
      have entry := fun f => hextended.isInitialized_entry_of_constructor a.options a.results
        hmember kind (f := f)
      rw [hassigned] at entry
      rw [unassignedByConstructor_of_entry (a := extended) receiver entry]
      show unsetBeforeConstructor a.options (t'.instanceFieldsOf d.owner) _ = left
      rw [hinstance]
    show b.recordAll (extended.constructorFinding? d.id).toList = _
    rw [constructorFinding?_eq (a := extended) enabled hmember exit, hleft, hd]
    split <;> rfl
  · show b.recordAll (a.defaultConstructorFinding? frame).toList = _
    rw [defaultConstructorFinding?_eq declared, unassignedByDefault_eq]
    split <;> rfl

/-- A class with two instance initializers. Of its instance fields, the first one has an initializer
and the last one is primitive. -/
def boxTable : DeclarationTable :=
  let t := (DeclarationTable.empty.declareClass ⟨1⟩ ⟨2⟩ ⟨10⟩ false).2
  let t := (t.declareField { id := ⟨⟨1⟩, ⟨3⟩⟩, location := ⟨11⟩, hasInitializer := true }).2
  let t := (t.declareField { id := ⟨⟨1⟩, ⟨4⟩⟩, location := ⟨12⟩ }).2
  let t := (t.declareField { id := ⟨⟨1⟩, ⟨5⟩⟩, location := ⟨13⟩ }).2
  let t := (t.declareField { id := ⟨⟨1⟩, ⟨6⟩⟩, location := ⟨14⟩, isPrimitive := true }).2
  let t := (t.declareMember ⟨1⟩ .instanceInitializer ⟨15⟩ none).2
  (t.declareMember ⟨1⟩ .instanceInitializer ⟨16⟩ none).2

/-- The first initializer assigns the second field, the other one never ends regularly. Both checks
name the third field only. -/
theorem emptyConstructor_judged_as_implicit_of_two_initializers :
    let a : Analysis TrackedValue := ⟨boxTable, (Hierarchy.withRoot ⟨1⟩).oracle, {},
      FlowResults.empty.recordExit ⟨0⟩ (Store.empty.mark ⟨⟨1⟩, ⟨4⟩⟩)⟩
    ∃ m t', boxTable.declareMember ⟨1⟩ .constructor ⟨17⟩ none = (.ok m, t') ∧
      let exit := t'.entryStoreAfterInitializers a.options a.results m
      let extended : Analysis TrackedValue :=
        ⟨t', a.oracle, a.options, ⟨∅, a.results.exits.insert m exit⟩⟩
      (extended.checkConstructor m ∅).errors.map (·.fields) = [[⟨⟨1⟩, ⟨5⟩⟩]] ∧
        (a.checkDefaultConstructor ⟨1⟩ ∅).errors.map (·.fields) = [[⟨⟨1⟩, ⟨5⟩⟩]] := by
  intro a
  have collected : boxTable.Reachable :=
    .declareMember _ _ _ _ (.declareMember _ _ _ _ (.declareField _ (.declareField _
      (.declareField _ (.declareField _ (.declareClass _ _ _ _ .empty))))))
  have declared : boxTable.class? ⟨1⟩ = some ⟨⟨1⟩, ⟨2⟩, ⟨10⟩, false, none,
      [⟨⟨1⟩, ⟨3⟩⟩, ⟨⟨1⟩, ⟨4⟩⟩, ⟨⟨1⟩, ⟨5⟩⟩, ⟨⟨1⟩, ⟨6⟩⟩], [⟨0⟩, ⟨1⟩]⟩ := by decide
  have free : boxTable.memberAt.get? ⟨17⟩ = none := by decide
  obtain ⟨m, t', hdeclare, judged⟩ :=
    emptyConstructor_judged_as_implicit (a := a) rfl collected declared free
  refine ⟨m, t', hdeclare, ?_⟩
  intro exit extended
  obtain ⟨hconstructor, himplicit⟩ := judged ⟨∅, a.results.exits.insert m exit⟩
    (FiniteMap.get?_insert_self _ _ _) ∅
  constructor
  · rw [hconstructor]
    decide
  · rw [himplicit]
    decide

end Analysis

end ObjectInit
