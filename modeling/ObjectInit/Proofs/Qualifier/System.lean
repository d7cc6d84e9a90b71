import Mathlib.Order.Lattice
import ObjectInit.Qualifier.System

/-! # Systems of qualifiers that are lattices

What makes a system of qualifiers a bounded lattice, and the algebra that follows. Where the laws
hold of some qualifiers only, and the bounds do not lead out of these, they are a system of their
own.
-/

namespace ObjectInit.QualifierSystem

universe u

variable {Q : Type u}

/-- The order is a partial order between `bottom` and `top`, and the bounds of two qualifiers are
the least above and the greatest below them. -/
structure IsBoundedLattice (s : QualifierSystem Q) : Prop where
  le_refl (a : Q) : s.le a a = true
  le_antisymm {a b : Q} : s.le a b = true → s.le b a = true → a = b
  le_trans {a b c : Q} : s.le a b = true → s.le b c = true → s.le a c = true
  bottom_le (a : Q) : s.le s.bottom a = true
  le_top (a : Q) : s.le a s.top = true
  le_lub_left (a b : Q) : s.le a (s.lub a b) = true
  le_lub_right (a b : Q) : s.le b (s.lub a b) = true
  lub_le {a b c : Q} : s.le a c = true → s.le b c = true → s.le (s.lub a b) c = true
  glb_le_left (a b : Q) : s.le (s.glb a b) a = true
  glb_le_right (a b : Q) : s.le (s.glb a b) b = true
  le_glb {a b c : Q} : s.le c a = true → s.le c b = true → s.le c (s.glb a b) = true

namespace IsBoundedLattice

variable {s : QualifierSystem Q}

abbrev lattice (h : s.IsBoundedLattice) : Lattice Q where
  le a b := s.le a b = true
  le_refl := h.le_refl
  le_trans _ _ _ := h.le_trans
  le_antisymm _ _ := h.le_antisymm
  sup := s.lub
  le_sup_left := h.le_lub_left
  le_sup_right := h.le_lub_right
  sup_le _ _ _ := h.lub_le
  inf := s.glb
  inf_le_left := h.glb_le_left
  inf_le_right := h.glb_le_right
  le_inf _ _ _ := h.le_glb

theorem lub_comm (h : s.IsBoundedLattice) (a b : Q) : s.lub a b = s.lub b a :=
  @sup_comm Q h.lattice.toSemilatticeSup a b

theorem lub_assoc (h : s.IsBoundedLattice) (a b c : Q) :
    s.lub (s.lub a b) c = s.lub a (s.lub b c) :=
  @sup_assoc Q h.lattice.toSemilatticeSup a b c

theorem glb_comm (h : s.IsBoundedLattice) (a b : Q) : s.glb a b = s.glb b a :=
  @inf_comm Q h.lattice.toSemilatticeInf a b

theorem glb_assoc (h : s.IsBoundedLattice) (a b c : Q) :
    s.glb (s.glb a b) c = s.glb a (s.glb b c) :=
  @inf_assoc Q h.lattice.toSemilatticeInf a b c

theorem lub_glb_self (h : s.IsBoundedLattice) (a b : Q) : s.lub a (s.glb a b) = a :=
  @sup_inf_self Q h.lattice a b

theorem glb_lub_self (h : s.IsBoundedLattice) (a b : Q) : s.glb a (s.lub a b) = a :=
  @inf_sup_self Q h.lattice a b

theorem foldl_lub_le_iff (h : s.IsBoundedLattice) {qs : List Q} {a c : Q} :
    s.le (qs.foldl s.lub a) c = true ↔ s.le a c = true ∧ ∀ q ∈ qs, s.le q c = true := by
  induction qs generalizing a with
  | nil => simp
  | cons q qs ih =>
      have hpair : s.le (s.lub a q) c = true ↔ s.le a c = true ∧ s.le q c = true :=
        @sup_le_iff Q h.lattice.toSemilatticeSup a q c
      rw [List.foldl_cons, ih, hpair, List.forall_mem_cons, and_assoc]

theorem foldl_lub_perm (h : s.IsBoundedLattice) {qs qs' : List Q} (p : qs.Perm qs') (a : Q) :
    qs.foldl s.lub a = qs'.foldl s.lub a := by
  have hbound : ∀ c, s.le (qs.foldl s.lub a) c = true ↔ s.le (qs'.foldl s.lub a) c = true := by
    intro c
    rw [h.foldl_lub_le_iff, h.foldl_lub_le_iff]
    simp only [p.mem_iff]
  exact h.le_antisymm ((hbound _).mpr (h.le_refl _)) ((hbound _).mp (h.le_refl _))

end IsBoundedLattice

/-! ## Some qualifiers of a system -/

structure Closed (s : QualifierSystem Q) (p : Q → Prop) : Prop where
  top : p s.top
  bottom : p s.bottom
  lub {a b : Q} : p a → p b → p (s.lub a b)
  glb {a b : Q} : p a → p b → p (s.glb a b)

variable {s : QualifierSystem Q} {p : Q → Prop}

def restrict (s : QualifierSystem Q) (closed : s.Closed p) : QualifierSystem {q // p q} where
  top := ⟨s.top, closed.top⟩
  bottom := ⟨s.bottom, closed.bottom⟩
  le a b := s.le a b
  lub a b := ⟨s.lub a b, closed.lub a.2 b.2⟩
  glb a b := ⟨s.glb a b, closed.glb a.2 b.2⟩

theorem val_foldl_lub_restrict (closed : s.Closed p) (qs : List {q // p q}) (a : {q // p q}) :
    (qs.foldl (s.restrict closed).lub a).val = (qs.map Subtype.val).foldl s.lub a.val := by
  induction qs generalizing a with
  | nil => rfl
  | cons q qs ih => exact ih _

/-- The algebra of a bounded lattice, for the qualifiers with the property. -/
theorem laws_of_restrict {closed : s.Closed p} (h : (s.restrict closed).IsBoundedLattice) :
    (∀ a b, p a → p b → s.lub a b = s.lub b a ∧ s.glb a b = s.glb b a) ∧
      (∀ a b c, p a → p b → p c → s.lub (s.lub a b) c = s.lub a (s.lub b c) ∧
        s.glb (s.glb a b) c = s.glb a (s.glb b c)) ∧
      (∀ a b, p a → p b → s.lub a (s.glb a b) = a ∧ s.glb a (s.lub a b) = a) ∧
      ∀ qs qs' : List Q, (∀ q ∈ qs, p q) → qs.Perm qs' →
        qs.foldl s.lub s.bottom = qs'.foldl s.lub s.bottom := by
  refine ⟨?comm, ?assoc, ?absorb, ?perm⟩
  case comm =>
    intro a b ha hb
    exact ⟨congrArg Subtype.val (h.lub_comm ⟨a, ha⟩ ⟨b, hb⟩),
      congrArg Subtype.val (h.glb_comm ⟨a, ha⟩ ⟨b, hb⟩)⟩
  case assoc =>
    intro a b c ha hb hc
    exact ⟨congrArg Subtype.val (h.lub_assoc ⟨a, ha⟩ ⟨b, hb⟩ ⟨c, hc⟩),
      congrArg Subtype.val (h.glb_assoc ⟨a, ha⟩ ⟨b, hb⟩ ⟨c, hc⟩)⟩
  case absorb =>
    intro a b ha hb
    exact ⟨congrArg Subtype.val (h.lub_glb_self ⟨a, ha⟩ ⟨b, hb⟩),
      congrArg Subtype.val (h.glb_lub_self ⟨a, ha⟩ ⟨b, hb⟩)⟩
  case perm =>
    intro qs qs' hqs perm
    have hqs' : ∀ q ∈ qs', p q := fun q hq => hqs q (perm.mem_iff.mpr hq)
    have attached : (qs.attachWith p hqs).Perm (qs'.attachWith p hqs') := perm.pmap _
    have hbound := h.foldl_lub_perm attached ⟨s.bottom, closed.bottom⟩
    rw [Subtype.ext_iff, val_foldl_lub_restrict, val_foldl_lub_restrict,
      List.attachWith_map_subtype_val, List.attachWith_map_subtype_val] at hbound
    exact hbound

end ObjectInit.QualifierSystem
