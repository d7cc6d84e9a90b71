import Mathlib.Data.List.Infix
import ObjectInit.Text.Replace

/-! # The pieces between occurrences

A text is taken apart at the occurrences of another one; replacing puts the same pieces together
with something else between them.
-/

namespace ObjectInit.Text

variable {old new s t : List Char} {c : Char} {cs : List Char}

/-! ## Where no occurrence begins -/

theorem replaceAll_append_of_none_begins
    (none : ∀ u v, s = u ++ v → v ≠ [] → ¬ old <+: v ++ t) :
    replaceAll old new (s ++ t) = s ++ replaceAll old new t := by
  induction s with
  | nil => rfl
  | cons d s ih =>
      have head : old.isPrefixOf (d :: (s ++ t)) = false := by
        rw [← Bool.not_eq_true, List.isPrefixOf_iff_prefix]
        exact none [] (d :: s) rfl (List.cons_ne_nil d s)
      have rest : ∀ u v, s = u ++ v → v ≠ [] → ¬ old <+: v ++ t := by
        intro u v split
        exact none (d :: u) v (by rw [split, List.cons_append])
      rw [List.cons_append, replaceAll_cons head, ih rest, List.cons_append]

theorem replaceAll_of_absent (free : ¬ old <:+: s) : replaceAll old new s = s := by
  have none : ∀ u v, s = u ++ v → v ≠ [] → ¬ old <+: v ++ [] := by
    intro u v split _ occurs
    rw [List.append_nil] at occurs
    exact free (split ▸ occurs.isInfix.trans (List.suffix_append u v).isInfix)
  have copied : replaceAll old new (s ++ []) = s ++ replaceAll old new [] :=
    replaceAll_append_of_none_begins none
  rwa [replaceAll_nil, List.append_nil] at copied

/-- An occurrence that begins in a text does not reach into what follows, if that begins like it. -/
theorem prefix_of_prefix_append (once : c ∉ cs) {v : List Char} (nonempty : v ≠ [])
    (occurs : c :: cs <+: v ++ c :: t) : c :: cs <+: v := by
  have either := List.prefix_or_prefix_of_prefix occurs (List.prefix_append v (c :: t))
  rcases either with inside | ⟨w, hw⟩
  · exact inside
  cases w with
  | nil => rw [← hw, List.append_nil]
  | cons d w =>
      -- the next character of the occurrence would be its first one again
      exfalso
      rw [← hw, List.prefix_append_right_inj] at occurs
      obtain ⟨rfl, -⟩ := List.cons_prefix_cons.mp occurs
      cases v with
      | nil => exact nonempty rfl
      | cons e v =>
          obtain ⟨-, rfl⟩ := List.cons.inj hw
          exact once (List.mem_append_right v List.mem_cons_self)

theorem infix_append_cons_of_notMem {h xs ys : List Char} {c : Char} (foreign : c ∉ h)
    (occurs : h <:+: xs ++ c :: ys) : h <:+: xs ∨ h <:+: ys := by
  obtain inside | inside | ⟨h₁, h₂, -, ne₂, split, -, begins⟩ :=
    List.infix_append_iff_ne_nil.mp occurs
  · exact .inl inside
  · obtain begins | inside := List.infix_cons_iff.mp inside
    · cases h with
      | nil => exact .inl (List.nil_infix)
      | cons d h =>
          obtain ⟨rfl, -⟩ := List.cons_prefix_cons.mp begins
          exact absurd List.mem_cons_self foreign
    · exact .inr inside
  · cases h₂ with
    | nil => exact absurd rfl ne₂
    | cons d h₂ =>
        obtain ⟨rfl, -⟩ := List.cons_prefix_cons.mp begins
        rw [split] at foreign
        exact absurd (List.mem_append_right h₁ List.mem_cons_self) foreign

/-! ## Taking apart and putting together -/

theorem replaceAll_intercalate (once : c ∉ cs) (new : List Char) {parts : List (List Char)}
    (free : ∀ part ∈ parts, ¬ c :: cs <:+: part) :
    replaceAll (c :: cs) new ((c :: cs).intercalate parts) = new.intercalate parts := by
  induction parts with
  | nil => simp [List.intercalate]
  | cons part parts ih =>
      obtain ⟨freeHead, freeRest⟩ := List.forall_mem_cons.mp free
      cases parts with
      | nil =>
          rw [List.intercalate_singleton, List.intercalate_singleton,
            replaceAll_of_absent freeHead]
      | cons next parts =>
          -- the occurrences to be replaced are the ones between the parts
          have none : ∀ u v, part = u ++ v → v ≠ [] →
              ¬ c :: cs <+: v ++ (c :: cs ++ (c :: cs).intercalate (next :: parts)) := by
            intro u v split nonempty occurs
            have inside := prefix_of_prefix_append once nonempty occurs
            exact freeHead (split ▸ inside.isInfix.trans (List.suffix_append u v).isInfix)
          rw [List.intercalate_cons_cons, List.intercalate_cons_cons, List.append_assoc,
            replaceAll_append_of_none_begins none, replaceAll_append (List.cons_ne_nil c cs),
            ih freeRest, List.append_assoc]

theorem prefix_intercalate (part : List Char) (parts : List (List Char)) :
    part <+: old.intercalate (part :: parts) := by
  cases parts with
  | nil => rw [List.intercalate_singleton]
  | cons next parts =>
      rw [List.intercalate_cons_cons, List.append_assoc]
      exact List.prefix_append part _

/-- Every text is made of pieces without occurrences, and replacing puts these together. -/
theorem exists_pieces (nonempty : old ≠ []) (s : List Char) :
    ∃ part parts, s = old.intercalate (part :: parts) ∧
      (∀ piece ∈ part :: parts, ¬ old <:+: piece) ∧
      ∀ new, replaceAll old new s = new.intercalate (part :: parts) := by
  have freeNil : ¬ old <:+: [] := fun h => nonempty (List.infix_nil.mp h)
  cases s with
  | nil => exact ⟨[], [], by simp, by simpa using freeNil, by simp⟩
  | cons d rest =>
      by_cases occurs : old <+: d :: rest
      · obtain ⟨behind, split⟩ := occurs
        have shorter : behind.length < rest.length + 1 := by
          have hlength := congrArg List.length split
          have positive := List.length_pos_iff.mpr nonempty
          simp only [List.length_append, List.length_cons] at hlength
          omega
        obtain ⟨part, parts, hbehind, free, replaced⟩ := exists_pieces nonempty behind
        refine ⟨[], part :: parts, ?_, List.forall_mem_cons.mpr ⟨freeNil, free⟩, fun new => ?_⟩
        · rw [List.intercalate_cons_cons, List.nil_append, ← hbehind, split]
        · rw [List.intercalate_cons_cons, List.nil_append, ← replaced, ← split,
            replaceAll_append nonempty]
      · obtain ⟨part, parts, hrest, free, replaced⟩ := exists_pieces nonempty rest
        obtain ⟨freeHead, freeRest⟩ := List.forall_mem_cons.mp free
        have head : old.isPrefixOf (d :: rest) = false := by
          rwa [← Bool.not_eq_true, List.isPrefixOf_iff_prefix]
        have freeLonger : ¬ old <:+: d :: part := by
          rw [List.infix_cons_iff, not_or]
          refine ⟨fun begins => occurs (begins.trans ?_), freeHead⟩
          rw [hrest, List.prefix_cons_inj]
          exact prefix_intercalate part parts
        refine ⟨d :: part, parts, ?_, List.forall_mem_cons.mpr ⟨freeLonger, freeRest⟩,
          fun new => ?_⟩
        · rw [List.intercalate_cons_cons_left, ← hrest]
        · rw [List.intercalate_cons_cons_left, ← replaced, replaceAll_cons head]
termination_by s.length

/-! ## What replacing leaves -/

/-- A text is another one without the occurrences of a third: both are made of the same pieces. -/
def IsWithout (old s short : List Char) : Prop :=
  ∃ parts, (∀ part ∈ parts, ¬ old <:+: part) ∧ s = old.intercalate parts ∧ short = parts.flatten

theorem intercalate_nil_eq_flatten (parts : List (List Char)) :
    ([] : List Char).intercalate parts = parts.flatten := by
  induction parts with
  | nil => rfl
  | cons part parts ih =>
      cases parts with
      | nil => simp
      | cons next parts => rw [List.intercalate_cons_cons, ih, List.append_nil]; rfl

theorem isWithout_iff (once : c ∉ cs) {short : List Char} :
    IsWithout (c :: cs) s short ↔ short = replaceAll (c :: cs) [] s := by
  constructor
  · rintro ⟨parts, free, rfl, rfl⟩
    rw [replaceAll_intercalate once [] free, intercalate_nil_eq_flatten]
  · rintro rfl
    obtain ⟨part, parts, hs, free, replaced⟩ := exists_pieces (List.cons_ne_nil c cs) s
    exact ⟨part :: parts, free, hs, by rw [replaced, intercalate_nil_eq_flatten]⟩

theorem length_intercalate_le (shorter : new.length ≤ old.length) (part : List Char)
    (parts : List (List Char)) :
    (new.intercalate (part :: parts)).length ≤ (old.intercalate (part :: parts)).length := by
  induction parts generalizing part with
  | nil => rw [List.intercalate_singleton, List.intercalate_singleton]
  | cons next parts ih =>
      have hrest := ih next
      simp only [List.intercalate_cons_cons, List.length_append]
      omega

theorem length_replaceAll_lt (nonempty : old ≠ []) (shorter : new.length < old.length)
    (occurs : old <:+: s) : (replaceAll old new s).length < s.length := by
  obtain ⟨part, parts, hs, free, replaced⟩ := exists_pieces nonempty s
  cases parts with
  | nil =>
      rw [List.intercalate_singleton] at hs
      exact absurd (hs ▸ occurs) (free part List.mem_cons_self)
  | cons next parts =>
      have hrest := length_intercalate_le (Nat.le_of_lt shorter) next parts
      rw [replaced, hs, List.intercalate_cons_cons, List.intercalate_cons_cons]
      simp only [List.length_append]
      omega

/-! ## Texts that take no part in an occurrence -/

/-- A text is inert for `h` if it takes no part in an occurrence of `h`, wherever it is put. -/
def Inert (h a : List Char) : Prop := ∀ l r, h <:+: l ++ a ++ r → h <:+: l ∨ h <:+: r

section Inert

variable {h a : List Char}

/-- Nothing that is longer than what surrounds the text occurs around it. -/
theorem Inert.not_around (inert : Inert h a) {l r : List Char} (left : l.length < h.length)
    (right : r.length < h.length) : ¬ h <:+: l ++ a ++ r := by
  intro occurs
  obtain inside | inside := inert l r occurs
  · exact absurd inside.length_le (Nat.not_le.mpr left)
  · exact absurd inside.length_le (Nat.not_le.mpr right)

theorem Inert.not_prefix_of_begun (inert : Inert h a) {l d t : List Char} (split : h = l ++ d)
    (begun : l ≠ []) (unfinished : d ≠ []) : ¬ d <+: a ++ t := by
  intro goesOn
  have hlength := congrArg List.length split
  have left := List.length_pos_iff.mpr begun
  have right := List.length_pos_iff.mpr unfinished
  rw [List.length_append] at hlength
  rcases List.prefix_or_prefix_of_prefix goesOn (List.prefix_append a t) with ⟨w, rfl⟩ | ⟨r, rfl⟩
  · refine inert.not_around (l := l) (r := []) (by omega) (by rw [List.length_nil]; omega) ?_
    rw [split, List.append_nil, ← List.append_assoc]
    exact (List.prefix_append _ w).isInfix
  · rw [List.length_append] at hlength right
    refine inert.not_around (l := l) (r := r) (by omega) (by omega) ?_
    rw [split, List.append_assoc]

theorem Inert.not_prefix_of_suffix (inert : Inert h a) (something : h ≠ []) {u v t : List Char}
    (split : a = u ++ v) (nonempty : v ≠ []) : ¬ h <+: v ++ t := by
  intro begins
  have positive := List.length_pos_iff.mpr something
  have right := List.length_pos_iff.mpr nonempty
  rcases List.prefix_or_prefix_of_prefix begins (List.prefix_append v t) with inside | ⟨r, rfl⟩
  · refine inert.not_around (l := []) (r := []) positive positive ?_
    rw [split, List.nil_append, List.append_nil]
    exact inside.isInfix.trans (List.suffix_append u v).isInfix
  · rw [List.length_append] at positive
    refine inert.not_around (l := []) (r := r) (by rwa [List.length_append])
      (by rw [List.length_append]; omega) ?_
    rw [split, List.nil_append, List.append_assoc]
    exact (List.suffix_append u (v ++ r)).isInfix

theorem exists_around_of_not_inert (something : h ≠ []) (active : ¬ Inert h a) :
    ∃ l r, (l <+: h ∧ l ≠ h) ∧ (r <:+ h ∧ r ≠ h) ∧ h <:+: l ++ a ++ r := by
  simp only [Inert, not_forall, not_or] at active
  obtain ⟨l, r, occurs, notLeft, notRight⟩ := active
  have noBeginning : [] <+: h ∧ [] ≠ h := ⟨List.nil_prefix, something.symm⟩
  have noEnd : [] <:+ h ∧ [] ≠ h := ⟨List.nil_suffix, something.symm⟩
  obtain inside | inside | ⟨h₁, h₂, ne₁, ne₂, split, ends, -⟩ :=
    List.infix_append_iff_ne_nil.mp occurs
  · obtain inside | inside | ⟨h₁, h₂, -, ne₂, split, -, begins⟩ :=
      List.infix_append_iff_ne_nil.mp inside
    · exact absurd inside notLeft
    · exact ⟨[], [], noBeginning, noEnd, by rwa [List.nil_append, List.append_nil]⟩
    · refine ⟨h₁, [], ⟨split ▸ List.prefix_append h₁ h₂, by simpa [split] using ne₂⟩, noEnd, ?_⟩
      rw [List.append_nil, split]
      exact ((List.prefix_append_right_inj h₁).mpr begins).isInfix
  · exact absurd inside notRight
  · have endOf : h₂ <:+ h ∧ h₂ ≠ h := ⟨split ▸ List.suffix_append h₁ h₂, by simpa [split] using ne₁⟩
    rcases List.suffix_or_suffix_of_suffix ends (List.suffix_append l a) with ⟨u, hu⟩ | ⟨p, hp⟩
    · refine ⟨[], h₂, noBeginning, endOf, ?_⟩
      rw [List.nil_append, split, ← hu, List.append_assoc]
      exact (List.suffix_append u _).isInfix
    · rw [← hp, List.append_assoc] at split
      have beginningOf : p <+: h ∧ p ≠ h :=
        ⟨split ▸ List.prefix_append p _, by simpa [split] using fun _ => ne₂⟩
      refine ⟨p, h₂, beginningOf, endOf, ?_⟩
      rw [split, List.append_assoc]

end Inert

end ObjectInit.Text
