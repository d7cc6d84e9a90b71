import ObjectInit.Identifier

/-! # Sets of frames

Frames of a hierarchy are small numbers, so a set of them is a number in binary: the digit at a
frame's position tells whether the frame is in the set.
-/

namespace ObjectInit

/-- A set of frames, by the binary digits of a number. -/
structure FrameSet where
  bits : Nat
deriving DecidableEq

namespace FrameSet

def empty : FrameSet := ⟨0⟩

def contains (s : FrameSet) (f : Frame) : Bool := s.bits.testBit f.index

def insert (s : FrameSet) (f : Frame) : FrameSet := ⟨s.bits ||| 1 <<< f.index⟩

def insertAll (s : FrameSet) (fs : List Frame) : FrameSet := fs.foldl insert s

/-- The frames of a list that are not in the set, each once, in order of appearance. -/
def fresh (s : FrameSet) : List Frame → List Frame
  | [] => []
  | f :: rest => if s.contains f then s.fresh rest else f :: (s.insert f).fresh rest

@[simp] theorem contains_empty (f : Frame) : empty.contains f = false := by
  simp [empty, contains]

theorem contains_insert (s : FrameSet) (f g : Frame) :
    (s.insert f).contains g = true ↔ g = f ∨ s.contains g = true := by
  have hg : g = f ↔ f.index = g.index := by
    cases f; cases g; simp [eq_comm]
  simp only [insert, contains, Nat.testBit_or, Nat.one_shiftLeft, Nat.testBit_two_pow,
    Bool.or_eq_true, decide_eq_true_eq, hg]
  exact or_comm

theorem contains_insertAll (s : FrameSet) (fs : List Frame) (g : Frame) :
    (s.insertAll fs).contains g = true ↔ g ∈ fs ∨ s.contains g = true := by
  induction fs generalizing s with
  | nil => simp [insertAll]
  | cons f rest ih =>
    have step : s.insertAll (f :: rest) = (s.insert f).insertAll rest := rfl
    rw [step, ih, contains_insert, List.mem_cons]
    constructor
    · rintro (h | h | h)
      · exact .inl (.inr h)
      · exact .inl (.inl h)
      · exact .inr h
    · rintro ((h | h) | h)
      · exact .inr (.inl h)
      · exact .inl h
      · exact .inr (.inr h)

theorem mem_fresh {s : FrameSet} {fs : List Frame} {g : Frame} :
    g ∈ s.fresh fs ↔ g ∈ fs ∧ s.contains g = false := by
  induction fs generalizing s with
  | nil => simp [fresh]
  | cons f rest ih =>
    have hc := contains_insert s f g
    simp only [fresh]
    split
    · rename_i hf
      rw [ih, List.mem_cons]
      constructor
      · exact fun h => ⟨.inr h.1, h.2⟩
      · rintro ⟨rfl | h, hg⟩
        · rw [hf] at hg
          cases hg
        · exact ⟨h, hg⟩
    · rename_i hf
      rw [List.mem_cons, List.mem_cons, ih]
      constructor
      · rintro (rfl | ⟨h, hg⟩)
        · exact ⟨.inl rfl, by simpa using hf⟩
        · refine ⟨.inr h, ?_⟩
          cases hs : s.contains g
          · rfl
          · rw [hc.mpr (.inr hs)] at hg
            cases hg
      · rintro ⟨h, hg⟩
        by_cases hgf : g = f
        · exact .inl hgf
        · refine .inr ⟨h.resolve_left hgf, ?_⟩
          cases hs : (s.insert f).contains g
          · rfl
          · rcases hc.mp hs with rfl | hs
            · exact absurd rfl hgf
            · rw [hs] at hg
              cases hg

end FrameSet

end ObjectInit
