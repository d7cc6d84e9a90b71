import ObjectInit.Proofs.Message.Reading

/-! # Arguments that come out as they stand

Filling in one argument after the other is filling all holes at once as long as no argument takes
part in the hole of a later one, and an argument that may do so does in some template. A text
without braces that is not made of digits only never does.
-/

namespace ObjectInit.Template

open Text (Inert replaceAll infix_append_cons_of_notMem)

/-- Argument number `i` of `n` takes no part in the hole of a later one, wherever it is put. -/
def Harmless (i n : Nat) (a : String) : Prop := ∀ j, i < j → j < n → Inert (hole j) a.toList

/-! ## Filling in one after the other -/

section Stages

variable {n k : Nat} {args : List String}

/-- What goes on with a hole that has been opened is written in the template, not in an argument
that has been filled in. -/
theorem prefix_source_of_prefix_filled
    (inert : ∀ i < k, Inert (hole k) (args[i]?.getD "").toList) {ps : List Piece}
    {l d : List Char} (split : hole k = l ++ d) (opened : l ≠ [])
    (goesOn : d <+: ps.flatMap (·.filled args k)) : d <+: ps.flatMap (·.source) := by
  induction ps generalizing l d with
  | nil => exact goesOn
  | cons p rest ih =>
      by_cases finished : d = []
      · rw [finished]
        exact List.nil_prefix
      rw [List.flatMap_cons] at goesOn ⊢
      cases p with
      | char c =>
          cases d with
          | nil => exact List.nil_prefix
          | cons e d =>
              obtain ⟨rfl, onward⟩ := List.cons_prefix_cons.mp goesOn
              refine (List.prefix_cons_inj e).mpr (ih (l := l ++ [e]) ?_ (by simp) onward)
              rw [split, List.append_assoc, List.singleton_append]
      | arg i =>
          unfold Piece.filled at goesOn
          by_cases earlier : i < k
          · simp only [if_pos earlier] at goesOn
            exact absurd goesOn ((inert i earlier).not_prefix_of_begun split opened finished)
          · simp only [if_neg earlier] at goesOn
            exact absurd goesOn (not_prefix_hole_of_opened split opened finished)

/-- One argument is filled in, if the earlier ones take no part in its hole. -/
theorem replaceAll_filled (inert : ∀ i < k, Inert (hole k) (args[i]?.getD "").toList)
    (inside : k < n) {ps : List Piece} (reading : IsReading n ps) :
    replaceAll (hole k) (args[k]?.getD "").toList (ps.flatMap (·.filled args k)) =
      ps.flatMap (·.filled args (k + 1)) := by
  induction ps with
  | nil => exact Text.replaceAll_nil _ _
  | cons p rest ih =>
      rw [List.flatMap_cons, List.flatMap_cons]
      cases p with
      | char c =>
          have head : (hole k).isPrefixOf (c :: rest.flatMap (·.filled args k)) = false := by
            rw [← Bool.not_eq_true, List.isPrefixOf_iff_prefix]
            intro begins
            obtain ⟨rfl, goesOn⟩ := List.cons_prefix_cons.mp begins
            have written := prefix_source_of_prefix_filled inert (l := ['\x7b']) rfl
              (List.cons_ne_nil _ _) goesOn
            exact reading.1 k inside ((List.prefix_cons_inj _).mpr written)
          exact (Text.replaceAll_cons head _).trans (congrArg (c :: ·) (ih reading.2))
      | arg i =>
          unfold Piece.filled
          rcases Nat.lt_trichotomy i k with earlier | rfl | later
          · have none : ∀ u v, (args[i]?.getD "").toList = u ++ v → v ≠ [] →
                ¬ hole k <+: v ++ rest.flatMap (·.filled args k) := fun u v split nonempty =>
              (inert i earlier).not_prefix_of_suffix (hole_ne_nil k) split nonempty
            simp only [if_pos earlier, if_pos (Nat.lt_succ_of_lt earlier)]
            exact (Text.replaceAll_append_of_none_begins none).trans (congrArg _ (ih reading.2))
          · simp only [if_neg (Nat.lt_irrefl i), if_pos (Nat.lt_succ_self i)]
            exact (Text.replaceAll_append (hole_ne_nil i) _ _).trans (congrArg _ (ih reading.2))
          · have none : ∀ u v, hole i = u ++ v → v ≠ [] →
                ¬ hole k <+: v ++ rest.flatMap (·.filled args k) := fun u v split nonempty =>
              not_hole_prefix_of_suffix split (Nat.ne_of_gt later) nonempty _
            simp only [if_neg (Nat.lt_asymm later), if_neg (Nat.not_lt.mpr later)]
            exact (Text.replaceAll_append_of_none_begins none).trans (congrArg _ (ih reading.2))

theorem fillFrom_filled (small : k ≤ args.length)
    (inert : ∀ m < k, ∀ i < m, Inert (hole m) (args[i]?.getD "").toList) {ps : List Piece}
    (reading : IsReading args.length ps) :
    fillFrom 0 (ps.flatMap (·.source)) args =
      fillFrom k (ps.flatMap (·.filled args k)) (args.drop k) := by
  induction k with
  | zero => rw [flatMap_filled_zero, List.drop_zero]
  | succ k ih =>
      have inside : k < args.length := small
      have step := replaceAll_filled (inert k (Nat.lt_succ_self k)) inside reading
      rw [List.getElem?_eq_getElem inside, Option.getD_some] at step
      rw [ih (Nat.le_of_lt inside) fun m hm => inert m (Nat.lt_succ_of_lt hm),
        List.drop_eq_getElem_cons inside, fillFrom, step]

end Stages

/-- If no argument takes part in the hole of a later one, then arguments that are filled in one
after the other are filled in all at once. -/
theorem fill_eq_fillAtOnce {args : List String}
    (harmless : ∀ i a, args[i]? = some a → Harmless i args.length a) (text : String) :
    fill text args = fillAtOnce text args := by
  obtain ⟨reading, written⟩ := pieces_spec args.length text.toList
  have inert : ∀ m < args.length, ∀ i < m, Inert (hole m) (args[i]?.getD "").toList := by
    intro m hm i hi
    have inside : i < args.length := Nat.lt_trans hi hm
    rw [List.getElem?_eq_getElem inside]
    exact harmless i args[i] (List.getElem?_eq_getElem inside) m hi hm
  have stages := fillFrom_filled (Nat.le_refl args.length) inert reading
  rw [written, reading.flatMap_filled, List.drop_length, fillFrom] at stages
  unfold fill fillAtOnce
  rw [stages]

theorem fill_single {args : List String} (single : args.length ≤ 1) (text : String) :
    fill text args = fillAtOnce text args := by
  refine fill_eq_fillAtOnce (fun i a _ j later inside => ?_) text
  omega

/-! ## Texts that are harmless -/

theorem inert_hole_of_plain {a : List Char} (unopened : '\x7b' ∉ a) (unclosed : '\x7d' ∉ a)
    {c : Char} (inside : c ∈ a) (other : c.isDigit = false) (j : Nat) : Inert (hole j) a := by
  intro l r occurs
  have foreign : c ∉ hole j := by
    rw [hole_eq, holeEnd, List.mem_cons, List.mem_append, List.mem_singleton, not_or, not_or]
    refine ⟨?_, notMem_digits other j, ?_⟩
    · rintro rfl
      exact unopened inside
    · rintro rfl
      exact unclosed inside
  obtain ⟨a₁, a₂, rfl⟩ := List.append_of_mem inside
  have shape : l ++ (a₁ ++ c :: a₂) ++ r = (l ++ a₁) ++ c :: (a₂ ++ r) := by simp
  rw [shape] at occurs
  rw [List.mem_append, List.mem_cons, not_or, not_or] at unopened unclosed
  obtain before | behind := infix_append_cons_of_notMem foreign occurs
  · obtain inside | inside | ⟨h₁, h₂, -, ne₂, split, -, begins⟩ :=
      List.infix_append_iff_ne_nil.mp before
    · exact .inl inside
    · exact absurd (inside.subset (brace_mem_hole j)) unopened.1
    · have closes := close_mem_of_suffix (split ▸ List.suffix_append h₁ h₂) ne₂
      exact absurd (begins.subset closes) unclosed.1
  · obtain inside | inside | ⟨h₁, h₂, ne₁, -, split, ends, -⟩ :=
      List.infix_append_iff_ne_nil.mp behind
    · exact absurd (inside.subset (brace_mem_hole j)) unopened.2.2
    · exact .inr inside
    · have opens : '\x7b' ∈ h₁ :=
        brace_mem_of_begins (k := j) (t := h₂) (split ▸ List.prefix_rfl) ne₁
      exact absurd (ends.subset opens) unopened.2.2

theorem harmless_of_plain {a : String} (unopened : '\x7b' ∉ a.toList) (unclosed : '\x7d' ∉ a.toList)
    (other : ∃ c ∈ a.toList, c.isDigit = false) (i n : Nat) : Harmless i n a := by
  obtain ⟨c, inside, notDigit⟩ := other
  exact fun j _ _ => inert_hole_of_plain unopened unclosed inside notDigit j

theorem harmless_letter (i n : Nat) : Harmless i n "x" :=
  harmless_of_plain (by decide) (by decide) ⟨'x', by decide, by decide⟩ i n

/-! ## Texts that are not -/

theorem length_fillFrom_letters (k m : Nat) (s : List Char) :
    (fillFrom k s (List.replicate m "x")).length ≤ s.length ∧
      ∀ j, k ≤ j → j < k + m → hole j <:+: s →
        (fillFrom k s (List.replicate m "x")).length < s.length := by
  induction m generalizing k s with
  | zero => exact ⟨Nat.le_refl _, fun j _ _ => by omega⟩
  | succ m ih =>
      -- either the first letter takes the place of a hole, or nothing changes until the next one
      rw [List.replicate_succ, fillFrom]
      obtain ⟨hle, hlt⟩ := ih (k + 1) (replaceAll (hole k) "x".toList s)
      by_cases occurs : hole k <:+: s
      · have short : "x".toList.length < (hole k).length := by
          have letter : "x".toList.length = 1 := rfl
          rw [letter, hole_eq, holeEnd, List.length_cons, List.length_append, List.length_singleton]
          omega
        have shorter := Text.length_replaceAll_lt (hole_ne_nil k) short occurs
        exact ⟨by omega, fun j _ _ _ => by omega⟩
      · rw [Text.replaceAll_of_absent occurs] at hle hlt ⊢
        refine ⟨hle, fun j hkj hj there => hlt j ?_ (by omega) there⟩
        rcases Nat.lt_or_eq_of_le hkj with later | rfl
        · exact later
        · exact absurd there occurs

/-- Argument number `i` of `n` comes out as it stands, whatever the template and the other arguments
are, as long as these are harmless. -/
def Verbatim (i n : Nat) (a : String) : Prop :=
  ∀ (text : String) (args : List String), args.length = n → args[i]? = some a →
    (∀ k b, k ≠ i → args[k]? = some b → Harmless k n b) → fill text args = fillAtOnce text args

theorem Harmless.verbatim {i n : Nat} {a : String} (harmless : Harmless i n a) :
    Verbatim i n a := by
  intro text args hlength hget others
  refine fill_eq_fillAtOnce (fun k b hk => ?_) text
  rw [hlength]
  by_cases same : k = i
  · rw [same, hget] at hk
    cases hk
    rw [same]
    exact harmless
  · exact others k b same hk

def amongLetters (i n : Nat) (a : String) : List String :=
  List.replicate i "x" ++ a :: List.replicate (n - i - 1) "x"

section AmongLetters

variable {i n k : Nat} {a b : String}

theorem length_amongLetters (small : i < n) : (amongLetters i n a).length = n := by
  unfold amongLetters
  rw [List.length_append, List.length_cons, List.length_replicate, List.length_replicate]
  omega

theorem getElem?_amongLetters_self : (amongLetters i n a)[i]? = some a := by
  unfold amongLetters
  rw [List.getElem?_append_right (by rw [List.length_replicate]), List.length_replicate,
    Nat.sub_self, List.getElem?_cons_zero]

theorem eq_of_getElem?_amongLetters (other : k ≠ i) (h : (amongLetters i n a)[k]? = some b) :
    b = "x" := by
  unfold amongLetters at h
  rcases Nat.lt_or_gt_of_ne other with earlier | later
  · rw [List.getElem?_append_left (by rwa [List.length_replicate])] at h
    exact List.eq_of_mem_replicate (List.mem_of_getElem? h)
  · obtain ⟨d, rfl⟩ := Nat.exists_eq_add_of_lt later
    rw [List.getElem?_append_right (by rw [List.length_replicate]; omega), List.length_replicate,
      show i + d + 1 - i = d + 1 by omega, List.getElem?_cons_succ] at h
    exact List.eq_of_mem_replicate (List.mem_of_getElem? h)

theorem drop_amongLetters : (amongLetters i n a).drop (i + 1) = List.replicate (n - i - 1) "x" := by
  unfold amongLetters
  rw [List.drop_append, List.length_replicate, List.drop_of_length_le (by simp),
    Nat.add_sub_cancel_left]
  rfl

/-- Letters before and behind an argument: up to the argument, the two ways to fill in agree. -/
theorem fill_around (small : i < n) {l r : List Char} (unclosed : '\x7d' ∉ l)
    (unopened : '\x7b' ∉ r) :
    let text := String.ofList (l ++ (hole i ++ r))
    let around := l ++ (a.toList ++ r)
    fill text (amongLetters i n a) =
        String.ofList (fillFrom (i + 1) around (List.replicate (n - i - 1) "x")) ∧
      fillAtOnce text (amongLetters i n a) = String.ofList around := by
  intro text around
  have hlength : (amongLetters i n a).length = n := length_amongLetters small
  have hpieces := pieces_around small unclosed unopened
  obtain ⟨reading, written⟩ := pieces_spec n (l ++ (hole i ++ r))
  rw [hpieces] at reading written
  have row {f : Piece → List Char} (copy : ∀ c, f (.char c) = [c]) (arg : f (.arg i) = a.toList) :
      (l.map Piece.char ++ Piece.arg i :: r.map Piece.char).flatMap f = around := by
    rw [List.flatMap_append, List.flatMap_cons, flatMap_map_char copy, flatMap_map_char copy, arg]
  have hvalue : Piece.value (amongLetters i n a) (.arg i) = a.toList := by
    rw [Piece.value, getElem?_amongLetters_self, Option.getD_some]
  have inert : ∀ m < i + 1, ∀ k < m, Inert (hole m) ((amongLetters i n a)[k]?.getD "").toList := by
    intro m hm k hk
    have inside : k < (amongLetters i n a).length := by omega
    have letter := eq_of_getElem?_amongLetters (Nat.ne_of_lt (by omega))
      (List.getElem?_eq_getElem inside)
    rw [List.getElem?_eq_getElem inside, Option.getD_some, letter]
    exact harmless_letter k n m hk (by omega)
  have stages := fillFrom_filled (by omega) inert (hlength ▸ reading)
  rw [written, drop_amongLetters, row (fun _ => rfl)
    (by rw [Piece.filled, if_pos (Nat.lt_succ_self i), hvalue])] at stages
  refine ⟨?_, ?_⟩
  · rw [fill, String.toList_ofList, stages]
  · rw [fillAtOnce, String.toList_ofList, hlength, hpieces, row (fun _ => rfl) hvalue]

end AmongLetters

/-- In a template that opens a hole before an argument, or closes one behind it, the argument is
filled in again. -/
theorem Verbatim.harmless {i n : Nat} {a : String} (verbatim : Verbatim i n a) :
    Harmless i n a := by
  intro j later inside
  by_contra active
  obtain ⟨l, r, ⟨begins, unfinished⟩, ⟨ends, unbegun⟩, occurs⟩ :=
    Text.exists_around_of_not_inert (hole_ne_nil j) active
  have unclosed : '\x7d' ∉ l := close_notMem_of_prefix begins unfinished
  have unopened : '\x7b' ∉ r := by
    obtain ⟨u, hu⟩ := ends
    refine brace_notMem_of_opened hu.symm ?_
    rintro rfl
    exact unbegun hu
  have small : i < n := Nat.lt_trans later inside
  have same := verbatim (String.ofList (l ++ (hole i ++ r))) (amongLetters i n a)
    (length_amongLetters small) getElem?_amongLetters_self fun k b other hk => by
      rw [eq_of_getElem?_amongLetters other hk]
      exact harmless_letter k n
  obtain ⟨oneByOne, atOnce⟩ := fill_around (a := a) small unclosed unopened
  rw [oneByOne, atOnce, String.ofList_inj] at same
  -- a letter has taken the place of a hole
  rw [List.append_assoc] at occurs
  have shorter := (length_fillFrom_letters (i + 1) (n - i - 1) (l ++ (a.toList ++ r))).2 j later
    (by omega) occurs
  rw [same] at shorter
  exact Nat.lt_irrefl _ shorter

/-! ## When arguments are inserted verbatim -/

/-- Arguments that are filled in one after the other come out as they stand, in any template, if
none of them takes part in the hole of a later one; so a single argument always does. And an
argument comes out as it stands in all templates, among arguments of which the same holds, only if
it takes no part in such a hole. -/
theorem fill_verbatim_iff_harmless (text : String) (args : List String) :
    ((∀ i a, args[i]? = some a → Harmless i args.length a) →
        fill text args = fillAtOnce text args) ∧
      (args.length ≤ 1 → fill text args = fillAtOnce text args) ∧
      ∀ i a, Verbatim i args.length a ↔ Harmless i args.length a :=
  ⟨fun harmless => fill_eq_fillAtOnce harmless text, fun single => fill_single single text,
    fun _ _ => ⟨Verbatim.harmless, Harmless.verbatim⟩⟩

/-- The names of two fields come out as they stand, and so does the last argument, also one that is
written as a hole. The first of two arguments does not always, if it is the hole of the second. -/
theorem fill_verbatim_iff_harmless_of_field_names :
    let text := "\x7b0\x7d of \x7b1\x7d"
    fill text ["s, t", "\x7b0\x7d"] = fillAtOnce text ["s, t", "\x7b0\x7d"] ∧
      fill text ["\x7b1\x7d"] = fillAtOnce text ["\x7b1\x7d"] ∧ ¬ Verbatim 0 2 "\x7b1\x7d" := by
  intro text
  obtain ⟨together, -, boundary⟩ := fill_verbatim_iff_harmless text ["s, t", "\x7b0\x7d"]
  refine ⟨together fun i a hget => ?_, ?_, ?_⟩
  · cases i with
    | zero =>
        obtain rfl := Option.some.inj hget
        exact harmless_of_plain (by decide) (by decide) ⟨'s', by decide, by decide⟩ 0 2
    | succ i =>
        intro j later inside
        rw [List.length_cons, List.length_singleton] at inside
        omega
  · exact (fill_verbatim_iff_harmless text ["\x7b1\x7d"]).2.1 (Nat.le_refl 1)
  · intro verbatim
    have inert := (boundary 0 _).mp verbatim 1 Nat.zero_lt_one Nat.one_lt_two
    exact inert.not_around (l := []) (r := []) (by decide) (by decide) (by decide)

/-- The hole of a later argument is filled in again in an argument that brings it along, and also in
a template that puts braces around the hole of a number. -/
theorem argument_filled_in_again :
    fill "\x7b0\x7d and \x7b1\x7d" ["\x7b1\x7d", "x"] ≠
        fillAtOnce "\x7b0\x7d and \x7b1\x7d" ["\x7b1\x7d", "x"] ∧
      fill "\x7b\x7b0\x7d\x7d" ["1", "x"] ≠ fillAtOnce "\x7b\x7b0\x7d\x7d" ["1", "x"] := by
  decide +kernel

end ObjectInit.Template
