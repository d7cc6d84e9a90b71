import ObjectInit.Report.Reporting

/-! # What a finding comes out as

A finding is told once for all fields that are neither suppressed nor exempt, by their names or by
arguments of its own, or once for each of them, where the field is declared.
-/

namespace ObjectInit

/-! ## Texts with one hole -/

namespace Template

variable {before after text : String}

theorem fill_hole (plain : '\x7b' ∉ before.toList) (plain' : '\x7b' ∉ after.toList)
    (shape : text.toList = before.toList ++ (hole 0 ++ after.toList)) (arg : String) :
    fill text [arg] = before ++ arg ++ after := by
  have nonempty : hole 0 ≠ [] := by decide
  have copied (new : List Char) : Text.replaceAll (hole 0) new after.toList = after.toList := by
    have absent := Text.replaceAll_append_of_notMem plain' ['0', '\x7d'] new []
    rw [Text.replaceAll_nil, List.append_nil] at absent
    exact absent
  have replaced : Text.replaceAll (hole 0) arg.toList text.toList =
      before.toList ++ (arg.toList ++ after.toList) := by
    rw [shape]
    refine (Text.replaceAll_append_of_notMem plain ['0', '\x7d'] _ _).trans ?_
    exact congrArg _ ((Text.replaceAll_append nonempty _ _).trans (congrArg _ (copied _)))
  unfold fill fillFrom fillFrom
  rw [replaced]
  simp [String.ofList_append, String.append_assoc]

theorem fill_hole_at_end (plain : '\x7b' ∉ before.toList)
    (shape : text.toList = before.toList ++ hole 0) (arg : String) :
    fill text [arg] = before ++ arg := by
  have filled : fill text [arg] = before ++ arg ++ "" :=
    fill_hole plain (by decide) (by simpa using shape) arg
  rwa [String.append_empty] at filled

end Template

namespace Diagnostic

variable {l : Location} {key : String} {args : List String}

theorem key_ofKey : (ofKey l key args).key = key := by
  unfold ofKey
  split <;> rfl

theorem ofKey_of_fill {severity : Severity} {text filled : String}
    (found : Template.find? key = some ⟨key, severity, text⟩)
    (fills : Template.fill text args = filled) : ofKey l key args = ⟨severity, key, l, filled⟩ := by
  unfold ofKey
  simp only [found, fills]

end Diagnostic

/-! ## What remains -/

namespace PendingError

variable {e : PendingError} {isExempt : FieldId → Bool} {suppression : Suppression}
  {fields : List FieldId} {t : DeclarationTable} {names : NameTable}

theorem remaining_eq_nil_iff : e.remaining isExempt suppression = [] ↔
    ∀ f ∈ e.fields, suppression f e.key = true ∨ isExempt f = true := by
  unfold remaining
  simp only [List.filter_eq_nil_iff, ← Bool.not_or, Bool.not_eq_true', Bool.not_eq_false,
    Bool.or_eq_true]

theorem remaining_sublist : (e.remaining isExempt suppression).Sublist e.fields :=
  List.filter_sublist

/-! ## What is told -/

theorem diagnostics_eq_nil_iff : e.diagnostics fields t names = [] ↔ fields = [] := by
  unfold diagnostics
  cases fields with
  | nil => simp
  | cons f rest => cases e.perField <;> simp

/-- Where a field is declared; the place of the finding, if it is not declared at all. -/
def placeOf (e : PendingError) (t : DeclarationTable) (f : FieldId) : Location :=
  ((t.field? f).map (·.location)).getD e.location

def arguments (e : PendingError) (fields : List FieldId) (names : NameTable) : List String :=
  if e.extraArgs.isEmpty then [", ".intercalate (fields.map fun f => names.resolve f.name)]
  else e.extraArgs

theorem diagnostics_perField (perField : e.perField = true) (fields : List FieldId)
    (t : DeclarationTable) (names : NameTable) :
    e.diagnostics fields t names =
      fields.map fun f => Diagnostic.ofKey (e.placeOf t f) e.key [names.resolve f.name] := by
  unfold diagnostics
  cases fields with
  | nil => rfl
  | cons f rest =>
      rw [perField]
      rfl

theorem diagnostics_joint (joint : e.perField = false) (fields : List FieldId)
    (t : DeclarationTable) (names : NameTable) :
    e.diagnostics fields t names =
      if fields = [] then []
      else [Diagnostic.ofKey e.location e.key (e.arguments fields names)] := by
  unfold diagnostics
  cases fields with
  | nil => rfl
  | cons f rest =>
      rw [joint]
      rfl

theorem placeOf_eq {f : FieldId} {d : FieldDecl} (declared : t.field? f = some d) :
    e.placeOf t f = d.location := by
  unfold placeOf
  rw [declared, Option.map_some, Option.getD_some]

theorem length_diagnostics : (e.diagnostics fields t names).length =
    if e.perField then fields.length else min fields.length 1 := by
  cases perField : e.perField with
  | true => rw [diagnostics_perField perField, List.length_map, if_pos rfl]
  | false =>
      rw [diagnostics_joint perField, if_neg Bool.false_ne_true]
      cases fields with
      | nil => rfl
      | cons f rest => simp

theorem key_of_mem_diagnostics {d : Diagnostic} (told : d ∈ e.diagnostics fields t names) :
    d.key = e.key := by
  cases perField : e.perField with
  | true =>
      rw [diagnostics_perField perField] at told
      obtain ⟨f, -, rfl⟩ := List.mem_map.mp told
      exact Diagnostic.key_ofKey
  | false =>
      rw [diagnostics_joint perField] at told
      split at told
      · cases told
      · rw [List.mem_singleton.mp told]
        exact Diagnostic.key_ofKey

/-- To suppress or exempt one field takes nothing away from what is told of another. -/
theorem diagnostics_sublist (perField : e.perField = true) {fewer : List FieldId}
    (sub : fewer.Sublist fields) :
    (e.diagnostics fewer t names).Sublist (e.diagnostics fields t names) := by
  rw [diagnostics_perField perField, diagnostics_perField perField]
  exact sub.map _

/-- A finding with arguments of its own tells the same whichever fields remain. -/
theorem diagnostics_of_extraArgs (joint : e.perField = false) (own : e.extraArgs ≠ [])
    (remains : fields ≠ []) :
    e.diagnostics fields t names = [Diagnostic.ofKey e.location e.key e.extraArgs] := by
  have arguments_eq : e.arguments fields names = e.extraArgs := if_neg (by simpa using own)
  rw [diagnostics_joint joint, if_neg remains, arguments_eq]

theorem diagnostics_of_names (joint : e.perField = false) (plain : e.extraArgs = []) :
    e.diagnostics fields t names =
      if fields = [] then []
      else [Diagnostic.ofKey e.location e.key
        [", ".intercalate (fields.map fun f => names.resolve f.name)]] := by
  have arguments_eq : e.arguments fields names =
      [", ".intercalate (fields.map fun f => names.resolve f.name)] := if_pos (by simp [plain])
  rw [diagnostics_joint joint, arguments_eq]

end PendingError

theorem ErrorBuffer.report_of_pending {b : ErrorBuffer} {e : PendingError}
    (found : b.pending? e.location = some e) (isExempt : FieldId → Bool)
    (suppression : Suppression) (t : DeclarationTable) (names : NameTable) :
    b.report isExempt suppression t names e.location =
      (e.diagnostics (e.remaining isExempt suppression) t names, b.drop e.location) := by
  unfold report
  rw [found]

end ObjectInit
