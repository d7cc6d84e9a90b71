import ObjectInit.Message
import ObjectInit.NameTable
import ObjectInit.Report.Pending
import ObjectInit.Report.Suppression

/-! # Reporting

A finding is taken out of the buffer, the suppressed and the exempt fields are dropped, and what
remains is written as one diagnostic or as one for each field.
-/

namespace ObjectInit

namespace PendingError

/-- The fields that are neither suppressed nor exempt. -/
def remaining (e : PendingError) (isExempt : FieldId → Bool) (suppression : Suppression) :
    List FieldId :=
  e.fields.filter fun f => !suppression f e.key && !isExempt f

def diagnostics (e : PendingError) (fields : List FieldId) (t : DeclarationTable)
    (names : NameTable) : List Diagnostic :=
  if fields.isEmpty then []
  else if e.perField then
    fields.map fun f =>
      let location := ((t.field? f).map (·.location)).getD e.location
      Diagnostic.ofKey location e.key [names.resolve f.name]
  else
    let joined := ", ".intercalate (fields.map fun f => names.resolve f.name)
    let args := if e.extraArgs.isEmpty then [joined] else e.extraArgs
    [Diagnostic.ofKey e.location e.key args]

end PendingError

namespace ErrorBuffer

variable (isExempt : FieldId → Bool) (suppression : Suppression) (t : DeclarationTable)
  (names : NameTable)

/-- Takes the finding at a place out of the buffer and reports what is left of it. -/
def report (b : ErrorBuffer) (l : Location) : List Diagnostic × ErrorBuffer :=
  match b.pending? l with
  | none => ([], b)
  | some e => (e.diagnostics (e.remaining isExempt suppression) t names, b.drop l)

def reportEach (b : ErrorBuffer) : List Location → List Diagnostic × ErrorBuffer
  | [] => ([], b)
  | l :: rest =>
    let (found, b') := b.report isExempt suppression t names l
    let (more, b'') := reportEach b' rest
    (found ++ more, b'')

def reportAll (b : ErrorBuffer) : List Diagnostic × ErrorBuffer :=
  b.reportEach isExempt suppression t names b.locations

end ErrorBuffer

end ObjectInit
