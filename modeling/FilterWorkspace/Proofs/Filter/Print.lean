import FilterWorkspace.Proofs.Json.Print
import FilterWorkspace.Proofs.Reading.Restoration

/-! Filters in print. The operator and the field are always read from the text of a filter as they were; the value
is what is read where it stands, inside two objects. -/

namespace FilterWorkspace

open Reading Json

theorem FieldContent.isNormal_toJson {c : FieldContent} (h : c.value.IsNormal) : c.toJson.IsNormal := by
  have hnames : InOrder Text.byteOrder id ["fieldName", "value"] := by decide +kernel
  refine isNormal_object (.of_map hnames) ?_
  simpa [IsNormal, normal] using h

namespace FieldFilter

theorem normal_toJson {f : FieldFilter} (h : f.content.value.IsNormal) :
    f.toJson.normal = .object [("content", f.content.toJson), ("op", f.op.toJson)] := by
  have hcontent : f.content.toJson.normal = f.content.toJson := FieldContent.isNormal_toJson h
  rw [toJson, normal_opContent, hcontent]
  rfl

end FieldFilter
end FilterWorkspace
