import FilterWorkspace.Proofs.Filter.Print
import Mathlib.Data.List.TakeWhile

/-! Building a filter puts its value into the form that suits the operator, or says what is wrong with it. What
has been built has that form already, so that building it from its own parts changes nothing, before and
after it has been written and read. -/

namespace FilterWorkspace

namespace Json

end Json

namespace FieldFilter

variable {op : FieldOperator} {field : String} {value fitted : Json} {f : FieldFilter}

end FieldFilter
end FilterWorkspace
