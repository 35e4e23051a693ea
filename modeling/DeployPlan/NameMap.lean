import Std.Data.ExtTreeMap

/-!
# Maps from names

A finite map from names is determined by its entries and lists them in the order of the names'
code points.
-/
namespace DeployPlan

/-- A finite map from names, listed in name order. -/
abbrev NameMap (α : Type) := Std.ExtTreeMap String α

namespace NameMap

variable {α : Type}

/-- The map of entries, a later one of the same name counting. -/
def ofEntries (es : List (String × α)) : NameMap α :=
  es.foldl (fun m e => m.insert e.1 e.2) ∅

/-- `base` with the entries of `later` put on top. -/
def overlay (base later : NameMap α) : NameMap α :=
  later.toList.foldl (fun m e => m.insert e.1 e.2) base

end NameMap

end DeployPlan
