import DeployPlan.Proofs.Build.Kinds
import DeployPlan.Proofs.Compiler.Planned

/-!
# Kinds of compiled nodes

How a node is implemented is decided before the nodes placed on it are built, by the number that the
containment graph has of them; nodes that are met again are passed over afterwards. When ids are
distinct none is, and how a node is implemented fits the number of nodes below it in the finished
plan. What a node has for its scripts fits how it is implemented.
-/
namespace DeployPlan

namespace Job

end Job

namespace Build

variable {job : Job} {p p' : Pass} {plan : Plan}

end Build

namespace Compiler

variable {s : Settings} {t : Topology} {env : Surroundings} {envs : List Surroundings} {p : Plan}

/-- A machine with a node on it that is declared twice. -/
def repeatedSite : Topology where
  name := "site"
  nodes := [
    ⟨"vm", computeType, none, none, ∅, [], [], [], []⟩,
    ⟨"app", "App", none, none, ∅, ["host"], [⟨"app_host", "host", "vm", hostedOn, ∅, []⟩], [], []⟩,
    ⟨"app", "App", none, none, ∅, ["host"], [⟨"app_host", "host", "vm", hostedOn, ∅, []⟩], [], []⟩]
  groups := []
  dependencies := []
  archive := none

-- the machine is implemented for two nodes, the second of which is met again and passed over
example : ((start repeatedSite (.initial ⟨none, none⟩)).compile bareSurroundings).1.toOption.map
    (fun p => (Tree.subtreesOf p.roots).map
      fun q => (q.label.id, q.label.kind, q.children.length)) =
      some [("vm", .coLocation, 1), ("app", .scriptedProcess, 0)] := by
  decide +kernel

end Compiler

end DeployPlan
