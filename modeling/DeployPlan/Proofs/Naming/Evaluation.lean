import DeployPlan.Proofs.Naming.Topology
import DeployPlan.Proofs.Naming.Values

/-!
# Evaluations without display names

An entity key that is a keyword or the id of a node denotes a node whatever display names there are.
So where all values refer by id, evaluations without display names are the same evaluations.
-/
namespace DeployPlan

namespace Scene

variable {s : Scene} {key : String}

theorem denotesIn_unnamed (h : s.topology.Identifies key) : s.DenotesIn s.unnamed key := by
  intro scope
  have hnode := s.topology.counterpart_unnamed.node?
  unfold entity?
  cases scope.get? key with
  | some id => exact hnode id
  | none =>
    rcases h with hkeyword | hid
    · simp only [hkeyword, if_true]
      exact .none
    · obtain ⟨n, hn⟩ := Option.isSome_iff_exists.1 ((s.topology.has_iff_mem_ids key).2 hid)
      have hkey := hnode key
      simp only [hn, Topology.node?_unnamed, Option.map_some] at hkey
      simp only [unnamed, Topology.nodeByIdOrName?, Topology.node?_unnamed, hn, Option.map_some,
        Option.some_or]
      split
      · exact .none
      · exact hkey

theorem RefersById.denotesIn (hs : s.RefersById) {v : PropertyValue} (h : v ∈ s.values) :
    ∀ key ∈ v.entityKeys, s.DenotesIn s.unnamed key :=
  fun key hkey => denotesIn_unnamed (hs v h key hkey)

end Scene

namespace Eval

variable {s : Scene} {scope : Scope}

theorem resolve_unnamed (hs : s.RefersById) {v : PropertyValue} (h : v ∈ s.values) :
    resolve s.unnamed scope v = resolve s scope v :=
  resolve_counterpart s.counterpart_unnamed (fun _ hw => hs.denotesIn hw) (hs.denotesIn h)

theorem nodeProperties_unnamed (hs : s.RefersById) (id : String) :
    nodeProperties s.unnamed id = nodeProperties s id :=
  nodeProperties_counterpart s.counterpart_unnamed (fun _ hw => hs.denotesIn hw) id

end Eval

end DeployPlan
