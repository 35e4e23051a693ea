import DeployPlan.Proofs.Build.Steps
import DeployPlan.Proofs.Topology.PolicyForms

/-!
# Short and long forms of topologies

A document that is rewritten from short forms to long ones, at any of its places and any number of
times, is read as the same topology, but for the order in which the data of a policy is listed. It
is refused with the same reason when it was refused before.
-/
namespace DeployPlan

open Entries (ChangesOne)

namespace Topology

theorem TemplateRewrite.mem (name : String) (v w : Json) (h : TemplateRewrite name v w) :
    name ∈ templateNames := by
  cases h with
  | nodes under | groups under => simp [under, templateNames]

theorem readNodes_eq {template template' : Fields}
    (h : ChangesOne TemplateRewrite template template') :
    readNodes template = readNodes template' := by
  rcases h.get? "node_templates" with heq | ⟨v, w, hv, hw, change⟩
  · simp only [readNodes, heq]
  · cases change with
    | nodes under change =>
      obtain ⟨change⟩ := change
      simp only [readNodes, hv, hw]
      exact change.mapM_eq fun id v w h => readNode_eq h id
    | groups under => simp at under

theorem readGroups_agrees {template template' : Fields}
    (h : ChangesOne TemplateRewrite template template') :
    Agrees (List.Forall₂ Group.Alike) (readGroups template) (readGroups template') := by
  rcases h.get? "groups" with heq | ⟨v, w, hv, hw, change⟩
  · simp only [readGroups, heq]
    exact .of_eq (fun gs => List.forall₂_same.2 fun g _ => .refl g) rfl
  · cases change with
    | groups under change =>
      obtain ⟨change⟩ := change
      simp only [readGroups, hv, hw]
      exact .mapM (change.forall₂ (fun e => .of_eq Group.Alike.refl rfl) fun name v w h =>
        readGroup_agrees h name)
    | nodes under => simp at under

/-- Templates of two documents whose node templates and groups are read alike. -/
structure ReadAlike (template template' : Fields) : Prop where
  nodes : readNodes template = readNodes template'
  groups : Agrees (List.Forall₂ Group.Alike) (readGroups template) (readGroups template')

theorem ReadAlike.of_get? {template template' : Fields}
    (h : ∀ name ∈ templateNames, Entries.get? name template = Entries.get? name template') :
    ReadAlike template template' where
  nodes := by simp only [readNodes, h "node_templates" (by decide)]
  groups := by
    simp only [readGroups, h "groups" (by decide)]
    exact .of_eq (fun gs => List.forall₂_same.2 fun g _ => .refl g) rfl

theorem ReadAlike.of_change {template template' : Fields}
    (h : ChangesOne TemplateRewrite template template') : ReadAlike template template' :=
  ⟨readNodes_eq h, readGroups_agrees h⟩

/-- Documents with the same template below, or none. -/
theorem ReadAlike.templateFields {root root' : Fields} (h : ReadAlike root root')
    (hnested : Entries.get? "topology_template" root = Entries.get? "topology_template" root') :
    ReadAlike (templateFields root) (templateFields root') := by
  rw [Topology.templateFields, Topology.templateFields, hnested]
  cases (Entries.get? "topology_template" root').bind Json.asObject? with
  | none => exact h
  | some template => exact .of_get? fun _ _ => rfl

/-- The names of what is read of a document beside its template. -/
def headNames : List String :=
  ["name", "template_name", "dependencies", "imports", "archive"]

/-- Documents are read alike when their templates are and nothing else of them is changed. -/
theorem read_agrees_of_template {root root' : Fields}
    (htemplate : ReadAlike (templateFields root) (templateFields root'))
    (hhead : ∀ name ∈ headNames, Entries.get? name root = Entries.get? name root') :
    Agrees Alike (read (.obj root)) (read (.obj root')) := by
  have hfirst {names : List String} (hnames : ∀ name ∈ names, name ∈ headNames) :
      Entries.first? names root = Entries.first? names root' := by
    unfold Entries.first?
    induction names with
    | nil => rfl
    | cons name names ih =>
      rw [List.forall_mem_cons] at hnames
      rw [List.findSome?_cons, List.findSome?_cons, hhead name hnames.1, ih hnames.2]
  simp only [read, htemplate.nodes]
  refine (Agrees.of_eq (fun _ => rfl) rfl).bind fun nodes nodes' (hnodes : nodes = nodes') => ?_
  refine htemplate.groups.bind fun groups groups' hgroups => .ok ?_
  exact {
    name := by simp only [Fields.text?, hfirst (by decide : ∀ name ∈ ["name", "template_name"], _)]
    nodes := hnodes
    groups := hgroups
    dependencies := by simp only [hfirst (by decide : ∀ name ∈ ["dependencies", "imports"], _)]
    archive := by simp only [hhead "archive" (by decide)] }

theorem read_agrees {doc doc' : Json} (h : Rewrite doc doc') :
    Agrees Alike (read doc) (read doc') := by
  cases h with
  | @nest root root' template h =>
    refine read_agrees_of_template ?_ fun name hname => ?_
    · rw [templateFields, templateFields, h.absent, h.nested]
      exact .of_get? h.moved
    · exact h.kept name (by revert name; decide) (by revert name; decide)
  | template change =>
    obtain @⟨root, root', change⟩ := change
    refine read_agrees_of_template ?_ fun name hname => ?_
    · exact (ReadAlike.of_change change).templateFields
        (change.get?_eq TemplateRewrite.mem (by decide))
    · exact change.get?_eq TemplateRewrite.mem (by revert name; decide)
  | nested change =>
    obtain @⟨root, root', change⟩ := change
    have hkept {names : List String} (hnames : ∀ name ∈ names, name ∉ ["topology_template"])
        (name : String) (hname : name ∈ names) :
        Entries.get? name root = Entries.get? name root' :=
      change.get?_eq Under.mem (hnames name hname)
    refine read_agrees_of_template ?_ (hkept (by decide))
    rcases get?_under change with heq | ⟨v, w, hv, hw, ⟨change⟩⟩
    · exact (ReadAlike.of_get? (hkept (by decide))).templateFields heq
    · rw [templateFields, templateFields, hv, hw]
      exact .of_change change

/-- Documents are read alike after any rewritings of short forms into long ones. What was read stays
as it was but for the order of the data of policies, and what was refused is refused likewise. -/
theorem read_of_rewrites {doc doc' : Json} (h : Relation.ReflTransGen Rewrite doc doc') :
    (∀ t, read doc = .ok t → ∃ t', read doc' = .ok t' ∧ t.Alike t') ∧
    ∀ f, read doc = .error f → read doc' = .error f := by
  have hagrees : Agrees Alike (read doc) (read doc') := by
    induction h with
    | refl => exact .of_eq Alike.refl rfl
    | tail _ hstep ih => exact ih.trans (fun _ _ _ => .trans) (read_agrees hstep)
  constructor
  · intro t ht
    rw [ht] at hagrees
    generalize read doc' = r at hagrees
    cases hagrees with
    | ok halike => exact ⟨_, rfl, halike⟩
  · intro f hf
    rw [hf] at hagrees
    generalize read doc' = r at hagrees
    cases hagrees with
    | error f => rfl

/-- A machine and an application with requirement entries, the script of an operation and the
policies of a group to be filled in. -/
def siteFields (entries : List Json) (script policies : Json) : Fields :=
  [("node_templates", .obj [
    ("vm", .obj [("type", .str "Machine")]),
    ("app", .obj [("type", .str "App"), ("requirements", .arr entries),
      ("interfaces", .obj [("Standard", .obj [("create", script)])])])]),
   ("groups", .obj [("all", .obj [("members", .arr [.str "app"]), ("policies", policies)])])]

/-- Data that has a type, and lists it first. -/
def scalingData : Fields := [("type", .str "Scaling"), ("steps", .arr [.str "one", .str "two"])]

/-- The site in short: one requirement entry, a script, and a map of policies without types. -/
def shortSite : Json :=
  .obj (siteFields [.obj [("host", .str "vm"), ("near", .str "vm")]] (.str "create.sh")
    (.obj [("scale", .obj [("data", .obj scalingData)])]))

/-- The site in full, below `topology_template`. -/
def fullSite : Json :=
  .obj [("topology_template", .obj (siteFields
    [.obj [("host", .obj [("node", .str "vm")])], .obj [("near", .str "vm")]]
    (.obj [("implementation", .str "create.sh")])
    (.arr [.obj [("data", .obj scalingData.tail), ("type", .str "Scaling"),
      ("name", .str "scale")]])))]

/-- The short site is rewritten in six steps into the full one, which is read alike. -/
theorem read_fullSite : Relation.ReflTransGen Rewrite shortSite fullSite ∧
    ∃ t t', read shortSite = .ok t ∧ read fullSite = .ok t' ∧ t.Alike t' := by
  have hentries (before after : List Json) {entry script policies : Json} {entries : List Json}
      (h : EntryRewrite entry entries) :
      Rewrite (.obj (siteFields (before ++ entry :: after) script policies))
        (.obj (siteFields (before ++ (entries ++ after)) script policies)) :=
    .template ⟨.value [] [_] (.nodes rfl ⟨.value [_] []
      ⟨.value [_] [_] (.requirements rfl before after h)⟩⟩)⟩
  have hscript {entries : List Json} {script script' policies : Json}
      (h : OperationRewrite script script') :
      Rewrite (.obj (siteFields entries script policies))
        (.obj (siteFields entries script' policies)) :=
    .template ⟨.value [] [_] (.nodes rfl ⟨.value [_] [] ⟨.value [_, _] [] (.interfaces rfl
      ⟨.value [] [] (.own nofun (.value [] [] ⟨by decide, h⟩))⟩)⟩⟩)⟩
  have hpolicies {entries : List Json} {script policies policies' : Json}
      (h : PoliciesRewrite policies policies') :
      Rewrite (.obj (siteFields entries script policies))
        (.obj (siteFields entries script policies')) :=
    .template ⟨.value [_] [] (.groups rfl ⟨.value [] [] ⟨.value [_] [] ⟨rfl, h⟩⟩⟩)⟩
  have hmoves : MovesType [("data", .obj scalingData)]
      [("data", .obj scalingData.tail), ("type", .str "Scaling")] :=
    .mk (v := .str "Scaling") rfl rfl rfl rfl rfl (.str _) rfl rfl (.refl _)
  have hbehavior : IsBehavior (named "scale" [("data", .obj scalingData)]) :=
    .implied rfl (by decide)
  have hrewrites : Relation.ReflTransGen Rewrite shortSite fullSite := by
    refine .head (hentries [] [] (.split _)) ?_
    refine .head (hentries [] [_] (.field ⟨.value [] [] (.target "vm")⟩)) ?_
    refine .head (hscript (.script "create.sh")) ?_
    refine .head (hpolicies (.named ⟨.value [] [] (.moveType hbehavior hmoves)⟩)) ?_
    refine .head (hpolicies (.list _)) ?_
    refine .single (.nest ⟨rfl, rfl, fun _ _ => rfl, fun name hname hother => ?_⟩)
    rw [(Entries.get?_eq_none_iff _ _).2 hname, (Entries.get?_eq_none_iff _ _).2]
    exact fun hmem => hother (List.mem_singleton.1 hmem)
  have hread : (read shortSite).toOption.isSome = true := by decide +kernel
  obtain ⟨t, ht⟩ := Option.isSome_iff_exists.1 hread
  have hok : read shortSite = .ok t := eq_ok_of_toOption ht
  obtain ⟨t', ht', halike⟩ := (read_of_rewrites hrewrites).1 t hok
  exact ⟨hrewrites, t, t', hok, ht', halike⟩

/-- A node with an interface whose own fields are its operations, one of them named `operations`. -/
def ownOperationsSite (operation : Json) : Json :=
  .obj [("node_templates", .obj [("app", .obj [("type", .str "App"), ("interfaces", .obj [
    ("Standard", .obj [("create", .str "create.sh"), ("operations", operation)])])])])]

def operationNames (t : Topology) : List String :=
  t.nodes.flatMap fun n => n.interfaces.flatMap fun i => i.operations.map (·.name)

/-- An operation that is named `operations` cannot be rewritten where the fields of an interface are
its operations: the map that it becomes is read as the list of all operations. -/
theorem not_alike_ownOperationsSite :
    OperationRewrite (.str "all.sh") (.obj [("implementation", .str "all.sh")]) ∧
    ∃ t t', read (ownOperationsSite (.str "all.sh")) = .ok t ∧
      read (ownOperationsSite (.obj [("implementation", .str "all.sh")])) = .ok t' ∧
      ¬ t.Alike t' := by
  have hshort : (read (ownOperationsSite (.str "all.sh"))).toOption.map operationNames =
      some ["create", "operations"] := by
    decide +kernel
  have hlong : (read (ownOperationsSite
      (.obj [("implementation", .str "all.sh")]))).toOption.map operationNames =
        some ["implementation"] := by
    decide +kernel
  obtain ⟨t, ht, hnames⟩ := Option.map_eq_some_iff.1 hshort
  obtain ⟨t', ht', hnames'⟩ := Option.map_eq_some_iff.1 hlong
  refine ⟨.script _, t, t', eq_ok_of_toOption ht, eq_ok_of_toOption ht', fun halike => ?_⟩
  have heq : operationNames t = operationNames t' := by simp only [operationNames, halike.nodes]
  rw [hnames, hnames'] at heq
  exact absurd heq (by decide)

end Topology

end DeployPlan
