import Mathlib.Data.List.Nodup
import SwitchQos.Config.Document
import SwitchQos.Proofs.Config.Shape
import SwitchQos.Proofs.Config.Validation

namespace SwitchQos

/-! What port nodes, nodes and whole configurations look like in a document, and which
texts are accepted. Bindings are written as the members of an object, in the same order.
Here a reader refuses more than what has another shape: a map type that is bound twice for
one direction ends it. Port nodes are read field by field in the order written, and as no
field comes twice this order does not matter. -/

/-! ## Port nodes -/

namespace MapBindings

def IsMember (member : JsonText × Json) (binding : MapType × String) : Prop :=
  member.1 = some binding.1.name ∧ member.2.IsText binding.2

def Written (written : Json) (bindings : MapBindings) : Prop :=
  Json.ListsMembers IsMember written bindings

def BindsOnce (bindings : MapBindings) : Prop := (bindings.map (·.1)).Nodup

theorem isMember_iff {key : JsonText} {value : Json} {binding : MapType × String} :
    IsMember (key, value) binding ↔
      key.bind MapType.ofName? = some binding.1 ∧ value.text? = some binding.2 := by
  rw [IsMember, Json.reads_text, Option.bind_eq_some_iff]
  simp [MapType.ofName?_eq_some_iff]

theorem bindsOnce_concat_iff {bindings : MapBindings} {binding : MapType × String} :
    BindsOnce (bindings ++ [binding]) ↔
      binding.1 ∉ bindings.map (·.1) ∧ bindings.BindsOnce := by
  rw [BindsOnce, List.map_append, List.map_singleton, ← List.concat_eq_append]
  exact List.nodup_concat _ _

theorem BindsOnce.of_append {first second : MapBindings}
    (once : BindsOnce (first ++ second)) :
    first.BindsOnce := by
  rw [BindsOnce, List.map_append] at once
  exact List.Nodup.of_append_left once

theorem addMembers_eq_ok_iff {bound bindings : MapBindings} (once : bound.BindsOnce)
    {members : List (JsonText × Json)} :
    addMembers bound members = .ok bindings ↔
      ∃ added, List.Forall₂ IsMember members added ∧ bindings = bound ++ added ∧
        bindings.BindsOnce := by
  induction members generalizing bound with
  | nil =>
      rw [addMembers]
      constructor
      · intro same
        cases same
        exact ⟨[], .nil, (List.append_nil _).symm, once⟩
      · rintro ⟨added, related, same, -⟩
        cases related
        rw [same, List.append_nil]
  | cons member rest induction =>
      obtain ⟨key, value⟩ := member
      simp only [addMembers, Results.bind_eq_ok_iff, ShapeFault.fitting_eq_ok_iff,
        Results.refusal_eq_ok_iff]
      constructor
      · rintro ⟨mapType, isType, tag, isTag, isNew, adds⟩
        have stillOnce : BindsOnce (bound ++ [(mapType, tag)]) :=
          bindsOnce_concat_iff.mpr ⟨isNew, once⟩
        obtain ⟨added, related, rfl, bindsOnce⟩ := (induction stillOnce).mp adds
        have isFirst : IsMember (key, value) (mapType, tag) :=
          isMember_iff.mpr ⟨isType, isTag⟩
        exact ⟨(mapType, tag) :: added, .cons isFirst related,
          List.append_assoc _ _ _, bindsOnce⟩
      · rintro ⟨_, related, rfl, bindsOnce⟩
        cases related with
        | @cons _ binding _ added isFirst others =>
            obtain ⟨isType, isTag⟩ := isMember_iff.mp isFirst
            have stillOnce : BindsOnce (bound ++ [binding]) := by
              rw [List.append_cons] at bindsOnce
              exact bindsOnce.of_append
            have isNew := (bindsOnce_concat_iff.mp stillOnce).1
            exact ⟨binding.1, isType, binding.2, isTag, isNew,
              (induction stillOnce).mpr ⟨added, others, List.append_cons .., bindsOnce⟩⟩

theorem ofJson_eq_ok_iff {written : Json} {bindings : MapBindings} :
    ofJson written = .ok bindings ↔ Written written bindings ∧ bindings.BindsOnce := by
  cases written with
  | object members =>
      rw [ofJson, addMembers_eq_ok_iff (by exact List.nodup_nil)]
      simp [Written, Json.ListsMembers]
  | null | bool | number | text | array => simp [ofJson, Written, Json.ListsMembers]

end MapBindings

namespace PortNode

def Written (written : Json) (node : PortNode) : Prop :=
  ∃ fields, written.fields? ["ingress", "egress", "scheduler-tree"] = some fields ∧
    fields.GivesOr "ingress" [] MapBindings.Written node.ingress ∧
    fields.GivesOr "egress" [] MapBindings.Written node.egress ∧
    fields.GivesOr "scheduler-tree" none (Json.MayBeNull SchedulerTree.Written) node.tree

def BindsOnce (node : PortNode) : Prop := node.ingress.BindsOnce ∧ node.egress.BindsOnce

/-- The node has what the fields give, and for the rest what it had before. -/
def TakesOver (fields : FieldValues) (start node : PortNode) : Prop :=
  fields.GivesOr "ingress" start.ingress
    (fun written bindings => MapBindings.ofJson written = .ok bindings) node.ingress ∧
  fields.GivesOr "egress" start.egress
    (fun written bindings => MapBindings.ofJson written = .ok bindings) node.egress ∧
  fields.GivesOr "scheduler-tree" start.tree
    (Json.MayBeNull SchedulerTree.Written) node.tree

theorem readField_eq_ok_iff {field : String × Json} {start node : PortNode}
    (declared : field.1 ∈ ["ingress", "egress", "scheduler-tree"]) :
    readField start field = .ok node ↔ TakesOver [field] start node := by
  obtain ⟨name, written⟩ := field
  obtain ⟨ingress, egress, tree⟩ := node
  simp only [List.mem_cons, List.not_mem_nil, or_false] at declared
  rcases declared with rfl | rfl | rfl
  · rw [TakesOver, FieldValues.givesOr_cons_self,
      FieldValues.givesOr_cons_of_ne (by decide),
      FieldValues.givesOr_cons_of_ne (by decide), readField, Results.bind_eq_ok_iff]
    constructor
    · rintro ⟨_, isIngress, same⟩
      cases same
      exact ⟨isIngress, rfl, rfl⟩
    · rintro ⟨isIngress, rfl, rfl⟩
      exact ⟨_, isIngress, rfl⟩
  · rw [TakesOver, FieldValues.givesOr_cons_self,
      FieldValues.givesOr_cons_of_ne (by decide),
      FieldValues.givesOr_cons_of_ne (by decide), readField, Results.bind_eq_ok_iff]
    constructor
    · rintro ⟨_, isEgress, same⟩
      cases same
      exact ⟨rfl, isEgress, rfl⟩
    · rintro ⟨rfl, isEgress, rfl⟩
      exact ⟨_, isEgress, rfl⟩
  · have readsTree : readField start ("scheduler-tree", written) =
        (ShapeFault.fitting (Json.optional? SchedulerTree.ofJson? written)).bind
          fun tree => .ok { start with tree } := rfl
    rw [TakesOver, FieldValues.givesOr_cons_self,
      FieldValues.givesOr_cons_of_ne (by decide),
      FieldValues.givesOr_cons_of_ne (by decide), readsTree]
    refine Results.bind_eq_ok_iff.trans ?_
    simp only [ShapeFault.fitting_eq_ok_iff, SchedulerTree.reads_ofJson?.mayBeNull _ _]
    constructor
    · rintro ⟨_, isTree, same⟩
      cases same
      exact ⟨rfl, rfl, isTree⟩
    · rintro ⟨rfl, rfl, isTree⟩
      exact ⟨_, isTree, rfl⟩

theorem foldlM_readField_eq_ok_iff {fields : FieldValues}
    (distinct : (fields.map (·.1)).Nodup)
    (declared : ∀ field ∈ fields, field.1 ∈ ["ingress", "egress", "scheduler-tree"])
    {start node : PortNode} :
    fields.foldlM readField start = .ok node ↔ TakesOver fields start node := by
  induction fields generalizing start with
  | nil =>
      obtain ⟨ingress, egress, tree⟩ := node
      constructor
      · intro same
        cases same
        exact ⟨rfl, rfl, rfl⟩
      · rintro ⟨rfl, rfl, rfl⟩
        rfl
  | cons field rest induction =>
      rw [List.map_cons, List.nodup_cons] at distinct
      rw [List.forall_mem_cons] at declared
      simp only [List.foldlM_cons, Results.bind_eq_ok_iff, readField_eq_ok_iff declared.1,
        induction distinct.2 declared.2, TakesOver,
          FieldValues.givesOr_cons_iff distinct.1]
      constructor
      · rintro ⟨middle, ⟨isIngress, isEgress, isTree⟩, restIngress, restEgress, restTree⟩
        exact ⟨⟨_, isIngress, restIngress⟩, ⟨_, isEgress, restEgress⟩,
          ⟨_, isTree, restTree⟩⟩
      · rintro ⟨⟨ingress, isIngress, restIngress⟩, ⟨egress, isEgress, restEgress⟩,
          tree, isTree, restTree⟩
        exact ⟨⟨ingress, egress, tree⟩, ⟨isIngress, isEgress, isTree⟩,
          restIngress, restEgress, restTree⟩

theorem ofJson_eq_ok_iff {written : Json} {node : PortNode} :
    ofJson written = .ok node ↔ Written written node ∧ node.BindsOnce := by
  have once : MapBindings.BindsOnce [] := List.nodup_nil
  rw [ofJson, Results.bind_eq_ok_iff, Written]
  simp only [ShapeFault.fitting_eq_ok_iff]
  constructor
  · rintro ⟨fields, given, reads⟩
    obtain ⟨distinct, declared⟩ := Json.names_of_fields? (by decide) given
    obtain ⟨isIngress, isEgress, isTree⟩ :=
      (foldlM_readField_eq_ok_iff distinct declared).mp reads
    simp only [MapBindings.ofJson_eq_ok_iff, FieldValues.givesOr_and_iff once]
      at isIngress isEgress
    exact ⟨⟨fields, given, isIngress.1, isEgress.1, isTree⟩, isIngress.2, isEgress.2⟩
  · rintro ⟨⟨fields, given, isIngress, isEgress, isTree⟩, ingressOnce, egressOnce⟩
    obtain ⟨distinct, declared⟩ := Json.names_of_fields? (by decide) given
    refine ⟨fields, given, (foldlM_readField_eq_ok_iff distinct declared).mpr ?_⟩
    simp only [TakesOver, MapBindings.ofJson_eq_ok_iff, FieldValues.givesOr_and_iff once]
    exact ⟨⟨isIngress, ingressOnce⟩, ⟨isEgress, egressOnce⟩, isTree⟩

end PortNode

/-! ## Nodes -/

namespace ConfigNode

def kind : ConfigNode → String
  | .globals _ => "switch-globals"
  | .ports .frontPanel _ => "front-panel-ports"
  | .ports .cpu _ => "cpu-port"

def ContentWritten (content : Json) : ConfigNode → Prop
  | .globals node => GlobalsNode.Written content node
  | .ports _ node => PortNode.Written content node

/-- A node is plain as a whole, names its kind, and has beside it what a node of this kind
consists of. -/
def Written (written : Json) (node : ConfigNode) : Prop :=
  written.isPlain (nestingLimit - 2) = true ∧
    ∃ content, tagged? written = some (node.kind, content) ∧ node.ContentWritten content

def BindsOnce : ConfigNode → Prop
  | .globals _ => True
  | .ports _ node => node.BindsOnce

theorem ofJson_eq_ok_iff {written : Json} {node : ConfigNode} :
    ofJson written = .ok node ↔ Written written node ∧ node.BindsOnce := by
  rw [ofJson, Results.bind_eq_ok_iff]
  simp only [ShapeFault.fitting_eq_ok_iff, Option.ite_none_right_eq_some]
  constructor
  · rintro ⟨⟨kind, content⟩, ⟨plain, isTagged⟩, reads⟩
    dsimp only at reads
    split at reads
    · obtain ⟨globals, isGlobals, rfl⟩ :=
        Option.map_eq_some_iff.mp (ShapeFault.fitting_eq_ok_iff.mp reads)
      have isWritten := (GlobalsNode.reads_ofJson? _ _).mp isGlobals
      exact ⟨⟨plain, content, isTagged, isWritten⟩, trivial⟩
    · obtain ⟨ports, arePorts, rfl⟩ := Results.map_eq_ok_iff.mp reads
      obtain ⟨isWritten, once⟩ := PortNode.ofJson_eq_ok_iff.mp arePorts
      exact ⟨⟨plain, content, isTagged, isWritten⟩, once⟩
    · obtain ⟨ports, arePorts, rfl⟩ := Results.map_eq_ok_iff.mp reads
      obtain ⟨isWritten, once⟩ := PortNode.ofJson_eq_ok_iff.mp arePorts
      exact ⟨⟨plain, content, isTagged, isWritten⟩, once⟩
    · cases reads
  · rintro ⟨⟨plain, content, isTagged, isContent⟩, once⟩
    refine ⟨_, ⟨plain, isTagged⟩, ?_⟩
    match node with
    | .globals node =>
        have isGlobals := (GlobalsNode.reads_ofJson? _ _).mpr isContent
        exact ShapeFault.fitting_eq_ok_iff.mpr
          (Option.map_eq_some_iff.mpr ⟨node, isGlobals, rfl⟩)
    | .ports .frontPanel node | .ports .cpu node =>
        have arePorts := PortNode.ofJson_eq_ok_iff.mpr ⟨isContent, once⟩
        exact Results.map_eq_ok_iff.mpr ⟨node, arePorts, rfl⟩

end ConfigNode

namespace Config

def Written (written : Json) (config : Config) : Prop :=
  ∃ fields, written.fields? ["nodes"] = some fields ∧
    fields.Gives "nodes" (Json.Lists ConfigNode.Written) config.nodes

def BindsOnce (config : Config) : Prop := ∀ node ∈ config.nodes, node.BindsOnce

theorem ofJson_eq_ok_iff {written : Json} {config : Config} :
    ofJson written = .ok config ↔ Written written config ∧ config.BindsOnce := by
  simp only [ofJson, Results.bind_eq_ok_iff, ShapeFault.fitting_eq_ok_iff,
    FieldValues.required?_eq_some_iff Json.reads_array, Results.mapM_eq_ok_iff,
    ConfigNode.ofJson_eq_ok_iff, Results.forall₂_and_iff]
  constructor
  · rintro ⟨fields, given, items, ⟨value, isValue, isArray⟩, _, ⟨related, once⟩, isConfig⟩
    cases isConfig
    exact ⟨⟨fields, given, value, isValue, items, isArray, related⟩, once⟩
  · rintro ⟨⟨fields, given, value, isValue, items, isArray, related⟩, once⟩
    exact ⟨fields, given, items, ⟨value, isValue, isArray⟩, _, ⟨related, once⟩, rfl⟩

/-- A text is accepted as a configuration just where it is a document that the
configuration is written in, no map type is bound twice for one direction, and the
configuration makes sense. -/
theorem ofText_eq_ok_iff (text : String) (config : Config) :
    ofText text = .ok config ↔
      (∃ document, Json.ofText? text = some document ∧ Written document config) ∧
        config.BindsOnce ∧ config.WellFormed := by
  have shaped : shapeOf text = .ok config ↔
      (∃ document, Json.ofText? text = some document ∧ Written document config) ∧
        config.BindsOnce := by
    simp only [shapeOf, Results.bind_eq_ok_iff, ShapeFault.fitting_eq_ok_iff,
      ofJson_eq_ok_iff, exists_and_right, ← and_assoc]
  rw [ofText, Results.bind_eq_ok_iff, ← and_assoc, ← shaped, ← fault?_eq_none_iff]
  constructor
  · rintro ⟨read, isRead, passes⟩
    split at passes
    · cases passes
    · cases passes
      exact ⟨Results.mapError_eq_ok_iff.mp isRead, ‹_›⟩
  · rintro ⟨isRead, noFault⟩
    refine ⟨config, Results.mapError_eq_ok_iff.mpr isRead, ?_⟩
    rw [noFault]

example : ofText ("\x7b\"nodes\": [\x7b\"node\": \"cpu-port\", \"ingress\": \x7b" ++
      "\"tc-to-queue-map\": \"queues\", \"dscp-to-tc-map\": \"classes\"\x7d\x7d]\x7d") =
    .ok { nodes := [.ports .cpu
      { ingress := [(.tcToQueue, "queues"), (.dscpToTc, "classes")] }] } := by
  decide +kernel

end Config

end SwitchQos
