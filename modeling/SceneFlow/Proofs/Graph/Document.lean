import Mathlib
import SceneFlow.Graph.Basic
import SceneFlow.Proofs.Json.Decoder

/-!
# Graphs as documents

The document that is written for a graph is read as the same graph. A field that was absent is
written with what it stands for, and a payload is written as it was read.

## Main results

* `RawNode.gives_restored`, `Edge.restored`: nodes and edges are read again.
* `Graph.gives_restored`: a graph is read again, in either spelling of its document.
-/

namespace SceneFlow

open Decoder
open Decoder.Fields (Finds finds_present gives_defaulted gives_true)

variable {V : Json → Prop} {spell : Json → Json}

/-! ### What payloads share with the document -/

theorem RawNode.gives_data (hV : Json.Inherited V) (hnull : V .null) :
    Gives V ofJson fun node => V node.data :=
  gives_record hV <| .seq (.seq (.seq (.map (fun _ _ _ _ _ _ _ hdata => hdata) (gives_true _))
    (gives_true _)) (gives_true _)) (gives_defaulted gives_any hnull)

/-- A property that values pass to their parts is passed from a document to the payloads. -/
theorem Graph.gives_data (hV : Json.Inherited V) (hnull : V .null) :
    Gives V ofJson fun graph => ∀ node ∈ graph.nodes, V node.data :=
  gives_record hV <| .seq (.map (fun _ hnodes _ _ => hnodes)
    (gives_defaulted (gives_list hV (RawNode.gives_data hV hnull)) fun _ h =>
      absurd h List.not_mem_nil)) (gives_true _)

/-! ### What is read again -/

variable (h : Json.Spelling V spell)

include h

theorem NodeId.restored (id : NodeId) : Restored spell NodeId.ofJson NodeId.toJson id :=
  restored_text h rfl

theorem EdgeId.restored (id : EdgeId) : Restored spell EdgeId.ofJson EdgeId.toJson id :=
  restored_text h rfl

theorem PortId.restored (id : PortId) : Restored spell PortId.ofJson PortId.toJson id :=
  restored_text h rfl

theorem restored_string (s : String) : Restored spell text .str s := by
  rw [restored_iff, h.spell_str]
  rfl

theorem RawNode.restored {node : RawNode} (hdata : V node.data) :
    Restored spell RawNode.ofJson RawNode.toJson node :=
  restored_record h (by simp [Entries.keys]) <|
    .seq (.seq (.seq (.map (finds_present rfl (node.id.restored h)))
      (finds_present rfl (restored_string h node.name)))
      (finds_present rfl (restored_string h node.kind)))
      (finds_present rfl (congrArg any (h.kept hdata)))

theorem Edge.restored (edge : Edge) : Restored spell Edge.ofJson Edge.toJson edge :=
  restored_record h (by simp [Entries.keys]) <|
    .seq (.seq (.seq (.seq (.map (finds_present rfl (edge.id.restored h)))
      (finds_present rfl (edge.source.restored h)))
      (finds_present rfl (edge.sourcePort.restored h)))
      (finds_present rfl (edge.target.restored h))) (finds_present rfl (edge.targetPort.restored h))

theorem Graph.restored {graph : Graph}
    (hdata : ∀ node ∈ graph.nodes, V node.data) :
    Restored spell Graph.ofJson Graph.toJson graph :=
  restored_record h (by simp [Entries.keys]) <|
    .seq (.map (finds_present rfl
      (restored_list h fun node hnode => RawNode.restored h (hdata node hnode))))
      (finds_present rfl (restored_list h fun edge _ => edge.restored h))

theorem Graph.gives_restored : Gives V Graph.ofJson (Restored spell Graph.ofJson Graph.toJson) :=
  fun value graph hvalue hread =>
    Graph.restored h (Graph.gives_data h.toInherited h.null value graph hvalue hread)

end SceneFlow
