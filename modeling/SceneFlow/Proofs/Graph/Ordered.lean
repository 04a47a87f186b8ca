import Mathlib
import SceneFlow.Graph.Network
import SceneFlow.Proofs.Graph.Construction
import SceneFlow.Proofs.Graph.Document

/-!
# Networks with ascending keys

A network holds properties as its graph has them, so their keys ascend where those of the graph do.
The graphs that are read from texts are all of this kind.

## Main definitions

* `Graph.Ordered`, `Network.Ordered`: the keys of all properties in a graph or network ascend.

## Main results

* `Graph.ordered_of_parse`: a graph that is read from a text is ordered.
* `Graph.Ordered.ofGraph`: the network of an ordered graph is ordered.
-/

namespace SceneFlow

/-! ### Payloads -/

section Payload

open Decoder (Gives gives_list gives_object gives_record)
open Decoder.Fields (gives_true gives_defaulted)

theorem Geometry.gives_ofJson :
    Gives Json.Ordered Geometry.ofJson fun data => (Json.obj data.properties).Ordered :=
  gives_record .ordered <| .seq (.seq (.seq (.seq (.seq (.map (fun _ _ _ _ _ _ _ _ _ _ _ h => h)
    (gives_true _)) (gives_true _)) (gives_true _)) (gives_true _)) (gives_true _))
    (gives_defaulted gives_object .empty)

theorem TextStyle.gives_ofJson :
    Gives Json.Ordered TextStyle.ofJson fun data => (Json.obj data.style).Ordered :=
  gives_record .ordered <| .map (fun _ h => h) (gives_defaulted gives_object .empty)

theorem Track.gives_ofJson :
    Gives Json.Ordered Track.ofJson fun track => (Json.obj track.properties).Ordered :=
  gives_record .ordered <| .seq (.seq (.seq (.seq (.seq (.map (fun _ _ _ _ _ _ _ _ _ _ _ h => h)
    (gives_true _)) (gives_true _)) (gives_true _)) (gives_true _)) (gives_true _))
    (gives_defaulted gives_object .empty)

theorem Animation.gives_ofJson :
    Gives Json.Ordered Animation.ofJson fun data =>
      ∀ track ∈ data.tracks, (Json.obj track.properties).Ordered :=
  gives_record .ordered <| .seq (.map (fun _ htracks _ _ => htracks)
    (gives_defaulted (gives_list .ordered Track.gives_ofJson) fun _ h => absurd h List.not_mem_nil))
    (gives_true _)

/-- The keys of all properties in a payload ascend. -/
def NodeKind.Ordered : NodeKind → Prop
  | .geometry data => (Json.obj data.properties).Ordered
  | .textStyle data => (Json.obj data.style).Ordered
  | .animation data => ∀ track ∈ data.tracks, (Json.obj track.properties).Ordered
  | _ => True

theorem NodeKind.ordered_ofPayload {type : String} {payload : Json} {kind : NodeKind}
    (hpayload : payload.Ordered) (h : ofPayload type payload = .ok kind) : kind.Ordered := by
  unfold ofPayload at h
  split at h
  case h_1 =>
    obtain ⟨data, hdata, rfl⟩ := map_eq_ok_iff.mp h
    exact Geometry.gives_ofJson _ _ hpayload hdata
  case h_7 =>
    obtain ⟨data, hdata, rfl⟩ := map_eq_ok_iff.mp h
    exact Animation.gives_ofJson _ _ hpayload hdata
  case h_8 =>
    obtain ⟨data, hdata, rfl⟩ := map_eq_ok_iff.mp h
    exact TextStyle.gives_ofJson _ _ hpayload hdata
  case h_15 =>
    cases h
    exact trivial
  all_goals
    obtain ⟨data, -, rfl⟩ := map_eq_ok_iff.mp h
    exact trivial

theorem Node.ordered_ofRaw {raw : RawNode} {node : Node} (hraw : raw.data.Ordered)
    (h : ofRaw raw = .ok node) : node.kind.Ordered := by
  rw [ofRaw] at h
  split at h
  · rename_i kind hkind
    cases h
    refine NodeKind.ordered_ofPayload ?_ hkind
    cases hdata : raw.data with
    | null => exact .empty
    | _ =>
      rw [hdata] at hraw
      exact hraw
  · cases h

end Payload

/-! ### Graphs and networks -/

/-- The keys of all properties in a graph ascend. -/
def Graph.Ordered (graph : Graph) : Prop :=
  ∀ raw ∈ graph.nodes, raw.data.Ordered

/-- The keys of all properties in a network ascend. -/
def Network.Ordered (net : Network) : Prop :=
  ∀ v, (net.node v).kind.Ordered

/-- The network of an ordered graph is ordered. -/
theorem Graph.Ordered.ofGraph {graph : Graph} {net : Network} (h : graph.Ordered)
    (hnet : Network.ofGraph graph = .ok net) : net.Ordered := by
  intro v
  obtain ⟨raw, hraw, hnode⟩ := Network.exists_raw hnet v
  exact Node.ordered_ofRaw (h raw hraw) hnode

/-- A graph that is read from a text is ordered. -/
theorem Graph.ordered_of_parse {text : String} {graph : Graph} (h : parse text = .ok graph) :
    graph.Ordered := by
  obtain ⟨value, hvalue, h⟩ := bind_eq_ok_iff.mp h
  exact gives_data .ordered .null _ _ (Json.ordered_of_read hvalue) (mapError_eq_ok_iff.mp h)

end SceneFlow
