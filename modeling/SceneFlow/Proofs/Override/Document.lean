import Mathlib
import SceneFlow.Graph.Fingerprint
import SceneFlow.Graph.Network
import SceneFlow.Override.Basic
import SceneFlow.Proofs.Graph.Document

/-!
# Overrides as documents

The document that is written for overrides is read as the same overrides, and its tables are those
that were read. A key that stands for a scope stands for no other, so no two entries of a table meet
in one scope: `default` is all objects, and any other key is the object of that name.

## Main definitions

* `ByScope.listed`: the entries for all scopes under their keys.
* `Overrides.part`: a table of a document.

## Main results

* `ObjectScope.ofKey_injective`: different keys stand for different scopes.
* `Overrides.gives_restored`: overrides are read again, in either spelling of their document.
* `Overrides.sorted_toJson`: the document that is written has the tables that were read.
* `documents_restored`: what holds of graphs and overrides alike.
-/

namespace SceneFlow

open Decoder
open Decoder.Fields (both_eq_ok_iff field_eq_ok_iff finds_present gives_defaulted)

/-! ### Scopes and their keys -/

namespace ObjectScope

@[simp]
theorem key_ofKey (key : String) : (ofKey key).key = key := by
  rw [ofKey]
  split
  · rename_i hkey
    exact hkey.symm
  · rfl

theorem ofKey_injective : Function.Injective ofKey :=
  Function.LeftInverse.injective key_ofKey

theorem ofKey_eq_all_iff (key : String) : ofKey key = all ↔ key = defaultKey := by
  rw [ofKey]
  split <;> simp_all

end ObjectScope

namespace ByScope

variable {α : Type} {decode : Decoder α} {encode : α → Json}

/-- The entries under the keys of the scopes, that for all objects first. -/
def listed (byScope : ByScope α) : List (String × α) :=
  (byScope.all.toList.map fun a => (defaultKey, a)) ++ byScope.objects.entries

theorem toJson_eq_listed (byScope : ByScope α) :
    byScope.toJson encode = .obj (Entries.mapValues encode byScope.listed) := by
  rw [toJson, listed, Entries.mapValues, Entries.mapValues, List.map_append, List.map_map]
  rfl

section Listed

variable {byScope : ByScope α} (h : byScope.objects.get? defaultKey = none)

include h

theorem get?_listed (key : String) :
    Entries.get? byScope.listed key = byScope.get? (.ofKey key) := by
  obtain ⟨all, objects⟩ := byScope
  by_cases hkey : key = defaultKey
  · subst hkey
    cases all with
    | none => exact h
    | some a => exact if_pos rfl
  · have hscope : ObjectScope.ofKey key = .object ⟨key⟩ := if_neg hkey
    rw [hscope]
    cases all with
    | none => rfl
    | some a => exact if_neg (Ne.symm hkey)

theorem nodup_keys_listed : (Entries.keys byScope.listed).Nodup := by
  obtain ⟨all, objects⟩ := byScope
  have hobjects := objects.sorted.nodup_keys
  cases all with
  | none => exact hobjects
  | some a => exact List.nodup_cons.mpr ⟨(Entries.get?_eq_none_iff _).mp h, hobjects⟩

theorem member?_sorted_toJson (key : String) :
    (byScope.toJson encode).sorted.member? key
      = (byScope.get? (.ofKey key)).map fun a => (encode a).sorted := by
  rw [toJson_eq_listed, Json.member?_sorted, Entries.get?_mapValues, get?_listed h, Option.map_map]
  · rfl
  · rw [Entries.keys_mapValues]
    exact nodup_keys_listed h

end Listed

theorem get?_defaultKey_ofTable (table : Table α) :
    (ofTable table).objects.get? defaultKey = none :=
  (Entries.get?_erase _ _ _).trans (if_pos rfl)

/-- No key of a table is lost where it stands for a scope. -/
theorem get?_ofTable (table : Table α) (key : String) :
    (ofTable table).get? (.ofKey key) = table.get? key := by
  rw [ObjectScope.ofKey]
  split
  · rename_i hkey
    rw [hkey]
    rfl
  · rename_i hkey
    exact (Entries.get?_erase _ _ _).trans (if_neg (Ne.symm hkey))

theorem ofList_listed_ofTable (table : Table α) : Table.ofList (ofTable table).listed = table := by
  have hplain := get?_defaultKey_ofTable table
  refine Table.ext_get? fun key => ?_
  exact (Entries.get?_ofList (nodup_keys_listed hplain) key).trans <|
    (get?_listed hplain key).trans (get?_ofTable table key)

/-- What is written for a table whose keys stand for scopes is what is written for the table. -/
theorem sorted_toJson_ofTable (table : Table α) :
    ((ofTable table).toJson encode).sorted = (table.toJson encode).sorted := by
  have hplain := get?_defaultKey_ofTable table
  rw [toJson_eq_listed, Table.toJson, Json.sorted_obj, Json.sorted_obj, Json.ofFields,
    Json.ofFields]
  refine congrArg Json.obj (Entries.ofList_eq_of_get? ?_ ?_ fun key => ?_)
  · rw [Entries.keys_mapValues, Entries.keys_mapValues]
    exact nodup_keys_listed hplain
  · rw [Entries.keys_mapValues, Entries.keys_mapValues]
    exact table.sorted.nodup_keys
  · simp only [Entries.get?_mapValues, get?_listed hplain, get?_ofTable]
    rfl

theorem gives_objects (V : Json → Prop) (decode : Decoder α) :
    Gives V (ofJson decode) fun byScope => byScope.objects.get? defaultKey = none := by
  intro value byScope _ hread
  obtain ⟨table, -, rfl⟩ := map_eq_ok_iff.mp hread
  exact get?_defaultKey_ofTable table

theorem faithful_ofJson (h : Faithful decode encode) :
    Faithful (ofJson decode) (toJson encode) := by
  intro value byScope hvalue hread
  obtain ⟨table, htable, rfl⟩ := map_eq_ok_iff.mp hread
  rw [sorted_toJson_ofTable]
  exact faithful_table h value table hvalue htable

section Restored

variable {V : Json → Prop} {spell : Json → Json} (h : Json.Spelling V spell)

include h

theorem restored_ofTable {table : Table α}
    (hentries : ∀ e ∈ table.entries, Restored spell decode encode e.2) :
    Restored spell (ofJson decode) (toJson encode) (ofTable table) := by
  have hplain := get?_defaultKey_ofTable table
  have hlisted : ∀ e ∈ (ofTable table).listed, Restored spell decode encode e.2 := by
    rintro ⟨key, a⟩ he
    have hget := (Entries.get?_eq_some_iff_of_nodup_keys (nodup_keys_listed hplain)).mpr he
    rw [get?_listed hplain, get?_ofTable] at hget
    exact hentries _ (Entries.mem_of_get? hget)
  rw [restored_iff, toJson_eq_listed, ofJson, table_spell_obj h (nodup_keys_listed hplain) hlisted]
  exact congrArg (fun table => Except.ok (ofTable table)) (ofList_listed_ofTable table)

theorem gives_restored (hdecode : Gives V decode (Restored spell decode encode)) :
    Gives V (ofJson decode) (Restored spell (ofJson decode) (toJson encode)) := by
  intro value byScope hvalue hread
  obtain ⟨table, htable, rfl⟩ := map_eq_ok_iff.mp hread
  exact restored_ofTable h (gives_table h.toInherited hdecode value table hvalue htable)

theorem restored_empty : Restored spell (ofJson decode) (toJson encode) empty := by
  change Restored spell (ofJson decode) (toJson encode) (ofTable ∅)
  exact restored_ofTable h fun _ he => absurd he List.not_mem_nil

end Restored

end ByScope

namespace Table

variable {α : Type} {decode : Decoder α} {encode : α → Json} {V : Json → Prop}
  {spell : Json → Json} (h : Json.Spelling V spell)

include h

theorem restored {contents : Table α}
    (hentries : ∀ e ∈ contents.entries, Restored spell decode encode e.2) :
    Restored spell (table decode) (toJson encode) contents := by
  rw [restored_iff, toJson, table_spell_obj h contents.sorted.nodup_keys hentries]
  exact congrArg Except.ok (ext_get? fun key =>
    congrArg (Entries.get? · key) contents.sorted.ofList_eq)

theorem gives_restored (hdecode : Gives V decode (Restored spell decode encode)) :
    Gives V (table decode) (Restored spell (table decode) (toJson encode)) :=
  fun value contents hvalue hread =>
    restored h (gives_table h.toInherited hdecode value contents hvalue hread)

omit h in
theorem member?_sorted_toJson (contents : Table α) (key : String) :
    (contents.toJson encode).sorted.member? key
      = (contents.get? key).map fun a => (encode a).sorted := by
  rw [toJson, Json.member?_sorted, Entries.get?_mapValues, Option.map_map]
  · rfl
  · rw [Entries.keys_mapValues]
    exact contents.sorted.nodup_keys

theorem restored_empty : Restored spell (table decode) (toJson encode) ∅ :=
  restored h fun _ he => absurd he List.not_mem_nil

end Table

/-! ### Overrides -/

namespace Overrides

theorem gives_restored {V : Json → Prop} {spell : Json → Json} (h : Json.Spelling V spell) :
    Gives V ofJson (Restored spell ofJson toJson) := by
  have hvalues := Table.gives_restored h (gives_restored_any h)
  have hids : Gives V NodeId.ofJson (Restored spell NodeId.ofJson NodeId.toJson) :=
    fun _ id _ _ => id.restored h
  exact gives_record h.toInherited <|
    .seq (.seq (.map (fun manual hmanual bindings hbindings batch hbatch =>
      restored_record h (by simp [Entries.keys]) <|
        .seq (.seq (.map (finds_present rfl hmanual)) (finds_present rfl hbindings))
          (finds_present rfl hbatch))
      (gives_defaulted (Table.gives_restored h hvalues) (Table.restored_empty h)))
      (gives_defaulted (ByScope.gives_restored h (Table.gives_restored h hids))
        (ByScope.restored_empty h)))
      (gives_defaulted (Table.gives_restored h (ByScope.gives_restored h hvalues))
        (Table.restored_empty h))

/-- The value of a field of a document, an empty object if the field is absent. -/
def part (document : Json) (index : ℕ) (name : String) : Json :=
  ((parts? document).bind fun parts => parts.get? index name).getD (.obj [])

theorem part_of_field {α : Type} {decode : Decoder α} {encode : α → Json} {absent a : α}
    {document : Json} {parts : Parts} {index : ℕ} {name : String} {record : RecordName}
    (hdocument : document.Ordered) (hparts : parts? document = some parts)
    (h : Faithful decode encode) (habsent : (encode absent).sorted = .obj [])
    (hread : (Fields.defaulted name decode absent).read record index parts = .ok a) :
    (encode a).sorted = part document index name := by
  rw [part, hparts, Option.bind_some]
  rcases field_eq_ok_iff.mp hread with ⟨value, hvalue, ha⟩ | ⟨hnone, ha⟩
  · rw [hvalue]
    exact h value a ((all_of_parts? .ordered hdocument hparts).get? hvalue) ha
  · cases ha
    rw [hnone]
    exact habsent

/-- The tables that are written are those that were read, with all that is in them. -/
theorem sorted_parts {document : Json} {overrides : Overrides} (hdocument : document.Ordered)
    (h : ofJson document = .ok overrides) :
    (overrides.manual.toJson (Table.toJson fun value => value)).sorted = part document 0 "manual" ∧
      (overrides.bindings.toJson (Table.toJson NodeId.toJson)).sorted
        = part document 1 "bindings" ∧
      (overrides.batch.toJson (ByScope.toJson (Table.toJson fun value => value))).sorted
        = part document 2 "batch" := by
  obtain ⟨parts, hparts, hread⟩ := read_of_record h
  obtain ⟨_, batch, hfirst, hbatch, rfl⟩ := both_eq_ok_iff.mp hread
  obtain ⟨_, bindings, hsecond, hbindings, rfl⟩ := both_eq_ok_iff.mp hfirst
  obtain ⟨_, manual, hmk, hmanual, rfl⟩ := both_eq_ok_iff.mp hsecond
  cases hmk
  have hvalues := faithful_table faithful_any
  have hids : Faithful NodeId.ofJson NodeId.toJson := faithful_text fun _ => rfl
  exact ⟨part_of_field hdocument hparts (faithful_table hvalues) rfl hmanual,
    part_of_field hdocument hparts (ByScope.faithful_ofJson (faithful_table hids)) rfl hbindings,
    part_of_field hdocument hparts (faithful_table (ByScope.faithful_ofJson hvalues)) rfl hbatch⟩

/-- The document that is written has the tables that were read, in the order of their names. -/
theorem sorted_toJson {document : Json} {overrides : Overrides} (hdocument : document.Ordered)
    (h : ofJson document = .ok overrides) :
    overrides.toJson.sorted = .obj [("batch", part document 2 "batch"),
      ("bindings", part document 1 "bindings"), ("manual", part document 0 "manual")] := by
  obtain ⟨hmanual, hbindings, hbatch⟩ := sorted_parts hdocument h
  rw [← hmanual, ← hbindings, ← hbatch, toJson, Json.sorted_obj]
  have hfirst : "batch" < "bindings" := by decide +kernel
  have hsecond : "bindings" < "manual" := by decide +kernel
  simp only [Json.ofFields, Entries.ofList, Entries.mapValues, List.map_cons, List.map_nil,
    List.foldl_cons, List.foldl_nil, Entries.insert, if_pos hfirst, if_pos hsecond]

theorem gives_objects :
    Gives Json.Ordered ofJson fun overrides =>
      overrides.bindings.objects.get? defaultKey = none ∧
        ∀ e ∈ overrides.batch.entries, e.2.objects.get? defaultKey = none :=
  gives_record .ordered <|
    .seq (.seq (.map (fun _ _ _ hbindings _ hbatch => ⟨hbindings, hbatch⟩) (Fields.gives_true _))
      (gives_defaulted (ByScope.gives_objects _ _) rfl))
      (gives_defaulted (gives_table .ordered (ByScope.gives_objects _ _))
        fun _ he => absurd he List.not_mem_nil)

/-- What there is under a key is what the document has under it, where the key `default` stands for
all objects and any other for the object of that name. -/
theorem get?_ofKey {document : Json} {overrides : Overrides} (hdocument : document.Ordered)
    (h : ofJson document = .ok overrides) (field key : String) :
    (overrides.manual.get? key).map (fun fields => (fields.toJson fun value => value).sorted)
        = (part document 0 "manual").member? key ∧
      (overrides.bindings.get? (.ofKey key)).map
          (fun fields => (fields.toJson NodeId.toJson).sorted)
        = (part document 1 "bindings").member? key ∧
      ((overrides.batch.get? field).bind fun byScope => byScope.get? (.ofKey key)).map
          (fun slots => (slots.toJson fun value => value).sorted)
        = ((part document 2 "batch").member? field).bind fun byKey => byKey.member? key := by
  obtain ⟨hbindings, hbatch⟩ := gives_objects document overrides hdocument h
  obtain ⟨hmanual', hbindings', hbatch'⟩ := sorted_parts hdocument h
  refine ⟨?_, ?_, ?_⟩
  · rw [← hmanual', Table.member?_sorted_toJson]
  · rw [← hbindings', ByScope.member?_sorted_toJson hbindings]
  · rw [← hbatch', Table.member?_sorted_toJson]
    cases hfield : overrides.batch.get? field with
    | none => rfl
    | some byScope =>
      have hplain := hbatch _ (Entries.mem_of_get? hfield)
      exact (ByScope.member?_sorted_toJson hplain key).symm

end Overrides

/-! ### Both documents -/

/-- Graphs and overrides that have been read are read again, as they were, from the documents that
are written for them, whether the fields stand in the order of their declaration or ascend; the
graph keeps its fingerprint and its network. The tables of overrides are written with the entries
that they were read with, each under its own key, and `default` is the only key that stands for all
objects. -/
theorem documents_restored (document : Json) :
    (∀ graph, Graph.ofJson document = .ok graph →
      Graph.ofJson graph.toJson = .ok graph ∧
        (document.Ordered → Graph.ofJson graph.toJson.sorted = .ok graph) ∧
        ∀ again, Graph.ofJson graph.toJson = .ok again ∨
            document.Ordered ∧ Graph.ofJson graph.toJson.sorted = .ok again →
          again.fingerprint = graph.fingerprint ∧
            Network.ofGraph again = Network.ofGraph graph) ∧
      (∀ overrides, Overrides.ofJson document = .ok overrides →
        Overrides.ofJson overrides.toJson = .ok overrides ∧
          (document.Ordered →
            Overrides.ofJson overrides.toJson.sorted = .ok overrides ∧
              overrides.toJson.sorted = .obj [("batch", Overrides.part document 2 "batch"),
                ("bindings", Overrides.part document 1 "bindings"),
                ("manual", Overrides.part document 0 "manual")] ∧
              ∀ field key,
                (overrides.manual.get? key).map
                    (fun fields => (fields.toJson fun value => value).sorted)
                  = (Overrides.part document 0 "manual").member? key ∧
                (overrides.bindings.get? (.ofKey key)).map
                    (fun fields => (fields.toJson NodeId.toJson).sorted)
                  = (Overrides.part document 1 "bindings").member? key ∧
                ((overrides.batch.get? field).bind fun byScope => byScope.get? (.ofKey key)).map
                    (fun slots => (slots.toJson fun value => value).sorted)
                  = ((Overrides.part document 2 "batch").member? field).bind
                    fun byKey => byKey.member? key)) ∧
      Function.Injective ObjectScope.ofKey ∧
      ∀ key, ObjectScope.ofKey key = .all ↔ key = "default" := by
  refine ⟨fun graph hgraph => ?_, fun overrides hoverrides => ?_, ObjectScope.ofKey_injective,
    ObjectScope.ofKey_eq_all_iff⟩
  · have hdeclared := Graph.gives_restored .declared document graph trivial hgraph
    have hascending : document.Ordered → _ := fun hdocument =>
      Graph.gives_restored .ascending document graph hdocument hgraph
    refine ⟨hdeclared, hascending, fun again hagain => ?_⟩
    have hsame : again = graph := by
      rcases hagain with hagain | ⟨hdocument, hagain⟩
      · exact Except.ok.inj (hagain.symm.trans hdeclared)
      · exact Except.ok.inj (hagain.symm.trans (hascending hdocument))
    subst hsame
    exact ⟨rfl, rfl⟩
  · refine ⟨Overrides.gives_restored .declared document overrides trivial hoverrides,
      fun hdocument => ⟨Overrides.gives_restored .ascending document overrides hdocument hoverrides,
        Overrides.sorted_toJson hdocument hoverrides, fun field key =>
        Overrides.get?_ofKey hdocument hoverrides field key⟩⟩

/-- A document that holds both a graph and overrides, with an edge that is written as a list. -/
def projectDocument : Json :=
  .obj [
    ("batch", .obj [("Canvas.rotation", .obj [("c1", .obj [("a", .num (.int 90 (by decide)))]),
      ("default", .obj [("default", .num (.int 45 (by decide)))])])]),
    ("bindings", .obj [("c1", .obj [("Canvas.opacity", .str "v1")]),
      ("default", .obj [("Canvas.opacity", .str "v2")])]),
    ("edges", .arr [.arr [.str "e1", .str "c1", .str "object", .str "s"]]),
    ("manual", .obj [("default", .obj [("Canvas.opacity", .null)])]),
    ("nodes", .arr [.obj [("data", .obj [("shape", .str "circle")]), ("id", .str "c1"),
      ("type", .str "geometry")], .obj [("id", .str "s"), ("type", .str "scene")]])]

/-- What is under `c1` and under `default` stays apart. -/
theorem documents_restored_projectDocument :
    ∃ graph overrides, Graph.ofJson projectDocument = .ok graph ∧
      Overrides.ofJson projectDocument = .ok overrides ∧ projectDocument.Ordered ∧
      Graph.ofJson graph.toJson.sorted = .ok graph ∧
      Overrides.ofJson overrides.toJson.sorted = .ok overrides ∧
      overrides.binding? ⟨"Canvas.opacity"⟩ .all = some ⟨"v2"⟩ ∧
      overrides.binding? ⟨"Canvas.opacity"⟩ (.object ⟨"c1"⟩) = some ⟨"v1"⟩ := by
  have hordered : projectDocument.Ordered := by
    have hsorted : projectDocument.sorted = projectDocument := by rfl
    exact hsorted ▸ Json.ordered_sorted projectDocument
  obtain ⟨graph, overrides, hgraph, hoverrides, hbindings⟩ :
      ∃ graph overrides, Graph.ofJson projectDocument = .ok graph ∧
        Overrides.ofJson projectDocument = .ok overrides ∧
        overrides.binding? ⟨"Canvas.opacity"⟩ .all = some ⟨"v2"⟩ ∧
        overrides.binding? ⟨"Canvas.opacity"⟩ (.object ⟨"c1"⟩) = some ⟨"v1"⟩ :=
    ⟨_, _, rfl, rfl, rfl, rfl⟩
  obtain ⟨hgraphs, htables, -⟩ := documents_restored projectDocument
  exact ⟨graph, overrides, hgraph, hoverrides, hordered, (hgraphs graph hgraph).2.1 hordered,
    ((htables overrides hoverrides).2 hordered).1, hbindings⟩

end SceneFlow
