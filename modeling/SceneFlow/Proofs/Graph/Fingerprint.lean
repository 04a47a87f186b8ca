import Mathlib
import SceneFlow.Graph.Fingerprint
import SceneFlow.Proofs.Graph.Ordered
import SceneFlow.Proofs.Json.Printer

/-!
# What a fingerprint takes in

Every piece of a graph stands in the bytes that are hashed behind its length, so that the bytes
show where the piece ends, and a payload stands in them as its compact text, which belongs to no
other payload. So the bytes are those of one graph only, up to the order in which payloads list
their fields. Two graphs that differ have the same fingerprint only where the hash collides.

## Main definitions

* `Fingerprint.Delimited`: bytes that show where they end.
* `Json.Alike`, `Graph.Alike`: equality up to the order of fields.
* `Graph.Fits`: the lengths in a graph fit 64 bits.

## Main results

* `Fingerprint.delimited_listBytes`: a list of delimited items is delimited.
* `Json.Ordered.eq_of_alike`: values with ascending keys are alike only if they are equal.
* `Graph.bytes_eq_iff`: the bytes of a graph show the graph.
-/

namespace SceneFlow

/-! ### Bytes that show where they end -/

theorem Xxh3.wordBytes_injective : Function.Injective Xxh3.wordBytes := by
  intro x y h
  have hbyte : ∀ i < 8, x.toNat >>> (8 * i) % 2 ^ 8 = y.toNat >>> (8 * i) % 2 ^ 8 := by
    intro i hi
    have heq := congrArg UInt8.toNat (List.map_inj_left.mp h i (List.mem_range.mpr hi))
    have hshift : 8 * i % 18446744073709551616 % 64 = 8 * i := by omega
    simpa [hshift] using heq
  refine UInt64.toNat_inj.mp (Nat.eq_of_testBit_eq fun k => ?_)
  by_cases hk : k < 64
  · have hbit := congrArg (Nat.testBit · (k % 8)) (hbyte (k / 8) (by omega))
    have hk8 : k % 8 < 8 := Nat.mod_lt k (by decide)
    simpa only [Nat.testBit_mod_two_pow, hk8, decide_true, Bool.true_and, Nat.testBit_shiftRight,
      Nat.div_add_mod] using hbit
  · have hlarge : ∀ z : UInt64, z.toNat.testBit k = false := fun z =>
      Nat.testBit_lt_two_pow (z.toNat_lt.trans_le (Nat.pow_le_pow_right (by decide) (by omega)))
    rw [hlarge, hlarge]

namespace Fingerprint

variable {α : Type} {fits : α → Prop} {bytes : α → List UInt8}

/-- The bytes of an item that fits show the item and where they end. -/
def Delimited (fits : α → Prop) (bytes : α → List UInt8) : Prop :=
  ∀ ⦃a b : α⦄ ⦃rest rest' : List UInt8⦄, fits a → fits b →
    bytes a ++ rest = bytes b ++ rest' → a = b ∧ rest = rest'

/-- A length fits 64 bits. -/
def FitsLength (n : ℕ) : Prop :=
  n < 2 ^ 64

/-- The length of a text in bytes fits 64 bits. -/
def FitsText (s : String) : Prop :=
  FitsLength s.utf8ByteSize

instance (n : ℕ) : Decidable (FitsLength n) :=
  inferInstanceAs (Decidable (n < 2 ^ 64))

instance (s : String) : Decidable (FitsText s) :=
  inferInstanceAs (Decidable (FitsLength _))

theorem delimited_lengthBytes : Delimited FitsLength lengthBytes := by
  intro m n rest rest' hm hn h
  obtain ⟨hword, hrest⟩ := List.append_inj h rfl
  have hvalue := congrArg UInt64.toNat (Xxh3.wordBytes_injective hword)
  have hread : ∀ {n : ℕ}, FitsLength n → n.toUInt64.toNat = n := fun hn =>
    UInt64.toNat_ofNat'.trans (Nat.mod_eq_of_lt hn)
  rw [hread hm, hread hn] at hvalue
  exact ⟨hvalue, hrest⟩

theorem delimited_textBytes : Delimited FitsText textBytes := by
  intro s t rest rest' hs ht h
  rw [textBytes, textBytes, List.append_assoc, List.append_assoc] at h
  obtain ⟨hlength, htail⟩ := delimited_lengthBytes hs ht h
  obtain ⟨hbytes, hrest⟩ := List.append_inj htail hlength
  exact ⟨String.toByteArray_inj.mp (ByteArray.ext (Array.toList_inj.mp hbytes)), hrest⟩

theorem Delimited.flatMap (h : Delimited fits bytes) {as bs : List α} {rest rest' : List UInt8}
    (has : ∀ a ∈ as, fits a) (hbs : ∀ b ∈ bs, fits b) (hlength : as.length = bs.length)
    (heq : as.flatMap bytes ++ rest = bs.flatMap bytes ++ rest') : as = bs ∧ rest = rest' := by
  induction as generalizing bs with
  | nil =>
    obtain rfl := List.length_eq_zero_iff.mp hlength.symm
    exact ⟨rfl, heq⟩
  | cons a as ih =>
    obtain ⟨b, bs, rfl⟩ := List.exists_cons_of_length_eq_add_one hlength.symm
    obtain ⟨ha, has'⟩ := List.forall_mem_cons.mp has
    obtain ⟨hb, hbs'⟩ := List.forall_mem_cons.mp hbs
    rw [List.flatMap_cons, List.flatMap_cons, List.append_assoc, List.append_assoc] at heq
    obtain ⟨rfl, htail⟩ := h ha hb heq
    obtain ⟨rfl, hrest⟩ := ih has' hbs' (Nat.succ.inj hlength) htail
    exact ⟨rfl, hrest⟩

/-- A list of items that show where they end shows where it ends. -/
theorem delimited_listBytes (h : Delimited fits bytes) :
    Delimited (fun items => FitsLength items.length ∧ ∀ item ∈ items, fits item)
      (listBytes bytes) := by
  rintro as bs rest rest' ⟨hlength, has⟩ ⟨hlength', hbs⟩ heq
  rw [listBytes, listBytes, List.append_assoc, List.append_assoc] at heq
  obtain ⟨hsame, heq⟩ := delimited_lengthBytes hlength hlength' heq
  exact h.flatMap has hbs hsame heq

end Fingerprint

/-! ### Values up to the order of fields -/

namespace Json

/-- Two values differ at most in the order in which their objects list the fields. -/
inductive Alike : Json → Json → Prop where
  /-- The null value. -/
  | null : Alike .null .null
  /-- A truth value. -/
  | bool (value : Bool) : Alike (.bool value) (.bool value)
  /-- A number. -/
  | num (value : Number) : Alike (.num value) (.num value)
  /-- A text. -/
  | str (value : String) : Alike (.str value) (.str value)
  /-- Lists without items. -/
  | nil : Alike (.arr []) (.arr [])
  /-- Lists whose items are alike, one by one. -/
  | cons {a b : Json} {as bs : List Json} (hitem : Alike a b) (hrest : Alike (.arr as) (.arr bs)) :
    Alike (.arr (a :: as)) (.arr (b :: bs))
  /-- Objects without fields. -/
  | empty : Alike (.obj []) (.obj [])
  /-- Objects one of which has the first field of the other at some place. -/
  | field {key : String} {a b : Json} {as bs cs : List (String × Json)} (hvalue : Alike a b)
    (hrest : Alike (.obj as) (.obj (bs ++ cs))) :
    Alike (.obj ((key, a) :: as)) (.obj (bs ++ (key, b) :: cs))

mutual

theorem Alike.refl (value : Json) : value.Alike value := by
  cases value with
  | null => exact .null
  | bool b => exact .bool b
  | num n => exact .num n
  | str s => exact .str s
  | arr items => exact Alike.refl_arr items
  | obj fields => exact Alike.refl_obj fields

theorem Alike.refl_arr (items : List Json) : Alike (.arr items) (.arr items) := by
  cases items with
  | nil => exact .nil
  | cons item rest => exact .cons (Alike.refl item) (Alike.refl_arr rest)

theorem Alike.refl_obj (fields : List (String × Json)) : Alike (.obj fields) (.obj fields) := by
  cases fields with
  | nil => exact .empty
  | cons field rest =>
    have hrest : Alike (.obj rest) (.obj ([] ++ rest)) := Alike.refl_obj rest
    exact .field (Alike.refl field.2) hrest

end

/-- An object is like any other with the same fields in another order. -/
theorem Alike.of_perm {fields fields' : List (String × Json)} (h : fields.Perm fields') :
    Alike (.obj fields) (.obj fields') := by
  induction fields generalizing fields' with
  | nil =>
    obtain rfl := List.nil_perm.mp h
    exact .empty
  | cons field rest ih =>
    obtain ⟨before, behind, rfl⟩ := List.append_of_mem (h.subset List.mem_cons_self)
    have hrest := (List.perm_cons field).mp (h.trans List.perm_middle)
    exact .field (Alike.refl field.2) (ih hrest)

theorem Ordered.of_sublist {fields fields' : List (String × Json)} (h : (Json.obj fields).Ordered)
    (hsub : fields'.Sublist fields) : (Json.obj fields').Ordered :=
  .obj (h.sorted.sublist hsub) fun e he => h.values e (hsub.subset he)

/-- Values whose keys ascend are alike only if they are equal. -/
theorem Ordered.eq_of_alike {a b : Json} (h : a.Alike b) (ha : a.Ordered) (hb : b.Ordered) :
    a = b := by
  induction h with
  | null | bool _ | num _ | str _ | nil | empty => rfl
  | cons hitem hrest ihitem ihrest =>
    obtain ⟨hfirst, hothers⟩ := List.forall_mem_cons.mp ha.items
    obtain ⟨hfirst', hothers'⟩ := List.forall_mem_cons.mp hb.items
    rw [ihitem hfirst hfirst', Json.arr.inj (ihrest (.arr hothers) (.arr hothers'))]
  | @field key a b as bs cs hvalue hrest ihvalue ihrest =>
    have hsame : as = bs ++ cs := Json.obj.inj (ihrest (ha.of_sublist (List.sublist_cons_self _ _))
      (hb.of_sublist (List.Sublist.append_left (List.sublist_cons_self _ _) bs)))
    have hvalues : a = b := ihvalue (ha.values _ List.mem_cons_self)
      (hb.values _ (List.mem_append_right _ List.mem_cons_self))
    cases bs with
    | nil => rw [hsame, hvalues, List.nil_append, List.nil_append]
    | cons e bs =>
      -- a field before the first one would have a key both below and above its key
      have hbelow : e.1 < key := (List.pairwise_cons.mp hb.sorted).1 (key, b) (by simp)
      have habove : key < e.1 := (List.pairwise_cons.mp ha.sorted).1 e (by simp [hsame])
      exact absurd (hbelow.trans habove) (lt_irrefl _)

/-- Fields with different keys make the same object in whatever order they are read. -/
theorem ofFields_eq_of_perm {fields fields' : List (String × Json)}
    (hkeys : (fields.map Prod.fst).Nodup) (h : fields.Perm fields') :
    ofFields fields = ofFields fields' :=
  congrArg Json.obj (Entries.ofList_eq_of_perm hkeys h)

end Json

/-! ### Graphs -/

open Fingerprint

/-- Two nodes differ at most in the order in which their payloads list the fields. -/
structure RawNode.Alike (node other : RawNode) : Prop where
  /-- The names are equal. -/
  id : node.id = other.id
  /-- The names on the screen are equal. -/
  name : node.name = other.name
  /-- The types are equal. -/
  kind : node.kind = other.kind
  /-- The payloads are the same values. -/
  data : node.data.Alike other.data

/-- Two graphs have the same nodes and the same edges, up to the order in which payloads list
their fields. -/
structure Graph.Alike (graph other : Graph) : Prop where
  /-- The nodes are alike, one by one. -/
  nodes : List.Forall₂ RawNode.Alike graph.nodes other.nodes
  /-- The edges are equal. -/
  edges : graph.edges = other.edges

/-- The lengths of the texts of a node fit 64 bits. -/
structure RawNode.Fits (node : RawNode) : Prop where
  /-- That of its name. -/
  id : FitsText node.id.text
  /-- That of its name on the screen. -/
  name : FitsText node.name
  /-- That of its type. -/
  kind : FitsText node.kind
  /-- That of its payload. -/
  data : FitsText node.data.compact

/-- The lengths of the texts of an edge fit 64 bits. -/
structure Edge.Fits (edge : Edge) : Prop where
  /-- That of its name. -/
  id : FitsText edge.id.text
  /-- That of the node it leaves. -/
  source : FitsText edge.source.text
  /-- That of the port it leaves. -/
  sourcePort : FitsText edge.sourcePort.text
  /-- That of the node it enters. -/
  target : FitsText edge.target.text
  /-- That of the port it enters. -/
  targetPort : FitsText edge.targetPort.text

/-- The lengths in a graph fit 64 bits. -/
structure Graph.Fits (graph : Graph) : Prop where
  /-- The number of nodes, and the lengths of their texts. -/
  nodes : FitsLength graph.nodes.length ∧ ∀ node ∈ graph.nodes, node.Fits
  /-- The number of edges, and the lengths of their texts. -/
  edges : FitsLength graph.edges.length ∧ ∀ edge ∈ graph.edges, edge.Fits

theorem RawNode.delimited_bytes : Delimited RawNode.Fits RawNode.bytes := by
  rintro ⟨⟨id⟩, name, kind, data⟩ ⟨⟨id'⟩, name', kind', data'⟩ rest rest' ha hb h
  simp only [RawNode.bytes, List.append_assoc] at h
  obtain ⟨rfl, hname⟩ := delimited_textBytes ha.id hb.id h
  obtain ⟨rfl, hkind⟩ := delimited_textBytes ha.name hb.name hname
  obtain ⟨rfl, hdata⟩ := delimited_textBytes ha.kind hb.kind hkind
  obtain ⟨htext, hrest⟩ := delimited_textBytes ha.data hb.data hdata
  obtain rfl := Json.compact_injective htext
  exact ⟨rfl, hrest⟩

theorem Edge.delimited_bytes : Delimited Edge.Fits Edge.bytes := by
  rintro ⟨⟨id⟩, ⟨source⟩, ⟨sourcePort⟩, ⟨target⟩, ⟨targetPort⟩⟩
    ⟨⟨id'⟩, ⟨source'⟩, ⟨sourcePort'⟩, ⟨target'⟩, ⟨targetPort'⟩⟩ rest rest' ha hb h
  simp only [Edge.bytes, List.append_assoc] at h
  obtain ⟨rfl, hsource⟩ := delimited_textBytes ha.id hb.id h
  obtain ⟨rfl, hsourcePort⟩ := delimited_textBytes ha.source hb.source hsource
  obtain ⟨rfl, htarget⟩ := delimited_textBytes ha.sourcePort hb.sourcePort hsourcePort
  obtain ⟨rfl, htargetPort⟩ := delimited_textBytes ha.target hb.target htarget
  obtain ⟨rfl, hrest⟩ := delimited_textBytes ha.targetPort hb.targetPort htargetPort
  exact ⟨rfl, hrest⟩

/-- The bytes show the graph. -/
theorem Graph.eq_of_bytes {graph other : Graph} (hfits : graph.Fits) (hfits' : other.Fits)
    (h : graph.bytes = other.bytes) : graph = other := by
  obtain ⟨nodes, edges⟩ := graph
  obtain ⟨nodes', edges'⟩ := other
  obtain ⟨rfl, hedges⟩ := delimited_listBytes RawNode.delimited_bytes hfits.nodes hfits'.nodes h
  obtain ⟨rfl, -⟩ := delimited_listBytes Edge.delimited_bytes hfits.edges hfits'.edges
    (congrArg (· ++ []) hedges)
  rfl

theorem RawNode.Alike.eq {node other : RawNode} (h : node.Alike other) (hnode : node.data.Ordered)
    (hother : other.data.Ordered) : node = other := by
  obtain ⟨id, name, kind, data⟩ := node
  obtain ⟨id', name', kind', data'⟩ := other
  obtain rfl : id = id' := h.id
  obtain rfl : name = name' := h.name
  obtain rfl : kind = kind' := h.kind
  obtain rfl : data = data' := hnode.eq_of_alike h.data hother
  rfl

/-- Graphs whose keys ascend are alike just if they are equal. -/
theorem Graph.Ordered.alike_iff {graph other : Graph} (h : graph.Ordered) (h' : other.Ordered) :
    graph.Alike other ↔ graph = other := by
  constructor
  · rintro ⟨hnodes, hedges⟩
    obtain ⟨nodes, edges⟩ := graph
    obtain ⟨nodes', edges'⟩ := other
    obtain rfl : edges = edges' := hedges
    congr 1
    change ∀ raw ∈ nodes, raw.data.Ordered at h
    change ∀ raw ∈ nodes', raw.data.Ordered at h'
    change List.Forall₂ RawNode.Alike nodes nodes' at hnodes
    induction hnodes with
    | nil => rfl
    | cons hnode _ ih =>
      rw [List.forall_mem_cons] at h h'
      rw [hnode.eq h.1 h'.1, ih h.2 h'.2]
  · rintro rfl
    exact ⟨List.forall₂_same.mpr fun node _ => ⟨rfl, rfl, rfl, .refl _⟩, rfl⟩

/-- The bytes that are hashed for a graph show the graph: its nodes and its edges, one by one, with
all that is in them, up to the order in which payloads list their fields. The two zeros of the
doubles are different values here, as they are written differently. -/
theorem Graph.bytes_eq_iff {graph other : Graph} (hfits : graph.Fits) (hfits' : other.Fits)
    (hordered : graph.Ordered) (hordered' : other.Ordered) :
    graph.bytes = other.bytes ↔ graph.Alike other := by
  rw [hordered.alike_iff hordered']
  exact ⟨eq_of_bytes hfits hfits', congrArg bytes⟩

/-- A circle in a scene, with properties that are texts. -/
def circleScene (id name : String) (properties : List (String × String)) : Graph where
  nodes :=
    [⟨⟨id⟩, name, "geometry", .ofFields (properties.map fun e => (e.1, .str e.2))⟩,
      ⟨⟨"s"⟩, "", "scene", .null⟩]
  edges := [⟨⟨"e1"⟩, ⟨id⟩, ⟨"object"⟩, ⟨"s"⟩, ⟨"in"⟩⟩]

theorem fits_circleScene {id name : String} {properties : List (String × String)}
    (hid : FitsText id) (hname : FitsText name)
    (hdata : FitsText (Json.ofFields (properties.map fun e => (e.1, .str e.2))).compact) :
    (circleScene id name properties).Fits := by
  have htext : FitsText "geometry" ∧ FitsText "e1" ∧ FitsText "object" ∧ FitsText "s" ∧
      FitsText "in" := by decide
  obtain ⟨hkind, hedge, hobject, hscene, hin⟩ := htext
  refine ⟨⟨(by decide : FitsLength 2), ?_⟩, (by decide : FitsLength 1), ?_⟩
  · rw [circleScene, List.forall_mem_cons, List.forall_mem_singleton]
    exact ⟨⟨hid, hname, hkind, hdata⟩, by decide, by decide, by decide, by decide⟩
  · rw [circleScene, List.forall_mem_singleton]
    exact ⟨hedge, hid, hobject, hscene, hin⟩

theorem ordered_circleScene (id name : String) (properties : List (String × String)) :
    (circleScene id name properties).Ordered := by
  rw [Graph.Ordered, circleScene, List.forall_mem_cons, List.forall_mem_singleton]
  refine ⟨Json.ordered_ofFields fun e he => ?_, .null⟩
  obtain ⟨property, -, rfl⟩ := List.mem_map.mp he
  exact .str _

/-- The order in which fields are read does not show in the bytes, and a character that moves from
the name on the screen to the name of the node does. -/
theorem bytes_eq_iff_circleScene :
    (circleScene "c1" "Circle" [("shape", "circle"), ("color", "#ff0000")]).bytes
        = (circleScene "c1" "Circle" [("color", "#ff0000"), ("shape", "circle")]).bytes ∧
      (circleScene "c1" "Circle" [("shape", "circle")]).bytes
        ≠ (circleScene "c1C" "ircle" [("shape", "circle")]).bytes := by
  constructor
  · refine (Graph.bytes_eq_iff (fits_circleScene (by decide) (by decide) (by decide +kernel))
      (fits_circleScene (by decide) (by decide) (by decide +kernel))
      (ordered_circleScene _ _ _) (ordered_circleScene _ _ _)).mpr ⟨?_, rfl⟩
    have hdata : Json.ofFields [("shape", .str "circle"), ("color", .str "#ff0000")]
        = Json.ofFields [("color", .str "#ff0000"), ("shape", .str "circle")] :=
      Json.ofFields_eq_of_perm (by decide) (.swap _ _ [])
    exact .cons ⟨rfl, rfl, rfl, (congrArg (Json.Alike _) hdata).mp (.refl _)⟩
      (.cons ⟨rfl, rfl, rfl, .null⟩ .nil)
  · intro h
    have halike := (Graph.bytes_eq_iff
      (fits_circleScene (by decide) (by decide) (by decide +kernel))
      (fits_circleScene (by decide) (by decide) (by decide +kernel))
      (ordered_circleScene _ _ _) (ordered_circleScene _ _ _)).mp h
    exact absurd (List.forall₂_cons.mp halike.nodes).1.name (by decide)

end SceneFlow
