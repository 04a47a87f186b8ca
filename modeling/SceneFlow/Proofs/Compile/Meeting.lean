import Mathlib
import SceneFlow.Proofs.Compile.Outcome
import SceneFlow.Proofs.Compile.Simulation
import SceneFlow.Proofs.Graph.Construction

/-!
# Tokens that meet

Tokens of one object that have come along different paths meet at merge nodes. If only tokens of
one line meet there under one name, a part of a network has the same traffic as the whole, and so
the same objects with the same times. If tokens that meet agree as well, styles and motions are the
same too.

## Main definitions

* `Token.Precedes`: one token is on the way of another.
* `Prepared.Meets`: whatever tokens meet in a run are related.

## Main results

* `Network.Part.perm_arriving_of_meet`: the traffic of a part is that of the whole.
* `Network.Part.alike`: variables mean the same in a part and in the whole.
-/

namespace SceneFlow

open Token (outline along)

namespace Token

variable {token other : Token}

/-- One token is on the way of another: it comes from the same drawable node, and it has some of the
marks of the other, from the first on. -/
def Precedes (token other : Token) : Prop :=
  token.origin = other.origin ∧ token.copies <+: other.copies

instance (token other : Token) : Decidable (token.Precedes other) :=
  inferInstanceAs (Decidable (_ ∧ _))

/-- A delivered token is told from its outline what object it becomes. -/
theorem object_eq_of_outline (h : token.outline true = other.outline true) (resolver : Resolver) :
    token.object resolver = other.object resolver := by
  obtain ⟨hframe, -, hinsert, hdetails⟩ := outline_eq_iff.mp h
  obtain ⟨horigin, hgeometry, -, hoffset⟩ := frame_eq_iff.mp hframe
  simp only [object, canvasView, name_eq_of_frame hframe, horigin, hgeometry, hoffset, hinsert,
    (hdetails rfl).1]

/-- So are its motions, up to their order. -/
theorem objectMotions_perm_of_outline (h : token.outline true = other.outline true) :
    token.objectMotions.Perm other.objectMotions := by
  rw [objectMotions, objectMotions, name_eq_of_frame (frame_eq_of_outline h)]
  exact (details_eq_of_outline h).2.map _

end Token

/-- Whatever two tokens of one name meet at a merge node are related. -/
def Prepared.Meets (prepared : Prepared) (overrides : Overrides) (key : Option String)
    (related : Token → Token → Prop) : Prop :=
  ∀ v, (prepared.network.node v).kind.isMerge = true →
    ∀ token ∈ (prepared.flow overrides key).arrived v,
      ∀ other ∈ (prepared.flow overrides key).arrived v,
        token.name = other.name → related token other

namespace Network

variable {limits limits' : Limits}

/-- A token comes from a node of the network. -/
theorem exists_origin {net : Network} (h : Sound limits net) {resolver : Resolver}
    {v : Fin net.size} {token : Token} (htoken : token ∈ net.arriving resolver v) :
    ∃ u, net.id u = token.origin := by
  have hgeometry := (proper_of_mem_arriving h htoken).geometry
  rw [shape?] at hgeometry
  cases hfind : net.find? token.origin with
  | none => simp [hfind] at hgeometry
  | some u =>
    rw [find?, place?, Array.findFinIdx?_eq_some_iff] at hfind
    exact ⟨u, of_decide_eq_true hfind.1⟩

namespace Part

variable {part whole : Network} {resolver resolver' : Resolver}
  {keeps : NodeId × List CopyMark → Bool} {full : Bool}

/-- Tokens of one name that meet in a part are of one line, where this holds in the whole. -/
theorem line_eq_of_meet (h : Part part whole) {v : Fin part.size}
    (hinside : ∀ t ∈ part.arriving resolver v, keeps t.line = true)
    (hmeet : ∀ t ∈ whole.arriving resolver' (h.place v), keeps t.line = true →
      ∀ t' ∈ whole.arriving resolver' (h.place v), t'.name = t.name → t.line = t'.line)
    (hperm : ((along keeps (whole.arriving resolver' (h.place v))).map (outline full)).Perm
      ((along keeps (part.arriving resolver v)).map (outline full))) {t t' : Token}
    (ht : t ∈ part.arriving resolver v) (ht' : t' ∈ part.arriving resolver v)
    (hname : t'.name = t.name) : t.line = t'.line := by
  have hfrom : ∀ u ∈ part.arriving resolver v, ∃ w ∈ whole.arriving resolver' (h.place v),
      keeps w.line = true ∧ w.frame = u.frame := fun u hu => by
    obtain ⟨w, hw, hout⟩ := List.mem_map.mp <| hperm.mem_iff.mpr <| List.mem_map_of_mem <|
      List.mem_filter.mpr ⟨hu, hinside u hu⟩
    obtain ⟨hw, hkeeps⟩ := List.mem_filter.mp hw
    exact ⟨w, hw, hkeeps, Token.frame_eq_of_outline hout⟩
  obtain ⟨w, hw, hkeeps, hframe⟩ := hfrom t ht
  obtain ⟨w', hw', -, hframe'⟩ := hfrom t' ht'
  have hline := hmeet w hw hkeeps w' hw' (by
    rw [Token.name_eq_of_frame hframe, Token.name_eq_of_frame hframe', hname])
  rw [← Token.line_eq_of_frame hframe, hline, Token.line_eq_of_frame hframe']

/-- The traffic of a part is that of the whole, but for tokens that are not in the part, if only
tokens of one line meet in the whole. -/
theorem perm_arriving_of_meet (h : Part part whole) (hpart : Sound limits part)
    (hwhole : Sound limits' whole) (hresolver : resolver'.Alike resolver) (hclosed : Closed keeps)
    (houtside : ∀ u, (∀ v, h.place v ≠ u) → keeps (whole.id u, []) = false)
    (hinside : ∀ v, ∀ t ∈ part.arriving resolver v, keeps t.line = true)
    (hmeet : ∀ v, (part.node v).kind.isMerge = true →
      ∀ t ∈ whole.arriving resolver' (h.place v), keeps t.line = true →
        ∀ t' ∈ whole.arriving resolver' (h.place v), t'.name = t.name →
          t.line = t'.line ∧ (full = true → t.Agrees t')) (v : Fin part.size) :
    ((along keeps (whole.arriving resolver' (h.place v))).map (outline full)).Perm
      ((along keeps (part.arriving resolver v)).map (outline full)) := by
  have hcompatible : ∀ v, (part.node v).kind.isMerge = true →
      Token.Compatible keeps full (whole.arriving resolver' (h.place v)) := fun v hmerge => by
    refine ⟨fun t ht => (proper_of_mem_arriving hwhole ht).neat, fun t ht hkeeps t' ht' hname => ?_,
      fun hfull t ht hkeeps t' ht' hname => (hmeet v hmerge t ht hkeeps t' ht' hname).2 hfull⟩
    exact (proper_of_mem_arriving hwhole ht).frame_eq (proper_of_mem_arriving hwhole ht')
      (hmeet v hmerge t ht hkeeps t' ht' hname).1
  refine h.perm_arriving hpart hwhole hresolver hclosed houtside hcompatible
    (fun v hmerge hperm => (hcompatible v hmerge).of_perm
      (fun t ht => (proper_of_mem_arriving hpart ht).neat) (fun t ht _ t' ht' hname => ?_) hperm) v
  refine (proper_of_mem_arriving hpart ht).frame_eq (proper_of_mem_arriving hpart ht') ?_
  exact h.line_eq_of_meet (hinside v)
    (fun t ht hkeeps t' ht' hname => (hmeet v hmerge t ht hkeeps t' ht' hname).1) hperm ht ht' hname

/-- Variables mean the same in a part and in the whole. -/
theorem alike (h : Part part whole) {prepared prepared' : Prepared}
    (hpart : part.prepare limits = .ok prepared) (hwhole : whole.prepare limits' = .ok prepared')
    (overrides : Overrides) (key : Option String) :
    (prepared'.resolver overrides key).Alike (prepared.resolver overrides key) := by
  obtain ⟨hsound, _, _, values, -, hvalues, rfl⟩ := prepare_eq_ok_iff.mp hpart
  obtain ⟨hsound', _, _, values', -, hvalues', rfl⟩ := prepare_eq_ok_iff.mp hwhole
  exact ⟨rfl, rfl, h.get?_eq hsound hsound' hvalues hvalues'⟩

end Part

end Network

namespace Prepared

variable {limits limits' : Limits} {prepared prepared' : Prepared}
  {overrides : Overrides} {key : Option String}

/-- In a run without errors, what meets is told from the traffic. -/
theorem meets_iff (hquiet : Finding.NoError (prepared.flow overrides key).findings)
    (related : Token → Token → Prop) : prepared.Meets overrides key related ↔
      ∀ v, (prepared.network.node v).kind.isMerge = true →
        ∀ token ∈ prepared.network.arriving (prepared.resolver overrides key) v,
          ∀ other ∈ prepared.network.arriving (prepared.resolver overrides key) v,
            token.name = other.name → related token other := by
  have harrived : ∀ v, (prepared.flow overrides key).arrived v =
      prepared.network.arriving (prepared.resolver overrides key) v :=
    Network.arrived_flow hquiet
  simp only [Meets, harrived]

/-- Where the same tokens arrive at the terminals, each delivered token has a counterpart. -/
theorem exists_delivered (h : Network.Part prepared.network prepared'.network)
    (hpart : Network.Sound limits prepared.network)
    (hwhole : Network.Sound limits' prepared'.network)
    (hquiet : Finding.NoError (prepared.flow overrides key).findings)
    (hquiet' : Finding.NoError (prepared'.flow overrides key).findings)
    {keeps : NodeId × List CopyMark → Bool} {full : Bool}
    (hperm : ∀ v, ((along keeps (prepared'.network.arriving (prepared'.resolver overrides key)
        (h.place v))).map (outline full)).Perm
      ((along keeps (prepared.network.arriving (prepared.resolver overrides key) v)).map
        (outline full)))
    {token : Token} (htoken : token ∈ (prepared'.flow overrides key).delivered)
    (hkeeps : keeps token.line = true) :
    ∃ other ∈ (prepared.flow overrides key).delivered, other.outline full = token.outline full := by
  obtain ⟨terminal, hterminal, -⟩ := hpart.terminal
  have hterminal' : (prepared'.network.node (h.place terminal)).kind.isTerminal = true := by
    rw [h.node_eq, hterminal]
  rw [flow, Network.delivered_flow hquiet' hwhole hterminal'] at htoken
  obtain ⟨other, hother, hout⟩ := List.mem_map.mp <| (hperm terminal).mem_iff.mp <|
    List.mem_map_of_mem <| List.mem_filter.mpr ⟨htoken, hkeeps⟩
  refine ⟨other, ?_, hout⟩
  rw [flow, Network.delivered_flow hquiet hpart hterminal]
  exact (List.mem_filter.mp hother).1

/-- Every delivered token of a run with a scene is an object of the scene. -/
theorem exists_object_of_mem_delivered {compilation : Compilation}
    (hrun : prepared.run overrides key = .ok compilation) {token : Token}
    (htoken : token ∈ (prepared.flow overrides key).delivered) :
    ∃ object ∈ compilation.scene.objects,
      (token.object (prepared.resolver overrides key)).1 = .ok object := by
  obtain ⟨-, hcast, -⟩ := of_run_eq_ok hrun
  obtain ⟨object, hobject⟩ := (Cast.noError_findings_iff _ _).mp hcast token htoken
  exact ⟨object, (mem_objects_iff hrun).mpr (Cast.mem_objects_iff.mpr ⟨token, htoken, hobject⟩),
    hobject⟩

end Prepared

/-! ### Small graphs -/

/-- Graphs can be run without putting their edges in order, if they are in order. -/
theorem exists_runs_of_sorted (graph graph' : Graph) (seen : Network → Prepared → Prepared → Bool)
    (hsorted : graph.edges.Pairwise fun a b => a.id.text ≤ b.id.text)
    (hsorted' : graph'.edges.Pairwise fun a b => a.id.text ≤ b.id.text)
    (h : (match Network.ofSorted graph, Network.ofSorted graph' with
      | .ok net, .ok net' =>
        match net.prepare .standard, net'.prepare .standard with
        | .ok prepared, .ok prepared' =>
          prepared.succeeds .empty none && prepared'.succeeds .empty none &&
            seen net prepared prepared'
        | _, _ => false
      | _, _ => false) = true) :
    ∃ net net' prepared prepared' compilation compilation',
      Network.ofGraph graph = .ok net ∧ Network.ofGraph graph' = .ok net' ∧
        net.prepare .standard = .ok prepared ∧ net'.prepare .standard = .ok prepared' ∧
        prepared.run .empty none = .ok compilation ∧
        prepared'.run .empty none = .ok compilation' ∧ seen net prepared prepared' = true := by
  rw [← Network.ofGraph_eq_ofSorted hsorted, ← Network.ofGraph_eq_ofSorted hsorted'] at h
  match hnet : Network.ofGraph graph, hnet' : Network.ofGraph graph' with
  | .error _, _ | .ok _, .error _ => simp [hnet, hnet'] at h
  | .ok net, .ok net' =>
    simp only [hnet, hnet'] at h
    match hprepare : net.prepare .standard, hprepare' : net'.prepare .standard with
    | .error _, _ | .ok _, .error _ => simp [hprepare, hprepare'] at h
    | .ok prepared, .ok prepared' =>
      simp only [hprepare, hprepare', Bool.and_eq_true] at h
      obtain ⟨compilation, hrun⟩ := (prepared.succeeds_iff .empty none).mp h.1.1
      obtain ⟨compilation', hrun'⟩ := (prepared'.succeeds_iff .empty none).mp h.1.2
      exact ⟨net, net', prepared, prepared', compilation, compilation', rfl, rfl, hprepare,
        hprepare', hrun, hrun', h.2⟩

/-- The circle `c` gets one style from `p` and another from `q`, and the styles meet in the merge
node `m`. The circle `x` keeps `p` waiting. -/
def styleRace : Graph where
  nodes :=
    [.circle "c", .circle "x",
      .small "p" "text_style" [("style", .obj [("k", .small 1)])],
      .small "q" "text_style" [("style", .obj [("k", .small 2)])],
      .small "m" "merge" [("input_count", .small 2)],
      .small "s" "scene"
        [("height", .small 10), ("width", .small 10)]]
  edges :=
    [.plain "e1" "c" "p", .plain "e2" "c" "q", .input "e3" "p" "m" "input-0",
      .input "e4" "q" "m" "input-1", .plain "e5" "m" "s", .plain "e6" "x" "p"]

/-- The circle `c` is placed by `i` and by `j`, and its tokens meet in the merge node `m`. The
circle `x` keeps `i` waiting. -/
def insertRace : Graph where
  nodes :=
    [.circle "c", .circle "x", .small "i" "insert" [("delay", .small 1)],
      .small "j" "insert" [("delay", .small 2)],
      .small "m" "merge" [("input_count", .small 2)],
      .small "s" "scene"
        [("height", .small 10), ("width", .small 10)]]
  edges :=
    [.plain "e1" "c" "i", .plain "e2" "c" "j", .input "e3" "i" "m" "input-0",
      .input "e4" "j" "m" "input-1", .plain "e5" "m" "s", .plain "e6" "x" "i"]

/-- Whether the property `k` of an object has a value. -/
def SceneObject.hasStyle (object : SceneObject) (k : Int) : Bool :=
  match object.properties.get? "k" with
  | some (.num (.int value _)) => value = k
  | _ => false

end SceneFlow
