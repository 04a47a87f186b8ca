import Mathlib
import SceneFlow.Proofs.Compile.Proper
import SceneFlow.Proofs.Graph.Part
import SceneFlow.Proofs.Override.Resolution

/-!
# The traffic of a part

The tokens of some lines run through a part of a network as they run through the whole, if no
other token interferes with them where paths meet. The order in which they arrive at a node may
differ, and with it the order of motions that a merge node has joined; all else is the same.

## Main definitions

* `Network.Closed`: with an object, the objects that it is a copy of are of the lines.

## Main results

* `Node.map_outline_carry`: a node treats tokens of one outline alike.
* `Node.perm_sends`: so do nodes that join tokens.
* `Network.Part.perm_arriving`: the same tokens arrive in the part and in the whole.
-/

namespace SceneFlow

open Token (outline along)

/-! ### Nodes treat tokens of one outline alike -/

namespace Token

variable {full : Bool} {token other : Token}

/-- What is the same in tokens of one outline. -/
theorem outline_eq_iff : token.outline full = other.outline full ↔
    token.frame = other.frame ∧ token.cursor = other.cursor ∧
      token.insertTime = other.insertTime ∧
      (full = true → token.style = other.style ∧ token.motions.Perm other.motions) := by
  cases full <;> simp [outline]

end Token

namespace Node

variable {full : Bool} {token other : Token} {resolver resolver' : Resolver}

/-- A node treats tokens of one outline alike. -/
theorem map_outline_carry (node : Node) (hresolver : resolver.Alike resolver')
    (h : token.outline full = other.outline full) :
    (node.carry resolver token).map (outline full) =
      (node.carry resolver' other).map (outline full) := by
  have hname : token.name = other.name := Token.name_eq_of_frame (Token.frame_eq_of_outline h)
  obtain ⟨hframe, hcursor, hinsert, hdetails⟩ := Token.outline_eq_iff.mp h
  obtain ⟨horigin, hgeometry, hcopies, hoffset⟩ := Token.frame_eq_iff.mp hframe
  rw [carry, carry]
  cases node.kind with
  | merge _ | terminal _ _ => exact congrArg (fun o => [o]) h
  | filter data =>
    dsimp only
    rw [horigin]
    split
    · exact congrArg (fun o => [o]) h
    · rfl
  | insert data =>
    dsimp only
    cases data.mode with
    | never => rfl
    | always =>
      refine congrArg (fun o => [o]) (Token.outline_eq_iff.mpr ⟨hframe, ?_, ?_, hdetails⟩)
      · simp only [Token.insert, hcursor]
      · simp only [Token.insert, hcursor, hinsert]
  | animation data =>
    dsimp only [Animation.animate]
    rw [hname, hcursor, hresolver.render_eq]
    rcases Animation.render resolver' other.name other.cursor data.tracks with
      ⟨problem | rendered, stale⟩
    · rfl
    · refine congrArg (fun o => [o]) (Token.outline_eq_iff.mpr ⟨hframe, ?_, hinsert, ?_⟩)
      · rfl
      · exact fun hfull => ⟨(hdetails hfull).1, (hdetails hfull).2.append_right _⟩
  | textStyle data =>
    refine congrArg (fun o => [o]) (Token.outline_eq_iff.mpr ⟨hframe, hcursor, hinsert, ?_⟩)
    exact fun hfull => ⟨by simp only [Token.restyle, (hdetails hfull).1], (hdetails hfull).2⟩
  | duplicate data =>
    dsimp only [Token.duplicate]
    rw [List.map_cons, List.map_cons, h, List.map_map, List.map_map]
    refine congrArg _ (List.map_congr_left fun i _ => Token.outline_eq_iff.mpr ⟨?_, hcursor,
      hinsert, hdetails⟩)
    simp only [Token.copy, Token.frame, horigin, hgeometry, hcopies, hoffset]
  | geometry _ | unknown _ | constant _ | result _ | comparison _ | logic _ | math _ => rfl

end Node

/-! ### Tokens of some lines -/

/-- With an object, the objects that it is a copy of are of the lines. -/
def Closed (keeps : NodeId × List CopyMark → Bool) : Prop :=
  ∀ origin copies more, keeps (origin, copies ++ more) = true → keeps (origin, copies) = true

namespace Token

variable {keeps : NodeId × List CopyMark → Bool} {full : Bool} {tokens tokens' : List Token}

/-- The tokens of the lines that leave a node come from tokens of the lines. -/
theorem along_flatMap_carry (hclosed : Closed keeps) (node : Node) (resolver : Resolver)
    (tokens : List Token) :
    along keeps (tokens.flatMap (node.carry resolver)) =
      along keeps ((along keeps tokens).flatMap (node.carry resolver)) := by
  rw [along, along, List.filter_flatMap, List.filter_flatMap, along]
  induction tokens with
  | nil => rfl
  | cons token rest ih =>
    rw [List.flatMap_cons, ih]
    by_cases hkeeps : keeps token.line = true
    · rw [List.filter_cons_of_pos (by exact hkeeps), List.flatMap_cons]
    · rw [List.filter_cons_of_neg (by exact hkeeps)]
      refine List.append_left_eq_self.mpr (List.filter_eq_nil_iff.mpr fun result hresult => ?_)
      obtain ⟨number, hnumber⟩ := List.mem_iff_getElem?.mp hresult
      obtain ⟨-, horigin, ⟨more, hcopies⟩, -⟩ := Node.carry_spec hnumber
      intro hresult
      rw [line, horigin, ← hcopies] at hresult
      exact hkeeps (hclosed _ _ _ hresult)

end Token

/-- A node sends tokens of the same outlines on, in whatever order they have arrived. -/
theorem Node.perm_sends {keeps : NodeId × List CopyMark → Bool} {full : Bool}
    {tokens tokens' : List Token} {resolver resolver' : Resolver} (node : Node)
    (hresolver : resolver.Alike resolver') (hclosed : Closed keeps)
    (hperm : ((along keeps tokens).map (outline full)).Perm
      ((along keeps tokens').map (outline full)))
    (hcompatible : node.kind.isMerge = true →
      Token.Compatible keeps full tokens ∧ Token.Compatible keeps full tokens') :
    ((along keeps (node.sends resolver tokens)).map (outline full)).Perm
      ((along keeps (node.sends resolver' tokens')).map (outline full)) := by
  have hcarry : ((along keeps (tokens.flatMap (node.carry resolver))).map (outline full)).Perm
      ((along keeps (tokens'.flatMap (node.carry resolver'))).map (outline full)) := by
    rw [Token.along_flatMap_carry hclosed node resolver tokens,
      Token.along_flatMap_carry hclosed node resolver' tokens']
    refine Token.map_outline_filter_perm ?_ fun t t' hframe =>
      congrArg keeps (Token.line_eq_of_frame hframe)
    rw [List.map_flatMap, List.map_flatMap]
    -- What comes of a token is a function of its outline.
    obtain ⟨f, hf⟩ : ∃ f : Outline → List Outline, ∀ t : Token,
        f (t.outline full) = (node.carry resolver t).map (outline full) :=
      ⟨Function.extend (outline full) (fun t => (node.carry resolver t).map (outline full))
        fun _ => [], fun t => Function.FactorsThrough.extend_apply
          (fun a b hab => node.map_outline_carry ⟨rfl, rfl, fun _ => rfl⟩ hab) _ t⟩
    have hf' : ∀ t : Token, f (t.outline full) = (node.carry resolver' t).map (outline full) :=
      fun t => (hf t).trans (node.map_outline_carry hresolver rfl)
    have hflat := hperm.flatMap_right f
    rw [List.flatMap_map, List.flatMap_map] at hflat
    simpa only [← hf, ← hf'] using hflat
  rw [sends, sends]
  split
  · exact List.Perm.refl _
  · rw [work, work]
    cases hkind : node.kind with
    | geometry data => exact List.Perm.refl _
    | merge data =>
      obtain ⟨h, h'⟩ := hcompatible (by rw [hkind]; rfl)
      exact Token.perm_join h h' hperm
    | insert _ | filter _ | constant _ | result _ | animation _ | textStyle _
    | terminal _ _ | comparison _ | logic _ | math _ | duplicate _ | unknown _ =>
      exact hcarry

/-! ### The traffic of a part -/

namespace Network.Part

variable {part whole : Network} {limits limits' : Limits} {resolver resolver' : Resolver}
  {keeps : NodeId × List CopyMark → Bool} {full : Bool}

/-- Items of which nothing comes can be left out. -/
private theorem flatMap_filter_of_nil {α β : Type} (p : α → Bool) (f : α → List β)
    (list : List α) (h : ∀ a ∈ list, p a = false → f a = []) :
    list.flatMap f = (list.filter p).flatMap f := by
  induction list with
  | nil => rfl
  | cons a rest ih =>
    rw [List.flatMap_cons, ih fun b hb => h b (List.mem_cons_of_mem a hb)]
    by_cases ha : p a = true
    · rw [List.filter_cons_of_pos ha, List.flatMap_cons]
    · rw [List.filter_cons_of_neg ha, h a List.mem_cons_self (by simpa using ha), List.nil_append]

/-- Only the object of its own leaves a node that is not in the part. -/
theorem along_departing_of_outside (h : Part part whole) {u : Fin whole.size}
    (hout : ∀ v, h.place v ≠ u) (hkeeps : keeps (whole.id u, []) = false) :
    along keeps (whole.departing resolver' u) = [] := by
  obtain ⟨data, hkind⟩ := NodeKind.exists_of_isDrawable (h.outside u hout)
  rw [departing, Node.sends_geometry hkind]
  refine List.filter_eq_nil_iff.mpr fun t ht => ?_
  rw [List.mem_singleton.mp ht]
  exact ne_true_of_eq_false hkeeps

/-- What the whole sends along the lines into a node of the part comes along links of the part. -/
theorem along_flatMap_objectLinksInto (h : Part part whole)
    (houtside : ∀ u, (∀ v, h.place v ≠ u) → keeps (whole.id u, []) = false) (v : Fin part.size) :
    along keeps ((whole.objectLinksInto (h.place v)).flatMap fun link =>
        whole.departing resolver' link.source) =
      (part.objectLinksInto v).flatMap fun link =>
        along keeps (whole.departing resolver' (h.place link.source)) := by
  have hnil : ∀ link ∈ whole.objectLinksInto (h.place v),
      decide (∃ u, h.place u = link.source) = false →
        along keeps (whole.departing resolver' link.source) = [] := by
    intro link _ hout
    have hout : ∀ u, h.place u ≠ link.source := by simpa using hout
    exact h.along_departing_of_outside hout (houtside _ hout)
  rw [along, List.filter_flatMap]
  refine (flatMap_filter_of_nil _ _ _ hnil).trans ?_
  rw [h.objectLinksInto_eq, List.flatMap_map]
  rfl

/-- The tokens of some lines arrive in a part as they arrive in the whole, if the nodes that are
not in the part have no objects of the lines and merge nodes can join them in any order. -/
theorem perm_arriving (h : Part part whole) (hpart : Sound limits part)
    (hwhole : Sound limits' whole) (hresolver : resolver'.Alike resolver) (hclosed : Closed keeps)
    (houtside : ∀ u, (∀ v, h.place v ≠ u) → keeps (whole.id u, []) = false)
    (hcompatible : ∀ v, (part.node v).kind.isMerge = true →
      Token.Compatible keeps full (whole.arriving resolver' (h.place v)))
    (hcompatible' : ∀ v, (part.node v).kind.isMerge = true →
      ((along keeps (whole.arriving resolver' (h.place v))).map (outline full)).Perm
        ((along keeps (part.arriving resolver v)).map (outline full)) →
      Token.Compatible keeps full (part.arriving resolver v)) (v : Fin part.size) :
    ((along keeps (whole.arriving resolver' (h.place v))).map (outline full)).Perm
      ((along keeps (part.arriving resolver v)).map (outline full)) := by
  induction v using (acyclic_objectsBehind hpart).wellFounded.induction with
  | _ v ih =>
    have hdeparting : ∀ link ∈ part.objectLinksInto v,
        ((along keeps (whole.departing resolver' (h.place link.source))).map (outline full)).Perm
          ((along keeps (part.departing resolver link.source)).map (outline full)) := by
      intro link hlink
      obtain ⟨hmem, rfl, hobjects⟩ := mem_objectLinksInto_iff.mp hlink
      have hperm := ih link.source (target_mem_objectsBehind hmem hobjects)
      rw [departing, departing, h.node_eq]
      exact (part.node link.source).perm_sends hresolver hclosed hperm fun hmerge =>
        ⟨hcompatible _ hmerge, hcompatible' _ hmerge hperm⟩
    have hleft : (along keeps (whole.arriving resolver' (h.place v))).Perm
        ((part.objectLinksInto v).flatMap fun link =>
          along keeps (whole.departing resolver' (h.place link.source))) := by
      rw [← h.along_flatMap_objectLinksInto houtside]
      exact (arriving_perm hwhole resolver' (h.place v)).filter _
    have hright : (along keeps (part.arriving resolver v)).Perm
        ((part.objectLinksInto v).flatMap fun link =>
          along keeps (part.departing resolver link.source)) :=
      ((arriving_perm hpart resolver v).filter _).trans (.of_eq List.filter_flatMap)
    refine (hleft.map _).trans (List.Perm.trans ?_ (hright.map _).symm)
    rw [List.map_flatMap, List.map_flatMap]
    exact List.Perm.flatMap_left _ hdeparting

end Network.Part

end SceneFlow
