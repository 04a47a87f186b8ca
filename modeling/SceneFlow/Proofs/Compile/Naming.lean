import Mathlib
import SceneFlow.Proofs.Compile.Delivery
import SceneFlow.Proofs.Compile.Invariant
import SceneFlow.Proofs.Compile.Joining
import SceneFlow.Proofs.Motion.Rendering
import SceneFlow.Proofs.Text.Split

/-!
# What the names of objects tell

The name of an object is written as one text: the name of its drawable node and, behind it, the
marks that duplicate nodes have left. A mark starts with a number sign and ends in a point and the
number of the copy. So where no drawable node and no duplicate node has a number sign in its own
name, objects with one name are of one line, and no merge node joins others.

## Main definitions

* `Token.Legible`: the names that the name of a token is made of hold no number sign.
* `Network.Legible`: nor do the names of drawable nodes and duplicate nodes.

## Main results

* `Token.line_eq_of_name`: the name of a legible token tells its line.
* `Network.Legible.invariant`: all tokens of a legible network are legible.
-/

namespace SceneFlow

/-! ### Reading marks -/

namespace CopyMark

variable {mark other : CopyMark}

/-- The mark without its number sign. -/
def label (mark : CopyMark) : List Char :=
  mark.node.text.toList ++ '.' :: (toString mark.number).toList

theorem toList_text (mark : CopyMark) : mark.text.toList = '#' :: mark.label := by
  simp [text, label]

theorem notMem_number {c : Char} (h : c.isDigit = false) (n : ℕ) : c ∉ (toString n).toList := by
  intro hmem
  have hdigit := Nat.isDigit_of_mem_toDigits (b := 10) (n := n) (by decide) (by decide)
    (c := c) (by simpa using hmem)
  exact Bool.false_ne_true (h.symm.trans hdigit)

/-- A mark can be read off its label: the number stands behind the last point. -/
theorem eq_of_label (h : mark.label = other.label) : mark = other := by
  have hsplit := congrArg (List.splitOn '.') h
  rw [label, label, Text.splitOn_append_cons _ (notMem_number (by decide) _),
    Text.splitOn_append_cons _ (notMem_number (by decide) _)] at hsplit
  obtain ⟨hnode, hnumber⟩ := List.append_inj' hsplit rfl
  obtain ⟨⟨node⟩, number⟩ := mark
  obtain ⟨⟨node'⟩, number'⟩ := other
  have htext : node = node' := String.toList_inj.mp (Text.splitOn_injective hnode)
  have hvalue : number = number' :=
    Nat.repr_injective (String.toList_inj.mp (List.singleton_inj.mp hnumber))
  rw [htext, hvalue]

end CopyMark

/-! ### Reading names -/

namespace Token

variable {token other : Token}

/-- The names that the name of a token is made of hold no number sign. -/
def Legible (token : Token) : Prop :=
  '#' ∉ token.origin.text.toList ∧ ∀ mark ∈ token.copies, '#' ∉ mark.node.text.toList

/-- Between the number signs of a name stand its parts. -/
theorem splitOn_marks (text : String) {marks : List CopyMark} (htext : '#' ∉ text.toList)
    (hmarks : ∀ mark ∈ marks, '#' ∉ mark.node.text.toList) :
    (marks.foldl (fun text mark => text ++ mark.text) text).toList.splitOn '#' =
      text.toList :: marks.map CopyMark.label := by
  induction marks using List.reverseRecOn with
  | nil => exact List.splitOn_eq_singleton htext
  | append_singleton marks mark ih =>
    obtain ⟨hmarks, hmark⟩ := List.forall_mem_append.mp hmarks
    have hlabel : '#' ∉ mark.label := by
      rw [CopyMark.label, List.mem_append, List.mem_cons, not_or, not_or]
      exact ⟨hmark mark (List.mem_singleton_self mark), by decide,
        CopyMark.notMem_number (by decide) _⟩
    rw [List.foldl_append, List.foldl_cons, List.foldl_nil, String.toList_append,
      CopyMark.toList_text, Text.splitOn_append_cons _ hlabel, ih hmarks, List.map_append]
    rfl

/-- What a name is made of can be read off it. -/
theorem eq_of_marked {text text' : String} {marks marks' : List CopyMark}
    (htext : '#' ∉ text.toList) (htext' : '#' ∉ text'.toList)
    (hmarks : ∀ mark ∈ marks, '#' ∉ mark.node.text.toList)
    (hmarks' : ∀ mark ∈ marks', '#' ∉ mark.node.text.toList)
    (h : marks.foldl (fun text mark => text ++ mark.text) text =
      marks'.foldl (fun text mark => text ++ mark.text) text') : text = text' ∧ marks = marks' := by
  have hsplit := splitOn_marks text htext hmarks
  rw [h, splitOn_marks text' htext' hmarks', List.cons.injEq] at hsplit
  exact ⟨String.toList_inj.mp hsplit.1.symm,
    List.map_injective_iff.mpr (fun _ _ => CopyMark.eq_of_label) hsplit.2.symm⟩

/-- The name of a legible token tells its line. -/
theorem line_eq_of_name (h : token.Legible) (hother : other.Legible)
    (hname : token.name = other.name) : token.line = other.line := by
  obtain ⟨horigin, hcopies⟩ := eq_of_marked h.1 hother.1 h.2 hother.2 (NodeId.mk.inj hname)
  rw [line, line, NodeId.eq_iff_text.mpr horigin, hcopies]

end Token

/-! ### Legible names in a run -/

/-- Whether the name of a node becomes part of the names of objects. -/
def NodeKind.isNaming : NodeKind → Bool
  | geometry _ | duplicate _ => true
  | _ => false

namespace Network

variable {net : Network} {settings : FlowSettings}

/-- No drawable node and no duplicate node has a number sign in its name. -/
def Legible (net : Network) : Prop :=
  ∀ v, (net.node v).kind.isNaming = true → '#' ∉ (net.id v).text.toList

instance (net : Network) : Decidable net.Legible :=
  inferInstanceAs (Decidable (∀ _, _))

/-- All tokens of a legible network are legible. -/
theorem Legible.invariant (h : net.Legible) (settings : FlowSettings) :
    net.Invariant settings (fun _ => Token.Legible) fun _ => Token.Legible where
  seed v data hkind := ⟨h v (by rw [hkind]; rfl), fun _ hmark => absurd hmark List.not_mem_nil⟩
  join v _ harrived r hr := by
    obtain ⟨t, ht, horigin, hcopies⟩ := Token.exists_mem_of_mem_join hr
    rw [Token.Legible, ← horigin, ← hcopies]
    exact harrived t ht
  carry v _ t _ ht r hr := by
    cases Node.carries_of_mem_carry hr with
    | pass | insert | restyle => exact ht
    | animate data hkind hanimate =>
      obtain ⟨rendered, -, rfl⟩ := Animation.animate_fst_eq_some_iff.mp hanimate
      exact ht
    | copy data hkind number =>
      refine ⟨ht.1, List.forall_mem_append.mpr ⟨ht.2, ?_⟩⟩
      rw [List.forall_mem_singleton]
      exact h v (by rw [hkind]; rfl)
  move _ _ _ _ ht := ht

/-- Where no drawable node and no duplicate node has a number sign in its name, tokens of one name
come from one drawable node through the same copies, in every run, be there errors or not. So a
merge node joins only such tokens, and keeps one of each object that arrives. -/
theorem line_eq_of_legible {net : Network} (h : net.Legible) (settings : FlowSettings) :
    (∀ token other, net.HasToken settings token → net.HasToken settings other →
      token.name = other.name → token.origin = other.origin ∧ token.copies = other.copies) ∧
    ∀ v, (net.node v).kind.isMerge = true → ∀ token ∈ (net.flow settings).arrived v,
      ∃ result ∈ Token.join ((net.flow settings).arrived v), result.name = token.name ∧
        result.origin = token.origin ∧ result.copies = token.copies := by
  have hinvariant := h.invariant settings
  have hline : ∀ {token other : Token}, token.Legible → other.Legible → token.name = other.name →
      token.origin = other.origin ∧ token.copies = other.copies := fun hl hl' hname =>
    Prod.mk.inj (Token.line_eq_of_name hl hl' hname)
  refine ⟨fun token other htoken hother => hline (hinvariant.of_hasToken htoken)
    (hinvariant.of_hasToken hother), fun v hmerge token htoken => ?_⟩
  obtain ⟨result, hresult, hname⟩ := Token.exists_mem_join htoken
  exact ⟨result, hresult, hname, hline
    (hinvariant.join v hmerge (fun _ => hinvariant.of_mem_arrived) result hresult)
    (hinvariant.of_mem_arrived htoken) hname⟩

end Network

/-! ### Networks that copy and join -/

/-- The circle `a` reaches the merge node `m` along two links, one of them through the duplicate
node `d`. -/
def copyAndJoin : Network :=
  .ofLinks
    #[⟨⟨"a"⟩, "", .geometry .plainCircle⟩, ⟨⟨"d"⟩, "", .duplicate ⟨1, .zero⟩⟩,
      ⟨⟨"m"⟩, "", .merge ⟨2⟩⟩, ⟨⟨"s"⟩, "", .terminal .video .small⟩]
    [⟨⟨⟨"e1"⟩, ⟨"a"⟩, ⟨""⟩, ⟨"d"⟩, ⟨""⟩⟩, 0, 1⟩,
      ⟨⟨⟨"e2"⟩, ⟨"a"⟩, ⟨""⟩, ⟨"m"⟩, ⟨"input-0"⟩⟩, 0, 2⟩,
      ⟨⟨⟨"e3"⟩, ⟨"d"⟩, ⟨""⟩, ⟨"m"⟩, ⟨"input-1"⟩⟩, 1, 2⟩,
      ⟨⟨⟨"e4"⟩, ⟨"m"⟩, ⟨""⟩, ⟨"s"⟩, ⟨""⟩⟩, 2, 3⟩]
    [] ⟨0, 0⟩

/-- The merge node of the network. -/
def copyAndJoinMerge : Fin copyAndJoin.size :=
  ⟨2, by decide⟩

/-- How small networks are sent through without overrides. -/
def FlowSettings.plain : FlowSettings :=
  ⟨⟨.empty, .empty, none⟩, .warning, 100⟩

/-- Three tokens arrive at the merge node, two of one name, and each finds its own object. -/
theorem line_eq_of_legible_copyAndJoin :
    ((copyAndJoin.flow .plain).arrived copyAndJoinMerge).map (fun token => token.name.text) =
        ["a", "a", "a#d.1"] ∧
      ∀ token ∈ (copyAndJoin.flow .plain).arrived copyAndJoinMerge,
        ∃ result ∈ Token.join ((copyAndJoin.flow .plain).arrived copyAndJoinMerge),
          result.name = token.name ∧ result.origin = token.origin ∧
            result.copies = token.copies :=
  ⟨by decide +kernel,
    (Network.line_eq_of_legible (by decide) .plain).2 copyAndJoinMerge (by decide)⟩

/-- In an accepted network two tokens of one name may come from two drawable nodes, and meet. -/
theorem exists_origin_ne_of_name_eq :
    ¬ ∀ (net : Network) (limits : Limits) (prepared : Prepared),
        net.prepare limits = .ok prepared → ∀ (settings : FlowSettings) (token other : Token),
          net.HasToken settings token → net.HasToken settings other → token.name = other.name →
            token.origin = other.origin ∧ token.copies = other.copies := by
  intro hclaim
  let merge : Fin sharedName.size := ⟨3, by decide⟩
  have hmeet : ((sharedName.flow .plain).arrived merge).any (fun token =>
      ((sharedName.flow .plain).arrived merge).any fun other =>
        token.name = other.name && token.origin ≠ other.origin) = true := by
    decide +kernel
  have haccepted : (sharedName.prepare .standard).isOk = true := by
    decide +kernel
  match hprepare : sharedName.prepare .standard with
  | .error _ => simp [hprepare, Except.isOk, Except.toBool] at haccepted
  | .ok prepared =>
    obtain ⟨token, htoken, hmeet⟩ := List.any_eq_true.mp hmeet
    obtain ⟨other, hother, hmeet⟩ := List.any_eq_true.mp hmeet
    rw [Bool.and_eq_true, decide_eq_true_iff, decide_eq_true_iff] at hmeet
    exact hmeet.2 (hclaim sharedName .standard prepared hprepare .plain token other
      (.inl ⟨merge, htoken⟩) (.inl ⟨merge, hother⟩) hmeet.1).1

end SceneFlow
