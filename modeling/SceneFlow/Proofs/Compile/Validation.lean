import Mathlib
import SceneFlow.Compile.Compilation
import SceneFlow.Proofs.Digraph.Walk
import SceneFlow.Proofs.Entries

/-!
# Validated networks

Validation looks at a network from several sides, each with findings of its own. Together they say
that the network is sound: its nodes have names of their own and payloads that can be compiled, one
of them is the terminal, objects run only into nodes that let them pass, and no links run in a
circle. This is all that the flow of objects relies on.

## Main definitions

* `Finding.gravity`: how grave a finding is.
* `Network.Sound`: what validation makes sure of.

## Main results

* `Network.sound_iff`: validation finds no error exactly in sound networks.
* `Network.prepare_eq_ok_iff`: what it takes to prepare a network, and what comes of it.
-/

namespace SceneFlow

theorem NodeId.eq_iff_text {id other : NodeId} : id = other ↔ id.text = other.text :=
  ⟨congrArg text, congrArg mk⟩

/-! ### Kinds of nodes -/

namespace NodeKind

variable {kind : NodeKind}

theorem exists_of_isDrawable (h : kind.isDrawable = true) : ∃ data, kind = .geometry data := by
  match kind with
  | .geometry data => exact ⟨data, rfl⟩

theorem exists_of_isMerge (h : kind.isMerge = true) : ∃ data, kind = .merge data := by
  match kind with
  | .merge data => exact ⟨data, rfl⟩

theorem exists_of_isTerminal (h : kind.isTerminal = true) :
    ∃ output canvas, kind = .terminal output canvas := by
  match kind with
  | .terminal output canvas => exact ⟨output, canvas, rfl⟩

theorem isTerminal_of_isDrawable (h : kind.isDrawable = true) : kind.isTerminal = false := by
  obtain ⟨_, rfl⟩ := exists_of_isDrawable h
  rfl

theorem isDrawable_of_isMerge (h : kind.isMerge = true) : kind.isDrawable = false := by
  obtain ⟨_, rfl⟩ := exists_of_isMerge h
  rfl

theorem isDrawable_of_isValue (h : kind.isValue = true) : kind.isDrawable = false := by
  cases kind <;> first | rfl | cases h

/-- A merge node lets every object pass. -/
theorem admits_of_isMerge (h : kind.isMerge = true) (object : NodeId) :
    kind.admits object = true := by
  obtain ⟨_, rfl⟩ := exists_of_isMerge h
  rfl

end NodeKind

/-! ### Findings -/

namespace Finding

/-- How grave a finding is. -/
def gravity : Finding → Severity
  | dangling _ | stale _ | deadEnd _ _ | early _ | late _ _ => .warning
  | unconnected _ severity | notInserted _ _ severity => severity
  | _ => .error

theorem isError_iff (finding : Finding) : finding.isError ↔ finding.gravity = .error := by
  rw [isError, Diagnostic.isError, decide_eq_true_iff]
  cases finding <;> rfl

/-- There is no error among some findings. -/
def NoError (findings : List Finding) : Prop :=
  ∀ finding ∈ findings, finding.gravity = .warning

theorem gravity_eq_warning_iff (finding : Finding) :
    finding.gravity = .warning ↔ finding.isError = false := by
  rw [Bool.eq_false_iff, ne_eq, isError_iff]
  cases finding.gravity <;> simp

theorem noError_iff_any (findings : List Finding) :
    NoError findings ↔ findings.any isError = false := by
  simp [NoError, gravity_eq_warning_iff]

@[simp]
theorem noError_nil : NoError [] := by
  simp [NoError]

@[simp]
theorem noError_append (findings more : List Finding) :
    NoError (findings ++ more) ↔ NoError findings ∧ NoError more := by
  simp [NoError, or_imp, forall_and]

@[simp]
theorem noError_singleton (finding : Finding) : NoError [finding] ↔ finding.gravity = .warning := by
  simp [NoError]

end Finding

namespace Network

/-! ### Places -/

theorem mem_places {net : Network} (v : Fin net.size) : v ∈ net.places :=
  List.mem_finRange v

theorem nodup_places (net : Network) : net.places.Nodup :=
  List.nodup_finRange _

theorem nodeList_eq (net : Network) : net.nodeList = net.places.map net.node := by
  refine List.ext_getElem (by simp [nodeList, places]) fun i h₁ h₂ => ?_
  simp [nodeList, places, node]

/-- Where every node has a name of its own, its name finds it. -/
theorem find?_id {net : Network} (h : Function.Injective net.id) (v : Fin net.size) :
    net.find? (net.id v) = some v := by
  rw [find?, place?, Array.findFinIdx?_eq_some_iff]
  refine ⟨decide_eq_true rfl, fun u hu heq => ?_⟩
  exact absurd (h (of_decide_eq_true heq : net.id u = net.id v)) (Fin.ne_of_lt hu)

/-! ### Links -/

section Links

variable {net : Network} {v w : Fin net.size} {link : Link net.size}

theorem mem_incoming_iff : link ∈ net.incoming v ↔ link ∈ net.links ∧ link.target = v := by
  rw [incoming_eq_filter, List.mem_filter, decide_eq_true_iff]

theorem mem_outgoing_iff : link ∈ net.outgoing v ↔ link ∈ net.links ∧ link.source = v := by
  rw [outgoing_eq_filter, List.mem_filter, decide_eq_true_iff]

theorem mem_behind_iff :
    w ∈ net.behind v ↔ ∃ link ∈ net.links, link.source = v ∧ link.target = w := by
  simp only [behind, List.mem_map, mem_outgoing_iff, and_assoc]

theorem objectLinks_eq_filter (net : Network) (v : Fin net.size) :
    net.objectLinks v =
      (net.links.filter net.carriesObjects).filter fun link => link.source = v := by
  rw [objectLinks, outgoing_eq_filter, List.filter_filter, List.filter_filter]
  exact List.filter_congr fun _ _ => Bool.and_comm _ _

theorem mem_objectLinks_iff :
    link ∈ net.objectLinks v ↔
      link ∈ net.links ∧ net.carriesObjects link = true ∧ link.source = v := by
  rw [objectLinks_eq_filter, List.mem_filter, List.mem_filter, decide_eq_true_iff, and_assoc]

theorem mem_objectsBehind_iff :
    w ∈ net.objectsBehind v ↔
      ∃ link ∈ net.links, net.carriesObjects link = true ∧ link.source = v ∧ link.target = w := by
  simp only [objectsBehind, List.mem_map, mem_objectLinks_iff, and_assoc]

/-- Objects run along a link from its source to its target. -/
theorem target_mem_objectsBehind (hlink : link ∈ net.links)
    (hobjects : net.carriesObjects link = true) : link.target ∈ net.objectsBehind link.source :=
  mem_objectsBehind_iff.mpr ⟨link, hlink, hobjects, rfl, rfl⟩

end Links

/-- What validation makes sure of. -/
structure Sound (limits : Limits) (net : Network) : Prop where
  /-- There are not too many nodes. -/
  size_le : net.size ≤ limits.nodes
  /-- Exactly one node is a terminal. -/
  terminal : ∃! v, (net.node v).kind.isTerminal = true
  /-- No two nodes have one name. -/
  id_injective : Function.Injective net.id
  /-- Every node can be compiled as it is configured. -/
  nodes : ∀ v, nodeFindings limits (net.node v) = []
  /-- Variables can be told apart on the screen. -/
  names : ∀ u v, (net.node u).kind.isVariable → (net.node v).kind.isVariable →
    (net.node u).name = (net.node v).name → u = v
  /-- Every node that objects would enter lets them in. -/
  links : ∀ link ∈ net.links, net.refusal? link = none
  /-- No links run in a circle. -/
  acyclic : Digraph.Acyclic net.behind

/-! ### The sides that validation looks at -/

/-- The items of a list without repetitions that fit a predicate are one if the predicate fits
exactly one. -/
theorem exists_filter_eq_singleton_iff {α : Type} {list : List α} (hnodup : list.Nodup)
    (hall : ∀ a, a ∈ list) (p : α → Bool) :
    (∃ a, list.filter p = [a]) ↔ ∃! a, p a = true := by
  constructor
  · rintro ⟨a, ha⟩
    have hmem : ∀ b, p b = true ↔ b = a := fun b => by
      have hb : b ∈ list.filter p ↔ b ∈ [a] := by rw [ha]
      simpa [hall b] using hb
    exact ⟨a, (hmem a).mpr rfl, fun b hb => (hmem b).mp hb⟩
  · rintro ⟨a, ha, huniq⟩
    refine ⟨a, List.perm_singleton.mp ?_⟩
    refine (List.perm_ext_iff_of_nodup (hnodup.filter p) (List.nodup_singleton a)).mpr fun b => ?_
    rw [List.mem_filter, List.mem_singleton]
    exact ⟨fun hb => huniq b hb.2, fun hb => ⟨hall b, hb ▸ ha⟩⟩

theorem noError_terminalFindings_iff (net : Network) :
    Finding.NoError net.terminalFindings ↔ ∃! v, (net.node v).kind.isTerminal = true := by
  have hterminals : (net.nodeList.filter fun node => node.kind.isTerminal) =
      (net.places.filter fun v => (net.node v).kind.isTerminal).map net.node := by
    rw [nodeList_eq, List.filter_map]
    rfl
  rw [← exists_filter_eq_singleton_iff net.nodup_places mem_places, terminalFindings, hterminals]
  rcases net.places.filter fun v => (net.node v).kind.isTerminal with _ | ⟨u, _ | ⟨v, rest⟩⟩
  · simp [Finding.gravity]
  · simp
  · simp [Finding.gravity]

theorem noError_idFindings_iff (net : Network) :
    Finding.NoError net.idFindings ↔ Function.Injective net.id := by
  have hids : net.nodeList.map (fun node => node.id.text) =
      net.places.map fun v => (net.id v).text := by
    rw [nodeList_eq, List.map_map]
    rfl
  have hnodup : (net.places.map fun v => (net.id v).text).Nodup ↔ Function.Injective net.id := by
    constructor
    · intro h u v huv
      exact List.inj_on_of_nodup_map h (mem_places u) (mem_places v) (congrArg NodeId.text huv)
    · intro h
      exact net.nodup_places.map fun u v huv => h (NodeId.eq_iff_text.mpr huv)
  rw [← hnodup, idFindings, hids, List.nodup_iff_count_le_one]
  constructor
  · intro h text
    by_contra hcount
    have hmem : text ∈ net.places.map fun v => (net.id v).text :=
      List.count_pos_iff.mp (by omega)
    have hfinding := h (.repeatedId ⟨text⟩) (List.mem_map.mpr ⟨text, by
      simpa [mem_sortedTexts] using ⟨by simpa using hmem, by omega⟩, rfl⟩)
    simp [Finding.gravity] at hfinding
  · intro h finding hfinding
    obtain ⟨text, htext, rfl⟩ := List.mem_map.mp hfinding
    have hcount : 1 < List.count text (net.places.map fun v => (net.id v).text) := by
      simpa using (List.mem_filter.mp htext).2
    exact absurd hcount (by simpa using h text)

theorem gravity_nodeFindings {limits : Limits} {node : Node} {finding : Finding}
    (h : finding ∈ nodeFindings limits node) : finding.gravity = .error := by
  rw [nodeFindings, List.mem_append] at h
  rcases h with h | h
  · obtain ⟨problem, -, rfl⟩ := List.mem_map.mp h
    rfl
  · split at h
    · dsimp only at h
      split at h
      · rw [List.mem_singleton.mp h]
        rfl
      · simp at h
    · split at h
      · simp at h
      · rw [List.mem_singleton.mp h]
        rfl
    · simp at h

theorem noError_nodeFindings_iff (net : Network) (limits : Limits) :
    Finding.NoError (net.nodeList.flatMap (nodeFindings limits)) ↔
      ∀ v, nodeFindings limits (net.node v) = [] := by
  rw [nodeList_eq, List.flatMap_map]
  constructor
  · intro h v
    refine List.eq_nil_iff_forall_not_mem.mpr fun finding hfinding => ?_
    have hwarning := h finding (List.mem_flatMap.mpr ⟨v, mem_places v, hfinding⟩)
    rw [gravity_nodeFindings hfinding] at hwarning
    simp at hwarning
  · intro h finding hfinding
    obtain ⟨v, -, hv⟩ := List.mem_flatMap.mp hfinding
    rw [h v] at hv
    simp at hv

/-- Of a list without repetitions fewer than two items fit a predicate if no two do. -/
private theorem length_filter_lt_two_iff {α : Type} {list : List α} (hnodup : list.Nodup)
    (hall : ∀ a, a ∈ list) (p : α → Bool) :
    (list.filter p).length < 2 ↔ ∀ a b, p a → p b → a = b := by
  constructor
  · intro h a b ha hb
    match hlist : list.filter p with
    | [] => simpa [hlist, ha] using (List.mem_filter (p := p)).mpr ⟨hall a, ha⟩
    | [c] =>
      have hmem : ∀ x, p x → x = c := fun x hx => by
        have hx := List.mem_filter.mpr ⟨hall x, hx⟩
        rw [hlist] at hx
        exact List.mem_singleton.mp hx
      rw [hmem a ha, hmem b hb]
    | c :: d :: rest => simp [hlist] at h
  · intro h
    by_contra hlength
    match hlist : list.filter p with
    | [] | [_] => simp [hlist] at hlength
    | c :: d :: rest =>
      have hp : ∀ x ∈ c :: d :: rest, p x := fun x hx => by
        rw [← hlist] at hx
        exact (List.mem_filter.mp hx).2
      have hne := hnodup.filter p
      rw [hlist] at hne
      simp [h c d (hp c (by simp)) (hp d (by simp))] at hne

theorem noError_nameFindings_iff (net : Network) :
    Finding.NoError net.nameFindings ↔
      ∀ u v, (net.node u).kind.isVariable → (net.node v).kind.isVariable →
        (net.node u).name = (net.node v).name → u = v := by
  -- The variables with one name, by their places.
  have hshare : ∀ name : String,
      (((net.nodeList.filter fun node => node.kind.isVariable).filter fun node =>
          node.name = name).map Node.id).length < 2 ↔
        ∀ u v, ((net.node u).kind.isVariable ∧ (net.node u).name = name) →
          ((net.node v).kind.isVariable ∧ (net.node v).name = name) → u = v := by
    intro name
    rw [nodeList_eq, List.length_map, List.filter_filter, List.filter_map, List.length_map,
      length_filter_lt_two_iff net.nodup_places mem_places]
    simp [and_comm]
  constructor
  · intro h u v hu hv hname
    refine (hshare (net.node u).name).mp ?_ u v ⟨hu, rfl⟩ ⟨hv, hname.symm⟩
    by_contra hlength
    have hmem : (net.node u).name ∈ sortedTexts
        ((net.nodeList.filter fun node => node.kind.isVariable).map Node.name) := by
      rw [mem_sortedTexts, nodeList_eq]
      exact List.mem_map.mpr ⟨net.node u,
        List.mem_filter.mpr ⟨List.mem_map.mpr ⟨u, mem_places u, rfl⟩, hu⟩, rfl⟩
    have hfinding := h _ (List.mem_filterMap.mpr ⟨_, hmem, if_neg hlength⟩)
    simp [Finding.gravity] at hfinding
  · intro h finding hfinding
    obtain ⟨name, -, hname⟩ := List.mem_filterMap.mp hfinding
    dsimp only at hname
    rw [if_pos ((hshare name).mpr fun u v hu hv => h u v hu.1 hv.1 (hu.2.trans hv.2.symm))] at hname
    simp at hname

theorem noError_edgeFindings_iff (net : Network) :
    Finding.NoError net.edgeFindings ↔ ∀ link ∈ net.links, net.refusal? link = none := by
  rw [edgeFindings, Finding.noError_append]
  constructor
  · rintro ⟨-, h⟩ link hlink
    match hrefusal : net.refusal? link with
    | none => rfl
    | some refusal =>
      have hfinding := h _ (List.mem_filterMap.mpr ⟨link, hlink, by rw [hrefusal]; rfl⟩)
      simp [Finding.gravity] at hfinding
  · intro h
    refine ⟨fun finding hfinding => ?_, fun finding hfinding => ?_⟩
    · obtain ⟨dangling, -, rfl⟩ := List.mem_map.mp hfinding
      rfl
    · obtain ⟨link, hlink, hrefusal⟩ := List.mem_filterMap.mp hfinding
      simp [h link hlink] at hrefusal

theorem noError_cycle_iff (net : Network) :
    Finding.NoError (net.findCycle?.toList.map .cycle) ↔ Digraph.Acyclic net.behind := by
  rw [← Digraph.closedPath?_eq_none_iff, findCycle?]
  cases Digraph.closedPath? net.behind <;> simp [Finding.gravity]

theorem gravity_terminalFindings {net : Network} {finding : Finding}
    (h : finding ∈ net.terminalFindings) : finding.gravity = .error := by
  rw [terminalFindings] at h
  split at h
  · rw [List.mem_singleton.mp h]
    rfl
  · exact absurd h List.not_mem_nil
  · rw [List.mem_singleton.mp h]
    rfl

theorem gravity_idFindings {net : Network} {finding : Finding} (h : finding ∈ net.idFindings) :
    finding.gravity = .error := by
  obtain ⟨_, -, rfl⟩ := List.mem_map.mp h
  rfl

theorem gravity_nameFindings {net : Network} {finding : Finding} (h : finding ∈ net.nameFindings) :
    finding.gravity = .error := by
  obtain ⟨name, -, hname⟩ := List.mem_filterMap.mp h
  dsimp only at hname
  split at hname
  · cases hname
  · rw [← Option.some.inj hname]
    rfl

/-- The only warnings of validation are about edges that are not attached. -/
theorem eq_dangling_of_mem_findings {net : Network} {limits : Limits} {finding : Finding}
    (h : finding ∈ net.findings limits) (hwarning : finding.gravity = .warning) :
    ∃ edge ∈ net.dangling, finding = .dangling edge := by
  have hnot : finding.gravity ≠ .error := by simp [hwarning]
  rw [findings] at h
  split at h
  · rw [List.mem_singleton.mp h] at hwarning
    cases hwarning
  · simp only [List.mem_append] at h
    rcases h with ((((h | h) | h) | h) | h) | h
    · exact absurd (gravity_terminalFindings h) hnot
    · exact absurd (gravity_idFindings h) hnot
    · obtain ⟨node, -, hmem⟩ := List.mem_flatMap.mp h
      exact absurd (gravity_nodeFindings hmem) hnot
    · exact absurd (gravity_nameFindings h) hnot
    · rcases List.mem_append.mp h with h | h
      · obtain ⟨edge, hedge, heq⟩ := List.mem_map.mp h
        exact ⟨edge, hedge, heq.symm⟩
      · obtain ⟨link, -, hlink⟩ := List.mem_filterMap.mp h
        obtain ⟨refusal, -, rfl⟩ := Option.map_eq_some_iff.mp hlink
        exact absurd rfl hnot
    · obtain ⟨_, -, rfl⟩ := List.mem_map.mp h
      exact absurd rfl hnot

/-- Validation finds no error exactly in sound networks. -/
theorem sound_iff (limits : Limits) (net : Network) :
    Finding.NoError (net.findings limits) ↔ Sound limits net := by
  rw [findings]
  split
  · rename_i hsize
    simp only [Finding.noError_singleton, Finding.gravity, reduceCtorEq, false_iff]
    exact fun h => absurd h.size_le (by omega)
  · rename_i hsize
    simp only [Finding.noError_append, noError_terminalFindings_iff, noError_idFindings_iff,
      noError_nodeFindings_iff, noError_nameFindings_iff, noError_edgeFindings_iff,
      noError_cycle_iff]
    constructor
    · rintro ⟨⟨⟨⟨⟨hterminal, hid⟩, hnodes⟩, hnames⟩, hlinks⟩, hacyclic⟩
      exact ⟨by omega, hterminal, hid, hnodes, hnames, hlinks, hacyclic⟩
    · intro h
      exact ⟨⟨⟨⟨⟨h.terminal, h.id_injective⟩, h.nodes⟩, h.names⟩, h.links⟩, h.acyclic⟩

/-- In a sound network validation finds the dangling edges and nothing else. -/
theorem Sound.findings_eq {limits : Limits} {net : Network} (h : Sound limits net) :
    net.findings limits = net.dangling.map .dangling := by
  have hnil : ∀ {list : List Finding}, Finding.NoError list →
      (∀ finding ∈ list, finding.gravity = .error) → list = [] := by
    refine fun hlist herrors => List.eq_nil_iff_forall_not_mem.mpr fun finding hmem => ?_
    cases (hlist finding hmem).symm.trans (herrors finding hmem)
  have hterminals := hnil ((noError_terminalFindings_iff net).mpr h.terminal) fun _ =>
    gravity_terminalFindings
  have hids := hnil ((noError_idFindings_iff net).mpr h.id_injective) fun _ => gravity_idFindings
  have hnames := hnil ((noError_nameFindings_iff net).mpr h.names) fun _ => gravity_nameFindings
  have hnodes : net.nodeList.flatMap (nodeFindings limits) = [] := by
    rw [nodeList_eq, List.flatMap_map]
    exact List.flatMap_eq_nil_iff.mpr fun v _ => h.nodes v
  have hlinks : (net.links.filterMap fun link => (net.refusal? link).map fun refusal =>
      Finding.refused link.edge.id (net.id link.source) (net.id link.target) refusal) = [] :=
    List.filterMap_eq_nil_iff.mpr fun link hlink => by rw [h.links link hlink, Option.map_none]
  have hcycle : net.findCycle? = none := by
    rw [findCycle?, Option.map_eq_none_iff, Digraph.closedPath?_eq_none_iff]
    exact h.acyclic
  rw [findings, if_neg (Nat.not_lt.mpr h.size_le), hterminals, hids, hnodes, hnames, hcycle,
    edgeFindings, hlinks]
  simp

/-! ### Preparation -/

/-- If only one item of a list without repetitions has an image, the images are this one. -/
private theorem filterMap_eq_singleton {α β : Type} {list : List α} {f : α → Option β} {a : α}
    {b : β} (hnodup : list.Nodup) (ha : a ∈ list) (hb : f a = some b)
    (hother : ∀ c, c ≠ a → f c = none) : list.filterMap f = [b] := by
  obtain ⟨pre, post, rfl⟩ := List.append_of_mem ha
  rw [List.nodup_append, List.nodup_cons] at hnodup
  have hpre : pre.filterMap f = [] :=
    List.filterMap_eq_nil_iff.mpr fun c hc => hother c (hnodup.2.2 c hc a (by simp))
  have hpost : post.filterMap f = [] :=
    List.filterMap_eq_nil_iff.mpr fun c hc => hother c fun heq => hnodup.2.1.1 (heq ▸ hc)
  simp [hpre, hpost, hb]

/-- The terminal of a sound network. -/
theorem Sound.exists_terminal {limits : Limits} {net : Network} (h : Sound limits net) :
    ∃ v output canvas, (net.node v).kind = .terminal output canvas ∧
      (∀ u, (net.node u).kind.isTerminal → u = v) ∧ net.terminal? = some (output, canvas) := by
  obtain ⟨v, hv, huniq⟩ := h.terminal
  obtain ⟨output, canvas, hkind⟩ := NodeKind.exists_of_isTerminal hv
  refine ⟨v, output, canvas, hkind, huniq, ?_⟩
  have hterminals : net.terminals = [(output, canvas)] := by
    rw [terminals, nodeList_eq, List.filterMap_map]
    refine filterMap_eq_singleton net.nodup_places (mem_places v) (by simp [hkind]) fun u hu => ?_
    rw [Function.comp_apply]
    split
    · rename_i hterminal
      exact absurd (huniq u (by simp [hterminal, NodeKind.isTerminal])) hu
    · rfl
  rw [terminal?, hterminals]

/-- What it takes to prepare a network, and what comes of it. -/
theorem prepare_eq_ok_iff {limits : Limits} {net : Network} {prepared : Prepared} :
    net.prepare limits = .ok prepared ↔
      Sound limits net ∧ ∃ output canvas values, net.terminal? = some (output, canvas) ∧
        net.evaluate = .ok values ∧
        prepared = ⟨net, output, canvas, limits.instances, values, net.findings limits⟩ := by
  rw [← sound_iff, Finding.noError_iff_any, prepare]
  by_cases herror : (net.findings limits).any Finding.isError = true
  · simp [herror]
  · rw [if_neg herror]
    simp only [Bool.not_eq_true] at herror
    match net.terminal?, net.evaluate with
    | none, _ => simp
    | some (output, canvas), .error cause => simp
    | some (output, canvas), .ok values => simp [herror, eq_comm]

/-- What is prepared is sound. -/
theorem sound_of_prepare {limits : Limits} {net : Network} {prepared : Prepared}
    (h : net.prepare limits = .ok prepared) :
    Sound limits prepared.network ∧ Finding.NoError prepared.findings := by
  obtain ⟨hsound, _, _, _, -, -, rfl⟩ := prepare_eq_ok_iff.mp h
  exact ⟨hsound, (sound_iff limits net).mpr hsound⟩

theorem network_of_prepare {limits : Limits} {net : Network} {prepared : Prepared}
    (h : net.prepare limits = .ok prepared) : prepared.network = net := by
  obtain ⟨-, _, _, _, -, -, rfl⟩ := prepare_eq_ok_iff.mp h
  rfl

end Network

end SceneFlow
