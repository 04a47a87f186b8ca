import SceneFlow.Proofs.Compile.Validation
import SceneFlow.Proofs.Graph.Upstream

/-!
# How objects are shared out among links

The objects that reach a node are shared out among the links that leave it. Each link claims those
that are still free and pass its target, and leaves the others to the links behind it. So when the
turn of an edge comes, taken is what passes the target of a link before it. A link to a merge node
may claim what is taken; any other link has the rest, so no two of these claim one object.

## Main definitions

* `Network.Reaches`: an object can reach a node.
* `Network.ClaimedBefore`: a link before those of an edge would claim an object.
* `Network.HandsOn`: an object goes on from a node along a link.
* `Network.IsShare`: the share of a link in the objects at the node that it leaves.
* `Network.Claims`: a link claims an object.

## Main results

* `Network.mem_objectsAt`: the objects that are shared out.
* `Network.exists_shareOut_eq_ok`: what an edge gets, and what is taken then, in turn.
* `Network.exists_branch_eq_ok`: what is taken before an edge of a network without circles.
* `Network.IsShare.perm`, `Network.IsShare.mem_taken_iff_claims`: shares split the objects, and
  taken is what has been claimed.
* `Network.branch_spec`: which edges have shares, and which.
-/

namespace SceneFlow

namespace Network

variable {graph : Graph} {net : Network} {v : Fin net.size} {edge : EdgeId} {id object : NodeId}
  {objects : List NodeId} {earlier : List (Link net.size)} {link : Link net.size}
  {share : BranchAvailability}

/-- From the drawable node of an object one can get to a place with nothing drawable on the way. -/
def Reaches (net : Network) (object : NodeId) (v : Fin net.size) : Prop :=
  ∃ d, net.id d = object ∧ net.drawable d = true ∧
    Relation.ReflTransGen (net.Passes net.carriesObjects net.drawable) d v

/-- Among links that share out objects, one before those of an edge lets an object pass. -/
def ClaimedBefore (net : Network) (links : List (Link net.size)) (edge : EdgeId)
    (object : NodeId) : Prop :=
  ∃ earlier ∈ links.takeWhile fun link => link.edge.id ≠ edge,
    (net.node earlier.target).kind.admits object = true

/-- A link hands an object on from a node. -/
structure HandsOn (net : Network) (object : NodeId) (v : Fin net.size) (link : Link net.size) :
    Prop where
  /-- Objects leave the node along the link. -/
  mem : link ∈ net.objectLinks v
  /-- The node that it enters lets the object pass. -/
  admits : (net.node link.target).kind.admits object = true

/-- One of some links lets an object pass. -/
def admittedBy (net : Network) (links : List (Link net.size)) (object : NodeId) : Bool :=
  links.any fun link => (net.node link.target).kind.admits object

theorem admittedBy_eq_true_iff : net.admittedBy earlier object = true ↔
    ∃ other ∈ earlier, (net.node other.target).kind.admits object = true :=
  List.any_eq_true

/-- The objects that are looked up at a place are those that can reach it. -/
theorem mem_objectsAt {objects : List NodeId} (h : net.objectsAt v = .ok objects)
    (object : NodeId) : object ∈ objects ↔ net.Reaches object v := by
  rw [objectsAt, walkUp] at h
  split at h
  · rename_i trail hwalk
    obtain rfl := Except.ok.inj h
    obtain ⟨-, hvisited⟩ := Digraph.visited_walkFrom hwalk
    simp only [List.mem_map, List.mem_filter, List.mem_reverse, hvisited, meets_before_iff]
    constructor
    · rintro ⟨d, ⟨hreach, hdrawable⟩, hid⟩
      exact ⟨d, hid, hdrawable, hreach⟩
    · rintro ⟨d, hid, hdrawable, hreach⟩
      exact ⟨d, ⟨hreach, hdrawable⟩, hid⟩
  · cases h

/-! ### Sharing out -/

/-- Of the links of an edge there is a first one. -/
theorem exists_first_link {links : List (Link net.size)}
    (h : ∃ link ∈ links, link.edge.id = edge) :
    ∃ link, links.find? (fun link => link.edge.id = edge) = some link := by
  rw [← Option.isSome_iff_exists, List.find?_isSome]
  simpa using h

/-- The links before the first one of an edge claim, in turn, the free objects that one of them lets
pass. The edge gets the others, or everything where its link enters a merge node. -/
theorem exists_shareOut_eq_ok (all : List NodeId) {pre : List (Link net.size)}
    (hpre : ∀ other ∈ pre, other.edge.id ≠ link.edge.id) (post : List (Link net.size))
    (free taken : List NodeId) :
    ∃ claimed, claimed.Perm (free.filter (net.admittedBy pre)) ∧
      net.shareOut all link.edge.id (pre ++ link :: post) free taken =
        .ok ⟨if (net.node link.target).kind.isMerge then all
          else free.filter fun object => !net.admittedBy pre object, taken ++ claimed⟩ := by
  induction pre generalizing free taken with
  | nil =>
    refine ⟨[], by simp [admittedBy], ?_⟩
    rw [List.nil_append, shareOut, if_pos rfl]
    simp [admittedBy]
  | cons first pre ih =>
    rw [List.forall_mem_cons] at hpre
    let passes := (net.node first.target).kind.admits
    obtain ⟨claimed, hclaimed, hshare⟩ := ih hpre.2 (free.filter fun object => !passes object)
      (taken ++ free.filter passes)
    have hadmitted : ∀ object, net.admittedBy (first :: pre) object =
        (passes object || net.admittedBy pre object) := fun _ => List.any_cons
    refine ⟨free.filter passes ++ claimed, ?_, ?_⟩
    · -- Of the objects that pass one of the links, the first link claims some, and the links
      -- behind it claim the others.
      refine .trans (hclaimed.append_left _) (.trans ?_ (List.filter_append_perm passes _))
      rw [List.filter_filter, List.filter_filter, List.filter_filter]
      refine List.Perm.of_eq (congrArg₂ _ (List.filter_congr fun object _ => ?_)
        (List.filter_congr fun object _ => ?_)) <;>
        cases hpass : passes object <;> simp [hadmitted, hpass]
    · rw [List.cons_append, shareOut, if_neg hpre.1, List.partition_eq_filter_filter]
      refine hshare.trans ?_
      rw [List.filter_filter, List.append_assoc]
      congr 4
      funext object
      rw [hadmitted, Bool.not_or, Bool.and_comm]

/-- An edge gets what no link before its first one claims, or everything where that link enters a
merge node. What is taken then are the objects that were taken at the beginning, and those that
have been claimed. -/
theorem shareOut_spec (all : List NodeId) {links : List (Link net.size)} {link : Link net.size}
    (hlink : links.find? (fun link => link.edge.id = edge) = some link) (free taken : List NodeId) :
    ∃ share, net.shareOut all edge links free taken = .ok share ∧
      (∀ object, object ∈ share.available ↔
        if (net.node link.target).kind.isMerge then object ∈ all
        else object ∈ free ∧ ¬ net.ClaimedBefore links edge object) ∧
      ∀ object, object ∈ share.taken ↔
        object ∈ taken ∨ object ∈ free ∧ net.ClaimedBefore links edge object := by
  obtain ⟨hedge, pre, post, rfl, hpre⟩ := List.find?_eq_some_iff_append.mp hlink
  obtain rfl := of_decide_eq_true hedge
  simp only [Bool.not_eq_true', decide_eq_false_iff_not] at hpre
  have hbefore : ∀ object, net.ClaimedBefore (pre ++ link :: post) link.edge.id object ↔
      net.admittedBy pre object = true := by
    intro object
    rw [ClaimedBefore, List.takeWhile_append_of_pos (by simpa using hpre),
      List.takeWhile_cons_of_neg (by simp), List.append_nil, admittedBy_eq_true_iff]
  obtain ⟨claimed, hclaimed, hshare⟩ := exists_shareOut_eq_ok all hpre post free taken
  refine ⟨_, hshare, fun object => ?_, fun object => ?_⟩
  · rw [hbefore]
    dsimp only
    split
    · exact Iff.rfl
    · rw [List.mem_filter, Bool.not_eq_true', Bool.not_eq_true]
  · rw [hbefore, List.mem_append, hclaimed.mem_iff, List.mem_filter]

/-- Where no links run in a circle, every edge along which objects leave a node has a share. Taken
before it are the objects that reach the node and have been claimed. -/
theorem exists_branch_eq_ok (hid : Function.Injective net.id)
    (hacyclic : Digraph.Acyclic net.behind)
    (hedge : ∃ link ∈ net.objectLinks v, link.edge.id = edge) :
    ∃ share, net.branch (net.id v) edge = .ok share ∧ ∀ object, object ∈ share.taken ↔
      net.Reaches object v ∧ net.ClaimedBefore (net.objectLinks v) edge object := by
  obtain ⟨link, hlink⟩ := exists_first_link hedge
  obtain ⟨visited, hvisited⟩ := exists_walkUp_eq_ok hacyclic net.carriesObjects net.drawable v
  have hobjects : net.objectsAt v = .ok ((visited.filter net.drawable).map net.id) := by
    rw [objectsAt, hvisited]
    rfl
  obtain ⟨share, hshare, -, htaken⟩ := shareOut_spec
    ((visited.filter net.drawable).map net.id) hlink ((visited.filter net.drawable).map net.id) []
  refine ⟨share, ?_, fun object => ?_⟩
  · rw [branch, require, find?_id hid, ← hshare]
    simp only [Bind.bind, Except.bind, hobjects]
  · rw [htaken, mem_objectsAt hobjects]
    exact or_iff_right List.not_mem_nil

/-! ### Shares -/

/-- The share of a link in some objects at the node that it leaves, which the links `earlier` leave
before it. Taken is what one of these lets pass. Available is the rest, or everything where the link
enters a merge node. -/
structure IsShare (net : Network) (objects : List NodeId) (earlier : List (Link net.size))
    (link : Link net.size) (share : BranchAvailability) : Prop where
  /-- Which objects are taken. -/
  mem_taken : ∀ object, object ∈ share.taken ↔ object ∈ objects ∧
    ∃ other ∈ earlier, (net.node other.target).kind.admits object = true
  /-- None is taken twice. -/
  nodup_taken : share.taken.Nodup
  /-- Which objects are available. -/
  mem_available : ∀ object, object ∈ share.available ↔ object ∈ objects ∧
    ((net.node link.target).kind.isMerge = true ∨ object ∉ share.taken)
  /-- None is available twice. -/
  nodup_available : share.available.Nodup

/-- A link claims an object: its share has the object available, and its target lets it pass. -/
def Claims (net : Network) (objects : List NodeId) (earlier : List (Link net.size))
    (link : Link net.size) (object : NodeId) : Prop :=
  ∃ share, net.IsShare objects earlier link share ∧ object ∈ share.available ∧
    (net.node link.target).kind.admits object = true

/-- A list of what has been claimed makes a share. -/
theorem isShare_mk (hnodup : objects.Nodup) {claimed : List NodeId}
    (hclaimed : claimed.Perm (objects.filter (net.admittedBy earlier))) :
    net.IsShare objects earlier link ⟨if (net.node link.target).kind.isMerge then objects
      else objects.filter fun object => !net.admittedBy earlier object, claimed⟩ where
  mem_taken object := by
    rw [hclaimed.mem_iff, List.mem_filter, admittedBy_eq_true_iff]
  nodup_taken := hclaimed.nodup_iff.mpr (hnodup.filter _)
  mem_available object := by
    dsimp only
    rw [hclaimed.mem_iff, List.mem_filter]
    split
    · simp [*]
    · simp only [List.mem_filter, Bool.not_eq_true', not_and, Bool.not_eq_true, *]
      simp +contextual
  nodup_available := by
    dsimp only
    split
    · exact hnodup
    · exact hnodup.filter _

/-- Where the link enters no merge node, its share splits the objects. -/
theorem IsShare.perm (h : net.IsShare objects earlier link share) (hnodup : objects.Nodup)
    (hmerge : (net.node link.target).kind.isMerge = false) :
    (share.available ++ share.taken).Perm objects := by
  have havailable : ∀ object, object ∈ share.available ↔ object ∈ objects ∧ object ∉ share.taken :=
    fun object => by simp [h.mem_available, hmerge]
  have hdisjoint : share.available.Disjoint share.taken := fun object hobject =>
    ((havailable object).mp hobject).2
  refine (List.perm_ext_iff_of_nodup
    (h.nodup_available.append h.nodup_taken hdisjoint) hnodup).mpr fun object => ?_
  rw [List.mem_append, havailable]
  constructor
  · rintro (hobject | hobject)
    · exact hobject.1
    · exact ((h.mem_taken object).mp hobject).1
  · intro hobject
    by_cases htaken : object ∈ share.taken
    · exact .inr htaken
    · exact .inl ⟨hobject, htaken⟩

/-- A link claims the objects that it lets pass and that no earlier link lets pass, or all that it
lets pass where it enters a merge node. -/
theorem claims_iff (hnodup : objects.Nodup) : net.Claims objects earlier link object ↔
    object ∈ objects ∧ (net.node link.target).kind.admits object = true ∧
      ((net.node link.target).kind.isMerge = true ∨ net.admittedBy earlier object = false) := by
  have hfree : ∀ {share}, net.IsShare objects earlier link share → object ∈ objects →
      (object ∉ share.taken ↔ net.admittedBy earlier object = false) := fun hshare hobject => by
    rw [hshare.mem_taken, ← admittedBy_eq_true_iff, and_iff_right hobject, Bool.not_eq_true]
  constructor
  · rintro ⟨share, hshare, hobject, hadmits⟩
    obtain ⟨hmem, hcase⟩ := (hshare.mem_available object).mp hobject
    exact ⟨hmem, hadmits, hcase.imp_right (hfree hshare hmem).mp⟩
  · rintro ⟨hmem, hadmits, hcase⟩
    have hshare : net.IsShare objects earlier link _ := isShare_mk hnodup (List.Perm.refl _)
    exact ⟨_, hshare, (hshare.mem_available object).mpr
      ⟨hmem, hcase.imp_right (hfree hshare hmem).mpr⟩, hadmits⟩

/-- Taken is what an earlier link has claimed when it was its turn. -/
theorem IsShare.mem_taken_iff_claims (h : net.IsShare objects earlier link share)
    (hnodup : objects.Nodup) : object ∈ share.taken ↔
      ∃ pre other post, earlier = pre ++ other :: post ∧ net.Claims objects pre other object := by
  simp only [h.mem_taken, claims_iff hnodup]
  constructor
  · rintro ⟨hobject, hsome⟩
    obtain ⟨other, hother⟩ : ∃ other, earlier.find? (fun link =>
        (net.node link.target).kind.admits object) = some other := by
      rw [← Option.isSome_iff_exists, List.find?_isSome]
      exact hsome
    -- The first link that lets the object pass claims it.
    obtain ⟨hadmits, pre, post, rfl, hpre⟩ := List.find?_eq_some_iff_append.mp hother
    exact ⟨pre, other, post, rfl, hobject, hadmits,
      .inr (List.any_eq_false.mpr (by simpa using hpre))⟩
  · rintro ⟨pre, other, post, rfl, hobject, hadmits, -⟩
    exact ⟨hobject, other, by simp, hadmits⟩

/-- A link that enters no merge node claims nothing that a link before it has claimed. -/
theorem not_claims_of_claims (hnodup : objects.Nodup) {pre mid : List (Link net.size)}
    {other : Link net.size} (hother : (net.node other.target).kind.isMerge = false)
    (h : net.Claims objects pre link object) :
    ¬ net.Claims objects (pre ++ link :: mid) other object := by
  rw [claims_iff hnodup, hother]
  rintro ⟨-, -, hmerge | hfree⟩
  · cases hmerge
  · have hadmits := ((claims_iff hnodup).mp h).2.1
    rw [admittedBy, List.any_eq_false] at hfree
    exact hfree link (by simp) hadmits

/-! ### The question for a share -/

/-- Without a link of the edge there is no share. -/
theorem shareOut_eq_error_iff (all : List NodeId) {links : List (Link net.size)}
    (free taken : List NodeId) : net.shareOut all edge links free taken =
      .error (.unknownEdge edge) ↔ ∀ link ∈ links, link.edge.id ≠ edge := by
  constructor
  · intro herror
    by_contra hsome
    push Not at hsome
    obtain ⟨link, hlink⟩ := exists_first_link hsome
    obtain ⟨share, hshare, -⟩ := shareOut_spec all hlink free taken
    rw [herror] at hshare
    cases hshare
  · intro hnone
    induction links generalizing free taken with
    | nil => rfl
    | cons first links ih =>
      rw [List.forall_mem_cons] at hnone
      rw [shareOut, if_neg hnone.1]
      exact ih _ _ hnone.2

/-- Every edge along which objects leave a node has a share in the objects that reach the node, that
of its first link, and other edges have none. A share of a link that enters no merge node splits the
objects. Taken is what earlier links have claimed, and no two links that enter no merge node claim
one object. -/
theorem branch_spec (hnet : ofGraph graph = .ok net)
    (hobjects : net.upstreamObjects id = .ok objects) :
    ∃ v, net.find? id = some v ∧
      (net.objectLinks v).Pairwise (fun a b => a.edge.id.text ≤ b.edge.id.text) ∧
      (∀ edge, (∃ link ∈ net.objectLinks v, link.edge.id = edge) →
        ∃ earlier link later share, net.objectLinks v = earlier ++ link :: later ∧
          link.edge.id = edge ∧ (∀ other ∈ earlier, other.edge.id ≠ edge) ∧
          net.branch id edge = .ok share ∧ net.IsShare objects earlier link share ∧
          (∀ object, object ∈ share.taken ↔ ∃ before other after,
            earlier = before ++ other :: after ∧ net.Claims objects before other object) ∧
          ((net.node link.target).kind.isMerge = false →
            (share.available ++ share.taken).Perm objects)) ∧
      (∀ before link between other after,
        net.objectLinks v = before ++ link :: between ++ other :: after →
        (net.node link.target).kind.isMerge = false →
        (net.node other.target).kind.isMerge = false → ∀ object,
          ¬ (net.Claims objects before link object ∧
            net.Claims objects (before ++ link :: between) other object)) ∧
      ∀ edge, net.branch id edge = .error (.unknownEdge edge) ↔
        ¬ ∃ link ∈ net.objectLinks v, link.edge.id = edge := by
  obtain ⟨v, hv⟩ : ∃ v, net.find? id = some v := by
    rw [upstreamObjects, require] at hobjects
    split at hobjects
    · exact ⟨_, ‹_›⟩
    · cases hobjects
  have hnodup : objects.Nodup :=
    ((answers_upstreamObjects hnet hv).right (by rw [hobjects]; rfl)).1
  have hat : net.objectsAt v = .ok objects := by
    rw [upstreamObjects, require, hv] at hobjects
    exact hobjects
  have hbranch : ∀ edge, net.branch id edge =
      net.shareOut objects edge (net.objectLinks v) objects [] := fun edge => by
    rw [branch, require, hv]
    simp only [Bind.bind, Except.bind, hat]
  refine ⟨v, hv, pairwise_objectLinks hnet v, fun edge hedge => ?_,
    fun before link between other after _ _ hother object h =>
      not_claims_of_claims hnodup hother h.1 h.2, fun edge => ?_⟩
  · obtain ⟨link, hlink⟩ := exists_first_link hedge
    obtain ⟨hid, earlier, later, hsplit, hearlier⟩ := List.find?_eq_some_iff_append.mp hlink
    obtain rfl := of_decide_eq_true hid
    simp only [Bool.not_eq_true', decide_eq_false_iff_not] at hearlier
    obtain ⟨claimed, hclaimed, hshare⟩ :=
      exists_shareOut_eq_ok objects hearlier later objects []
    rw [← hsplit, ← hbranch, List.nil_append] at hshare
    have hisShare : net.IsShare objects earlier link _ := isShare_mk hnodup hclaimed
    exact ⟨earlier, link, later, _, hsplit, rfl, hearlier, hshare, hisShare,
      fun _ => hisShare.mem_taken_iff_claims hnodup, hisShare.perm hnodup⟩
  · rw [hbranch, shareOut_eq_error_iff]
    push Not
    rfl

end Network

/-- The circles `a` and `b` meet in the merge node `m`, which a filter for `a`, an insert node that
lets nothing pass, another insert node and a merge node are behind. -/
def sharing : Graph where
  nodes :=
    [.circle "a", .circle "b", .small "m" "merge" [],
      .small "f" "filter" [("objects", .arr [.str "a"])],
      .small "h" "insert" [("mode", .str "never")], .small "i" "insert" [], .small "n" "merge" []]
  edges :=
    [.input "e1" "a" "m" "input-0", .input "e2" "b" "m" "input-1", .plain "e3" "m" "f",
      .plain "e4" "m" "h", .plain "e5" "m" "i", .input "e6" "m" "n" "input-0"]

theorem branch_spec_sharing :
    ∃ net v, Network.ofGraph sharing = .ok net ∧
      net.upstreamObjects ⟨"m"⟩ = .ok [⟨"a"⟩, ⟨"b"⟩] ∧ net.find? ⟨"m"⟩ = some v ∧
      (∃ earlier link later, net.objectLinks v = earlier ++ link :: later ∧
        link.edge.id = ⟨"e5"⟩ ∧ net.IsShare [⟨"a"⟩, ⟨"b"⟩] earlier link ⟨[⟨"b"⟩], [⟨"a"⟩]⟩) ∧
      (∃ earlier link later, net.objectLinks v = earlier ++ link :: later ∧
        link.edge.id = ⟨"e6"⟩ ∧
        net.IsShare [⟨"a"⟩, ⟨"b"⟩] earlier link ⟨[⟨"a"⟩, ⟨"b"⟩], [⟨"a"⟩, ⟨"b"⟩]⟩) ∧
      ¬ ∃ link ∈ net.objectLinks v, link.edge.id = ⟨"e1"⟩ := by
  obtain ⟨net, hnet, hseen⟩ := exists_ofGraph_of_sorted sharing
    (fun net => net.upstreamObjects ⟨"m"⟩ = .ok [⟨"a"⟩, ⟨"b"⟩] ∧
      net.branch ⟨"m"⟩ ⟨"e5"⟩ = .ok ⟨[⟨"b"⟩], [⟨"a"⟩]⟩ ∧
      net.branch ⟨"m"⟩ ⟨"e6"⟩ = .ok ⟨[⟨"a"⟩, ⟨"b"⟩], [⟨"a"⟩, ⟨"b"⟩]⟩ ∧
      net.branch ⟨"m"⟩ ⟨"e1"⟩ = .error (.unknownEdge ⟨"e1"⟩)) (by decide) (by decide +kernel)
  obtain ⟨hobjects, hfirst, hsecond, hnone⟩ := of_decide_eq_true hseen
  obtain ⟨v, hv, -, hshares, -, hunknown⟩ := Network.branch_spec hnet hobjects
  have hshare : ∀ edge share, net.branch ⟨"m"⟩ edge = .ok share →
      ∃ earlier link later, net.objectLinks v = earlier ++ link :: later ∧ link.edge.id = edge ∧
        net.IsShare [⟨"a"⟩, ⟨"b"⟩] earlier link share := by
    intro edge share hok
    obtain ⟨earlier, link, later, share', hsplit, hid, -, hok', hisShare, -⟩ := hshares edge <| by
      by_contra hedge
      rw [(hunknown edge).mpr hedge] at hok
      cases hok
    obtain rfl := Except.ok.inj (hok.symm.trans hok')
    exact ⟨earlier, link, later, hsplit, hid, hisShare⟩
  exact ⟨net, v, hnet, hobjects, hv, hshare _ _ hfirst, hshare _ _ hsecond,
    (hunknown _).mp hnone⟩

end SceneFlow
