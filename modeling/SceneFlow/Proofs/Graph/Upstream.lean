import SceneFlow.Proofs.Digraph.Reach
import SceneFlow.Proofs.Graph.Cycles

/-!
# What lies before a node

Two questions to a network look back from a node: which objects can reach it, and which variables
can be seen from it. Both are walks against the links. The first one follows the links that carry
objects and ends at drawable nodes; the second one follows every link to its start. A walk finds
what it looks for exactly if it does not come to a circle.

## Main definitions

* `Network.Passes`: a link that a walk goes against, from the node behind it to the one before it.
* `Network.CircleBefore`: a walk against the links comes to a circle.
* `Network.Answers`: a question is answered exactly, or fails at a circle.
* `Network.ListsObjects`, `Network.ListsVariables`: what the answers to the two questions list.

## Main results

* `Network.answers_walkUp`: what a walk against the links finds, and how it fails.
* `Network.answers_upstreamObjects`: the objects that can reach a node.
* `Network.answers_visibleVariables`: the variables that can be seen from a node.
* `Network.exists_upstreamObjects_eq_ok`, `Network.exists_visibleVariables_eq_ok`: where no links
  run in a circle, both questions have an answer.
-/

namespace SceneFlow

namespace Network

variable {graph : Graph} {net : Network} {follow : Link net.size → Bool}
  {stops : Fin net.size → Bool} {id : NodeId} {u v : Fin net.size}

/-- A link that is followed leads from one place to another at which no walk stops. -/
def Passes (net : Network) (follow : Link net.size → Bool) (stops : Fin net.size → Bool)
    (u v : Fin net.size) : Prop :=
  net.Leads follow u v ∧ stops v = false

/-- A place can be reached from a circle. -/
def CircleBefore (net : Network) (follow : Link net.size → Bool) (stops : Fin net.size → Bool)
    (v : Fin net.size) : Prop :=
  ∃ u, Relation.TransGen (net.Passes follow stops) u u ∧
    Relation.ReflTransGen (net.Passes follow stops) u v

/-- A question that looks back from a place has a right answer if no circle is before the place. If
there is one, the question fails, and tells a circle of edges that it has followed. -/
def Answers (net : Network) (follow : Link net.size → Bool) (stops : Fin net.size → Bool)
    (v : Fin net.size) {α : Type} (right : α → Prop) : Except QueryError α → Prop
  | .ok answer => ¬ net.CircleBefore follow stops v ∧ right answer
  | .error cause => net.CircleBefore follow stops v ∧
      ∃ path, cause = .circularDependency path ∧ Digraph.IsLoop (net.Joins follow) path

/-- The objects of the drawable nodes from which one can get to a place with nothing drawable on
the way, once each. -/
def ListsObjects (net : Network) (v : Fin net.size) (objects : List NodeId) : Prop :=
  objects.Nodup ∧ ∀ object, object ∈ objects ↔ ∃ d, net.id d = object ∧ net.drawable d = true ∧
    Relation.ReflTransGen (net.Passes net.carriesObjects net.drawable) d v

/-- The variables from which one can get to a place where they are not themselves, once each. -/
def ListsVariables (net : Network) (v : Fin net.size) (refs : List VariableRef) : Prop :=
  (refs.map VariableRef.id).Nodup ∧
    ∀ ref, ref ∈ refs ↔ ∃ u, u ≠ v ∧ (net.node u).kind.isVariable = true ∧
      Relation.TransGen (net.Leads fun _ => true) u v ∧ ref = ⟨net.id u, (net.node u).name⟩

theorem Answers.map {α β : Type} {right : α → Prop} {right' : β → Prop} {f : α → β}
    {query : Except QueryError α} (h : net.Answers follow stops v right query)
    (hf : ∀ answer, right answer → right' (f answer)) :
    net.Answers follow stops v right' (query.map f) := by
  match query with
  | .ok answer => exact ⟨h.1, hf answer h.2⟩
  | .error _ => exact h

theorem Answers.right {α : Type} {right : α → Prop} {query : Except QueryError α} {answer : α}
    (h : net.Answers follow stops v right query) (hquery : query.toOption = some answer) :
    right answer := by
  match query with
  | .ok _ => exact Option.some.inj hquery ▸ h.2
  | .error _ => simp [Except.toOption] at hquery

/-- A question fails exactly if there is a circle before. -/
theorem Answers.toOption_eq_none_iff {α : Type} {right : α → Prop} {query : Except QueryError α}
    (h : net.Answers follow stops v right query) :
    query.toOption = none ↔ net.CircleBefore follow stops v := by
  match query with
  | .ok _ => exact iff_of_false (by simp [Except.toOption]) h.1
  | .error _ => exact iff_of_true (by simp [Except.toOption]) h.1

/-! ### Walks against the links -/

theorem expands_before_eq :
    Digraph.Expands (net.before follow) stops = net.Passes follow stops := by
  funext u v
  rw [Digraph.Expands, Passes, and_comm]
  exact propext (and_congr_left fun _ => arc_before_iff)

theorem meets_before_iff : Digraph.Meets (net.before follow) stops v u ↔
    Relation.ReflTransGen (net.Passes follow stops) u v := by
  rw [Digraph.Meets, expands_before_eq]
  exact Relation.reflTransGen_swap

/-- A closed path against the links is a circle of edges when it is read from its end. -/
theorem isLoop_reverse_map_id (hnet : ofGraph graph = .ok net) {path : List (Fin net.size)}
    (h : Digraph.IsClosedPath (net.before follow) path) :
    Digraph.IsLoop (net.Joins follow) (path.reverse.map net.id) := by
  let after := fun u => net.places.filter fun w => u ∈ net.before follow w
  have hafter : ∀ {u w}, Digraph.Arc after u w ↔ Digraph.Arc (net.before follow) w u := by
    intro u w
    simp [Digraph.Arc, after, mem_places]
  exact isLoop_map_id hnet (h.reverse fun u w harc => hafter.mpr harc) fun u w harc =>
    arc_before_iff.mp (hafter.mp harc)

/-- A walk against the links finds, once each, the places from which its start can be reached. Their
names find them. -/
theorem answers_walkUp (hnet : ofGraph graph = .ok net) (hv : net.find? id = some v) :
    net.Answers follow stops v (fun visited => visited.Nodup ∧
        (∀ u, u ∈ visited ↔ Relation.ReflTransGen (net.Passes follow stops) u v) ∧
        ∀ u ∈ visited, net.find? (net.id u) = some u) (net.walkUp follow stops v) := by
  rw [walkUp]
  split
  · rename_i trail hwalk
    obtain ⟨hnodup, hmem⟩ := Digraph.visited_walkFrom hwalk
    have hreach : ∀ u, u ∈ trail.visited.reverse ↔
        Relation.ReflTransGen (net.Passes follow stops) u v := fun u => by
      rw [List.mem_reverse, hmem, meets_before_iff]
    refine ⟨?_, List.nodup_reverse.mpr hnodup, hreach, fun u hu => ?_⟩
    · rintro ⟨u, hcircle, hu⟩
      have hnot := Digraph.not_transGen_of_walkFrom hwalk (meets_before_iff.mpr hu)
      rw [expands_before_eq] at hnot
      exact hnot (Relation.transGen_swap.mpr hcircle)
    · rcases Relation.ReflTransGen.cases_head_iff.mp ((hreach u).mp hu) with rfl | ⟨w, hfirst, -⟩
      · rwa [id_of_find? hv]
      · exact (hfirst.1.find?_id hnet).1
  · rename_i path hwalk
    obtain ⟨hclosed, hpath⟩ := Digraph.isClosedPath_walkFrom hwalk
    obtain ⟨u, hu, hcircle⟩ := hclosed.exists_transGen
      (r := fun u w => net.Passes follow stops w u) fun u hu w _ harc =>
        ⟨arc_before_iff.mp harc, (hpath u hu).1⟩
    exact ⟨⟨u, Relation.transGen_swap.mp hcircle, meets_before_iff.mp (hpath u hu).2⟩,
      _, rfl, isLoop_reverse_map_id hnet hclosed⟩

/-- Places that their names find have names of their own. -/
theorem nodup_map_id {places : List (Fin net.size)} (hnodup : places.Nodup)
    (hfind : ∀ u ∈ places, net.find? (net.id u) = some u) : (places.map net.id).Nodup := by
  refine hnodup.map_on fun u hu w hw heq => ?_
  have hsame := hfind u hu
  rw [heq, hfind w hw] at hsame
  exact (Option.some.inj hsame).symm

/-! ### The questions -/

/-- The objects that can reach a node are those of the drawable nodes before it with nothing
drawable on the way, unless there is a circle on the way. -/
theorem answers_upstreamObjects (hnet : ofGraph graph = .ok net) (hv : net.find? id = some v) :
    net.Answers net.carriesObjects net.drawable v (net.ListsObjects v)
      (net.upstreamObjects id) := by
  have hquery : net.upstreamObjects id =
      (net.walkUp net.carriesObjects net.drawable v).map fun visited =>
        (visited.filter net.drawable).map net.id := by
    rw [upstreamObjects, require, hv]
    rfl
  rw [hquery]
  refine (answers_walkUp hnet hv).map fun visited hvisited => ?_
  obtain ⟨hnodup, hmem, hfind⟩ := hvisited
  refine ⟨nodup_map_id (hnodup.filter _) fun u hu => hfind u (List.mem_filter.mp hu).1,
    fun object => ?_⟩
  simp only [List.mem_map, List.mem_filter, hmem]
  constructor
  · rintro ⟨d, ⟨hreach, hdrawable⟩, hid⟩
    exact ⟨d, hid, hdrawable, hreach⟩
  · rintro ⟨d, hid, hdrawable, hreach⟩
    exact ⟨d, ⟨hreach, hdrawable⟩, hid⟩

/-- A walk that stops nowhere goes against all links that are followed. -/
theorem passes_eq_leads : net.Passes follow (fun _ => false) = net.Leads follow := by
  funext u v
  simp [Passes]

/-- The variables that can be seen from a node are all those before it, unless there is a circle
before it. -/
theorem answers_visibleVariables (hnet : ofGraph graph = .ok net) (hv : net.find? id = some v) :
    net.Answers (fun _ => true) (fun _ => false) v (net.ListsVariables v)
      (net.visibleVariables id) := by
  let sees := fun u => (net.node u).kind.isVariable && !decide (net.id u = id)
  have hquery : net.visibleVariables id =
      (net.walkUp (fun _ => true) (fun _ => false) v).map fun visited =>
        (visited.filter sees).map fun u => ⟨net.id u, (net.node u).name⟩ := by
    rw [visibleVariables, require, hv]
    simp only [Bind.bind, Except.bind]
    match net.walkUp (fun _ => true) (fun _ => false) v with
    | .error _ => rfl
    | .ok visited =>
      simp only [List.filter_map, List.map_map, Function.comp_def, decide_not, Except.map]
      rfl
  rw [hquery]
  refine (answers_walkUp hnet hv).map fun visited hvisited => ?_
  obtain ⟨hnodup, hmem, hfind⟩ := hvisited
  have hself : ∀ u ∈ visited, net.id u = id ↔ u = v := fun u hu => by
    refine ⟨fun heq => ?_, fun heq => heq ▸ id_of_find? hv⟩
    have hsame := hfind u hu
    rw [heq, hv] at hsame
    exact (Option.some.inj hsame).symm
  refine ⟨?_, fun ref => ?_⟩
  · rw [List.map_map]
    exact nodup_map_id (hnodup.filter _) fun u hu => hfind u (List.mem_filter.mp hu).1
  · simp only [passes_eq_leads, Relation.reflTransGen_iff_eq_or_transGen] at hmem
    simp only [List.mem_map, List.mem_filter, sees, Bool.and_eq_true, Bool.not_eq_true',
      decide_eq_false_iff_not]
    constructor
    · rintro ⟨u, ⟨hu, hvariable, hne⟩, rfl⟩
      rw [hself u hu] at hne
      exact ⟨u, hne, hvariable, ((hmem u).mp hu).resolve_left (Ne.symm hne), rfl⟩
    · rintro ⟨u, hne, hvariable, hpath, rfl⟩
      have hu := (hmem u).mpr (.inr hpath)
      exact ⟨u, ⟨hu, hvariable, fun heq => hne ((hself u hu).mp heq)⟩, rfl⟩

/-! ### Networks without circles -/

theorem acyclic_before (h : Digraph.Acyclic net.behind) (follow : Link net.size → Bool) :
    Digraph.Acyclic (net.before follow) := by
  intro v hv
  refine h v (Relation.TransGen.mono (fun u w harc => ?_) v v (Relation.transGen_swap.mp hv))
  obtain ⟨link, hlink, -, hends⟩ := arc_before_iff.mp harc
  exact arc_behind_iff.mpr ⟨link, hlink, rfl, hends⟩

/-- Where no links run in a circle, no walk against them fails. -/
theorem exists_walkUp_eq_ok (h : Digraph.Acyclic net.behind) (follow : Link net.size → Bool)
    (stops : Fin net.size → Bool) (v : Fin net.size) :
    ∃ visited, net.walkUp follow stops v = .ok visited := by
  rw [walkUp]
  split
  · exact ⟨_, rfl⟩
  · rename_i path hwalk
    exact absurd (acyclic_before h follow) (Digraph.isClosedPath_walkFrom hwalk).1.not_acyclic

/-- Where no links run in a circle, the objects that can reach a node can be told. -/
theorem exists_upstreamObjects_eq_ok (h : Digraph.Acyclic net.behind)
    (hv : net.find? id = some v) : ∃ objects, net.upstreamObjects id = .ok objects := by
  obtain ⟨visited, hvisited⟩ := exists_walkUp_eq_ok h net.carriesObjects net.drawable v
  refine ⟨(visited.filter net.drawable).map net.id, ?_⟩
  rw [upstreamObjects, require, hv]
  simp only [Bind.bind, Except.bind, objectsAt, hvisited]

/-- Where no links run in a circle, the variables that can be seen from a node can be told. -/
theorem exists_visibleVariables_eq_ok (h : Digraph.Acyclic net.behind)
    (hv : net.find? id = some v) : ∃ refs, net.visibleVariables id = .ok refs := by
  obtain ⟨visited, hvisited⟩ := exists_walkUp_eq_ok h (fun _ => true) (fun _ => false) v
  rw [visibleVariables, require, hv]
  simp only [Bind.bind, Except.bind, hvisited]
  exact ⟨_, rfl⟩

/-- Both questions that look back from a node are answered exactly. -/
theorem answers_back (hnet : ofGraph graph = .ok net) (hv : net.find? id = some v) :
    net.Answers net.carriesObjects net.drawable v (net.ListsObjects v) (net.upstreamObjects id) ∧
      net.Answers (fun _ => true) (fun _ => false) v (net.ListsVariables v)
        (net.visibleVariables id) :=
  ⟨answers_upstreamObjects hnet hv, answers_visibleVariables hnet hv⟩

end Network

/-- The circles `a` and `b` run into the insert node `i`, and `b` into `a` as well. The variable `x`
is before `a`, and behind `i` there is a node `j` that runs into itself. -/
def lookback : Graph where
  nodes :=
    [.circle "a", .circle "b", .small "i" "insert" [], .small "j" "insert" [],
      .small "x" "result" []]
  edges :=
    [.plain "e1" "a" "i", .plain "e2" "b" "i", .plain "e3" "b" "a", .plain "e4" "i" "j",
      .plain "e5" "j" "j", .plain "e6" "x" "a"]

theorem answers_back_lookback :
    ∃ net v w, Network.ofGraph lookback = .ok net ∧
      net.find? ⟨"i"⟩ = some v ∧ net.ListsObjects v [⟨"a"⟩, ⟨"b"⟩] ∧
      net.ListsVariables v [⟨⟨"x"⟩, "x"⟩] ∧
      net.find? ⟨"j"⟩ = some w ∧ net.CircleBefore net.carriesObjects net.drawable w ∧
      net.CircleBefore (fun _ => true) (fun _ => false) w := by
  obtain ⟨net, hnet, hseen⟩ := exists_ofGraph_of_sorted lookback
    (fun net => (net.find? ⟨"i"⟩).isSome && (net.find? ⟨"j"⟩).isSome &&
      (net.upstreamObjects ⟨"i"⟩).toOption == some [⟨"a"⟩, ⟨"b"⟩] &&
      (net.visibleVariables ⟨"i"⟩).toOption == some [⟨⟨"x"⟩, "x"⟩] &&
      (net.upstreamObjects ⟨"j"⟩).toOption.isNone && (net.visibleVariables ⟨"j"⟩).toOption.isNone)
    (by decide) (by decide +kernel)
  simp only [Bool.and_eq_true, Option.isSome_iff_exists, beq_iff_eq, Option.isNone_iff_eq_none]
    at hseen
  obtain ⟨⟨⟨⟨⟨⟨v, hv⟩, w, hw⟩, hobjects⟩, hvariables⟩, hnoObjects⟩, hnoVariables⟩ := hseen
  obtain ⟨hobjectsBefore, hvariablesBefore⟩ := Network.answers_back hnet hv
  obtain ⟨hobjectsCircle, hvariablesCircle⟩ := Network.answers_back hnet hw
  exact ⟨net, v, w, hnet, hv, hobjectsBefore.right hobjects, hvariablesBefore.right hvariables, hw,
    hobjectsCircle.toOption_eq_none_iff.mp hnoObjects,
    hvariablesCircle.toOption_eq_none_iff.mp hnoVariables⟩

end SceneFlow
