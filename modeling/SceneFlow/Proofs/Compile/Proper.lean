import Mathlib
import SceneFlow.Proofs.Compile.Invariant
import SceneFlow.Proofs.Compile.Joining
import SceneFlow.Proofs.Motion.Rendering

/-!
# Tokens on their way

What holds of the tokens at a node, whatever way they have come: their times are times, and where
they come from tells their shapes and how far they have been moved. The tracks that have moved
them are those of nodes before, each of which a token passes only once.

## Main definitions

* `Token.Proper`: what holds of a token that has passed some nodes.

## Main results

* `Network.proper_of_mem_made`, `Network.proper_of_mem_arriving`: the tokens at a node are proper.
* `Token.Proper.frame_eq`: the frame of a proper token is told from where it comes from.
-/

namespace SceneFlow

namespace Network

/-- The shape that the drawable node with a name has. -/
def shape? (net : Network) (id : NodeId) : Option Geometry :=
  match (net.find? id).map fun v => (net.node v).kind with
  | some (.geometry data) => some data
  | _ => none

/-- How far the duplicate node with a name moves each copy from the one before it. -/
def stride (net : Network) (id : NodeId) : Vec2 :=
  match (net.find? id).map fun v => (net.node v).kind with
  | some (.duplicate data) => data.offset
  | _ => .zero

/-- How far an object with some marks has been moved. -/
def shift (net : Network) (copies : List CopyMark) : Vec2 :=
  copies.foldl (fun offset mark => offset + (net.stride mark.node).scale mark.number.toFloat) .zero

end Network

namespace Token

/-- What holds of a token that has passed some nodes. -/
structure Proper (net : Network) (passed : Fin net.size → Prop) (token : Token) : Prop where
  /-- The token is neat. -/
  neat : token.Neat
  /-- Its shape is that of its drawable node. -/
  geometry : net.shape? token.origin = some token.geometry
  /-- Its marks have moved it. -/
  offset : token.offset = net.shift token.copies
  /-- Its motions come from nodes that it has passed. -/
  passed : ∀ m ∈ token.motions, ∃ u, passed u ∧ net.id u = m.1.node

variable {net : Network} {passed more : Fin net.size → Prop} {token other : Token}

theorem Proper.mono (h : Proper net passed token) (hsub : ∀ u, passed u → more u) :
    Proper net more token where
  neat := h.neat
  geometry := h.geometry
  offset := h.offset
  passed m hm := by
    obtain ⟨u, hu, heq⟩ := h.passed m hm
    exact ⟨u, hsub u hu, heq⟩

/-- The frame of a proper token is told from where it comes from. -/
theorem Proper.frame_eq (h : Proper net passed token) (hother : Proper net more other)
    (hline : token.line = other.line) : token.frame = other.frame := by
  obtain ⟨horigin, hcopies⟩ := Prod.mk.inj hline
  have hgeometry : token.geometry = other.geometry :=
    Option.some.inj (h.geometry.symm.trans (horigin ▸ hother.geometry))
  rw [frame, frame, horigin, hgeometry, hcopies, h.offset, hother.offset, hcopies]

/-- An insert node whose delay is a span keeps a token neat. -/
theorem Neat.insert (h : token.Neat) {delay : Float} (hdelay : IsSpan delay) :
    (token.insert delay).Neat where
  cursor := h.cursor.add hdelay
  inserted time htime := by
    rcases Option.or_eq_some_iff.mp htime with htime | ⟨-, htime⟩
    · exact h.inserted time htime
    · exact Option.some.inj htime ▸ h.cursor.add hdelay
  style := h.style
  motions := h.motions

/-- What a merge node keeps of proper tokens is proper. -/
theorem proper_of_mem_join {tokens : List Token} (h : ∀ t ∈ tokens, Proper net passed t)
    (htoken : token ∈ join tokens) : Proper net passed token := by
  have hjoin := isJoin_of_fuse (fun t ht => (h t (List.mem_filter.mp ht).1).neat)
    ((mem_join_iff tokens token).mp htoken)
  obtain ⟨t, ht, hframe⟩ := hjoin.frame
  obtain ⟨horigin, hgeometry, hcopies, hoffset⟩ := frame_eq_iff.mp hframe
  have hproper := h t (List.mem_filter.mp ht).1
  refine ⟨hjoin.neat, ?_, ?_, fun m hm => ?_⟩
  · rw [horigin, hgeometry]
    exact hproper.geometry
  · rw [hcopies, hoffset]
    exact hproper.offset
  · obtain ⟨u, hu, hmem⟩ := hjoin.motions m hm
    exact (h u (List.mem_filter.mp hu).1).passed m hmem

end Token

/-! ### Validated payloads -/

namespace NodeKind

theorem isSpan_of_checkDuration {field : String} {x : Float} (h : checkDuration field x = []) :
    IsSpan x := by
  rw [checkDuration] at h
  split at h
  · simp at h
  · rename_i hgood
    simp only [Bool.or_eq_true, Bool.not_eq_true', decide_eq_true_eq, not_or,
      Bool.not_eq_false] at hgood
    exact isSpan_of_isFinite hgood.1 hgood.2

end NodeKind

/-- Where the duration of an animation node is a span, so is the time that it takes. -/
theorem Animation.isSpan_span {data : Animation} (h : (NodeKind.animation data).problems = [])
    (resolved : List Track) : IsSpan (data.span resolved) := by
  rw [span]
  match hduration : data.duration with
  | some duration =>
    simp only [NodeKind.problems, hduration, List.append_eq_nil_iff] at h
    exact NodeKind.isSpan_of_checkDuration h.1
  | none =>
    have htime := (timeRank_foldl_later isTime_zero (resolved.map Track.finish)).1
    rw [List.foldl_map] at htime
    exact htime.isSpan

namespace Network

variable {limits : Limits} {net : Network}

theorem Sound.problems_eq_nil (h : Sound limits net) (v : Fin net.size) :
    (net.node v).kind.problems = [] := by
  have hnil := h.nodes v
  rw [nodeFindings, List.append_eq_nil_iff] at hnil
  exact List.map_eq_nil_iff.mp hnil.1

/-! ### Passing a node -/

variable {passed : Fin net.size → Prop} {v : Fin net.size} {token result : Token}

theorem proper_seed (h : Sound limits net) {data : Geometry}
    (hkind : (net.node v).kind = .geometry data) :
    Token.Proper net passed (.seed (net.id v) data) where
  neat := ⟨isTime_zero, by simp [Token.seed], Entries.sorted_nil, by simp [Token.seed]⟩
  geometry := by
    rw [Token.seed, shape?, find?_id h.id_injective, Option.map_some, hkind]
  offset := rfl
  passed m hm := by simp [Token.seed] at hm

/-- An animation node keeps a token proper that has not passed it before. -/
theorem proper_of_animate (h : Sound limits net) {resolver : Resolver} (hv : ¬ passed v)
    (htoken : Token.Proper net passed token) {data : Animation}
    (hkind : (net.node v).kind = .animation data)
    (hresult : (data.animate resolver (net.id v) token).1 = some result) :
    Token.Proper net (fun u => passed u ∨ u = v) result := by
  obtain ⟨rendered, -, rfl⟩ := Animation.animate_fst_eq_some_iff.mp hresult
  have hspan := Animation.isSpan_span (hkind ▸ h.problems_eq_nil v) (rendered.map Prod.fst)
  -- The tracks of this node have not moved the token before.
  have hnew : ∀ m ∈ token.motions, m.1.node ≠ net.id v := fun m hm heq => by
    obtain ⟨u, hu, hid⟩ := htoken.passed m hm
    exact hv (h.id_injective (hid.trans heq) ▸ hu)
  refine ⟨⟨htoken.neat.cursor.add hspan, htoken.neat.inserted, htoken.neat.style, ?_⟩,
    htoken.geometry, htoken.offset, fun m hm => ?_⟩
  · rw [List.map_append, List.map_map, List.nodup_append]
    refine ⟨htoken.neat.motions, ?_, fun origin horigin other hother heq => ?_⟩
    · have hslots : (rendered.zipIdx.map Prod.snd).Nodup := by
        rw [List.zipIdx_map_snd]
        exact List.nodup_range' 1
      refine List.Nodup.of_map TrackOrigin.slot ?_
      rw [List.map_map]
      exact hslots
    · obtain ⟨m, hm, rfl⟩ := List.mem_map.mp horigin
      obtain ⟨p, -, rfl⟩ := List.mem_map.mp hother
      exact hnew m hm (congrArg TrackOrigin.node heq)
  · rcases List.mem_append.mp hm with hm | hm
    · exact (htoken.mono fun _ => .inl).passed m hm
    · obtain ⟨p, -, rfl⟩ := List.mem_map.mp hm
      exact ⟨v, .inr rfl, rfl⟩

/-- A node keeps the tokens proper that it treats one by one. -/
theorem proper_of_mem_carry (h : Sound limits net) {resolver : Resolver} (hv : ¬ passed v)
    (htoken : Token.Proper net passed token)
    (hresult : result ∈ (net.node v).carry resolver token) :
    Token.Proper net (fun u => passed u ∨ u = v) result := by
  have hstays : Token.Proper net (fun u => passed u ∨ u = v) token := htoken.mono fun _ => .inl
  cases Node.carries_of_mem_carry hresult with
  | pass => exact hstays
  | insert data hkind =>
    exact ⟨hstays.neat.insert (NodeKind.isSpan_of_checkDuration (hkind ▸ h.problems_eq_nil v)),
      hstays.geometry, hstays.offset, hstays.passed⟩
  | animate data hkind hresult => exact proper_of_animate h hv htoken hkind hresult
  | restyle data hkind =>
    exact ⟨⟨hstays.neat.cursor, hstays.neat.inserted, hstays.neat.style.overlay _,
      hstays.neat.motions⟩, hstays.geometry, hstays.offset, hstays.passed⟩
  | copy data hkind number =>
    refine ⟨⟨hstays.neat.cursor, hstays.neat.inserted, hstays.neat.style, hstays.neat.motions⟩,
      hstays.geometry, ?_, hstays.passed⟩
    have hstride : net.stride (net.node v).id = data.offset := by
      rw [stride, show net.find? (net.node v).id = some v from find?_id h.id_injective v,
        Option.map_some, hkind]
    simp only [Token.copy, shift, List.foldl_append, List.foldl_cons, List.foldl_nil, hstride]
    rw [hstays.offset]
    rfl

/-- Where the tokens are proper that the nodes before a node make, so are those that arrive. -/
private theorem proper_of_mem_arriving_of (h : Sound limits net) {resolver : Resolver}
    (hbefore : ∀ u, Digraph.Arc net.objectsBehind u v → ∀ t ∈ net.made resolver u,
      Token.Proper net (fun w => Relation.ReflTransGen (Digraph.Arc net.objectsBehind) w u) t)
    (htoken : token ∈ net.arriving resolver v) :
    Token.Proper net (fun u => Relation.TransGen (Digraph.Arc net.objectsBehind) u v) token := by
  obtain ⟨i, hi, hmem⟩ := (mem_arriving_iff h).mp htoken
  rw [departing_eq] at hmem
  split at hmem
  · exact absurd hmem List.not_mem_nil
  · have harc := mem_objectsBehind_of_mem hi
    exact (hbefore _ harc token hmem).mono fun u hu => .tail' hu harc

/-- The tokens that a node makes are proper. -/
theorem proper_of_mem_made (h : Sound limits net) {resolver : Resolver}
    (htoken : token ∈ net.made resolver v) :
    Token.Proper net (fun u => Relation.ReflTransGen (Digraph.Arc net.objectsBehind) u v)
      token := by
  induction v using (acyclic_objectsBehind h).wellFounded.induction generalizing token with
  | _ v ih =>
    have harriving : ∀ t ∈ net.arriving resolver v,
        Token.Proper net (fun u => Relation.TransGen (Digraph.Arc net.objectsBehind) u v) t :=
      fun t ht => proper_of_mem_arriving_of h (fun u hu t ht => ih u hu ht) ht
    rw [made, Node.work] at htoken
    split at htoken
    · rename_i data hkind
      rw [List.mem_singleton.mp htoken]
      exact proper_seed h hkind
    · exact (Token.proper_of_mem_join harriving htoken).mono fun u hu => hu.to_reflTransGen
    · obtain ⟨t, ht, hmem⟩ := List.mem_flatMap.mp htoken
      refine (proper_of_mem_carry h ?_ (harriving t ht) hmem).mono fun u hu => ?_
      · exact acyclic_objectsBehind h v
      · exact hu.elim Relation.TransGen.to_reflTransGen fun heq => heq ▸ .refl

/-- The tokens that arrive at a node are proper, and have not passed it before. -/
theorem proper_of_mem_arriving (h : Sound limits net) {resolver : Resolver}
    (htoken : token ∈ net.arriving resolver v) :
    Token.Proper net (fun u => Relation.TransGen (Digraph.Arc net.objectsBehind) u v) token :=
  proper_of_mem_arriving_of h (fun _ _ _ ht => proper_of_mem_made h ht) htoken

end Network

end SceneFlow
