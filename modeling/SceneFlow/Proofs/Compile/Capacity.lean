import Mathlib
import SceneFlow.Proofs.Compile.Acceptance
import SceneFlow.Proofs.Compile.Births
import SceneFlow.Proofs.Compile.Limits

/-!
# How many tokens there are

A network can have many more paths than nodes, and tokens run along all of them. Still there are
never many of them at a time. A duplicate node looks at the number of objects before it makes
copies, and every node but a merge node looks at the number of tokens that have come to it. A merge
node takes any number, but lets only one token of each object go on, and there are no more objects
than drawable nodes and copies.

## Main definitions

* `Network.copies`: how many copies duplicate nodes have made in some turns.
* `Network.Tally`: what is counted in the course of a flow, each turn keeping it.
* `Network.Bounded`: the bounds on what there is after some turns.

## Main results

* `Network.Tally.turn`, `Network.tally_foldl_turn`: the tally is kept by a turn, and by all turns of
  a run.
* `Network.bounded_of_validate`: the bounds are kept at any time in a network that validation
  accepts.
-/

namespace SceneFlow

/-! ### What leaves a node -/

/-- There are no more joined tokens than names. -/
theorem Token.length_join_le {tokens : List Token} {known : List String}
    (h : ∀ token ∈ tokens, token.name.text ∈ known) : (join tokens).length ≤ known.length := by
  have habsorb : ∀ token other : Token, (token.absorb other).name.text = token.name.text :=
    fun _ _ => rfl
  have hsubset : ((join tokens).map fun token => token.name.text) ⊆ known := by
    intro text htext
    obtain ⟨token, htoken, rfl⟩ :=
      List.mem_map.mp ((Roster.mem_map_gather habsorb tokens text).mp htext)
    exact h token htoken
  calc
    (join tokens).length = ((join tokens).map fun token => token.name.text).length := by simp
    _ ≤ known.length :=
      (List.subperm_of_subset (Roster.nodup_gather habsorb tokens) hsubset).length_le

namespace Node

variable (node : Node) (settings : FlowSettings) (created : ℕ) (tokens : List Token)

/-- No more tokens leave a node that is not a merge node than have come to it and have come into
being there. -/
theorem length_out_le (hmerge : node.kind.isMerge = false) :
    (node.pass settings created tokens).out.length ≤
      tokens.length + (node.pass settings created tokens).created := by
  rw [pass]
  cases hkind : node.kind with
  | merge _ => simp [hkind, NodeKind.isMerge] at hmerge
  | geometry _ => simp
  | filter _ => exact List.length_filter_le _ _
  | insert _ =>
    dsimp only
    split <;> simp [Passage.through]
  | animation data => exact (List.length_filterMap_le _ _).trans (by simp)
  | textStyle _ => simp [Passage.through]
  | duplicate data =>
    dsimp only [Duplication.pass]
    split
    · simp [Passage.stopped]
    · simp [Token.duplicate, Nat.mul_add, Nat.mul_comm, Nat.add_comm]
  | unknown _ =>
    dsimp only
    split <;> simp [Passage.stopped]
  | terminal _ _ | constant _ | result _ | comparison _ | logic _ | math _ =>
    simp [Passage.stopped]

/-- But for copies, at most one object comes into being at a node. -/
theorem created_pass_le (hduplicate : node.kind.isDuplicate = false) :
    (node.pass settings created tokens).created ≤ 1 := by
  rw [pass]
  cases hkind : node.kind with
  | duplicate _ => simp [hkind, NodeKind.isDuplicate] at hduplicate
  | insert _ | unknown _ =>
    dsimp only
    split <;> simp [Passage.through, Passage.stopped]
  | _ => simp [Passage.through, Passage.stopped]

/-- What comes into being at a duplicate node leaves it together with what has come. -/
theorem length_out_of_isDuplicate (hduplicate : node.kind.isDuplicate = true) :
    (node.pass settings created tokens).out.length - tokens.length =
      (node.pass settings created tokens).created := by
  rw [pass]
  cases hkind : node.kind with
  | duplicate data =>
    dsimp only [Duplication.pass]
    split
    · exact Nat.zero_sub _
    · simp [Token.duplicate, Nat.mul_add, Nat.mul_comm]
  | _ => simp [hkind, NodeKind.isDuplicate] at hduplicate

/-- A duplicate node makes copies only if all objects together keep the limit. -/
theorem created_pass_of_isDuplicate (hduplicate : node.kind.isDuplicate = true) :
    (node.pass settings created tokens).created = 0 ∨
      created + (node.pass settings created tokens).created ≤ settings.limit := by
  rw [pass]
  cases hkind : node.kind with
  | duplicate data =>
    dsimp only [Duplication.pass]
    split
    · exact .inl rfl
    · rename_i hroom
      exact .inr (Nat.not_lt.mp hroom)
  | _ => simp [hkind, NodeKind.isDuplicate] at hduplicate

/-- The tokens that leave a node have names of tokens that have come to it, or of objects that have
come into being there. -/
theorem exists_names :
    ∃ fresh : List String, fresh.length ≤ (node.pass settings created tokens).created ∧
      ∀ token ∈ (node.pass settings created tokens).out,
        (∃ t ∈ tokens, t.name = token.name) ∨ token.name.text ∈ fresh := by
  cases hkind : node.kind with
  | geometry data =>
    refine ⟨[node.id.text], by simp [pass, hkind], fun token htoken => .inr ?_⟩
    rw [pass, hkind] at htoken
    rw [List.mem_singleton.mp htoken]
    exact List.mem_singleton_self _
  | duplicate data =>
    by_cases hroom : settings.limit < created + data.count.toNat * tokens.length
    · exact ⟨[], Nat.zero_le _, by simp [pass, hkind, Duplication.pass, hroom, Passage.stopped]⟩
    · refine ⟨tokens.flatMap fun token => (List.range data.count.toNat).map fun i =>
        (token.copy node.id data.offset (i + 1)).name.text, ?_, fun token htoken => ?_⟩
      · simp only [pass, hkind, Duplication.pass, if_neg hroom]
        simp [Nat.mul_comm]
      · rw [pass, hkind] at htoken
        dsimp only [Duplication.pass] at htoken
        rw [if_neg hroom] at htoken
        obtain ⟨t, ht, htoken⟩ := List.mem_flatMap.mp htoken
        rcases List.mem_cons.mp htoken with rfl | hcopy
        · exact .inl ⟨token, ht, rfl⟩
        · obtain ⟨i, hi, rfl⟩ := List.mem_map.mp hcopy
          exact .inr (List.mem_flatMap.mpr ⟨t, ht, List.mem_map.mpr ⟨i, hi, rfl⟩⟩)
  | merge _ =>
    refine ⟨[], Nat.zero_le _, fun token htoken => .inl ?_⟩
    rw [pass, hkind] at htoken
    obtain ⟨t, ht, horigin, hcopies⟩ := Token.exists_mem_of_mem_join htoken
    exact ⟨t, ht, by rw [Token.name, Token.name, horigin, hcopies]⟩
  | _ =>
    refine ⟨[], Nat.zero_le _, fun token htoken => .inl ?_⟩
    have hwork := mem_work_of_mem_out htoken
    rw [work, hkind] at hwork
    obtain ⟨t, ht, hcarry⟩ := List.mem_flatMap.mp hwork
    refine ⟨t, ht, ?_⟩
    cases carries_of_mem_carry hcarry with
    | pass | insert | restyle => rfl
    | animate data _ hanimate =>
      obtain ⟨rendered, -, rfl⟩ := Animation.animate_fst_eq_some_iff.mp hanimate
      rfl
    | copy data hduplicate => simp [hkind] at hduplicate

end Node

namespace Network

variable {net : Network} {settings : FlowSettings} {limits : Limits}

/-! ### Turns -/

section Turn

variable (net settings) (flow : Flow net.size) (v : Fin net.size)

theorem created_turn :
    (net.turn settings flow v).created = flow.created + (net.passage settings flow v).created := by
  rw [turn, passage]
  dsimp only
  split <;> rfl

theorem map_fst_sent_turn_sublist :
    ((net.turn settings flow v).sent.map Prod.fst).Sublist
      (flow.sent.map Prod.fst ++ net.objectsBehind v) := by
  rw [turn]
  dsimp only
  split
  · exact List.sublist_append_left _ _
  · simp [Function.comp_def]

/-- No more tokens than the limit come to a node that is not a merge node and makes something. -/
theorem passage_eq (hmerge : (net.node v).kind.isMerge = false) :
    net.passage settings flow v = .stopped [] ∨ (flow.arrived v).length ≤ settings.limit ∧
      net.passage settings flow v =
        (net.node v).pass settings flow.created (flow.arrived v) := by
  rw [passage, hmerge]
  by_cases hroom : settings.limit < (flow.arrived v).length
  · exact .inl (by simp [hroom])
  · exact .inr ⟨Nat.not_lt.mp hroom, by simp [hroom]⟩

/-- What a terminal delivers keeps the limit. -/
theorem length_delivered_passage_le :
    (net.passage settings flow v).delivered.length ≤
      if (net.node v).kind.isTerminal then settings.limit else 0 := by
  rw [passage]
  split
  · exact Nat.zero_le _
  · rename_i hroom
    rw [Node.delivered_pass]
    cases hkind : (net.node v).kind with
    | terminal _ _ =>
      rw [hkind] at hroom
      simpa [NodeKind.isMerge, NodeKind.isTerminal] using hroom
    | _ => exact Nat.zero_le _

/-- The tokens that leave a node have names of tokens that have come to it, or of objects that have
come into being there. -/
theorem exists_names_passage :
    ∃ fresh : List String, fresh.length ≤ (net.passage settings flow v).created ∧
      ∀ token ∈ (net.passage settings flow v).out,
        (∃ t ∈ flow.arrived v, t.name = token.name) ∨ token.name.text ∈ fresh := by
  rw [passage]
  split
  · exact ⟨[], Nat.zero_le _, fun _ hnone => absurd hnone List.not_mem_nil⟩
  · exact (net.node v).exists_names settings flow.created (flow.arrived v)

end Turn

/-! ### Copies -/

/-- How many copies a node makes of the tokens that a flow has brought to it: as many as leave a
duplicate node beyond those that have come. -/
def copiesAt (net : Network) (settings : FlowSettings) (flow : Flow net.size) (v : Fin net.size) :
    ℕ :=
  if (net.node v).kind.isDuplicate then
    (net.passage settings flow v).out.length - (flow.arrived v).length
  else 0

/-- How many copies are made in some turns, the first of which comes to a flow. -/
def copiesFrom (net : Network) (settings : FlowSettings) : Flow net.size → List (Fin net.size) → ℕ
  | _, [] => 0
  | flow, v :: turns =>
    net.copiesAt settings flow v + net.copiesFrom settings (net.turn settings flow v) turns

/-- How many copies have been made when some nodes have had their turns. -/
def copies (net : Network) (settings : FlowSettings) (turns : List (Fin net.size)) : ℕ :=
  net.copiesFrom settings (.start net.size) turns

theorem copies_concat (turns : List (Fin net.size)) (v : Fin net.size) :
    net.copies settings (turns ++ [v]) =
      net.copies settings turns +
        net.copiesAt settings (turns.foldl (net.turn settings) (.start net.size)) v := by
  rw [copies, copies]
  generalize Flow.start net.size = flow
  induction turns generalizing flow with
  | nil => simp [copiesFrom]
  | cons u turns ih =>
    rw [List.cons_append, copiesFrom, copiesFrom, ih, Nat.add_assoc, List.foldl_cons]

/-- What comes into being at a duplicate node are its copies. -/
theorem copiesAt_eq (net : Network) (settings : FlowSettings) (flow : Flow net.size)
    (v : Fin net.size) :
    net.copiesAt settings flow v =
      if (net.node v).kind.isDuplicate then (net.passage settings flow v).created else 0 := by
  rw [copiesAt]
  split
  · rename_i hduplicate
    rw [passage]
    split
    · exact Nat.zero_sub _
    · exact (net.node v).length_out_of_isDuplicate _ _ _ hduplicate
  · rfl

/-- Copies are among the objects that come into being at a node, and at most one is not a copy. -/
theorem created_passage_le (net : Network) (settings : FlowSettings) (flow : Flow net.size)
    (v : Fin net.size) :
    net.copiesAt settings flow v ≤ (net.passage settings flow v).created ∧
      (net.passage settings flow v).created ≤ 1 + net.copiesAt settings flow v := by
  rw [copiesAt_eq]
  split
  · omega
  · rename_i hduplicate
    refine ⟨Nat.zero_le _, ?_⟩
    rw [passage]
    split
    · exact Nat.zero_le _
    · exact (net.node v).created_pass_le _ _ _ (Bool.eq_false_iff.mpr hduplicate)

/-! ### Counting in the course of a flow -/

/-- How many tokens a list may hold that a node hands on. -/
def capacity (net : Network) (settings : FlowSettings) : ℕ :=
  net.size + 2 * settings.limit

/-- What is counted when some nodes have had their turns and a number of copies have been made. -/
structure Tally (net : Network) (settings : FlowSettings) (turns : List (Fin net.size))
    (copied : ℕ) (flow : Flow net.size) : Prop where
  /-- Copies are among the objects that have come into being. -/
  le_created : copied ≤ flow.created
  /-- They keep the limit. -/
  le_limit : copied ≤ settings.limit
  /-- There are no more names than these nodes and copies. -/
  names : ∃ known : List String, known.length ≤ turns.length + copied ∧
    ∀ parcel ∈ flow.sent, ∀ token ∈ parcel.2, token.name.text ∈ known
  /-- Tokens are sent along links. -/
  targets : (flow.sent.map Prod.fst).Sublist (turns.flatMap net.objectsBehind)
  /-- Not too many are sent along one link. -/
  sent_le : ∀ parcel ∈ flow.sent, parcel.2.length ≤ net.capacity settings
  /-- Not too many are delivered by one terminal. -/
  delivered_le : flow.delivered.length ≤
    (turns.countP fun v => (net.node v).kind.isTerminal) * settings.limit

theorem tally_start : net.Tally settings [] 0 (.start net.size) where
  le_created := Nat.zero_le _
  le_limit := Nat.zero_le _
  names := ⟨[], Nat.zero_le _, fun _ hparcel => absurd hparcel List.not_mem_nil⟩
  targets := .slnil
  sent_le _ hparcel := absurd hparcel List.not_mem_nil
  delivered_le := Nat.zero_le _

namespace Tally

variable {turns : List (Fin net.size)} {copied : ℕ} {flow : Flow net.size}
  (h : net.Tally settings turns copied flow)
include h

/-- The names of the tokens that have come to a node are known. -/
theorem exists_known : ∃ known : List String, known.length ≤ turns.length + copied ∧
    (∀ parcel ∈ flow.sent, ∀ token ∈ parcel.2, token.name.text ∈ known) ∧
      ∀ v, ∀ token ∈ flow.arrived v, token.name.text ∈ known := by
  obtain ⟨known, hlength, hknown⟩ := h.names
  refine ⟨known, hlength, hknown, fun v token htoken => ?_⟩
  obtain ⟨parcel, hparcel, htoken⟩ := List.mem_flatMap.mp htoken
  exact hknown parcel (List.mem_filter.mp hparcel).1 token htoken

/-- The copies keep the limit when one more node has had its turn. -/
theorem add_copiesAt_le (v : Fin net.size) :
    copied + net.copiesAt settings flow v ≤ settings.limit := by
  have hlimit := h.le_limit
  have hcreated := h.le_created
  rw [copiesAt_eq]
  split
  · rename_i hduplicate
    rw [passage]
    split
    · exact hlimit
    · rcases (net.node v).created_pass_of_isDuplicate _ _ _ hduplicate with hzero | hroom
      · rw [hzero]
        exact hlimit
      · omega
  · exact hlimit

/-- What a node hands on is not more than fits. -/
theorem length_out_le (hnodup : turns.Nodup) (v : Fin net.size) :
    (net.passage settings flow v).out.length ≤ net.capacity settings := by
  have hsize : turns.length ≤ net.size := by simpa using hnodup.length_le_card
  have hpos : 0 < net.size := v.pos
  have hlimit := h.le_limit
  have hcopies := h.add_copiesAt_le v
  rw [capacity]
  cases hmerge : (net.node v).kind.isMerge with
  | true =>
    obtain ⟨known, hlength, -, hknown⟩ := h.exists_known
    have hjoin := Token.length_join_le (hknown v)
    have hout : (net.passage settings flow v).out = Token.join (flow.arrived v) := by
      rw [passage, hmerge, Node.pass]
      cases hkind : (net.node v).kind with
      | merge _ => rfl
      | _ => simp [hkind, NodeKind.isMerge] at hmerge
    rw [hout]
    omega
  | false =>
    have hcreated := (net.created_passage_le settings flow v).2
    rcases net.passage_eq settings flow v hmerge with hstop | ⟨hroom, hpass⟩
    · rw [hstop]
      exact Nat.zero_le _
    · rw [hpass] at hcreated ⊢
      have hout := (net.node v).length_out_le settings flow.created (flow.arrived v) hmerge
      omega

/-- A turn keeps the tally. -/
theorem turn {v : Fin net.size} (hnodup : (turns ++ [v]).Nodup) :
    net.Tally settings (turns ++ [v]) (copied + net.copiesAt settings flow v)
      (net.turn settings flow v) where
  le_created := by
    rw [created_turn]
    exact Nat.add_le_add h.le_created (net.created_passage_le settings flow v).1
  le_limit := h.add_copiesAt_le v
  names := by
    obtain ⟨known, hlength, hsent, harrived⟩ := h.exists_known
    obtain ⟨fresh, hfresh, hout⟩ := net.exists_names_passage settings flow v
    have hcreated := (net.created_passage_le settings flow v).2
    refine ⟨known ++ fresh, ?_, fun parcel hparcel token htoken => ?_⟩
    · simp only [List.length_append, List.length_singleton]
      omega
    · rcases mem_sent_turn hparcel with hparcel | ⟨-, heq⟩
      · exact List.mem_append_left _ (hsent parcel hparcel token htoken)
      · rw [heq] at htoken
        rcases hout token htoken with ⟨t, ht, hname⟩ | hmem
        · exact List.mem_append_left _ (hname ▸ harrived v t ht)
        · exact List.mem_append_right _ hmem
  targets := by
    rw [List.flatMap_append, List.flatMap_singleton]
    exact (net.map_fst_sent_turn_sublist settings flow v).trans (h.targets.append_right _)
  sent_le parcel hparcel := by
    rcases mem_sent_turn hparcel with hparcel | ⟨-, hout⟩
    · exact h.sent_le parcel hparcel
    · rw [hout]
      exact h.length_out_le (List.nodup_append.mp hnodup).1 v
  delivered_le := by
    have hmore := net.length_delivered_passage_le settings flow v
    rw [delivered_turn, List.length_append, List.countP_append, Nat.add_mul]
    refine Nat.add_le_add h.delivered_le (hmore.trans ?_)
    rw [List.countP_singleton]
    split <;> simp

end Tally

/-- The tally of a run. -/
theorem tally_foldl_turn {turns : List (Fin net.size)} (hnodup : turns.Nodup) :
    net.Tally settings turns (net.copies settings turns)
      (turns.foldl (net.turn settings) (.start net.size)) := by
  induction turns using List.reverseRecOn with
  | nil => exact tally_start
  | append_singleton turns v ih =>
    rw [copies_concat, List.foldl_append, List.foldl_cons, List.foldl_nil]
    exact (ih (List.nodup_append.mp hnodup).1).turn hnodup

/-! ### Bounds -/

/-- As many tokens may be at a node as fit on the links that lead to it. -/
theorem Tally.length_arrived_le (h : Sound limits net) {turns : List (Fin net.size)} {copied : ℕ}
    {flow : Flow net.size} (htally : net.Tally settings turns copied flow)
    (hturns : turns <+: net.objectOrder) (v : Fin net.size) :
    (flow.arrived v).length ≤ (net.objectLinksInto v).length * net.capacity settings := by
  have hparcels : (flow.sent.filter fun parcel => parcel.1 = v).length ≤
      (net.objectLinksInto v).length := by
    rw [← count_flatMap_objectsBehind net.nodup_objectOrder (mem_objectOrder h)]
    calc
      (flow.sent.filter fun parcel => parcel.1 = v).length =
          (flow.sent.map Prod.fst).count v := by
        rw [List.count_eq_length_filter, List.filter_map, List.length_map]
        rfl
      _ ≤ (turns.flatMap net.objectsBehind).count v := htally.targets.count_le v
      _ ≤ (net.objectOrder.flatMap net.objectsBehind).count v :=
        (hturns.sublist.flatMap _).count_le v
  calc
    (flow.arrived v).length =
        ((flow.sent.filter fun parcel => parcel.1 = v).map fun parcel => parcel.2.length).sum :=
      List.length_flatMap
    _ ≤ (flow.sent.filter fun parcel => parcel.1 = v).length * net.capacity settings := by
      refine (List.sum_le_card_nsmul _ (net.capacity settings) fun count hcount => ?_).trans_eq
        (by rw [List.length_map, nsmul_eq_mul, Nat.cast_id])
      obtain ⟨parcel, hparcel, rfl⟩ := List.mem_map.mp hcount
      exact htally.sent_le parcel (List.mem_filter.mp hparcel).1
    _ ≤ (net.objectLinksInto v).length * net.capacity settings :=
      Nat.mul_le_mul_right _ hparcels

/-- The bounds on what there is when some nodes have had their turns. -/
structure Bounded (net : Network) (settings : FlowSettings) (turns : List (Fin net.size))
    (flow : Flow net.size) : Prop where
  /-- The copies that have been made keep the limit. -/
  copies_le : net.copies settings turns ≤ settings.limit
  /-- So do the tokens that have been delivered. -/
  delivered_le : flow.delivered.length ≤ settings.limit
  /-- A node hands on no more tokens than the nodes and twice the limit. -/
  out_le : ∀ v, (net.passage settings flow v).out.length ≤ net.size + 2 * settings.limit
  /-- No more have been sent along any link. -/
  sent_le : ∀ parcel ∈ flow.sent, parcel.2.length ≤ net.size + 2 * settings.limit
  /-- And no more have come to a node than along all links that lead to it. -/
  arrived_le : ∀ v,
    (flow.arrived v).length ≤ (net.objectLinksInto v).length * (net.size + 2 * settings.limit)

/-- In a network that validation accepts the bounds are kept at any time, however many paths there
are, and whatever the overrides and the variant. -/
theorem bounded_of_validate {terminal : Fin net.size} (h : net.validate limits = some terminal)
    (resolver : Resolver) (coverage : Severity) {turns : List (Fin net.size)}
    (hturns : turns <+: net.objectOrder) :
    net.Bounded ⟨resolver, coverage, limits.instances⟩ turns
      (turns.foldl (net.turn ⟨resolver, coverage, limits.instances⟩) (.start net.size)) := by
  obtain ⟨hsound, hterminal⟩ := validate_eq_some_iff.mp h
  have hnodup : turns.Nodup := hturns.sublist.nodup net.nodup_objectOrder
  have htally := @tally_foldl_turn net ⟨resolver, coverage, limits.instances⟩ turns hnodup
  refine ⟨htally.le_limit, htally.delivered_le.trans ?_, htally.length_out_le hnodup,
    htally.sent_le, htally.length_arrived_le hsound hturns⟩
  have hone : (turns.countP fun v => (net.node v).kind.isTerminal) ≤ 1 := by
    have honly : ∀ v, (net.node v).kind.isTerminal = true ↔ (v == terminal) = true := fun v => by
      rw [beq_iff_eq]
      exact ⟨fun hv => hsound.terminal.unique hv hterminal, fun hv => hv ▸ hterminal⟩
    rw [List.countP_congr fun v _ => honly v]
    exact List.nodup_iff_count_le_one.mp hnodup terminal
  exact (Nat.mul_le_mul_right _ hone).trans_eq (Nat.one_mul _)

end Network

/-- The terminal of the network with four circles. -/
def fourCirclesTerminal : Fin fourCircles.size :=
  ⟨4, by decide⟩

/-- Of the four circles that the limit allows, three are copies. -/
theorem bounded_fourCircles :
    fourCircles.validate ⟨5, 4⟩ = some fourCirclesTerminal ∧
      fourCircles.copies ⟨⟨.empty, .empty, none⟩, .warning, 4⟩ fourCircles.objectOrder = 3 ∧
      fourCircles.Bounded ⟨⟨.empty, .empty, none⟩, .warning, 4⟩ fourCircles.objectOrder
        (fourCircles.flow ⟨⟨.empty, .empty, none⟩, .warning, 4⟩) := by
  have hvalidate : fourCircles.validate ⟨5, 4⟩ = some fourCirclesTerminal := by
    decide +kernel
  exact ⟨hvalidate, by decide +kernel,
    Network.bounded_of_validate hvalidate _ _ (List.prefix_refl _)⟩

end SceneFlow
