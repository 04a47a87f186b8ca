import SceneFlow.Proofs.Compile.Naming

/-!
# No object disappears silently

An object that leaves a node goes on over every link, is delivered, is held back by a gate or, where
no link leads on, is reported. So the warnings of a compilation tell of every route that ends dead,
and of nothing else, as long as the object of the route is still borne by a token at its end. Only a
merge node can take the token away from an object, namely in favour of another one that goes by the
same name. Where names are legible this does not happen, and nothing disappears.

## Main definitions

* `Finding.isDeadEnd`: the findings that tell of a dead end.
* `Route.EndsDead`, `Route.report`: a route ends at a node from which no link leads on, and how this
  is reported.

## Main results

* `Network.mem_findings_flow_iff_exists_route`: a flow reports exactly the routes that end dead and
  have a bearer.
* `Network.Legible.bearer_eq`: where names are legible every route has a bearer.
* `Prepared.diagnostic_mem_warnings_iff`: no dead end is lost among the warnings, or made up there.
* `Prepared.conservation`: the objects of a compilation are accounted for.
-/

namespace SceneFlow

/-! ### Findings of dead ends -/

namespace Finding

/-- Whether a finding tells of objects that have come to a node from which no link leads on. -/
def isDeadEnd : Finding → Bool
  | unconnected _ _ | deadEnd _ _ => true
  | _ => false

/-- Whether a finding tells what an object has or has not come to on its way. -/
def isOfWay : Finding → Bool
  | unconnected _ _ | deadEnd _ _ | notInserted _ _ _ => true
  | _ => false

/-- Whether a flow can come to a finding. -/
def isOfFlow : Finding → Bool
  | crowded _ _ _ | stale _ | badTrack _ _ _ | copyLimit _ _ | unknownType _ _ _ => true
  | finding => finding.isDeadEnd

theorem isOfFlow_of_isDeadEnd {finding : Finding} (h : finding.isDeadEnd = true) :
    finding.isOfFlow = true := by
  cases finding <;> simp [isDeadEnd] at h <;> rfl

theorem isOfWay_of_isDeadEnd {finding : Finding} (h : finding.isDeadEnd = true) :
    finding.isOfWay = true := by
  cases finding <;> simp [isDeadEnd] at h <;> rfl

/-- The diagnostic of a dead end tells the finding. -/
theorem eq_of_diagnostic_eq {finding report : Finding} (hreport : report.isDeadEnd = true)
    (h : finding.diagnostic = report.diagnostic) : finding = report := by
  have hcode := congrArg Diagnostic.code h
  have hseverity := congrArg Diagnostic.severity h
  have hsuggestions := congrArg Diagnostic.suggestions h
  have hnodes := congrArg Diagnostic.nodes h
  have hmessage := congrArg Diagnostic.message h
  cases report with
  | unconnected id severity =>
    cases finding with
    | unconnected id' severity' =>
      rw [(List.cons.inj hnodes).1, show severity' = severity from hseverity]
    | notInserted _ _ _ => simp [diagnostic] at hsuggestions
    | unresolved cause => cases cause <;> simp [diagnostic, error, QueryError.code] at hcode
    | _ => simp [diagnostic, error, StaleBinding.diagnostic] at hcode
  | deadEnd object id =>
    cases finding with
    | deadEnd object' id' =>
      obtain rfl : id' = id := (List.cons.inj hnodes).1
      have htext : object'.text = object.text :=
        (String.append_right_inj _).mp ((String.append_left_inj _).mp
          ((String.append_left_inj _).mp ((String.append_left_inj _).mp hmessage)))
      rw [NodeId.eq_iff_text.mpr htext]
    | dangling _ | stale _ => simp [diagnostic, StaleBinding.diagnostic] at hsuggestions
    | unconnected _ _ | notInserted _ _ _ | early _ | late _ _ => simp [diagnostic] at hcode
    | _ => simp [diagnostic, error] at hseverity
  | _ => simp [isDeadEnd] at hreport

end Finding

/-! ### What is found in a run -/

/-- What a node finds when it makes something of tokens is that a binding is passed over, that a
track cannot be rendered, that there would be too many copies, or that its type is not known. -/
theorem Node.cases_of_mem_pass {node : Node} {settings : FlowSettings} {created : Nat}
    {tokens : List Token} {finding : Finding}
    (h : finding ∈ (node.pass settings created tokens).findings) :
    (∃ binding, finding = .stale binding) ∨
      (∃ object problem, finding = .badTrack node.id object problem) ∨
      finding = .copyLimit node.id settings.limit ∨
      ∃ type objects, finding = .unknownType node.id type objects := by
  rw [pass] at h
  cases hkind : node.kind with
  | animation data =>
    rw [hkind] at h
    obtain ⟨result, hresult, hmem⟩ := List.mem_flatMap.mp h
    obtain ⟨token, -, rfl⟩ := List.mem_map.mp hresult
    rw [Animation.animate] at hmem
    dsimp only at hmem
    split at hmem
    · rcases List.mem_append.mp hmem with hmem | hmem
      · obtain ⟨binding, -, rfl⟩ := List.mem_map.mp hmem
        exact .inl ⟨binding, rfl⟩
      · exact .inr (.inl ⟨_, _, List.mem_singleton.mp hmem⟩)
    · obtain ⟨binding, -, rfl⟩ := List.mem_map.mp hmem
      exact .inl ⟨binding, rfl⟩
  | duplicate data =>
    rw [hkind] at h
    dsimp only [Duplication.pass] at h
    split at h
    · exact .inr (.inr (.inl (List.mem_singleton.mp h)))
    · exact absurd h List.not_mem_nil
  | unknown type =>
    rw [hkind] at h
    dsimp only at h
    split at h
    · exact absurd h List.not_mem_nil
    · exact .inr (.inr (.inr ⟨_, _, List.mem_singleton.mp h⟩))
  | insert data =>
    rw [hkind] at h
    dsimp only at h
    split at h <;> exact absurd h List.not_mem_nil
  | _ =>
    rw [hkind] at h
    exact absurd h List.not_mem_nil

/-- What is found when a node makes something of tokens does not tell of their way. -/
theorem Node.isOfWay_of_mem_pass {node : Node} {settings : FlowSettings} {created : Nat}
    {tokens : List Token} {finding : Finding}
    (h : finding ∈ (node.pass settings created tokens).findings) : finding.isOfWay = false := by
  obtain ⟨_, rfl⟩ | ⟨_, _, rfl⟩ | rfl | ⟨_, _, rfl⟩ := cases_of_mem_pass h <;> rfl

/-- What is found where tokens leave a node from which no link leads on tells of a dead end. -/
theorem Node.isDeadEnd_of_mem_deadEnds {node : Node} {severity : Severity} {tokens : List Token}
    {finding : Finding} (h : finding ∈ node.deadEnds severity tokens) :
    finding.isDeadEnd = true := by
  rw [deadEnds] at h
  split at h
  · exact absurd h List.not_mem_nil
  · split at h
    · rw [List.mem_singleton.mp h]
      rfl
    · obtain ⟨_, -, rfl⟩ := List.mem_map.mp h
      rfl

namespace Network

variable {limits : Limits} {net : Network} {settings : FlowSettings} {finding : Finding}

/-- What is found in the turn of a node is that too many tokens have arrived at it, or it is found
when it makes something of them or where they leave it. -/
theorem cases_of_mem_findings_turn {flow : Flow net.size} {v : Fin net.size}
    (h : finding ∈ (net.turn settings flow v).findings) :
    finding ∈ flow.findings ∨ (∃ count, finding = .crowded (net.id v) count settings.limit) ∨
      (∃ created tokens, finding ∈ ((net.node v).pass settings created tokens).findings) ∨
      ∃ out, finding ∈ (net.node v).deadEnds settings.coverage out := by
  rw [turn] at h
  dsimp only at h
  split at h
  · rcases List.mem_append.mp h with h | h
    · exact .inl h
    · exact .inr (.inl ⟨_, List.mem_singleton.mp h⟩)
  · rcases List.mem_append.mp h with h | h
    · exact (List.mem_append.mp h).imp_right fun hpass => .inr (.inl ⟨_, _, hpass⟩)
    · split at h
      · exact .inr (.inr (.inr ⟨_, h⟩))
      · exact absurd h List.not_mem_nil

/-- What a flow finds has been found in the turn of some node. -/
theorem cases_of_mem_findings_flow (h : finding ∈ (net.flow settings).findings) :
    ∃ v, (∃ count, finding = .crowded (net.id v) count settings.limit) ∨
      (∃ created tokens, finding ∈ ((net.node v).pass settings created tokens).findings) ∨
      ∃ out, finding ∈ (net.node v).deadEnds settings.coverage out := by
  rw [flow] at h
  generalize net.objectOrder = turns at h
  induction turns using List.reverseRecOn with
  | nil => exact absurd h List.not_mem_nil
  | append_singleton turns v ih =>
    rw [List.foldl_append, List.foldl_cons, List.foldl_nil] at h
    rcases cases_of_mem_findings_turn h with hbefore | hturn
    · exact ih hbefore
    · exact ⟨v, hturn⟩

theorem isOfFlow_of_mem_findings_flow (h : finding ∈ (net.flow settings).findings) :
    finding.isOfFlow = true := by
  obtain ⟨v, ⟨_, rfl⟩ | ⟨_, _, hpass⟩ | ⟨_, hends⟩⟩ := cases_of_mem_findings_flow h
  · rfl
  · obtain ⟨_, rfl⟩ | ⟨_, _, rfl⟩ | rfl | ⟨_, _, rfl⟩ := Node.cases_of_mem_pass hpass <;> rfl
  · exact Finding.isOfFlow_of_isDeadEnd (Node.isDeadEnd_of_mem_deadEnds hends)

/-- A smooth turn finds the dead ends of its node, and no others. -/
theorem mem_findings_turn {pre post : List (Fin net.size)} {v : Fin net.size}
    {flow : Flow net.size} (h : FlowsAs net settings.resolver pre flow)
    (horder : net.objectOrder = pre ++ v :: post)
    (hsmooth : Smooth net settings (net.births settings.resolver pre) v)
    (hdead : finding.isDeadEnd = true) :
    finding ∈ (net.turn settings flow v).findings ↔
      finding ∈ flow.findings ∨ net.objectsBehind v = [] ∧
        finding ∈ (net.node v).deadEnds settings.coverage (net.departing settings.resolver v) := by
  rw [turn]
  simp only [h.arrived_eq horder, h.created]
  split
  · rename_i hcrowded
    simp only [Bool.and_eq_true, Bool.not_eq_true', decide_eq_true_iff] at hcrowded
    exact absurd (hsmooth.length_le hcrowded.1) (by omega)
  · have hnot : finding ∉ ((net.node v).pass settings (net.births settings.resolver pre)
        (net.arriving settings.resolver v)).findings := fun hmem => by
      have hway := Finding.isOfWay_of_isDeadEnd hdead
      rw [Node.isOfWay_of_mem_pass hmem] at hway
      cases hway
    rw [(Node.pass_eq hsmooth.unhindered).1, List.mem_append, List.mem_append, or_iff_left hnot]
    refine or_congr_right ?_
    rw [← List.isEmpty_iff]
    split
    · rename_i hempty
      rw [and_iff_right hempty]
      rfl
    · rename_i hempty
      exact iff_of_false List.not_mem_nil fun hends => hempty hends.1

/-- Turns without errors find the dead ends of their nodes, and no others. -/
theorem mem_findings_foldl_turn {pre post : List (Fin net.size)}
    (horder : net.objectOrder = pre ++ post)
    (hquiet : Finding.NoError (pre.foldl (net.turn settings) (.start net.size)).findings)
    (hdead : finding.isDeadEnd = true) :
    finding ∈ (pre.foldl (net.turn settings) (.start net.size)).findings ↔
      ∃ v ∈ pre, net.objectsBehind v = [] ∧
        finding ∈ (net.node v).deadEnds settings.coverage (net.departing settings.resolver v) := by
  induction pre using List.reverseRecOn generalizing post with
  | nil => simp [Flow.start]
  | append_singleton pre v ih =>
    rw [List.append_assoc, List.singleton_append] at horder
    rw [List.foldl_append, List.foldl_cons, List.foldl_nil] at hquiet ⊢
    have hbefore := noError_of_turn hquiet
    have hflows := (foldl_turn_spec settings horder).2 hbefore
    have hsmooth := ((turn_spec settings hflows horder).1.mp hquiet).2
    rw [mem_findings_turn hflows horder hsmooth hdead, ih horder hbefore]
    simp only [List.mem_append, List.mem_singleton, or_and_right, exists_or, exists_eq_left]

/-- A flow without errors finds exactly the dead ends of the nodes. -/
theorem mem_findings_flow (h : Sound limits net)
    (hquiet : Finding.NoError (net.flow settings).findings) (hdead : finding.isDeadEnd = true) :
    finding ∈ (net.flow settings).findings ↔ ∃ v, net.objectsBehind v = [] ∧
      finding ∈ (net.node v).deadEnds settings.coverage (net.departing settings.resolver v) := by
  have hturns := mem_findings_foldl_turn (List.append_nil _).symm hquiet hdead
  rw [← flow] at hturns
  simp only [hturns, mem_objectOrder h, true_and]

end Network

/-! ### Routes that end dead -/

namespace Route

variable {limits : Limits} {net : Network} {settings : FlowSettings}

/-- A route passes no terminal and ends at a node from which no link leads on. -/
structure EndsDead (route : Route net) : Prop where
  /-- It passes no terminal. -/
  avoids : route.AvoidsTerminals
  /-- It does not end at a terminal either. -/
  notTerminal : (net.node route.last).kind.isTerminal = false
  /-- Objects cannot go on from its end. -/
  objectLinks_last : net.objectLinks route.last = []

/-- How the object of a route that ends dead is reported. -/
def report (route : Route net) : Finding :=
  if route.last = route.first then .unconnected (net.id route.last) .warning
  else .deadEnd route.object (net.id route.last)

theorem isDeadEnd_report (route : Route net) : route.report.isDeadEnd = true := by
  rw [report]
  split <;> rfl

theorem EndsDead.objectsBehind_last {route : Route net} (h : route.EndsDead) :
    net.objectsBehind route.last = [] := by
  rw [Network.objectsBehind, h.objectLinks_last, List.map_nil]

/-- A route that objects can take starts at a drawable node. -/
theorem Runs.isDrawable_first {route : Route net} (h : route.Runs) :
    (net.node route.first).kind.isDrawable = true := by
  induction route with
  | start v => exact h
  | step before link number ih => exact ih h.1

/-- The only drawable node on a route is the one at which it starts. -/
theorem Runs.isDrawable_last_iff (hsound : Network.Sound limits net) {route : Route net}
    (h : route.Runs) :
    (net.node route.last).kind.isDrawable = true ↔ route.last = route.first := by
  refine ⟨fun hdrawable => ?_, fun heq => heq ▸ h.isDrawable_first⟩
  cases route with
  | start v => rfl
  | step before link number =>
    have hnot := (Network.kind_of_mem_links hsound (List.getElem_mem link.isLt) h.2.2.1).1
    exact absurd (hdrawable.symm.trans hnot) (by simp)

/-- The token that goes a route for an object leaves the end of the route, unless this is a
terminal. -/
theorem exists_departing (h : Network.Sound limits net)
    (hfree : ∀ v, ∃ created, Network.Smooth net settings created v) {route : Route net}
    {origin : NodeId} (hruns : route.Runs) (havoids : route.AvoidsTerminals)
    (hterminal : (net.node route.last).kind.isTerminal = false)
    (hbearer : route.bearer (net.arriving settings.resolver) = some origin) :
    ∃ token ∈ net.departing settings.resolver route.last,
      token.name = route.object ∧ token.origin = origin := by
  obtain ⟨token, htraced, hname, horigin⟩ := exists_traced h hfree hruns havoids hbearer
  refine ⟨token, ?_, hname, horigin⟩
  rw [Network.departing_eq, if_neg (by simp [hterminal])]
  exact (Network.mem_made_iff h).mpr ⟨_, htraced, last_tail route⟩

end Route

namespace Network

variable {limits : Limits} {net : Network} {settings : FlowSettings} {finding : Finding}

/-- Every dead end in a run without errors is that of a route. -/
theorem exists_route_of_mem_findings_flow (h : Sound limits net)
    (hquiet : Finding.NoError (net.flow settings).findings) (hdead : finding.isDeadEnd = true)
    (hfinding : finding ∈ (net.flow settings).findings) :
    ∃ route : Route net, route.Runs ∧ route.EndsDead ∧
      (route.bearer (net.flow settings).arrived).isSome ∧ route.report = finding := by
  rw [mem_findings_flow h hquiet hdead] at hfinding
  rw [funext (arrived_flow hquiet)]
  obtain ⟨v, hbehind, hmem⟩ := hfinding
  have hlinks : net.objectLinks v = [] := List.map_eq_nil_iff.mp hbehind
  rw [Node.deadEnds] at hmem
  split at hmem
  · exact absurd hmem List.not_mem_nil
  split at hmem
  · rename_i hdrawable
    obtain ⟨created, hsmooth⟩ := exists_smooth hquiet h v
    rw [List.mem_singleton.mp hmem, hsmooth.connected hbehind hdrawable]
    exact ⟨.start v, hdrawable, ⟨trivial, NodeKind.isTerminal_of_isDrawable hdrawable, hlinks⟩, rfl,
      if_pos rfl⟩
  · rename_i hdrawable
    obtain ⟨token, htoken, rfl⟩ := List.mem_map.mp hmem
    rw [departing_eq] at htoken
    split at htoken
    · exact absurd htoken List.not_mem_nil
    rename_i hterminal
    obtain ⟨tail, htraced, hlast⟩ := (mem_made_iff h).mp htoken
    obtain ⟨route, hruns, rfl, hobject, -, havoids⟩ := exists_runs_of_traced h htraced
    rw [Route.last_tail] at hlast
    subst hlast
    refine ⟨route, hruns, ⟨havoids, Bool.eq_false_iff.mpr hterminal, hlinks⟩, ?_, ?_⟩
    · rw [htraced.bearer_eq hruns rfl hobject]
      rfl
    · rw [Route.report, if_neg (by rwa [← hruns.isDrawable_last_iff h]), hobject]
      rfl

/-- Every route with a bearer that ends dead is reported in a run without errors. -/
theorem report_mem_findings_flow (h : Sound limits net)
    (hquiet : Finding.NoError (net.flow settings).findings) {route : Route net}
    (hdead : route.report.isDeadEnd = true) (hruns : route.Runs) (hends : route.EndsDead)
    (hbearer : (route.bearer (net.flow settings).arrived).isSome) :
    route.report ∈ (net.flow settings).findings := by
  have hfree := exists_smooth hquiet h
  rw [mem_findings_flow h hquiet hdead]
  rw [funext (arrived_flow hquiet)] at hbearer
  obtain ⟨origin, hbearer⟩ := Option.isSome_iff_exists.mp hbearer
  obtain ⟨token, htoken, hname, -⟩ :=
    Route.exists_departing h hfree hruns hends.avoids hends.notTerminal hbearer
  refine ⟨route.last, hends.objectsBehind_last, ?_⟩
  rw [Node.deadEnds, if_neg (by simpa using List.ne_nil_of_mem htoken), Route.report]
  have hdrawable := hruns.isDrawable_last_iff h
  split
  · rename_i hlast
    rw [if_pos (hdrawable.mp hlast)]
    obtain ⟨created, hsmooth⟩ := hfree route.last
    rw [hsmooth.connected hends.objectsBehind_last hlast]
    exact List.mem_singleton_self _
  · rename_i hlast
    rw [if_neg (fun heq => hlast (hdrawable.mpr heq)), ← hname]
    exact List.mem_map_of_mem htoken

/-- A flow without errors reports exactly the routes that end dead and have a bearer. -/
theorem mem_findings_flow_iff_exists_route (h : Sound limits net)
    (hquiet : Finding.NoError (net.flow settings).findings) (hdead : finding.isDeadEnd = true) :
    finding ∈ (net.flow settings).findings ↔
      ∃ route : Route net, route.Runs ∧ route.EndsDead ∧
        (route.bearer (net.flow settings).arrived).isSome ∧ route.report = finding := by
  refine ⟨exists_route_of_mem_findings_flow h hquiet hdead, ?_⟩
  rintro ⟨route, hruns, hends, hbearer, rfl⟩
  exact report_mem_findings_flow h hquiet hdead hruns hends hbearer

/-- Where names are legible, a merge node keeps the object of every route, so every route that
passes no terminal is borne by the object that starts on it. -/
theorem Legible.bearer_eq (hlegible : net.Legible) (h : Sound limits net)
    (hquiet : Finding.NoError (net.flow settings).findings) {route : Route net}
    (hruns : route.Runs) (havoids : route.AvoidsTerminals) :
    route.bearer (net.flow settings).arrived = some (net.id route.first) := by
  induction route with
  | start v => rfl
  | step before link number ih =>
    obtain ⟨hbefore, hsource, hobjects, hadmits, -⟩ := hruns
    obtain ⟨havoids, hterminal⟩ := havoids
    have hbearer := ih hbefore havoids
    rw [Route.bearer]
    split
    · rename_i hmerge
      rw [funext (arrived_flow hquiet)] at hbearer
      obtain ⟨token, htoken, hname, horigin⟩ := Route.exists_departing h (exists_smooth hquiet h)
        hbefore havoids (hsource ▸ hterminal) hbearer
      have harrived : token ∈ (net.flow settings).arrived (net.link link).target := by
        rw [arrived_flow hquiet, mem_arriving_iff h]
        exact ⟨link, mem_objectLinkPlaces.mpr ⟨rfl, hobjects⟩, hsource ▸ htoken⟩
      -- What is kept under the name is of the line of the token, so it has its origin.
      have hinvariant := hlegible.invariant settings
      obtain ⟨result, hresult, hsame⟩ := Token.exists_mem_join harrived
      have hline := Token.line_eq_of_name
        (hinvariant.join _ hmerge (fun _ => hinvariant.of_mem_arrived) result hresult)
        (hinvariant.of_mem_arrived harrived) hsame
      rw [← hname, ← hsame, Token.find?_join, (Token.mem_join_iff _ _).mp hresult,
        Option.map_some, (Prod.mk.inj hline).1, horigin]
      rfl
    · rw [hbearer, Option.filter_some, if_pos hadmits]
      rfl

end Network

/-! ### Warnings -/

namespace Prepared

variable {net : Network} {limits : Limits} {prepared : Prepared} {overrides : Overrides}
  {key : Option String} {compilation : Compilation} {finding : Finding}

/-- The warnings of a compilation tell everything that the run has found. -/
theorem mem_warnings_iff (hrun : prepared.run overrides key = .ok compilation) (d : Diagnostic) :
    d ∈ compilation.warnings ↔
      ∃ finding ∈ prepared.told overrides key, finding.diagnostic = d := by
  rw [run_eq] at hrun
  split at hrun
  · cases hrun
  · rw [← Except.ok.inj hrun, mem_distinct, List.mem_map]

/-- What is told has been found by validation, on the way of objects, where they are delivered, or
when they become a scene. -/
theorem cases_of_mem_told (h : finding ∈ prepared.told overrides key) :
    finding ∈ prepared.findings ∨ finding ∈ (prepared.flow overrides key).findings ∨
      finding ∈ Network.uninserted prepared.coverage (prepared.flow overrides key).delivered ∨
      (∃ object count origin again, finding = .repeatedDelivery object count origin again) ∨
      (∃ binding, finding = .stale binding) ∨
      (∃ object origin problem, finding = .badTransform object origin problem) ∨
      (∃ placed, finding = .early placed) ∨ ∃ placed duration, finding = .late placed duration := by
  simp only [told, found, Network.deliveryFindings, List.mem_append] at h
  rcases h with (((hmem | hmem) | hmem | hmem) | hmem) | hmem
  · exact .inl hmem
  · exact .inr (.inl hmem)
  · obtain ⟨_, -, heq⟩ := (Network.mem_repeatedDeliveries_iff _ _ _).mp hmem
    exact .inr (.inr (.inr (.inl ⟨_, _, _, _, heq⟩)))
  · exact .inr (.inr (.inl hmem))
  · rw [stage] at hmem
    split at hmem
    · exact absurd hmem List.not_mem_nil
    · rcases Cast.stale_or_badTransform_of_mem_findings hmem with hstale | hbad
      · exact .inr (.inr (.inr (.inr (.inl hstale))))
      · exact .inr (.inr (.inr (.inr (.inr (.inl hbad)))))
  · exact .inr (.inr (.inr (.inr (.inr (.inr (early_or_late_of_mem_timeFindings hmem))))))

/-- What is told of the way of objects has been found on it, or at its end. -/
theorem mem_told_iff_of_isOfWay (h : net.prepare limits = .ok prepared)
    (hway : finding.isOfWay = true) :
    finding ∈ prepared.told overrides key ↔
      finding ∈ (prepared.flow overrides key).findings ∨
        finding ∈ Network.uninserted prepared.coverage
          (prepared.flow overrides key).delivered := by
  constructor
  · intro hmem
    obtain hmem | hmem | hmem | ⟨_, _, _, _, rfl⟩ | ⟨_, rfl⟩ | ⟨_, _, _, rfl⟩ | ⟨_, rfl⟩ |
      ⟨_, _, rfl⟩ := cases_of_mem_told hmem
    · obtain ⟨hsound, _, _, _, -, -, rfl⟩ := Network.prepare_eq_ok_iff.mp h
      obtain ⟨_, -, rfl⟩ := Network.eq_dangling_of_mem_findings hmem
        ((Network.sound_iff limits net).mpr hsound finding hmem)
      cases hway
    · exact .inl hmem
    · exact .inr hmem
    all_goals cases hway
  · intro hmem
    simp only [told, found, Network.deliveryFindings, List.mem_append]
    exact .inl (.inl (hmem.imp .inr .inr))

/-- The dead ends that are told have been found on the way of the objects. -/
theorem mem_told_iff_of_isDeadEnd (h : net.prepare limits = .ok prepared)
    (hdead : finding.isDeadEnd = true) :
    finding ∈ prepared.told overrides key ↔ finding ∈ (prepared.flow overrides key).findings := by
  rw [mem_told_iff_of_isOfWay h (Finding.isOfWay_of_isDeadEnd hdead), or_iff_left]
  intro hmem
  obtain ⟨_, -, rfl⟩ := List.mem_map.mp hmem
  cases hdead

/-- A dead end is warned of exactly if it has been found on the way of the objects. -/
theorem diagnostic_mem_warnings_iff (h : net.prepare limits = .ok prepared)
    (hrun : prepared.run overrides key = .ok compilation) (hdead : finding.isDeadEnd = true) :
    finding.diagnostic ∈ compilation.warnings ↔
      finding ∈ (prepared.flow overrides key).findings := by
  rw [mem_warnings_iff hrun]
  constructor
  · rintro ⟨other, hother, heq⟩
    obtain rfl := Finding.eq_of_diagnostic_eq hdead heq
    exact (mem_told_iff_of_isDeadEnd h hdead).mp hother
  · exact fun hmem => ⟨finding, (mem_told_iff_of_isDeadEnd h hdead).mpr hmem, rfl⟩

/-- The objects of a compilation are accounted for. It warns exactly of the routes that end dead
and have a bearer, the objects of the deliveries that have one are in the scene, and where names
are legible every route that passes no terminal has one. -/
theorem conservation (h : net.prepare limits = .ok prepared)
    (hrun : prepared.run overrides key = .ok compilation) :
    let borne := fun route : Route prepared.network =>
      (route.bearer (prepared.flow overrides key).arrived).isSome = true
    (∀ finding : Finding, finding.isDeadEnd = true →
        (finding.diagnostic ∈ compilation.warnings ↔
          ∃ route, route.Runs ∧ route.EndsDead ∧ borne route ∧ route.report = finding)) ∧
      (∀ route, route.Delivers → borne route →
        route.object ∈ compilation.scene.objects.map SceneObject.id) ∧
      (prepared.network.Legible → ∀ route, route.Runs → route.AvoidsTerminals → borne route) := by
  obtain ⟨hsound, -⟩ := Network.sound_of_prepare h
  have hquiet := ((noError_found_iff _ _ _).mp (of_run_eq_ok hrun).1).2.1
  refine ⟨fun finding hdead => ?_, fun route hdelivers hborne => ?_,
    fun hlegible route hruns havoids => ?_⟩
  · rw [diagnostic_mem_warnings_iff h hrun hdead]
    exact Network.mem_findings_flow_iff_exists_route hsound hquiet hdead
  · obtain ⟨terminal, hterminal, -⟩ := hsound.terminal
    have hbearer := (Network.isSome_bearer_iff hsound (Network.exists_smooth hquiet hsound)
      hterminal hdelivers).mp (by rwa [← funext (Network.arrived_flow hquiet)])
    obtain ⟨token, htraced, hlast, hname⟩ := hbearer
    rw [mem_ids_iff hrun, List.countP_pos_iff]
    refine ⟨token, ?_, by simpa using hname⟩
    rw [show (prepared.flow overrides key).delivered = _ from
      Network.delivered_flow hquiet hsound hterminal, ← Network.made_terminal hterminal]
    exact (Network.mem_made_iff hsound).mpr ⟨_, htraced, hlast⟩
  · exact Option.isSome_iff_exists.mpr ⟨_, hlegible.bearer_eq hsound hquiet hruns havoids⟩

end Prepared

/-! ### Networks that warn of dead ends -/

/-- The circle `a` and its copy end at the insert node `i`, and the circle `b` is connected to
nothing. -/
def strayCopy : Network :=
  .ofLinks
    #[⟨⟨"a"⟩, "", .geometry .plainCircle⟩, ⟨⟨"b"⟩, "", .geometry .plainCircle⟩,
      ⟨⟨"d"⟩, "", .duplicate ⟨1, .zero⟩⟩, ⟨⟨"i"⟩, "", .insert ⟨.always, 0⟩⟩,
      ⟨⟨"s"⟩, "", .terminal .video .small⟩]
    [⟨⟨⟨"e1"⟩, ⟨"a"⟩, ⟨""⟩, ⟨"d"⟩, ⟨""⟩⟩, 0, 2⟩,
      ⟨⟨⟨"e2"⟩, ⟨"d"⟩, ⟨""⟩, ⟨"i"⟩, ⟨""⟩⟩, 2, 3⟩]
    [] ⟨0, 0⟩

/-- The way of the copy of `a`. -/
def strayCopyRoute : Route strayCopy :=
  .step (.step (.start ⟨0, by decide⟩) ⟨0, by decide⟩ 1) ⟨1, by decide⟩ 0

/-- The way of `b`. -/
def strayRoute : Route strayCopy :=
  .start ⟨1, by decide⟩

theorem conservation_strayCopy :
    ∃ prepared compilation, strayCopy.prepare .standard = .ok prepared ∧
      prepared.run .empty none = .ok compilation ∧
      (Finding.deadEnd ⟨"a#d.1"⟩ ⟨"i"⟩).diagnostic ∈ compilation.warnings ∧
      (Finding.unconnected ⟨"b"⟩ .warning).diagnostic ∈ compilation.warnings := by
  have hlegible : strayCopy.Legible := by decide
  have hcopy : strayCopyRoute.Runs ∧ strayCopyRoute.AvoidsTerminals := by decide
  have hcopyEnds : strayCopyRoute.EndsDead := ⟨hcopy.2, by decide, rfl⟩
  have hcopyReport : strayCopyRoute.report = .deadEnd ⟨"a#d.1"⟩ ⟨"i"⟩ := by
    rw [Route.report, if_neg (by decide)]
    rfl
  have hstray : strayRoute.Runs ∧ strayRoute.AvoidsTerminals := by decide
  have hstrayEnds : strayRoute.EndsDead := ⟨hstray.2, by decide, rfl⟩
  have hstrayReport : strayRoute.report = .unconnected ⟨"b"⟩ .warning := if_pos rfl
  obtain ⟨prepared, compilation, hprepare, hrun, -⟩ :=
    Prepared.exists_run_eq_ok strayCopy .standard .empty none (fun _ => true) (by decide +kernel)
  obtain ⟨hwarns, -, hborne⟩ := Prepared.conservation hprepare hrun
  obtain ⟨_, _, _, _, -, -, rfl⟩ := Network.prepare_eq_ok_iff.mp hprepare
  refine ⟨_, compilation, hprepare, hrun, ?_, ?_⟩
  · exact (hwarns _ rfl).mpr ⟨strayCopyRoute, hcopy.1, hcopyEnds,
      hborne hlegible strayCopyRoute hcopy.1 hcopy.2, hcopyReport⟩
  · exact (hwarns _ rfl).mpr ⟨strayRoute, hstray.1, hstrayEnds,
      hborne hlegible strayRoute hstray.1 hstray.2, hstrayReport⟩

/-- A network with a drawable node that bears the name of a copy: `a#d.1` is also the copy of `a`
that the duplicate node `d` makes. Both arrive at the merge node `m`, the copy first, and the filter
`f` behind it, from which no link leads on, lets only the drawable node `a#d.1` pass. -/
def sharedEnd : Network :=
  .ofLinks
    #[⟨⟨"a"⟩, "", .geometry .plainCircle⟩, ⟨⟨"a#d.1"⟩, "", .geometry .plainCircle⟩,
      ⟨⟨"d"⟩, "", .duplicate ⟨1, .zero⟩⟩, ⟨⟨"i"⟩, "", .insert ⟨.always, 0⟩⟩,
      ⟨⟨"m"⟩, "", .merge ⟨2⟩⟩, ⟨⟨"f"⟩, "", .filter ⟨some [⟨"a#d.1"⟩], false⟩⟩,
      ⟨⟨"s"⟩, "", .terminal .video .small⟩]
    [⟨⟨⟨"e1"⟩, ⟨"a"⟩, ⟨""⟩, ⟨"d"⟩, ⟨""⟩⟩, 0, 2⟩,
      ⟨⟨⟨"e2"⟩, ⟨"a#d.1"⟩, ⟨""⟩, ⟨"i"⟩, ⟨""⟩⟩, 1, 3⟩,
      ⟨⟨⟨"e3"⟩, ⟨"d"⟩, ⟨""⟩, ⟨"m"⟩, ⟨"input-0"⟩⟩, 2, 4⟩,
      ⟨⟨⟨"e4"⟩, ⟨"i"⟩, ⟨""⟩, ⟨"m"⟩, ⟨"input-1"⟩⟩, 3, 4⟩,
      ⟨⟨⟨"e5"⟩, ⟨"m"⟩, ⟨""⟩, ⟨"f"⟩, ⟨""⟩⟩, 4, 5⟩]
    [] ⟨0, 0⟩

/-- The way of the drawable node `a#d.1`. -/
def sharedEndRoute : Route sharedEnd :=
  .step (.step (.step (.start ⟨1, by decide⟩) ⟨1, by decide⟩ 0) ⟨3, by decide⟩ 0) ⟨4, by decide⟩ 0

/-- Where names are shared, an object may come to a dead end without a warning. -/
theorem exists_report_notMem_warnings :
    ¬ ∀ (net : Network) (limits : Limits) (prepared : Prepared) (overrides : Overrides)
        (key : Option String) (compilation : Compilation), net.prepare limits = .ok prepared →
      prepared.run overrides key = .ok compilation →
        ∀ route : Route prepared.network, route.Runs → route.EndsDead →
          route.report.diagnostic ∈ compilation.warnings := by
  intro hclaim
  have hroute : sharedEndRoute.Runs ∧ sharedEndRoute.AvoidsTerminals := by decide
  have hends : sharedEndRoute.EndsDead := ⟨hroute.2, by decide, rfl⟩
  obtain ⟨prepared, compilation, hprepare, hrun, hnone⟩ :=
    Prepared.exists_run_eq_ok sharedEnd .standard .empty none
      (fun prepared => (prepared.flow .empty none).findings.all fun finding => !finding.isDeadEnd)
      (by decide +kernel)
  have hwarns := hclaim sharedEnd .standard prepared .empty none compilation hprepare hrun
  obtain ⟨_, _, _, _, -, -, rfl⟩ := Network.prepare_eq_ok_iff.mp hprepare
  have hdead := Route.isDeadEnd_report sharedEndRoute
  have hmem := (Prepared.diagnostic_mem_warnings_iff hprepare hrun hdead).mp
    (hwarns sharedEndRoute hroute.1 hends)
  have hreport := List.all_eq_true.mp hnone _ hmem
  simp [hdead] at hreport

end SceneFlow
