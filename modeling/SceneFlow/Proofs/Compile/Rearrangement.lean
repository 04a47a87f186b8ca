import Mathlib
import SceneFlow.Proofs.Compile.Births
import SceneFlow.Proofs.Compile.Meeting

/-!
# Networks whose nodes are rearranged

A network whose nodes are listed in another order is a part of the first that misses no node. It is
sound if the first is, and has the same terminal. If the same tokens arrive at its nodes, nothing
stops a node in it that is not stopped in the first. Only duplicate nodes look at more than their
tokens, and where one does, the limit is kept by all objects together.

## Main results

* `Network.Part.sound`: rearranged networks are sound.
* `Network.Part.exists_prepare`: they can be prepared.
* `Network.Part.noError_flow`: no error is found in their flow.
-/

namespace SceneFlow

open Token (outline along)

/-! ### Nodes treat the same tokens alike -/

/-- Nothing stops a node at tokens of the same outlines. -/
theorem Node.Unhindered.of_perm {node : Node} {settings settings' : FlowSettings}
    {created created' : Nat} {tokens tokens' : List Token}
    (h : node.Unhindered settings' created' tokens')
    (hresolver : settings'.resolver.Alike settings.resolver)
    (hperm : (tokens'.map (outline true)).Perm (tokens.map (outline true)))
    (hlimit : node.kind.isDuplicate = true →
      created + node.births tokens.length ≤ settings.limit) :
    node.Unhindered settings created tokens := by
  rw [Unhindered] at h ⊢
  cases hkind : node.kind with
  | animation data =>
    rw [hkind] at h
    intro token htoken
    obtain ⟨token', htoken', hout⟩ :=
      List.mem_map.mp (hperm.mem_iff.mpr (List.mem_map_of_mem htoken))
    have hcarry := congrArg List.length (node.map_outline_carry hresolver hout)
    have hsome := h token' htoken'
    simp only [carry, hkind, List.length_map] at hcarry
    cases hresult : (data.animate settings.resolver node.id token).1 with
    | some result => rfl
    | none =>
      rw [Option.isSome_iff_exists] at hsome
      obtain ⟨result', hresult'⟩ := hsome
      simp [hresult, hresult'] at hcarry
  | duplicate data =>
    have hbirths := hlimit (by rw [hkind]; rfl)
    rwa [births, hkind] at hbirths
  | unknown type =>
    rw [hkind] at h
    dsimp only at h ⊢
    rw [h, List.map_nil] at hperm
    exact List.map_eq_nil_iff.mp hperm.nil_eq.symm
  | geometry _ | insert _ | filter _ | merge _ | constant _ | result _ | textStyle _
  | terminal _ _ | comparison _ | logic _ | math _ => trivial

namespace Network.Part

variable {part whole : Network} {limits limits' : Limits} (h : Part part whole)

/-! ### Links -/

theorem along_mem_links {link : Link part.size} (hlink : link ∈ part.links) :
    link.along h.place ∈ whole.links := by
  have hmem : link.along h.place ∈ part.links.map (Link.along h.place) := List.mem_map_of_mem hlink
  rw [h.links_eq] at hmem
  exact (List.mem_filter.mp hmem).1

theorem refusal?_along (link : Link part.size) :
    whole.refusal? (link.along h.place) = part.refusal? link := by
  rw [refusal?, refusal?, h.carriesObjects_along, Link.along, h.node_eq]

section Full

variable (hfull : Function.Surjective h.place)
include hfull

theorem size_eq : part.size = whole.size := by
  simpa using Fintype.card_of_bijective ⟨h.injective, hfull⟩

theorem places_perm : (part.places.map h.place).Perm whole.places := by
  refine (List.perm_ext_iff_of_nodup (part.nodup_places.map h.injective)
    whole.nodup_places).mpr fun u => ?_
  obtain ⟨v, rfl⟩ := hfull u
  exact iff_of_true (List.mem_map_of_mem (mem_places v)) (mem_places _)

/-- A node that nothing is behind has nothing behind it in the whole. -/
theorem objectsBehind_eq_nil {v : Fin part.size} (hv : part.objectsBehind v = []) :
    whole.objectsBehind (h.place v) = [] := by
  rw [List.eq_nil_iff_forall_not_mem] at hv ⊢
  intro u hu
  obtain ⟨link, hlink, hobjects, hsource, -⟩ := mem_objectsBehind_iff.mp hu
  have hmem : link ∈ part.links.map (Link.along h.place) := by
    rw [h.links_eq]
    exact List.mem_filter.mpr ⟨hlink, decide_eq_true ⟨⟨v, hsource.symm⟩, hfull link.target⟩⟩
  obtain ⟨link', hlink', rfl⟩ := List.mem_map.mp hmem
  rw [h.carriesObjects_along] at hobjects
  exact hv link'.target
    (mem_objectsBehind_iff.mpr ⟨link', hlink', hobjects, h.injective hsource, rfl⟩)

/-! ### Preparation -/

/-- A network whose nodes are rearranged is sound. -/
theorem sound (hwhole : Sound limits whole) : Sound limits part where
  size_le := h.size_eq hfull ▸ hwhole.size_le
  terminal := by
    obtain ⟨u, hu, huniq⟩ := hwhole.terminal
    obtain ⟨v, rfl⟩ := hfull u
    rw [h.node_eq] at hu
    refine ⟨v, hu, fun w hw => h.injective (huniq (h.place w) ?_)⟩
    dsimp only
    rwa [h.node_eq]
  id_injective v w heq := h.injective (hwhole.id_injective (by rw [h.id_eq, h.id_eq, heq]))
  nodes v := by
    rw [← h.node_eq]
    exact hwhole.nodes _
  names v w hv hw hname := by
    simp only [← h.node_eq] at hv hw hname
    exact h.injective (hwhole.names _ _ hv hw hname)
  links link hlink := by
    rw [← h.refusal?_along]
    exact hwhole.links _ (h.along_mem_links hlink)
  acyclic := by
    refine hwhole.acyclic.comap h.place fun v w harc => ?_
    obtain ⟨link, hlink, rfl, rfl⟩ := mem_behind_iff.mp harc
    exact mem_behind_iff.mpr ⟨link.along h.place, h.along_mem_links hlink, rfl, rfl⟩

theorem terminal?_eq (hwhole : Sound limits whole) : part.terminal? = whole.terminal? := by
  obtain ⟨u, output, canvas, hkind, huniq, hterminal⟩ := hwhole.exists_terminal
  obtain ⟨v, output', canvas', hkind', -, hterminal'⟩ := (h.sound hfull hwhole).exists_terminal
  have hplace : h.place v = u := huniq _ (by rw [h.node_eq, hkind']; rfl)
  rw [← hplace, h.node_eq, hkind'] at hkind
  rw [hterminal, hterminal', NodeKind.terminal.inj hkind |>.1, NodeKind.terminal.inj hkind |>.2]

/-- A network whose nodes are rearranged can be prepared. -/
theorem exists_prepare {prepared : Prepared} (hprepare : whole.prepare limits = .ok prepared) :
    ∃ prepared', part.prepare limits = .ok prepared' ∧ prepared'.output = prepared.output ∧
      prepared'.canvas = prepared.canvas ∧ prepared'.instances = prepared.instances := by
  obtain ⟨hwhole, output, canvas, values, hterminal, -, rfl⟩ := prepare_eq_ok_iff.mp hprepare
  have hpart := h.sound hfull hwhole
  rw [← h.terminal?_eq hfull hwhole] at hterminal
  exact ⟨_, prepare_eq_ok_iff.mpr
    ⟨hpart, output, canvas, _, hterminal, evaluate_eq_ok hpart, rfl⟩, rfl, rfl, rfl⟩

/-! ### The flow -/

variable (settings settings' : FlowSettings)

/-- As many objects come into being when the nodes are rearranged. -/
theorem births_places_eq
    (hperm : ∀ v, ((whole.arriving settings'.resolver (h.place v)).map (outline true)).Perm
      ((part.arriving settings.resolver v).map (outline true))) :
    part.births settings.resolver part.places = whole.births settings'.resolver whole.places := by
  rw [← births_perm _ (h.places_perm hfull), births, births, List.map_map]
  refine congrArg _ (List.map_congr_left fun v _ => ?_)
  have hlength := (hperm v).length_eq
  rw [List.length_map, List.length_map] at hlength
  rw [Function.comp_apply, h.node_eq, hlength]

/-- If the same tokens arrive, no error is found when the nodes are rearranged. -/
theorem noError_flow (hpart : Sound limits part) (hwhole : Sound limits' whole)
    (hresolver : settings'.resolver.Alike settings.resolver)
    (hcoverage : settings.coverage = settings'.coverage)
    (hlimit : settings.limit = settings'.limit) (hroomy : whole.Roomy settings'.limit)
    (hperm : ∀ v, ((whole.arriving settings'.resolver (h.place v)).map (outline true)).Perm
      ((part.arriving settings.resolver v).map (outline true)))
    (hquiet : Finding.NoError (whole.flow settings').findings) :
    Finding.NoError (part.flow settings).findings := by
  refine (noError_flow_iff part settings).mpr fun turns v hinit => ?_
  obtain ⟨created, hsmooth⟩ := exists_smooth hquiet hwhole (h.place v)
  have hlength := (hperm v).length_eq
  rw [List.length_map, List.length_map] at hlength
  refine ⟨fun hmerge => ?_, ?_, fun hbehind hdrawable => ?_⟩
  · rw [← hlength, hlimit]
    exact hsmooth.length_le (by rw [h.node_eq, hmerge])
  · have hunhindered := hsmooth.unhindered
    rw [h.node_eq] at hunhindered
    refine hunhindered.of_perm hresolver (hperm v) fun hduplicate => ?_
    -- What has come into being up to this turn is part of all that comes into being.
    rw [← births_concat, hlimit]
    refine (births_prefix_le hpart _ hinit).trans ?_
    rw [h.births_places_eq hfull settings settings' hperm]
    exact births_le_limit hwhole hquiet hroomy ⟨h.place v, by rw [h.node_eq, hduplicate]⟩
  · rw [hcoverage]
    exact hsmooth.connected (h.objectsBehind_eq_nil hfull hbehind) (by rw [h.node_eq, hdrawable])

end Full

end Network.Part

end SceneFlow
