import Mathlib
import SceneFlow.Proofs.Compile.Invariant
import SceneFlow.Proofs.Compile.Meeting
import SceneFlow.Proofs.Motion.Rendering

/-!
# Where motions come from and where they end

A motion is rendered when a token passes an animation node, and stays with what becomes of the
token. Where tokens of one name that meet are of one line, the tokens for which an animation node
has rendered the motions that meet are of one line as well, since no token passes a node twice. So
such motions differ in nothing but their starts, and not even in these if the tokens come to the
animation node at one time.

## Main definitions

* `Token.SharesMotions`: two tokens have the same motions from the tracks that have moved both.
* `Network.Meets`: whatever tokens meet in a flow are related.
* `Network.RenderedFor`: a motion of a token was rendered for a token that it comes from.
* `Network.Becomes`: a token ends up as a delivered token.

## Main results

* `Network.exists_renderedFor`: where the motions of a token come from.
* `Network.Becomes.mem_motions`: a motion is kept as long as no other takes its place.
-/

namespace SceneFlow

/-! ### Where motions come from -/

/-- Two tokens have equal motions from each track that has moved both. -/
def Token.SharesMotions (token other : Token) : Prop :=
  ∀ m ∈ token.motions, ∀ m' ∈ other.motions, m.1 = m'.1 → m.2 = m'.2

namespace Network

variable {limits : Limits} {net : Network} {settings : FlowSettings}

/-- Whatever two tokens of one name meet at a merge node of a flow are related. -/
def Meets (net : Network) (settings : FlowSettings) (related : Token → Token → Prop) : Prop :=
  ∀ v, (net.node v).kind.isMerge = true → ∀ token ∈ (net.flow settings).arrived v,
    ∀ other ∈ (net.flow settings).arrived v, token.name = other.name → related token other

/-- A motion of a token was rendered at a node for a token that it comes from: it has been copied
at later nodes only since. -/
structure RenderedFor (net : Network) (settings : FlowSettings) (u : Fin net.size)
    (first token : Token) (m : TrackOrigin × Motion) : Prop where
  /-- The node is that of the track. -/
  id_eq : net.id u = m.1.node
  /-- The token has come to the node. -/
  arrived : first ∈ (net.flow settings).arrived u
  /-- The motion has been rendered for it. -/
  rendered : ∃ data, (net.node u).kind = .animation data ∧ ∃ rendered,
    (Animation.render settings.resolver first.name first.cursor data.tracks).1 = .ok rendered ∧
      (rendered[m.1.slot]?).map Prod.snd = some m.2
  /-- Both have the same drawable node. -/
  origin : first.origin = token.origin
  /-- Later marks have been left at nodes behind. -/
  copies : ∃ later, token.copies = first.copies ++ later ∧ ∀ mark ∈ later, ∃ d,
    Relation.TransGen (Digraph.Arc net.objectsBehind) u d ∧ net.id d = mark.node

/-- What holds of the marks and the motions of a token that has passed some nodes. -/
structure Descends (net : Network) (settings : FlowSettings) (passed : Fin net.size → Prop)
    (token : Token) : Prop where
  /-- Its marks have been left by nodes that it has passed. -/
  marks : ∀ mark ∈ token.copies, ∃ d, passed d ∧ net.id d = mark.node
  /-- Its motions have been rendered at nodes that it has passed. -/
  motions : ∀ m ∈ token.motions, ∃ u first, passed u ∧ net.RenderedFor settings u first token m

variable {passed more : Fin net.size → Prop} {token other : Token}

theorem Descends.mono (h : net.Descends settings passed token) (hsub : ∀ u, passed u → more u) :
    net.Descends settings more token where
  marks mark hmark := by
    obtain ⟨d, hd, hid⟩ := h.marks mark hmark
    exact ⟨d, hsub d hd, hid⟩
  motions m hm := by
    obtain ⟨u, first, hu, hrendered⟩ := h.motions m hm
    exact ⟨u, first, hsub u hu, hrendered⟩

theorem RenderedFor.congr {u : Fin net.size} {first : Token} {m : TrackOrigin × Motion}
    (h : net.RenderedFor settings u first token m) (hline : token.line = other.line) :
    net.RenderedFor settings u first other m := by
  obtain ⟨horigin, hcopies⟩ := Prod.mk.inj hline
  exact ⟨h.id_eq, h.arrived, h.rendered, horigin ▸ h.origin, hcopies ▸ h.copies⟩

theorem Descends.congr (h : net.Descends settings passed token) (hline : token.line = other.line)
    (hmotions : other.motions ⊆ token.motions) : net.Descends settings passed other where
  marks := (Prod.mk.inj hline).2 ▸ h.marks
  motions m hm := by
    obtain ⟨u, first, hu, hrendered⟩ := h.motions m (hmotions hm)
    exact ⟨u, first, hu, hrendered.congr hline⟩

section Twice

variable {u : Fin net.size} {first first' : Token} {m m' : TrackOrigin × Motion}
  (h : net.RenderedFor settings u first token m) (h' : net.RenderedFor settings u first' other m')
  (hline : first.line = first'.line) (horigin : m.1 = m'.1)
include h h' hline horigin

/-- Motions of one track that were rendered for tokens of one line are results of one rendering at
the times of these. -/
theorem RenderedFor.exists_rendered :
    ∃ tracks rendered rendered',
      (Animation.render settings.resolver first.name first.cursor tracks).1 = .ok rendered ∧
      (Animation.render settings.resolver first.name first'.cursor tracks).1 = .ok rendered' ∧
        (rendered[m.1.slot]?).map Prod.snd = some m.2 ∧
        (rendered'[m.1.slot]?).map Prod.snd = some m'.2 := by
  obtain ⟨data, hkind, rendered, hrendered, hm⟩ := h.rendered
  obtain ⟨data', hkind', rendered', hrendered', hm'⟩ := h'.rendered
  cases hkind.symm.trans hkind'
  obtain ⟨horigins, hcopies⟩ := Prod.mk.inj hline
  rw [← Token.name_eq_of_copies horigins hcopies] at hrendered'
  exact ⟨data.tracks, rendered, rendered', hrendered, hrendered', hm, horigin ▸ hm'⟩

/-- They differ in nothing but their starts. -/
theorem RenderedFor.sameButStart : m.2.SameButStart m'.2 := by
  obtain ⟨tracks, rendered, rendered', hrendered, hrendered', hm, hm'⟩ :=
    h.exists_rendered h' hline horigin
  obtain ⟨r, hr, hmotion⟩ := Option.map_eq_some_iff.mp hm
  obtain ⟨r', hr', hmotion'⟩ := Option.map_eq_some_iff.mp hm'
  obtain ⟨hlt, rfl⟩ := List.getElem?_eq_some_iff.mp hr
  obtain ⟨hlt', rfl⟩ := List.getElem?_eq_some_iff.mp hr'
  have hsame := (Animation.render_congr hrendered hrendered').get hlt hlt'
  rw [← hmotion, ← hmotion']
  exact hsame

/-- They are equal if these tokens have come at one time. -/
theorem RenderedFor.motion_eq (hcursor : first.cursor = first'.cursor) : m.2 = m'.2 := by
  obtain ⟨tracks, rendered, rendered', hrendered, hrendered', hm, hm'⟩ :=
    h.exists_rendered h' hline horigin
  rw [← hcursor, hrendered, Except.ok.injEq] at hrendered'
  rw [← hrendered', hm, Option.some.injEq] at hm'
  exact hm'

end Twice

/-- A copy that is made behind the node of a motion. -/
theorem RenderedFor.copy {u v : Fin net.size} {first : Token} {m : TrackOrigin × Motion}
    (h : net.RenderedFor settings u first token m)
    (huv : Relation.TransGen (Digraph.Arc net.objectsBehind) u v) (step : Vec2) (number : Nat) :
    net.RenderedFor settings u first (token.copy (net.id v) step number) m where
  id_eq := h.id_eq
  arrived := h.arrived
  rendered := h.rendered
  origin := h.origin
  copies := by
    obtain ⟨later, hcopies, hlater⟩ := h.copies
    refine ⟨later ++ [⟨net.id v, number⟩], by simp [Token.copy, hcopies], ?_⟩
    refine List.forall_mem_append.mpr ⟨hlater, List.forall_mem_singleton.mpr ⟨v, huv, rfl⟩⟩

/-- A node lets the marks and motions of a token be, adds a mark or adds motions. -/
theorem Descends.carry {v : Fin net.size} (harrived : token ∈ (net.flow settings).arrived v)
    (h : net.Descends settings (Relation.TransGen (Digraph.Arc net.objectsBehind) · v) token)
    {result : Token} (hresult : result ∈ (net.node v).carry settings.resolver token) :
    net.Descends settings (Relation.ReflTransGen (Digraph.Arc net.objectsBehind) · v) result := by
  have hstays := h.mono fun u hu => hu.to_reflTransGen
  cases Node.carries_of_mem_carry hresult with
  | pass | insert | restyle => exact hstays.congr rfl fun _ hm => hm
  | copy data hkind number =>
    refine ⟨List.forall_mem_append.mpr ⟨hstays.marks, ?_⟩, fun m hm => ?_⟩
    · exact List.forall_mem_singleton.mpr ⟨v, .refl, rfl⟩
    · obtain ⟨u, first, hu, hrendered⟩ := h.motions m hm
      exact ⟨u, first, hu.to_reflTransGen, hrendered.copy hu data.offset number⟩
  | animate data hkind hanimate =>
    obtain ⟨rendered, hrender, rfl⟩ := Animation.animate_fst_eq_some_iff.mp hanimate
    refine ⟨hstays.marks, List.forall_mem_append.mpr ⟨fun m hm => ?_, fun m hm => ?_⟩⟩
    · obtain ⟨u, first, hu, hrendered⟩ := hstays.motions m hm
      exact ⟨u, first, hu, hrendered.congr rfl⟩
    · obtain ⟨⟨⟨track, motion⟩, slot⟩, hslot, rfl⟩ := List.mem_map.mp hm
      refine ⟨v, token, .refl, rfl, harrived, ⟨data, hkind, rendered, hrender, ?_⟩, rfl,
        [], (List.append_nil _).symm, fun _ hmark => absurd hmark List.not_mem_nil⟩
      rw [List.mem_zipIdx_iff_getElem?.mp hslot]
      rfl

/-- Where tokens of one name that meet are of one line, the motions of tokens can be traced to the
animation nodes. -/
theorem descends_invariant (hneat : ∀ v, ∀ t ∈ (net.flow settings).arrived v, t.Neat)
    (hmeet : net.Meets settings fun t t' => t.line = t'.line) :
    net.Invariant settings
      (fun v => net.Descends settings (Relation.TransGen (Digraph.Arc net.objectsBehind) · v))
      fun v => net.Descends settings
        (Relation.ReflTransGen (Digraph.Arc net.objectsBehind) · v) where
  seed v data _ := ⟨fun _ hmark => absurd hmark List.not_mem_nil,
    fun _ hm => absurd hm List.not_mem_nil⟩
  join v hmerge harrived r hr := by
    have hjoin := Token.isJoin_of_fuse (fun t ht => hneat v t (List.mem_filter.mp ht).1)
      ((Token.mem_join_iff _ r).mp hr)
    obtain ⟨first, hfirst, horigin, hcopies⟩ := Token.exists_mem_of_mem_join hr
    have hmarks := (harrived first hfirst).mono fun u hu => hu.to_reflTransGen
    refine ⟨hcopies ▸ hmarks.marks, fun m hm => ?_⟩
    obtain ⟨t, ht, hmem⟩ := hjoin.motions m hm
    obtain ⟨ht, hname⟩ := List.mem_filter.mp ht
    have hline : t.line = r.line := by
      have hnames : t.name = first.name :=
        (of_decide_eq_true hname).trans (Token.name_eq_of_copies horigin hcopies).symm
      rw [hmeet v hmerge t ht first hfirst hnames, Token.line, Token.line, horigin, hcopies]
    obtain ⟨u, source, hu, hrendered⟩ := (harrived t ht).motions m hmem
    exact ⟨u, source, hu.to_reflTransGen, hrendered.congr hline⟩
  carry v _ t ht h r hr := h.carry ht hr
  move u v hv t h := h.mono fun w hw => .tail' hw hv

section Source

variable {v : Fin net.size} (h : Sound limits net)
  (hneat : ∀ v, ∀ t ∈ (net.flow settings).arrived v, t.Neat)
  (hmeet : net.Meets settings fun t t' => t.line = t'.line)
include h hneat hmeet

/-- Motions of one track that tokens of one line have come with were rendered for tokens of one
line: a mark that only one of these had would have been left before and behind the node. -/
theorem exists_renderedFor (htoken : token ∈ (net.flow settings).arrived v)
    (hother : other ∈ (net.flow settings).arrived v) (hline : token.line = other.line)
    {m m' : TrackOrigin × Motion} (hm : m ∈ token.motions) (hm' : m' ∈ other.motions)
    (horigin : m.1 = m'.1) :
    ∃ u first first', net.RenderedFor settings u first token m ∧
      net.RenderedFor settings u first' other m' ∧ first.line = first'.line := by
  have hinvariant := descends_invariant hneat hmeet
  obtain ⟨u, first, -, hfirst⟩ := (hinvariant.of_mem_arrived htoken).motions m hm
  obtain ⟨u', first', -, hfirst'⟩ := (hinvariant.of_mem_arrived hother).motions m' hm'
  obtain rfl : u = u' := h.id_injective (by rw [hfirst.id_eq, hfirst'.id_eq, horigin])
  have hdisjoint : ∀ {start : Token} {later : List CopyMark} {mark : CopyMark},
      start ∈ (net.flow settings).arrived u → (∀ mark ∈ later, ∃ d,
        Relation.TransGen (Digraph.Arc net.objectsBehind) u d ∧ net.id d = mark.node) →
      mark ∈ start.copies → mark ∉ later := by
    intro start later mark hstart hlater hmark hmark'
    obtain ⟨d, hd, hid⟩ := (hinvariant.of_mem_arrived hstart).marks mark hmark
    obtain ⟨d', hd', hid'⟩ := hlater mark hmark'
    obtain rfl := h.id_injective (hid.trans hid'.symm)
    exact acyclic_objectsBehind h u (hd'.trans hd)
  obtain ⟨horigins, hcopies⟩ := Prod.mk.inj hline
  obtain ⟨later, hlater, hbehind⟩ := hfirst.copies
  obtain ⟨later', hlater', hbehind'⟩ := hfirst'.copies
  have heq : first.copies = first'.copies := by
    rcases List.append_eq_append_iff.mp (hlater.symm.trans (hcopies.trans hlater')) with
      ⟨mid, hmid, rfl⟩ | ⟨mid, hmid, rfl⟩
    · cases mid with
      | nil => rw [hmid, List.append_nil]
      | cons mark mid =>
        exact absurd List.mem_cons_self (hdisjoint hfirst'.arrived hbehind (by rw [hmid]; simp))
    · cases mid with
      | nil => rw [hmid, List.append_nil]
      | cons mark mid =>
        exact absurd List.mem_cons_self (hdisjoint hfirst.arrived hbehind' (by rw [hmid]; simp))
  refine ⟨u, first, first', hfirst, hfirst', ?_⟩
  rw [Token.line, Token.line, hfirst.origin, hfirst'.origin, horigins, heq]

end Source

/-- Tokens of one line come to each animation node at one time. -/
def Punctual (net : Network) (settings : FlowSettings) : Prop :=
  ∀ u data, (net.node u).kind = .animation data →
    ∀ t ∈ (net.flow settings).arrived u, ∀ t' ∈ (net.flow settings).arrived u,
      t.line = t'.line → t.cursor = t'.cursor

end Network

/-! ### Where tokens end -/

namespace Network

variable {net : Network} {settings : FlowSettings} {token : Token}

/-- A token that has come to a node ends up as the last one, which is delivered. -/
inductive Becomes (net : Network) (settings : FlowSettings) (last : Token) :
    Fin net.size → Token → Prop where
  /-- It is delivered itself. -/
  | delivered (v : Fin net.size) (hterminal : (net.node v).kind.isTerminal = true)
    (harrived : last ∈ (net.flow settings).arrived v) : Becomes net settings last v last
  /-- What the node makes of it goes on. -/
  | carried (v w : Fin net.size) {token result : Token}
    (hmerge : (net.node v).kind.isMerge = false)
    (harrived : token ∈ (net.flow settings).arrived v)
    (hresult : result ∈ (net.node v).carry settings.resolver token)
    (hlink : w ∈ net.objectsBehind v) (hnext : Becomes net settings last w result) :
    Becomes net settings last v token
  /-- What a merge node keeps under its name goes on. -/
  | joined (v w : Fin net.size) {token result : Token}
    (hmerge : (net.node v).kind.isMerge = true)
    (harrived : token ∈ (net.flow settings).arrived v)
    (hresult : result ∈ Token.join ((net.flow settings).arrived v))
    (hname : result.name = token.name) (hlink : w ∈ net.objectsBehind v)
    (hnext : Becomes net settings last w result) : Becomes net settings last v token

/-- No node takes a motion from a token that it treats by itself. -/
theorem motions_subset_of_mem_carry {node : Node} {resolver : Resolver} {result : Token}
    (h : result ∈ node.carry resolver token) : token.motions ⊆ result.motions := by
  cases Node.carries_of_mem_carry h with
  | pass | insert | restyle | copy => exact fun _ hm => hm
  | animate data hkind hanimate =>
    obtain ⟨rendered, -, rfl⟩ := Animation.animate_fst_eq_some_iff.mp hanimate
    exact List.subset_append_left _ _

/-- A motion is kept on the way of its token where motions of one track that meet are equal. -/
theorem Becomes.mem_motions {last : Token} {v : Fin net.size}
    (h : net.Becomes settings last v token)
    (hneat : ∀ v, ∀ t ∈ (net.flow settings).arrived v, t.Neat)
    (hequal : net.Meets settings Token.SharesMotions)
    {m : TrackOrigin × Motion} (hm : m ∈ token.motions) : m ∈ last.motions := by
  induction h with
  | delivered => exact hm
  | carried v w hmerge harrived hresult hlink hnext ih =>
    exact ih (motions_subset_of_mem_carry hresult hm)
  | @joined v w token result hmerge harrived hresult hname hlink hnext ih =>
    have hjoin := Token.isJoin_of_fuse (fun t ht => hneat v t (List.mem_filter.mp ht).1)
      ((Token.mem_join_iff _ result).mp hresult)
    have hgroup : token ∈ ((net.flow settings).arrived v).filter fun t => t.name = result.name :=
      List.mem_filter.mpr ⟨harrived, decide_eq_true hname.symm⟩
    obtain ⟨m', hm', horigin⟩ := List.mem_map.mp (hjoin.tracks token hgroup m hm)
    obtain ⟨t, ht, hmem⟩ := hjoin.motions m' hm'
    obtain ⟨ht, htname⟩ := List.mem_filter.mp ht
    have hmotion := hequal v hmerge t ht token harrived
      ((of_decide_eq_true htname).trans hname) m' hmem m hm horigin
    exact ih (Prod.ext horigin hmotion ▸ hm')

/-- What a token becomes is delivered. -/
theorem Becomes.exists_terminal {last : Token} {v : Fin net.size}
    (h : net.Becomes settings last v token) :
    ∃ w, (net.node w).kind.isTerminal = true ∧ last ∈ (net.flow settings).arrived w := by
  induction h with
  | delivered v hterminal harrived => exact ⟨v, hterminal, harrived⟩
  | carried _ _ _ _ _ _ _ ih => exact ih
  | joined _ _ _ _ _ _ _ _ ih => exact ih

/-- What an animation node renders for a token that ends up somewhere is among the motions of what
the token becomes. -/
theorem Becomes.exists_rendered {last : Token} {v : Fin net.size}
    (h : net.Becomes settings last v token) {data : Animation}
    (hkind : (net.node v).kind = .animation data)
    (hneat : ∀ v, ∀ t ∈ (net.flow settings).arrived v, t.Neat)
    (hequal : net.Meets settings Token.SharesMotions) :
    ∃ rendered, (Animation.render settings.resolver token.name token.cursor data.tracks).1 =
      .ok rendered ∧ ∀ r ∈ rendered, r.2 ∈ last.motions.map Prod.snd := by
  cases h with
  | delivered _ hterminal _ => simp [hkind, NodeKind.isTerminal] at hterminal
  | joined _ _ hmerge => simp [hkind, NodeKind.isMerge] at hmerge
  | @carried _ w _ result _ _ hresult _ hnext =>
    rw [Node.carry, hkind, Option.mem_toList] at hresult
    obtain ⟨rendered, hrendered, rfl⟩ := Animation.animate_fst_eq_some_iff.mp hresult
    refine ⟨rendered, hrendered, fun r hr => ?_⟩
    obtain ⟨slot, hslot⟩ := List.mem_iff_getElem?.mp hr
    have hzip : (r, slot) ∈ rendered.zipIdx := List.mem_zipIdx_iff_getElem?.mpr hslot
    have hmotion := hnext.mem_motions hneat hequal (m := (⟨net.id v, slot⟩, r.2))
      (List.mem_append_right _ (List.mem_map.mpr ⟨(r, slot), hzip, rfl⟩))
    exact List.mem_map_of_mem hmotion

end Network

end SceneFlow
