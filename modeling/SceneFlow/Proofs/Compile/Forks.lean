import Mathlib
import SceneFlow.Proofs.Compile.DeadEnds
import SceneFlow.Proofs.Compile.Naming
import SceneFlow.Proofs.Graph.Branches

/-!
# Where routes part

Two routes from one node run together up to some point. Then one of them ends, or they part: they
leave a node along different links, or follow different copies. In a network without circles a
route meets no node twice, so the marks in the name of an object tell which copies have been
followed. Hence deliveries of one object, legibly named, part at a node that several links leave.

## Main definitions

* `Route.Within`: a route is the beginning of another.
* `Route.marks`: the marks that the object of a route has got on the way.

## Main results

* `Route.within_or_part`: routes from one node part, or one is the beginning of the other.
* `Route.eq_of_object`: the object of a route tells where it starts and which marks it has got.
* `Route.exists_parts`, `Route.exists_parts_of_tail`: where deliveries of one object part.
-/

namespace SceneFlow

namespace Route

variable {limits : Limits} {net : Network} {route other part whole : Route net}

/-! ### Beginnings of routes -/

/-- A route is the beginning of another. -/
inductive Within : Route net → Route net → Prop
  /-- A route is its own beginning. -/
  | refl (route : Route net) : Within route route
  /-- What is the beginning of a route stays so when the route goes on. -/
  | step {part route : Route net} (link : Fin net.links.length) (number : ℕ)
    (h : Within part route) : Within part (step route link number)

theorem Within.first_eq (h : Within part whole) : part.first = whole.first := by
  induction h with
  | refl => rfl
  | step _ _ _ ih => exact ih

theorem Within.runs (h : Within part whole) (hruns : whole.Runs) : part.Runs := by
  induction h with
  | refl => exact hruns
  | step _ _ _ ih => exact ih hruns.1

theorem Within.trans (h : Within part other) (h' : Within other whole) : Within part whole := by
  induction h' with
  | refl => exact h
  | step link number _ ih => exact ih.step link number

theorem within_start (route : Route net) : Within (start route.first) route := by
  induction route with
  | start v => exact .refl _
  | step before link number ih => exact ih.step link number

/-- A beginning of a route is the whole route, or the route goes on behind it. -/
theorem Within.eq_or_step (h : Within part whole) :
    part = whole ∨ ∃ link number, Within (Route.step part link number) whole := by
  induction h with
  | refl => exact .inl rfl
  | step link number h ih =>
    rcases ih with rfl | ⟨link', number', h'⟩
    · exact .inr ⟨link, number, .refl _⟩
    · exact .inr ⟨link', number', h'.step link number⟩

/-- Of two beginnings of a route one is the beginning of the other. -/
theorem Within.total (h : Within part whole) (h' : Within other whole) :
    Within part other ∨ Within other part := by
  induction h generalizing other with
  | refl => exact .inr h'
  | step link number h ih =>
    cases h' with
    | refl => exact .inl (h.step link number)
    | step _ _ h' => exact ih h'

/-- Two routes from one node part, unless one is the beginning of the other. -/
theorem within_or_part (h : route.first = other.first) :
    Within route other ∨ Within other route ∨ ∃ before link number link' number',
      (link, number) ≠ (link', number') ∧ Within (step before link number) route ∧
        Within (step before link' number') other := by
  induction route with
  | start v =>
    obtain rfl : v = other.first := h
    exact .inl (within_start other)
  | step before link number ih =>
    rcases ih h with hwithin | hwithin | ⟨common, link₁, number₁, link₂, number₂, hne, h₁, h₂⟩
    · rcases hwithin.eq_or_step with rfl | ⟨link', number', hwithin⟩
      · exact .inr (.inl ((Within.refl _).step link number))
      · by_cases heq : (link, number) = (link', number')
        · obtain ⟨rfl, rfl⟩ := Prod.mk.inj heq
          exact .inl hwithin
        · exact .inr (.inr ⟨before, link, number, link', number', heq, .refl _, hwithin⟩)
    · exact .inr (.inl (hwithin.step link number))
    · exact .inr (.inr ⟨common, link₁, number₁, link₂, number₂, hne, h₁.step link number, h₂⟩)

/-- A beginning of the rest of a route is the rest of a beginning. -/
theorem exists_within_of_within_tail (h : Within part whole.tail) :
    ∃ longer, Within longer whole ∧ longer.tail = part := by
  induction whole with
  | start v => exact ⟨start v, .refl _, by cases h; rfl⟩
  | step before link number ih =>
    by_cases hmerge : (net.node (net.link link).target).kind.isMerge = true
    · rw [tail, if_pos hmerge] at h
      refine ⟨step before link number, .refl _, ?_⟩
      rw [tail, if_pos hmerge]
      cases h
      rfl
    · rw [tail, if_neg hmerge] at h
      cases h with
      | refl => exact ⟨step before link number, .refl _, by rw [tail, if_neg hmerge]⟩
      | step _ _ h =>
        obtain ⟨longer, hlonger, htail⟩ := ih h
        exact ⟨longer, hlonger.step link number, htail⟩

/-! ### Where routes lead -/

/-- A link of a route that objects can take hands the object on. -/
theorem Runs.handsOn {link : Fin net.links.length} {number : ℕ}
    (h : (step route link number).Runs) :
    net.HandsOn (net.id route.first) route.last (net.link link) := by
  obtain ⟨-, hsource, hobjects, hadmits, -⟩ := h
  exact ⟨Network.mem_objectLinks_iff.mpr ⟨List.getElem_mem link.isLt, hobjects, hsource⟩, hadmits⟩

/-- A route leads on from its beginnings. -/
theorem Within.reach (h : Within part whole) (hruns : whole.Runs) :
    Relation.ReflTransGen (Digraph.Arc net.objectsBehind) part.last whole.last := by
  induction h with
  | refl => exact .refl
  | step link number h ih => exact (ih hruns.1).tail hruns.arc

section Sound

variable (h : Network.Sound limits net)
include h

/-- A route meets no node twice. -/
theorem Within.eq_of_last (hwithin : Within part whole) (hruns : whole.Runs)
    (hlast : part.last = whole.last) : part = whole := by
  cases hwithin with
  | refl => rfl
  | step link number hwithin =>
    have hreach := Relation.TransGen.tail' (hwithin.reach hruns.1) hruns.arc
    rw [hlast] at hreach
    exact absurd hreach (Network.acyclic_objectsBehind h _)

theorem Within.eq_of_within (hpart : Within part whole) (hother : Within other whole)
    (hruns : whole.Runs) (hlast : part.last = other.last) : part = other := by
  rcases hpart.total hother with hwithin | hwithin
  · exact hwithin.eq_of_last h (hother.runs hruns) hlast
  · exact (hwithin.eq_of_last h (hpart.runs hruns) hlast.symm).symm

/-- Behind its start there is nothing drawable on a route. -/
theorem Runs.reaches (hruns : route.Runs) : net.Reaches (net.id route.first) route.last := by
  refine ⟨route.first, rfl, hruns.isDrawable_first, ?_⟩
  induction route with
  | start v => exact .refl
  | step before link number ih =>
    refine (ih hruns.1).tail ⟨⟨net.link link, List.getElem_mem link.isLt, hruns.2.2.1, ?_⟩, ?_⟩
    · exact ⟨hruns.2.1, rfl⟩
    · exact (Network.kind_of_mem_links h (List.getElem_mem link.isLt) hruns.2.2.1).1

end Sound

/-! ### What the object of a route tells -/

/-- The marks that the object of a route has got on the way. -/
def marks : Route net → List CopyMark
  | start _ => []
  | step before link number =>
    if number = 0 then before.marks
    else before.marks ++ [⟨net.id (net.link link).target, number⟩]

theorem object_eq (route : Route net) :
    route.object =
      ⟨route.marks.foldl (fun text mark => text ++ mark.text) (net.id route.first).text⟩ := by
  induction route with
  | start v => rfl
  | step before link number ih =>
    rw [object, NodeId.copied, marks]
    split
    · exact ih
    · rw [ih, List.foldl_append]
      rfl

/-- A mark has been got where a copy is followed. -/
theorem mem_marks_iff {mark : CopyMark} : mark ∈ route.marks ↔
    ∃ before link number, Within (step before link number) route ∧ number ≠ 0 ∧
      mark = ⟨net.id (net.link link).target, number⟩ := by
  constructor
  · intro h
    induction route with
    | start v => cases h
    | step before link number ih =>
      rw [marks] at h
      split at h
      · obtain ⟨part, link', number', hwithin, hmark⟩ := ih h
        exact ⟨part, link', number', hwithin.step link number, hmark⟩
      · rename_i hnumber
        rcases List.mem_append.mp h with h | h
        · obtain ⟨part, link', number', hwithin, hmark⟩ := ih h
          exact ⟨part, link', number', hwithin.step link number, hmark⟩
        · exact ⟨before, link, number, .refl _, hnumber, List.mem_singleton.mp h⟩
  · rintro ⟨before, link, number, hwithin, hnumber, rfl⟩
    generalize hpart : step before link number = part at hwithin
    induction hwithin with
    | refl =>
      rw [← hpart, marks, if_neg hnumber]
      exact List.mem_append_right _ (List.mem_singleton_self _)
    | step link' number' hwithin ih =>
      rw [marks]
      split
      · exact ih
      · exact List.mem_append_left _ ih

/-- The marks of a route name duplicate nodes. -/
theorem Runs.isNaming_of_mem_marks (hruns : route.Runs) {mark : CopyMark}
    (hmark : mark ∈ route.marks) :
    ∃ v, net.id v = mark.node ∧ (net.node v).kind.isNaming = true := by
  obtain ⟨before, link, number, hwithin, hnumber, rfl⟩ := mem_marks_iff.mp hmark
  refine ⟨(net.link link).target, rfl, ?_⟩
  have hle : number ≤ (net.node (net.link link).target).kind.copies :=
    (hwithin.runs hruns).2.2.2.2
  cases hkind : (net.node (net.link link).target).kind with
  | duplicate data => rfl
  | geometry data => rfl
  | _ =>
    rw [hkind] at hle
    exact absurd (Nat.le_zero.mp hle) hnumber

/-- Where names are legible, the object of a route tells where the route starts, and what marks it
has got. -/
theorem eq_of_object (hlegible : net.Legible) (hid : Function.Injective net.id)
    (hruns : route.Runs) (hother : other.Runs) (hobject : route.object = other.object) :
    route.first = other.first ∧ route.marks = other.marks := by
  have hfirst : ∀ {route : Route net}, route.Runs → '#' ∉ (net.id route.first).text.toList :=
    fun {route} hruns => hlegible route.first (by
      obtain ⟨data, hkind⟩ := NodeKind.exists_of_isDrawable hruns.isDrawable_first
      rw [hkind]
      rfl)
  have hmarks : ∀ {route : Route net}, route.Runs →
      ∀ mark ∈ route.marks, '#' ∉ mark.node.text.toList := fun hruns mark hmark => by
    obtain ⟨v, hv, hnaming⟩ := hruns.isNaming_of_mem_marks hmark
    exact hv ▸ hlegible v hnaming
  rw [object_eq, object_eq] at hobject
  obtain ⟨htext, heq⟩ := Token.eq_of_marked (hfirst hruns) (hfirst hother) (hmarks hruns)
    (hmarks hother) (NodeId.mk.inj hobject)
  exact ⟨hid (NodeId.eq_iff_text.mpr htext), heq⟩

/-! ### Where deliveries part -/

/-- What comes last on a route behind its last merge node comes last on the route. -/
theorem exists_step_of_tail {before : Route net} {link : Fin net.links.length} {number : ℕ}
    (h : whole.tail = step before link number) : ∃ longer : Route net,
      whole = step longer link number ∧ longer.tail = before ∧
        (net.node (net.link link).target).kind.isMerge = false := by
  cases whole with
  | start v => cases h
  | step longer link' number' =>
    rw [tail] at h
    split at h
    · cases h
    · rename_i hmerge
      obtain ⟨rfl, rfl, rfl⟩ := step.inj h
      exact ⟨longer, rfl, rfl, Bool.eq_false_iff.mpr hmerge⟩

section Sound

variable (h : Network.Sound limits net)
include h

/-- Routes with the same marks follow the same copy, if it is not the object itself. -/
theorem Within.number_eq {before before' : Route net} {link : Fin net.links.length}
    {number number' : ℕ} (hruns : other.Runs) (hmarks : route.marks = other.marks)
    (hwithin : Within (Route.step before link number) route)
    (hother : Within (Route.step before' link number') other) (hnumber : number ≠ 0) :
    number = number' := by
  have hmem : ⟨net.id (net.link link).target, number⟩ ∈ other.marks :=
    hmarks ▸ mem_marks_iff.mpr ⟨before, link, number, hwithin, hnumber, rfl⟩
  obtain ⟨longer, link', number'', hlonger, -, heq⟩ := mem_marks_iff.mp hmem
  obtain ⟨hnode, rfl⟩ := CopyMark.mk.inj heq
  have hstep := hlonger.eq_of_within h hother hruns (h.id_injective hnode).symm
  exact (step.inj hstep).2.2

/-- Routes with the same marks that go on differently go on along different links. -/
theorem Within.link_ne {before before' : Route net} {link link' : Fin net.links.length}
    {number number' : ℕ} (hroute : route.Runs) (hruns : other.Runs)
    (hmarks : route.marks = other.marks)
    (hwithin : Within (Route.step before link number) route)
    (hother : Within (Route.step before' link' number') other)
    (hne : (link, number) ≠ (link', number')) : link ≠ link' := by
  rintro rfl
  refine hne (congrArg _ ?_)
  by_cases hnumber : number = 0
  · by_cases hnumber' : number' = 0
    · rw [hnumber, hnumber']
    · exact (hother.number_eq h hroute hmarks.symm hwithin hnumber').symm
  · exact hwithin.number_eq h hruns hmarks hother hnumber

variable (hlegible : net.Legible) (hroute : route.Delivers) (hother : other.Delivers)
  (hobject : route.object = other.object)
include hlegible hroute hother hobject

/-- Two deliveries of one object part at a node on their way: one goes on along one link, the other
along another. -/
theorem exists_parts (hne : route ≠ other) :
    ∃ (part : Route net) (link link' : Fin net.links.length), Within part route ∧ link ≠ link' ∧
      net.HandsOn (net.id route.first) part.last (net.link link) ∧
        net.HandsOn (net.id route.first) part.last (net.link link') := by
  obtain ⟨hstart, hmarks⟩ := eq_of_object hlegible h.id_injective hroute.1 hother.1 hobject
  have hlast : route.last = other.last := h.terminal.unique hroute.2 hother.2
  rcases within_or_part hstart with hwithin | hwithin | ⟨part, i, n, j, m, hapart, hi, hj⟩
  · exact absurd (hwithin.eq_of_last h hother.1 hlast) hne
  · exact absurd (hwithin.eq_of_last h hroute.1 hlast.symm).symm hne
  have hhands : net.HandsOn (net.id route.first) part.last (net.link i) := by
    rw [← hi.first_eq]
    exact (hi.runs hroute.1).handsOn
  have hhands' : net.HandsOn (net.id route.first) part.last (net.link j) := by
    rw [hstart, ← hj.first_eq]
    exact (hj.runs hother.1).handsOn
  exact ⟨part, i, j, ((Within.refl part).step i n).trans hi,
    hi.link_ne h hroute.1 hother.1 hmarks hj hapart, hhands, hhands'⟩

/-- If they differ behind the same last merge node, or behind none, then they part at links that
enter no merge nodes. -/
theorem exists_parts_of_tail (hne : route.tail ≠ other.tail)
    (hfirst : route.tail.first = other.tail.first) :
    ∃ (part : Route net) (link link' : Fin net.links.length), Within part route ∧ link ≠ link' ∧
      (net.HandsOn (net.id route.first) part.last (net.link link) ∧
        (net.node (net.link link).target).kind.isMerge = false) ∧
      net.HandsOn (net.id route.first) part.last (net.link link') ∧
        (net.node (net.link link').target).kind.isMerge = false := by
  obtain ⟨hstart, hmarks⟩ := eq_of_object hlegible h.id_injective hroute.1 hother.1 hobject
  have hlast : route.last = other.last := h.terminal.unique hroute.2 hother.2
  -- Neither ends where the other goes on, since both end at the terminal.
  have hends : ∀ {route other : Route net}, other.Runs → route.last = other.last →
      Within route.tail other.tail → route.tail = other.tail := by
    intro route other hruns hlast hwithin
    obtain ⟨longer, hlonger, htail⟩ := exists_within_of_within_tail hwithin
    have heq : longer = other := hlonger.eq_of_last h hruns (by
      rw [← last_tail, htail, last_tail, hlast])
    rw [← htail, heq]
  rcases within_or_part hfirst with hwithin | hwithin | ⟨before, i, n, j, m, hapart, hi, hj⟩
  · exact absurd (hends hother.1 hlast hwithin) hne
  · exact absurd (hends hroute.1 hlast.symm hwithin).symm hne
  obtain ⟨_, hi, htail⟩ := exists_within_of_within_tail hi
  obtain ⟨part, rfl, hpart, hmerge⟩ := exists_step_of_tail htail
  obtain ⟨_, hj, htail'⟩ := exists_within_of_within_tail hj
  obtain ⟨part', rfl, hpart', hmerge'⟩ := exists_step_of_tail htail'
  have hhands : net.HandsOn (net.id route.first) part.last (net.link i) := by
    rw [← hi.first_eq]
    exact (hi.runs hroute.1).handsOn
  have hhands' : net.HandsOn (net.id route.first) part.last (net.link j) := by
    rw [hstart, ← hj.first_eq, ← last_tail part, hpart, ← hpart', last_tail]
    exact (hj.runs hother.1).handsOn
  exact ⟨part, i, j, ((Within.refl part).step i n).trans hi,
    hi.link_ne h hroute.1 hother.1 hmarks hj hapart, ⟨hhands, hmerge⟩, hhands', hmerge'⟩

end Sound

end Route

end SceneFlow
