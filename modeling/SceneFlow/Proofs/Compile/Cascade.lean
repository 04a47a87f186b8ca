import SceneFlow.Proofs.Compile.Delivery
import SceneFlow.Proofs.Compile.Joining
import SceneFlow.Proofs.Motion.Ranks
import SceneFlow.Proofs.Stages

/-!
# Merge nodes behind merge nodes

Tokens that are joined in stages, at one merge node behind another, become what one merge node would
make of all of them. The times can be compared in any grouping, and of style properties and motions
it is always the first that counts; so joining is associative, though it is not commutative. What
comes of the tokens of one name is known exactly: the times, every style property, and which motion
comes from which track, in which order.

No time may be a NaN, since comparisons with one do not hold. A token has been inserted if it has a
time of insertion.

## Main definitions

* `Token.Tidy`: what is asked of the tokens.
* `Token.Merged`: what some tokens of one name become.

## Main results

* `Token.absorb_assoc`: tokens can be joined in any grouping.
* `Token.merged_of_fuse`: what joining makes of tokens of one name.
* `Token.join_cascade`: joining in stages.
-/

namespace SceneFlow

private theorem setOf_mem_singleton {β : Type} (b : β) : {c | c ∈ [b]} = {b} := by
  ext c
  simp

private theorem setOf_mem_concat {β : Type} (list : List β) (b : β) :
    {c | c ∈ list ++ [b]} = insert b {c | c ∈ list} := by
  ext c
  simp [or_comm]

namespace Token

/-- What is asked of tokens that are joined in stages. The order of the style is that of all
entries. -/
structure Tidy (token : Token) : Prop where
  /-- The cursor is no NaN. -/
  cursor : token.cursor.isNaN = false
  /-- Nor is the time of insertion, if there is one. -/
  inserted : ∀ time ∈ token.insertTime, time.isNaN = false
  /-- The style is in the order of its keys. -/
  style : token.style.Sorted
  /-- No two motions come from one track. -/
  motions : (token.motions.map Prod.fst).Nodup

theorem tidy_iff {token : Token} : token.Tidy ↔ token.cursor.isNaN = false ∧
    (∀ time ∈ token.insertTime, time.isNaN = false) ∧ token.style.Sorted ∧
      (token.motions.map Prod.fst).Nodup :=
  ⟨fun h => ⟨h.cursor, h.inserted, h.style, h.motions⟩,
    fun ⟨hcursor, hinserted, hstyle, hmotions⟩ => ⟨hcursor, hinserted, hstyle, hmotions⟩⟩

instance (token : Token) : Decidable token.Tidy :=
  decidable_of_iff _ tidy_iff.symm

/-! ### Joining in any grouping -/

section JoinMotions

variable {motions more : List (TrackOrigin × Motion)}

/-- One motion more is joined if none has come from its track before. -/
theorem joinMotions_concat (motions more : List (TrackOrigin × Motion))
    (m : TrackOrigin × Motion) :
    joinMotions motions (more ++ [m]) =
      if m.1 ∈ (joinMotions motions more).map Prod.fst then joinMotions motions more
      else joinMotions motions more ++ [m] := by
  have hlast := @joinMotions_cons (joinMotions motions more) [] m
  rw [joinMotions, List.foldl_append]
  exact hlast

theorem joinMotions_assoc (motions more rest : List (TrackOrigin × Motion)) :
    joinMotions (joinMotions motions more) rest = joinMotions motions (joinMotions more rest) := by
  induction rest using List.reverseRecOn with
  | nil => rfl
  | append_singleton rest m ih =>
    rw [joinMotions_concat, joinMotions_concat more, ih]
    by_cases hm : m.1 ∈ (joinMotions more rest).map Prod.fst
    · rw [if_pos hm, if_pos (mem_map_joinMotions.mpr (.inr hm))]
    · rw [if_neg hm, joinMotions_concat]

/-- The motion from a track is the first that has come from it. -/
theorem find?_joinMotions (motions more : List (TrackOrigin × Motion)) (origin : TrackOrigin) :
    (joinMotions motions more).find? (fun m => m.1 = origin) =
      (motions ++ more).find? fun m => m.1 = origin := by
  induction more using List.reverseRecOn with
  | nil => simp [joinMotions]
  | append_singleton more m ih =>
    rw [joinMotions_concat, ← List.append_assoc, List.find?_append, ← ih]
    split
    · rename_i hm
      obtain ⟨k, hk, horigin⟩ := List.mem_map.mp hm
      by_cases heq : m.1 = origin
      · have hfound : ((joinMotions motions more).find? fun m => m.1 = origin).isSome := by
          rw [List.find?_isSome]
          exact ⟨k, hk, by simpa using horigin.trans heq⟩
        rw [Option.or_of_isSome hfound]
      · rw [List.find?_cons_of_neg (by simpa using heq), List.find?_nil, Option.or_none]
    · rw [List.find?_append]

/-- Tracks come in the order in which their first motions come. -/
theorem map_joinMotions (h : (motions.map Prod.fst).Nodup) :
    (joinMotions motions more).map Prod.fst =
      (motions.map Prod.fst ++ more.map Prod.fst).eraseDups := by
  induction more using List.reverseRecOn with
  | nil =>
    rw [List.map_nil, List.append_nil, eraseDups_of_nodup h, joinMotions, List.foldl_nil]
  | append_singleton more m ih =>
    rw [joinMotions_concat, List.map_append, List.map_singleton, ← List.append_assoc,
      eraseDups_concat, ← ih]
    simp only [List.mem_append, ← mem_map_joinMotions]
    split
    · rfl
    · rw [List.map_append, List.map_singleton]

end JoinMotions

section Absorb

variable {token other third : Token}

theorem Tidy.absorb (h : token.Tidy) (hother : other.Tidy) : (token.absorb other).Tidy where
  cursor := isNaN_later h.cursor hother.cursor
  inserted := isNaN_earliest? h.inserted hother.inserted
  style := hother.style.overlay _
  motions := nodup_joinMotions h.motions

/-- Tokens can be joined in any grouping. -/
theorem absorb_assoc (h : token.Tidy) (hother : other.Tidy) (hthird : third.Tidy) :
    (token.absorb other).absorb third = token.absorb (other.absorb third) := by
  have hstyle : ((token.absorb other).absorb third).style =
      (token.absorb (other.absorb third)).style := by
    refine Entries.Sorted.ext (hthird.style.overlay _) ((hthird.style.overlay _).overlay _)
      fun key => ?_
    rw [get?_absorb (h.absorb hother).style, get?_absorb h.style,
      get?_absorb h.style, get?_absorb hother.style, Option.or_assoc]
  have hcursor := later_assoc h.cursor hother.cursor hthird.cursor
  have hinserted := earliest?_assoc h.inserted hother.inserted hthird.inserted
  have hmotions := joinMotions_assoc token.motions other.motions third.motions
  rw [Token.mk.injEq]
  exact ⟨rfl, rfl, rfl, rfl, hcursor, hinserted, hstyle, hmotions⟩

end Absorb

/-! ### What tokens of one name become -/

/-- What some tokens of one name become, in the order in which they have come. -/
structure Merged (group : List Token) (token : Token) : Prop where
  /-- It can be joined again. -/
  tidy : token.Tidy
  /-- It stands for the object of the first. -/
  frame : group.head?.map Token.frame = some token.frame
  /-- Its cursor is the latest. -/
  cursor : IsGreatest {time | time ∈ group.map Token.cursor} token.cursor
  /-- It has been inserted if one of them has. -/
  inserted : token.insertTime.isSome ↔ ∃ t ∈ group, t.insertTime.isSome
  /-- Its time of insertion is the earliest that there is. -/
  insertTime : ∀ time ∈ token.insertTime,
    IsLeast {time | time ∈ group.filterMap Token.insertTime} time
  /-- Every style property is that of the first that has it. -/
  style : ∀ key, token.style.get? key = group.findSome? fun t => t.style.get? key
  /-- It has one motion from every track, in the order in which these came first. -/
  tracks : token.motions.map Prod.fst =
    ((group.flatMap Token.motions).map Prod.fst).eraseDups
  /-- The motion from a track is the first to arrive. -/
  motions : ∀ origin, token.motions.find? (fun m => m.1 = origin) =
    (group.flatMap Token.motions).find? fun m => m.1 = origin

theorem merged_singleton {token : Token} (h : token.Tidy) : Merged [token] token where
  tidy := h
  frame := rfl
  cursor := by
    rw [List.map_singleton, setOf_mem_singleton]
    exact isGreatest_float_singleton h.cursor
  inserted := by simp
  insertTime time htime := by
    rw [List.filterMap_cons_some htime, List.filterMap_nil, setOf_mem_singleton]
    exact isLeast_float_singleton (h.inserted time htime)
  style key := by simp
  tracks := by simpa using (eraseDups_of_nodup h.motions).symm
  motions origin := by simp

namespace Merged

variable {group : List Token} {kept other : Token}

/-- Without a time of insertion none of the tokens has one. -/
theorem insertTime_eq_none (h : Merged group kept) (hnone : kept.insertTime = none) :
    ∀ t ∈ group, t.insertTime = none := fun t ht => by
  by_contra hsome
  have := h.inserted.mpr ⟨t, ht, Option.isSome_iff_ne_none.mpr hsome⟩
  rw [hnone] at this
  cases this

/-- The time of insertion when one token more is joined. -/
theorem isLeast_absorb (h : Merged group kept) (hgroup : ∀ t ∈ group, t.Tidy) (hother : other.Tidy)
    {time : Float} (htime : time ∈ (kept.absorb other).insertTime) :
    IsLeast {time | time ∈ (group ++ [other]).filterMap Token.insertTime} time := by
  have htime : earliest? kept.insertTime other.insertTime = some time := htime
  rw [List.filterMap_append]
  cases hkept : kept.insertTime with
  | none =>
    have hnone : group.filterMap Token.insertTime = [] :=
      List.filterMap_eq_nil_iff.mpr (h.insertTime_eq_none hkept)
    rw [hkept, earliest?] at htime
    rw [hnone, List.nil_append, List.filterMap_cons_some htime, List.filterMap_nil,
      setOf_mem_singleton]
    exact isLeast_float_singleton (hother.inserted time htime)
  | some a =>
    have hleast := h.insertTime a hkept
    cases hmore : other.insertTime with
    | none =>
      rw [hkept, hmore, earliest?, Option.some.injEq] at htime
      rwa [List.filterMap_cons_none hmore, List.filterMap_nil, List.append_nil, ← htime]
    | some b =>
      rw [hkept, hmore, earliest?, Option.some.injEq] at htime
      rw [List.filterMap_cons_some hmore, List.filterMap_nil, setOf_mem_concat, ← htime]
      refine isLeast_insert_earlier hleast (fun time hmem => ?_) (hother.inserted b hmore)
      obtain ⟨t, ht, heq⟩ := List.mem_filterMap.mp hmem
      exact (hgroup t ht).inserted time heq

/-- One token more is joined. -/
theorem absorb (h : Merged group kept) (hgroup : ∀ t ∈ group, t.Tidy) (hother : other.Tidy) :
    Merged (group ++ [other]) (kept.absorb other) where
  tidy := h.tidy.absorb hother
  frame := by
    rw [List.head?_append, Option.map_or, h.frame]
    rfl
  cursor := by
    rw [List.map_append, List.map_singleton, setOf_mem_concat]
    refine isGreatest_insert_later h.cursor (fun time hmem => ?_) hother.cursor
    obtain ⟨t, ht, rfl⟩ := List.mem_map.mp hmem
    exact (hgroup t ht).cursor
  inserted := by
    have hsome : (kept.absorb other).insertTime.isSome ↔
        kept.insertTime.isSome ∨ other.insertTime.isSome := by
      rw [← Bool.or_eq_true, ← isSome_earliest?]
      rfl
    rw [hsome, h.inserted]
    simp only [List.mem_append, List.mem_singleton, or_and_right, exists_or, exists_eq_left]
  insertTime _ htime := h.isLeast_absorb hgroup hother htime
  style key := by
    rw [get?_absorb h.tidy.style, h.style, List.findSome?_append, List.findSome?_cons]
    cases other.style.get? key <;> rfl
  tracks := by
    rw [List.flatMap_append, List.map_append, ← eraseDups_eraseDups_append, ← h.tracks,
      ← map_joinMotions h.tidy.motions]
    simp [Token.absorb]
  motions origin := by
    rw [List.flatMap_append, List.find?_append, ← h.motions]
    have := find?_joinMotions kept.motions other.motions origin
    simpa [Token.absorb] using this

end Merged

/-- What joining makes of some tokens. -/
theorem merged_of_fuse {group : List Token} {token : Token} (hgroup : ∀ t ∈ group, t.Tidy)
    (h : Roster.fuse Token.absorb group = some token) : Merged group token :=
  Roster.rel_of_fuse_eq_some Merged (fun _ => merged_singleton)
    (fun _ _ _ hgroup hother hkept => hkept.absorb hgroup hother) hgroup h

/-! ### Merge nodes one behind the other -/

/-- It makes no difference whether some of the tokens, the first or the last, are joined at a merge
node before. There is one token for every object that has come, in the order in which they came
first, and what it is made of is known. -/
theorem join_cascade {tokens more : List Token} (h : ∀ t ∈ tokens ++ more, t.Tidy) :
    join (join tokens ++ more) = join (tokens ++ more) ∧
      join (tokens ++ join more) = join (tokens ++ more) ∧
      (join (tokens ++ more)).map (fun t => t.name.text) =
        ((tokens ++ more).map fun t => t.name.text).eraseDups ∧
      ∀ token ∈ join (tokens ++ more),
        Merged ((tokens ++ more).filter fun t => t.name = token.name) token := by
  obtain ⟨htokens, hmore⟩ := List.forall_mem_append.mp h
  have hname : ∀ a b : Token, (a.absorb b).name.text = a.name.text := fun a b => by rw [name_absorb]
  have htidy : ∀ a b : Token, a.Tidy → b.Tidy → (a.absorb b).Tidy := fun _ _ ha hb => ha.absorb hb
  have hassoc : ∀ a b c : Token, a.Tidy → b.Tidy → c.Tidy →
      (a.absorb b).absorb c = a.absorb (b.absorb c) := fun _ _ _ => absorb_assoc
  refine ⟨Roster.gather_gather_append hname htidy hassoc htokens hmore,
    Roster.gather_append_gather hname htidy hassoc htokens hmore,
    Roster.map_name_gather hname _, fun token htoken => ?_⟩
  exact merged_of_fuse (fun t ht => h t (List.mem_filter.mp ht).1)
    ((mem_join_iff _ token).mp htoken)

/-- A red sun that fades. -/
def redSun : Token :=
  { seed ⟨"sun"⟩ .plainCircle with
    cursor := 2
    style := [("fill", .str "red")]
    motions := [(⟨⟨"dusk"⟩, 0⟩, ⟨.fade, 0, 2, .linear, .scalar 1 0⟩)] }

/-- A blue sun with a rim, which fades and turns, and comes later on a shorter way. -/
def blueSun : Token :=
  { seed ⟨"sun"⟩ .plainCircle with
    cursor := 1
    insertTime := some 1
    style := [("fill", .str "blue"), ("rim", .str "black")]
    motions := [(⟨⟨"dusk"⟩, 0⟩, ⟨.fade, 0, 1, .linear, .scalar 1 0⟩),
      (⟨⟨"spin"⟩, 0⟩, ⟨.rotate, 0, 1, .linear, .angle 0 90 0⟩)] }

/-- The sun is joined twice, and the moon comes between. -/
theorem join_cascade_suns :
    let moon := seed ⟨"moon"⟩ .plainCircle
    join (join [redSun, moon] ++ [moon, blueSun]) = join [redSun, moon, moon, blueSun] ∧
      join ([redSun, moon] ++ join [moon, blueSun]) = join [redSun, moon, moon, blueSun] ∧
      ((join [redSun, moon, moon, blueSun]).map fun t => t.name.text) = ["sun", "moon"] ∧
      Merged [redSun, blueSun] (redSun.absorb blueSun) := by
  intro moon
  have htidy : ∀ t ∈ [redSun, moon] ++ [moon, blueSun], t.Tidy := by decide +kernel
  obtain ⟨hfirst, hlast, hnames, hmerged⟩ := join_cascade htidy
  refine ⟨hfirst, hlast, hnames.trans (by decide), ?_⟩
  exact hmerged (redSun.absorb blueSun) ((mem_join_iff _ _).mpr rfl)

end Token

end SceneFlow
