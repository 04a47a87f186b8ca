import Mathlib
import SceneFlow.Proofs.Compile.Tracing
import SceneFlow.Proofs.Motion.Time

/-!
# What merge nodes make of tokens

A merge node keeps one token of each name: the latest time, the earliest time of insertion, and of
styles and motions those that came first. The times do not depend on the order of the tokens. Nor
do styles and motions, provided that the tokens agree on whatever two of them have.

## Main definitions

* `Token.Neat`: what holds of every token on its way.
* `Token.Agrees`: two tokens have nothing on which they differ.
* `Token.IsJoin`: a token is made of some others.
* `Outline`: a token up to the order of its motions, and without style and motions if these are of
  no account.

## Main results

* `Token.isJoin_of_fuse`: what joining makes of tokens.
* `Token.perm_join`: the tokens that a merge node keeps have the same outlines in any order of
  arrival.
-/

namespace SceneFlow

namespace Token

/-- What holds of every token on its way. -/
structure Neat (token : Token) : Prop where
  /-- The cursor is a time. -/
  cursor : IsTime token.cursor
  /-- So is the time of insertion, if there is one. -/
  inserted : ∀ time ∈ token.insertTime, IsTime time
  /-- The style is in the order of its keys. -/
  style : token.style.Sorted
  /-- No two motions come from one track. -/
  motions : (token.motions.map Prod.fst).Nodup

/-- Two tokens have nothing on which they differ: neither a style property that both have nor a
track that has moved both. -/
structure Agrees (token other : Token) : Prop where
  /-- The values of a property are equal. -/
  style : ∀ key value value', token.style.get? key = some value →
    other.style.get? key = some value' → value = value'
  /-- The motions from a track are equal. -/
  motions : ∀ m ∈ token.motions, ∀ m' ∈ other.motions, m.1 = m'.1 → m = m'

/-- A token without style and motions agrees with every other. -/
theorem agrees_of_eq_nil {token : Token} (hstyle : token.style = []) (hmotions : token.motions = [])
    (other : Token) : token.Agrees other where
  style key value value' hvalue := by
    rw [hstyle, Entries.get?_nil] at hvalue
    cases hvalue
  motions m hm := by
    rw [hmotions] at hm
    cases hm

/-- What no merge node changes: the drawable node and the marks, and what comes of them. -/
def frame (token : Token) : NodeId × Geometry × List CopyMark × Vec2 :=
  (token.origin, token.geometry, token.copies, token.offset)

theorem frame_eq_iff {token other : Token} : token.frame = other.frame ↔
    token.origin = other.origin ∧ token.geometry = other.geometry ∧
      token.copies = other.copies ∧ token.offset = other.offset := by
  simp only [frame, Prod.mk.injEq]

theorem name_eq_of_frame {token other : Token} (h : token.frame = other.frame) :
    token.name = other.name := by
  obtain ⟨horigin, -, hcopies, -⟩ := frame_eq_iff.mp h
  exact name_eq_of_copies horigin hcopies

/-! ### Joining motions -/

section JoinMotions

variable {motions more : List (TrackOrigin × Motion)}

theorem joinMotions_cons (m : TrackOrigin × Motion) :
    joinMotions motions (m :: more) =
      joinMotions (if m.1 ∈ motions.map Prod.fst then motions else motions ++ [m]) more := by
  have hany : (motions.any fun k => k.1 = m.1) = decide (m.1 ∈ motions.map Prod.fst) := by
    rw [Bool.eq_iff_iff]
    simp
  rw [joinMotions, List.foldl_cons, hany, joinMotions]
  simp only [decide_eq_true_eq]

theorem nodup_joinMotions (h : (motions.map Prod.fst).Nodup) :
    ((joinMotions motions more).map Prod.fst).Nodup := by
  induction more generalizing motions with
  | nil => exact h
  | cons m more ih =>
    rw [joinMotions_cons]
    refine ih ?_
    split
    · exact h
    · rename_i hm
      rw [List.map_append, List.map_singleton, ← List.concat_eq_append]
      exact h.concat hm

theorem mem_joinMotions {m : TrackOrigin × Motion} (h : m ∈ joinMotions motions more) :
    m ∈ motions ∨ m ∈ more := by
  induction more generalizing motions with
  | nil => exact .inl h
  | cons k more ih =>
    rw [joinMotions_cons] at h
    rcases ih h with h | h
    · split at h
      · exact .inl h
      · rcases List.mem_append.mp h with h | h
        · exact .inl h
        · exact .inr (List.mem_singleton.mp h ▸ List.mem_cons_self)
    · exact .inr (List.mem_cons_of_mem k h)

/-- The tracks of joined motions are those of both lists. -/
theorem mem_map_joinMotions {origin : TrackOrigin} :
    origin ∈ (joinMotions motions more).map Prod.fst ↔
      origin ∈ motions.map Prod.fst ∨ origin ∈ more.map Prod.fst := by
  induction more generalizing motions with
  | nil => simp [joinMotions]
  | cons m more ih =>
    rw [joinMotions_cons, ih, List.map_cons, List.mem_cons]
    split
    · rename_i hm
      refine ⟨Or.imp_right .inr, ?_⟩
      rintro (h | rfl | h)
      · exact .inl h
      · exact .inl hm
      · exact .inr h
    · rw [List.map_append, List.mem_append, List.map_singleton, List.mem_singleton, or_assoc]

end JoinMotions

/-! ### Joining tokens -/

/-- A token is made of some others: it has the frame of one of them, the latest cursor and the
earliest time of insertion, and every style property and every track that one of them has, with
the value or the motion of one of them. -/
structure IsJoin (group : List Token) (token : Token) : Prop where
  /-- The token is neat. -/
  neat : token.Neat
  /-- It has the frame of one of the others. -/
  frame : ∃ t ∈ group, token.frame = t.frame
  /-- Its cursor is the latest. -/
  cursor : timeRank token.cursor = (group.map fun t => timeRank t.cursor).foldl max 0
  /-- Its time of insertion is the earliest. -/
  inserted : timeRank? token.insertTime =
    (group.map fun t => timeRank? t.insertTime).foldl min ⊤
  /-- Its style is taken from theirs. -/
  style : ∀ key value, token.style.get? key = some value →
    ∃ t ∈ group, t.style.get? key = some value
  /-- It has all their style properties. -/
  keys : ∀ t ∈ group, ∀ key, (t.style.get? key).isSome → (token.style.get? key).isSome
  /-- Its motions are taken from theirs. -/
  motions : ∀ m ∈ token.motions, ∃ t ∈ group, m ∈ t.motions
  /-- It has motions from all their tracks. -/
  tracks : ∀ t ∈ group, ∀ m ∈ t.motions, m.1 ∈ token.motions.map Prod.fst

theorem isJoin_singleton {token : Token} (h : token.Neat) : IsJoin [token] token where
  neat := h
  frame := ⟨token, List.mem_singleton_self _, rfl⟩
  cursor := by simp
  inserted := by simp
  style _ _ hvalue := ⟨token, List.mem_singleton_self _, hvalue⟩
  keys t ht _ hkey := by
    rwa [List.mem_singleton.mp ht] at hkey
  motions m hm := ⟨token, List.mem_singleton_self _, hm⟩
  tracks t ht m hm := by
    rw [List.mem_singleton.mp ht] at hm
    exact List.mem_map_of_mem hm

/-- A style property is taken from the token that came first. -/
theorem get?_absorb {token : Token} (h : token.style.Sorted) (other : Token) (key : String) :
    (token.absorb other).style.get? key = (token.style.get? key).or (other.style.get? key) :=
  Entries.get?_overlay h.nodup_keys key

theorem neat_absorb {token other : Token} (h : token.Neat) (hother : other.Neat) :
    (token.absorb other).Neat where
  cursor := h.cursor.later _
  inserted := (timeRank?_earliest? h.inserted hother.inserted).1
  style := hother.style.overlay _
  motions := nodup_joinMotions h.motions

/-- Absorbing one more token. -/
theorem IsJoin.absorb {group : List Token} {token other : Token} (h : IsJoin group token)
    (hother : other.Neat) : IsJoin (group ++ [other]) (token.absorb other) where
  neat := neat_absorb h.neat hother
  frame := by
    obtain ⟨t, ht, heq⟩ := h.frame
    exact ⟨t, List.mem_append_left _ ht, heq⟩
  cursor := by
    rw [List.map_append, List.foldl_append, ← h.cursor]
    exact h.neat.cursor.timeRank_later _
  inserted := by
    rw [List.map_append, List.foldl_append, ← h.inserted]
    exact (timeRank?_earliest? h.neat.inserted hother.inserted).2
  style key value hvalue := by
    rw [get?_absorb h.neat.style, Option.or_eq_some_iff] at hvalue
    rcases hvalue with hvalue | ⟨-, hvalue⟩
    · obtain ⟨t, ht, heq⟩ := h.style key value hvalue
      exact ⟨t, List.mem_append_left _ ht, heq⟩
    · exact ⟨other, List.mem_append_right _ (List.mem_singleton_self _), hvalue⟩
  keys t ht key hkey := by
    rw [get?_absorb h.neat.style, Option.isSome_or, Bool.or_eq_true]
    rcases List.mem_append.mp ht with ht | ht
    · exact .inl (h.keys t ht key hkey)
    · rw [List.mem_singleton.mp ht] at hkey
      exact .inr hkey
  motions m hm := by
    rcases mem_joinMotions hm with hm | hm
    · obtain ⟨t, ht, heq⟩ := h.motions m hm
      exact ⟨t, List.mem_append_left _ ht, heq⟩
    · exact ⟨other, List.mem_append_right _ (List.mem_singleton_self _), hm⟩
  tracks t ht m hm := by
    refine mem_map_joinMotions.mpr ?_
    rcases List.mem_append.mp ht with ht | ht
    · exact .inl (h.tracks t ht m hm)
    · rw [List.mem_singleton.mp ht] at hm
      exact .inr (List.mem_map_of_mem hm)

/-- What joining makes of some tokens is made of them. -/
theorem isJoin_of_fuse {group : List Token} {token : Token} (hneat : ∀ t ∈ group, t.Neat)
    (h : Roster.fuse absorb group = some token) : IsJoin group token :=
  Roster.rel_of_fuse_eq_some IsJoin (fun _ => isJoin_singleton)
    (fun _ _ _ _ hother hkept => hkept.absorb hother) hneat h

end Token

/-! ### Outlines -/

/-- A token up to the order of its motions. The details are left out where they are of no
account. -/
structure Outline where
  /-- What no merge node changes. -/
  frame : NodeId × Geometry × List CopyMark × Vec2
  /-- The cursor. -/
  cursor : Float
  /-- The time of insertion. -/
  insertTime : Option Float
  /-- The style and the motions. -/
  details : Option (Entries Json × Multiset (TrackOrigin × Motion))

namespace Token

/-- The outline of a token. -/
def outline (full : Bool) (token : Token) : Outline where
  frame := token.frame
  cursor := token.cursor
  insertTime := token.insertTime
  details := if full then some (token.style, token.motions) else none

/-- Where the object comes from: its drawable node and the marks on it. -/
def line (token : Token) : NodeId × List CopyMark :=
  (token.origin, token.copies)

variable {full : Bool} {token other : Token}

theorem line_eq_of_frame (h : token.frame = other.frame) : token.line = other.line := by
  obtain ⟨horigin, -, hcopies, -⟩ := frame_eq_iff.mp h
  rw [line, line, horigin, hcopies]

theorem frame_eq_of_outline (h : token.outline full = other.outline full) :
    token.frame = other.frame :=
  congrArg Outline.frame h

theorem details_eq_of_outline (h : token.outline true = other.outline true) :
    token.style = other.style ∧ token.motions.Perm other.motions := by
  have hdetails := congrArg Outline.details h
  simpa [outline] using hdetails

/-- Agreement is told from outlines. -/
theorem Agrees.of_outline {token' other' : Token} (h : token.Agrees other)
    (htoken : token.outline true = token'.outline true)
    (hother : other.outline true = other'.outline true) : token'.Agrees other' := by
  obtain ⟨hstyle, hmotions⟩ := details_eq_of_outline htoken
  obtain ⟨hstyle', hmotions'⟩ := details_eq_of_outline hother
  refine ⟨?_, fun m hm m' hm' => ?_⟩
  · rw [← hstyle, ← hstyle']
    exact h.style
  · exact h.motions m (hmotions.mem_iff.mpr hm) m' (hmotions'.mem_iff.mpr hm')

namespace IsJoin

variable {group : List Token}

/-- The style of tokens that agree is theirs together. -/
theorem style_iff (h : IsJoin group token) (hagree : ∀ t ∈ group, ∀ t' ∈ group, t.Agrees t')
    (key : String) (value : Json) :
    token.style.get? key = some value ↔ ∃ t ∈ group, t.style.get? key = some value := by
  refine ⟨h.style key value, ?_⟩
  rintro ⟨t, ht, hvalue⟩
  obtain ⟨value', hvalue'⟩ :=
    Option.isSome_iff_exists.mp (h.keys t ht key (by rw [hvalue]; rfl))
  obtain ⟨t', ht', hfrom⟩ := h.style key value' hvalue'
  rw [hvalue', (hagree t ht t' ht').style key value value' hvalue hfrom]

/-- The motions of tokens that agree are theirs together. -/
theorem motions_iff (h : IsJoin group token) (hagree : ∀ t ∈ group, ∀ t' ∈ group, t.Agrees t')
    (m : TrackOrigin × Motion) : m ∈ token.motions ↔ ∃ t ∈ group, m ∈ t.motions := by
  refine ⟨h.motions m, ?_⟩
  rintro ⟨t, ht, hm⟩
  obtain ⟨m', hm', horigin⟩ := List.mem_map.mp (h.tracks t ht m hm)
  obtain ⟨t', ht', hfrom⟩ := h.motions m' hm'
  rwa [(hagree t ht t' ht').motions m hm m' hfrom horigin.symm]

end IsJoin

private theorem exists_mem_of_map_perm {list list' : List Token} {f : Token → Outline}
    (h : (list.map f).Perm (list'.map f)) {t : Token} (ht : t ∈ list) : ∃ t' ∈ list', f t' = f t :=
  List.mem_map.mp (h.mem_iff.mp (List.mem_map_of_mem ht))

private theorem exists_mem_iff_of_map_perm {list list' : List Token} {f : Token → Outline}
    (h : (list.map f).Perm (list'.map f)) {p : Token → Prop}
    (hp : ∀ t t' : Token, f t = f t' → p t → p t') : (∃ t ∈ list, p t) ↔ ∃ t ∈ list', p t := by
  constructor
  · rintro ⟨t, ht, hpt⟩
    obtain ⟨t', ht', hout⟩ := exists_mem_of_map_perm h ht
    exact ⟨t', ht', hp t t' hout.symm hpt⟩
  · rintro ⟨t, ht, hpt⟩
    obtain ⟨t', ht', hout⟩ := exists_mem_of_map_perm h.symm ht
    exact ⟨t', ht', hp t t' hout.symm hpt⟩

section SameOutlines

variable {group group' : List Token} (h : IsJoin group token) (h' : IsJoin group' other)
  (hperm : (group.map (outline true)).Perm (group'.map (outline true)))
  (hagree : ∀ t ∈ group, ∀ t' ∈ group, t.Agrees t')

include hperm hagree in
/-- Agreement is told from the outlines of tokens in any order. -/
theorem agrees_of_perm : ∀ t ∈ group', ∀ t' ∈ group', t.Agrees t' := by
  intro t ht t' ht'
  obtain ⟨u, hu, hout⟩ := exists_mem_of_map_perm hperm.symm ht
  obtain ⟨u', hu', hout'⟩ := exists_mem_of_map_perm hperm.symm ht'
  exact (hagree u hu u' hu').of_outline hout hout'

include h h' hperm hagree

theorem IsJoin.style_eq : token.style = other.style := by
  refine h.neat.style.ext h'.neat.style fun key => Option.ext fun value => ?_
  rw [h.style_iff hagree, h'.style_iff (agrees_of_perm hperm hagree)]
  exact exists_mem_iff_of_map_perm hperm fun t t' hout hvalue =>
    (details_eq_of_outline hout).1 ▸ hvalue

theorem IsJoin.motions_perm : token.motions.Perm other.motions := by
  refine (List.perm_ext_iff_of_nodup (h.neat.motions.of_map _)
    (h'.neat.motions.of_map _)).mpr fun m => ?_
  rw [h.motions_iff hagree, h'.motions_iff (agrees_of_perm hperm hagree)]
  exact exists_mem_iff_of_map_perm hperm fun t t' hout hm =>
    (details_eq_of_outline hout).2.mem_iff.mp hm

end SameOutlines

/-- Tokens of one frame that agree make the same in every order. -/
theorem IsJoin.outline_eq {group group' : List Token} (h : IsJoin group token)
    (h' : IsJoin group' other)
    (hperm : (group.map (outline full)).Perm (group'.map (outline full)))
    (hkin : ∀ t ∈ group, ∀ t' ∈ group, t.frame = t'.frame)
    (hagree : full = true → ∀ t ∈ group, ∀ t' ∈ group, t.Agrees t') :
    token.outline full = other.outline full := by
  have hframe : token.frame = other.frame := by
    obtain ⟨t, ht, heq⟩ := h.frame
    obtain ⟨t', ht', heq'⟩ := h'.frame
    obtain ⟨u, hu, hout⟩ := exists_mem_of_map_perm hperm.symm ht'
    rw [heq, heq', ← frame_eq_of_outline hout]
    exact hkin t ht u hu
  have hcursor : token.cursor = other.cursor := by
    refine h.neat.cursor.eq_of_timeRank h'.neat.cursor ?_
    have hranks := hperm.map fun o => timeRank o.cursor
    rw [List.map_map, List.map_map] at hranks
    rw [h.cursor, h'.cursor]
    exact hranks.foldl_eq 0
  have hinserted : token.insertTime = other.insertTime := by
    refine eq_of_timeRank? h.neat.inserted h'.neat.inserted ?_
    have hranks := hperm.map fun o => timeRank? o.insertTime
    rw [List.map_map, List.map_map] at hranks
    rw [h.inserted, h'.inserted]
    exact hranks.foldl_eq ⊤
  rw [outline, outline, hframe, hcursor, hinserted]
  cases full with
  | false => rfl
  | true =>
    have hstyle := h.style_eq h' hperm (hagree rfl)
    have hmotions := h.motions_perm h' hperm (hagree rfl)
    rw [hstyle, Multiset.coe_eq_coe.mpr hmotions]

/-! ### What a merge node keeps -/

/-- The tokens of some lines among others. -/
def along (keeps : NodeId × List CopyMark → Bool) (tokens : List Token) : List Token :=
  tokens.filter fun token => keeps token.line

/-- Among some tokens those of some lines can be joined in any order: they share their names only
with tokens of their own frame, and, if details are of account, only with tokens they agree
with. -/
structure Compatible (keeps : NodeId × List CopyMark → Bool) (full : Bool)
    (tokens : List Token) : Prop where
  /-- All tokens are neat. -/
  neat : ∀ t ∈ tokens, t.Neat
  /-- Tokens of one name have one frame. -/
  frame : ∀ t ∈ tokens, keeps t.line = true → ∀ t' ∈ tokens, t'.name = t.name → t.frame = t'.frame
  /-- They agree. -/
  agrees : full = true → ∀ t ∈ tokens, keeps t.line = true → ∀ t' ∈ tokens, t'.name = t.name →
    t.Agrees t'

variable {keeps : NodeId × List CopyMark → Bool} {tokens tokens' : List Token}

/-- The outlines of the tokens that fit a predicate, if outlines tell which do. -/
theorem map_outline_filter_perm {list list' : List Token}
    (hperm : (list.map (outline full)).Perm (list'.map (outline full))) {p : Token → Bool}
    (hp : ∀ t t' : Token, t.frame = t'.frame → p t = p t') :
    ((list.filter p).map (outline full)).Perm ((list'.filter p).map (outline full)) := by
  have hfilter : ∀ l : List Token, (l.filter p).map (outline full) =
      (l.map (outline full)).filter fun o =>
        p ⟨o.frame.1, o.frame.2.1, o.frame.2.2.1, o.frame.2.2.2, 0, none, [], []⟩ := by
    intro l
    rw [List.filter_map]
    exact congrArg _ (List.filter_congr fun t _ => hp _ _ rfl)
  rw [hfilter, hfilter]
  exact hperm.filter _

/-- The tokens of one name are of the lines if one of them is. -/
theorem Compatible.filter_along (h : Compatible keeps full tokens) {t : Token} (ht : t ∈ tokens)
    (hkeeps : keeps t.line = true) :
    (along keeps tokens).filter (fun token => token.name = t.name) =
      tokens.filter fun token => token.name = t.name := by
  rw [along, List.filter_filter]
  refine List.filter_congr fun t' ht' => ?_
  by_cases hname : t'.name = t.name
  · rw [← line_eq_of_frame (h.frame t ht hkeeps t' ht' hname), hkeeps, Bool.and_true]
  · simp [hname]

/-- What a merge node keeps of the lines has a counterpart in every other order of arrival. -/
theorem Compatible.exists_mem_join (h : Compatible keeps full tokens)
    (h' : Compatible keeps full tokens')
    (hperm : ((along keeps tokens).map (outline full)).Perm
      ((along keeps tokens').map (outline full)))
    (htoken : token ∈ join tokens) (hkeeps : keeps token.line = true) :
    ∃ other ∈ join tokens', other.outline full = token.outline full := by
  have hgroup := (mem_join_iff tokens token).mp htoken
  obtain ⟨t, ht, horigin, hcopies⟩ := exists_mem_of_mem_join htoken
  have htname : t.name = token.name := name_eq_of_copies horigin hcopies
  have htkeeps : keeps t.line = true := by rwa [line, horigin, hcopies]
  have hgroups : ((tokens.filter fun t => t.name = token.name).map (outline full)).Perm
      ((along keeps tokens').filter (fun t => t.name = token.name) |>.map (outline full)) := by
    rw [← htname, ← h.filter_along ht htkeeps]
    exact map_outline_filter_perm hperm fun a b hab => by rw [name_eq_of_frame hab]
  -- One of the others has the name as well, so all of them are of the lines.
  obtain ⟨t', ht', hout⟩ := exists_mem_of_map_perm hgroups
    (List.mem_filter.mpr ⟨ht, decide_eq_true htname⟩)
  obtain ⟨halong, hname⟩ := List.mem_filter.mp ht'
  obtain ⟨hmem, hkeeps'⟩ := List.mem_filter.mp halong
  have hname : t'.name = token.name := of_decide_eq_true hname
  rw [← hname, h'.filter_along hmem hkeeps', hname] at hgroups
  have hneat : ∀ u ∈ tokens.filter fun t => t.name = token.name, u.Neat := fun u hu =>
    h.neat u (List.mem_filter.mp hu).1
  have hneat' : ∀ u ∈ tokens'.filter fun t => t.name = token.name, u.Neat := fun u hu =>
    h'.neat u (List.mem_filter.mp hu).1
  have hmem_group : ∀ u ∈ tokens.filter fun t => t.name = token.name,
      u ∈ tokens ∧ t.frame = u.frame := fun u hu => by
    obtain ⟨hu, huname⟩ := List.mem_filter.mp hu
    exact ⟨hu, h.frame t ht htkeeps u hu ((of_decide_eq_true huname).trans htname.symm)⟩
  cases hfuse : Roster.fuse absorb (tokens'.filter fun t => t.name = token.name) with
  | none =>
    have hnone := List.filter_eq_nil_iff.mp ((Roster.fuse_eq_none_iff _).mp hfuse) t' hmem
    exact absurd (decide_eq_true hname) hnone
  | some other =>
    have hout := (isJoin_of_fuse hneat hgroup).outline_eq (isJoin_of_fuse hneat' hfuse) hgroups
      (fun u hu u' hu' => (hmem_group u hu).2.symm.trans (hmem_group u' hu').2)
      fun hfull u hu u' hu' => by
        have hframe := (hmem_group u hu).2
        refine h.agrees hfull u (hmem_group u hu).1 ?_ u' (hmem_group u' hu').1 ?_
        · rwa [← line_eq_of_frame hframe]
        · exact (name_eq_of_frame ((hmem_group u' hu').2.symm.trans hframe))
    refine ⟨other, (mem_join_iff tokens' other).mpr ?_, hout.symm⟩
    rw [← name_eq_of_frame (frame_eq_of_outline hout)]
    exact hfuse

theorem nodup_outline_along_join (full : Bool) (keeps : NodeId × List CopyMark → Bool)
    (tokens : List Token) : ((along keeps (join tokens)).map (outline full)).Nodup := by
  have hnames : ((along keeps (join tokens)).map fun token => token.name.text).Nodup :=
    (nodup_join tokens).sublist (List.filter_sublist.map _)
  refine List.Nodup.map_on (fun t ht t' ht' hout => ?_) (hnames.of_map _)
  exact List.inj_on_of_nodup_map hnames ht ht'
    (congrArg NodeId.text (name_eq_of_frame (frame_eq_of_outline hout)))

/-- The tokens that a merge node keeps have the same outlines in any order of arrival. -/
theorem perm_join (h : Compatible keeps full tokens) (h' : Compatible keeps full tokens')
    (hperm : ((along keeps tokens).map (outline full)).Perm
      ((along keeps tokens').map (outline full))) :
    ((along keeps (join tokens)).map (outline full)).Perm
      ((along keeps (join tokens')).map (outline full)) := by
  refine (List.perm_ext_iff_of_nodup (nodup_outline_along_join _ _ _)
    (nodup_outline_along_join _ _ _)).mpr fun o => ?_
  simp only [List.mem_map, along, List.mem_filter]
  constructor
  · rintro ⟨t, ⟨ht, hkeeps⟩, rfl⟩
    obtain ⟨t', ht', hout⟩ := h.exists_mem_join h' hperm ht hkeeps
    exact ⟨t', ⟨ht', by rwa [line_eq_of_frame (frame_eq_of_outline hout)]⟩, hout⟩
  · rintro ⟨t, ⟨ht, hkeeps⟩, rfl⟩
    obtain ⟨t', ht', hout⟩ := h'.exists_mem_join h hperm.symm ht hkeeps
    exact ⟨t', ⟨ht', by rwa [line_eq_of_frame (frame_eq_of_outline hout)]⟩, hout⟩

/-- Tokens with the same outlines on the lines agree where the others do. -/
theorem Compatible.of_perm (h : Compatible keeps full tokens) (hneat : ∀ t ∈ tokens', t.Neat)
    (hframe : ∀ t ∈ tokens', keeps t.line = true → ∀ t' ∈ tokens', t'.name = t.name →
      t.frame = t'.frame)
    (hperm : ((along keeps tokens).map (outline full)).Perm
      ((along keeps tokens').map (outline full))) : Compatible keeps full tokens' where
  neat := hneat
  frame := hframe
  agrees := by
    rintro rfl t ht hkeeps t' ht' hname
    have hkeeps' : keeps t'.line = true := by
      rwa [← line_eq_of_frame (hframe t ht hkeeps t' ht' hname)]
    obtain ⟨u, hu, hout⟩ := exists_mem_of_map_perm hperm.symm (List.mem_filter.mpr ⟨ht, hkeeps⟩)
    obtain ⟨u', hu', hout'⟩ :=
      exists_mem_of_map_perm hperm.symm (List.mem_filter.mpr ⟨ht', hkeeps'⟩)
    obtain ⟨hmem, hukeeps⟩ := List.mem_filter.mp hu
    refine (h.agrees rfl u hmem hukeeps u' (List.mem_filter.mp hu').1 ?_).of_outline hout hout'
    rw [name_eq_of_frame (frame_eq_of_outline hout),
      name_eq_of_frame (frame_eq_of_outline hout'), hname]

end Token

end SceneFlow
