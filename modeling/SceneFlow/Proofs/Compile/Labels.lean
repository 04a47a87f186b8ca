import Mathlib
import SceneFlow.Proofs.Compile.Invariant
import SceneFlow.Proofs.Motion.Rendering
import SceneFlow.Proofs.Roster

/-!
# Tokens with labels

A token says neither whose its motions are nor whether an insert node has placed it, since both can
be told from its name and from the time at which it is inserted. Here a token has labels that say
so, written down when it happens: a motion is labelled with the name that its token has at the
time, a copy labels all motions anew, and in a merge node motions and marks are taken over as they
are labelled. Tokens with labels run through a network as others do. Their labels never say
anything else than what can be told without them.

## Main definitions

* `LabelledToken`: a token with labels on its motions and a mark whether it has been inserted.
* `LabelledToken.ofToken`: the token with the labels that can be told from it.
* `Network.labelledFlow`: the flow of tokens with labels.

## Main results

* `LabelledToken.absorb_ofToken`: joining tokens of one object keeps the labels right.
* `Node.labelledOut_map_ofToken`, `Network.labelledTurn_ofFlow`: so do a node and a turn.
* `Network.labelledFlow_eq`: the labels in a flow are right.
-/

namespace SceneFlow

/-- A token with labels. -/
structure LabelledToken where
  /-- The token. -/
  token : Token
  /-- Its motions, each with its origin and under the name of an object. -/
  tracks : List (TrackOrigin × ObjectMotion)
  /-- Whether an insert node has placed it. -/
  inserted : Bool

namespace LabelledToken

/-- Put the name of an object on motions. -/
def label (object : NodeId) (motions : List (TrackOrigin × Motion)) :
    List (TrackOrigin × ObjectMotion) :=
  motions.map fun (origin, motion) => (origin, ⟨object, motion⟩)

/-- The token with the labels that can be told from it. -/
def ofToken (token : Token) : LabelledToken :=
  ⟨token, label token.name token.motions, token.insertTime.isSome⟩

/-- The motions that a token is labelled with are those of its object. -/
theorem map_snd_tracks_ofToken (token : Token) :
    (ofToken token).tracks.map Prod.snd = token.objectMotions := by
  rw [ofToken, label, List.map_map]
  rfl

/-! ### What happens to a token -/

/-- The token that starts at a drawable node. -/
def seed (origin : NodeId) (geometry : Geometry) : LabelledToken :=
  ⟨.seed origin geometry, [], false⟩

/-- Pass an insert node. -/
def insert (labelled : LabelledToken) (delay : Float) : LabelledToken :=
  ⟨labelled.token.insert delay, labelled.tracks, true⟩

/-- Lay style over the token. -/
def restyle (labelled : LabelledToken) (style : Entries Json) : LabelledToken :=
  { labelled with token := labelled.token.restyle style }

/-- Pass an animation node. The motions that the token gets are labelled with its name. -/
def animate (labelled : LabelledToken) (animation : Animation) (resolver : Resolver)
    (node : NodeId) : Option LabelledToken :=
  (animation.animate resolver node labelled.token).1.map fun token =>
    { labelled with
      token
      tracks := labelled.tracks
        ++ label labelled.token.name (token.motions.drop labelled.token.motions.length) }

/-- A copy of the token, all motions labelled with the name of the copy. -/
def copy (labelled : LabelledToken) (node : NodeId) (step : Vec2) (number : Nat) :
    LabelledToken :=
  let token := labelled.token.copy node step number
  { labelled with
    token
    tracks := labelled.tracks.map fun (origin, placed) =>
      (origin, { placed with object := token.name }) }

/-- The token and its copies, in the order of their numbers. -/
def duplicate (labelled : LabelledToken) (node : NodeId) (step : Vec2) (count : Nat) :
    List LabelledToken :=
  labelled :: (List.range count).map fun i => labelled.copy node step (i + 1)

/-- The motions of the first list, and those of the second from tracks that are not in the first,
all as they are labelled. -/
def joinTracks (tracks more : List (TrackOrigin × ObjectMotion)) :
    List (TrackOrigin × ObjectMotion) :=
  more.foldl
    (fun tracks m => if tracks.any fun k => k.1 = m.1 then tracks else tracks ++ [m]) tracks

/-- Join a token of the same object, which has come later. -/
def absorb (labelled other : LabelledToken) : LabelledToken :=
  ⟨labelled.token.absorb other.token, joinTracks labelled.tracks other.tracks,
    labelled.inserted || other.inserted⟩

/-- One token for every object, in the order in which the objects came first. -/
def join (tokens : List LabelledToken) : List LabelledToken :=
  Roster.gather (fun labelled => labelled.token.name.text) absorb tokens

/-! ### Labels stay right -/

section Right

variable (token : Token)

theorem insert_ofToken (delay : Float) :
    (ofToken token).insert delay = ofToken (token.insert delay) := by
  simp [insert, ofToken, Token.insert, Token.name]

theorem restyle_ofToken (style : Entries Json) :
    (ofToken token).restyle style = ofToken (token.restyle style) :=
  rfl

theorem animate_ofToken (animation : Animation) (resolver : Resolver) (node : NodeId) :
    (ofToken token).animate animation resolver node =
      (animation.animate resolver node token).1.map ofToken := by
  refine Option.map_congr fun result hresult => ?_
  obtain ⟨rendered, -, rfl⟩ := Animation.animate_fst_eq_some_iff.mp hresult
  simp [ofToken, label, Token.name]

theorem copy_ofToken (node : NodeId) (step : Vec2) (number : Nat) :
    (ofToken token).copy node step number = ofToken (token.copy node step number) := by
  simp [copy, ofToken, label, Token.copy, Function.comp_def]

theorem joinTracks_label (object : NodeId) (motions more : List (TrackOrigin × Motion)) :
    joinTracks (label object motions) (label object more) =
      label object (Token.joinMotions motions more) := by
  induction more generalizing motions with
  | nil => rfl
  | cons m more ih =>
    have hany : ((label object motions).any fun k => k.1 = m.1) =
        motions.any fun k => k.1 = m.1 := List.any_map
    have hstep : (if (label object motions).any fun k => k.1 = m.1 then label object motions
        else label object motions ++ [(m.1, ⟨object, m.2⟩)]) =
          label object (if motions.any fun k => k.1 = m.1 then motions else motions ++ [m]) := by
      rw [hany]
      split
      · rfl
      · simp [label]
    exact (congrArg (joinTracks · (label object more)) hstep).trans (ih _)

/-- Two tokens of one object label their motions alike. -/
theorem absorb_ofToken {other : Token} (h : token.name = other.name) :
    (ofToken token).absorb (ofToken other) = ofToken (token.absorb other) := by
  rw [absorb, ofToken, ofToken, ofToken, ← h, joinTracks_label]
  congr 1
  rw [Token.absorb]
  cases token.insertTime <;> cases other.insertTime <;> rfl

theorem join_map_ofToken (tokens : List Token) :
    join (tokens.map ofToken) = (Token.join tokens).map ofToken :=
  Roster.gather_map (fun _ => rfl)
    (fun token _ h => absorb_ofToken token (NodeId.eq_iff_text.mpr h)) (fun _ _ => rfl)
    (fun _ _ => rfl) tokens

end Right

end LabelledToken

/-! ### Nodes and turns -/

/-- What leaves a node at which tokens with labels arrive, when `created` objects exist. -/
def Node.labelledOut (node : Node) (settings : FlowSettings) (created : ℕ)
    (tokens : List LabelledToken) : List LabelledToken :=
  match node.kind with
  | .geometry data => [.seed node.id data]
  | .merge _ => LabelledToken.join tokens
  | .filter data => tokens.filter fun labelled => data.admits labelled.token.origin
  | .insert data =>
    match data.mode with
    | .never => []
    | .always => tokens.map fun labelled => labelled.insert data.delay
  | .animation data =>
    tokens.filterMap fun labelled => labelled.animate data settings.resolver node.id
  | .textStyle data => tokens.map fun labelled => labelled.restyle data.style
  | .duplicate data =>
    let count := data.count.toNat
    if settings.limit < created + count * tokens.length then []
    else tokens.flatMap fun labelled => labelled.duplicate node.id data.offset count
  | _ => []

/-- How far the flow of tokens with labels has come. -/
structure LabelledFlow (n : ℕ) where
  /-- The tokens that have been handed to links, with the targets of the links, in turn. -/
  sent : List (Fin n × List LabelledToken)
  /-- The tokens that have been delivered, in turn. -/
  delivered : List LabelledToken
  /-- How many objects have come into being. -/
  created : ℕ

namespace LabelledFlow

/-- The flow before any node has had its turn. -/
def start (n : ℕ) : LabelledFlow n :=
  ⟨[], [], 0⟩

/-- The tokens that have been sent to a node. -/
def arrived {n : ℕ} (flow : LabelledFlow n) (v : Fin n) : List LabelledToken :=
  (flow.sent.filter fun parcel => parcel.1 = v).flatMap Prod.snd

/-- A flow with the labels that can be told from its tokens. -/
def ofFlow {n : ℕ} (flow : Flow n) : LabelledFlow n :=
  ⟨flow.sent.map fun parcel => (parcel.1, parcel.2.map .ofToken),
    flow.delivered.map .ofToken, flow.created⟩

theorem arrived_ofFlow {n : ℕ} (flow : Flow n) (v : Fin n) :
    (ofFlow flow).arrived v = (flow.arrived v).map .ofToken := by
  rw [arrived, ofFlow, List.filter_map, List.flatMap_map, Flow.arrived, List.map_flatMap]
  rfl

end LabelledFlow

/-- What leaves a node are the tokens that leave it without labels, with the right ones. -/
theorem Node.labelledOut_map_ofToken (node : Node) (settings : FlowSettings) (created : ℕ)
    (tokens : List Token) :
    node.labelledOut settings created (tokens.map .ofToken) =
      (node.pass settings created tokens).out.map .ofToken := by
  rw [labelledOut, pass]
  cases node.kind with
  | geometry _ => rfl
  | merge _ => exact LabelledToken.join_map_ofToken tokens
  | filter _ =>
    simp only [List.filter_map]
    rfl
  | insert data =>
    dsimp only
    cases data.mode with
    | never => rfl
    | always => simp [Passage.through, Function.comp_def, LabelledToken.insert_ofToken]
  | animation data =>
    simp only [List.filterMap_map, List.map_filterMap]
    exact List.filterMap_congr fun token _ =>
      LabelledToken.animate_ofToken token data settings.resolver node.id
  | textStyle _ => simp [Passage.through, Function.comp_def, LabelledToken.restyle_ofToken]
  | duplicate data =>
    simp only [Duplication.pass, List.length_map]
    split
    · rfl
    · simp only [List.flatMap_map, List.map_flatMap]
      exact List.flatMap_congr fun token _ => by
        simp [LabelledToken.duplicate, Token.duplicate, LabelledToken.copy_ofToken]
  | unknown _ =>
    dsimp only
    split <;> rfl
  | terminal _ _ | constant _ | result _ | comparison _ | logic _ | math _ => rfl

namespace Network

variable {net : Network} {settings : FlowSettings}

/-- The turn of a node. -/
def labelledTurn (net : Network) (settings : FlowSettings) (flow : LabelledFlow net.size)
    (v : Fin net.size) : LabelledFlow net.size :=
  let node := net.node v
  let tokens := flow.arrived v
  if !node.kind.isMerge && settings.limit < tokens.length then flow
  else
    let out := node.labelledOut settings flow.created tokens
    { sent := flow.sent ++ (net.objectsBehind v).map fun target => (target, out)
      delivered := flow.delivered ++ if node.kind.isTerminal then tokens else []
      created := flow.created
        + (node.pass settings flow.created (tokens.map LabelledToken.token)).created }

/-- The flow of tokens with labels when all nodes have had their turns. -/
def labelledFlow (net : Network) (settings : FlowSettings) : LabelledFlow net.size :=
  net.objectOrder.foldl (net.labelledTurn settings) (.start net.size)

/-- A turn keeps the labels right. -/
theorem labelledTurn_ofFlow (flow : Flow net.size) (v : Fin net.size) :
    net.labelledTurn settings (.ofFlow flow) v = .ofFlow (net.turn settings flow v) := by
  rw [labelledTurn, turn]
  simp only [LabelledFlow.arrived_ofFlow, List.length_map, List.map_map]
  split
  · rfl
  · have htoken : (flow.arrived v).map (LabelledToken.token ∘ LabelledToken.ofToken) =
        flow.arrived v := List.map_id _
    simp only [LabelledFlow.ofFlow, Node.labelledOut_map_ofToken, Node.delivered_pass, htoken,
      List.map_append, List.map_map]
    split <;> rfl

/-- The labels in a flow are right: whatever motions are labelled with, it is the name of their
token, and the tokens marked as inserted are those with a time. -/
theorem labelledFlow_eq (net : Network) (settings : FlowSettings) :
    net.labelledFlow settings = .ofFlow (net.flow settings) := by
  have hstart : LabelledFlow.start net.size = .ofFlow (.start net.size) := rfl
  rw [labelledFlow, flow, hstart]
  exact List.foldl_hom LabelledFlow.ofFlow labelledTurn_ofFlow

end Network

end SceneFlow
