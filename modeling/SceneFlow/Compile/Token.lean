import SceneFlow.Graph.Node
import SceneFlow.Motion.Placed
import SceneFlow.Motion.Time
import SceneFlow.Roster

/-!
# Tokens

A token is an object on its way through the graph. It has a time of its own, the cursor, which
the nodes on its way move on; what the nodes do to one token no other token sees. Where paths of
one object meet in a merge node, its tokens are joined into one.
-/

namespace SceneFlow

/-- The mark that a duplicate node leaves on a copy. -/
structure CopyMark where
  /-- The duplicate node. -/
  node : NodeId
  /-- The number of the copy, from one on. -/
  number : Nat
deriving DecidableEq

/-- The mark as part of the name of an object. -/
def CopyMark.text (mark : CopyMark) : String :=
  "#" ++ mark.node.text ++ "." ++ toString mark.number

/-- The track of a graph that a motion was rendered from. -/
structure TrackOrigin where
  /-- The animation node. -/
  node : NodeId
  /-- The place of the track in the node. -/
  slot : Nat
deriving DecidableEq

/-- An object on its way through the graph. -/
structure Token where
  /-- Its drawable node. -/
  origin : NodeId
  /-- Its shape, as the drawable node has it. -/
  geometry : Geometry
  /-- The marks that duplicate nodes have left on it, the earliest first. -/
  copies : List CopyMark
  /-- How far duplicate nodes have moved it. -/
  offset : Vec2
  /-- The time that has passed on its way. -/
  cursor : Float
  /-- When an insert node placed it, if one has. -/
  insertTime : Option Float
  /-- The style laid over its properties. -/
  style : Entries Json
  /-- Its motions, each with its origin. -/
  motions : List (TrackOrigin × Motion)

namespace Token

/-- The token that starts at a drawable node. -/
def seed (origin : NodeId) (geometry : Geometry) : Token :=
  ⟨origin, geometry, [], .zero, 0, none, [], []⟩

/-- The name of the object: that of its drawable node with its marks. -/
def name (token : Token) : NodeId :=
  ⟨token.copies.foldl (fun text mark => text ++ mark.text) token.origin.text⟩

/-- Pass an insert node, which lets time pass and places the object unless one has before. -/
def insert (token : Token) (delay : Float) : Token :=
  let cursor := token.cursor + delay
  { token with cursor, insertTime := token.insertTime.or (some cursor) }

/-- Lay style over the token. -/
def restyle (token : Token) (style : Entries Json) : Token :=
  { token with style := token.style.overlay style }

/-- A copy of the token. -/
def copy (token : Token) (node : NodeId) (step : Vec2) (number : Nat) : Token :=
  { token with
    copies := token.copies ++ [⟨node, number⟩]
    offset := token.offset + step.scale number.toFloat }

/-- The token and its copies, in the order of their numbers. -/
def duplicate (token : Token) (node : NodeId) (step : Vec2) (count : Nat) : List Token :=
  token :: (List.range count).map fun i => token.copy node step (i + 1)

/-- The motions of the first list, and those of the second from tracks that are not in the
first. -/
def joinMotions (motions more : List (TrackOrigin × Motion)) : List (TrackOrigin × Motion) :=
  more.foldl
    (fun motions m => if motions.any fun k => k.1 = m.1 then motions else motions ++ [m]) motions

/-- Join a token of the same object, which has come later. -/
def absorb (token other : Token) : Token :=
  { token with
    cursor := later token.cursor other.cursor
    insertTime := earliest? token.insertTime other.insertTime
    style := other.style.overlay token.style
    motions := joinMotions token.motions other.motions }

/-- One token for every object, in the order in which the objects came first. -/
def join (tokens : List Token) : List Token :=
  Roster.gather (fun token => token.name.text) absorb tokens

theorem name_absorb (token other : Token) : (token.absorb other).name = token.name :=
  rfl

theorem join_eq_foldl (tokens : List Token) :
    join tokens = tokens.foldl
      (fun kept token => Roster.joinInto (fun token => token.name.text) absorb token kept) [] := by
  rw [join, Roster.gather_eq_foldl]
  intro token other
  rw [name_absorb]

end Token

end SceneFlow
