import SceneFlow.Compile.Token
import SceneFlow.Compile.Validation

/-!
# The flow of objects

Tokens start at the drawable nodes and run along the links that carry objects. The nodes take
their turns in an order in which each comes after the nodes before it, so that all tokens for a
node have arrived when its turn comes. A node hands what it makes of them to every link that
leaves it.
-/

namespace SceneFlow

/-- What the flow needs to know besides the graph. -/
structure FlowSettings where
  /-- How overrides are resolved. -/
  resolver : Resolver
  /-- How grave it is that an object passes no insert node. -/
  coverage : Severity
  /-- The largest number of objects, and of objects that may arrive at one node. -/
  limit : Nat

/-- What a node makes of the tokens that arrive at it. -/
structure Passage where
  /-- The tokens that leave it. -/
  out : List Token
  /-- The tokens that it delivers to the scene. -/
  delivered : List Token
  /-- How many objects come into being. -/
  created : Nat
  /-- What is found. -/
  findings : List Finding

namespace Passage

/-- Tokens leave, and nothing else happens. -/
def through (out : List Token) : Passage :=
  ⟨out, [], 0, []⟩

/-- No token leaves, and something is found. -/
def stopped (findings : List Finding) : Passage :=
  ⟨[], [], 0, findings⟩

end Passage

/-! ### Animation nodes -/

namespace Animation

/-- A track resolved for an object. -/
def resolveTrack (resolver : Resolver) (object : NodeId) (track : Track) :
    Except FieldProblem Track × List StaleBinding :=
  let space := (FieldPath.join FieldPath.timeline track.key).text
  let (view, stale) := resolver.view space track.view (.object object)
  (track.withView view, stale)

/-- The tracks resolved for an object and their motions from a point of time on, up to the first
track that cannot be rendered; and the bindings that were passed over. -/
def render (resolver : Resolver) (object : NodeId) (baseline : Float) :
    List Track → Except TrackProblem (List (Track × Motion)) × List StaleBinding
  | [] => (.ok [], [])
  | track :: tracks =>
    let (resolved, stale) := resolveTrack resolver object track
    let rendered := do
      let resolved ← resolved.mapError TrackProblem.settings
      let motion ← resolved.motion baseline
      Except.ok (resolved, motion)
    match rendered with
    | .error problem => (.error problem, stale)
    | .ok first =>
      let (rest, more) := render resolver object baseline tracks
      (rest.map (first :: ·), stale ++ more)

/-- How long the node takes when its tracks are resolved in this way. -/
def span (animation : Animation) (resolved : List Track) : Float :=
  animation.duration.getD (resolved.foldl (fun latest track => later latest track.finish) 0)

/-- What becomes of a token: it gets a motion for every track, unless one cannot be rendered. -/
def animate (animation : Animation) (resolver : Resolver) (node : NodeId) (token : Token) :
    Option Token × List Finding :=
  let (rendered, stale) := render resolver token.name token.cursor animation.tracks
  let notes := stale.map Finding.stale
  match rendered with
  | .error problem => (none, notes ++ [.badTrack node token.name problem])
  | .ok rendered =>
    let motions := rendered.zipIdx.map fun ((_, motion), slot) => (⟨node, slot⟩, motion)
    let cursor := token.cursor + animation.span (rendered.map Prod.fst)
    (some { token with cursor, motions := token.motions ++ motions }, notes)

end Animation

/-! ### Nodes -/

/-- What a duplicate node makes of tokens, of which `created` objects exist. -/
def Duplication.pass (data : Duplication) (limit : Nat) (node : NodeId) (created : Nat)
    (tokens : List Token) : Passage :=
  let count := data.count.toNat
  let copies := count * tokens.length
  if limit < created + copies then .stopped [.copyLimit node limit]
  else ⟨tokens.flatMap fun token => token.duplicate node data.offset count, [], copies, []⟩

/-- What a node makes of the tokens that arrive at it, when `created` objects exist. -/
def Node.pass (node : Node) (settings : FlowSettings) (created : Nat) (tokens : List Token) :
    Passage :=
  match node.kind with
  | .geometry data => ⟨[.seed node.id data], [], 1, []⟩
  | .merge _ => .through (Token.join tokens)
  | .filter data => .through (tokens.filter fun token => data.admits token.origin)
  | .insert data =>
    match data.mode with
    | .never => .through []
    | .always => .through (tokens.map fun token => token.insert data.delay)
  | .animation data =>
    let results := tokens.map (data.animate settings.resolver node.id)
    ⟨results.filterMap Prod.fst, [], 0, results.flatMap Prod.snd⟩
  | .textStyle data => .through (tokens.map fun token => token.restyle data.style)
  | .duplicate data => data.pass settings.limit node.id created tokens
  | .terminal _ _ => ⟨[], tokens, 0, []⟩
  | .unknown type =>
    match distinct NodeId.text (tokens.map Token.name) with
    | [] => .stopped []
    | objects => .stopped [.unknownType node.id type objects]
  | .constant _ | .result _ | .comparison _ | .logic _ | .math _ => .stopped []

/-- What is found where tokens leave a node from which no link leads on. -/
def Node.deadEnds (node : Node) (coverage : Severity) (out : List Token) : List Finding :=
  if out.isEmpty then []
  else if node.kind.isDrawable then [.unconnected node.id coverage]
  else out.map fun token => .deadEnd token.name node.id

/-! ### The whole graph -/

/-- How far the flow through a graph of `n` nodes has come. -/
structure Flow (n : Nat) where
  /-- The tokens that have been handed to links, with the targets of the links, in turn. -/
  sent : List (Fin n × List Token)
  /-- The tokens that have been delivered, in turn. -/
  delivered : List Token
  /-- How many objects have come into being. -/
  created : Nat
  /-- What has been found, in turn. -/
  findings : List Finding

namespace Flow

/-- The flow before any node has had its turn. -/
def start (n : Nat) : Flow n :=
  ⟨[], [], 0, []⟩

/-- The tokens that have been sent to a node. -/
def arrived {n : Nat} (flow : Flow n) (v : Fin n) : List Token :=
  (flow.sent.filter fun parcel => parcel.1 = v).flatMap Prod.snd

end Flow

namespace Network

/-- The nodes behind a node on the way of its objects. -/
def objectsBehind (net : Network) (v : Fin net.size) : List (Fin net.size) :=
  (net.objectLinks v).map Link.target

/-- The order in which the nodes take their turns. -/
def objectOrder (net : Network) : List (Fin net.size) :=
  Digraph.schedule net.places net.objectsBehind

/-- The turn of a node. At any but a merge node too many tokens are an error, and none goes on. -/
def turn (net : Network) (settings : FlowSettings) (flow : Flow net.size) (v : Fin net.size) :
    Flow net.size :=
  let node := net.node v
  let tokens := flow.arrived v
  if !node.kind.isMerge && settings.limit < tokens.length then
    { flow with
      findings := flow.findings ++ [.crowded node.id tokens.length settings.limit] }
  else
    let passage := node.pass settings flow.created tokens
    let targets := net.objectsBehind v
    let ends := if targets.isEmpty then node.deadEnds settings.coverage passage.out else []
    { sent := flow.sent ++ targets.map fun target => (target, passage.out)
      delivered := flow.delivered ++ passage.delivered
      created := flow.created + passage.created
      findings := flow.findings ++ passage.findings ++ ends }

/-- The flow when all nodes have had their turns. -/
def flow (net : Network) (settings : FlowSettings) : Flow net.size :=
  net.objectOrder.foldl (net.turn settings) (.start net.size)

end Network

/-! ### Deliveries -/

/-- How often an object is delivered. -/
structure Delivery where
  /-- The object. -/
  object : NodeId
  /-- Its drawable node. -/
  origin : NodeId
  /-- The number of its tokens. -/
  count : Nat

namespace Delivery

/-- The delivery of a token. -/
def ofToken (token : Token) : Delivery :=
  ⟨token.name, token.origin, 1⟩

/-- Add a delivery of the same object, which has come later. -/
def add (delivery other : Delivery) : Delivery :=
  { delivery with count := delivery.count + other.count }

/-- How often each object is delivered, in the order in which the objects came first. -/
def ofTokens (delivered : List Token) : List Delivery :=
  Roster.gather (fun delivery => delivery.object.text) add (delivered.map ofToken)

/-- The objects that are delivered more than once, in the order of their names. -/
def repeated (delivered : List Token) : List Delivery :=
  ((ofTokens delivered).filter fun delivery => 1 < delivery.count).mergeSort
    fun a b => a.object.text ≤ b.object.text

end Delivery

namespace Network

/-- An edge, the node it leaves, and the objects that edges before it have claimed. -/
abbrev Claim := EdgeId × NodeId × List NodeId

/-- What is claimed before the edges of nodes that several edges leave. Edges into merge nodes are
left out, since they may claim objects again. -/
def claims (net : Network) : List Claim :=
  net.places.flatMap fun v =>
    let links := (net.objectLinks v).filter fun link => !(net.node link.target).kind.isMerge
    if links.length < 2 then []
    else
      links.filterMap fun link =>
        match net.branch (net.id v) link.edge.id with
        | .ok share => some (link.edge.id, net.id v, share.taken)
        | .error _ => none

/-- The edges that deliver an object again behind one that has claimed it, each with the node it
leaves. -/
def deliversAgain (claims : List Claim) (object : NodeId) : List (EdgeId × NodeId) :=
  (claims.filter fun (_, _, taken) => object ∈ taken).map fun (edge, source, _) => (edge, source)

/-- Findings about objects that are delivered more than once, in the order of their names. -/
def repeatedDeliveries (net : Network) (delivered : List Token) : List Finding :=
  match Delivery.repeated delivered with
  | [] => []
  | many =>
    let claims := net.claims
    many.map fun delivery =>
      .repeatedDelivery delivery.object delivery.count delivery.origin
        (deliversAgain claims delivery.origin)

/-- Findings about objects that have passed no insert node. -/
def uninserted (coverage : Severity) (delivered : List Token) : List Finding :=
  (delivered.filter fun token => token.insertTime.isNone).map fun token =>
    .notInserted token.name token.origin coverage

/-- What is found of the delivered tokens. -/
def deliveryFindings (net : Network) (coverage : Severity) (delivered : List Token) :
    List Finding :=
  net.repeatedDeliveries delivered ++ uninserted coverage delivered

end Network

end SceneFlow
