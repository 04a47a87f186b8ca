import Mathlib
import SceneFlow.Proofs.Compile.Invariant
import SceneFlow.Proofs.Motion.Rendering
import SceneFlow.Proofs.Roster

/-!
# Routes

A route is a way along links from one node to another, with a choice at every duplicate node on it
which of the copies to follow. An object takes the route if the nodes on it let it pass; its name
grows by a mark at each node where a copy is followed. Merge nodes keep one token of each name, so
behind a merge node only the rest of a route tells tokens apart.

## Main definitions

* `Route`, `Route.Runs`, `Route.Delivers`: routes, those that objects can take, and those on which
  they reach the scene.
* `Route.AvoidsTerminals`: a route passes no terminal before its end.
* `Route.object`: the name of the object that takes a route.
* `Route.tail`: a route from its last merge node on.
* `Route.token?`: what becomes of a token that takes a route alone.

## Main results

* `Node.carry_spec`: the name, the drawable node and the marks of a copy that leaves a node.
* `Node.exists_carry`: a node lets every token pass that it admits, with all copies.
-/

namespace SceneFlow

/-! ### Nodes that treat tokens one by one -/

/-- A name with one more mark. -/
def NodeId.marked (id : NodeId) (mark : CopyMark) : NodeId :=
  ⟨id.text ++ mark.text⟩

/-- The name of a copy with a number; number zero is the object itself. -/
def NodeId.copied (id node : NodeId) (number : Nat) : NodeId :=
  if number = 0 then id else id.marked ⟨node, number⟩

theorem Token.name_copy (token : Token) (node : NodeId) (step : Vec2) (number : Nat) :
    (token.copy node step number).name = token.name.marked ⟨node, number⟩ := by
  simp [Token.name, Token.copy, NodeId.marked]

theorem NodeId.copied_injective {id other node : NodeId} {number : Nat}
    (h : id.copied node number = other.copied node number) : id = other := by
  rw [copied, copied] at h
  split at h
  · exact h
  · exact congrArg NodeId.mk ((String.append_left_inj _).mp (NodeId.mk.inj h))

/-- How many copies of a token leave a node besides the token. -/
def NodeKind.copies : NodeKind → Nat
  | .duplicate data => data.count.toNat
  | _ => 0

theorem NodeKind.copies_of_isMerge {kind : NodeKind} (h : kind.isMerge = true) :
    kind.copies = 0 := by
  obtain ⟨_, rfl⟩ := exists_of_isMerge h
  rfl

namespace Node

/-- A node makes one token of a token at most, but for the copies of a duplicate node. -/
theorem length_carry_le (node : Node) (resolver : Resolver) (token : Token) :
    (node.carry resolver token).length ≤ node.kind.copies + 1 := by
  rw [carry]
  cases node.kind with
  | filter _ =>
    dsimp only
    split <;> simp
  | insert data =>
    dsimp only
    cases data.mode <;> simp
  | animation data =>
    dsimp only
    cases (data.animate resolver node.id token).1 <;> simp
  | duplicate _ => simp [Token.duplicate, NodeKind.copies]
  | _ => simp

variable {node : Node} {resolver : Resolver} {token result : Token}

/-- A node makes something only of what it admits. -/
theorem admits_of_mem_carry (h : result ∈ node.carry resolver token) :
    node.kind.admits token.origin = true := by
  rw [carry] at h
  cases hkind : node.kind with
  | filter data =>
    rw [hkind] at h
    by_contra hadmits
    simp [show data.admits token.origin = false by simpa [NodeKind.admits] using hadmits] at h
  | insert data =>
    cases hmode : data.mode with
    | never => simp [hkind, hmode] at h
    | always => simp [NodeKind.admits, hmode]
  | _ => rfl

/-- What leaves a node as the copy with a number. -/
theorem carry_spec {number : Nat} (h : (node.carry resolver token)[number]? = some result) :
    result.name = token.name.copied node.id number ∧ result.origin = token.origin ∧
      token.copies <+: result.copies ∧ node.kind.admits token.origin = true ∧
        number ≤ node.kind.copies := by
  have hmem := List.mem_of_getElem? h
  have hnumber : number ≤ node.kind.copies := by
    have hlt := (List.getElem?_eq_some_iff.mp h).1
    have hle := node.length_carry_le resolver token
    omega
  suffices hspec : result.name = token.name.copied node.id number ∧
      result.origin = token.origin ∧ token.copies <+: result.copies from
    ⟨hspec.1, hspec.2.1, hspec.2.2, admits_of_mem_carry hmem, hnumber⟩
  cases hkind : node.kind with
  | duplicate data =>
    rw [carry, hkind] at h
    dsimp only [Token.duplicate] at h
    cases number with
    | zero =>
      obtain rfl : token = result := by simpa using h
      exact ⟨rfl, rfl, List.prefix_rfl⟩
    | succ number =>
      obtain ⟨-, rfl⟩ : number < data.count.toNat ∧
          token.copy node.id data.offset (number + 1) = result := by
        simpa [List.getElem?_eq_some_iff] using h
      exact ⟨token.name_copy node.id data.offset (number + 1), rfl, List.prefix_append _ _⟩
  | _ =>
    -- Of the other nodes there are no copies, and what leaves them keeps its name.
    obtain rfl : number = 0 := by simpa [hkind, NodeKind.copies] using hnumber
    cases carries_of_mem_carry hmem with
    | pass | insert | restyle => exact ⟨rfl, rfl, List.prefix_rfl⟩
    | animate data _ hanimate =>
      obtain ⟨rendered, -, rfl⟩ := Animation.animate_fst_eq_some_iff.mp hanimate
      exact ⟨rfl, rfl, List.prefix_rfl⟩
    | copy data hcopy => simp [hkind] at hcopy

/-- A node lets every token pass that it admits, with all copies, if nothing stops it. -/
theorem exists_carry {node : Node} {settings : FlowSettings} {created number : Nat}
    {tokens : List Token} {token : Token} (hdrawable : node.kind.isDrawable = false)
    (hvalue : node.kind.isValue = false) (hfree : node.Unhindered settings created tokens)
    (htoken : token ∈ tokens) (hadmits : node.kind.admits token.origin = true)
    (hnumber : number ≤ node.kind.copies) :
    ∃ result, (node.carry settings.resolver token)[number]? = some result := by
  rw [carry]
  rw [Unhindered] at hfree
  cases hkind : node.kind with
  | duplicate data =>
    rw [hkind] at hnumber
    refine ⟨_, List.getElem?_eq_getElem ?_⟩
    simpa [Token.duplicate, Nat.lt_succ_iff, NodeKind.copies] using hnumber
  | animation data =>
    rw [hkind] at hnumber hfree
    obtain rfl : number = 0 := Nat.le_zero.mp hnumber
    obtain ⟨result, hresult⟩ := Option.isSome_iff_exists.mp (hfree token htoken)
    exact ⟨result, by simp [hresult]⟩
  | filter data =>
    rw [hkind] at hnumber hadmits
    obtain rfl : number = 0 := Nat.le_zero.mp hnumber
    exact ⟨token, by simp [show data.admits token.origin = true from hadmits]⟩
  | insert data =>
    rw [hkind] at hnumber hadmits
    obtain rfl : number = 0 := Nat.le_zero.mp hnumber
    cases hmode : data.mode with
    | never => simp [NodeKind.admits, hmode] at hadmits
    | always => exact ⟨token.insert data.delay, by simp [hmode]⟩
  | merge _ | terminal _ _ =>
    rw [hkind] at hnumber
    obtain rfl : number = 0 := Nat.le_zero.mp hnumber
    exact ⟨token, rfl⟩
  | textStyle data =>
    rw [hkind] at hnumber
    obtain rfl : number = 0 := Nat.le_zero.mp hnumber
    exact ⟨token.restyle data.style, rfl⟩
  | unknown type =>
    rw [hkind] at hfree
    rw [show tokens = [] from hfree] at htoken
    exact absurd htoken List.not_mem_nil
  | geometry _ => simp [hkind, NodeKind.isDrawable] at hdrawable
  | constant _ | result _ | comparison _ | logic _ | math _ =>
    simp [hkind, NodeKind.isValue] at hvalue

end Node

/-! ### Routes -/

/-- The link at a place. -/
def Network.link (net : Network) (place : Fin net.links.length) : Link net.size :=
  net.links[place]

/-- A way from a node along links, each with the number of the copy that is followed from the node
that the link enters. -/
inductive Route (net : Network) where
  /-- The route that has not left its first node. -/
  | start (v : Fin net.size)
  /-- A route along one more link. -/
  | step (before : Route net) (link : Fin net.links.length) (number : Nat)
deriving DecidableEq

namespace Route

variable {net : Network}

/-- The node where a route starts. -/
def first : Route net → Fin net.size
  | start v => v
  | step before _ _ => before.first

/-- The node where a route ends. -/
def last : Route net → Fin net.size
  | start v => v
  | step _ link _ => (net.link link).target

/-- The name of the object that takes a route. -/
def object : Route net → NodeId
  | start v => net.id v
  | step before link number => before.object.copied (net.id (net.link link).target) number

/-- Objects can take a route: it starts at a drawable node, follows links that carry objects, and
every node on it lets the object pass and makes the copy that is followed. -/
def Runs : Route net → Prop
  | start v => (net.node v).kind.isDrawable = true
  | step before link number =>
    before.Runs ∧ (net.link link).source = before.last ∧
      net.carriesObjects (net.link link) = true ∧
      (net.node (net.link link).target).kind.admits (net.id before.first) = true ∧
      number ≤ (net.node (net.link link).target).kind.copies

/-- Objects that take a route reach the scene. -/
def Delivers (route : Route net) : Prop :=
  route.Runs ∧ (net.node route.last).kind.isTerminal = true

/-- No link of a route leads on from a terminal. -/
def AvoidsTerminals : Route net → Prop
  | start _ => True
  | step before link _ =>
    before.AvoidsTerminals ∧ (net.node (net.link link).source).kind.isTerminal = false

/-- A route from its last merge node on, or as a whole if there is none on it. -/
def tail : Route net → Route net
  | start v => start v
  | step before link number =>
    if (net.node (net.link link).target).kind.isMerge then start (net.link link).target
    else step before.tail link number

/-- What becomes of a token that takes a route alone. -/
def token? (resolver : Resolver) : Route net → Option Token
  | start v =>
    match (net.node v).kind with
    | .geometry data => some (.seed (net.id v) data)
    | _ => none
  | step before link number => do
    let token ← before.token? resolver
    ((net.node (net.link link).target).carry resolver token)[number]?

@[simp]
theorem last_tail (route : Route net) : route.tail.last = route.last := by
  cases route with
  | start v => rfl
  | step before link number =>
    rw [tail]
    split <;> rfl

/-- A route without merge nodes on it is its own tail. -/
theorem tail_eq_self (h : ∀ v, (net.node v).kind.isMerge = false) (route : Route net) :
    route.tail = route := by
  induction route with
  | start v => rfl
  | step before link number ih => rw [tail, h, ih, if_neg (by simp)]

instance decidableRuns : (route : Route net) → Decidable route.Runs
  | start _ => inferInstanceAs (Decidable (_ = true))
  | step before _ _ =>
    have := decidableRuns before
    inferInstanceAs (Decidable (_ ∧ _ ∧ _ ∧ _ ∧ _))

instance (route : Route net) : Decidable route.Delivers :=
  inferInstanceAs (Decidable (_ ∧ _))

instance decidableAvoidsTerminals : (route : Route net) → Decidable route.AvoidsTerminals
  | start _ => inferInstanceAs (Decidable True)
  | step before _ _ =>
    have := decidableAvoidsTerminals before
    inferInstanceAs (Decidable (_ ∧ _))

end Route

end SceneFlow
