import Workflow.Error
import Workflow.OneOrMany

/-!
# Gateways

A gateway keeps one token for every edge that leads into it and one for every edge that leads out.
An incoming token is taken when a branch arrives along its edge; an outgoing token is taken when its
edge has been chosen.  The join asks whether enough branches have arrived, and the split names the
edges along which the flow goes on.

An exclusive gateway waits for one arrival and goes on along one chosen edge.  An inclusive gateway
waits for every arrival and goes on along all chosen edges.  A parallel gateway waits for every
arrival and goes on along every edge.  A complex gateway does not wait and goes on along all chosen
edges.  A bare outgoing edge needs no choice.
-/

namespace Workflow

/-- References to edges, bare or as a list. -/
abbrev EdgeRefs := OneOrMany String

/-- The four kinds of gateways. -/
inductive GatewayKind where
  | exclusive
  | inclusive
  | parallel
  | complex
  deriving DecidableEq, Repr

namespace GatewayKind

/-- Every kind of gateway. -/
def all : List GatewayKind := [exclusive, inclusive, parallel, complex]

/-- The name of a kind, as records spell it. -/
def name : GatewayKind → String
  | exclusive => "Exclusive"
  | inclusive => "Inclusive"
  | parallel => "Parallel"
  | complex => "Complex"

end GatewayKind

/-- The mark of one edge at a gateway. -/
structure Token where
  /-- The edge. -/
  edge : String
  /-- Whether the edge has been travelled or chosen. -/
  taken : Bool
  deriving DecidableEq, Repr

namespace Token

/-- The token of an edge that has not been taken. -/
def fresh (edge : String) : Token := ⟨edge, false⟩

/-- The token, taken. -/
def take (t : Token) : Token := { t with taken := true }

/-- The token, not taken. -/
def release (t : Token) : Token := { t with taken := false }

end Token

/-- The tokens of one side of a gateway, in the spelling of its edges. -/
abbrev Tokens := OneOrMany Token

namespace Tokens

/-- The untaken tokens of the edges of one side. -/
def ofRefs (refs : Option EdgeRefs) : Option Tokens := refs.map (·.map Token.fresh)

/-- Whether some token is taken. -/
def anyTaken (ts : Option Tokens) : Bool :=
  match ts with
  | none => false
  | some ts => ts.toList.any (·.taken)

/-- Whether there are tokens and all are taken. -/
def allTaken (ts : Option Tokens) : Bool :=
  match ts with
  | none => false
  | some ts => ts.toList.all (·.taken)

/-- Whether exactly one token is taken. -/
def oneTaken (ts : Option Tokens) : Bool :=
  match ts with
  | none => false
  | some ts => (ts.toList.filter (·.taken)).length == 1

/-- Whether there is no list of tokens: a bare one, or none. -/
def isSingle (ts : Option Tokens) : Bool :=
  match ts with
  | none => true
  | some ts => !ts.isMany

/-- Whether the tokens stand for these edges, in the same spelling and order. -/
def matchRefs (ts : Option Tokens) (refs : Option EdgeRefs) : Bool :=
  match ts, refs with
  | none, none => true
  | some ts, some refs => ts.map Token.edge == refs
  | _, _ => false

end Tokens

/-- What a gateway has beyond other activities. -/
structure Gateway where
  /-- The kind, which decides how arrivals are joined and choices split. -/
  kind : GatewayKind
  /-- One token for each edge that leads in. -/
  incoming : Option Tokens
  /-- One token for each edge that leads out. -/
  outgoing : Option Tokens
  deriving DecidableEq, Repr

namespace Gateway

/-- A gateway of a kind at which nothing has arrived and nothing is chosen. -/
def ofRefs (kind : GatewayKind) (incoming outgoing : Option EdgeRefs) : Gateway :=
  ⟨kind, Tokens.ofRefs incoming, Tokens.ofRefs outgoing⟩

/-- Whether the tokens on both sides stand for these edges. -/
def matchRefs (g : Gateway) (incoming outgoing : Option EdgeRefs) : Bool :=
  Tokens.matchRefs g.incoming incoming && Tokens.matchRefs g.outgoing outgoing

/-- Whether enough branches have arrived for the flow to go on. -/
def joinSatisfied (g : Gateway) : Bool :=
  match g.kind with
  | .exclusive => Tokens.anyTaken g.incoming
  | .inclusive | .parallel => Tokens.allTaken g.incoming
  | .complex => true

/-- The edges along which the flow goes on. -/
def splitEdges (g : Gateway) : List String :=
  match g.outgoing with
  | none => []
  | some out =>
    match g.kind, out with
    | .parallel, out => out.toList.map Token.edge
    | _, .one t => [t.edge]
    | .exclusive, .many ts => ((ts.find? (·.taken)).map Token.edge).toList
    | _, .many ts => (ts.filter (·.taken)).map Token.edge

/-- The gateway after its split: a bare outgoing edge counts as chosen, except where every edge is
taken anyway. -/
def afterSplit (g : Gateway) : Gateway :=
  match g.kind, g.outgoing with
  | .parallel, _ => g
  | _, some (.one t) => { g with outgoing := some (.one t.take) }
  | _, _ => g

/-- The edges along which the flow goes on and the gateway after that, absent while the join
waits. -/
def routes? (g : Gateway) : Option (List String × Gateway) :=
  if g.joinSatisfied then some (g.splitEdges, g.afterSplit) else none

/-- The gateway with no outgoing edge chosen. -/
def refreshOutgoing (g : Gateway) : Gateway :=
  { g with outgoing := g.outgoing.map (·.map Token.release) }

/-- Whether some incoming token is accepted. -/
def acceptsIncoming (g : Gateway) (accepts : Token → Bool) : Bool :=
  match g.incoming with
  | none => false
  | some ts => ts.toList.any accepts

/-- The gateway with the first accepted incoming token taken. -/
def takeIncoming (g : Gateway) (accepts : Token → Bool) : Gateway :=
  { g with incoming := g.incoming.map (·.updateFirst accepts Token.take) }

/-- The gateway with the first outgoing token taken whose edge is among `refs`. -/
def chooseAmong (g : Gateway) (refs : EdgeRefs) : Gateway :=
  { g with outgoing := g.outgoing.map (·.updateFirst (fun t => refs.contains t.edge) Token.take) }

/-- The gateway with the edge chosen that leads into a target.  The target is given by the edges
that lead into it, and is absent when the process has no such activity; `key` is what it was looked
up by.  When no outgoing edge leads into the target, nothing is chosen and nothing is refused. -/
def takeOutgoing (g : Gateway) (operation : Operation) (key : String)
    (target : Option (Option EdgeRefs)) : Except Error Gateway :=
  match g.kind, target with
  | .parallel, _ => .error (.selectiveOutgoingUnsupported operation key)
  | _, none => .error (.outgoingTargetNotFound operation key)
  | _, some none => .ok g
  | _, some (some refs) => .ok (g.chooseAmong refs)

/-- Whether the default policy finishes the gateway or pauses it.  It never decides for a complex
one; `id` is the gateway's. -/
def defaultCompletes (g : Gateway) (id : String) : Except Error Bool :=
  match g.kind with
  | .complex => .error (.complexForward id)
  | .exclusive =>
    .ok ((Tokens.anyTaken g.incoming && Tokens.oneTaken g.outgoing) || Tokens.isSingle g.outgoing)
  | .inclusive =>
    .ok ((Tokens.allTaken g.incoming && Tokens.anyTaken g.outgoing) || Tokens.isSingle g.outgoing)
  | .parallel => .ok (Tokens.allTaken g.incoming)

end Gateway

end Workflow
