import Workflow.Proofs.Activity.Untimed
import Workflow.Proofs.Document.Builder

/-!
# What following a route leaves of a built process

A target has as many arrivals as the route has edges into it, and each of them takes one token on
the route that was not taken.  In a process that was assembled with a builder an edge leads into one
node only and the node has one token for it, so the arrivals are enough to take every token on the
route.  What they leave (`Activity.Arrived`) then depends on which edges the route has, and not on
how often or in which order: an activity that was there before stays in its place, and one is made
for each other target, in the order in which the route comes to them (`Builder.advance_arrived`).
-/

namespace Workflow

namespace Activity

variable {a b : Activity} {route : List String}

/-- Whether an activity is what arrivals along all edges of a route make of another. -/
structure Arrived (route : List String) (a b : Activity) : Prop where
  /-- Nothing changes but where the activity stands and which tokens are taken. -/
  blank : b.blank = a.blank
  /-- Anything but a gateway is entered. -/
  status : b.gateway? = none → b.status = some .entered
  /-- The boundary event of a task is entered. -/
  boundary : ∀ e, b.boundary? = some e → e.lifecycle.status = some .entered
  /-- An incoming token is taken if it was before or if its edge is one of the route. -/
  tokens : List.Forall₂ (fun t t' => t'.edge = t.edge ∧
    (t'.taken = true ↔ t.taken = true ∨ t.edge ∈ route)) a.tokens b.tokens
  /-- Outgoing tokens stay as they are. -/
  outgoing : b.gateway?.map (·.outgoing) = a.gateway?.map (·.outgoing)
  /-- A gateway is entered if its join holds, and paused otherwise. -/
  join : ∀ w, b.gateway? = some w →
    b.status = some (if w.joinSatisfied then .entered else .paused)

/-! ## Arrivals along all edges of a route -/

/-- What arrivals leave does not depend on the times. -/
theorem arrived_untimed : a.untimed.Arrived route b.untimed ↔ a.Arrived route b := by
  have hboundary : (∀ e, b.untimed.boundary? = some e → e.lifecycle.status = some .entered) ↔
      ∀ e, b.boundary? = some e → e.lifecycle.status = some .entered := by
    rw [boundary?_untimed]
    cases b.boundary? <;> simp [BoundaryEvent.untimed, Lifecycle.untimed]
  constructor
  · rintro ⟨hblank, hstatus, hevent, htokens, houtgoing, hjoin⟩
    simp only [blank_untimed, status_untimed, gateway?_untimed, tokens_untimed] at *
    exact ⟨hblank, hstatus, hboundary.mp hevent, htokens, houtgoing, hjoin⟩
  · rintro ⟨hblank, hstatus, hevent, htokens, houtgoing, hjoin⟩
    exact ⟨by simpa using hblank, by simpa using hstatus, hboundary.mpr hevent,
      by simpa using htokens, by simpa using houtgoing, by simpa using hjoin⟩

/-- Arrivals take all tokens of the route and let the join decide. -/
theorem arrived_receive (route : List String) (a : Activity) :
    a.Arrived route (a.receive route) where
  blank := by
    rw [receive, blank_judged, blank_mapGateway fun w => w.blank_arriveAll route]
  status := by
    cases hk : a.kind <;>
      simp [receive, judged, mapGateway, mapBoundary, putIn, gateway?, status, hk]
  boundary := by
    cases hk : a.kind <;> simp [receive, judged, mapGateway, mapBoundary, putIn, boundary?, hk]
  tokens := by
    rw [tokens_receive, List.forall₂_map_right_iff, List.forall₂_same]
    exact fun t _ => ⟨t.edge_arriveAll route, t.taken_arriveAll route⟩
  outgoing := by
    cases hk : a.kind <;>
      simp [receive, judged, mapGateway, mapBoundary, putIn, gateway?, hk, Gateway.arriveAll]
  join := by
    cases hk : a.kind <;>
      simp [receive, judged, mapGateway, mapBoundary, putIn, gateway?, status, hk]

/-- What arrivals leave, by what they leave but for the times. -/
theorem arrived_of_untimed (h : b.untimed = a.untimed.receive route) : a.Arrived route b := by
  rw [← arrived_untimed, h]
  exact arrived_receive route a.untimed

/-- Where no token was taken before, only those of the route are. -/
theorem taken_iff_of_blank (hblank : a.blank = a) (h : b.untimed = a.untimed.receive route)
    {t : Token} (ht : t ∈ b.tokens) : t.taken = true ↔ t.edge ∈ route := by
  rw [← tokens_untimed, h, tokens_receive, tokens_untimed] at ht
  obtain ⟨t', ht', rfl⟩ := List.mem_map.mp ht
  rw [Token.taken_arriveAll, Token.edge_arriveAll]
  exact or_iff_right (not_taken_of_blank hblank ht')

end Activity

/-- Activities are the same but for the times when they are so one by one. -/
theorem forall₂_untimed_iff {f : Activity → Activity} {as bs : List Activity} :
    List.Forall₂ (fun a b => b.untimed = f a) as bs ↔ bs.map (·.untimed) = as.map f := by
  rw [← List.forall₂_eq_eq_eq, List.forall₂_map_left_iff, List.forall₂_map_right_iff]
  exact ⟨List.Forall₂.flip, List.Forall₂.flip⟩

namespace Graph

/-! ## What a route leaves -/

/-- Whether the tokens of an activity are those of its definition, if it is a gateway. -/
def TokensMatch (g : Graph) (a : Activity) : Prop :=
  ∀ w, a.kind = .gateway w →
    ∃ d, g.activity? a.id = some d ∧ w.matchRefs d.incoming d.outgoing = true

/-- Whether no target of a route is a complex gateway, neither as it is live nor by its
definition. -/
def Accepts (g : Graph) (head : List Activity) (route : List String) : Prop :=
  ∀ a, a.id ∈ g.targetIds route → a ∈ head ∨ g.activity? a.id = some a → ¬ a.Refuses

/-- Whether activities are what a route leaves of those that were live, and others what it makes
anew. -/
structure Followed (g : Graph) (route : List String) (head after fresh : List Activity) : Prop where
  /-- The activities that were live keep their places. -/
  ids : after.map (·.id) = head.map (·.id)
  /-- What is a target has had its arrivals, and anything else is as it was. -/
  live : List.Forall₂ (fun a a' => if a.id ∈ g.targetIds route then a.Arrived route a' else a' = a)
    head after
  /-- One activity is made for each other target that is defined, in the order in which the route
  comes to them. -/
  made : fresh.map (·.id) = ((g.targetIds route).filter fun id =>
    (g.activity? id).isSome && !(head.map (·.id)).contains id).eraseDups
  /-- It is what the arrivals make of the definition, and only tokens on the route are taken. -/
  anew : ∀ a ∈ fresh, (∃ d, g.activity? a.id = some d ∧ d.Arrived route a) ∧
    ∀ t ∈ a.tokens, t.taken = true ↔ t.edge ∈ route

end Graph

namespace Builder

variable {b : Builder} {g : Graph} {head : List Activity} {route : List String}

/-- A route has enough edges into a gateway whose tokens match. -/
theorem length_untaken_le_of_match (compiled : b.build.compile = .ok g)
    (distinct : (b.flows.map (·.id)).Nodup) {a : Activity} (h : g.TokensMatch a)
    (route : List String) :
    (a.tokens.filter fun t => !t.taken && route.contains t.edge).length ≤
      (g.targetIds route).count a.id := by
  cases hk : a.gateway? with
  | none => rw [Activity.tokens_of_not_gateway hk]; exact Nat.zero_le _
  | some w =>
    have hw := Activity.kind_of_gateway? hk
    obtain ⟨d, hd, hmatch⟩ := h w hw
    obtain ⟨n, -, hid, rfl⟩ := exists_node_of_activity? compiled hd
    have hincoming := (Bool.and_eq_true_iff.mp hmatch).1
    have hedges : a.tokens.map Token.edge = (b.flows.filter (·.target == a.id)).map (·.id) := by
      rw [Activity.tokens_of_gateway hw, Tokens.edges_of_matchRefs hincoming, ← hid]
      exact records_incomingOf n.id
    exact length_untaken_le_of_edges distinct compiled hedges route

/-- What a route leaves of the live activities, but for the times. -/
theorem untimed_live {after : List Activity}
    (h : List.Forall₂ (fun a a' => if a.id ∈ g.targetIds route then
      a'.untimed = a.untimed.receive route else a' = a) head after) :
    after.map (·.untimed) = head.map fun a =>
      if a.id ∈ g.targetIds route then a.untimed.receive route else a.untimed := by
  rw [← forall₂_untimed_iff]
  refine h.imp fun a a' ha => ?_
  split at ha
  · next ht => rw [if_pos ht, ha]
  · next ht => rw [if_neg ht, ha]

section Route

variable (compiled : b.build.compile = .ok g) (distinct : (b.flows.map (·.id)).Nodup)

include compiled distinct

/-- What a route leaves, but for the times: of a target what all arrivals along the route make of
it, and of anything else what it was. -/
theorem advance_untimed (unique : (head.map (·.id)).Nodup) (matched : ∀ a ∈ head, g.TokensMatch a)
    (accepts : g.Accepts head route) (now : Instant) :
    ∃ fresh, (g.advance route head now).fresh = .ok fresh ∧
      List.Forall₂ (fun a a' => if a.id ∈ g.targetIds route then
        a'.untimed = a.untimed.receive route else a' = a) head (g.advance route head now).head ∧
      List.Forall₂ (fun d a => a.untimed = d.untimed.receive route)
        (g.newcomers head (g.targetIds route)) fresh := by
  have hlive : ∀ a ∈ head, a.id ∈ g.targetIds route → ¬ a.Refuses :=
    fun a ha ht => accepts a ht (.inl ha)
  have hmade : ∀ target ∈ g.targetIds route, ∀ d, g.activity? target = some d → ¬ d.Refuses := by
    intro target ht d hd
    have hid := (Graph.activity?_some hd).2
    exact accepts d (hid ▸ ht) (.inr (hid ▸ hd))
  rw [Graph.advance_eq unique hlive hmade]
  refine ⟨_, rfl, ?_, ?_⟩
  · rw [List.forall₂_map_right_iff, List.forall₂_same]
    intro a ha
    split
    · next ht =>
      exact Activity.untimed_arrivals (hlive a ha ht) (List.count_pos_iff.mpr ht)
        (length_untaken_le_of_match compiled distinct (matched a ha) route)
    · next ht => rw [List.count_eq_zero_of_not_mem ht, Activity.arrivals_zero]
  · rw [List.forall₂_map_right_iff, List.forall₂_same]
    intro d hd
    obtain ⟨ht, -, hfound⟩ := Graph.mem_newcomers.mp hd
    have hid : (d.instantiate now).id = d.id := Activity.id_instantiate d now
    have hdefines : g.Defines (d.instantiate now) :=
      ((Document.wellFormed_of_compile compiled).defines hfound).of_blank (d.blank_instantiate now)
    have hok : ¬ (d.instantiate now).Refuses := by
      rw [← Activity.refuses_blank, Activity.blank_instantiate, Activity.refuses_blank]
      exact hmade d.id ht d hfound
    have henough := length_untaken_le distinct compiled hdefines route
    rw [hid] at henough
    rw [Activity.untimed_arrivals hok (List.count_pos_iff.mpr ht) henough,
      Activity.receive_instantiate]

/-- What a route leaves of a built process: the targets have had their arrivals, one activity is
made for each target that was not live, and nothing else changes.  Another route with the same
edges, in whichever order and however often, leaves the same statuses and tokens and makes the same
activities. -/
theorem advance_arrived (unique : (head.map (·.id)).Nodup) (matched : ∀ a ∈ head, g.TokensMatch a)
    (accepts : g.Accepts head route) (now : Instant) :
    ∃ fresh, (g.advance route head now).fresh = .ok fresh ∧
      g.Followed route head (g.advance route head now).head fresh ∧
      ∀ route' now', (∀ edge, edge ∈ route' ↔ edge ∈ route) →
        ∃ fresh', (g.advance route' head now').fresh = .ok fresh' ∧
          (g.advance route' head now').head.map (·.untimed) =
            (g.advance route head now).head.map (·.untimed) ∧
          (fresh'.map (·.untimed)).Perm (fresh.map (·.untimed)) := by
  obtain ⟨fresh, hok, hlive, hmade⟩ := advance_untimed compiled distinct unique matched accepts now
  refine ⟨fresh, hok, ⟨Graph.advance_head_ids head, ?_, ?_, ?_⟩, ?_⟩
  · refine hlive.imp fun a a' h => ?_
    split at h
    · next ht => rw [if_pos ht]; exact Activity.arrived_of_untimed h
    · next ht => rwa [if_neg ht]
  · rw [← Graph.ids_newcomers, ← List.forall₂_eq_eq_eq, List.forall₂_map_left_iff,
      List.forall₂_map_right_iff]
    exact hmade.flip.imp fun a d h => Activity.id_eq_of_blank (Activity.arrived_of_untimed h).blank
  · intro a ha
    have hmem : a.untimed ∈ fresh.map (·.untimed) := List.mem_map_of_mem ha
    rw [forall₂_untimed_iff.mp hmade] at hmem
    obtain ⟨d, hd, heq⟩ := List.mem_map.mp hmem
    have harrived := Activity.arrived_of_untimed heq.symm
    have hfound := (Graph.mem_newcomers.mp hd).2.2
    have hblank := (Document.wellFormed_of_compile compiled).blank_activity? hfound
    exact ⟨⟨d, Activity.id_eq_of_blank harrived.blank ▸ hfound, harrived⟩,
      fun t => Activity.taken_iff_of_blank hblank heq.symm⟩
  · intro route' now' same
    have accepts' : g.Accepts head route' := fun a ha =>
      accepts a ((Graph.mem_targetIds_congr same a.id).mp ha)
    obtain ⟨fresh', hok', hlive', hmade'⟩ :=
      advance_untimed compiled distinct unique matched accepts' now'
    refine ⟨fresh', hok', ?_, ?_⟩
    · rw [untimed_live hlive', untimed_live hlive]
      simp only [Activity.receive_congr same, Graph.mem_targetIds_congr same]
    · rw [forall₂_untimed_iff.mp hmade, forall₂_untimed_iff.mp hmade']
      simp only [Activity.receive_congr same]
      exact (Graph.newcomers_perm (Graph.mem_targetIds_congr same)).map _

end Route

end Builder

namespace Shortcut

/-- A process whose join is reached by way of a task and past it. -/
def process : Builder :=
  ({ id := "shortcut" } : Builder)
    |>.start "start" "Start" |>.finish "end" "End"
    |>.gateway .inclusive "fork" "Fork" |>.gateway .inclusive "join" "Join"
    |>.task .normal "left" "Left" |>.boundary "late" "left" (some .timer)
    |>.flow "f_start" "start" "fork" |>.flow "f_left" "fork" "left"
    |>.flow "f_skip" "fork" "join" |>.flow "f_join" "left" "join" |>.flow "f_end" "join" "end"

/-- The compiled process. -/
def graph : Graph :=
  process.build.compile.toOption.getD ⟨.define "" none none none (.event (.plain .start)), [], []⟩

/-- The instant of the arrivals. -/
def noon : Instant where
  year := 1970
  month := 1
  day := 1
  hour := 12
  minute := 0
  second := 0
  nano := 0
  civil := by decide

/-- The join, to which one branch has come past the task. -/
def waiting : Activity where
  id := "join"
  name := some "Join"
  incoming := some (.many ["f_skip", "f_join"])
  outgoing := some (.one "f_end")
  lane := none
  lifecycle := { status := some .paused }
  kind := .gateway
    ⟨.inclusive, some (.many [⟨"f_skip", true⟩, ⟨"f_join", false⟩]), some (.one ⟨"f_end", false⟩)⟩

/-- A route with an edge that is not there and one that is mentioned twice. -/
def route : List String := ["f_join", "f_lost", "f_left", "f_join"]

/-- The join is entered, as all branches have come, and the task is made anew. -/
theorem advance_arrived_waiting :
    (graph.advance route [waiting] noon).head.map (·.status) = [some .entered] ∧
      ∃ fresh, (graph.advance route [waiting] noon).fresh = .ok fresh ∧
        fresh.map (·.id) = ["left"] ∧
        graph.Followed route [waiting] (graph.advance route [waiting] noon).head fresh := by
  have matched : ∀ a ∈ [waiting], graph.TokensMatch a := by
    intro a ha w hw
    obtain rfl := List.mem_singleton.mp ha
    cases hw
    exact ⟨_, rfl, by decide⟩
  have accepts : graph.Accepts [waiting] route := by
    have hnone : ∀ a ∈ waiting :: graph.activities, ∀ w ∈ a.gateway?, w.kind ≠ .complex := by decide
    rintro a - hknown ⟨w, hw, hcomplex⟩
    have hmem : a ∈ waiting :: graph.activities := by
      rcases hknown with ha | ha
      · exact List.mem_cons.mpr (.inl (List.mem_singleton.mp ha))
      · exact List.mem_cons_of_mem _ (Graph.activity?_some ha).1
    exact hnone a hmem w (Activity.gateway?_of_kind hw) hcomplex
  obtain ⟨fresh, hok, hfollowed, -⟩ :=
    Builder.advance_arrived (b := process) rfl (by decide) (by decide) matched accepts noon
  refine ⟨by decide, fresh, hok, ?_, hfollowed⟩
  rw [hfollowed.made]
  decide

end Shortcut

end Workflow
