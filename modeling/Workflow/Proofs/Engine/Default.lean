import Workflow.Proofs.Engine.Declined
import Workflow.Proofs.Engine.Refusal

/-!
# What the default policy decides

Two layers decide what becomes of a gateway that has no handler of its own.  The default policy
finishes it or pauses it as its tokens say, and a gateway that was finished is paused all the same
while its join waits.  Together they let the flow go on just from a gateway that is decided
(`Gateway.Decided`): its join holds, and its edges leave no choice open.  Such a gateway is logged
and the flow goes on along some edge if it has any (`Round.Passes`); any other one is paused where
it stands and keeps its tokens (`Round.Rests`).

Whether a choice is open is asked of the spelling of the edges and not of their number.  One edge
that is listed is a choice like any other, which nobody may have made, and so a gateway with a
single edge may be left paused (`Crossing.not_forall_single_passes`).
-/

namespace Workflow

namespace Tokens

/-- When just one token of a side is taken. -/
theorem oneTaken_iff {ts : Option Tokens} :
    oneTaken ts = true ↔ ((Document.records ts).filter (·.taken)).length = 1 := by
  cases ts with
  | none => simp [oneTaken, Document.records]
  | some ts => simp [oneTaken, Document.records]

/-- When the tokens of a side are no list. -/
theorem isSingle_iff {ts : Option Tokens} :
    isSingle ts = true ↔ ∀ tokens, ts ≠ some (.many tokens) := by
  cases ts with
  | none => simp [isSingle]
  | some ts => cases ts <;> simp [isSingle, OneOrMany.isMany]

end Tokens

namespace Gateway

variable {w : Gateway} {t : Token}

/-- Whether a gateway needs no handler for the flow to go on from it. -/
structure Decided (w : Gateway) : Prop where
  /-- Enough branches have arrived. -/
  join : w.joinSatisfied = true
  /-- All edges are taken, or there is no list to choose from, or what is chosen is enough. -/
  choice : w.kind = .parallel ∨ (∀ tokens, w.outgoing ≠ some (.many tokens)) ∨
    (w.kind = .exclusive ∧ ((Document.records w.outgoing).filter (·.taken)).length = 1) ∨
    (w.kind = .inclusive ∧ ∃ t ∈ Document.records w.outgoing, t.taken = true)

/-- The default policy finishes a gateway that is decided, and any other one that it finishes is
held back by its join. -/
theorem defaultCompletes_ok (simple : w.kind ≠ .complex) (id : String) :
    ∃ completes, w.defaultCompletes id = .ok completes ∧
      (w.Decided ↔ completes = true ∧ w.joinSatisfied = true) := by
  have hdecided : w.Decided ↔ _ ∧ _ := ⟨fun h => ⟨h.choice, h.join⟩, fun h => ⟨h.2, h.1⟩⟩
  cases hk : w.kind with
  | complex => exact absurd hk simple
  | parallel =>
    have hcompletes : w.defaultCompletes id = .ok w.joinSatisfied := by
      simp only [defaultCompletes, joinSatisfied, hk]
    exact ⟨_, hcompletes, by rw [hdecided, hk]; simp⟩
  | exclusive =>
    have hcompletes : w.defaultCompletes id = .ok
        ((w.joinSatisfied && Tokens.oneTaken w.outgoing) || Tokens.isSingle w.outgoing) := by
      simp only [defaultCompletes, joinSatisfied, hk]
    refine ⟨_, hcompletes, ?_⟩
    rw [hdecided, hk, Bool.or_eq_true, Bool.and_eq_true, Tokens.oneTaken_iff, Tokens.isSingle_iff]
    simp only [reduceCtorEq, true_and, false_and, false_or, or_false]
    refine and_congr_left fun hjoin => ?_
    rw [and_iff_right hjoin, or_comm]
  | inclusive =>
    have hcompletes : w.defaultCompletes id = .ok
        ((w.joinSatisfied && Tokens.anyTaken w.outgoing) || Tokens.isSingle w.outgoing) := by
      simp only [defaultCompletes, joinSatisfied, hk]
    refine ⟨_, hcompletes, ?_⟩
    rw [hdecided, hk, Bool.or_eq_true, Bool.and_eq_true, Tokens.anyTaken_iff, Tokens.isSingle_iff]
    simp only [reduceCtorEq, true_and, false_and, false_or]
    refine and_congr_left fun hjoin => ?_
    rw [and_iff_right hjoin, or_comm]

/-- A parallel gateway goes on along all its edges. -/
theorem splitEdges_parallel (h : w.kind = .parallel) :
    w.splitEdges = (Document.records w.outgoing).map Token.edge := by
  unfold splitEdges
  rw [h]
  cases w.outgoing <;> rfl

/-- From a gateway that is decided the flow goes on along some edge, if there is any. -/
theorem Decided.splitEdges_ne_nil (h : w.Decided) (edges : Document.records w.outgoing ≠ []) :
    w.splitEdges ≠ [] := by
  by_cases hparallel : w.kind = .parallel
  · rw [splitEdges_parallel hparallel]
    simpa using edges
  · unfold splitEdges
    cases hout : w.outgoing with
    | none => simp [hout, Document.records] at edges
    | some out =>
      cases out with
      | one t => cases w.kind <;> simp
      | many ts =>
        -- Some token of the list is taken, whichever the kind.
        obtain ⟨t, ht, htaken⟩ : ∃ t ∈ ts, t.taken = true := by
          rcases h.choice with hp | hlist | ⟨-, hone⟩ | ⟨-, t, ht, htaken⟩
          · exact absurd hp hparallel
          · exact absurd hout (hlist ts)
          · rw [hout] at hone
            obtain ⟨t, ht⟩ := List.exists_mem_of_length_pos (hone ▸ Nat.one_pos)
            obtain ⟨ht, htaken⟩ := List.mem_filter.mp ht
            exact ⟨t, ht, htaken⟩
          · rw [hout] at ht
            exact ⟨t, ht, htaken⟩
        have hfilter : t ∈ ts.filter (·.taken) := List.mem_filter.mpr ⟨ht, htaken⟩
        have hfind : ts.find? (·.taken) ≠ none := by
          intro hnone
          exact List.find?_eq_none.mp hnone t ht htaken
        obtain ⟨found, hfound⟩ := Option.ne_none_iff_exists'.mp hfind
        cases hk : w.kind with
        | parallel => exact absurd hk hparallel
        | exclusive => simp [hfound]
        | inclusive => simpa using List.ne_nil_of_mem hfilter
        | complex => simpa using List.ne_nil_of_mem hfilter

/-- A single edge leaves a choice open just where it is listed and not taken. -/
theorem decided_of_single (join : w.joinSatisfied = true)
    (chooses : w.kind = .exclusive ∨ w.kind = .inclusive)
    (single : Document.records w.outgoing = [t]) :
    w.Decided ↔ ¬ (w.outgoing = some (.many [t]) ∧ t.taken = false) := by
  have hshape : w.outgoing = some (.one t) ∨ w.outgoing = some (.many [t]) := by
    cases hout : w.outgoing with
    | none => simp [hout, Document.records] at single
    | some out => cases out <;> simpa [hout, Document.records] using single
  constructor
  · rintro ⟨-, hchoice⟩ ⟨hlist, huntaken⟩
    rcases hchoice with hp | hnot | ⟨-, hone⟩ | ⟨-, t', ht', htaken⟩
    · rcases chooses with hk | hk <;> rw [hk] at hp <;> cases hp
    · exact hnot [t] hlist
    · simp [single, huntaken] at hone
    · rw [single, List.mem_singleton] at ht'
      rw [ht', huntaken] at htaken
      cases htaken
  · intro hnot
    refine ⟨join, ?_⟩
    rcases hshape with hbare | hlist
    · exact .inr (.inl fun tokens h => by rw [hbare] at h; cases h)
    · have htaken : t.taken = true := by
        by_contra huntaken
        exact hnot ⟨hlist, by simpa using huntaken⟩
      rcases chooses with hk | hk
      · exact .inr (.inr (.inl ⟨hk, by simp [single, htaken]⟩))
      · exact .inr (.inr (.inr ⟨hk, t, by rw [single]; exact List.mem_singleton_self t, htaken⟩))

/-- A gateway that is decided goes on along its single edge. -/
theorem Decided.splitEdges_of_single (h : w.Decided)
    (single : Document.records w.outgoing = [t]) : w.splitEdges = [t.edge] := by
  have hne : w.splitEdges ≠ [] := h.splitEdges_ne_nil (by rw [single]; exact List.cons_ne_nil _ _)
  have hsubset : ∀ edge ∈ w.splitEdges, edge = t.edge := by
    intro edge hedge
    simpa [single] using w.splitEdges_subset edge hedge
  have hlength : w.splitEdges.length ≤ 1 := by
    have hsublist := w.splitEdges_sublist.length_le
    rwa [single] at hsublist
  obtain ⟨edge, hedge⟩ : ∃ edge, w.splitEdges = [edge] :=
    List.length_eq_one_iff.mp (Nat.le_antisymm hlength (List.length_pos_of_ne_nil hne))
  rw [hedge, hsubset edge (hedge ▸ List.mem_singleton_self edge)]

end Gateway

/-! ## Rounds with the default policy -/

/-- The default policy finishes a gateway or pauses it, as it decides, and does nothing else. -/
theorem Handler.run_default {σ : Type} {st : Step} {w : Gateway}
    (hw : st.activity.kind = .gateway w) {completes : Bool}
    (h : w.defaultCompletes st.activity.id = .ok completes) (payload : Json) (memory : σ) :
    ((Handler.default : Handler σ) st payload memory).run st = ((memory, .ok payload),
      { st with
        activity := st.activity.set (if completes then .finished else .paused) st.now }) := by
  cases completes <;> simp only [Handler.default, defaultPolicy, hw, h] <;> rfl

namespace Round

variable {σ : Type} {g : Graph} {now : Instant} {w : Gateway}

/-- Whether a round leaves its activity logged as finished and followed along a route, so that the
flow has come to the targets of the route unless one of them refuses; `x` is what is logged. -/
structure Passes (r : Round σ) (g : Graph) (now : Instant) (route : List String) (x : Activity) :
    Prop where
  /-- It is the activity of the round. -/
  same : x.blank = r.activity.blank
  /-- It is finished. -/
  status : x.status = some .finished
  /-- It is logged, and the flow goes on along the route. -/
  history : (r.left now).engine.history = r.engine.history.onward g route x now
  /-- The targets are live, unless the route is refused. -/
  live : ∀ value, (r.left now).reply = .ok value → ∀ t ∈ g.targetIds route,
    (g.activity? t).isSome = true → t ∈ (r.left now).engine.history.head.map (·.id)

/-- Whether a round leaves its activity paused where it stood, with the payload as it was; `x` is
what stands there. -/
structure Rests (r : Round σ) (now : Instant) (x : Activity) : Prop where
  /-- Nothing of the activity has changed but the status and the times. -/
  same : x = { r.activity with lifecycle := x.lifecycle }
  /-- It is paused. -/
  status : x.status = some .paused
  /-- It stands where the activity stood, and nothing is logged. -/
  history : (r.left now).engine.history = r.engine.history.writeBack x
  /-- It is live. -/
  live : (r.left now).engine.history.headById? r.activity.id = some x
  /-- The payload is as it was. -/
  reply : (r.left now).reply = .ok r.invocation.payload

/-- Whether a round has logged its activity as finished. -/
def Logs (r : Round σ) (now : Instant) : Prop :=
  ∃ x, (r.left now).engine.history.stack = r.engine.history.stack ++ [x] ∧
    x.id = r.activity.id ∧ x.status = some .finished

variable {r : Round σ}

/-- A round whose flow goes on has logged its activity. -/
theorem Passes.logs {route : List String} {x : Activity} (h : r.Passes g now route x) :
    r.Logs now :=
  ⟨x, by rw [h.history]; rfl, Activity.id_eq_of_blank h.same, h.status⟩

/-- A round whose activity rests has not logged it. -/
theorem Rests.not_logs {x : Activity} (h : r.Rests now x) : ¬ r.Logs now := by
  rintro ⟨y, hstack, -⟩
  rw [h.history] at hstack
  have hnone : [y] = [] := List.self_eq_append_right.mp hstack
  cases hnone

/-- What the handler of a round with the default policy returns, and the step that it leaves. -/
theorem returns_default (g : Graph) (now : Instant)
    (hdefault : r.invocation.handler = .default) (hw : r.activity.kind = .gateway w)
    {completes : Bool} (h : w.defaultCompletes r.activity.id = .ok completes) :
    (r.invocation.handler (r.engine.opened g r.activity now) r.invocation.payload r.memory).run
        (r.engine.opened g r.activity now) =
      ((r.memory, .ok r.invocation.payload), r.step g now) ∧
    r.step g now = { r.engine.opened g r.activity now with
      activity := (r.activity.set .started now).set (if completes then .finished else .paused)
        now } := by
  have hkind : (r.engine.opened g r.activity now).activity.kind = .gateway w := hw
  have hrun := Handler.run_default hkind h r.invocation.payload r.memory
  unfold step Engine.worked
  rw [hdefault, hrun]
  exact ⟨rfl, rfl⟩

section Default

variable (mayRun : r.MayRun) (built : r.engine.graph = some g)
  (hdefault : r.invocation.handler = .default) (hw : r.activity.kind = .gateway w)
  (simple : w.kind ≠ .complex)

include mayRun built hdefault hw simple

/-- The default policy lets the flow go on from a gateway that is decided. -/
theorem passes_of_decided (decided : w.Decided) : ∃ x, r.Passes g now w.splitEdges x := by
  obtain ⟨completes, hcompletes, hiff⟩ := w.defaultCompletes_ok simple r.activity.id
  obtain ⟨rfl, hjoin⟩ := hiff.mp decided
  obtain ⟨hreturns, hstep⟩ := returns_default g now hdefault hw hcompletes
  let finished := (r.activity.set .started now).set .finished now
  let x : Activity := { finished with kind := .gateway w.afterSplit }
  have hroutes : r.Routes g now w.splitEdges x := by
    refine ⟨⟨r.memory, r.invocation.payload, hreturns⟩, ?_, ?_⟩
    · rw [hstep]
      exact Activity.status_set ..
    · have hkind : finished.kind = .gateway w := hw
      rw [hstep]
      show finished.routes? = some (w.splitEdges, x)
      simp only [Activity.routes?, hkind, Gateway.routes?, hjoin, if_true, Option.map_some, x]
  obtain ⟨hhistory, value, hreply⟩ := hroutes.left_onward mayRun built
  have hleave : (r.engine.leave (r.step g now)).history = r.engine.history.writeBack finished := by
    rw [hstep]
    rfl
  refine ⟨x, ?_, Activity.status_set .., ?_, fun value' hok t htarget hdefined => ?_⟩
  · exact (Activity.blank_routes hroutes.routes).trans (r.blank_step g now)
  · rw [hhistory, hleave]
    exact r.engine.history.onward_writeBack g _ (a := x) (b := finished) rfl now
  · rw [hhistory]
    -- The round has not failed, so no target has refused.
    rw [hreply, Graph.Advance.refusal?] at hok
    split at hok
    · next fresh hfresh => exact History.mem_ids_onward_target hfresh htarget hdefined
    · cases hok

/-- The default policy leaves any other gateway paused where it stands. -/
theorem rests_of_not_decided (undecided : ¬ w.Decided) : ∃ x, r.Rests now x := by
  obtain ⟨completes, hcompletes, hiff⟩ := w.defaultCompletes_ok simple r.activity.id
  obtain ⟨hreturns, hstep⟩ := returns_default g now hdefault hw hcompletes
  obtain ⟨graph, hrun⟩ := mayRun
  obtain ⟨hgraph, hfound, -⟩ := Engine.toRun_ok_iff.mp hrun
  obtain rfl : graph = g := Option.some.inj (hgraph.symm.trans built)
  -- Either the policy pauses the gateway or its join does, when the policy has finished it.
  obtain ⟨x, hsame, hstatus, hengine⟩ : ∃ x : Activity,
      x = { r.activity with lifecycle := x.lifecycle } ∧ x.status = some .paused ∧
      (r.engine.leave (r.step graph now)).conclude graph (r.step graph now).activity now =
        ({ r.engine with history := r.engine.history.writeBack x }.finishIfDone now, none) := by
    rw [hstep]
    cases completes with
    | false =>
      exact ⟨(r.activity.set .started now).set .paused now, rfl, Activity.status_set ..,
        Engine.conclude_paused _ graph now (Activity.status_set ..)⟩
    | true =>
      have hjoin : w.joinSatisfied = false := by simpa [undecided] using hiff
      let finished := (r.activity.set .started now).set .finished now
      have hkind : finished.kind = .gateway w := hw
      have hwaits : finished.routes? = none := by
        simp [Activity.routes?, hkind, Gateway.routes?, hjoin]
      have hconclude := Engine.conclude_waiting (a := finished)
        { r.engine with history := r.engine.history.writeBack finished } graph now
        (Activity.status_set ..) hwaits
      have htwice : (r.engine.history.writeBack finished).writeBack (finished.set .paused now) =
          r.engine.history.writeBack (finished.set .paused now) :=
        r.engine.history.writeBack_writeBack rfl
      rw [htwice] at hconclude
      exact ⟨finished.set .paused now, rfl, Activity.status_set .., hconclude⟩
  have hid : x.id = r.activity.id := by rw [hsame]
  have hleft : (r.left now).engine.history = r.engine.history.writeBack x ∧
      (r.left now).reply = .ok r.invocation.payload := by
    rw [left, Engine.dispatch_eq hrun hreturns]
    simp only [Engine.ended, hengine, Engine.history_finishIfDone]
    exact ⟨trivial, rfl⟩
  refine ⟨x, hsame, hstatus, hleft.1, ?_, hleft.2⟩
  rw [hleft.1, ← hid]
  exact History.headById?_writeBack_self (hid ▸ History.mem_ids_of_headById? hfound)

end Default

end Round

/-! ## Calls -/

namespace Engine

variable {σ : Type} {g : Graph} {e : Engine σ} {payload : Json} {memory : σ} {o : Occasion}

/-- What a started engine executes first is the entered activity that it was asked for. -/
theorem first_of_execute (built : e.graph = some g) (state : e.state = .started) {id : String}
    {a : Activity} (found : e.history.headById? id = some a) (entered : a.isEntered = true)
    {handler : Handler σ} {rounds : List (Round σ)}
    (comprises : (e.turn (.execute id handler) payload memory o).Comprises o.now e payload memory
      rounds)
    (governs : Errand.Governs e.table o.now (.execute id handler) rounds) :
    ∃ later, rounds = ⟨e, memory, ⟨a, .given, handler, payload⟩⟩ :: later := by
  have hrun : e.toRun id = .ok (g, a) := toRun_ok_iff.mpr ⟨built, found, entered⟩
  have hcalls := invocations_runWith state hrun .given handler payload memory o
  obtain ⟨hinvocations, hplays⟩ := comprises
  cases rounds with
  | nil => exact absurd hinvocations hcalls
  | cons first later =>
    obtain ⟨⟨hid, horigin, hhandler⟩, -⟩ := governs
    obtain ⟨rfl, rfl, rfl, graph, hfirst⟩ := hplays.first
    rw [hid, hrun] at hfirst
    cases hfirst
    exact ⟨later, by rw [← horigin, ← hhandler]; rfl⟩

/-- What is run in a round may be run, and the tokens of a gateway are those of its edges. -/
theorem matchRefs_of_plays {turn : Turn σ} {now : Instant} {rounds : List (Round σ)}
    (plays : turn.Plays now e payload memory rounds) (agrees : e.Agrees) (built : e.graph = some g)
    {r : Round σ} (hr : r ∈ rounds) {w : Gateway} (hw : r.activity.kind = .gateway w) :
    r.MayRun ∧ r.engine.graph = some g ∧
      Tokens.matchRefs w.outgoing r.activity.outgoing = true := by
  obtain ⟨-, hrounds⟩ := frame_of_plays plays agrees
  obtain ⟨⟨graph, hrun⟩, hagrees, hgraph, -⟩ := hrounds r hr
  have hbuilt : r.engine.graph = some g := hgraph.trans built
  obtain ⟨hg, hhistory⟩ := hagrees.built g hbuilt
  have hlive := (History.headById?_some (toRun_ok_iff.mp hrun).2.1).1
  exact ⟨⟨graph, hrun⟩, hbuilt, (hg.matchRefs (hhistory.live _ hlive) hw).2⟩

/-- What the default policy leaves of a gateway that is not complex.  The gateway is logged as
finished just when its join holds and no choice is open.  Otherwise it is paused where it stands,
with its tokens as they were.  When it is logged and has edges, the flow goes on along some of them,
in their order: along all of them if it is parallel, and along one if it is exclusive; and unless a
target refuses, all targets are live then.  An engine that is started runs any entered gateway with
the default policy when it is asked to. -/
theorem Arises.default_outcome (arises : e.Arises) (built : e.graph = some g) (errand : Errand σ)
    (payload : Json) (memory : σ) (o : Occasion) :
    ∃ rounds, (e.turn errand payload memory o).Comprises o.now e payload memory rounds ∧
      (∀ id a, errand = .execute id .default → e.state = .started →
        e.history.headById? id = some a → a.isEntered = true →
        ∃ later, rounds = ⟨e, memory, ⟨a, .given, .default, payload⟩⟩ :: later) ∧
      ∀ r ∈ rounds, r.invocation.handler = .default → ∀ w, r.activity.kind = .gateway w →
        w.kind ≠ .complex →
        (r.Logs o.now ↔ w.Decided) ∧ (¬ w.Decided → ∃ x, r.Rests o.now x) ∧
        (w.Decided → ∃ route x, r.Passes g o.now route x ∧
          route.Sublist (Document.records r.activity.outgoing) ∧
          (Document.records r.activity.outgoing ≠ [] → route ≠ []) ∧
          (w.kind = .parallel → route = Document.records r.activity.outgoing) ∧
          (w.kind = .exclusive → Document.records r.activity.outgoing ≠ [] →
            ∃ edge, route = [edge])) := by
  obtain ⟨rounds, hcomprises, hgoverns, -⟩ := turn_rounds arises.agrees errand payload memory o
  refine ⟨rounds, hcomprises, ?_, fun r hr hdefault w hw simple => ?_⟩
  · rintro id a rfl state found entered
    exact first_of_execute built state found entered hcomprises hgoverns
  · obtain ⟨mayRun, hbuilt, hmatch⟩ :=
      matchRefs_of_plays hcomprises.plays arises.agrees built hr hw
    have hedges := Tokens.edges_of_matchRefs hmatch
    have hpasses : w.Decided → ∃ x, r.Passes g o.now w.splitEdges x :=
      Round.passes_of_decided mayRun hbuilt hdefault hw simple
    have hrests : ¬ w.Decided → ∃ x, r.Rests o.now x :=
      Round.rests_of_not_decided mayRun hbuilt hdefault hw simple
    refine ⟨⟨fun hlogs => ?_, fun hdecided => ?_⟩, hrests, fun hdecided => ?_⟩
    · by_contra hopen
      obtain ⟨x, hx⟩ := hrests hopen
      exact hx.not_logs hlogs
    · obtain ⟨x, hx⟩ := hpasses hdecided
      exact hx.logs
    · obtain ⟨x, hx⟩ := hpasses hdecided
      have hsome : Document.records r.activity.outgoing ≠ [] → w.splitEdges ≠ [] := by
        intro hne
        refine hdecided.splitEdges_ne_nil fun hnil => hne ?_
        rw [← hedges, hnil, List.map_nil]
      refine ⟨w.splitEdges, x, hx, hedges ▸ w.splitEdges_sublist, hsome, fun hparallel => ?_,
        fun hexclusive hne => ?_⟩
      · rw [← hedges]
        exact Gateway.splitEdges_parallel hparallel
      · have hone := Gateway.length_splitEdges_le hexclusive
        exact List.length_eq_one_iff.mp
          (Nat.le_antisymm hone (List.length_pos_of_ne_nil (hsome hne)))

/-- What the default policy leaves of a gateway with a single edge that chooses and whose join
holds.  Where the edge is listed and was not taken, the gateway is paused where it stands, with its
tokens as they were.  Otherwise it is logged as finished, and the flow goes on along the edge. -/
theorem Arises.single_outcome (arises : e.Arises) (built : e.graph = some g) (errand : Errand σ)
    (payload : Json) (memory : σ) (o : Occasion) :
    ∃ rounds, (e.turn errand payload memory o).Comprises o.now e payload memory rounds ∧
      (∀ id a, errand = .execute id .default → e.state = .started →
        e.history.headById? id = some a → a.isEntered = true →
        ∃ later, rounds = ⟨e, memory, ⟨a, .given, .default, payload⟩⟩ :: later) ∧
      ∀ r ∈ rounds, r.invocation.handler = .default → ∀ w edge, r.activity.kind = .gateway w →
        w.kind = .exclusive ∨ w.kind = .inclusive → w.joinSatisfied = true →
        Document.records r.activity.outgoing = [edge] →
        (w.outgoing = some (.many [⟨edge, false⟩]) →
          r.activity.outgoing = some (.many [edge]) ∧ ∃ x, r.Rests o.now x) ∧
        (w.outgoing ≠ some (.many [⟨edge, false⟩]) → ∃ x, r.Passes g o.now [edge] x) := by
  obtain ⟨rounds, hcomprises, hgoverns, -⟩ := turn_rounds arises.agrees errand payload memory o
  refine ⟨rounds, hcomprises, ?_, fun r hr hdefault w edge hw chooses join single => ?_⟩
  · rintro id a rfl state found entered
    exact first_of_execute built state found entered hcomprises hgoverns
  · obtain ⟨mayRun, hbuilt, hmatch⟩ :=
      matchRefs_of_plays hcomprises.plays arises.agrees built hr hw
    have simple : w.kind ≠ .complex := by rcases chooses with h | h <;> rw [h] <;> decide
    have hedges := Tokens.edges_of_matchRefs hmatch
    obtain ⟨t, hrecords, rfl⟩ := List.map_eq_singleton_iff.mp (hedges.trans single)
    have hdecided := Gateway.decided_of_single join chooses hrecords
    constructor
    · intro hlist
      have ht : t = ⟨t.edge, false⟩ := by simpa [hlist, Document.records] using hrecords.symm
      have hopen : ¬ w.Decided := fun h =>
        hdecided.mp h ⟨by rw [hlist, ← ht], congrArg Token.taken ht⟩
      have hrefs := Tokens.map_edge_of_matchRefs hmatch
      rw [hlist] at hrefs
      exact ⟨hrefs.symm, Round.rests_of_not_decided mayRun hbuilt hdefault hw simple hopen⟩
    · intro hnot
      have hclosed : w.Decided := by
        refine hdecided.mpr ?_
        rintro ⟨hlist, huntaken⟩
        exact hnot (by rw [hlist, ← huntaken])
      obtain ⟨x, hx⟩ := Round.passes_of_decided mayRun hbuilt hdefault hw simple hclosed
      rw [hclosed.splitEdges_of_single hrecords] at hx
      exact ⟨x, hx⟩

end Engine

/-! ## A gateway that chooses among its edges -/

namespace Crossing

/-- A process whose exclusive gateway refers to its edges in a spelling. -/
def process (outgoing : EdgeRefs) : Document where
  id := "crossing"
  startEvent := some (.one { id := "start", name := some "Start", outgoing := some (.one "f_in") })
  endEvent := some (.many
    [{ id := "left", incoming := some (.one "f_left") },
      { id := "right", incoming := some (.one "f_right") }])
  exclusiveGateway := some (.one
    { id := "choice", name := some "Choice", incoming := some (.one "f_in"),
      outgoing := some outgoing })
  sequenceFlow := some (.many [⟨"f_in", "start", "choice"⟩, ⟨"f_left", "choice", "left"⟩,
    ⟨"f_right", "choice", "right"⟩])

/-- An engine for the process when it waits at the gateway. -/
def waiting (outgoing : EdgeRefs) : Engine Unit := .waitingFor (process outgoing) ["Choice"]

/-- The compiled process. -/
def graph (outgoing : EdgeRefs) : Graph := (waiting outgoing).compiled

/-- The call of the default policy for the gateway. -/
def turn (outgoing : EdgeRefs) : Turn Unit :=
  (waiting outgoing).turn (.execute "choice" .default) .null () ⟨.epoch, 9⟩

/-- Between two edges the choice is open and the gateway rests; a bare edge is no choice. -/
theorem default_outcome_crossing :
    (∃ r x later, (turn (.many ["f_left", "f_right"])).Comprises .epoch
        (waiting (.many ["f_left", "f_right"])) .null () (r :: later) ∧
      r.activity.id = "choice" ∧ r.Rests .epoch x) ∧
    ∃ r x later, (turn (.one "f_left")).Comprises .epoch (waiting (.one "f_left")) .null ()
        (r :: later) ∧
      r.activity.id = "choice" ∧ r.Logs .epoch ∧
      r.Passes (graph (.one "f_left")) .epoch ["f_left"] x := by
  constructor
  · obtain ⟨rounds, hcomprises, hfirst, houtcome⟩ := Engine.Arises.default_outcome
      (e := waiting (.many ["f_left", "f_right"])) (Engine.arises_waitingFor ..) rfl
      (.execute "choice" .default) .null () ⟨.epoch, 9⟩
    obtain ⟨later, rfl⟩ := hfirst "choice" _ rfl rfl rfl rfl
    obtain ⟨-, hrests, -⟩ := houtcome _ (List.mem_cons_self ..) rfl _ rfl (by decide)
    obtain ⟨x, hx⟩ := hrests (by
      rintro ⟨-, hp | hlist | ⟨-, hone⟩ | ⟨hi, -⟩⟩
      · cases hp
      · exact hlist _ rfl
      · exact absurd hone (by decide)
      · cases hi)
    exact ⟨_, x, later, hcomprises, rfl, hx⟩
  · obtain ⟨rounds, hcomprises, hfirst, houtcome⟩ := Engine.Arises.default_outcome
      (e := waiting (.one "f_left")) (Engine.arises_waitingFor ..) rfl
      (.execute "choice" .default) .null () ⟨.epoch, 9⟩
    obtain ⟨later, rfl⟩ := hfirst "choice" _ rfl rfl rfl rfl
    obtain ⟨hlogs, -, hpasses⟩ := houtcome _ (List.mem_cons_self ..) rfl _ rfl (by decide)
    have hdecided : Gateway.Decided
        ⟨.exclusive, some (.one ⟨"f_in", true⟩), some (.one ⟨"f_left", false⟩)⟩ :=
      ⟨rfl, .inr (.inl fun tokens h => nomatch h)⟩
    obtain ⟨route, x, hx, hsublist, -, -, hone⟩ := hpasses hdecided
    obtain ⟨edge, rfl⟩ := hone rfl (by decide)
    have hedge : edge ∈ ["f_left"] := List.singleton_sublist.mp hsublist
    obtain rfl : edge = "f_left" := List.mem_singleton.mp hedge
    exact ⟨_, x, later, hcomprises, rfl, hlogs.mpr hdecided, hx⟩

/-- A single edge is followed when it is bare, and it is not when it is listed. -/
theorem single_outcome_crossing :
    (∃ r x later, (turn (.one "f_left")).Comprises .epoch (waiting (.one "f_left")) .null ()
        (r :: later) ∧
      r.activity.id = "choice" ∧ r.Passes (graph (.one "f_left")) .epoch ["f_left"] x) ∧
    ∃ r x later, (turn (.many ["f_left"])).Comprises .epoch (waiting (.many ["f_left"])) .null ()
        (r :: later) ∧
      r.activity.id = "choice" ∧ r.Rests .epoch x := by
  constructor
  · obtain ⟨rounds, hcomprises, hfirst, houtcome⟩ := Engine.Arises.single_outcome
      (e := waiting (.one "f_left")) (Engine.arises_waitingFor ..) rfl
      (.execute "choice" .default) .null () ⟨.epoch, 9⟩
    obtain ⟨later, rfl⟩ := hfirst "choice" _ rfl rfl rfl rfl
    obtain ⟨x, hx⟩ := (houtcome _ (List.mem_cons_self ..) rfl _ "f_left" rfl (.inl rfl) rfl rfl).2
      fun h => nomatch h
    exact ⟨_, x, later, hcomprises, rfl, hx⟩
  · obtain ⟨rounds, hcomprises, hfirst, houtcome⟩ := Engine.Arises.single_outcome
      (e := waiting (.many ["f_left"])) (Engine.arises_waitingFor ..) rfl
      (.execute "choice" .default) .null () ⟨.epoch, 9⟩
    obtain ⟨later, rfl⟩ := hfirst "choice" _ rfl rfl rfl rfl
    obtain ⟨-, x, hx⟩ :=
      (houtcome _ (List.mem_cons_self ..) rfl _ "f_left" rfl (.inl rfl) rfl rfl).1 rfl
    exact ⟨_, x, later, hcomprises, rfl, hx⟩

/-- So a single edge is not always followed, and whether it is depends on its spelling. -/
theorem not_forall_single_passes : ¬ ∀ (e : Engine Unit) (g : Graph) (errand : Errand Unit)
    (payload : Json) (memory : Unit) (o : Occasion), e.Arises → e.graph = some g →
    ∃ rounds, (e.turn errand payload memory o).Comprises o.now e payload memory rounds ∧
      ∀ r ∈ rounds, r.invocation.handler = .default → ∀ w edge, r.activity.kind = .gateway w →
        w.kind = .exclusive ∨ w.kind = .inclusive → w.joinSatisfied = true →
        Document.records r.activity.outgoing = [edge] → ∃ x, r.Passes g o.now [edge] x := by
  intro claim
  obtain ⟨rounds, hcomprises, hpasses⟩ := claim (waiting (.many ["f_left"]))
    (graph (.many ["f_left"])) (.execute "choice" .default) .null () ⟨.epoch, 9⟩
    (Engine.arises_waitingFor ..) rfl
  obtain ⟨i, hcalls, hdefault, w, hw, hkind, hjoin, hedges, hstack⟩ : ∃ i,
      (turn (.many ["f_left"])).invocations = [i] ∧ i.handler = .default ∧ ∃ w,
        i.activity.kind = .gateway w ∧ w.kind = .exclusive ∧ w.joinSatisfied = true ∧
        Document.records i.activity.outgoing = ["f_left"] ∧
        ((⟨waiting (.many ["f_left"]), (), i⟩ : Round Unit).left .epoch).engine.history.stack =
          (waiting (.many ["f_left"])).history.stack :=
    ⟨_, rfl, rfl, _, rfl, rfl, rfl, rfl, rfl⟩
  obtain rfl := hcomprises.single hcalls
  obtain ⟨x, hx⟩ := hpasses _ (List.mem_singleton_self _) hdefault w "f_left" hw (.inl hkind) hjoin
    hedges
  obtain ⟨y, hlogged, -⟩ := hx.logs
  rw [hstack] at hlogged
  have hnone : [y] = [] := List.self_eq_append_right.mp hlogged
  cases hnone

end Crossing

end Workflow
