import Workflow.Proofs.Engine.Instances
import Workflow.Proofs.History.Branches

/-!
# The rounds of a call

A call that runs activities is a sequence of dispatches, each of which calls one handler.  A round
is one of them, with the engine and the memory that it starts from, so a call comes about round by
round: each round starts from what the one before it has left, and nothing runs after a round that
fails (`Turn.Plays`).

Which handlers run while an engine goes forward, and when, is then said of the rounds: each is on
the first live activity that is entered, has no manual handler only and is not settled
(`Round.IsNext`), and where going forward ends by itself there is no such activity any more
(`Engine.forward_rounds`).
-/

namespace Workflow

/-! ## Rounds -/

/-- One dispatch of a call: what it starts from, and the call of the handler. -/
structure Round (σ : Type) where
  /-- The engine just before. -/
  engine : Engine σ
  /-- What handlers remember just before. -/
  memory : σ
  /-- The call of the handler. -/
  invocation : Invocation σ

variable {σ : Type}

namespace Round

/-- The activity that is run. -/
def activity (r : Round σ) : Activity := r.invocation.activity

/-- What the dispatch leaves. -/
def left (r : Round σ) (now : Instant) : Dispatched σ :=
  r.engine.dispatch r.activity.id r.invocation.origin r.invocation.handler r.invocation.payload
    r.memory now

/-- The step that the handler leaves behind. -/
def step (r : Round σ) (g : Graph) (now : Instant) : Step :=
  r.engine.worked g r.activity r.invocation.handler r.invocation.payload r.memory now

/-- The handler leads to that step by its actions. -/
theorem reaches_step (r : Round σ) (g : Graph) (now : Instant) :
    Step.Reaches (fun _ => True) (r.engine.opened g r.activity now) (r.step g now) :=
  r.engine.reaches_worked g r.activity r.invocation.handler.within_all r.invocation.payload r.memory
    now

/-- What a handler leaves of the activity is an instance of the same definition. -/
theorem blank_step (r : Round σ) (g : Graph) (now : Instant) :
    (r.step g now).activity.blank = r.activity.blank :=
  (r.reaches_step g now).frame.2.2.2.trans (r.activity.blank_set .started now)

/-- So it has the id of the activity. -/
theorem id_step (r : Round σ) (g : Graph) (now : Instant) :
    (r.step g now).activity.id = r.activity.id :=
  Activity.id_eq_of_blank (r.blank_step g now)

/-- Whether the activity is live and entered in the engine just before, so that it may be run. -/
def MayRun (r : Round σ) : Prop :=
  ∃ graph, r.engine.toRun r.activity.id = .ok (graph, r.activity)

/-- Whether the round is with a choice of a handler. -/
def With (r : Round σ) (choice : Choice (Handler σ)) : Prop :=
  r.invocation.origin = choice.origin ∧ r.invocation.handler = choice.handler

/-- Whether the handler of a round returns a payload and leaves its activity finished, with a join
that holds if it is a gateway, so that the flow goes on along a route; `a` is the activity after its
split. -/
structure Routes (r : Round σ) (g : Graph) (now : Instant) (route : List String)
    (a : Activity) : Prop where
  /-- The handler returns a payload. -/
  returns : ∃ memory value, (r.invocation.handler (r.engine.opened g r.activity now)
      r.invocation.payload r.memory).run (r.engine.opened g r.activity now) =
    ((memory, .ok value), r.step g now)
  /-- It leaves the activity finished. -/
  finished : (r.step g now).activity.status = some .finished
  /-- The flow goes on along the route. -/
  routes : (r.step g now).activity.routes? = some (route, a)

/-- What is logged of the activity of a round is under its id. -/
theorem Routes.id_eq {r : Round σ} {g : Graph} {now : Instant} {route : List String} {a : Activity}
    (h : r.Routes g now route a) : a.id = r.activity.id :=
  Activity.id_eq_of_blank ((Activity.blank_routes h.routes).trans (r.blank_step g now))

/-- When a round answers a payload, its handler has returned it, and the activity that the handler
left is concluded. -/
theorem left_ok {r : Round σ} {g : Graph} {now : Instant} {value : Json}
    (hrun : r.engine.toRun r.activity.id = .ok (g, r.activity))
    (ok : (r.left now).reply = .ok value) :
    (∃ memory, (r.invocation.handler (r.engine.opened g r.activity now) r.invocation.payload
        r.memory).run (r.engine.opened g r.activity now) = ((memory, .ok value), r.step g now)) ∧
      (r.left now).engine =
        ((r.engine.leave (r.step g now)).conclude g (r.step g now).activity now).1 := by
  rcases hhandler : (r.invocation.handler (r.engine.opened g r.activity now) r.invocation.payload
    r.memory).run (r.engine.opened g r.activity now) with ⟨⟨memory, outcome⟩, st⟩
  have hstep : r.step g now = st := by
    rw [step, Engine.worked, hhandler]
  have hleft := Engine.dispatch_eq hrun hhandler r.invocation.origin
  rw [left, hleft] at ok ⊢
  rw [hstep]
  cases outcome with
  | error failure => cases ok
  | ok value' =>
    -- A refusal along the route would be the answer.
    have hanswer : ((r.engine.leave st).conclude g st.activity now).2.elim (.ok value')
        Except.error = .ok value := ok
    have hvalue : value' = value := by
      cases hc : ((r.engine.leave st).conclude g st.activity now).2 with
      | none => rw [hc] at hanswer; exact Except.ok.inj hanswer
      | some err => rw [hc] at hanswer; cases hanswer
    exact ⟨⟨memory, by rw [hvalue]⟩, rfl⟩

end Round

namespace Turn

/-- Whether a turn comes about from an engine, a payload and a memory by rounds, one after another.
Each round starts from what the one before it has left, and nothing runs after one that fails. -/
inductive Plays (now : Instant) (turn : Turn σ) :
    Engine σ → Json → σ → List (Round σ) → Prop where
  /-- Nothing runs any more, and a payload that is answered is the one at hand. -/
  | rest {payload : Json} (reply : ∀ value, turn.reply = .payload value → value = payload) :
      Plays now turn turn.engine payload turn.memory []
  /-- A round fails, and its error is the answer. -/
  | failed {r : Round σ} {err : Error} (mayRun : r.MayRun) (fails : (r.left now).reply = .error err)
      (engine : turn.engine = (r.left now).engine) (memory : turn.memory = (r.left now).memory)
      (reply : turn.reply = .error err) :
      Plays now turn r.engine r.invocation.payload r.memory [r]
  /-- A round does not fail, and others follow. -/
  | next {r : Round σ} {rounds : List (Round σ)} {value : Json} (mayRun : r.MayRun)
      (ok : (r.left now).reply = .ok value)
      (later : Plays now turn (r.left now).engine value (r.left now).memory rounds) :
      Plays now turn r.engine r.invocation.payload r.memory (r :: rounds)

/-- Whether a turn comes about by some rounds, which are all that has called a handler. -/
structure Comprises (turn : Turn σ) (now : Instant) (e : Engine σ) (payload : Json) (memory : σ)
    (rounds : List (Round σ)) : Prop where
  /-- The calls of handlers are those of the rounds. -/
  invocations : turn.invocations = rounds.map (·.invocation)
  /-- The rounds lead to the turn. -/
  plays : turn.Plays now e payload memory rounds

section Plays

variable {now : Instant} {turn : Turn σ} {e : Engine σ} {payload : Json} {memory : σ}
  {rounds : List (Round σ)}

/-- Only the engine, the memory and the answer of a turn matter to how it comes about. -/
theorem Plays.congr (h : turn.Plays now e payload memory rounds) {turn' : Turn σ}
    (engine : turn'.engine = turn.engine) (hmemory : turn'.memory = turn.memory)
    (reply : turn'.reply = turn.reply) : turn'.Plays now e payload memory rounds := by
  induction h with
  | rest hreply =>
    rw [← reply] at hreply
    rw [← engine, ← hmemory]
    exact .rest hreply
  | failed mayRun fails hengine hmem hrep =>
    exact .failed mayRun fails (engine.trans hengine) (hmemory.trans hmem) (reply.trans hrep)
  | next mayRun ok later ih => exact .next mayRun ok ih

/-- What every round keeps holds of the engine that each round starts from, and of the one that is
left. -/
theorem Plays.keeps {P : Engine σ → Prop} (h : turn.Plays now e payload memory rounds)
    (keeps : ∀ r ∈ rounds, P r.engine → P (r.left now).engine) (he : P e) :
    P turn.engine ∧ ∀ r ∈ rounds, r.MayRun ∧ P r.engine := by
  induction h with
  | rest => exact ⟨he, fun r hr => nomatch hr⟩
  | failed mayRun fails engine =>
    refine ⟨engine ▸ keeps _ (List.mem_singleton_self _) he, fun r hr => ?_⟩
    rw [List.mem_singleton.mp hr]
    exact ⟨mayRun, he⟩
  | next mayRun ok later ih =>
    obtain ⟨hturn, hlater⟩ := ih (fun r hr => keeps r (List.mem_cons_of_mem _ hr))
      (keeps _ (List.mem_cons_self ..) he)
    exact ⟨hturn, List.forall_mem_cons.mpr ⟨⟨mayRun, he⟩, hlater⟩⟩

/-- When a payload is answered, no round has failed. -/
theorem Plays.ok_of_payload (h : turn.Plays now e payload memory rounds) {value : Json}
    (reply : turn.reply = .payload value) :
    ∀ r ∈ rounds, ∃ value, (r.left now).reply = .ok value := by
  induction h with
  | rest => exact fun r hr => nomatch hr
  | failed mayRun fails engine hmemory err =>
    rw [reply] at err
    cases err
  | next mayRun ok later ih => exact List.forall_mem_cons.mpr ⟨⟨_, ok⟩, ih⟩

end Plays

end Turn

namespace Round

variable {now : Instant} {before : List (Round σ)}

/-- Whether some round before was on an activity of this id and has left it entered. -/
def Settled (now : Instant) (before : List (Round σ)) (id : String) : Prop :=
  ∃ r ∈ before, r.activity.id = id ∧ (r.left now).engine.history.Awake id

/-- Whether an activity is entered, may run unattended and is not settled. -/
def CanRun (table : HandlerTable (Handler σ)) (now : Instant) (before : List (Round σ))
    (a : Activity) : Prop :=
  a.isEntered = true ∧ ¬ table.OnlyManual a.name ∧ ¬ Settled now before a.id

/-- Whether a round of going forward is the next one: it is on the first live activity that can run,
with the handler that drives it. -/
structure IsNext (table : HandlerTable (Handler σ)) (now : Instant) (before : List (Round σ))
    (r : Round σ) : Prop where
  /-- The activity can run. -/
  canRun : CanRun table now before r.activity
  /-- No live activity ahead of it can. -/
  first : ∃ ahead behind, r.engine.history.head = ahead ++ r.activity :: behind ∧
    ∀ a ∈ ahead, ¬ CanRun table now before a
  /-- The handler drives the activity. -/
  driven : ∃ choice, r.With choice ∧ table.Drives r.activity.name choice

/-- Whether each round is the next one after those before it. -/
def GoesForward (table : HandlerTable (Handler σ)) (now : Instant) :
    List (Round σ) → List (Round σ) → Prop
  | _, [] => True
  | before, r :: rounds => r.IsNext table now before ∧ GoesForward table now (before ++ [r]) rounds

/-- Whether a round is on the first live activity of a name, with the handler for runs of that
name. -/
structure RunsByName (table : HandlerTable (Handler σ)) (name : String) (r : Round σ) : Prop where
  /-- The activity has the name. -/
  named : r.activity.name = some name
  /-- No live activity ahead of it has. -/
  first : ∃ ahead behind, r.engine.history.head = ahead ++ r.activity :: behind ∧
    ∀ a ∈ ahead, a.name ≠ some name
  /-- The handler answers for the name. -/
  answered : ∃ choice, r.With choice ∧ table.Answers name choice

/-- What is settled by some rounds is settled by more. -/
theorem Settled.mono {id : String} (h : Settled now before id) {rounds : List (Round σ)}
    (hsub : before ⊆ rounds) : Settled now rounds id := by
  obtain ⟨r, hr, hid, hawake⟩ := h
  exact ⟨r, hsub hr, hid, hawake⟩

/-- Settled is what was settled before or is left entered by the last round. -/
theorem settled_append {r : Round σ} {id : String} :
    Settled now (before ++ [r]) id ↔
      Settled now before id ∨ r.activity.id = id ∧ (r.left now).engine.history.Awake id := by
  unfold Settled
  simp only [List.mem_append, List.mem_singleton, or_and_right, exists_or, exists_eq_left]

end Round

/-- Whether nothing that can run is left when a payload is answered and the engine could go on. -/
def Turn.Exhausts (turn : Turn σ) (table : HandlerTable (Handler σ)) (now : Instant)
    (rounds : List (Round σ)) : Prop :=
  ∀ value, turn.reply = .payload value → turn.engine.handlers ≠ none →
    turn.engine.state = .started → ∀ a ∈ turn.engine.history.head, ¬ Round.CanRun table now rounds a

/-- The turn of a dispatch, which goes on with others unless it fails. -/
def Dispatched.followed (d : Dispatched σ) (rest : Json → Turn σ) : Turn σ :=
  match d.reply with
  | .error err => ⟨d.engine, d.memory, .error err, d.invocations⟩
  | .ok value => { rest value with invocations := d.invocations ++ (rest value).invocations }

namespace Engine

variable {now : Instant} {before : List (Round σ)}

/-- The ids that are settled after an activity was run. -/
theorem mem_settle_iff {e : Engine σ} {settled : List String} {id other : String} :
    other ∈ e.settle settled id ↔ other ∈ settled ∨ other = id ∧ e.history.Awake id := by
  unfold settle History.Awake
  cases ha : e.history.headById? id with
  | none => simp
  | some a =>
    by_cases hentered : a.isEntered = true
    · simp [hentered, or_comm]
    · simp [hentered]

/-- The handlers of an engine, none before any are bound. -/
def table (e : Engine σ) : HandlerTable (Handler σ) := e.handlers.getD {}

/-- A dispatch keeps the handlers. -/
theorem table_dispatch (e : Engine σ) (id : String) (origin : Origin) (handler : Handler σ)
    (payload : Json) (memory : σ) (now : Instant) :
    (e.dispatch id origin handler payload memory now).engine.table = e.table := by
  unfold table
  rw [(dispatch_frame e id origin handler payload memory now).2]

/-- The activity that is run is the first of its id, and so any live activity to which none ahead of
it is alike. -/
theorem toRun_eq {e : Engine σ} (he : e.Agrees) {ahead behind : List Activity} {a found : Activity}
    (hhead : e.history.head = ahead ++ a :: behind) {graph : Graph}
    (hrun : e.toRun a.id = .ok (graph, found))
    (first : ∀ b ∈ ahead, b.isEntered = true → b.id = a.id → b.name ≠ a.name) : found = a := by
  obtain ⟨hgraph, hfound, hentered⟩ := toRun_ok_iff.mp hrun
  have hagrees := (he.built graph hgraph).2
  unfold History.headById? at hfound
  rw [hhead, List.find?_append] at hfound
  cases hfind : ahead.find? (·.id == a.id) with
  | none =>
    rw [hfind, Option.none_or, List.find?_cons_of_pos (by simp)] at hfound
    exact (Option.some.inj hfound).symm
  | some b =>
    rw [hfind, Option.some_or] at hfound
    obtain rfl : b = found := Option.some.inj hfound
    have hmem := List.mem_of_find?_eq_some hfind
    have hid : b.id = a.id := by simpa using List.find?_some hfind
    -- Activities of one id are instances of one definition, whose name they have.
    have hblank : b.blank = a.blank :=
      (hagrees.live b (by rw [hhead]; exact List.mem_append_left _ hmem)).blank_eq
        (hagrees.live a (by rw [hhead]; simp)) hid
    exact absurd (congrArg Activity.name hblank) (first b hmem hentered hid)

/-- What goes forward is the first live activity that is entered, not settled and not left alone,
and the choice drives it. -/
theorem first_of_nextAutomatic {e : Engine σ} {settled : List String} {id : String}
    {choice : Choice (Handler σ)} (h : e.nextAutomatic? settled = some (id, choice)) :
    ∃ table ahead a behind, e.handlers = some table ∧
      e.history.head = ahead ++ a :: behind ∧ a.id = id ∧ a.isEntered = true ∧ id ∉ settled ∧
      table.forForward a.name = some choice ∧
      ∀ b ∈ ahead, b.isEntered = true → b.id ∉ settled → table.OnlyManual b.name := by
  unfold nextAutomatic? at h
  split at h
  · cases h
  · next table htable =>
    obtain ⟨ahead, a, behind, hhead, hchosen, hahead⟩ := List.findSome?_eq_some_iff.mp h
    split at hchosen
    · next hcond =>
      obtain ⟨c, hc, heq⟩ := Option.map_eq_some_iff.mp hchosen
      cases heq
      obtain ⟨hentered, hnot⟩ := Bool.and_eq_true_iff.mp hcond
      refine ⟨table, ahead, a, behind, htable, hhead, rfl, hentered, by simpa using hnot, hc, ?_⟩
      intro b hb hbentered hbnot
      have hnone := hahead b hb
      rw [if_pos (by simp [hbentered, hbnot]), Option.map_eq_none_iff] at hnone
      exact HandlerTable.forForward_eq_none_iff.mp hnone
    · cases hchosen

/-- Where nothing goes forward, whatever is entered is settled or left alone. -/
theorem onlyManual_of_nextAutomatic {e : Engine σ} {table : HandlerTable (Handler σ)}
    (htable : e.handlers = some table) {settled : List String}
    (h : e.nextAutomatic? settled = none) :
    ∀ a ∈ e.history.head, a.isEntered = true → a.id ∉ settled → table.OnlyManual a.name := by
  intro a ha hentered hnot
  unfold nextAutomatic? at h
  rw [htable] at h
  have hnone := List.findSome?_eq_none_iff.mp h a ha
  rw [if_pos (by simp [hentered, hnot]), Option.map_eq_none_iff] at hnone
  exact HandlerTable.forForward_eq_none_iff.mp hnone

/-- A dispatch of an activity that may be run calls its handler once. -/
theorem invocations_dispatch {e : Engine σ} {id : String} {graph : Graph} {found : Activity}
    (h : e.toRun id = .ok (graph, found)) (origin : Origin) (handler : Handler σ) (payload : Json)
    (memory : σ) (now : Instant) :
    (e.dispatch id origin handler payload memory now).invocations =
      [⟨found, origin, handler, payload⟩] := by
  rcases dispatch_ran h origin handler payload memory now rfl with ⟨_, _, h⟩ | ⟨_, _, h⟩
  · rw [h]
  · rw [h]

/-- A dispatch is the first round of its turn, and the only one if it fails. -/
theorem comprises_followed {r : Round σ} (mayRun : r.MayRun) (now : Instant)
    (rest : Json → Turn σ) :
    (((r.left now).followed rest).Comprises now r.engine r.invocation.payload r.memory [r] ∧
      ∃ err, (r.left now).reply = .error err ∧
        ((r.left now).followed rest).reply = .error err) ∨
    ∃ value, (r.left now).reply = .ok value ∧
      ((r.left now).followed rest).engine = (rest value).engine ∧
      ((r.left now).followed rest).reply = (rest value).reply ∧
      ∀ rounds, (rest value).Comprises now (r.left now).engine value (r.left now).memory rounds →
        ((r.left now).followed rest).Comprises now r.engine r.invocation.payload r.memory
          (r :: rounds) := by
  have hcalls : (r.left now).invocations = [r.invocation] := by
    obtain ⟨graph, hrun⟩ := mayRun
    exact invocations_dispatch hrun _ _ _ _ _
  unfold Dispatched.followed
  cases hreply : (r.left now).reply with
  | error err => exact .inl ⟨⟨hcalls, .failed mayRun hreply rfl rfl rfl⟩, err, rfl, rfl⟩
  | ok value =>
    refine .inr ⟨value, rfl, rfl, rfl, fun rounds later => ⟨?_, ?_⟩⟩
    · rw [List.map_cons, ← later.invocations, hcalls]
      rfl
    · exact .next mayRun hreply (later.plays.congr rfl rfl rfl)

/-- Whether going forward has come about by some rounds after others: each is the next one, and
nothing that can run is left. -/
structure Forwarded (table : HandlerTable (Handler σ)) (now : Instant)
    (before rounds : List (Round σ)) (turn : Turn σ) : Prop where
  /-- Each round is the next one. -/
  goes : Round.GoesForward table now before rounds
  /-- Nothing that can run is left. -/
  exhausts : turn.Exhausts table now (before ++ rounds)

/-- The activity whose turn it is to go forward. -/
def upcoming? (e : Engine σ) (settled : List String) : Option (String × Choice (Handler σ)) :=
  if e.isIn .started then e.nextAutomatic? settled else none

/-- Going forward ends with the payload when it is no activity's turn. -/
theorem forward_of_none {e : Engine σ} {settled : List String} (h : e.upcoming? settled = none)
    (now : Instant) (limit : Nat) (payload : Json) (memory : σ) :
    forward now limit settled e payload memory = ⟨e, memory, .payload payload, []⟩ := by
  unfold upcoming? at h
  unfold forward
  rw [h]

/-- Going forward ends at the limit when it is some activity's turn. -/
theorem forward_at_limit {e : Engine σ} {settled : List String} {next : String × Choice (Handler σ)}
    (h : e.upcoming? settled = some next) (now : Instant) (payload : Json) (memory : σ) :
    forward now 0 settled e payload memory = ⟨e, memory, .unfinished, []⟩ := by
  unfold upcoming? at h
  unfold forward
  rw [h]

/-- Going forward is a dispatch of the activity whose turn it is, and what follows. -/
theorem forward_of_some {e : Engine σ} {settled : List String} {id : String}
    {choice : Choice (Handler σ)} (h : e.upcoming? settled = some (id, choice)) (now : Instant)
    (limit : Nat) (payload : Json) (memory : σ) :
    forward now (limit + 1) settled e payload memory =
      (e.dispatch id choice.origin choice.handler payload memory now).followed fun value =>
        let d := e.dispatch id choice.origin choice.handler payload memory now
        forward now limit (d.engine.settle settled id) d.engine value d.memory := by
  unfold upcoming? at h
  conv_lhs => unfold forward
  rw [h]
  rfl

/-- Going forward ends when nothing that can run is left. -/
theorem forwarded_nil {e : Engine σ} {settled : List String}
    (hsettled : ∀ id, id ∈ settled ↔ Round.Settled now before id)
    (h : e.upcoming? settled = none) (payload : Json) (memory : σ) :
    Forwarded e.table now before [] ⟨e, memory, .payload payload, []⟩ := by
  refine ⟨trivial, fun value _ bound started a ha hcan => ?_⟩
  obtain ⟨hentered, hopen, hnot⟩ := hcan
  obtain ⟨table, htable⟩ := Option.ne_none_iff_exists'.mp bound
  have hin : e.isIn .started = true := by rw [isIn, started]; rfl
  unfold upcoming? at h
  rw [if_pos hin] at h
  rw [List.append_nil, ← hsettled] at hnot
  have hmanual := onlyManual_of_nextAutomatic htable h a ha hentered hnot
  rw [show e.table = table by unfold Engine.table; rw [htable]; rfl] at hopen
  exact hopen hmanual

/-- Where it is no activity's turn, nothing runs. -/
theorem rounds_of_none {e : Engine σ} {settled : List String}
    (hsettled : ∀ id, id ∈ settled ↔ Round.Settled now before id)
    (h : e.upcoming? settled = none) (limit : Nat) (payload : Json) (memory : σ) :
    ∃ rounds, (forward now limit settled e payload memory).Comprises now e payload memory rounds ∧
      Forwarded e.table now before rounds (forward now limit settled e payload memory) := by
  rw [forward_of_none h]
  exact ⟨[], ⟨rfl, .rest fun _ h => (Reply.payload.inj h).symm⟩,
    forwarded_nil hsettled h payload memory⟩

/-- What goes forward and may be run is the next round. -/
theorem isNext_of_nextAutomatic {e : Engine σ} (he : e.Agrees) {settled : List String}
    (hsettled : ∀ id, id ∈ settled ↔ Round.Settled now before id) {id : String}
    {choice : Choice (Handler σ)} (hnext : e.nextAutomatic? settled = some (id, choice))
    {graph : Graph} {found : Activity} (hrun : e.toRun id = .ok (graph, found)) (payload : Json)
    (memory : σ) :
    Round.IsNext e.table now before
      ⟨e, memory, ⟨found, choice.origin, choice.handler, payload⟩⟩ := by
  obtain ⟨table, ahead, a, behind, htable, hhead, rfl, hentered, hnot, hchoice, hahead⟩ :=
    first_of_nextAutomatic hnext
  have hopen : ¬ table.OnlyManual a.name := by
    intro hmanual
    rw [HandlerTable.forForward_eq_none_iff.mpr hmanual] at hchoice
    cases hchoice
  obtain rfl : found = a := toRun_eq he hhead hrun fun b hb hbentered hid hname =>
    hopen (hname ▸ hahead b hb hbentered (hid ▸ hnot))
  have heq : e.table = table := by
    unfold Engine.table
    rw [htable]
    rfl
  rw [heq]
  refine ⟨⟨hentered, hopen, mt (hsettled _).mpr hnot⟩, ⟨ahead, behind, hhead, ?_⟩, choice,
    ⟨rfl, rfl⟩, HandlerTable.drives_of_forForward hchoice⟩
  rintro b hb ⟨hbentered, hbopen, hbnot⟩
  exact hbopen (hahead b hb hbentered (mt (hsettled _).mp hbnot))

/-- A round that is the next one comes before the rounds of what follows. -/
theorem rounds_cons {r : Round σ} {table : HandlerTable (Handler σ)} {rest : Json → Turn σ}
    (mayRun : r.MayRun) (isNext : r.IsNext table now before)
    (later : ∀ value, ∃ rounds,
      (rest value).Comprises now (r.left now).engine value (r.left now).memory rounds ∧
        Forwarded table now (before ++ [r]) rounds (rest value)) :
    ∃ rounds, ((r.left now).followed rest).Comprises now r.engine r.invocation.payload r.memory
        rounds ∧ Forwarded table now before rounds ((r.left now).followed rest) := by
  rcases comprises_followed mayRun now rest with
    ⟨hone, err, -, herr⟩ | ⟨value, -, hengine, hreply, hlater⟩
  · refine ⟨[r], hone, ⟨isNext, trivial⟩, fun value hvalue => ?_⟩
    rw [hvalue] at herr
    cases herr
  · obtain ⟨rounds, hcomprises, hforwarded⟩ := later value
    refine ⟨r :: rounds, hlater rounds hcomprises, ⟨isNext, hforwarded.goes⟩, ?_⟩
    unfold Turn.Exhausts
    rw [List.append_cons, hengine, hreply]
    exact hforwarded.exhausts

/-- A call that has run nothing and answers no payload comes about without rounds. -/
theorem unplayed_rounds (e : Engine σ) (payload : Json) (memory : σ)
    (table : HandlerTable (Handler σ)) (now : Instant) (rounds : List (Round σ)) (reply : Reply)
    (h : ∀ value, reply ≠ .payload value) :
    Turn.Comprises ⟨e, memory, reply, []⟩ now e payload memory [] ∧
      Turn.Exhausts ⟨e, memory, reply, []⟩ table now rounds :=
  ⟨⟨rfl, .rest fun value hreply => absurd hreply (h value)⟩,
    fun value hreply => absurd hreply (h value)⟩

/-- Going forward runs one activity after another as the turn of each comes. -/
theorem forward_rounds (now : Instant) (limit : Nat) {settled : List String} {e : Engine σ}
    (he : e.Agrees) (hsettled : ∀ id, id ∈ settled ↔ Round.Settled now before id) (payload : Json)
    (memory : σ) :
    ∃ rounds, (forward now limit settled e payload memory).Comprises now e payload memory rounds ∧
      Forwarded e.table now before rounds (forward now limit settled e payload memory) := by
  -- Each round is put behind those before it, so the ids that are settled stay accounted for.
  induction limit generalizing settled before e payload memory with
  | zero =>
    cases hnext : e.upcoming? settled with
    | none => exact rounds_of_none hsettled hnext 0 payload memory
    | some next =>
      obtain ⟨hnone, hexhausts⟩ := unplayed_rounds e payload memory e.table now (before ++ [])
        .unfinished (by simp)
      rw [forward_at_limit hnext]
      exact ⟨[], hnone, trivial, hexhausts⟩
  | succ limit ih =>
    cases hnext : e.upcoming? settled with
    | none => exact rounds_of_none hsettled hnext (limit + 1) payload memory
    | some next =>
      obtain ⟨id, choice⟩ := next
      rw [forward_of_some hnext]
      cases hrun : e.toRun id with
      | error err =>
        -- The first live activity of the id is not entered, and nothing runs.
        obtain ⟨hnone, hexhausts⟩ := unplayed_rounds e payload memory e.table now (before ++ [])
          (.error err) (by simp)
        rw [dispatch_refused hrun]
        exact ⟨[], hnone, trivial, hexhausts⟩
      | ok found =>
        obtain ⟨graph, found⟩ := found
        have hauto := (Option.ite_none_right_eq_some.mp hnext).2
        have hisNext := isNext_of_nextAutomatic he hsettled hauto hrun payload memory
        obtain rfl : found.id = id := (History.headById?_some (toRun_ok_iff.mp hrun).2.1).2
        let r : Round σ := ⟨e, memory, ⟨found, choice.origin, choice.handler, payload⟩⟩
        have hafter : ∀ other, other ∈ (r.left now).engine.settle settled r.activity.id ↔
            Round.Settled now (before ++ [r]) other := by
          intro other
          rw [mem_settle_iff, Round.settled_append, hsettled, eq_comm (a := other)]
          refine or_congr_right (and_congr_right fun hid => ?_)
          rw [hid]
        have hagrees : (r.left now).engine.Agrees :=
          he.dispatch r.activity.id choice.origin choice.handler payload memory now
        have htable : (r.left now).engine.table = e.table := table_dispatch e _ _ _ _ _ _
        refine rounds_cons (r := r) ⟨graph, hrun⟩ hisNext fun value => ?_
        rw [← htable]
        exact ih hagrees hafter value (r.left now).memory

/-- The engines of a turn agree with the process that the first has, and all have its handlers. -/
theorem frame_of_plays {e : Engine σ} {payload : Json} {memory : σ} {turn : Turn σ}
    {rounds : List (Round σ)}
    (plays : turn.Plays now e payload memory rounds) (he : e.Agrees) :
    (turn.engine.Agrees ∧ turn.engine.graph = e.graph ∧ turn.engine.handlers = e.handlers) ∧
      ∀ r ∈ rounds, r.MayRun ∧ r.engine.Agrees ∧ r.engine.graph = e.graph ∧
        r.engine.handlers = e.handlers := by
  refine plays.keeps (P := fun e' => e'.Agrees ∧ e'.graph = e.graph ∧ e'.handlers = e.handlers)
    ?_ ⟨he, rfl, rfl⟩
  rintro r - ⟨hagrees, hgraph, hhandlers⟩
  obtain ⟨hgraph', hhandlers'⟩ := dispatch_frame r.engine r.activity.id r.invocation.origin
    r.invocation.handler r.invocation.payload r.memory now
  exact ⟨hagrees.dispatch _ _ _ _ _ _, hgraph'.trans hgraph, hhandlers'.trans hhandlers⟩

end Engine

end Workflow
