import Workflow.Proofs.Engine.Reachable
import Workflow.Proofs.History.Progress

/-!
# Runs of a fork/join process

A fork/join process is advanced once, and then its waiting tasks are run by name, one after another
and in any order (`Engine.Driven`).  Between two calls the engine has come as far as its log says
(`Engine.Progress`), and nothing is left that may run unattended (`Turn.Settled`).

One dispatch logs one activity and follows it along all flows that leave it, so going forward ends
after no more dispatches than nodes are left (`Engine.Progress.forward`).  Where it ends, the node
that is next in the order of the flows is live and entered, and since it did not run unattended it
waits to be run by name.  Hence every call answers, no activity is logged twice or before the ones
that lead to it, the process never gets stuck, and it finishes when all nodes are logged
(`Engine.Driven.completes`).
-/

namespace Workflow

variable {σ : Type} {b : Builder} {g : Graph} {table : HandlerTable (Handler σ)}

/-- Whether nothing is registered but manual handlers of tasks, which do nothing but finish them. -/
structure Builder.Waits (b : Builder) (table : HandlerTable (Handler σ)) : Prop where
  /-- The name of a registration is that of a task. -/
  task : ∀ name, table.find? name ≠ none →
    ∃ n ∈ b.nodes, (∃ kind, n.group = .task kind) ∧ n.name = some name
  /-- Nothing runs unattended. -/
  automatic : ∀ name, table.automatic? name = none
  /-- There is a handler to run on demand, and all that it does in a task is to finish it. -/
  manual : ∀ name, table.find? name ≠ none → ∃ handler, table.manual? name = some handler ∧
    ∀ st t, st.activity.kind = .task t → handler.FinishesIn st

namespace Engine

variable {e : Engine σ} {now : Instant}

/-- Whether a task has a registered handler and is entered. -/
def Awaits (b : Builder) (table : HandlerTable (Handler σ)) (e : Engine σ) (name : String) : Prop :=
  table.find? name ≠ none ∧ ∃ n ∈ b.nodes, (∃ kind, n.group = .task kind) ∧ n.name = some name ∧
    ∃ a ∈ e.history.head, a.id = n.id ∧ a.isEntered = true

/-- The turns of a process that is advanced once and whose waiting tasks are then run, each with the
payload it is called with.  The limit is large enough to run every node. -/
inductive Driven (b : Builder) (table : HandlerTable (Handler σ)) : Json → Turn σ → Prop where
  /-- The first call goes forward from the start event. -/
  | advanced {e : Engine σ} {now : Instant} {payload : Json} {memory : σ} {o : Occasion}
      (made : withProcess b.build table now = .ok e) (enough : b.nodes.length ≤ o.limit) :
      Driven b table payload (e.advance payload memory o)
  /-- Every other call runs a task that waits for it. -/
  | ran {before : Json} {turn : Turn σ} {name : String} {payload : Json} {memory : σ}
      {o : Occasion} (driven : Driven b table before turn)
      (awaits : turn.engine.Awaits b table name) (enough : b.nodes.length ≤ o.limit) :
      Driven b table payload (turn.engine.run name payload memory o)

/-- How far an engine has come with a fork/join process. -/
structure Progress (b : Builder) (g : Graph) (table : HandlerTable (Handler σ)) (e : Engine σ) :
    Prop where
  /-- The process is built. -/
  graph : e.graph = some g
  /-- The handlers are bound. -/
  handlers : e.handlers = some table
  /-- The history is that of the process. -/
  history : e.history.Progress b g
  /-- The engine has finished if no branch is left. -/
  state : e.state = if e.history.head.isEmpty then .finished else .started

namespace Progress

/-- An engine with a live activity is started. -/
theorem started (hp : e.Progress b g table) {a : Activity} (ha : a ∈ e.history.head) :
    e.state = .started := by
  rw [hp.state]
  cases hhead : e.history.head with
  | nil => rw [hhead] at ha; cases ha
  | cons a' as => rfl

section ForkJoin

variable (hb : b.ForkJoin) (hg : b.build.compile = .ok g)

include hb hg

/-- A new engine is at the beginning. -/
theorem made (h : withProcess b.build table now = .ok e) : e.Progress b g table := by
  obtain ⟨g', hg', hgraph, hhistory, hhandlers, hstate⟩ := withProcess_ok h
  obtain rfl : g = g' := Except.ok.inj (hg.symm.trans hg')
  refine ⟨hgraph, hhandlers, ?_, ?_⟩
  · rw [hhistory]
    exact .start hb hg now
  · rw [hhistory, hstate]
    rfl

omit hb in
/-- While an activity is live, fewer activities are logged than the process has nodes. -/
theorem length_lt (hp : e.Progress b g table) {a : Activity} (ha : a ∈ e.history.head) :
    e.history.stack.length < b.nodes.length := by
  obtain ⟨n, hn, hid⟩ := hp.history.exists_node hg ha
  have hnew := hp.history.not_logged hg ha
  -- The ids of the logged activities and this one are distinct ids of nodes.
  have hnodup : (a.id :: e.history.stack.map (·.id)).Nodup :=
    List.nodup_cons.mpr ⟨hnew, hp.history.once⟩
  have hsub : a.id :: e.history.stack.map (·.id) ⊆ b.nodes.map (·.id) := by
    intro id hmem
    rcases List.mem_cons.mp hmem with rfl | hmem
    · exact hid ▸ List.mem_map_of_mem hn
    · obtain ⟨x, hx, rfl⟩ := List.mem_map.mp hmem
      obtain ⟨n', hn', hid', -⟩ :=
        Builder.exists_node_of_activity? hg (hp.history.coherent.completed x hx)
      exact hid' ▸ List.mem_map_of_mem hn'
  have hle := (List.subperm_of_subset hnodup hsub).length_le
  simp only [List.length_cons, List.length_map] at hle
  omega

omit hb in
/-- An activity that is logged is not live, so it is not settled. -/
theorem settle_of_logged (hp : e.Progress b g table) {id : String}
    (h : id ∈ e.history.stack.map (·.id)) {settled : List String} :
    e.settle settled id = settled := by
  unfold settle
  split
  · next a ha =>
    obtain ⟨hmem, rfl⟩ := History.headById?_some ha
    exact absurd h (hp.history.not_logged hg hmem)
  · rfl

/-- A dispatch with a handler that finishes the activity logs it and goes on from it. -/
theorem dispatch (hp : e.Progress b g table) {a : Activity} (ha : a ∈ e.history.head)
    (hentered : a.isEntered = true) {handler : Handler σ}
    (finishes : handler.FinishesIn (e.opened g a now)) (origin : Origin) (payload : Json)
    (memory : σ) :
    (e.dispatch a.id origin handler payload memory now).reply = .ok payload ∧
      (e.dispatch a.id origin handler payload memory now).engine.Progress b g table ∧
      ∃ x, x.id = a.id ∧ (e.dispatch a.id origin handler payload memory now).engine.history.stack =
        e.history.stack ++ [x] := by
  have hstate := hp.started ha
  obtain ⟨hgraph, hhandlers, hh, -⟩ := hp
  -- An entered activity is ready, so it is found, run, and followed to the end of its route.
  have hready := (hh.entered_iff a ha).mp hentered
  have hrun : e.toRun a.id = .ok (g, a) :=
    toRun_ok_iff.mpr ⟨hgraph, hh.coherent.headById?_of_mem ha, hentered⟩
  -- The activity as the handler leaves it.
  obtain ⟨x, hx⟩ : ∃ x, x = (a.set .started now).set .finished now := ⟨_, rfl⟩
  have hid : x.id = a.id := by rw [hx]; rfl
  have hblank : x.blank = a.blank := by
    rw [hx, Activity.blank_set, Activity.blank_set]
  have hdefines : g.Defines x := (hh.coherent.live a ha).of_blank hblank
  have hroutes : x.routes? = some (b.routeFrom x.id, x) := by
    have htracks : x.Tracks b e.history.stack := by
      intro t ht
      rw [hx] at ht
      exact hh.tracks a ha t ht
    exact htracks.routes_eq hb hg hdefines (hid ▸ hready)
  have hadvance := History.advance_routeFrom hb hg hh.coherent hdefines now
  obtain ⟨memory', hdispatch⟩ := dispatch_of_finishesIn hrun finishes hx hroutes
    (congrArg Graph.Advance.fresh hadvance) origin payload memory
  rw [hdispatch]
  refine ⟨rfl, ⟨?_, ?_, ?_, ?_⟩, x, hid, ?_⟩
  · rw [graph_finishIfDone, hgraph]
  · rw [handlers_finishIfDone, hhandlers]
  · rw [history_finishIfDone]
    exact hh.onward hb hg ha hready hblank now
  · -- When nothing is live any more, the engine finishes.
    rw [history_finishIfDone, state_finishIfDone_eq]
    exact congrArg _ hstate
  · rw [history_finishIfDone]
    show (e.history.onward g (b.routeFrom x.id) x now).stack = _
    rw [History.onward_eq hb hg hh.coherent hdefines]

end ForkJoin

/-- What may run unattended is an entered activity under the default policy. -/
theorem nextAutomatic?_some (waits : b.Waits table) (hp : e.Progress b g table)
    {settled : List String} {id : String} {choice : Choice (Handler σ)}
    (h : e.nextAutomatic? settled = some (id, choice)) :
    choice = .default ∧ ∃ a ∈ e.history.head, a.id = id ∧ a.isEntered = true := by
  obtain ⟨table', a, htable, ha, hid, hentered, -, hchoice⟩ := exists_of_nextAutomatic h
  obtain rfl : table = table' := Option.some.inj (hp.handlers.symm.trans htable)
  refine ⟨?_, a, ha, hid, hentered⟩
  rcases HandlerTable.forForward_some hchoice with hdefault | ⟨name, handler, -, hauto, -⟩
  · exact hdefault
  · rw [waits.automatic name] at hauto
    cases hauto

/-- An entered activity that does not run unattended has a handler for its name. -/
theorem registered_of_quiet (hp : e.Progress b g table) (quiet : e.nextAutomatic? [] = none)
    {a : Activity} (ha : a ∈ e.history.head) (hentered : a.isEntered = true) :
    ∃ name, a.name = some name ∧ table.find? name ≠ none := by
  unfold nextAutomatic? at quiet
  rw [hp.handlers] at quiet
  have hnone := List.findSome?_eq_none_iff.mp quiet a ha
  simp only [hentered, List.contains_nil, Bool.not_false, Bool.and_self, if_true,
    Option.map_eq_none_iff] at hnone
  exact HandlerTable.forForward_none hnone

end Progress

end Engine

/-- Whether a turn has answered the payload as it was given and left nothing that may run
unattended. -/
structure Turn.Settled (b : Builder) (g : Graph) (table : HandlerTable (Handler σ)) (payload : Json)
    (turn : Turn σ) : Prop where
  /-- The answer. -/
  reply : turn.reply = .payload payload
  /-- How far the engine has come. -/
  progress : turn.engine.Progress b g table
  /-- What is entered waits to be run by name. -/
  quiet : turn.engine.nextAutomatic? [] = none

namespace Engine

variable {e : Engine σ} {now : Instant} {payload : Json} {memory : σ}

/-- Only a process that compiles is driven. -/
theorem Driven.compiles {turn : Turn σ} (h : Driven b table payload turn) :
    ∃ g, b.build.compile = .ok g := by
  induction h with
  | advanced made enough => exact exists_withProcess_iff.mp ⟨_, made⟩
  | ran driven awaits enough ih => exact ih

section Settles

variable (hb : b.ForkJoin) (hg : b.build.compile = .ok g) (waits : b.Waits table)

include hb hg waits

omit hb hg in
/-- An engine that goes no further leaves nothing that may run unattended. -/
theorem Progress.quiet (hp : e.Progress b g table)
    (h : (if e.isIn .started then e.nextAutomatic? [] else none) = none) :
    e.nextAutomatic? [] = none := by
  cases hnext : e.nextAutomatic? [] with
  | none => rfl
  | some next =>
    obtain ⟨-, a, ha, -, -⟩ := hp.nextAutomatic?_some waits hnext
    have hstarted : e.isIn .started = true := by
      rw [isIn, hp.started ha]
      rfl
    rw [if_pos hstarted, hnext] at h
    cases h

omit waits in
/-- The default policy finishes an entered activity. -/
theorem Progress.default_finishesIn (hp : e.Progress b g table) {a : Activity}
    (ha : a ∈ e.history.head) (hentered : a.isEntered = true) (now : Instant) :
    (Handler.default : Handler σ).FinishesIn (e.opened g a now) := by
  refine Handler.default_finishesIn fun w hw => ?_
  have hkind : a.kind = .gateway w := hw
  have hdefines := hp.history.coherent.live a ha
  have hready := (hp.history.entered_iff a ha).mp hentered
  exact ⟨hb.parallel_of_defines hg hdefines hkind,
    (hp.history.tracks a ha).joinSatisfied_of_ready hb hg hdefines hready hkind⟩

/-- Going forward is settled when the limit suffices for the nodes that are left. -/
theorem Progress.forward {limit : Nat} (hp : e.Progress b g table)
    (enough : b.nodes.length ≤ e.history.stack.length + limit) :
    (forward now limit [] e payload memory).Settled b g table payload := by
  -- Each dispatch takes one from the limit and logs one activity, so `enough` is kept.
  induction limit generalizing e memory with
  | zero =>
    unfold Engine.forward
    split
    · next hnone => exact ⟨rfl, hp, hp.quiet waits hnone⟩
    · next hsome _ =>
      -- Every node is logged, so none is live.
      obtain ⟨-, hnext⟩ := Option.ite_none_right_eq_some.mp hsome
      obtain ⟨-, a, ha, -, -⟩ := hp.nextAutomatic?_some waits hnext
      have hlt := hp.length_lt hg ha
      omega
    · next hlimit => cases hlimit
  | succ limit ih =>
    unfold Engine.forward
    split
    · next hnone => exact ⟨rfl, hp, hp.quiet waits hnone⟩
    · next hlimit => cases hlimit
    · next id choice n hsome hlimit =>
      obtain rfl : limit = n := Nat.succ.inj hlimit
      obtain ⟨-, hnext⟩ := Option.ite_none_right_eq_some.mp hsome
      obtain ⟨rfl, a, ha, rfl, hentered⟩ := hp.nextAutomatic?_some waits hnext
      have hdispatch := hp.dispatch hb hg ha hentered (hp.default_finishesIn hb hg ha hentered now)
        (Choice.default : Choice (Handler σ)).origin payload memory
      simp only [Choice.handler]
      generalize e.dispatch a.id _ _ payload memory now = d at hdispatch ⊢
      obtain ⟨hreply, hprogress, x, hid, hstack⟩ := hdispatch
      -- The activity that ran is logged, so it is neither settled nor run again.
      have hsettle : d.engine.settle [] a.id = [] := by
        refine hprogress.settle_of_logged hg ?_
        rw [hstack, List.map_append, ← hid]
        simp
      have hleft : b.nodes.length ≤ d.engine.history.stack.length + limit := by
        rw [hstack, List.length_append, List.length_singleton]
        omega
      have hrest : (Engine.forward now limit [] d.engine payload d.memory).Settled b g table
          payload := ih hprogress hleft
      simp only [hreply, hsettle]
      exact ⟨hrest.reply, hrest.progress, hrest.quiet⟩

/-- A call that goes forward is settled. -/
theorem Progress.advance (hp : e.Progress b g table) {o : Occasion}
    (enough : b.nodes.length ≤ o.limit) :
    (e.advance payload memory o).Settled b g table payload := by
  unfold Engine.advance
  by_cases hhead : e.history.head = []
  · -- Nothing is live, and a finished engine answers at once.
    have hfinished : e.state = .finished := by rw [hp.state, hhead]; rfl
    rw [if_pos (by rw [isIn, hfinished]; rfl)]
    refine ⟨rfl, hp, hp.quiet waits ?_⟩
    rw [if_neg (by rw [isIn, hfinished]; decide)]
  · obtain ⟨a, ha⟩ := List.exists_mem_of_ne_nil _ hhead
    have hstarted := hp.started ha
    rw [if_neg (by rw [isIn, hstarted]; decide), checkStarted, hstarted]
    exact hp.forward hb hg waits (by omega)

/-- A run of a task that waits for it is settled. -/
theorem Progress.run (hp : e.Progress b g table) {name : String}
    (awaits : e.Awaits b table name) {o : Occasion} (enough : b.nodes.length ≤ o.limit) :
    (e.run name payload memory o).Settled b g table payload := by
  obtain ⟨hregistered, n, hn, ⟨kind, hgroup⟩, hname, a, ha, hid, hentered⟩ := awaits
  have hstarted := hp.started ha
  have hnot : ¬ e.isIn .finished = true := by rw [isIn, hstarted]; decide
  -- The handler that is registered for the name finishes the task.
  obtain ⟨handler, hmanual, hfinishes⟩ := waits.manual name hregistered
  have hchoice : e.choiceFor name = .registered .manual handler := by
    unfold choiceFor
    rw [hp.handlers]
    simp only [HandlerTable.forRun, hmanual]
  obtain ⟨t, htask⟩ :=
    Builder.exists_task_of_defines hg hn hgroup (hp.history.coherent.live a ha) hid
  have hdispatch := hp.dispatch hb hg ha hentered (hfinishes (e.opened g a o.now) t htask)
    (.tier .manual) payload memory
  unfold Engine.run
  rw [if_neg hnot, hp.history.headByName?_of_mem hb hg hn hname ha hid]
  simp only [hchoice, Choice.origin, Choice.handler, runWith]
  rw [if_neg hnot, checkStarted, hstarted]
  generalize e.dispatch a.id _ _ payload memory o.now = d at hdispatch ⊢
  obtain ⟨hreply, hprogress, -⟩ := hdispatch
  have hrest : (Engine.forward o.now o.limit [] d.engine payload d.memory).Settled b g table
      payload := hprogress.forward hb hg waits (by omega)
  simp only [hreply]
  exact ⟨hrest.reply, hrest.progress, hrest.quiet⟩

omit waits in
/-- The engine has finished just when every node is logged. -/
theorem Progress.finished_iff (hp : e.Progress b g table) :
    e.state = .finished ↔ ∀ n ∈ b.nodes, n.id ∈ e.history.stack.map (·.id) := by
  constructor
  · intro hfinished n hn
    by_contra hleft
    obtain ⟨a, ha, -⟩ := hp.history.exists_entered hb hg ⟨n, hn, hleft⟩
    rw [hp.started ha] at hfinished
    cases hfinished
  · intro hall
    have hhead : e.history.head = [] := by
      refine List.eq_nil_iff_forall_not_mem.mpr fun a ha => ?_
      obtain ⟨n, hn, hid⟩ := hp.history.exists_node hg ha
      exact hp.history.not_logged hg ha (hid ▸ hall n hn)
    rw [hp.state, hhead]
    rfl

/-- An entered activity that does not run unattended is that of a task that waits to be run. -/
theorem Progress.exists_awaits (hp : e.Progress b g table) (quiet : e.nextAutomatic? [] = none)
    {a : Activity} (ha : a ∈ e.history.head) (hentered : a.isEntered = true) :
    ∃ name, e.Awaits b table name := by
  obtain ⟨name, hname, hregistered⟩ := hp.registered_of_quiet quiet ha hentered
  obtain ⟨n, hn, hgroup, hnamed⟩ := waits.task name hregistered
  have hid := hb.id_eq_of_name hg (hp.history.coherent.live a ha) hn (hname.trans hnamed.symm)
  exact ⟨name, hregistered, n, hn, hgroup, hnamed, a, ha, hid, hentered⟩

/-- Every turn is settled. -/
theorem Driven.settled {turn : Turn σ} (h : Driven b table payload turn) :
    turn.Settled b g table payload := by
  induction h with
  | advanced made enough =>
    exact (Progress.made hb hg made).advance hb hg waits enough
  | ran driven awaits enough ih => exact ih.progress.run hb hg waits awaits enough

end Settles

/-- A fork/join process whose tasks wait to be run, or some of them, completes exactly once and does
not get stuck.  After every call the payload is answered as it was given, no activity has been
logged twice, the source of every flow was logged before its target, a task waits to be run as long
as nodes are left, and the engine has finished just when every node is logged. -/
theorem Driven.completes (hb : b.ForkJoin) (waits : b.Waits table) {turn : Turn σ}
    (h : Driven b table payload turn) :
    turn.reply = .payload payload ∧
      (turn.engine.history.stack.map (·.id)).Nodup ∧
      (∀ f ∈ b.flows, ∀ (j : Nat) (a : Activity), turn.engine.history.stack[j]? = some a →
        a.id = f.target → ∃ i < j, ∃ a', turn.engine.history.stack[i]? = some a' ∧
          a'.id = f.source) ∧
      ((∃ n ∈ b.nodes, n.id ∉ turn.engine.history.stack.map (·.id)) →
        ∃ name, turn.engine.Awaits b table name) ∧
      (turn.engine.state = .finished ↔
        ∀ n ∈ b.nodes, n.id ∈ turn.engine.history.stack.map (·.id)) := by
  obtain ⟨g, hg⟩ := h.compiles
  obtain ⟨hreply, hprogress, hquiet⟩ := h.settled hb hg waits
  have hp := hprogress.history
  refine ⟨hreply, hp.once, fun f hf j a hj hid => hp.source_precedes hf hj hid, fun left => ?_,
    hprogress.finished_iff hb hg⟩
  -- Some activity is entered, and it waits because nothing is left that may run unattended.
  obtain ⟨a, ha, hentered⟩ := hp.exists_entered hb hg left
  exact hprogress.exists_awaits hb hg waits hquiet ha hentered

end Engine

/-! ## The process with two branches -/

/-- A table in which tasks wait to be run has nothing else. -/
theorem Builder.waits_waiting {handler : Handler σ} {names : List String}
    (tasks : ∀ name ∈ names, ∃ n ∈ b.nodes, (∃ kind, n.group = .task kind) ∧ n.name = some name)
    (finishes : ∀ st t, st.activity.kind = .task t → handler.FinishesIn st) :
    b.Waits (.waiting handler names) where
  task name hname := by
    rw [HandlerTable.find?_waiting] at hname
    split at hname
    · next hmem => exact tasks name hmem
    · exact absurd rfl hname
  automatic name := by
    rw [HandlerTable.automatic?, HandlerTable.find?_waiting]
    split <;> rfl
  manual name hname := by
    rw [HandlerTable.find?_waiting] at hname
    split at hname
    · next hmem =>
      refine ⟨handler, ?_, finishes⟩
      rw [HandlerTable.manual?, HandlerTable.find?_waiting, if_pos hmem]
      rfl
    · exact absurd rfl hname

namespace Builder

/-- The place of each node of the process with two branches. -/
def diamondRank (id : String) : Nat :=
  ["start", "fork", "left", "right", "join", "end"].idxOf id

/-- Its flows lead from a place to a later one. -/
theorem diamondRank_grows :
    ∀ f ∈ diamond.flows, diamondRank f.source < diamondRank f.target := by
  decide

/-- The process with two branches forks and joins. -/
theorem forkJoin_diamond : diamond.ForkJoin where
  flows := by decide
  named := by decide
  names := by decide
  sources := by decide
  targets := by decide
  acyclic := acyclic_of_rank diamondRank diamondRank_grows
  reachable start hstart hgroup n hn := by
    have hid : ∀ n ∈ diamond.nodes, n.group = .start → n.id = "start" := by decide
    rw [hid start hstart hgroup]
    exact reachable_of_rank diamondRank diamondRank_grows (by decide) (by decide) hn
  parallel n hn kind hgroup := by
    have hgroups : ∀ n ∈ diamond.nodes,
        n.group ∈ [.start, .finish, .gateway .parallel, .task .user] := by decide
    have hmem := hgroups n hn
    rw [hgroup] at hmem
    simpa using hmem
  joins n hn hgroup := by
    have hone : ∀ n ∈ diamond.nodes, n.group = .gateway .parallel ∨
        (diamond.flows.filter (·.target == n.id)).length ≤ 1 := by decide
    exact (hone n hn).resolve_left (hgroup .parallel)

/-- Its tasks wait to be run, and then the default policy finishes them. -/
theorem waits_diamond :
    diamond.Waits (.waiting .default ["Left", "Right"] : HandlerTable (Handler Unit)) := by
  refine waits_waiting ?_ fun st t ht => Handler.default_finishesIn fun w hw => ?_
  · intro name hname
    rcases List.mem_pair.mp hname with rfl | rfl
    · exact ⟨⟨.task .user, "left", some "Left", none⟩, by decide, ⟨.user, rfl⟩, rfl⟩
    · exact ⟨⟨.task .user, "right", some "Right", none⟩, by decide, ⟨.user, rfl⟩, rfl⟩
  · rw [ht] at hw
    cases hw

end Builder

namespace Engine

/-- The turn after the right branch and then the left one. -/
def diamondTurn : Turn Unit :=
  ((diamond.advance .null () ⟨.epoch, 9⟩).engine.run "Right" (.bool true) () ⟨.epoch, 9⟩).engine.run
    "Left" .null () ⟨.epoch, 9⟩

/-- Both branches have completed, and so has the process. -/
theorem completes_diamond :
    diamondTurn.engine.history.stack.map (·.id) =
        ["start", "fork", "right", "left", "join", "end"] ∧
      diamondTurn.reply = .payload .null ∧ diamondTurn.engine.state = .finished := by
  have hmade : withProcess Builder.diamond.build (.waiting .default ["Left", "Right"]) .epoch =
      .ok diamond := withProcess_ofProcess rfl _
  have hdriven : Driven Builder.diamond (.waiting .default ["Left", "Right"]) .null diamondTurn :=
    .ran (.ran (.advanced hmade (by decide))
      ⟨by decide, ⟨.task .user, "right", some "Right", none⟩, by decide, ⟨.user, rfl⟩, rfl,
        by decide⟩ (by decide))
      ⟨by decide, ⟨.task .user, "left", some "Left", none⟩, by decide, ⟨.user, rfl⟩, rfl,
        by decide⟩ (by decide)
  obtain ⟨hreply, -, -, -, hfinished⟩ :=
    hdriven.completes Builder.forkJoin_diamond Builder.waits_diamond
  exact ⟨by decide, hreply, hfinished.mpr (by decide)⟩

end Engine

end Workflow
