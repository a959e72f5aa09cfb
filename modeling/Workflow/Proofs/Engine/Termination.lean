import Workflow.Proofs.Engine.Rounds
import Workflow.Proofs.Engine.Takeover
import Workflow.Proofs.Graph.Acyclic

/-!
# Calls that end

Going forward runs one activity after another, for ever if the flow leads back to where it was.  In
a process without cycles it ends, whatever the handlers do (`Engine.ends_of_acyclic`): they may take
boundary events, enter their own activity again, or fail.

What is left to do is measured by the weights of the activities that wait to be run and are not
settled (`Engine.workLeft`).  A dispatch wakes only activities to which the one that runs leads
(`Engine.dispatch_wakes`), and that one does not wait any more or is settled.  It outweighs all that
it wakes, so less is left after every dispatch that does not end the call
(`Engine.workLeft_dispatch`).
-/

namespace Workflow

/-! ## What a dispatch wakes -/

/-- The route of a finished instance is to activities to which it leads. -/
theorem Graph.WellFormed.leads_of_routes {g : Graph} (hg : g.WellFormed) {a a' : Activity}
    {route : List String} (ha : g.Defines a) (hr : a.routes? = some (route, a')) :
    ∀ target ∈ g.targetIds route, g.Leads a.id target := by
  intro target htarget
  obtain ⟨f, hf, hid, rfl⟩ := Graph.exists_edge_of_mem_targetIds htarget
  exact ⟨a.blank, ha, .inl ⟨f, hf, hg.routes_subset ha hr f.id hid, rfl⟩⟩

namespace Engine

variable {σ : Type} {p : Document} {g : Graph} {e : Engine σ} {settled : List String}
  {id : String} {now : Instant}

/-- A dispatch wakes at most the activity that runs and those to which it leads. -/
theorem dispatch_wakes (hg : g.WellFormed) (built : e.graph = some g)
    (agrees : e.history.Agrees g) (id : String) (origin : Origin) (handler : Handler σ)
    (payload : Json) (memory : σ) (now : Instant) :
    e.history.Wakes (fun v => v = id ∨ g.Leads id v)
      (e.dispatch id origin handler payload memory now).engine.history := by
  rcases dispatch_cases e id origin handler.within_all payload memory now with
    h | ⟨graph, found, st, hgraph, hfound, -, hreach, h⟩
  · rw [h]; exact .refl _ e.history
  · obtain rfl : g = graph := Option.some.inj (built.symm.trans hgraph)
    obtain ⟨hlive, hid⟩ := History.headById?_some hfound
    have hdefines : g.Defines found := agrees.live found hlive
    have hblank : st.activity.blank = found.blank :=
      hreach.frame.2.2.2.trans (found.blank_set .started now)
    have hst : st.activity.id = id := (Activity.id_eq_of_blank hblank).trans hid
    -- While the handler works, at most the targets of the boundary event come to wait.
    have hworked : e.history.Wakes (fun v => v = id ∨ g.Leads id v) st.history := by
      refine hreach.wakes fun b hb f hf => .inr ?_
      obtain ⟨hedge, hsource⟩ := List.mem_filter.mp hf
      rw [← hid]
      exact ⟨found.blank, hdefines, .inr ⟨b, hb, f, hedge, eq_of_beq hsource, rfl⟩⟩
    have hleft : e.history.Wakes (fun v => v = id ∨ g.Leads id v) (e.leave st).history :=
      hworked.trans (History.wakes_writeBack (.inl hst))
    rcases h with h | h
    · rw [h]; exact hleft
    · rw [h]
      rcases conclude_history (e.leave st) g st.activity now with
        h | ⟨-, h⟩ | ⟨-, -, h⟩ | ⟨route, a', -, hr, h⟩
      · rw [h]; exact hleft
      · rw [h]; exact hleft.trans (History.wakes_retire _ _ _)
      · rw [h]; exact hleft.trans (History.wakes_writeBack (.inl hst))
      · rw [h]
        refine hleft.trans (History.wakes_onward fun target htarget => .inr ?_)
        rw [← hst]
        exact hg.leads_of_routes (hdefines.of_blank hblank) hr target htarget

/-! ## What is left to do -/

section WorkLeft

open scoped Classical

/-- The activities of a process that wait to be run and are not settled. -/
noncomputable def pending (g : Graph) (e : Engine σ) (settled : List String) : Finset String :=
  (g.activities.map (·.id)).toFinset.filter fun id => e.history.Awake id ∧ id ∉ settled

/-- What is left to do before everything that waits is settled. -/
noncomputable def workLeft (g : Graph) (e : Engine σ) (settled : List String) : ℕ :=
  ∑ id ∈ e.pending g settled, g.weight id

/-- What is pending is known to the process, waits, and is not settled. -/
theorem mem_pending : id ∈ e.pending g settled ↔
    id ∈ g.activities.map (·.id) ∧ e.history.Awake id ∧ id ∉ settled := by
  unfold pending
  rw [Finset.mem_filter, List.mem_toFinset]

/-- Less is left to do than the bound of the process. -/
theorem workLeft_lt_bound (g : Graph) (e : Engine σ) (settled : List String) :
    e.workLeft g settled < g.bound :=
  Graph.sum_weight_lt_bound (Finset.filter_subset _ _)

end WorkLeft

/-- What waits is known to the process. -/
theorem mem_ids_of_awake (agrees : e.history.Agrees g) (h : e.history.Awake id) :
    id ∈ g.activities.map (·.id) := by
  obtain ⟨a, ha, -⟩ := h
  obtain ⟨hmem, rfl⟩ := History.headById?_some ha
  exact List.mem_map.mpr ⟨a.blank, (Graph.activity?_some (agrees.live a hmem)).1, rfl⟩

/-- What goes forward and answers a payload was pending. -/
theorem mem_pending_of_dispatch (agrees : e.history.Agrees g) {choice : Choice (Handler σ)}
    (hnext : e.nextAutomatic? settled = some (id, choice)) {payload value : Json} {memory : σ}
    (hok : (e.dispatch id choice.origin choice.handler payload memory now).reply = .ok value) :
    id ∈ e.pending g settled := by
  obtain ⟨table, a, -, -, -, -, hnot, -⟩ := exists_of_nextAutomatic hnext
  -- Several live activities may have the id, and the one that runs is the first of them.
  obtain ⟨graph, found, hrun, -⟩ := dispatch_ok hok
  obtain ⟨-, hfound, hentered⟩ := toRun_ok_iff.mp hrun
  have hawake : e.history.Awake id := ⟨found, hfound, hentered⟩
  exact mem_pending.mpr ⟨mem_ids_of_awake agrees hawake, hawake, hnot⟩

/-- After a dispatch nothing is pending but what was pending before, less the activity that ran, and
the activities to which it leads. -/
theorem pending_dispatch_subset (hg : g.WellFormed) (built : e.graph = some g)
    (agrees : e.history.Agrees g) (id : String) (origin : Origin) (handler : Handler σ)
    (payload : Json) (memory : σ) (now : Instant) {e' : Engine σ}
    (he' : e' = (e.dispatch id origin handler payload memory now).engine) :
    e'.pending g (e'.settle settled id) ⊆ (e.pending g settled).erase id ∪ g.successors id := by
  have hwakes := dispatch_wakes hg built agrees id origin handler payload memory now
  rw [← he'] at hwakes
  intro v hv
  obtain ⟨hknown, hawake, hnot⟩ := mem_pending.mp hv
  have hne : v ≠ id := by
    rintro rfl
    exact hnot (mem_settle_iff.mpr (.inr ⟨rfl, hawake⟩))
  rw [Finset.mem_union, Finset.mem_erase]
  rcases hwakes v hawake with hbefore | rfl | hlead
  · have hopen : v ∉ settled := fun h => hnot (mem_settle_iff.mpr (.inl h))
    exact .inl ⟨hne, mem_pending.mpr ⟨hknown, hbefore, hopen⟩⟩
  · exact absurd rfl hne
  · exact .inr (Graph.mem_successors.mpr hlead)

/-- Less is left to do after a dispatch of a pending activity. -/
theorem workLeft_dispatch (hg : g.WellFormed) (acyclic : g.Acyclic) (built : e.graph = some g)
    (agrees : e.history.Agrees g) (hid : id ∈ e.pending g settled) (origin : Origin)
    (handler : Handler σ) (payload : Json) (memory : σ) (now : Instant) {e' : Engine σ}
    (he' : e' = (e.dispatch id origin handler payload memory now).engine) :
    e'.workLeft g (e'.settle settled id) < e.workLeft g settled := by
  have hsubset : e'.pending g (e'.settle settled id) ⊆
      (e.pending g settled).erase id ∪ g.successors id :=
    pending_dispatch_subset hg built agrees id origin handler payload memory now he'
  calc e'.workLeft g (e'.settle settled id)
      ≤ ∑ v ∈ (e.pending g settled).erase id ∪ g.successors id, g.weight v :=
        Finset.sum_le_sum_of_subset hsubset
    _ ≤ ∑ v ∈ (e.pending g settled).erase id, g.weight v + ∑ v ∈ g.successors id, g.weight v := by
        rw [← Finset.sum_union_inter]
        exact Nat.le_add_right _ _
    _ < ∑ v ∈ (e.pending g settled).erase id, g.weight v + g.weight id :=
        Nat.add_lt_add_left (Graph.sum_weight_lt acyclic id) _
    _ = e.workLeft g settled := Finset.sum_erase_add _ _ hid

/-! ## Calls -/

/-- Going forward answers something else than that there is more to do, where the limit exceeds what
is left to do. -/
theorem forward_ends (hg : g.WellFormed) (acyclic : g.Acyclic) (built : e.graph = some g)
    (agrees : e.history.Agrees g) {limit : ℕ} (enough : e.workLeft g settled < limit)
    (payload : Json) (memory : σ) :
    (forward now limit settled e payload memory).reply ≠ .unfinished := by
  -- Each dispatch takes one from the limit, and at least one from what is left to do.
  induction limit generalizing settled e payload memory with
  | zero => exact absurd enough (Nat.not_lt_zero _)
  | succ limit ih =>
    unfold forward
    split
    · intro hreply
      cases hreply
    · next hlimit => cases hlimit
    · next id choice n hsome hlimit =>
      obtain rfl : limit = n := Nat.succ.inj hlimit
      obtain ⟨-, hnext⟩ := Option.ite_none_right_eq_some.mp hsome
      dsimp only
      split
      · intro hreply
        cases hreply
      · next value hok =>
        have hless := workLeft_dispatch hg acyclic built agrees
          (mem_pending_of_dispatch agrees hnext hok) choice.origin choice.handler payload memory now
          rfl
        obtain ⟨hbuilt, hagrees⟩ := dispatch_kept (History.kept_agrees hg) hg built agrees id
          choice.origin choice.handler payload memory now
        exact ih hbuilt hagrees (by omega) value _

/-- A higher limit makes no difference where going forward has ended. -/
theorem forward_of_le {limit limit' : ℕ} {payload : Json} {memory : σ}
    (h : (forward now limit settled e payload memory).reply ≠ .unfinished)
    (hle : limit ≤ limit') :
    forward now limit' settled e payload memory = forward now limit settled e payload memory := by
  induction limit generalizing limit' settled e payload memory with
  | zero =>
    cases hnext : e.upcoming? settled with
    | none => rw [forward_of_none hnext, forward_of_none hnext]
    | some r =>
      unfold upcoming? at hnext
      rw [forward.eq_def, hnext] at h
      exact absurd rfl h
  | succ limit ih =>
    obtain ⟨m, rfl⟩ : ∃ m, limit' = m + 1 := ⟨limit' - 1, by omega⟩
    cases hnext : e.upcoming? settled with
    | none => rw [forward_of_none hnext, forward_of_none hnext]
    | some r =>
      obtain ⟨id, choice⟩ := r
      rw [forward_of_some hnext] at h
      rw [forward_of_some hnext, forward_of_some hnext]
      unfold Dispatched.followed at h ⊢
      split
      · rfl
      · next value hok =>
        simp only [hok] at h
        simp only [ih h (show limit ≤ m by omega)]

/-- Whether a call ends by itself: from a limit of `n` handlers on it leaves the same whatever the
limit, and there is nothing more to do. -/
def EndsWithin (n : ℕ) (call : ℕ → Turn σ) : Prop :=
  ∃ turn, turn.reply ≠ .unfinished ∧ ∀ limit, n ≤ limit → call limit = turn

/-- A call that runs nothing while it goes forward ends. -/
theorem endsWithin_const {n : ℕ} {turn : Turn σ} (h : turn.reply ≠ .unfinished) :
    EndsWithin n fun _ => turn :=
  ⟨turn, h, fun _ _ => rfl⟩

section Acyclic

variable (hg : g.WellFormed) (acyclic : g.Acyclic) (built : e.graph = some g)
  (agrees : e.history.Agrees g)

include hg acyclic built agrees

/-- Going forward ends. -/
theorem endsWithin_forward (settled : List String) (payload : Json) (memory : σ) (now : Instant) :
    EndsWithin g.bound fun limit => forward now limit settled e payload memory := by
  have hends : (forward now g.bound settled e payload memory).reply ≠ .unfinished :=
    forward_ends hg acyclic built agrees (workLeft_lt_bound g e settled) payload memory
  exact ⟨_, hends, fun limit hle => forward_of_le hends hle⟩

/-- Running one activity and going forward ends. -/
theorem endsWithin_runWith (id : String) (origin : Origin) (handler : Handler σ) (payload : Json)
    (memory : σ) (now : Instant) :
    EndsWithin g.bound fun limit => e.runWith id origin handler payload memory ⟨now, limit⟩ := by
  unfold runWith
  cases e.isIn .finished with
  | true => exact endsWithin_const nofun
  | false =>
    cases e.checkStarted with
    | error err => exact endsWithin_const nofun
    | ok u =>
      cases hreply : (e.dispatch id origin handler payload memory now).reply with
      | error err =>
        simp only [hreply]
        exact endsWithin_const nofun
      | ok value =>
        obtain ⟨hbuilt, hagrees⟩ := dispatch_kept (History.kept_agrees hg) hg built agrees id
          origin handler payload memory now
        obtain ⟨turn, hturn, hsame⟩ := endsWithin_forward hg acyclic hbuilt hagrees [] value
          (e.dispatch id origin handler payload memory now).memory now
        simp only [hreply]
        let d := e.dispatch id origin handler payload memory now
        refine ⟨{ turn with invocations := d.invocations ++ turn.invocations }, hturn, ?_⟩
        intro limit hle
        simp only [← hsame limit hle]
        rfl

end Acyclic

/-- In a process without cycles every call ends, whatever the handlers do: going forward, from
whatever is settled, and with it every advance, every run by name, and every run with a handler that
the caller brings. -/
theorem ends_of_acyclic (compiled : p.compile = .ok g) (acyclic : g.Acyclic)
    (built : e.graph = some g) (agrees : e.history.Agrees g) (payload : Json) (memory : σ)
    (now : Instant) :
    (∀ settled, EndsWithin g.bound fun limit => forward now limit settled e payload memory) ∧
      (EndsWithin g.bound fun limit => e.advance payload memory ⟨now, limit⟩) ∧
      (∀ name, EndsWithin g.bound fun limit => e.run name payload memory ⟨now, limit⟩) ∧
      ∀ id handler, EndsWithin g.bound fun limit =>
        e.execute id handler payload memory ⟨now, limit⟩ := by
  have hg := Document.wellFormed_of_compile compiled
  refine ⟨fun settled => endsWithin_forward hg acyclic built agrees settled payload memory now,
    ?_, fun name => ?_,
    fun id handler => endsWithin_runWith hg acyclic built agrees id .given handler payload memory
      now⟩
  · unfold advance
    cases e.isIn .finished with
    | true => exact endsWithin_const nofun
    | false =>
      cases e.checkStarted with
      | error err => exact endsWithin_const nofun
      | ok u => exact endsWithin_forward hg acyclic built agrees [] payload memory now
  · unfold run
    cases e.isIn .finished with
    | true => exact endsWithin_const nofun
    | false =>
      cases e.history.headByName? name with
      | none => exact endsWithin_const nofun
      | some a => exact endsWithin_runWith hg acyclic built agrees a.id _ _ payload memory now

end Engine

/-! ## A task that is live twice -/

namespace Escalation

/-- The place of each node of the process in which a boundary event leads to a join. -/
def rank (id : String) : ℕ := ["start", "fork", "work", "audit", "sync", "end"].idxOf id

/-- That process has no cycles. -/
theorem acyclic : graph.Acyclic :=
  Graph.acyclic_of_rank rank (by decide) (by decide)

/-- An engine for the process that was restored from records in which the task is live twice. -/
def doubled : Engine Unit :=
  ((engine.restore ⟨audited.course, [work, sync, work], []⟩).toOption).getD engine

/-- Its calls end. -/
theorem ends_of_acyclic_doubled :
    doubled.history.head.map (·.id) = ["work", "sync", "work"] ∧
      Engine.EndsWithin graph.bound
        (fun limit => doubled.execute "work" .default .null () ⟨.epoch, limit⟩) := by
  have hcompiled : process.build.compile = .ok graph := rfl
  have hrestored : engine.restore ⟨audited.course, [work, sync, work], []⟩ = .ok doubled := rfl
  obtain ⟨hbuilt, hagrees⟩ :=
    Engine.agrees_restore (Document.wellFormed_of_compile hcompiled) rfl hrestored
  obtain ⟨-, -, -, hexecute⟩ :=
    Engine.ends_of_acyclic hcompiled acyclic hbuilt hagrees .null () .epoch
  exact ⟨rfl, hexecute "work" .default⟩

end Escalation

end Workflow
