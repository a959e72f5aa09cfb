import Workflow.Proofs.History.Coherent

/-!
# What the log records

A handler may set any status at any time, and the default policy finishes a gateway with a bare
outgoing edge whatever has arrived.  What is logged is legal all the same.  A status is never set
without its stamp, so a live activity has been entered and has the stamp of the status it is in
(`Activity.Stamped`); only a started copy is ever logged; and a finished gateway is logged after its
join was asked once more.  So every entry has run its course (`Activity.Settled`).

The two together are kept by each operation on a history (`History.Recorded`) and by each action of
a handler (`Step.recorded_perform`).
-/

namespace Workflow

namespace Lifecycle

variable {l l' : Lifecycle} {s : Status} {now : Instant}

/-- Whether a status has been reached at some instant. -/
def Reached (l : Lifecycle) (s : Status) : Prop := (l.reachedAt s).isSome = true

/-- A status that is set has been reached. -/
theorem reached_set (l : Lifecycle) (s : Status) (now : Instant) : (l.set s now).Reached s := by
  simp [Reached, reachedAt_set]

/-- Setting a status takes back no other. -/
theorem Reached.set (h : l.Reached s) (s' : Status) (now : Instant) : (l.set s' now).Reached s := by
  unfold Reached at h ⊢
  rw [reachedAt_set]
  split
  · rfl
  · exact h

/-- Whether a lifecycle is as before, or one status has been set. -/
def Follows (l l' : Lifecycle) : Prop := l' = l ∨ ∃ s now, l' = l.set s now

/-- What has been reached before has been reached after. -/
theorem Reached.follows (h : l.Reached s) (hl : l.Follows l') : l'.Reached s := by
  rcases hl with rfl | ⟨s', now, rfl⟩
  · exact h
  · exact h.set s' now

end Lifecycle

namespace Activity

variable {a b : Activity} {now : Instant}

@[simp]
theorem lifecycle_mapGateway (f : Gateway → Gateway) (a : Activity) :
    (a.mapGateway f).lifecycle = a.lifecycle := by
  unfold mapGateway
  split <;> rfl

@[simp]
theorem lifecycle_mapBoundary (f : BoundaryEvent → BoundaryEvent) (a : Activity) :
    (a.mapBoundary f).lifecycle = a.lifecycle := by
  unfold mapBoundary
  split <;> rfl

/-- An edit sets one status at most. -/
theorem follows_edit {edit : Edit} (h : a.edit now edit = .ok b) :
    a.lifecycle.Follows b.lifecycle := by
  cases edit with
  | setStatus s => cases h; exact .inr ⟨s, now, rfl⟩
  | setBoundary s => cases h; exact .inl (lifecycle_mapBoundary _ a)
  | takeIncoming accepts => cases h; exact .inl (lifecycle_mapGateway _ a)
  | chooseOutgoing operation key target =>
    simp only [Activity.edit] at h
    split at h
    · split at h
      · cases h; exact .inl rfl
      · cases h
    · cases h; exact .inl rfl
  | split => cases h; exact .inl (lifecycle_mapGateway _ a)
  | routes => cases h; exact .inl (lifecycle_mapGateway _ a)
  | refreshOutgoing => cases h; exact .inl (lifecycle_mapGateway _ a)

/-- An arrival sets one status at most. -/
theorem follows_arrive (a : Activity) (route : List String) (now : Instant) :
    a.lifecycle.Follows (a.arrive route now).1.lifecycle := by
  unfold arrive
  cases a.kind with
  | gateway w =>
    dsimp only
    split
    · exact .inl rfl
    · exact .inr ⟨_, now, rfl⟩
  | task t => exact .inr ⟨.entered, now, congrArg (·.set .entered now) (lifecycle_mapBoundary _ a)⟩
  | event e => exact .inr ⟨.entered, now, rfl⟩

/-- A finished activity that goes on keeps its lifecycle. -/
theorem lifecycle_routes {route : List String} (h : a.routes? = some (route, b)) :
    b.lifecycle = a.lifecycle := by
  unfold routes? at h
  split at h
  · obtain ⟨r, -, heq⟩ := Option.map_eq_some_iff.mp h
    cases heq
    rfl
  · cases h; rfl

/-- Whether the activity has been entered, and its status has the stamp that goes with it. -/
structure Stamped (a : Activity) : Prop where
  /-- The activity has been entered. -/
  entered : a.lifecycle.Reached .entered
  /-- The status has been reached. -/
  status : ∀ s, a.status = some s → a.lifecycle.Reached s

/-- What has just been entered is stamped. -/
theorem stamped_of_entered {l : Lifecycle} (h : a.lifecycle = l.set .entered now) : a.Stamped := by
  have hentered : a.lifecycle.Reached .entered := h ▸ l.reached_set .entered now
  refine ⟨hentered, fun s hs => ?_⟩
  obtain rfl : .entered = s := by
    rw [Activity.status, h, Lifecycle.status_set] at hs
    exact Option.some.inj hs
  exact hentered

/-- A new live activity is stamped. -/
theorem stamped_instantiate (a : Activity) (now : Instant) : (a.instantiate now).Stamped :=
  stamped_of_entered (l := {}) rfl

/-- An activity stays stamped when one status is set at most. -/
theorem Stamped.follows (h : a.Stamped) (hl : a.lifecycle.Follows b.lifecycle) : b.Stamped := by
  refine ⟨h.entered.follows hl, fun s hs => ?_⟩
  rcases hl with hl | ⟨s', now, hl⟩
  · rw [hl]
    exact h.status s (by rw [← hs, Activity.status, Activity.status, hl])
  · obtain rfl : s' = s := by
      rw [Activity.status, hl, Lifecycle.status_set] at hs
      exact Option.some.inj hs
    rw [hl]
    exact Lifecycle.reached_set _ _ _

/-- Whether the activity has run its course: it has ended, it was entered and started before, all of
this is stamped, and a gateway has finished only with a join that holds. -/
structure Settled (a : Activity) : Prop where
  /-- The activity has finished or has been canceled. -/
  ended : a.status = some .finished ∨ a.status = some .canceled
  /-- It was entered, and its end is stamped. -/
  stamped : a.Stamped
  /-- It was started. -/
  started : a.lifecycle.Reached .started
  /-- The join of a finished gateway holds. -/
  joined : a.status = some .finished → ∀ w, a.kind = .gateway w → w.joinSatisfied = true

/-- A canceled activity has run its course if it was started. -/
theorem Stamped.canceled (h : a.Stamped) (started : a.lifecycle.Reached .started)
    (hs : a.status = some .canceled) : a.Settled :=
  ⟨.inr hs, h, started, fun hfinished => by rw [hs] at hfinished; cases hfinished⟩

/-- A finished activity that may go on has run its course if it was started. -/
theorem Stamped.finished (h : a.Stamped) (started : a.lifecycle.Reached .started)
    (hs : a.status = some .finished) {route : List String} (hr : a.routes? = some (route, b)) :
    b.Settled := by
  have hl := lifecycle_routes hr
  refine ⟨.inl ((status_routes hr).trans hs), h.follows (.inl hl), started.follows (.inl hl),
    fun _ w hw => ?_⟩
  -- The gateway part before the split, whose join was asked.
  cases hk : a.gateway? with
  | none =>
    rw [routes_of_not_gateway hk] at hr
    cases hr
    rw [gateway?_of_kind hw] at hk
    cases hk
  | some v =>
    obtain ⟨hjoin, -, rfl⟩ := routes_gateway (kind_of_gateway? hk) hr
    obtain rfl : v.afterSplit = w := Kind.gateway.inj hw
    rw [← hjoin]
    unfold Gateway.afterSplit
    split <;> rfl

end Activity

namespace History

variable {g : Graph} {h : History} {a : Activity} {now : Instant}

/-- Whether live activities are stamped and logged ones have run their course. -/
structure Recorded (h : History) : Prop where
  /-- Live activities are stamped. -/
  live : ∀ a ∈ h.head, a.Stamped
  /-- Logged ones have run their course. -/
  logged : ∀ a ∈ h.stack, a.Settled

/-- A history in which one activity has just been entered. -/
theorem recorded_start (d : Activity) (now : Instant) :
    Recorded { head := [d.instantiate now] } where
  live := fun a ha => by rw [List.mem_singleton.mp ha]; exact d.stamped_instantiate now
  logged := fun _ ha => nomatch ha

/-- Writing a stamped activity back. -/
theorem Recorded.writeBack (hr : h.Recorded) (ha : a.Stamped) : (h.writeBack a).Recorded where
  live := forall_updateFirst hr.live fun _ _ _ => ha
  logged := hr.logged

/-- Logging an activity that has run its course. -/
theorem Recorded.retire (hr : h.Recorded) (ha : a.Settled) : (h.retire a).Recorded where
  live := fun b hb => hr.live b (List.mem_of_mem_filter hb)
  logged := List.forall_mem_append.mpr ⟨hr.logged, List.forall_mem_singleton.mpr ha⟩

/-- Following a route from an activity that has run its course. -/
theorem Recorded.onward (hr : h.Recorded) (ha : a.Settled) (route : List String) (now : Instant) :
    (h.onward g route a now).Recorded where
  live := forall_onward (fun b hb => hb.follows (b.follows_arrive route now))
    (fun _ d _ => (d.stamped_instantiate now).follows (Activity.follows_arrive _ route now))
    (hr.retire ha).live
  logged := (hr.retire ha).logged

/-- Making a stamped activity live. -/
theorem Recorded.pushHead (hr : h.Recorded) (ha : a.Stamped) : (h.pushHead a).Recorded where
  live := forall_pushHead hr.live ha
  logged := by rw [stack_pushHead]; exact hr.logged

/-- A change of the first match that sets one status at most. -/
theorem Recorded.updateFirst (hr : h.Recorded) {p : Activity → Bool} {b : Activity}
    (ha : h.head.find? p = some a) (hb : a.lifecycle.Follows b.lifecycle) :
    Recorded { h with head := Workflow.updateFirst p (fun _ => b) h.head } where
  live := forall_updateFirst hr.live fun _ _ _ =>
    (hr.live a (List.mem_of_find?_eq_some ha)).follows hb
  logged := hr.logged

end History

namespace Step

variable {st st' : Step} {action : Action} {allowed : Action → Prop}

/-- A redirected activity has just been entered. -/
theorem stamped_redirected (completed : Option Activity) (definition : Activity) (edge : String)
    (now : Instant) : (redirected completed definition edge now).Stamped := by
  cases completed with
  | some previous =>
    exact Activity.stamped_of_entered (l := previous.lifecycle) (Activity.lifecycle_mapGateway _ _)
  | none => exact Activity.stamped_of_entered (l := {}) (Activity.lifecycle_mapGateway _ _)

/-- Redirections in turn keep what is recorded. -/
theorem recorded_foldl_redirectAlong (st : Step) (edge : String) (flows : List Flow) {h : History}
    (hr : h.Recorded) : (flows.foldl (st.redirectAlong edge) h).Recorded := by
  induction flows generalizing h with
  | nil => exact hr
  | cons flow flows ih =>
    refine ih ?_
    unfold redirectAlong
    split
    · exact hr
    · exact hr.pushHead (stamped_redirected _ _ _ _)

/-- Whether a step is on a recorded history, with a started activity to work on. -/
structure Recorded (st : Step) : Prop where
  /-- The history is recorded. -/
  history : st.history.Recorded
  /-- The activity is stamped. -/
  stamped : st.activity.Stamped
  /-- It was started. -/
  started : st.activity.lifecycle.Reached .started

/-- An action keeps a step recorded. -/
theorem recorded_perform (h : st.perform action = .ok st') (hst : st.Recorded) : st'.Recorded := by
  rcases perform_cases h with ⟨edit, a, ha, rfl, -⟩ | ⟨-, t, b, ht, hb, rfl⟩ | ⟨-, rfl⟩
  · have hl := Activity.follows_edit ha
    exact ⟨hst.history, hst.stamped.follows hl, hst.started.follows hl⟩
  · have hl : st.activity.lifecycle.Follows
        (st.activity.mapBoundary (·.set .finished st.now)).lifecycle :=
      .inl (Activity.lifecycle_mapBoundary _ _)
    exact ⟨recorded_foldl_redirectAlong st _ _ hst.history, hst.stamped.follows hl,
      hst.started.follows hl⟩
  · refine ⟨⟨fun a ha => ?_, hst.history.logged⟩, hst.stamped, hst.started⟩
    obtain ⟨a', ha', rfl⟩ := List.mem_map.mp ha
    have hlive := hst.history.live a' ha'
    split
    · exact hlive
    · exact hlive.follows (.inr ⟨.stopped, st.now, rfl⟩)

/-- Actions in turn keep a step recorded. -/
theorem Reaches.recorded (h : Reaches allowed st st') (hst : st.Recorded) : st'.Recorded :=
  h.keeps (fun _ _ _ _ done => recorded_perform done) hst

end Step

end Workflow
