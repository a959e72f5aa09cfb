import Workflow.Proofs.Engine.Joins
import Workflow.Proofs.Engine.Errands

/-!
# Gateways run when their joins hold

An arrival enters a gateway only when its join holds, and pauses it otherwise.  Tokens of arrival
are taken and never given back while the gateway is live, so the join holds from then on.  Only a
takeover enters an activity in another way, and it may enter a gateway at which a branch is missing.
So where no handler takes a boundary event, every live gateway that is entered or started has a join
that holds (`History.Gated`): the invariant is kept by whatever a handler does
(`Step.gated_perform`), by a dispatch, and by every call (`Engine.RunsWithin.gated`).
-/

namespace Workflow

namespace Gateway

variable {w w' : Gateway}

/-- Only the kind and the tokens of arrival matter to a join. -/
theorem joinSatisfied_congr (hkind : w'.kind = w.kind) (hincoming : w'.incoming = w.incoming) :
    w'.joinSatisfied = w.joinSatisfied := by
  unfold joinSatisfied
  rw [hkind, hincoming]

/-- A split does not change the tokens of arrival. -/
theorem incoming_afterSplit (w : Gateway) : w.afterSplit.incoming = w.incoming := by
  unfold afterSplit
  split <;> rfl

/-- A choice of an outgoing edge changes neither the kind nor the tokens of arrival. -/
theorem joinSatisfied_takeOutgoing {operation : Operation} {key : String}
    {target : Option (Option EdgeRefs)} (h : w.takeOutgoing operation key target = .ok w') :
    w'.joinSatisfied = w.joinSatisfied := by
  unfold takeOutgoing at h
  split at h
  · cases h
  · cases h
  · cases h; rfl
  · cases h; exact joinSatisfied_congr rfl rfl

/-- A join that holds goes on to hold when a token of arrival is taken. -/
theorem joinSatisfied_takeIncoming (accepts : Token → Bool) (h : w.joinSatisfied = true) :
    (w.takeIncoming accepts).joinSatisfied = true := by
  have hrecords : Document.records (w.takeIncoming accepts).incoming =
      updateFirst accepts Token.take (Document.records w.incoming) := by
    unfold takeIncoming
    cases w.incoming with
    | none => rfl
    | some ts => exact OneOrMany.toList_updateFirst accepts Token.take ts
  have hsome : w.incoming ≠ none → (w.takeIncoming accepts).incoming ≠ none := by
    unfold takeIncoming
    cases w.incoming with
    | none => exact fun h => absurd rfl h
    | some ts => exact fun _ => Option.some_ne_none _
  have hall : Tokens.allTaken w.incoming = true →
      Tokens.allTaken (w.takeIncoming accepts).incoming = true := by
    rw [Tokens.allTaken_iff, Tokens.allTaken_iff, hrecords]
    exact fun ⟨hne, htaken⟩ => ⟨hsome hne, forall_updateFirst htaken fun _ _ _ => rfl⟩
  have hany : Tokens.anyTaken w.incoming = true →
      Tokens.anyTaken (w.takeIncoming accepts).incoming = true := by
    rw [Tokens.anyTaken_iff, Tokens.anyTaken_iff, hrecords]
    exact fun hexists => exists_updateFirst hexists fun _ _ => rfl
  have hkind : (w.takeIncoming accepts).kind = w.kind := rfl
  unfold joinSatisfied at h ⊢
  rw [hkind]
  split at h
  · exact hany h
  · exact hall h
  · exact hall h
  · rfl

end Gateway

namespace Activity

variable {a b : Activity} {now : Instant}

/-- Whether the join holds if the activity is a gateway. -/
def Joined (a : Activity) : Prop := ∀ w, a.kind = .gateway w → w.joinSatisfied = true

/-- Whether the join holds if the activity is a gateway that is entered or started. -/
def Gated (a : Activity) : Prop :=
  a.status = some .entered ∨ a.status = some .started → a.Joined

/-- A change of the gateway part that lets the join hold on. -/
theorem Joined.mapGateway (h : a.Joined) {f : Gateway → Gateway}
    (keeps : ∀ w, w.joinSatisfied = true → (f w).joinSatisfied = true) :
    (a.mapGateway f).Joined := by
  unfold Activity.mapGateway
  split
  · next w hw =>
    intro w' hw'
    cases hw'
    exact keeps w (h w hw)
  · exact h

/-- A change of the boundary event is none of the gateway part. -/
theorem Joined.mapBoundary (h : a.Joined) (f : BoundaryEvent → BoundaryEvent) :
    (a.mapBoundary f).Joined := by
  unfold Activity.mapBoundary
  split
  · exact fun w hw => nomatch hw
  · exact h

/-- An edit lets the join hold on. -/
theorem Joined.edit (h : a.Joined) {edit : Edit} (hb : a.edit now edit = .ok b) : b.Joined := by
  cases edit with
  | setStatus s => cases hb; exact h
  | setBoundary s => cases hb; exact h.mapBoundary _
  | takeIncoming accepts =>
    cases hb
    exact h.mapGateway fun w hw => w.joinSatisfied_takeIncoming accepts hw
  | chooseOutgoing operation key target =>
    simp only [Activity.edit] at hb
    split at hb
    · next w hw =>
      split at hb
      · next w' hw' =>
        cases hb
        intro w'' hw''
        cases hw''
        rw [Gateway.joinSatisfied_takeOutgoing hw']
        exact h w hw
      · cases hb
    · cases hb; exact h
  | split =>
    cases hb
    refine h.mapGateway fun w hw => ?_
    rwa [Gateway.joinSatisfied_congr w.kind_afterSplit w.incoming_afterSplit]
  | routes =>
    cases hb
    refine h.mapGateway fun w hw => ?_
    rw [if_pos hw]
    rwa [Gateway.joinSatisfied_congr w.kind_afterSplit w.incoming_afterSplit]
  | refreshOutgoing =>
    cases hb
    exact h.mapGateway fun w hw => (Gateway.joinSatisfied_congr rfl rfl).trans hw

/-- After an arrival a gateway is entered only if its join holds. -/
theorem gated_arrive (a : Activity) (route : List String) (now : Instant) :
    (a.arrive route now).1.Gated := by
  unfold arrive
  cases hk : a.kind with
  | task t =>
    intro _ w hw
    have hkind : (a.mapBoundary (·.set .entered now)).kind = .gateway w := hw
    rw [Activity.mapBoundary, hk] at hkind
    cases hkind
  | event e => intro _ w hw; rw [show a.kind = .gateway w from hw] at hk; cases hk
  | gateway g =>
    dsimp only
    split
    · next hcomplex =>
      -- A complex gateway does not wait.
      intro _ w hw
      cases hw
      rw [Gateway.joinSatisfied, hcomplex]
    · intro hstatus w hw
      cases hw
      rw [status_set] at hstatus
      by_contra hwaits
      rw [if_neg hwaits] at hstatus
      simp at hstatus

/-- A finished activity whose join holds goes on. -/
theorem Joined.routes_ne_none (h : a.Joined) : a.routes? ≠ none := by
  unfold routes?
  split
  · next w hw =>
    rw [Gateway.routes?, if_pos (h w hw)]
    exact Option.some_ne_none _
  · exact Option.some_ne_none _

end Activity

namespace History

variable {h : History} {a : Activity}

/-- Whether the joins of all live gateways that are entered or started hold. -/
def Gated (h : History) : Prop := ∀ a ∈ h.head, a.Gated

/-- Writing an activity back whose join holds. -/
theorem Gated.writeBack (hh : h.Gated) (ha : a.Gated) : (h.writeBack a).Gated :=
  forall_updateFirst hh fun _ _ _ => ha

/-- Logging an activity. -/
theorem Gated.retire (hh : h.Gated) (a : Activity) : (h.retire a).Gated :=
  fun b hb => hh b (List.mem_of_mem_filter hb)

/-- Following a route, also when a target refuses. -/
theorem Gated.onward (hh : h.Gated) (g : Graph) (route : List String) (a : Activity)
    (now : Instant) : (h.onward g route a now).Gated :=
  forall_onward (fun b _ => b.gated_arrive route now)
    (fun _ d _ => (d.instantiate now).gated_arrive route now) (hh.retire a)

end History

namespace Step

variable {st st' : Step} {action : Action}

/-- Whether a step is on a gated history, with an activity to work on whose join holds. -/
structure Gated (st : Step) : Prop where
  /-- The history is gated. -/
  history : st.history.Gated
  /-- The join of the activity holds, whatever its status. -/
  activity : st.activity.Joined

/-- An action other than a takeover keeps a step gated. -/
theorem gated_perform (stays : action ≠ .takeBoundaryEvent) (h : st.perform action = .ok st')
    (hst : st.Gated) : st'.Gated := by
  rcases perform_cases h with ⟨edit, a, ha, rfl, -⟩ | ⟨htakes, -⟩ | ⟨-, rfl⟩
  · exact ⟨hst.history, hst.activity.edit ha⟩
  · exact absurd htakes stays
  · -- A stopped activity is neither entered nor started.
    refine ⟨fun a ha => ?_, hst.activity⟩
    obtain ⟨a', ha', rfl⟩ := List.mem_map.mp ha
    split
    · exact hst.history a' ha'
    · intro hstatus
      simp at hstatus

end Step

namespace Engine

variable {σ : Type} {p : Document} {e : Engine σ}

/-- Whether the history of an engine is gated, and no registered handler takes over. -/
structure Gated (e : Engine σ) : Prop where
  /-- The history is gated. -/
  history : e.history.Gated
  /-- Registered handlers take no boundary event. -/
  handlers : ∀ table, e.handlers = some table → ∀ handler, table.Has handler →
    handler.Within (· ≠ .takeBoundaryEvent)

/-- The conclusion of an activity whose join holds keeps the history gated. -/
theorem conclude_gated (he : e.history.Gated) (g : Graph) {a : Activity} (ha : a.Joined)
    (now : Instant) : (e.conclude g a now).1.history.Gated := by
  rcases conclude_history e g a now with h | ⟨-, h⟩ | ⟨-, -, h⟩ | ⟨route, a', -, -, h⟩
  · rw [h]; exact he
  · rw [h]; exact he.retire a
  · rw [h]; exact he.writeBack fun _ => ha
  · rw [h]; exact he.onward g route a' now

/-- A handler that does not take over is given a step whose activity has a join that holds, and
leaves it so. -/
theorem Gated.worked (he : e.Gated) {g : Graph} {id : String} {found : Activity}
    (hrun : e.toRun id = .ok (g, found)) {handler : Handler σ}
    (within : handler.Within (· ≠ .takeBoundaryEvent)) (payload : Json) (memory : σ)
    (now : Instant) :
    (e.opened g found now).Gated ∧ (e.worked g found handler payload memory now).Gated := by
  obtain ⟨-, hfound, hentered⟩ := toRun_ok_iff.mp hrun
  have hstatus : found.status = some .entered := eq_of_beq hentered
  have hjoined : found.Joined := he.history found (History.headById?_some hfound).1 (.inl hstatus)
  have hopened : (e.opened g found now).Gated := ⟨he.history, hjoined⟩
  have hreach := e.reaches_worked g found within payload memory now
  exact ⟨hopened, hreach.keeps (fun _ _ _ stays done => Step.gated_perform stays done) hopened⟩

/-- A dispatch with a handler that does not take over keeps the engine gated. -/
theorem Gated.dispatch (he : e.Gated) (id : String) (origin : Origin) {handler : Handler σ}
    (within : handler.Within (· ≠ .takeBoundaryEvent)) (payload : Json) (memory : σ)
    (now : Instant) : (e.dispatch id origin handler payload memory now).engine.Gated := by
  have hhandlers := (dispatch_frame e id origin handler payload memory now).2
  refine ⟨?_, by rw [hhandlers]; exact he.handlers⟩
  cases hrun : e.toRun id with
  | error err => rw [dispatch_refused hrun]; exact he.history
  | ok r =>
    obtain ⟨g, found⟩ := r
    obtain ⟨-, hst⟩ := he.worked hrun within payload memory now
    have hleft : (e.leave (e.worked g found handler payload memory now)).history.Gated :=
      hst.history.writeBack fun _ => hst.activity
    rcases dispatch_ran hrun origin handler payload memory now rfl with ⟨_, _, h⟩ | ⟨_, _, h⟩
    · rw [h]; exact hleft
    · rw [h]; exact conclude_gated hleft g hst.activity now

/-- The start event of a compiled process is no gateway. -/
theorem joined_start {g : Graph} (h : p.compile = .ok g) (now : Instant) :
    (g.start.instantiate now).Joined := by
  obtain ⟨r, -, -, -, -, rfl⟩ := Document.compile_ok_iff.mp h
  intro w hw
  cases hw

/-- As long as no handler takes over, the engine is gated. -/
theorem RunsWithin.isGated (h : e.RunsWithin (· ≠ .takeBoundaryEvent) p) : e.Gated := by
  induction h with
  | made within h =>
    obtain ⟨g, hg, -, hhistory, hhandlers, -⟩ := withProcess_ok h
    refine ⟨?_, fun table htable => ?_⟩
    · rw [hhistory]
      exact List.forall_mem_singleton.mpr fun _ => joined_start hg _
    · rw [hhandlers] at htable
      cases htable
      exact within
  | called before c within ih =>
    exact after_keeps (fun handler => handler.Within (· ≠ .takeBoundaryEvent))
      (fun _ _ he hserves =>
        within_of_serves (fun _ => Step.Action.noConfusion) he.handlers hserves)
      (fun _ id origin _ payload memory now he hmay =>
        he.dispatch id origin hmay payload memory now)
      (fun _ _ _ he => ⟨he.history, he.handlers⟩) ih within
  | editedById before may h ih => exact may.elim
  | editedByName before may h ih => exact may.elim

/-- No gateway runs before its join holds.  As long as no handler takes over, the join of every live
gateway that is entered or started holds, between calls and between the rounds of a call.  So in
every round, whether it fails or not, the handler is given a gateway only if its join holds, and the
activity that it leaves goes on along a route if it has finished. -/
theorem RunsWithin.gated (h : e.RunsWithin (· ≠ .takeBoundaryEvent) p) :
    (∀ a ∈ e.history.head, a.status = some .entered ∨ a.status = some .started →
      ∀ w, a.kind = .gateway w → w.joinSatisfied = true) ∧
    ∀ (errand : Errand σ) (payload : Json) (memory : σ) (o : Occasion),
      (∀ id handler, errand = .execute id handler → handler.Within (· ≠ .takeBoundaryEvent)) →
      ∃ rounds, (e.turn errand payload memory o).Comprises o.now e payload memory rounds ∧
        ∀ r ∈ rounds, r.engine.history.Gated ∧ ∃ g, r.engine.graph = some g ∧
          (∀ w, (r.engine.opened g r.activity o.now).activity.kind = .gateway w →
            w.joinSatisfied = true) ∧
          (r.step g o.now).activity.routes? ≠ none := by
  have he := h.isGated
  refine ⟨he.history, fun errand payload memory o hgiven => ?_⟩
  obtain ⟨rounds, hcomprises, hgoverns, -⟩ :=
    turn_rounds h.arises.agrees errand payload memory o
  have hwithin : ∀ r ∈ rounds, r.invocation.handler.Within (· ≠ .takeBoundaryEvent) := by
    intro r hr
    rcases serves_of_governs hgoverns r hr with hserves | ⟨id, hexecute⟩
    · exact within_of_serves (fun _ => Step.Action.noConfusion) he.handlers hserves
    · exact hgiven id _ hexecute
  obtain ⟨-, hrounds⟩ := hcomprises.plays.keeps (P := Gated)
    (fun r hr hgated => hgated.dispatch _ _ (hwithin r hr) _ _ _) he
  refine ⟨rounds, hcomprises, fun r hr => ?_⟩
  obtain ⟨⟨g, hrun⟩, hgated⟩ := hrounds r hr
  obtain ⟨hopened, hleft⟩ := hgated.worked hrun (hwithin r hr) r.invocation.payload r.memory o.now
  exact ⟨hgated.history, g, (toRun_ok_iff.mp hrun).1, hopened.activity,
    hleft.activity.routes_ne_none⟩

/-- An engine for the process with two branches, whose tasks and join wait to be run. -/
def manned : Engine Unit :=
  ofProcess Builder.diamond.build (.waiting .default ["Left", "Right", "Join"])

/-- The engine after both branches have arrived at the join. -/
def gathered : Engine Unit :=
  ((manned.after (.advance .null () ⟨.epoch, 9⟩)).after (.run "Right" .null () ⟨.epoch, 9⟩)).after
    (.run "Left" .null () ⟨.epoch, 9⟩)

/-- The join is entered and holds, and it is given to its handler so. -/
theorem gated_gathered :
    (∃ a ∈ gathered.history.head, a.id = "join" ∧ a.isEntered = true ∧
      ∃ w, a.kind = .gateway w ∧ w.joinSatisfied = true) ∧
    ∃ rounds, (gathered.turn (.run "Join") .null () ⟨.epoch, 9⟩).Comprises .epoch gathered .null ()
        rounds ∧
      rounds.map (·.activity.id) = ["join", "end"] ∧
      ∀ r ∈ rounds, ∃ g, r.engine.graph = some g ∧ (r.step g .epoch).activity.routes? ≠ none := by
  have hdefault : (Handler.default : Handler Unit).Within (· ≠ .takeBoundaryEvent) :=
    Handler.within_default fun _ => Step.Action.noConfusion
  have hmade : manned.RunsWithin (· ≠ .takeBoundaryEvent) Builder.diamond.build :=
    .made (fun handler h => HandlerTable.eq_of_has_waiting h ▸ hdefault) rfl
  have hruns : gathered.RunsWithin (· ≠ .takeBoundaryEvent) Builder.diamond.build :=
    .called (.called (.called hmade _ fun _ h => by cases h) _ fun _ h => by cases h) _
      fun _ h => by cases h
  obtain ⟨hheld, hserved⟩ := RunsWithin.gated hruns
  obtain ⟨join, hjoin, hid, hentered, w, hw⟩ : ∃ a ∈ gathered.history.head, a.id = "join" ∧
      a.isEntered = true ∧ ∃ w, a.kind = .gateway w :=
    ⟨_, List.mem_singleton_self _, rfl, rfl, _, rfl⟩
  obtain ⟨rounds, hcomprises, hrounds⟩ := hserved (.run "Join") .null () ⟨.epoch, 9⟩
    fun _ _ h => nomatch h
  have hids : rounds.map (·.activity.id) = ["join", "end"] := by
    have hcalls : (gathered.turn (.run "Join") .null () ⟨.epoch, 9⟩).invocations.map
        (·.activity.id) = ["join", "end"] := rfl
    rw [hcomprises.invocations, List.map_map] at hcalls
    exact hcalls
  refine ⟨⟨join, hjoin, hid, hentered, w, hw, hheld join hjoin (.inl (eq_of_beq hentered)) w hw⟩,
    rounds, hcomprises, hids, fun r hr => ?_⟩
  obtain ⟨-, g, hgraph, -, hroutes⟩ := hrounds r hr
  exact ⟨g, hgraph, hroutes⟩

end Engine

end Workflow
