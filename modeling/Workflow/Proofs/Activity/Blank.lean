import Workflow.Activity.Edit
import Workflow.Graph.Routing
import Workflow.Step

/-!
# Blank activities

Little of an activity changes while it is live: its status with the stamps, which tokens are taken,
and where its boundary event stands.  The *blank* activity is what remains when all of this is wiped
out.  Definitions are blank, and a live activity blanks to the definition it was made from.

The lemmas say that nothing an engine or a handler does to an activity changes its blank.  They are
stated part by part, as the operations are defined: for tokens, for gateways (`Gateway.blank_…`),
and for activities (`Activity.blank_…`), up to `Activity.blank_edit`, `Activity.blank_arrive` and
`Step.blank_redirected`.
-/

namespace Workflow

namespace OneOrMany

variable {α β : Type}

/-- A map that the change keeps on accepted values is kept by the update of the first of them. -/
theorem map_updateFirst (g : α → β) {p : α → Bool} {f : α → α}
    (keeps : ∀ a, p a = true → g (f a) = g a) (xs : OneOrMany α) :
    (xs.updateFirst p f).map g = xs.map g := by
  cases xs with
  | one a =>
    by_cases h : p a
    · simp [updateFirst, map, h, keeps a h]
    · simp [updateFirst, map, h]
  | many as => simp [updateFirst, map, Workflow.map_updateFirst g keeps as]

/-- A map after a map that it does not see. -/
theorem map_map_of_eq {γ : Type} {g : β → γ} {f : α → β} {k : α → γ} (h : ∀ a, g (f a) = k a)
    (xs : OneOrMany α) : (xs.map f).map g = xs.map k := by
  cases xs with
  | one a => simp [map, h]
  | many as => simp [map, h]

end OneOrMany

namespace Tokens

/-- The tokens with none taken. -/
def blank (ts : Option Tokens) : Option Tokens := ts.map (·.map Token.release)

/-- Taking one token is not seen in the blank. -/
theorem blank_updateFirst (accepts : Token → Bool) (ts : Option Tokens) :
    blank (ts.map (·.updateFirst accepts Token.take)) = blank ts := by
  cases ts with
  | none => rfl
  | some ts =>
    have h := OneOrMany.map_updateFirst Token.release (p := accepts) (f := Token.take)
      (fun _ _ => rfl) ts
    exact congrArg some h

/-- Blank tokens stay as they are when blanked again. -/
@[simp]
theorem blank_blank (ts : Option Tokens) : blank (blank ts) = blank ts := by
  cases ts with
  | none => rfl
  | some ts => exact congrArg some (OneOrMany.map_map_of_eq (fun _ => rfl) ts)

/-- The untaken tokens of some edges are blank. -/
@[simp]
theorem blank_ofRefs (refs : Option EdgeRefs) : blank (ofRefs refs) = ofRefs refs := by
  cases refs with
  | none => rfl
  | some refs => exact congrArg some (OneOrMany.map_map_of_eq (fun _ => rfl) refs)

/-- Tokens stand for some edges just when they blank to the untaken tokens of these edges. -/
theorem matchRefs_iff_blank {ts : Option Tokens} {refs : Option EdgeRefs} :
    matchRefs ts refs = true ↔ blank ts = ofRefs refs := by
  cases ts with
  | none => cases refs <;> simp [matchRefs, blank, ofRefs]
  | some ts => cases refs with
    | none => simp [matchRefs, blank, ofRefs]
    | some refs =>
      have hts : (ts.map Token.release).map Token.edge = ts.map Token.edge :=
        OneOrMany.map_map_of_eq (fun _ => rfl) ts
      have hrefs : (refs.map Token.fresh).map Token.edge = refs.map id :=
        OneOrMany.map_map_of_eq (fun _ => rfl) refs
      have hid : refs.map id = refs := by cases refs <;> simp [OneOrMany.map]
      have hfresh : (ts.map Token.edge).map Token.fresh = ts.map Token.release :=
        OneOrMany.map_map_of_eq (fun _ => rfl) ts
      have hedges : ts.map Token.edge = refs ↔ ts.map Token.release = refs.map Token.fresh := by
        constructor
        · intro h
          rw [← hfresh, h]
        · intro h
          rw [← hts, h, hrefs, hid]
      simpa [matchRefs, blank, ofRefs] using hedges

/-- Tokens that stand for some edges are theirs, one by one. -/
theorem edges_of_matchRefs {ts : Option Tokens} {refs : Option EdgeRefs}
    (h : matchRefs ts refs = true) :
    (Document.records ts).map Token.edge = Document.records refs := by
  cases ts with
  | none => cases refs with
    | none => rfl
    | some refs => simp [matchRefs] at h
  | some ts => cases refs with
    | none => simp [matchRefs] at h
    | some refs =>
      have hrefs : ts.map Token.edge = refs := by simpa [matchRefs] using h
      rw [← hrefs]
      exact (OneOrMany.toList_map Token.edge ts).symm

end Tokens

namespace Gateway

/-- The gateway at which nothing has arrived and nothing is chosen. -/
def blank (g : Gateway) : Gateway :=
  { g with incoming := Tokens.blank g.incoming, outgoing := Tokens.blank g.outgoing }

@[simp] theorem kind_blank (g : Gateway) : g.blank.kind = g.kind := rfl

@[simp] theorem incoming_blank (g : Gateway) : g.blank.incoming = Tokens.blank g.incoming := rfl

@[simp] theorem outgoing_blank (g : Gateway) : g.blank.outgoing = Tokens.blank g.outgoing := rfl

@[simp]
theorem blank_blank (g : Gateway) : g.blank.blank = g.blank := by
  simp [blank]

@[simp]
theorem blank_ofRefs (kind : GatewayKind) (incoming outgoing : Option EdgeRefs) :
    (ofRefs kind incoming outgoing).blank = ofRefs kind incoming outgoing := by
  simp [blank, ofRefs]

@[simp]
theorem blank_takeIncoming (g : Gateway) (accepts : Token → Bool) :
    (g.takeIncoming accepts).blank = g.blank := by
  simp [blank, takeIncoming, Tokens.blank_updateFirst]

@[simp]
theorem blank_chooseAmong (g : Gateway) (refs : EdgeRefs) :
    (g.chooseAmong refs).blank = g.blank := by
  simp [blank, chooseAmong, Tokens.blank_updateFirst]

@[simp]
theorem blank_refreshOutgoing (g : Gateway) : g.refreshOutgoing.blank = g.blank := by
  have h : Tokens.blank (g.outgoing.map (·.map Token.release)) = Tokens.blank g.outgoing :=
    Tokens.blank_blank g.outgoing
  simp [blank, refreshOutgoing, h]

@[simp]
theorem blank_afterSplit (g : Gateway) : g.afterSplit.blank = g.blank := by
  unfold afterSplit
  split
  · rfl
  · next t ht _ => simp [blank, Tokens.blank, ht, OneOrMany.map, Token.release, Token.take]
  · rfl

@[simp]
theorem blank_arrive (g : Gateway) (route : List String) : (g.arrive route).blank = g.blank :=
  blank_takeIncoming g _

/-- A selection that is not refused is not seen in the blank. -/
theorem blank_takeOutgoing {g g' : Gateway} {operation : Operation} {key : String}
    {target : Option (Option EdgeRefs)} (h : g.takeOutgoing operation key target = .ok g') :
    g'.blank = g.blank := by
  unfold takeOutgoing at h
  split at h
  · cases h
  · cases h
  · cases h; rfl
  · cases h; exact blank_chooseAmong g _

end Gateway

/-- The boundary event, not live. -/
def BoundaryEvent.blank (b : BoundaryEvent) : BoundaryEvent := { b with lifecycle := {} }

@[simp]
theorem BoundaryEvent.blank_blank (b : BoundaryEvent) : b.blank.blank = b.blank := rfl

@[simp]
theorem BoundaryEvent.blank_set (b : BoundaryEvent) (s : Status) (now : Instant) :
    (b.set s now).blank = b.blank := rfl

/-- The family part with no token taken and with the boundary event not live. -/
def Kind.blank : Kind → Kind
  | task t => task { t with boundary := t.boundary.map BoundaryEvent.blank }
  | gateway g => gateway g.blank
  | event e => event e

@[simp]
theorem Kind.category_blank (k : Kind) : k.blank.category = k.category := by
  cases k <;> rfl

namespace Activity

/-- The activity without anything that changes while it is live. -/
def blank (a : Activity) : Activity := { a with lifecycle := {}, kind := a.kind.blank }

@[simp] theorem id_blank (a : Activity) : a.blank.id = a.id := rfl

@[simp] theorem incoming_blank (a : Activity) : a.blank.incoming = a.incoming := rfl

@[simp] theorem outgoing_blank (a : Activity) : a.blank.outgoing = a.outgoing := rfl

@[simp] theorem kind_blank (a : Activity) : a.blank.kind = a.kind.blank := rfl

@[simp]
theorem blank_set (a : Activity) (s : Status) (now : Instant) : (a.set s now).blank = a.blank := rfl

/-- The boundary event of a task is what is attached to it. -/
theorem boundary?_of_task {a : Activity} {t : Task} (task : a.kind = .task t) :
    a.boundary? = t.boundary := by
  unfold boundary?
  rw [task]

/-- The boundary event of the blank is blank. -/
theorem boundary?_blank (a : Activity) :
    a.blank.boundary? = a.boundary?.map BoundaryEvent.blank := by
  unfold boundary?
  cases hk : a.kind <;> simp [hk, Kind.blank]

/-- Activities with the same blank have the same id. -/
theorem id_eq_of_blank {a b : Activity} (h : b.blank = a.blank) : b.id = a.id := by
  rw [← id_blank b, h, id_blank]

/-- Activities with the same blank have boundary events of the same id and edge. -/
theorem exists_boundary_of_blank {a a' : Activity} (h : a'.blank = a.blank) {b' : BoundaryEvent}
    (attached : a'.boundary? = some b') :
    ∃ b, a.boundary? = some b ∧ b.id = b'.id ∧ b.outgoing = b'.outgoing := by
  have hblank : a.boundary?.map BoundaryEvent.blank = some b'.blank := by
    rw [← boundary?_blank, ← h, boundary?_blank, attached]
    rfl
  obtain ⟨b, hb, hsame⟩ := Option.map_eq_some_iff.mp hblank
  have hid : b.id = b'.id := show b.blank.id = b'.blank.id by rw [hsame]
  have hedge : b.outgoing = b'.outgoing := show b.blank.outgoing = b'.blank.outgoing by rw [hsame]
  exact ⟨b, hb, hid, hedge⟩

/-- A change of the gateway part that its blank does not show is not seen in the whole. -/
theorem blank_mapGateway {f : Gateway → Gateway} (keeps : ∀ g, (f g).blank = g.blank)
    (a : Activity) : (a.mapGateway f).blank = a.blank := by
  unfold mapGateway
  split
  · next g hg => simp [blank, Kind.blank, hg, keeps]
  · rfl

/-- A change of the boundary event that its blank does not show is not seen in the whole. -/
theorem blank_mapBoundary {f : BoundaryEvent → BoundaryEvent} (keeps : ∀ b, (f b).blank = b.blank)
    (a : Activity) : (a.mapBoundary f).blank = a.blank := by
  unfold mapBoundary
  split
  · next t ht => simp [blank, Kind.blank, ht, Function.comp_def, keeps]
  · rfl

/-- A gateway part with the same blank can be put in the place of the one that is there. -/
theorem blank_of_gateway {a : Activity} {g g' : Gateway} (hg : a.kind = .gateway g)
    (keeps : g'.blank = g.blank) : blank { a with kind := .gateway g' } = a.blank := by
  simp [blank, Kind.blank, hg, keeps]

/-- An edit does not change the blank. -/
theorem blank_edit {a b : Activity} {now : Instant} {e : Edit} (h : a.edit now e = .ok b) :
    b.blank = a.blank := by
  cases e with
  | setStatus s => cases h; rfl
  | setBoundary s => cases h; exact blank_mapBoundary (fun b => b.blank_set s now) a
  | takeIncoming accepts => cases h; exact blank_mapGateway (fun g => g.blank_takeIncoming _) a
  | chooseOutgoing operation key target =>
    simp only [edit] at h
    split at h
    · next g hg =>
      split at h
      · next g' hg' => cases h; exact blank_of_gateway hg (Gateway.blank_takeOutgoing hg')
      · cases h
    · cases h; rfl
  | split => cases h; exact blank_mapGateway Gateway.blank_afterSplit a
  | routes =>
    cases h
    refine blank_mapGateway (fun g => ?_) a
    split
    · exact g.blank_afterSplit
    · rfl
  | refreshOutgoing => cases h; exact blank_mapGateway Gateway.blank_refreshOutgoing a

/-- An arrival does not change the blank, even one that is refused. -/
@[simp]
theorem blank_arrive (a : Activity) (route : List String) (now : Instant) :
    (a.arrive route now).1.blank = a.blank := by
  unfold arrive
  cases hk : a.kind with
  | gateway g =>
    have hkeeps := blank_of_gateway hk (g.blank_arrive route)
    dsimp only
    split
    · exact hkeeps
    · rw [blank_set]; exact hkeeps
  | task t => exact blank_mapBoundary (fun b => b.blank_set .entered now) a
  | event e => rfl

/-- A live activity made from a definition has the blank of the definition. -/
@[simp]
theorem blank_instantiate (a : Activity) (now : Instant) : (a.instantiate now).blank = a.blank :=
  blank_mapBoundary BoundaryEvent.blank_blank a

end Activity

/-- A redirected activity has the blank of the completed one it is taken from, or else of its
definition. -/
theorem Step.blank_redirected (completed : Option Activity) (definition : Activity) (edge : String)
    (now : Instant) :
    (redirected completed definition edge now).blank = (completed.getD definition).blank := by
  cases completed with
  | some previous => exact Activity.blank_mapGateway (fun g => by simp) _
  | none =>
    have h := Activity.blank_mapGateway (fun g => g.blank_takeIncoming (·.edge == edge))
      (definition.instantiate now)
    rw [redirected, h, Activity.blank_instantiate]
    rfl

end Workflow
