import Workflow.Proofs.Activity.Blank

/-!
# Tokens of arrival

Which incoming tokens of an activity are taken, and what the operations on activities do to them.
Only an arrival, a direct edit and a redirection take one, and none of them releases one: after the
first accepted token is taken, an edge has a taken token if it had one before or is the edge of that
token (`Activity.hasTaken_of_updateFirst`).
-/

namespace Workflow

namespace Tokens

/-- When all tokens of a side are taken; there must be some edge. -/
theorem allTaken_iff {ts : Option Tokens} :
    allTaken ts = true ↔ ts ≠ none ∧ ∀ t ∈ Document.records ts, t.taken = true := by
  cases ts with
  | none => simp [allTaken]
  | some ts => simp [allTaken, Document.records]

/-- When some token of a side is taken. -/
theorem anyTaken_iff {ts : Option Tokens} :
    anyTaken ts = true ↔ ∃ t ∈ Document.records ts, t.taken = true := by
  cases ts with
  | none => simp [anyTaken, Document.records]
  | some ts => simp [anyTaken, Document.records]

end Tokens

namespace Activity

/-- The incoming tokens of a gateway, in order; other activities have none. -/
def tokens (a : Activity) : List Token :=
  match a.kind with
  | .gateway w => Document.records w.incoming
  | _ => []

/-- Whether the token of an incoming edge is taken. -/
def HasTaken (a : Activity) (edge : String) : Prop := ∃ t ∈ a.tokens, t.taken = true ∧ t.edge = edge

instance (a : Activity) (edge : String) : Decidable (a.HasTaken edge) :=
  inferInstanceAs (Decidable (∃ t ∈ a.tokens, t.taken = true ∧ t.edge = edge))

/-- The tokens of a gateway. -/
theorem tokens_of_gateway {a : Activity} {w : Gateway} (h : a.kind = .gateway w) :
    a.tokens = Document.records w.incoming := by
  unfold tokens
  rw [h]

/-- The gateway part of an activity is all that it has beyond others. -/
theorem kind_of_gateway? {a : Activity} {w : Gateway} (h : a.gateway? = some w) :
    a.kind = .gateway w := by
  unfold gateway? at h
  split at h
  · next w' hw' => cases h; exact hw'
  · cases h

/-- The gateway part of a gateway. -/
theorem gateway?_of_kind {a : Activity} {w : Gateway} (h : a.kind = .gateway w) :
    a.gateway? = some w := by
  unfold gateway?
  rw [h]

/-- An activity that is no gateway has no tokens. -/
theorem tokens_of_not_gateway {a : Activity} (h : a.gateway? = none) : a.tokens = [] := by
  unfold gateway? at h
  unfold tokens
  split
  · next w hw => rw [hw] at h; cases h
  · rfl

@[simp]
theorem tokens_mapBoundary (f : BoundaryEvent → BoundaryEvent) (a : Activity) :
    (a.mapBoundary f).tokens = a.tokens := by
  unfold mapBoundary
  split
  · next t ht => simp [tokens, ht]
  · rfl

@[simp]
theorem tokens_instantiate (a : Activity) (now : Instant) : (a.instantiate now).tokens = a.tokens :=
  tokens_mapBoundary _ a

/-- A change of the gateway part that leaves its incoming tokens alone. -/
theorem tokens_mapGateway {f : Gateway → Gateway} (keeps : ∀ w, (f w).incoming = w.incoming)
    (a : Activity) : (a.mapGateway f).tokens = a.tokens := by
  unfold mapGateway
  split
  · next w hw => simp [tokens, hw, keeps]
  · rfl

/-- A change of the gateway part that takes the first accepted token. -/
theorem tokens_takeIncoming {accepts : Token → Bool} {f : Gateway → Gateway}
    (takes : ∀ w, (f w).incoming = (w.takeIncoming accepts).incoming) (a : Activity) :
    (a.mapGateway f).tokens = updateFirst accepts Token.take a.tokens := by
  unfold mapGateway
  split
  · next w hw =>
    rw [tokens_of_gateway hw]
    show Document.records (f w).incoming = _
    rw [takes, Gateway.takeIncoming]
    cases w.incoming with
    | none => rfl
    | some ts => exact OneOrMany.toList_updateFirst accepts Token.take ts
  · next hnot =>
    have hnone : a.gateway? = none := by
      unfold gateway?
      split
      · next w hw => exact absurd hw (hnot w)
      · rfl
    rw [tokens_of_not_gateway hnone]
    rfl

/-- The edges of the tokens show in the blank. -/
theorem edges_of_blank {a b : Activity} (h : b.blank = a.blank) :
    b.tokens.map Token.edge = a.tokens.map Token.edge := by
  have hrelease : ∀ a : Activity, a.blank.tokens = a.tokens.map Token.release := by
    intro a
    unfold tokens
    cases hk : a.kind with
    | task t => simp [hk, Kind.blank]
    | event e => simp [hk, Kind.blank]
    | gateway w =>
      simp only [kind_blank, hk, Kind.blank, Gateway.incoming_blank]
      cases w.incoming with
      | none => rfl
      | some ts => exact OneOrMany.toList_map Token.release ts
  -- A release keeps the edge of a token.
  have hedges : ∀ a : Activity, a.tokens.map Token.edge = a.blank.tokens.map Token.edge := by
    intro a
    rw [hrelease, List.map_map]
    rfl
  rw [hedges b, h, ← hedges a]

/-- No token of a blank activity is taken. -/
theorem not_taken_of_blank {a : Activity} (h : a.blank = a) {t : Token} (ht : t ∈ a.tokens) :
    ¬ t.taken = true := by
  intro htaken
  rw [← h] at ht
  unfold tokens at ht
  cases hk : a.kind with
  | task t => simp [hk, Kind.blank] at ht
  | event e => simp [hk, Kind.blank] at ht
  | gateway w =>
    simp only [kind_blank, hk, Kind.blank, Gateway.incoming_blank] at ht
    cases hin : w.incoming with
    | none => simp [hin, Tokens.blank, Document.records] at ht
    | some ts =>
      rw [hin] at ht
      have hmem : t ∈ (ts.map Token.release).toList := ht
      rw [OneOrMany.toList_map] at hmem
      obtain ⟨t', -, rfl⟩ := List.mem_map.mp hmem
      cases htaken

/-- A blank activity has no taken token of any edge. -/
theorem not_hasTaken_of_blank {a : Activity} (h : a.blank = a) (edge : String) :
    ¬ a.HasTaken edge := by
  rintro ⟨t, ht, htaken, -⟩
  exact not_taken_of_blank h ht htaken

/-- After the first accepted token is taken, an edge has a taken token if it had one before or is
the edge of that token. -/
theorem hasTaken_of_updateFirst {a b : Activity} {accepts : Token → Bool}
    (h : b.tokens = updateFirst accepts Token.take a.tokens) (edge : String) :
    b.HasTaken edge ↔
      a.HasTaken edge ∨ ∃ t, a.tokens.find? accepts = some t ∧ t.edge = edge := by
  have hlist : ∀ ts : List Token,
      (∃ t ∈ updateFirst accepts Token.take ts, t.taken = true ∧ t.edge = edge) ↔
        (∃ t ∈ ts, t.taken = true ∧ t.edge = edge) ∨
          ∃ t, ts.find? accepts = some t ∧ t.edge = edge := by
    intro ts
    induction ts with
    | nil => simp [updateFirst]
    | cons t ts ih =>
      by_cases ht : accepts t
      · -- This is the first accepted token, and it is taken whether it was or not.
        simp only [updateFirst, ht, if_true, List.find?_cons_of_pos, List.mem_cons,
          exists_eq_or_imp, Option.some.injEq, exists_eq_left', Token.take, true_and]
        constructor
        · rintro (hedge | hlater)
          · exact .inr hedge
          · exact .inl (.inr hlater)
        · rintro ((⟨-, hedge⟩ | hlater) | hedge)
          · exact .inl hedge
          · exact .inr hlater
          · exact .inl hedge
      · simp only [updateFirst, ht, List.find?_cons_of_neg, Bool.false_eq_true, if_false,
          List.mem_cons, exists_eq_or_imp, ih, not_false_eq_true, or_assoc]
  unfold HasTaken
  rw [h]
  exact hlist a.tokens

/-- An arrival takes the first token on the route that is not taken. -/
theorem tokens_arrive (a : Activity) (route : List String) (now : Instant) :
    (a.arrive route now).1.tokens =
      updateFirst (fun t => !t.taken && route.contains t.edge) Token.take a.tokens := by
  have hgateway : ∀ w, a.kind = .gateway w → ({ a with kind := .gateway (w.arrive route) } :
      Activity).tokens =
        updateFirst (fun t => !t.taken && route.contains t.edge) Token.take a.tokens := by
    intro w hw
    have htakes := tokens_takeIncoming (f := (·.arrive route)) (fun w => rfl) a
    rw [← htakes]
    simp [mapGateway, hw]
  have hother : a.gateway? = none →
      updateFirst (fun t => !t.taken && route.contains t.edge) Token.take a.tokens = a.tokens := by
    intro hnone
    rw [tokens_of_not_gateway hnone]
    rfl
  unfold arrive
  cases hk : a.kind with
  | gateway w =>
    dsimp only
    split
    · exact hgateway w hk
    · exact hgateway w hk
  | task t => rw [hother (by simp [gateway?, hk])]; exact tokens_mapBoundary _ a
  | event e => rw [hother (by simp [gateway?, hk])]; rfl

/-- Only a direct edit takes a token of arrival. -/
theorem tokens_edit {a b : Activity} {now : Instant} {e : Edit} (h : a.edit now e = .ok b)
    (keeps : ∀ accepts, e ≠ .takeIncoming accepts) : b.tokens = a.tokens := by
  cases e with
  | setStatus s => cases h; rfl
  | setBoundary s => cases h; exact tokens_mapBoundary _ a
  | takeIncoming accepts => exact absurd rfl (keeps accepts)
  | chooseOutgoing operation key target =>
    simp only [edit] at h
    split at h
    · next w hw =>
      split at h
      · next w' hw' =>
        cases h
        have hin : w'.incoming = w.incoming := by
          unfold Gateway.takeOutgoing at hw'
          split at hw' <;> cases hw' <;> rfl
        rw [tokens_of_gateway hw, tokens_of_gateway rfl, hin]
      · cases h
    · cases h; rfl
  | split =>
    cases h
    refine tokens_mapGateway (fun w => ?_) a
    unfold Gateway.afterSplit
    split <;> rfl
  | routes =>
    cases h
    refine tokens_mapGateway (fun w => ?_) a
    split
    · unfold Gateway.afterSplit
      split <;> rfl
    · rfl
  | refreshOutgoing =>
    cases h
    exact tokens_mapGateway (f := Gateway.refreshOutgoing) (fun w => rfl) a

end Activity

end Workflow
