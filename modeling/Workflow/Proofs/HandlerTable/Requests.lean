import Mathlib.Data.List.Induction
import Workflow.Proofs.HandlerTable

/-!
# What a sequence of registrations gives

A table comes about by requests, each of which brings a handler for one name and one tier.  A
request says them outright or by a conventional name.  An underscore and a name that is not empty
stand for the automatic tier of that name, and every other text stands for itself on the manual
tier (`HandlerTable.Request.StandsFor`).

A request sets the handler that it is for and changes no other (`HandlerTable.handler?_grant`).  So
after any requests the handler of a name and a tier is that of the last request for them, and which
handler runs, by name or unattended, is told from the last requests for the two tiers of the name
(`HandlerTable.ofRequests_resolves`).
-/

namespace Workflow

namespace HandlerTable

variable {η : Type}

/-- A request to register a handler. -/
inductive Request (η : Type) where
  /-- For a name and a tier. -/
  | register (name : String) (tier : Tier) (handler : η)
  /-- For what a conventional name stands for. -/
  | registerNamed (handlerName : String) (handler : η)

namespace Request

/-- The handler that is to be registered. -/
def handler : Request η → η
  | register _ _ handler => handler
  | registerNamed _ handler => handler

/-- Whether a conventional name stands for a name and a tier. -/
inductive StandsFor : String → String → Tier → Prop where
  /-- An underscore and a name stand for the automatic tier of the name. -/
  | automatic {name : String} (nonempty : name ≠ "") : StandsFor ("_" ++ name) name .automatic
  /-- Everything else stands for itself, on the manual tier. -/
  | manual {name : String} (plain : ∀ rest, rest ≠ "" → name ≠ "_" ++ rest) :
      StandsFor name name .manual

/-- Whether a request is for a name and a tier. -/
inductive Addresses : Request η → String → Tier → Prop where
  /-- They are said outright. -/
  | register (name : String) (tier : Tier) (handler : η) :
      Addresses (.register name tier handler) name tier
  /-- They are what a conventional name stands for. -/
  | registerNamed {handlerName name : String} {tier : Tier} (handler : η)
      (stands : StandsFor handlerName name tier) :
      Addresses (.registerNamed handlerName handler) name tier

/-- Whether a handler is that of the last of some requests for a name and a tier. -/
def Latest (requests : List (Request η)) (name : String) (tier : Tier) (handler : η) : Prop :=
  ∃ earlier r later, requests = earlier ++ r :: later ∧ r.Addresses name tier ∧
    r.handler = handler ∧ ∀ x ∈ later, ¬ x.Addresses name tier

/-- Whether none of some requests is for a name and a tier. -/
def Vacant (requests : List (Request η)) (name : String) (tier : Tier) : Prop :=
  ∀ r ∈ requests, ¬ r.Addresses name tier

/-- Whether a choice is that for a run by name after some requests: the manual handler, else the
automatic one, else the default policy. -/
inductive ServesRun (requests : List (Request η)) (name : String) : Choice η → Prop where
  | manual {handler : η} (latest : Latest requests name .manual handler) :
      ServesRun requests name (.registered .manual handler)
  | automatic {handler : η} (vacant : Vacant requests name .manual)
      (latest : Latest requests name .automatic handler) :
      ServesRun requests name (.registered .automatic handler)
  | default (manual : Vacant requests name .manual) (automatic : Vacant requests name .automatic) :
      ServesRun requests name .default

/-- Whether a choice, or none, is that for going forward after some requests: the automatic handler,
none where there is only a manual one, and the default policy where there is neither and for an
activity without a name. -/
inductive ServesForward (requests : List (Request η)) :
    Option String → Option (Choice η) → Prop where
  | automatic {name : String} {handler : η} (latest : Latest requests name .automatic handler) :
      ServesForward requests (some name) (some (.registered .automatic handler))
  | waits {name : String} {handler : η} (vacant : Vacant requests name .automatic)
      (latest : Latest requests name .manual handler) : ServesForward requests (some name) none
  | default {name : String} (manual : Vacant requests name .manual)
      (automatic : Vacant requests name .automatic) :
      ServesForward requests (some name) (some .default)
  | unnamed : ServesForward requests none (some .default)

end Request

open HandlerTable.Request

/-! ## Conventional names -/

/-- An underscore and a name that is not empty are resolved to the automatic tier of the name. -/
theorem address_underscore {name : String} (nonempty : name ≠ "") :
    address ("_" ++ name) = (name, .automatic) := by
  have hchars : name.toList ≠ [] := fun h => nonempty (String.toList_eq_nil_iff.mp h)
  obtain ⟨c, cs, hcs⟩ := List.exists_cons_of_ne_nil hchars
  have hname : String.ofList (c :: cs) = name := by rw [← hcs, String.ofList_toList]
  have hall : ("_" ++ name).toList = '_' :: c :: cs := by simp [String.toList_append, hcs]
  unfold address
  rw [hall]
  simp only [hname]

/-- Every other text is resolved to itself, on the manual tier. -/
theorem address_plain {name : String} (plain : ∀ rest, rest ≠ "" → name ≠ "_" ++ rest) :
    address name = (name, .manual) := by
  unfold address
  split
  · next c cs hcs =>
    -- The text would be an underscore and the rest of its characters.
    have hname : name = "_" ++ String.ofList (c :: cs) :=
      String.toList_injective (by simp [String.toList_append, hcs])
    have hnonempty : String.ofList (c :: cs) ≠ "" := by simp
    exact absurd hname (plain _ hnonempty)
  · rfl

/-- What a conventional name stands for is what it is resolved to. -/
theorem standsFor_iff {handlerName name : String} {tier : Tier} :
    StandsFor handlerName name tier ↔ address handlerName = (name, tier) := by
  constructor
  · rintro (hnonempty | hplain)
    · exact address_underscore hnonempty
    · exact address_plain hplain
  · intro h
    by_cases hsplit : ∃ rest, rest ≠ "" ∧ handlerName = "_" ++ rest
    · obtain ⟨rest, hnonempty, rfl⟩ := hsplit
      rw [address_underscore hnonempty] at h
      cases h
      exact .automatic hnonempty
    · have hplain : ∀ rest, rest ≠ "" → handlerName ≠ "_" ++ rest :=
        fun rest hnonempty heq => hsplit ⟨rest, hnonempty, heq⟩
      rw [address_plain hplain] at h
      cases h
      exact .manual hplain

/-- A bare underscore is a manual name, and of two underscores the first is for the tier. -/
example : address "_" = ("_", .manual) ∧ address "__Ship" = ("_Ship", .automatic) := by decide

/-! ## One request -/

/-- The name and the tier that a request is resolved to. -/
def place : Request η → String × Tier
  | .register name tier _ => (name, tier)
  | .registerNamed handlerName _ => address handlerName

/-- A request is for the name and the tier that it is resolved to, and for no other. -/
theorem addresses_iff {r : Request η} {name : String} {tier : Tier} :
    r.Addresses name tier ↔ place r = (name, tier) := by
  cases r with
  | register n tier' handler =>
    constructor
    · intro h
      cases h
      rfl
    · intro h
      cases h
      exact .register name tier handler
  | registerNamed handlerName handler =>
    constructor
    · intro h
      obtain _ | ⟨_, stands⟩ := h
      exact standsFor_iff.mp stands
    · intro h
      exact .registerNamed handler (standsFor_iff.mpr h)

instance (r : Request η) (name : String) (tier : Tier) : Decidable (r.Addresses name tier) :=
  decidable_of_iff _ addresses_iff.symm

/-- The handler of a name on a tier. -/
def handler? (t : HandlerTable η) (name : String) : Tier → Option η
  | .manual => t.manual? name
  | .automatic => t.automatic? name

/-- A registration sets the handler of its name and tier and leaves every other one alone. -/
theorem handler?_register (t : HandlerTable η) (name n : String) (tier tier' : Tier) (handler : η) :
    (t.register name tier handler).handler? n tier' =
      if (name, tier) = (n, tier') then some handler else t.handler? n tier' := by
  have hfound : ∀ t : HandlerTable η, t.handler? n tier' = (t.find? n).bind (·.on tier') := by
    intro t
    cases tier' <;> rfl
  rw [hfound, hfound, find?_register]
  by_cases hn : name = n
  · subst hn
    rw [if_pos rfl, Option.bind_some, on_set]
    by_cases htier : tier = tier'
    · simp [htier]
    · have hother : tier' ≠ tier := fun h => htier h.symm
      rw [if_neg hother, if_neg (by simp [htier])]
      -- The other tier is empty where the name is new.
      cases t.find? name with
      | none => cases tier' <;> rfl
      | some r => rfl
  · have hother : n ≠ name := fun h => hn h.symm
    simp [hn, hother]

/-- The table after a request. -/
def grant (t : HandlerTable η) : Request η → HandlerTable η
  | .register name tier handler => t.register name tier handler
  | .registerNamed handlerName handler => t.registerNamed handlerName handler

/-- A request sets the handler of what it is for and leaves every other one alone. -/
theorem handler?_grant (t : HandlerTable η) (r : Request η) (name : String) (tier : Tier) :
    (t.grant r).handler? name tier =
      if r.Addresses name tier then some r.handler else t.handler? name tier := by
  have hregisters : t.grant r = t.register (place r).1 (place r).2 r.handler := by
    cases r <;> rfl
  rw [hregisters, handler?_register]
  exact if_congr addresses_iff.symm rfl rfl

/-! ## Any number of requests -/

/-- The table that requests lead to, one after another. -/
def ofRequests (requests : List (Request η)) : HandlerTable η := requests.foldl grant {}

/-- Nothing has a handler before the first request. -/
theorem handler?_ofRequests_nil (name : String) (tier : Tier) :
    (ofRequests [] : HandlerTable η).handler? name tier = none := by
  cases tier <;> rfl

/-- One request more, after the others. -/
theorem ofRequests_append (requests : List (Request η)) (r : Request η) :
    ofRequests (requests ++ [r]) = (ofRequests requests).grant r := by
  unfold ofRequests
  rw [List.foldl_append]
  rfl

/-- The last request decides about what it is for, and the ones before it about everything else. -/
theorem latest_append_iff {requests : List (Request η)} {r : Request η} {name : String}
    {tier : Tier} {handler : η} :
    Latest (requests ++ [r]) name tier handler ↔
      r.Addresses name tier ∧ r.handler = handler ∨
        ¬ r.Addresses name tier ∧ Latest requests name tier handler := by
  constructor
  · rintro ⟨earlier, x, later, hsplit, haddresses, hhandler, hlater⟩
    rcases List.eq_nil_or_concat later with rfl | ⟨later, y, rfl⟩
    · -- The request that counts is the last one.
      obtain ⟨-, hx⟩ := List.append_inj' hsplit rfl
      obtain rfl : r = x := List.singleton_inj.mp hx
      exact .inl ⟨haddresses, hhandler⟩
    · rw [List.concat_eq_append, ← List.cons_append, ← List.append_assoc] at hsplit
      obtain ⟨rfl, hy⟩ := List.append_inj' hsplit rfl
      obtain rfl : r = y := List.singleton_inj.mp hy
      exact .inr ⟨hlater r (by simp),
        earlier, x, later, rfl, haddresses, hhandler, fun z hz => hlater z (by simp [hz])⟩
  · rintro (⟨haddresses, hhandler⟩ | ⟨hnot, earlier, x, later, rfl, haddresses, hhandler, hlater⟩)
    · exact ⟨requests, r, [], rfl, haddresses, hhandler, by simp⟩
    · refine ⟨earlier, x, later ++ [r], by simp, haddresses, hhandler, fun z hz => ?_⟩
      rcases List.mem_append.mp hz with hz | hz
      · exact hlater z hz
      · rw [List.mem_singleton.mp hz]
        exact hnot

/-- After any requests the handler of a name and a tier is that of the last request for them. -/
theorem handler?_ofRequests_iff {requests : List (Request η)} {name : String} {tier : Tier}
    {handler : η} :
    (ofRequests requests).handler? name tier = some handler ↔
      Latest requests name tier handler := by
  induction requests using List.reverseRecOn with
  | nil =>
    rw [handler?_ofRequests_nil]
    constructor
    · intro h
      cases h
    · rintro ⟨earlier, r, later, hsplit, -⟩
      simp at hsplit
  | append_singleton requests r ih =>
    rw [ofRequests_append, latest_append_iff]
    rw [handler?_grant]
    by_cases haddresses : r.Addresses name tier
    · simp [haddresses]
    · simp [haddresses, ih]

/-- Where there is no request for a name and a tier, they have no handler. -/
theorem handler?_ofRequests_eq_none_iff {requests : List (Request η)} {name : String}
    {tier : Tier} :
    (ofRequests requests).handler? name tier = none ↔ Vacant requests name tier := by
  induction requests using List.reverseRecOn with
  | nil => exact ⟨fun _ r hr => (nomatch hr), fun _ => handler?_ofRequests_nil name tier⟩
  | append_singleton requests r ih =>
    unfold Vacant at ih ⊢
    rw [ofRequests_append, List.forall_mem_append, List.forall_mem_singleton, ← ih]
    rw [handler?_grant]
    by_cases haddresses : r.Addresses name tier <;> simp [haddresses]

/-- A run by name asks for the manual handler of the name, and then for the automatic one. -/
theorem forRun_eq (t : HandlerTable η) (name : String) :
    t.forRun name = match t.handler? name .manual, t.handler? name .automatic with
      | some handler, _ => .registered .manual handler
      | none, some handler => .registered .automatic handler
      | none, none => .default := rfl

/-- Going forward asks for the automatic handler of a name, and then for the manual one. -/
theorem forForward_eq (t : HandlerTable η) (name : String) :
    t.forForward (some name) = match t.handler? name .automatic, t.handler? name .manual with
      | some handler, _ => some (.registered .automatic handler)
      | none, some _ => none
      | none, none => some .default := by
  unfold forForward handler? automatic? manual?
  rw [Option.bind_some]
  cases t.find? name <;> rfl

/-- The handler that a run by name calls is told from the requests. -/
theorem forRun_ofRequests_iff {requests : List (Request η)} {name : String} {choice : Choice η} :
    (ofRequests requests).forRun name = choice ↔ ServesRun requests name choice := by
  rw [forRun_eq]
  constructor
  · rintro rfl
    split
    · next handler hmanual => exact .manual (handler?_ofRequests_iff.mp hmanual)
    · next handler hmanual hauto =>
      exact .automatic (handler?_ofRequests_eq_none_iff.mp hmanual)
        (handler?_ofRequests_iff.mp hauto)
    · next hmanual hauto =>
      exact .default (handler?_ofRequests_eq_none_iff.mp hmanual)
        (handler?_ofRequests_eq_none_iff.mp hauto)
  · rintro (hmanual | ⟨hmanual, hauto⟩ | ⟨hmanual, hauto⟩)
    · rw [handler?_ofRequests_iff.mpr hmanual]
    · rw [handler?_ofRequests_eq_none_iff.mpr hmanual, handler?_ofRequests_iff.mpr hauto]
    · rw [handler?_ofRequests_eq_none_iff.mpr hmanual, handler?_ofRequests_eq_none_iff.mpr hauto]

/-- So is the handler that going forward calls, and whether it leaves the activity alone. -/
theorem forForward_ofRequests_iff {requests : List (Request η)} {name : Option String}
    {choice : Option (Choice η)} :
    (ofRequests requests).forForward name = choice ↔ ServesForward requests name choice := by
  constructor
  · rintro rfl
    cases name with
    | none => exact .unnamed
    | some name =>
      rw [forForward_eq]
      split
      · next handler hauto => exact .automatic (handler?_ofRequests_iff.mp hauto)
      · next handler hauto hmanual =>
        exact .waits (handler?_ofRequests_eq_none_iff.mp hauto)
          (handler?_ofRequests_iff.mp hmanual)
      · next hauto hmanual =>
        exact .default (handler?_ofRequests_eq_none_iff.mp hmanual)
          (handler?_ofRequests_eq_none_iff.mp hauto)
  · rintro (hauto | ⟨hauto, hmanual⟩ | ⟨hmanual, hauto⟩ | _)
    · rw [forForward_eq, handler?_ofRequests_iff.mpr hauto]
    · rw [forForward_eq, handler?_ofRequests_eq_none_iff.mpr hauto,
        handler?_ofRequests_iff.mpr hmanual]
    · rw [forForward_eq, handler?_ofRequests_eq_none_iff.mpr hauto,
        handler?_ofRequests_eq_none_iff.mpr hmanual]
    · rfl

/-- The law of handler tables.  After any requests the manual and the automatic handler of a name
are those of the last requests for the name on that tier, and there is none where there was no such
request.  One request more changes nothing but what it is for.  A run by name calls the manual
handler, else the automatic one, else the default policy.  Going forward calls the automatic
handler, leaves an activity alone whose name has a manual one only, and calls the default policy
otherwise, also for an activity without a name. -/
theorem ofRequests_resolves (requests : List (Request η)) :
    (∀ name handler,
      ((ofRequests requests).manual? name = some handler ↔
        Latest requests name .manual handler) ∧
      ((ofRequests requests).automatic? name = some handler ↔
        Latest requests name .automatic handler)) ∧
    (∀ name,
      ((ofRequests requests).manual? name = none ↔ Vacant requests name .manual) ∧
      ((ofRequests requests).automatic? name = none ↔ Vacant requests name .automatic)) ∧
    (∀ r name tier, ¬ r.Addresses name tier →
      (ofRequests (requests ++ [r])).handler? name tier =
        (ofRequests requests).handler? name tier) ∧
    (∀ name choice,
      (ofRequests requests).forRun name = choice ↔ ServesRun requests name choice) ∧
    ∀ name choice,
      (ofRequests requests).forForward name = choice ↔ ServesForward requests name choice := by
  have hsome : ∀ name tier handler, (ofRequests requests).handler? name tier = some handler ↔
      Latest requests name tier handler := fun _ _ _ => handler?_ofRequests_iff
  have hnone : ∀ name tier, (ofRequests requests).handler? name tier = none ↔
      Vacant requests name tier := fun _ _ => handler?_ofRequests_eq_none_iff
  refine ⟨fun name handler => ⟨hsome name .manual handler, hsome name .automatic handler⟩,
    fun name => ⟨hnone name .manual, hnone name .automatic⟩, fun r name tier hnot => ?_,
    fun name choice => forRun_ofRequests_iff, fun name choice => forForward_ofRequests_iff⟩
  rw [ofRequests_append, handler?_grant, if_neg hnot]

/-- Requests of both kinds for names that share their characters. -/
def interleaved : List (Request Nat) :=
  [.register "Ship" .manual 1, .registerNamed "_Ship" 2, .registerNamed "__Ship" 3,
    .registerNamed "Ship" 4, .registerNamed "_" 5, .registerNamed "" 6]

/-- The second manual handler of a name takes the place of the first, and neither it nor a further
automatic handler touches the other tier; two underscores stand for an automatic name, and a bare
one is a manual name, which waits. -/
theorem ofRequests_resolves_interleaved :
    Latest interleaved "Ship" .manual 4 ∧ Latest interleaved "Ship" .automatic 2 ∧
      Latest interleaved "_Ship" .automatic 3 ∧ Vacant interleaved "_Ship" .manual ∧
      ServesRun interleaved "Ship" (.registered .manual 4) ∧
      ServesForward interleaved (some "Ship") (some (.registered .automatic 2)) ∧
      ServesForward interleaved (some "_") none ∧
      (ofRequests (interleaved ++ [.registerNamed "_Ship" 7])).handler? "Ship" .manual =
        some 4 := by
  obtain ⟨hhas, hnone, hkept, hrun, hforward⟩ := ofRequests_resolves interleaved
  have hother : ¬ (Request.registerNamed "_Ship" 7).Addresses "Ship" .manual := by decide
  exact ⟨(hhas "Ship" 4).1.mp (by decide), (hhas "Ship" 2).2.mp (by decide),
    (hhas "_Ship" 3).2.mp (by decide), (hnone "_Ship").1.mp (by decide),
    (hrun "Ship" _).mp (by decide), (hforward (some "Ship") _).mp (by decide),
    (hforward (some "_") _).mp (by decide), (hkept _ "Ship" .manual hother).trans (by decide)⟩

end HandlerTable

end Workflow
