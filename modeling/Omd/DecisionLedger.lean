import Omd.AdmissionContract
import Omd.Lib.Outcome

/-!
# The ledger of decisions

A caller threads the context and the ledger through `step`.  What the ledger is for holds as
long as no step loses it: an event that is refused changes neither and is audited once, a
decision is applied at most once, and comes again as a replay or is refused.

`step` loses the ledger when the payload is no mapping: it then returns an empty one, and a
decision that was applied can be applied again.
-/

namespace Omd.Contract

open Lib

/-! ## Runs -/

/-- An event, with the snapshot hash that the caller trusts. -/
structure Event where
  eventType : String
  payload : Payload
  trusted : String

/-- What a caller threads through the steps. -/
structure Reducer where
  context : Dict
  seen : Ledger

/-- The step of an event. -/
def outcome (digest : Dict → String) (r : Reducer) (e : Event) : Except Raised StepResult :=
  step digest r.context e.eventType e.payload e.trusted r.seen

/-- The caller takes what the step returns; an exception returns nothing. -/
def Reducer.after (digest : Dict → String) (r : Reducer) (e : Event) : Reducer :=
  match outcome digest r e with
  | .ok result => ⟨result.context, result.seen⟩
  | .error _ => r

/-- The states of a run. -/
def states (digest : Dict → String) (r : Reducer) (events : ℕ → Event) : ℕ → Reducer
  | 0 => r
  | n + 1 => (states digest r events n).after digest (events n)

/-- The decision identifier of an event. -/
def Event.decisionId (e : Event) : Option String :=
  match e.payload with
  | .mapping p =>
      match p.get "decision_id" with
      | .str id => some id
      | _ => Option.none
  | .other => Option.none

/-- The canonical envelope of an event. -/
def Event.envelope (e : Event) : Option Dict :=
  match e.payload, eventSchema e.eventType with
  | .mapping p, some (event, _) => (canonicalDecisionEnvelope event p).toOption
  | _, _ => Option.none

/-- The legacy image of a context. -/
def image (context : Dict) : Option OrbitState :=
  match projectLegacy (context.get "state") context with
  | .ok projection => projection.state
  | .error _ => Option.none

/-- If the event is refused, the context and the ledger stay, and it is audited once. -/
def Atomic (digest : Dict → String) (r : Reducer) (e : Event) : Prop :=
  ∀ result, outcome digest r e = .ok result → result.accepted = false →
    result.context = r.context ∧ result.seen = r.seen ∧
      ∃ effect, result.effects = [effect] ∧ effect.kind = .AuditInvalidTransition

/-- The event is accepted, and is no replay. -/
def Applies (digest : Dict → String) (r : Reducer) (e : Event) : Prop :=
  ∃ result, outcome digest r e = .ok result ∧ result.accepted = true ∧ result.replayed = false

/-- The event is accepted as a replay, which changes nothing and has no effect. -/
def Replays (digest : Dict → String) (r : Reducer) (e : Event) : Prop :=
  ∃ result, outcome digest r e = .ok result ∧ result.accepted = true ∧ result.replayed = true ∧
    result.context = r.context ∧ result.seen = r.seen ∧ result.effects = []

/-- The step does not lose the ledger. -/
def Kept (r : Reducer) (e : Event) : Prop := e.payload ≠ .other ∨ r.seen = []

/-! ## How a step ends -/

/-- How a step that returns ends. -/
inductive Ends (digest : Dict → String) (r : Reducer) (e : Event) (result : StepResult) : Prop
  | malformed (payload : e.payload = .other)
      (eq : result = audit r.context e.eventType [] "payload_not_object" [])
  | refused (p : Dict) (reason : String) (payload : e.payload = .mapping p)
      (eq : result = audit r.context e.eventType p reason r.seen)
  | replayed (p : Dict) (event : AdmissionEvent) (schema : Schema) (prior envelope : Dict)
      (payload : e.payload = .mapping p) (known : eventSchema e.eventType = some (event, schema))
      (declared : canonicalDecisionEnvelope event p = .ok envelope)
      (seen : r.seen.prior (p.get "decision_id") = some prior)
      (same : prior.same envelope = true)
      (eq : result = { context := r.context, effects := [], seen := r.seen, accepted := true,
                       replayed := true })
  | applied (p : Dict) (event : AdmissionEvent) (schema : Schema)
      (entry : Option (Value × Dict)) (t : Transition) (effects : List Effect)
      (payload : e.payload = .mapping p) (known : eventSchema e.eventType = some (event, schema))
      (whole : missing schema.required p = [])
      (valid : validateProperties p schema.properties = .ok Option.none)
      (decision : checkDecision digest event p r.seen = .fresh entry)
      (found : findTransition r.context event = some t)
      (eq : result = { context := nextContext t r.context p, effects,
                       seen := r.seen ++ entry.toList, accepted := true })

section

variable {digest : Dict → String} {r : Reducer} {e : Event} {result : StepResult}

/-- A decision is found to be replayed when the ledger has its envelope. -/
theorem checkDecision_replayed {event : AdmissionEvent} {p : Dict} {seen : Ledger}
    (h : checkDecision digest event p seen = .replayed) : ∃ prior envelope,
      canonicalDecisionEnvelope event p = .ok envelope ∧
        seen.prior (p.get "decision_id") = some prior ∧ prior.same envelope = true := by
  rw [checkDecision] at h
  split at h
  · cases h
  · split at h
    · cases h
    · rename_i envelope declared
      split at h
      · rename_i prior found
        split at h
        · rename_i same
          exact ⟨prior, envelope, declared, found, same⟩
        · cases h
      · split at h <;> cases h

theorem eventName_of_eventSchema {eventType : String} {event : AdmissionEvent} {schema : Schema}
    (h : eventSchema eventType = some (event, schema)) : eventName event = eventType := by
  simpa using List.find?_some h

theorem outcome_cases (h : outcome digest r e = .ok result) : Ends digest r e result := by
  obtain ⟨eventType, payload, trusted⟩ := e
  rw [outcome] at h
  cases payload with
  | other =>
      cases h
      exact .malformed rfl rfl
  | mapping p =>
      rw [step] at h
      split at h
      · cases h
        exact .refused p _ rfl rfl
      · rename_i event schema known
        split at h
        · rename_i whole
          rw [Outcome.bind_eq_ok] at h
          obtain ⟨checked, valid, h⟩ := h
          cases checked with
          | some error =>
              cases h
              exact .refused p _ rfl rfl
          | none =>
              have named := eventName_of_eventSchema known
              dsimp only at h
              rw [stepValid] at h
              split at h
              · cases h
                exact .refused p _ rfl (by rw [named])
              · rename_i replayed
                obtain ⟨prior, envelope, declared, seen, same⟩ := checkDecision_replayed replayed
                cases h
                exact .replayed p event schema prior envelope rfl known declared seen same rfl
              · rename_i entry decision
                split at h
                · cases h
                  exact .refused p _ rfl (by rw [named])
                · rename_i t found
                  rw [Outcome.bind_eq_ok] at h
                  obtain ⟨refusal, guarded, h⟩ := h
                  cases refusal with
                  | some reason =>
                      cases h
                      exact .refused p _ rfl (by rw [named])
                  | none =>
                      dsimp only at h
                      rw [Outcome.bind_eq_ok] at h
                      obtain ⟨bound, emitted, h⟩ := h
                      cases bound with
                      | error reason =>
                          cases h
                          exact .refused p _ rfl (by rw [named])
                      | ok effects =>
                          cases h
                          exact .applied p event schema entry t effects rfl known whole valid
                            decision found rfl
        · cases h
          exact .refused p _ rfl rfl

/-- Only a payload that is no mapping, and only from a ledger that is not empty, is refused with
a loss. -/
theorem atomic_iff : Atomic digest r e ↔ Kept r e := by
  constructor
  · intro atomic
    by_cases payload : e.payload = .other
    · have out : outcome digest r e =
          .ok (audit r.context e.eventType [] "payload_not_object" []) := by
        rw [outcome, payload]
        rfl
      exact Or.inr (atomic _ out rfl).2.1.symm
    · exact Or.inl payload
  · intro kept result out refused
    cases outcome_cases out with
    | malformed payload eq =>
        subst eq
        rcases kept with mapping | empty
        · exact absurd payload mapping
        · exact ⟨rfl, empty.symm, _, rfl, rfl⟩
    | refused p reason payload eq =>
        subst eq
        exact ⟨rfl, rfl, _, rfl, rfl⟩
    | replayed p event schema prior envelope payload known declared seen same eq =>
        subst eq
        cases refused
    | applied p event schema entry t effects payload known whole valid decision found eq =>
        subst eq
        cases refused

end

/-! ## Envelopes -/

/-- A value that passes a declaration is no `nan`. -/
theorem same_of_validProperty {v : Value} {d : Declaration} (h : validProperty v d = .ok true) :
    v.same v = true := by
  cases v with
  | nan =>
      obtain ⟨type, const⟩ := d
      cases type <;> cases h
  | none | bool _ | int _ | float _ | infinite _ | str _ | other _ _ =>
      simp [Value.same, Value.number]

theorem validProperty_of_validate {p : Dict} {properties : List (String × Declaration)}
    (h : validateProperties p properties = .ok Option.none) :
    ∀ q ∈ properties, p.has q.1 = true → validProperty (p.get q.1) q.2 = .ok true := by
  induction properties with
  | nil => simp
  | cons q properties ih =>
      obtain ⟨field, d⟩ := q
      have checked : (p.has field = true → validProperty (p.get field) d = .ok true) ∧
          validateProperties p properties = .ok Option.none := by
        rw [validateProperties] at h
        split at h
        · rw [Outcome.bind_eq_ok] at h
          obtain ⟨good, found, h⟩ := h
          split at h
          · rename_i passed
            exact ⟨fun _ => by rw [found, passed], h⟩
          · cases h
        · rename_i absent
          exact ⟨fun present => absurd present absent, h⟩
      intro q hq present
      rcases List.mem_cons.mp hq with rfl | hq
      · exact checked.1 present
      · exact ih checked.2 q hq present

theorem Dict.same_self {d : Dict} (distinct : Table.Distinct Prod.fst d)
    (h : ∀ e ∈ d, e.2.same e.2 = true) : d.same d = true := by
  rw [Dict.same, Bool.and_eq_true, List.all_eq_true]
  refine ⟨by simp, fun e he => ?_⟩
  have found := distinct.get_of_mem he
  rw [Dict.has, Dict.get, found]
  simpa using h e he

/-- The fields of an envelope are distinct, and the schema of its event declares them. -/
theorem envelope_fields : ∀ e ∈ eventSchemas, ∀ variant, variantFields e.1 = some variant →
    ("schema" :: "event_type" :: (commonFields ++ variant)).Nodup ∧
      ∀ f ∈ commonFields ++ variant, f ∈ e.2.properties.map Prod.fst := by
  have all : (eventSchemas.all fun e => (variantFields e.1).all fun variant =>
      decide ("schema" :: "event_type" :: (commonFields ++ variant)).Nodup &&
        (commonFields ++ variant).all fun f => f ∈ e.2.properties.map Prod.fst) = true := by
    decide
  intro e he variant hvariant
  have row := List.all_eq_true.mp all e he
  simp only [hvariant, Option.all_some, Bool.and_eq_true, decide_eq_true_eq,
    List.all_eq_true] at row
  exact row

/-- A valid envelope is equal to itself. -/
theorem envelope_same_self {eventType : String} {event : AdmissionEvent} {schema : Schema}
    {p envelope : Dict} (known : eventSchema eventType = some (event, schema))
    (valid : validateProperties p schema.properties = .ok Option.none)
    (declared : canonicalDecisionEnvelope event p = .ok envelope) :
    envelope.same envelope = true := by
  rw [canonicalDecisionEnvelope] at declared
  split at declared
  · cases declared
  · rename_i variant hvariant
    obtain ⟨distinct, fields⟩ :=
      envelope_fields _ (List.mem_of_find?_eq_some known) variant hvariant
    dsimp only at declared
    split at declared
    · rename_i whole
      cases declared
      apply Dict.same_self
      · rw [Table.Distinct]
        simpa [Function.comp_def] using distinct
      · intro e he
        rcases List.mem_cons.mp he with rfl | he
        · rfl
        rcases List.mem_cons.mp he with rfl | he
        · simp [Value.same, Value.number]
        · obtain ⟨f, hf, rfl⟩ := List.mem_map.mp he
          obtain ⟨q, hq, rfl⟩ := List.mem_map.mp (fields f hf)
          have present : p.has q.1 = true := by
            by_contra absent
            have mem : q.1 ∈ missing (commonFields ++ variant) p :=
              List.mem_filter.mpr ⟨hf, by simpa using absent⟩
            rw [whole] at mem
            cases mem
          exact same_of_validProperty (validProperty_of_validate valid q hq present)
    · cases declared

/-! ## The ledger of a run -/

section

variable {digest : Dict → String} {r : Reducer} {e : Event} {result : StepResult}

theorem prior_append (seen more : Ledger) (id : Value) :
    Ledger.prior (seen ++ more) id = (seen.prior id).or (Ledger.prior more id) := by
  rw [Ledger.prior, List.find?_append, Ledger.prior, Ledger.prior]
  cases seen.find? fun e => e.1.same id <;> rfl

theorem same_str (id : String) : (Value.str id).same (.str id) = true := by
  simp [Value.same, Value.number]

/-- An identifier is fresh when the ledger has no envelope for it. -/
theorem checkDecision_fresh {event : AdmissionEvent} {p : Dict} {seen : Ledger} {id : String}
    {entry : Option (Value × Dict)} (hid : p.get "decision_id" = .str id)
    (h : checkDecision digest event p seen = .fresh entry) : ∃ envelope,
      canonicalDecisionEnvelope event p = .ok envelope ∧ seen.prior (.str id) = Option.none ∧
        entry = some (.str id, envelope) := by
  rw [checkDecision, hid] at h
  dsimp only at h
  split at h
  · cases h
  · rename_i envelope declared
    split at h
    · split at h <;> cases h
    · rename_i fresh
      split at h
      · cases h
        exact ⟨envelope, declared, fresh, rfl⟩
      · cases h

/-- An identifier that the ledger has with the same envelope is a replay. -/
theorem checkDecision_of_prior {event : AdmissionEvent} {p : Dict} {seen : Ledger} {id : String}
    {prior envelope : Dict} (hid : p.get "decision_id" = .str id)
    (declared : canonicalDecisionEnvelope event p = .ok envelope)
    (found : seen.prior (.str id) = some prior) (same : prior.same envelope = true) :
    checkDecision digest event p seen = .replayed := by
  simp only [checkDecision, hid, declared, found, same, if_true]

/-- A step that does not lose the ledger keeps its envelopes. -/
theorem prior_after (kept : Kept r e) {id : Value} {prior : Dict}
    (h : r.seen.prior id = some prior) : (r.after digest e).seen.prior id = some prior := by
  rw [Reducer.after]
  cases out : outcome digest r e with
  | error _ => exact h
  | ok result =>
      cases outcome_cases out with
      | malformed payload eq =>
          rcases kept with mapping | empty
          · exact absurd payload mapping
          · rw [empty] at h
            cases h
      | refused p reason payload eq =>
          subst eq
          exact h
      | replayed p event schema prior envelope payload known declared seen same eq =>
          subst eq
          exact h
      | applied p event schema entry t effects payload known whole valid decision found eq =>
          subst eq
          rw [prior_append, h]
          rfl

theorem decisionId_eq {id : String} {p : Dict} (hid : e.decisionId = some id)
    (payload : e.payload = .mapping p) : p.get "decision_id" = .str id := by
  rw [Event.decisionId, payload] at hid
  dsimp only at hid
  split at hid
  · rename_i found
    cases hid
    exact found
  · cases hid

/-- What an applied decision has passed, and the ledger has of it afterwards. -/
theorem applies_spec {id : String} (hid : e.decisionId = some id) (h : Applies digest r e) :
    ∃ p event schema envelope, e.payload = .mapping p ∧
      eventSchema e.eventType = some (event, schema) ∧ missing schema.required p = [] ∧
      validateProperties p schema.properties = .ok Option.none ∧
      canonicalDecisionEnvelope event p = .ok envelope ∧ r.seen.prior (.str id) = Option.none ∧
      (r.after digest e).seen.prior (.str id) = some envelope := by
  obtain ⟨result, out, accepted, first⟩ := h
  cases outcome_cases out with
  | malformed payload eq =>
      subst eq
      cases accepted
  | refused p reason payload eq =>
      subst eq
      cases accepted
  | replayed p event schema prior envelope payload known declared seen same eq =>
      subst eq
      cases first
  | applied p event schema entry t effects payload known whole valid decision found eq =>
      obtain ⟨envelope, declared, fresh, entered⟩ :=
        checkDecision_fresh (decisionId_eq hid payload) decision
      refine ⟨p, event, schema, envelope, payload, known, whole, valid, declared, fresh, ?_⟩
      rw [Reducer.after, out]
      subst eq entered
      rw [prior_append, fresh]
      simp [Ledger.prior, same_str]

/-- A decision that the ledger has is not applied. -/
theorem not_applies {id : String} {prior : Dict} (hid : e.decisionId = some id)
    (h : r.seen.prior (.str id) = some prior) : ¬ Applies digest r e := by
  intro applies
  obtain ⟨_, _, _, _, _, _, _, _, _, fresh, _⟩ := applies_spec hid applies
  rw [h] at fresh
  cases fresh

/-- A decision that the ledger has is accepted as a replay only, and with its envelope. -/
theorem replays_of_accepted {id : String} {prior : Dict} (hid : e.decisionId = some id)
    (h : r.seen.prior (.str id) = some prior) (out : outcome digest r e = .ok result)
    (accepted : result.accepted = true) :
    Replays digest r e ∧ ∃ envelope, e.envelope = some envelope ∧ prior.same envelope = true := by
  cases outcome_cases out with
  | malformed payload eq =>
      subst eq
      cases accepted
  | refused p reason payload eq =>
      subst eq
      cases accepted
  | replayed p event schema prior₀ envelope payload known declared seen same eq =>
      rw [decisionId_eq hid payload, h] at seen
      cases seen
      refine ⟨⟨result, out, accepted, ?_⟩, envelope, ?_, same⟩
      · subst eq
        exact ⟨rfl, rfl, rfl, rfl⟩
      · rw [Event.envelope, payload, known]
        simp [declared, Except.toOption]
  | applied p event schema entry t effects payload known whole valid decision found eq =>
      have fresh : ¬ Applies digest r e := not_applies hid h
      refine absurd ⟨result, out, accepted, ?_⟩ fresh
      subst eq
      rfl

/-- The event of an applied decision comes again as a replay. -/
theorem replays_again {r' : Reducer} {e' : Event} {id : String} {prior : Dict}
    (hid : e.decisionId = some id) (applied : Applies digest r e)
    (recorded : (r.after digest e).seen.prior (.str id) = some prior)
    (held : r'.seen.prior (.str id) = some prior) (type : e'.eventType = e.eventType)
    (payload' : e'.payload = e.payload) : Replays digest r' e' := by
  obtain ⟨p, event, schema, envelope, payload, known, whole, valid, declared, _, entered⟩ :=
    applies_spec hid applied
  rw [entered] at recorded
  cases recorded
  refine ⟨{ context := r'.context, effects := [], seen := r'.seen, accepted := true,
            replayed := true }, ?_, rfl, rfl, rfl, rfl, rfl⟩
  have decision : checkDecision digest event p r'.seen = .replayed :=
    checkDecision_of_prior (decisionId_eq hid payload) declared held
      (envelope_same_self known valid declared)
  have passed : outcome digest r' e' =
      stepValid digest r'.context event p e'.trusted r'.seen := by
    rw [outcome, type, payload', payload, step, known]
    dsimp only
    rw [whole, valid]
    rfl
  rw [passed, stepValid, decision]
  rfl

end

/-! ## The images of a run -/

section

variable {digest : Dict → String} {r : Reducer} {e : Event} {result : StepResult}

theorem Dict.get_set {d : Dict} {field other : String} {value : Value} :
    (d.set field value).get other = if other = field then value else d.get other := by
  rw [Dict.set]
  by_cases present : d.has field = true
  · have modified : Table.get Prod.fst other
        (Table.modify Prod.fst field (fun _ => (field, value)) d) =
          (Table.get Prod.fst other d).map fun e =>
            if other = field then (field, value) else e := by
      apply Table.get_modify
      intro _ _
      rfl
    rw [if_pos present, Dict.get, modified, Dict.get]
    by_cases same : other = field
    · subst same
      obtain ⟨row, found⟩ := Option.isSome_iff_exists.mp present
      simp [found]
    · simp [same]
  · rw [if_neg present, Dict.get, Table.get_append, Dict.get]
    have absent : Table.get Prod.fst field d = none := by simpa [Dict.has] using present
    by_cases same : other = field
    · subst same
      simp [absent]
    · simp [same, Ne.symm same]

/-- No update writes the state. -/
theorem update_field_ne : ∀ t ∈ transitions, ∀ u ∈ t.contextUpdates, u.1 ≠ "state" := by
  have all : (transitions.all fun t => t.contextUpdates.all fun u => u.1 ≠ "state") = true := by
    decide
  simpa using all

theorem nextContext_state {t : Transition} (ht : t ∈ transitions) (context payload : Dict) :
    (nextContext t context payload).get "state" = .str (stateName t.dest) := by
  have fixed : ∀ updates : List (String × Expression), (∀ u ∈ updates, u.1 ≠ "state") →
      ∀ next : Dict, (updates.foldl (fun next u => next.set u.1 (resolve context payload u.2))
        next).get "state" = next.get "state" := by
    intro updates
    induction updates with
    | nil => exact fun _ _ => rfl
    | cons u updates ih =>
        intro apart next
        rw [List.foldl_cons, ih fun v hv => apart v (List.mem_cons_of_mem _ hv), Dict.get_set,
          if_neg (apart u List.mem_cons_self).symm]
  rw [nextContext, fixed _ (update_field_ne t ht), Dict.get_set, if_pos rfl]

/-- The image of a context in a semantic state is that of the state. -/
theorem image_of_state {context : Dict} {st : SemanticState}
    (h : context.get "state" = .str (stateName st)) : image context = Omd.projectLegacy st := by
  rw [image, projectLegacy, h]
  cases st <;> rfl

/-- The transitions are those of the semantic machine. -/
theorem transitions_semantic : ∀ t ∈ transitions, semanticStep t.source t.event = some t.dest := by
  have all : (transitions.all fun t => semanticStep t.source t.event = some t.dest) = true := by
    decide
  simpa using all

/-- A semantic step from a state with an image keeps the image or moves it along the legacy
machine. -/
theorem semanticStep_image {st st' : SemanticState} {event : AdmissionEvent} {s : OrbitState}
    (h : semanticStep st event = some st') (hs : Omd.projectLegacy st = some s) :
    Omd.projectLegacy st' = some s ∨
      ∃ trigger s', orbitTransition s trigger = some s' ∧ Omd.projectLegacy st' = some s' := by
  cases st <;> cases event <;> cases h <;> cases hs
  all_goals first
    | exact Or.inl rfl
    | exact Or.inr ⟨.grant, _, rfl, rfl⟩
    | exact Or.inr ⟨.deny, _, rfl, rfl⟩
    | exact Or.inr ⟨.release, _, rfl, rfl⟩
    | exact Or.inr ⟨.expire, _, rfl, rfl⟩

theorem eq_of_same_str {v : Value} {text : String} (h : (Value.str text).same v = true) :
    v = .str text := by
  cases v <;> simp_all [Value.same, Value.number]

/-- A step keeps the image or moves it along the legacy machine. -/
theorem image_after {s : OrbitState} (h : image r.context = some s) :
    image (r.after digest e).context = some s ∨
      ∃ trigger s', orbitTransition s trigger = some s' ∧
        image (r.after digest e).context = some s' := by
  rw [Reducer.after]
  cases out : outcome digest r e with
  | error _ => exact Or.inl h
  | ok result =>
      cases outcome_cases out with
      | malformed payload eq =>
          subst eq
          exact Or.inl h
      | refused p reason payload eq =>
          subst eq
          exact Or.inl h
      | replayed p event schema prior envelope payload known declared seen same eq =>
          subst eq
          exact Or.inl h
      | applied p event schema entry t effects payload known whole valid decision found eq =>
          subst eq
          have ht := List.mem_of_find?_eq_some found
          have source := List.find?_some found
          simp only [Bool.and_eq_true, decide_eq_true_eq] at source
          rw [image_of_state (eq_of_same_str source.1)] at h
          rw [image_of_state (nextContext_state ht r.context p)]
          exact semanticStep_image (transitions_semantic t ht) h

end

/-! ## Runs that keep the ledger -/

/-- An envelope in the ledger stays there. -/
theorem prior_states {digest : Dict → String} {r : Reducer} {events : ℕ → Event}
    (kept : ∀ n, Kept (states digest r events n) (events n)) {n m : ℕ} (h : n ≤ m) {id : Value}
    {prior : Dict} (found : (states digest r events n).seen.prior id = some prior) :
    (states digest r events m).seen.prior id = some prior := by
  induction m, h using Nat.le_induction with
  | base => exact found
  | succ m _ ih => exact prior_after (kept m) ih

/-- A refused event changes nothing and is audited once if and only if the step does not lose
the ledger.  In a run of steps that do not, every decision is applied at most once: its event
comes again as a replay, its identifier is accepted as a replay only, and not under another
envelope; and the legacy images, once there is one, follow the legacy machine. -/
theorem decision_applied_once (digest : Dict → String) (r : Reducer) (events : ℕ → Event)
    (kept : ∀ n, Kept (states digest r events n) (events n)) :
    let σ := states digest r events
    (∀ r e, Atomic digest r e ↔ Kept r e) ∧
    (∀ n, Atomic digest (σ n) (events n)) ∧
    (∀ n m id, n < m → (events n).decisionId = some id → Applies digest (σ n) (events n) →
      ((events m).eventType = (events n).eventType → (events m).payload = (events n).payload →
        Replays digest (σ m) (events m)) ∧
      ((events m).decisionId = some id →
        ¬ Applies digest (σ m) (events m) ∧
        ∀ result, outcome digest (σ m) (events m) = .ok result → result.accepted = true →
          Replays digest (σ m) (events m) ∧ ∃ first again, (events n).envelope = some first ∧
            (events m).envelope = some again ∧ first.same again = true)) ∧
    (∀ n s, image (σ n).context = some s → image (σ (n + 1)).context = some s ∨
      ∃ trigger s', orbitTransition s trigger = some s' ∧
        image (σ (n + 1)).context = some s') := by
  intro σ
  refine ⟨fun r e => atomic_iff, fun n => atomic_iff.mpr (kept n), ?_,
    fun n s h => image_after h⟩
  intro n m id lt hid applied
  obtain ⟨p, event, schema, envelope, payload, known, _, _, declared, _, entered⟩ :=
    applies_spec hid applied
  have held : (σ m).seen.prior (.str id) = some envelope := prior_states kept lt entered
  refine ⟨fun type same => replays_again hid applied entered held type same, fun hid' => ?_⟩
  refine ⟨not_applies hid' held, fun result out accepted => ?_⟩
  obtain ⟨replays, again, hagain, same⟩ := replays_of_accepted hid' held out accepted
  refine ⟨replays, envelope, again, ?_, hagain, same⟩
  rw [Event.envelope, payload, known]
  simp [declared, Except.toOption]

/-! ## A run -/

/-- A digest in hexadecimal. -/
def someHash : String := "0123456789abcdef0123456789abcdef0123456789abcdef0123456789abcdef"

/-- The identity of a request. -/
def someIdentity : Dict :=
  [("repository_id", .str "repo"), ("request_id", .str "r1"), ("orbit_id", .str "o1"),
    ("request_generation", .int 1), ("owner_agent", .str "A"), ("bail_epoch", .int 0),
    ("mode", .str "write"), ("pathspec_digest", .str someHash), ("policy_version", .str "v2")]

/-- A request that waits. -/
def waiting : Reducer :=
  { context := ("state", .str "PENDING") :: ("queue_seq", .int 1) :: someIdentity
    seen := [] }

/-- An observation that the request is blocked. -/
def blockedEvent : Event :=
  { eventType := "PROMOTION_BLOCKED"
    payload := .mapping (someIdentity ++ [("queue_seq", .int 1), ("actor", .str "kernel"),
      ("event_id", .str "e1"), ("authority_snapshot_hash", .str someHash),
      ("decision_id", .str "d1"), ("blocker_fingerprint", .str someHash),
      ("base_priority", .int 0), ("effective_priority", .int 0), ("observed_at", .float 1)])
    trusted := someHash }

/-- An event whose payload is no mapping. -/
def malformedEvent : Event := { eventType := "RENEW", payload := .other, trusted := someHash }

/-- The event is accepted, and is no replay. -/
def applies (digest : Dict → String) (r : Reducer) (e : Event) : Bool :=
  match outcome digest r e with
  | .ok result => result.accepted && !result.replayed
  | .error _ => false

theorem applies_iff {digest : Dict → String} {r : Reducer} {e : Event} :
    applies digest r e = true ↔ Applies digest r e := by
  rw [applies, Applies]
  cases outcome digest r e <;> simp

/-- An observation that comes every time is applied the first time only. -/
theorem decision_applied_once_blocked :
    Applies (fun _ => "d1") waiting blockedEvent ∧
      ∀ m, 0 < m →
        Replays (fun _ => "d1") (states (fun _ => "d1") waiting (fun _ => blockedEvent) m)
        blockedEvent := by
  have first : Applies (fun _ => "d1") waiting blockedEvent :=
    applies_iff.mp (by decide +kernel)
  obtain ⟨_, _, once, _⟩ := decision_applied_once (fun _ => "d1") waiting (fun _ => blockedEvent)
    fun n => Or.inl (by simp [blockedEvent])
  exact ⟨first, fun m pos => (once 0 m "d1" pos rfl first).1 rfl rfl⟩

/-- A malformed payload loses the ledger, and the decision is applied a second time. -/
theorem ledger_lost :
    (∃ r e result, (∀ digest, outcome digest r e = .ok result) ∧ result.accepted = false ∧
      result.seen ≠ r.seen) ∧
    ∃ digest r events, (events 0).decisionId = some "d1" ∧ events 2 = events 0 ∧
      Applies digest (states digest r events 0) (events 0) ∧
      Applies digest (states digest r events 2) (events 2) := by
  constructor
  · exact ⟨{ waiting with seen := [(.str "d1", [])] }, malformedEvent, _, fun _ => rfl, rfl,
      by simp [audit]⟩
  · refine ⟨fun _ => "d1", waiting, fun n => if n = 1 then malformedEvent else blockedEvent, rfl,
      rfl, ?_, ?_⟩
    · exact applies_iff.mp (by decide +kernel)
    · exact applies_iff.mp (by decide +kernel)

end Omd.Contract
