import Omd.Reconcile

/-!
# The contract of admission events

`admission_contract.step` reduces one typed event.  It reads the schemas, the transitions,
the context updates and the bindings of effects from the description of the machine, computes
the guards from the payload, and keeps a ledger of the decisions it has applied: an applied
decision that comes again changes nothing, and its identifier under another envelope is
refused.

An event that is refused leaves by one of ten branches, each with an audit effect.  Nine of
them hand the ledger back.  A payload that is not even a mapping leaves by the tenth, which
hands back an empty one.
-/

namespace Omd.Contract

open Lib

/-! ## Values -/

/-- A value of a payload or of a context; `other` is an object of none of these types, known up
to equality. -/
inductive Value
  | none
  | bool (b : Bool)
  | int (i : ℤ)
  | float (q : ℚ)
  | infinite (negative : Bool)
  | nan
  | str (s : String)
  | other (n : ℕ) (truth : Bool)
  deriving DecidableEq, Repr

/-- The number that a value compares as. -/
def Value.number : Value → Option ℚ
  | .bool b => some (if b then 1 else 0)
  | .int i => some i
  | .float q => some q
  | _ => Option.none

/-- `==`. -/
def Value.same (a b : Value) : Bool :=
  match a.number, b.number with
  | some x, some y => x = y
  | Option.none, Option.none => a = b && a ≠ .nan
  | _, _ => false

/-- `bool(value)`. -/
def Value.truthy : Value → Bool
  | .none => false
  | .bool b => b
  | .int i => i ≠ 0
  | .float q => q ≠ 0
  | .infinite _ | .nan => true
  | .str s => s ≠ ""
  | .other _ truth => truth

/-- A mapping from the names of fields. -/
abbrev Dict := List (String × Value)

namespace Dict

/-- `d.get(field)`. -/
def get (d : Dict) (field : String) : Value :=
  ((Table.get Prod.fst field d).map Prod.snd).getD .none

/-- `field in d`. -/
def has (d : Dict) (field : String) : Bool := (Table.get Prod.fst field d).isSome

/-- `d[field] = value`. -/
def set (d : Dict) (field : String) (value : Value) : Dict :=
  if d.has field then Table.modify Prod.fst field (fun _ => (field, value)) d
  else d ++ [(field, value)]

/-- `==` of two mappings. -/
def same (a b : Dict) : Bool :=
  a.length = b.length && a.all fun e => b.has e.1 && e.2.same (b.get e.1)

end Dict

/-- A payload, which may be no mapping. -/
inductive Payload
  | mapping (d : Dict)
  | other
  deriving DecidableEq, Repr

/-- What leaves `step` as an exception: `math.isfinite` raises on an integer that no float can
hold. -/
inductive Raised
  | overflowError
  deriving DecidableEq, Repr

/-! ## The description of the machine -/

/-- The declared types of a property. -/
inductive PropertyType
  | string | actorId | sha256 | nonNegativeInteger | integer | timestamp
  deriving DecidableEq, Repr

/-- The name of a type. -/
def PropertyType.text : PropertyType → String
  | .string => "string"
  | .actorId => "actor-id"
  | .sha256 => "sha256"
  | .nonNegativeInteger => "non-negative integer"
  | .integer => "integer"
  | .timestamp => "timestamp"

/-- The declaration of a property. -/
structure Declaration where
  type : PropertyType
  const : Option Value := Option.none

/-- A payload schema. -/
structure Schema where
  required : List String
  properties : List (String × Declaration)

/-- The declaration of a field, which is the same in every schema that has the field. -/
def declaration : String → Declaration
  | "owner_agent" | "actor" => { type := .actorId }
  | "pathspec_digest" | "authority_snapshot_hash" | "blocker_fingerprint" => { type := .sha256 }
  | "request_generation" | "bail_epoch" | "fence" | "queue_seq" | "queue_depth"
  | "queue_capacity" => { type := .nonNegativeInteger }
  | "no_lease_fence" => { type := .nonNegativeInteger, const := some (.int 0) }
  | "base_priority" | "effective_priority" => { type := .integer }
  | "lease_deadline" | "observed_at" | "enqueued_at" | "wait_deadline" | "retry_after_at" =>
      { type := .timestamp }
  | _ => { type := .string }

/-- A schema that requires all its properties. -/
def Schema.ofFields (fields : List String) : Schema :=
  { required := fields
    properties := fields.map fun f => (f, declaration f) }

/-- The name of an event. -/
def eventName : AdmissionEvent → String
  | .ADMISSION_GRANTED => "ADMISSION_GRANTED"
  | .ADMISSION_QUEUED => "ADMISSION_QUEUED"
  | .ADMISSION_DENIED => "ADMISSION_DENIED"
  | .ADMISSION_REJECTED => "ADMISSION_REJECTED"
  | .PROMOTION_GRANTED => "PROMOTION_GRANTED"
  | .PROMOTION_BLOCKED => "PROMOTION_BLOCKED"
  | .PROMOTION_DENIED => "PROMOTION_DENIED"
  | .RENEW => "RENEW"
  | .RELEASE => "RELEASE"
  | .CANCEL => "CANCEL"
  | .WAIT_TIMEOUT => "WAIT_TIMEOUT"
  | .LEASE_EXPIRED => "LEASE_EXPIRED"
  | .WAIT_OWNER_RECLAIMED => "WAIT_OWNER_RECLAIMED"
  | .LEASE_OWNER_RECLAIMED => "LEASE_OWNER_RECLAIMED"
  | .AGENT_RECLAIMED => "AGENT_RECLAIMED"

/-- `REQUEST_FIELDS`. -/
def requestFields : List String := ["repository_id", "request_id", "orbit_id", "request_generation"]

/-- `OWNER_FIELDS`. -/
def ownerFields : List String := requestFields ++ ["owner_agent", "bail_epoch"]

/-- `LEASE_FIELDS`. -/
def leaseFields : List String := ownerFields ++ ["fence"]

/-- `IDENTITY_FIELDS`. -/
def identityFields : List String :=
  ownerFields ++ ["mode", "pathspec_digest", "policy_version"]

/-- The fields at the end of every decision. -/
def rankFields : List String := ["base_priority", "effective_priority", "observed_at"]

/-- `event_schemas`. -/
def eventSchemas : List (AdmissionEvent × Schema) :=
  let admission (fields : List String) := Schema.ofFields
    (identityFields ++ ["actor", "event_id", "authority_snapshot_hash", "decision_id"] ++ fields ++
      rankFields)
  let promotion (fields : List String) := Schema.ofFields
    (identityFields ++ ["queue_seq", "actor", "event_id", "authority_snapshot_hash",
      "decision_id"] ++ fields ++ rankFields)
  let lifecycle (fields : List String) := Schema.ofFields (requestFields ++ "actor" :: fields)
  [(.ADMISSION_GRANTED, admission ["fence", "lease_deadline"]),
    (.ADMISSION_QUEUED, admission ["queue_seq", "enqueued_at", "wait_deadline"]),
    (.ADMISSION_DENIED, admission ["reason"]),
    (.ADMISSION_REJECTED,
      admission ["reason", "queue_depth", "queue_capacity", "retry_after_at"]),
    (.PROMOTION_GRANTED, promotion ["fence", "lease_deadline"]),
    (.PROMOTION_BLOCKED, promotion ["blocker_fingerprint"]),
    (.PROMOTION_DENIED, promotion ["reason"]),
    (.RENEW, lifecycle ["owner_agent", "fence", "bail_epoch", "authority_snapshot_hash",
      "lease_deadline", "event_id"]),
    (.RELEASE, lifecycle ["owner_agent", "fence", "bail_epoch", "authority_snapshot_hash",
      "event_id"]),
    (.CANCEL, lifecycle ["owner_agent", "bail_epoch", "authority_snapshot_hash", "event_id"]),
    (.WAIT_TIMEOUT, lifecycle ["authority_snapshot_hash", "observed_at", "event_id"]),
    (.LEASE_EXPIRED, lifecycle ["fence", "authority_snapshot_hash", "observed_at", "event_id"]),
    (.WAIT_OWNER_RECLAIMED, lifecycle ["owner_agent", "no_lease_fence", "bail_epoch",
      "authority_snapshot_hash", "event_id"]),
    (.LEASE_OWNER_RECLAIMED, lifecycle ["owner_agent", "fence", "bail_epoch",
      "authority_snapshot_hash", "event_id"])]

/-- `common_fields` of a decision, without the event type. -/
def commonFields : List String := identityFields ++ ["authority_snapshot_hash"]

/-- `_variant_fields`. -/
def variantFields : AdmissionEvent → Option (List String)
  | .ADMISSION_GRANTED => some (["fence", "lease_deadline"] ++ rankFields)
  | .PROMOTION_GRANTED => some (["queue_seq", "fence", "lease_deadline"] ++ rankFields)
  | .ADMISSION_QUEUED => some (["queue_seq", "enqueued_at", "wait_deadline"] ++ rankFields)
  | .ADMISSION_DENIED => some (["reason"] ++ rankFields)
  | .ADMISSION_REJECTED =>
      some (["reason", "queue_depth", "queue_capacity", "retry_after_at"] ++ rankFields)
  | .PROMOTION_DENIED => some (["queue_seq", "reason"] ++ rankFields)
  | .PROMOTION_BLOCKED => some (["queue_seq", "blocker_fingerprint"] ++ rankFields)
  | _ => Option.none

/-- The effects. -/
inductive EffectKind
  | RecordLeaseGrant | RecordQueueEntry | RecordDenial | RecordOverload | RecordQueueObservation
  | RecordLeaseRenewal | RecordRelease | RecordCancellation | RecordTimeout | RecordExpiration
  | RecordWaitOwnerReclaim | RecordLeaseOwnerReclaim | AuditInvalidTransition
  deriving DecidableEq, Repr

/-- The name of an effect. -/
def EffectKind.name : EffectKind → String
  | .RecordLeaseGrant => "RecordLeaseGrant"
  | .RecordQueueEntry => "RecordQueueEntry"
  | .RecordDenial => "RecordDenial"
  | .RecordOverload => "RecordOverload"
  | .RecordQueueObservation => "RecordQueueObservation"
  | .RecordLeaseRenewal => "RecordLeaseRenewal"
  | .RecordRelease => "RecordRelease"
  | .RecordCancellation => "RecordCancellation"
  | .RecordTimeout => "RecordTimeout"
  | .RecordExpiration => "RecordExpiration"
  | .RecordWaitOwnerReclaim => "RecordWaitOwnerReclaim"
  | .RecordLeaseOwnerReclaim => "RecordLeaseOwnerReclaim"
  | .AuditInvalidTransition => "AuditInvalidTransition"

/-- The fields of an effect.  Its schema requires them all. -/
def EffectKind.fields : EffectKind → List String
  | .RecordLeaseGrant => receipt ++ ["decision_id", "policy_version", "fence", "lease_deadline"] ++
      rankFields
  | .RecordQueueEntry => receipt ++ ["decision_id", "policy_version", "queue_seq", "enqueued_at",
      "wait_deadline"] ++ rankFields
  | .RecordDenial => receipt ++ ["decision_id", "reason"] ++ rankFields
  | .RecordOverload => receipt ++ ["decision_id", "reason", "queue_depth", "queue_capacity",
      "retry_after_at"] ++ rankFields
  | .RecordQueueObservation => receipt ++ ["decision_id", "blocker_fingerprint"] ++ rankFields
  | .RecordLeaseRenewal => receipt ++ ["fence", "lease_deadline"]
  | .RecordRelease => receipt ++ ["fence"]
  | .RecordCancellation => receipt
  | .RecordTimeout => receipt ++ ["observed_at"]
  | .RecordExpiration => receipt ++ ["fence", "observed_at"]
  | .RecordWaitOwnerReclaim => receipt ++ ["owner_agent", "no_lease_fence", "bail_epoch"]
  | .RecordLeaseOwnerReclaim => receipt ++ ["owner_agent", "fence", "bail_epoch"]
  | .AuditInvalidTransition => ["state", "event", "actor", "reason", "event_id"]
where
  receipt : List String := requestFields ++ ["event_id", "authority_snapshot_hash"]

/-- The guards. -/
inductive Guard
  | admission_identity_current | promotion_identity_current
  | lease_authority_current | held_owner_reclaim_current
  | wait_owner_current | pending_owner_reclaim_current
  | wait_timeout_due | lease_timeout_due
  deriving DecidableEq, Repr

/-- An expression of an update or of a binding. -/
inductive Expression
  | event (field : String)
  | configuration (field : String)
  | rejectionReason
  deriving DecidableEq, Repr

/-- A transition, with the bindings of each of its effects. -/
structure Transition where
  source : SemanticState
  event : AdmissionEvent
  dest : SemanticState
  guard : Guard
  contextUpdates : List (String × Expression)
  effects : List (EffectKind × List (String × Expression))

/-- Each field is bound to the field of its name. -/
def fromEvent (fields : List String) : List (String × Expression) :=
  fields.map fun f => (f, .event f)

/-- The effect, bound to the payload. -/
def bound (kind : EffectKind) : List (EffectKind × List (String × Expression)) :=
  [(kind, fromEvent kind.fields)]

/-- `transitions`. -/
def transitions : List Transition :=
  let decided (fields : List String) (reason : List (String × Expression)) (more : List String) :=
    fromEvent (["authority_snapshot_hash", "decision_id"] ++ fields) ++ reason ++
      fromEvent (more ++ rankFields)
  let snapshot := fromEvent ["authority_snapshot_hash"]
  let because := [("terminal_reason", Expression.event "reason")]
  [⟨.REQUESTED, .ADMISSION_GRANTED, .HELD, .admission_identity_current,
      decided ["fence", "lease_deadline"] [] [], bound .RecordLeaseGrant⟩,
    ⟨.REQUESTED, .ADMISSION_QUEUED, .PENDING, .admission_identity_current,
      decided ["queue_seq", "enqueued_at", "wait_deadline"] [] [], bound .RecordQueueEntry⟩,
    ⟨.REQUESTED, .ADMISSION_DENIED, .DENIED, .admission_identity_current,
      decided [] because [], bound .RecordDenial⟩,
    ⟨.REQUESTED, .ADMISSION_REJECTED, .REJECTED, .admission_identity_current,
      decided [] because ["queue_depth", "queue_capacity", "retry_after_at"],
      bound .RecordOverload⟩,
    ⟨.REQUESTED, .CANCEL, .CANCELLED, .wait_owner_current, snapshot, bound .RecordCancellation⟩,
    ⟨.PENDING, .PROMOTION_GRANTED, .HELD, .promotion_identity_current,
      decided ["fence", "lease_deadline"] [] [], bound .RecordLeaseGrant⟩,
    ⟨.PENDING, .PROMOTION_BLOCKED, .PENDING, .promotion_identity_current,
      decided ["blocker_fingerprint"] [] [], bound .RecordQueueObservation⟩,
    ⟨.PENDING, .PROMOTION_DENIED, .DENIED, .promotion_identity_current,
      decided [] because [], bound .RecordDenial⟩,
    ⟨.PENDING, .WAIT_TIMEOUT, .TIMED_OUT, .wait_timeout_due, snapshot, bound .RecordTimeout⟩,
    ⟨.PENDING, .CANCEL, .CANCELLED, .wait_owner_current, snapshot, bound .RecordCancellation⟩,
    ⟨.PENDING, .WAIT_OWNER_RECLAIMED, .CANCELLED, .pending_owner_reclaim_current, snapshot,
      bound .RecordWaitOwnerReclaim⟩,
    ⟨.HELD, .RENEW, .HELD, .lease_authority_current,
      fromEvent ["authority_snapshot_hash", "lease_deadline"], bound .RecordLeaseRenewal⟩,
    ⟨.HELD, .RELEASE, .RELEASED, .lease_authority_current, snapshot, bound .RecordRelease⟩,
    ⟨.HELD, .LEASE_EXPIRED, .EXPIRED, .lease_timeout_due, snapshot, bound .RecordExpiration⟩,
    ⟨.HELD, .LEASE_OWNER_RECLAIMED, .EXPIRED, .held_owner_reclaim_current, snapshot,
      bound .RecordLeaseOwnerReclaim⟩]

/-! ## Schemas -/

/-- The digits of a hexadecimal digest. -/
def isHex (c : Char) : Bool := ('0' ≤ c && c ≤ '9') || ('a' ≤ c && c ≤ 'f')

/-- The first integer that no float can hold. -/
def floatBound : ℤ := 2 ^ 1024 - 2 ^ 970

/-- A finite number that is no boolean. -/
def finite : Value → Except Raised Bool
  | .int i => if |i| < floatBound then .ok true else .error .overflowError
  | .float _ => .ok true
  | _ => .ok false

/-- `_valid_property`. -/
def validProperty (value : Value) (d : Declaration) : Except Raised Bool := do
  let valid : Bool ← match d.type, value with
    | .string, .str s | .actorId, .str s => .ok (s ≠ "")
    | .sha256, .str s => .ok (s.toList.length = 64 && s.toList.all isHex)
    | .nonNegativeInteger, .int i => .ok (0 ≤ i)
    | .integer, .int _ => .ok true
    | .timestamp, value => finite value
    | _, _ => .ok false
  return valid && d.const.all value.same

/-- `_validate_payload_schema`: the first property that is there and not valid. -/
def validateProperties (payload : Dict) :
    List (String × Declaration) → Except Raised (Option String)
  | [] => .ok Option.none
  | (field, d) :: properties =>
      if payload.has field then do
        if ← validProperty (payload.get field) d then validateProperties payload properties
        else return some ("invalid_property:" ++ field ++ ":" ++ d.type.text)
      else validateProperties payload properties

/-- The required fields that are not there. -/
def missing (required : List String) (payload : Dict) : List String :=
  required.filter fun f => !payload.has f

/-- `event_schemas.get(event_type)`. -/
def eventSchema (eventType : String) : Option (AdmissionEvent × Schema) :=
  eventSchemas.find? fun e => eventName e.1 = eventType

/-! ## Decisions -/

/-- `canonical_decision_envelope`, or the text of its `ValueError`. -/
def canonicalDecisionEnvelope (event : AdmissionEvent) (payload : Dict) : Except String Dict :=
  match variantFields event with
  | Option.none => .error ("event '" ++ eventName event ++ "' is not an admission decision")
  | some variant =>
      let fields := commonFields ++ variant
      match missing fields payload with
      | [] => .ok (("schema", .str "admission_decision/v2") ::
          ("event_type", .str (eventName event)) :: fields.map fun f => (f, payload.get f))
      | absent => .error ("missing decision fields: " ++ ", ".intercalate absent)

/-- The ledger: the envelope of each decision that was applied. -/
abbrev Ledger := List (Value × Dict)

/-- `seen.get(decision_id)`. -/
def Ledger.prior (seen : Ledger) (id : Value) : Option Dict :=
  (seen.find? fun e => e.1.same id).map Prod.snd

/-- What the ledger says about a payload. -/
inductive Decision
  | rejected (reason : String)
  | replayed
  | fresh (entry : Option (Value × Dict))

/-- The identity of a decision, checked against the ledger and against its envelope. -/
def checkDecision (digest : Dict → String) (event : AdmissionEvent) (payload : Dict)
    (seen : Ledger) : Decision :=
  match payload.get "decision_id" with
  | .none => .fresh Option.none
  | id =>
      match canonicalDecisionEnvelope event payload with
      | .error text => .rejected ("invalid_envelope:" ++ text)
      | .ok envelope =>
          match seen.prior id with
          | some prior =>
              if prior.same envelope then .replayed else .rejected "decision_envelope_conflict"
          | Option.none =>
              if (Value.str (digest envelope)).same id then .fresh (some (id, envelope))
              else .rejected "decision_id_mismatch"

/-! ## Guards -/

/-- `_same_fields`. -/
def sameFields (context payload : Dict) (fields : List String) : Option String :=
  (fields.find? fun f => !(context.get f).same (payload.get f)).map ("identity_mismatch:" ++ ·)

/-- The deadline of the context has come at the time of the payload. -/
def deadlineDue (context payload : Dict) (deadline invalid early : String) :
    Except Raised (Option String) := do
  if !(← finite (context.get deadline)) then return some invalid
  if !(← finite (payload.get "observed_at")) then return some invalid
  match (context.get deadline).number, (payload.get "observed_at").number with
  | some due, some observed => return if due ≤ observed then Option.none else some early
  | _, _ => return some invalid

/-- The decision id of the payload is the digest of its envelope. -/
def decisionBound (digest : Dict → String) (event : AdmissionEvent) (payload : Dict) :
    Option String :=
  match canonicalDecisionEnvelope event payload with
  | .error text => some ("invalid_decision_envelope:" ++ text)
  | .ok envelope =>
      if (payload.get "decision_id").same (.str (digest envelope)) then Option.none
      else some "decision_id_mismatch"

/-- `evaluate_decision_guard`: the reason to refuse, if there is one. -/
def evaluateDecisionGuard (digest : Dict → String) (context : Dict) (event : AdmissionEvent)
    (payload : Dict) (trusted : String) (guard : Guard) : Except Raised (Option String) :=
  if !(payload.get "authority_snapshot_hash").same (.str trusted) then
    .ok (some "authority_snapshot_mismatch")
  else
    match guard with
    | .admission_identity_current =>
        .ok ((sameFields context payload identityFields).or (decisionBound digest event payload))
    | .promotion_identity_current =>
        .ok ((sameFields context payload (identityFields ++ ["queue_seq"])).or
          (decisionBound digest event payload))
    | .lease_authority_current | .held_owner_reclaim_current =>
        .ok (sameFields context payload leaseFields)
    | .wait_owner_current => .ok (sameFields context payload ownerFields)
    | .pending_owner_reclaim_current =>
        .ok ((sameFields context payload ownerFields).or
          (if (payload.get "no_lease_fence").same (.int 0) then Option.none
            else some "pending_reclaim_has_lease_fence"))
    | .wait_timeout_due =>
        match sameFields context payload requestFields with
        | some reason => .ok (some reason)
        | Option.none => deadlineDue context payload "wait_deadline" "invalid_wait_deadline"
            "wait_deadline_not_due"
    | .lease_timeout_due =>
        match sameFields context payload (requestFields ++ ["fence"]) with
        | some reason => .ok (some reason)
        | Option.none => deadlineDue context payload "lease_deadline" "invalid_lease_deadline"
            "lease_deadline_not_due"

/-! ## The step -/

/-- `_resolve`. -/
def resolve (context payload : Dict) : Expression → Value
  | .event field => payload.get field
  | .configuration field => context.get field
  | .rejectionReason => .str "invalid_transition"

/-- An effect command. -/
structure Effect where
  kind : EffectKind
  fields : Dict
  deriving DecidableEq, Repr

/-- `StepResult`. -/
structure StepResult where
  context : Dict
  effects : List Effect
  seen : Ledger
  accepted : Bool
  replayed : Bool := false
  reason : String := ""
  deriving DecidableEq, Repr

/-- `_audit`. -/
def audit (context : Dict) (eventType : String) (payload : Dict) (reason : String)
    (seen : Ledger) : StepResult :=
  { context
    effects := [{ kind := .AuditInvalidTransition
                  fields := [("state", context.get "state"), ("event", .str eventType),
                    ("actor", payload.get "actor"), ("reason", .str reason),
                    ("event_id", payload.get "event_id")] }]
    seen
    accepted := false
    reason }

/-- The effects of a transition, each against its schema. -/
def bindEffects (context payload : Dict) : List (EffectKind × List (String × Expression)) →
    Except Raised (Except String (List Effect))
  | [] => .ok (.ok [])
  | (kind, bindings) :: effects => do
      let fields := bindings.map fun b => (b.1, resolve context payload b.2)
      let schema := Schema.ofFields kind.fields
      match missing schema.required fields with
      | [] =>
          match ← validateProperties fields schema.properties with
          | some error => return .error ("invalid_effect:" ++ kind.name ++ ":" ++ error)
          | Option.none =>
              match ← bindEffects context payload effects with
              | .error reason => return .error reason
              | .ok bound => return .ok ({ kind, fields } :: bound)
      | absent =>
          return .error ("invalid_effect:" ++ kind.name ++ ":missing_required:" ++
            ",".intercalate absent)

/-- The name of a semantic state. -/
def stateName : SemanticState → String
  | .REQUESTED => "REQUESTED"
  | .PENDING => "PENDING"
  | .HELD => "HELD"
  | .RELEASED => "RELEASED"
  | .EXPIRED => "EXPIRED"
  | .DENIED => "DENIED"
  | .REJECTED => "REJECTED"
  | .CANCELLED => "CANCELLED"
  | .TIMED_OUT => "TIMED_OUT"

/-- The transition from the state of the context. -/
def findTransition (context : Dict) (event : AdmissionEvent) : Option Transition :=
  transitions.find? fun t =>
    (Value.str (stateName t.source)).same (context.get "state") && t.event = event

/-- The context after a transition. -/
def nextContext (t : Transition) (context payload : Dict) : Dict :=
  t.contextUpdates.foldl (fun next u => next.set u.1 (resolve context payload u.2))
    (context.set "state" (.str (stateName t.dest)))

/-- A step, once the payload has passed its schema. -/
def stepValid (digest : Dict → String) (context : Dict) (event : AdmissionEvent) (payload : Dict)
    (trusted : String) (seen : Ledger) : Except Raised StepResult := do
  let reject (reason : String) := audit context (eventName event) payload reason seen
  match checkDecision digest event payload seen with
  | .rejected reason => return reject reason
  | .replayed => return { context, effects := [], seen, accepted := true, replayed := true }
  | .fresh entry =>
      match findTransition context event with
      | Option.none => return reject "invalid_transition"
      | some t =>
          match ← evaluateDecisionGuard digest context event payload trusted t.guard with
          | some reason => return reject reason
          | Option.none =>
              match ← bindEffects context payload t.effects with
              | .error reason => return reject reason
              | .ok effects =>
                  return { context := nextContext t context payload, effects
                           seen := seen ++ entry.toList, accepted := true }

/-- `step`.  `digest` is `sha256_json`. -/
def step (digest : Dict → String) (context : Dict) (eventType : String) (payload : Payload)
    (trusted : String) (seen : Ledger) : Except Raised StepResult :=
  match payload with
  | .other => .ok (audit context eventType [] "payload_not_object" [])
  | .mapping payload =>
      match eventSchema eventType with
      | Option.none => .ok (audit context eventType payload "unknown_event" seen)
      | some (event, schema) => do
          match missing schema.required payload with
          | [] =>
              match ← validateProperties payload schema.properties with
              | some error => return audit context eventType payload error seen
              | Option.none => stepValid digest context event payload trusted seen
          | absent =>
              return audit context eventType payload
                ("missing_required:" ++ ",".intercalate absent) seen

/-! ## The projection -/

/-- `LegacyProjection`. -/
structure LegacyProjection where
  state : Option OrbitState
  terminalReason : Value := .none
  deriving DecidableEq, Repr

/-- The reason that a terminal state is given when the context has none. -/
def defaultReason : SemanticState → Option String
  | .DENIED => some "policy_or_cycle_denial"
  | .CANCELLED => some "cancelled"
  | .TIMED_OUT => some "wait_timeout"
  | .REJECTED => some "rejected"
  | _ => Option.none

/-- The semantic states. -/
def semanticStates : List SemanticState :=
  [.REQUESTED, .PENDING, .HELD, .RELEASED, .EXPIRED, .DENIED, .CANCELLED, .TIMED_OUT, .REJECTED]

/-- `project_legacy`. -/
def projectLegacy (state : Value) (context : Dict) : Except Fault LegacyProjection :=
  match semanticStates.find? fun st => state.same (.str (stateName st)) with
  | Option.none => .error (.valueError "unknown semantic orbit state")
  | some st =>
      let reason := context.get "terminal_reason"
      .ok { state := Omd.projectLegacy st
            terminalReason := match defaultReason st with
              | Option.none => .none
              | some default => if reason.truthy then reason else .str default }

end Omd.Contract
