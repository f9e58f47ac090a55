import Mathlib.Tactic.Common

/-!
# The state machines of orbits, tasks and barriers

The coordinator stores a state column in each row and asks `advance` before every
write whether the transition is legal.  `advance` answers with the new state, or with
the machine error the caller propagates.

The three machines are the three transition tables of the source.  A table is a
function from a state and a trigger, so that a trigger applied outside its sources
has no value.
-/

namespace Omd

/-- What a verb raises.  An exception leaves the critical section by rolling back. -/
inductive Fault
  /-- `MachineError`: a trigger was applied outside its sources. -/
  | machineError
  /-- `ValueError`. -/
  | valueError (text : String)
  /-- `TypeError`. -/
  | typeError (text : String)
  /-- `RuntimeError`. -/
  | runtimeError (text : String)
  /-- `CandidateIndexInputError`: the snapshot cannot be indexed. -/
  | candidateIndexInput (text : String)
  /-- A loop that the fuel of its model did not cover. -/
  | diverged
  /-- `GitRollbackError`: an abort that could not be verified. -/
  | gitRollback
  deriving DecidableEq, Repr

/-- The states of an orbit row. -/
inductive OrbitState
  | PENDING | HELD | RELEASED | EXPIRED | DENIED
  deriving DecidableEq, Repr

/-- The triggers of the orbit machine. -/
inductive OrbitTrigger
  | hold | grant | renew | release | expire | deny
  deriving DecidableEq, Repr

/-- `ORBIT_TRANSITIONS`. -/
def orbitTransition : OrbitState → OrbitTrigger → Option OrbitState
  | .PENDING, .hold => some .HELD
  | .PENDING, .grant => some .HELD
  | .HELD, .renew => some .HELD
  | .HELD, .release => some .RELEASED
  | .HELD, .expire => some .EXPIRED
  | .PENDING, .deny => some .DENIED
  | _, _ => none

/-- The states of a task row. -/
inductive TaskState
  | PENDING | BLOCKED | READY | CLAIMED | IN_ORBIT
  | DONE | CONNECTING | MERGED | ABORTED | POISONED
  deriving DecidableEq, Repr

/-- The triggers of the task machine. -/
inductive TaskTrigger
  | block | ready | claim | start | finish | connect | merged | rollback | abort
  | requeue | poison
  deriving DecidableEq, Repr

/-- `TASK_TRANSITIONS`.  Everything but `POISONED` may be aborted. -/
def taskTransition : TaskState → TaskTrigger → Option TaskState
  | .PENDING, .block => some .BLOCKED
  | .PENDING, .ready => some .READY
  | .BLOCKED, .ready => some .READY
  | .READY, .claim => some .CLAIMED
  | .CLAIMED, .start => some .IN_ORBIT
  | .IN_ORBIT, .finish => some .DONE
  | .DONE, .connect => some .CONNECTING
  | .CONNECTING, .merged => some .MERGED
  | .CONNECTING, .rollback => some .DONE
  | .POISONED, .abort => none
  | _, .abort => some .ABORTED
  | .ABORTED, .requeue => some .PENDING
  | .ABORTED, .poison => some .POISONED
  | _, _ => none

/-- The states of a barrier generation. -/
inductive BarrierState
  | ARMED | TRIPPING | TRIPPED | CONSUMED | BROKEN
  deriving DecidableEq, Repr

/-- The triggers of the barrier machine. -/
inductive BarrierTrigger
  | fill | trip | consume | break_
  deriving DecidableEq, Repr

/-- `BARRIER_TRANSITIONS`. -/
def barrierTransition : BarrierState → BarrierTrigger → Option BarrierState
  | .ARMED, .fill => some .TRIPPING
  | .TRIPPING, .trip => some .TRIPPED
  | .TRIPPED, .consume => some .CONSUMED
  | .ARMED, .break_ => some .BROKEN
  | .TRIPPING, .break_ => some .BROKEN
  | _, _ => none

/-- A transition that must be legal. -/
def legal {α : Type} : Option α → Except Fault α
  | some a => .ok a
  | none => .error .machineError

/-- `fsm.advance("orbit", state, trigger)`. -/
def advanceOrbit (state : OrbitState) (trigger : OrbitTrigger) : Except Fault OrbitState :=
  legal (orbitTransition state trigger)

/-- `fsm.advance("task", state, trigger)`. -/
def advanceTask (state : TaskState) (trigger : TaskTrigger) : Except Fault TaskState :=
  legal (taskTransition state trigger)

/-- `fsm.advance("barrier", state, trigger)`. -/
def advanceBarrier (state : BarrierState) (trigger : BarrierTrigger) :
    Except Fault BarrierState :=
  legal (barrierTransition state trigger)

theorem legal_eq_ok {α : Type} {x : Option α} {a : α} : legal x = .ok a ↔ x = some a := by
  cases x with
  | none => simp [legal]
  | some b => simp [legal]

/-- `TASK_TERMINAL_STATES`. -/
def TaskState.terminal : TaskState → Bool
  | .MERGED | .ABORTED | .POISONED => true
  | _ => false

/-- `ORBIT_TERMINAL_STATES`. -/
def OrbitState.terminal : OrbitState → Bool
  | .RELEASED | .EXPIRED | .DENIED => true
  | _ => false

/-- `TASK_ADMISSION_STATES`. -/
def TaskState.admission : TaskState → Bool
  | .PENDING | .BLOCKED | .READY => true
  | _ => false

/-- The modes of an orbit. -/
inductive Mode
  | read | write | shared
  deriving DecidableEq, Repr

/-- `mode in WRITE_MODES`. -/
def Mode.writes : Mode → Bool
  | .write | .shared => true
  | .read => false

end Omd
