import Datacrate.Bounded.Errors
import Datacrate.Lib.Usize

namespace Datacrate.Bounded

/-- One batch with its reservation, the bytes it holds in the budget. An
uncharged batch has none. -/
structure BatchLease (β : Type) where
  batch : β
  reservation : Option Nat
  deriving DecidableEq, Repr

def BatchLease.charged {β : Type} (lease : BatchLease β) : Nat :=
  lease.reservation.getD 0

/-- The state under the lock. -/
structure State (β ε : Type) where
  queue : List (Except ε (BatchLease β))
  bytes : Nat
  peak : Nat
  receiverWaiting : Bool
  receiverAlive : Bool
  senderAlive : Bool
  cancelled : Bool

structure Control where
  capacity : Nat
  limit : Nat
  limit_fits : limit < Usize.range

def State.channel {β ε : Type} : State β ε where
  queue := []
  bytes := 0
  peak := 0
  receiverWaiting := false
  receiverAlive := true
  senderAlive := true
  cancelled := false

section Charges

variable {β ε : Type} (memorySizes : β → List Nat)

def checkedCharge (sizes : List Nat) : Except (PipelineError ε) Nat :=
  sizes.foldlM (fun sum next => ((Usize.checkedAdd sum next).elim (.error .byteChargeOverflow) .ok)) 0

/-- The memory sizes of the columns, added up. -/
def charge (batch : β) : Except (PipelineError ε) Nat :=
  checkedCharge (memorySizes batch)

/-- The part of `send` before it takes the lock: the charge of the message,
unless it cannot fit at all. -/
def sendCharge (control : Control) (message : Except ε β) : Except (PipelineError ε) Nat := do
  let bytes ← match message with
    | .ok batch => charge memorySizes batch
    | .error _ => .ok 0
  if control.limit < bytes then .error (.batchTooLarge bytes control.limit) else .ok bytes

end Charges

inductive Admission where
  | closed
  | wait
  | granted
  deriving DecidableEq, Repr

section Sections

variable {β ε : Type} (control : Control) (state : State β ε)

def countAvailable : Bool :=
  if control.capacity == 0 then state.receiverWaiting && state.queue.isEmpty
  else decide (state.queue.length < control.capacity)

/-- One pass of the admission loop of `send`. The result is `none` where the
arithmetic leaves `usize`, as in every critical section below. -/
def admission (bytes : Nat) : Option Admission := do
  if state.cancelled || !state.receiverAlive then return .closed
  if countAvailable control state then
    let room ← Usize.checkedSub control.limit state.bytes
    if bytes ≤ room then return .granted
  return .wait

/-- The rest of the critical section of an admitted message. -/
def enqueue (message : Except ε β) (bytes : Nat) : Option (State β ε) := do
  let sum ← Usize.checkedAdd state.bytes bytes
  let leased := message.map fun batch => { batch := batch, reservation := some bytes }
  return { state with bytes := sum, peak := max state.peak sum, queue := state.queue ++ [leased] }

/-- The condition of the rendezvous wait. -/
def unacknowledged : Bool :=
  control.capacity == 0 && !state.queue.isEmpty && !state.cancelled && state.receiverAlive

def sendResult : Except (PipelineError ε) Unit :=
  if state.cancelled || !state.receiverAlive then .error .cancelled else .ok ()

def dropSender : State β ε :=
  { state with senderAlive := false }

inductive Reception (β ε : Type) where
  | cancelled
  | message (message : Except ε (BatchLease β)) (state : State β ε)
  | ended
  | wait (state : State β ε)

/-- One pass of the loop of `recv`. -/
def reception : Reception β ε :=
  if state.cancelled then .cancelled
  else match state.queue with
    | message :: queue => .message message { state with queue := queue, receiverWaiting := false }
    | [] =>
      if !state.senderAlive then .ended
      else .wait { state with receiverWaiting := true }

/-- The state after the receiver is gone; its queue is dropped outside the
lock. -/
def dropReceiver : State β ε :=
  { state with receiverAlive := false, receiverWaiting := false, queue := [] }

/-- The state after cancellation; its queue is dropped outside the lock. -/
def cancel : State β ε :=
  { state with cancelled := true, queue := [] }

/-- The growth of a reservation, under the lock. -/
def grow (retained bytes : Nat) : Option (State β ε × Except (PipelineError ε) Unit) := do
  let growth ← Usize.checkedSub bytes retained
  let available ← Usize.checkedSub control.limit state.bytes
  if available < growth then
    let total ← Usize.checkedAdd retained available
    return (state, .error (.batchGrowthExceedsBudget bytes total))
  let sum ← Usize.checkedAdd state.bytes growth
  return ({ state with bytes := sum, peak := max state.peak sum }, .ok ())

/-- `BatchLease::transform`, given what the callback returned. A smaller
batch keeps the charge it came with. -/
def transform (memorySizes : β → List Nat) (lease : BatchLease β) (outcome : Except ε β) :
    Option (State β ε × Except (PipelineError ε) (BatchLease β)) := do
  match outcome with
  | .error source => return (state, .error (.io source))
  | .ok batch =>
    match lease.reservation with
    | none => return (state, .ok { batch := batch, reservation := none })
    | some retained =>
      match charge memorySizes batch with
      | .error error => return (state, .error error)
      | .ok bytes =>
        if retained < bytes then
          let (state, grown) ← grow control state retained bytes
          return (state, grown.map fun _ => { batch := batch, reservation := some bytes })
        return (state, .ok { batch := batch, reservation := some retained })

/-- The drop of a reservation. -/
def release (lease : BatchLease β) : Option (State β ε) :=
  match lease.reservation with
  | none => some state
  | some bytes => do
    let rest ← Usize.checkedSub state.bytes bytes
    return { state with bytes := rest }

end Sections

end Datacrate.Bounded
