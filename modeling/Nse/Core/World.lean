/-
  Nse.Core.World — everything a run of the pipeline shares with what runs beside it.

  Actors. The monitor writes lines and exits. The read loop (`TraceHarvester._read_loop`)
  consumes them: it waits for a line, for room on the queue to put an event or the final
  `None`, or it is done. The consumer, if there is one, takes items off the queue. The
  clock moves. The pipeline asks (`Req`) and is answered; while it is parked the others
  move (`Ev`).

  The read loop runs without a break from one wait to the next: it checks the deadline,
  takes a line, records its id, puts the event (when there is room), sets the signal and
  calls `on_event`, which appends to the pipeline's list. A cancelled loop does nothing
  between `cancel()` and the delivery of the exception, so both are one step here. A
  worker thread whose coroutine is cancelled goes on in the source; here the rest of its
  commands is dropped. `abandons` says when that is, and results about the host leave such
  runs out.
-/

import Nse.Core.Effects

namespace Nse

inductive LoopPc where
  | idle
  | scheduled
  | reading
  /-- Waiting for room to put this event. -/
  | putting (e : TraceEvent)
  /-- Waiting for room to put the final `None`. -/
  | closing
  | done
  deriving DecidableEq, Repr

inductive Producer where
  | readLoop
  | pipeline
  deriving DecidableEq, Repr

structure St where
  h : Harvester := {}
  loop : LoopPc := .idle
  /-- Every line the monitor has written, with the packet it is about, and how many the
      loop has consumed: passed over as blank, counted, or parsed. -/
  out : List (Packet × String) := []
  nread : Nat := 0
  exited : Bool := false
  clock : Nat := 0
  /-- Every item put on the queue, and how many the consumer has taken. -/
  puts : List (Producer × Option TraceEvent) := []
  taken : Nat := 0
  collected : List TraceEvent := []
  canaryIds : List String := []
  listeners : List Nat := []
  spawned : Nat := 0
  terminated : List Nat := []
  killed : List Nat := []
  status : Status := .pending
  active : List String := []
  marks : List Mark := []
  cmds : List (List Arg) := []

structure Env where
  /-- `maxsize` of the queue; 0 is unbounded. -/
  maxsize : Nat := 512
  reader : Bool := false
  /-- `NSE_FORCE_BLIND`. -/
  blind : Bool := false
  /-- The lines the monitor may write, each about one packet. -/
  writes : St → Packet → String → Bool := fun _ _ _ => true

inductive Ev where
  | tick (ms : Nat)
  | write (p : Packet) (line : String)
  | exit
  | take
  | begin
  /-- The loop's bounded read timed out. -/
  | poll
  | line
  | eof
  | readError (e : PyExc)
  | resume

variable [U : PyStr.Unicode] (env : Env)

def St.full (s : St) : Bool := env.maxsize ≠ 0 && env.maxsize ≤ s.puts.length - s.taken

/-! ## The read loop -/

namespace Loop

def close (s : St) : St := { s with puts := s.puts ++ [(.readLoop, none)], loop := .done }

def finish (st : HarvestState) (s : St) : St :=
  let s := { s with h := s.h.endAs st }
  if s.full env then { s with loop := .closing } else close s

/-- The top of the loop: the deadline, then the next read. -/
def top (s : St) : St :=
  if s.h.deadline ≤ s.clock then finish env (if s.h.stopRequested then .stopped else .timeout) s
  else { s with loop := .reading }

/-- `queue.put` succeeds; the signal and the callback follow at once. -/
def deliver (e : TraceEvent) (s : St) : St :=
  top env { s with
    puts := s.puts ++ [(.readLoop, some e)], h := { s.h with eventSignal := true }, collected := s.collected ++ [e] }

def putEvent (e : TraceEvent) (s : St) : St := if s.full env then { s with loop := .putting e } else deliver env e s

/-- One line has been read. On a line that the parser raises on, the loop ends as on a failed
    read; such a line is not counted as consumed. -/
def consume (raw : String) (s : St) : St :=
  let t := { s with nread := s.nread + 1 }
  let line := PyStr.strip raw
  if line = "" then top env t
  else
    match TraceParser.parseLine env.blind line with
    | .ok none => top env { t with h := t.h.recordUnparsed line }
    | .ok (some e) => putEvent env e { t with h := t.h.recordId e }
    | .error exc =>
      finish env .error { s with h := { s.h with error := some ("ValueError(" ++ U.repr exc.text ++ ")") } }

/-- `task.cancel()`, delivered. -/
def cancel (s : St) : St :=
  match s.loop with
  | .idle | .done => s
  | .scheduled | .closing => { s with loop := .done }
  | .reading | .putting _ =>
    let s := { s with h := { s.h with state := .stopped } }
    if s.full env then { s with loop := .closing } else close s

end Loop

/-! ## Events -/

def event (s : St) : Ev → Option St
  | .tick ms => some { s with clock := s.clock + ms }
  | .write p line =>
    if s.loop ≠ .idle ∧ s.exited = false ∧ env.writes s p line then some { s with out := s.out ++ [(p, line)] }
    else none
  | .exit => if s.loop ≠ .idle then some { s with exited := true } else none
  | .take => if env.reader ∧ s.taken < s.puts.length then some { s with taken := s.taken + 1 } else none
  | .begin =>
    if s.loop = .scheduled then some (Loop.top env { s with h := { s.h with ready := true } }) else none
  | .poll => if s.loop = .reading then some (Loop.top env s) else none
  | .line =>
    match s.loop, s.out[s.nread]? with
    | .reading, some (_, raw) => some (Loop.consume env raw s)
    | _, _ => none
  | .eof =>
    if s.loop = .reading ∧ s.exited ∧ s.out.length ≤ s.nread then
      some (Loop.finish env (if s.h.stopRequested then .stopped else .cleanEof) s)
    else none
  | .readError e =>
    if s.loop = .reading ∧ e.isException then
      some (Loop.finish env .error { s with h := { s.h with error := some e.text } })
    else none
  | .resume =>
    if s.full env then none
    else
      match s.loop with
      | .putting e => some (Loop.deliver env e s)
      | .closing => some (Loop.close s)
      | _ => none

/-! ## Answers -/

def Cmd.raises (c : Cmd) (e : PyExc) : Bool :=
  match e.cls with
  | .calledProcessError => c.check
  | .timeoutExpired => c.timeout.isSome
  | .timeoutError | .ruleValidationError => false
  | _ => true

/-- The command raised before anything was executed. -/
def unresolved (e : PyExc) : Bool := e.cls == .binaryNotFoundError || e.cls == .unsafeBinaryError

def orRaises {α : Type} (classes : List ExcClass) : Except PyExc α → Bool
  | .ok _ => true
  | .error e => classes.contains e.cls

def exactly {α : Type} [DecidableEq α] (v : α) : Except PyExc α → Bool
  | .ok w => w = v
  | .error _ => false

/-- A wait that ends when `ready` does, or with one of these classes. -/
def whenReady (ready : Bool) (classes : List ExcClass) : Except PyExc Unit → Bool
  | .ok _ => ready
  | .error e => classes.contains e.cls

def callClasses : List ExcClass :=
  [.osError, .binaryNotFoundError, .unsafeBinaryError, .runtimeError, .valueError, .otherError, .cancelledError]

/-- `Popen` is called on the event loop, where nothing can cancel it. -/
def popenClasses : List ExcClass := callClasses.filter (· != .cancelledError)

def allows (s : St) : (a : Req) → Except PyExc (Reply a) → Bool
  | .resolve _, r => orRaises [.binaryNotFoundError, .unsafeBinaryError, .cancelledError] r
  | .run c, .ok r => !c.check || r.returncode = 0
  | .run c, .error e => c.raises e
  | .popen _, .ok i => i = s.spawned
  | .popen _, .error e => popenClasses.contains e.cls
  | .spawnMonitor _, r => orRaises callClasses r
  | .tempFile _, r => orRaises callClasses r
  | .unlink _, r => orRaises callClasses r
  | .inContainer, r => orRaises [] r
  | .sendp _ _, r => orRaises callClasses r
  | .terminate _, r => orRaises [.osError] r
  | .wait _ _, r => orRaises [.osError, .timeoutExpired] r
  | .kill _, r => orRaises [.osError] r
  | .sleep _, r => orRaises [.cancelledError] r
  | .addActive _, r => orRaises [] r
  | .discardActive _, r => orRaises [] r
  | .activeNs, r => exactly s.active r
  | .reset, r => orRaises [] r
  | .launch _, r => orRaises [] r
  | .waitReady _, r => s.loop ≠ .scheduled && orRaises [.cancelledError] r
  | .armEventSignal, r => orRaises [] r
  | .extendDeadline _, r => orRaises [] r
  | .waitForEvent _, .ok seen => !seen || s.h.eventSignal
  | .waitForEvent _, .error e => e.cls = .cancelledError
  | .seenTraceIds, r => exactly s.h.seenTraceIds r
  | .stop, r => orRaises [] r
  | .taskPending, r => exactly (decide (s.loop ≠ .idle ∧ s.loop ≠ .done)) r
  | .awaitTask _, r => whenReady (s.loop = .done) [.timeoutError, .cancelledError] r
  | .cancelTask, r => orRaises [] r
  | .joinTask, r => whenReady (s.loop = .done) [.cancelledError] r
  | .setStopped, r => orRaises [] r
  | .harvestState, r => exactly s.h.state r
  | .healthErrors, r => exactly s.h.healthErrors r
  | .collect _, r => orRaises [] r
  | .put _, r => if s.full env then whenReady false [.cancelledError] r else orRaises [] r
  | .setStatus _, r => orRaises [] r
  | .status, r => exactly s.status r
  | .addListener _, r => orRaises [] r
  | .listeners, r => exactly s.listeners r
  | .addCanaryIds _, r => orRaises [] r
  | .canaryIds, r => exactly s.canaryIds r
  | .collected, r => exactly s.collected r
  | .mark _, r => orRaises [] r

def effect (s : St) : (a : Req) → Except PyExc (Reply a) → St
  | .run c, .ok _ => { s with cmds := s.cmds ++ [c.argv] }
  | .run c, .error e => if unresolved e then s else { s with cmds := s.cmds ++ [c.argv] }
  | .popen argv, .ok _ => { s with spawned := s.spawned + 1, cmds := s.cmds ++ [argv] }
  | .terminate i, .ok _ => { s with terminated := s.terminated ++ [i] }
  | .kill i, _ => { s with killed := s.killed ++ [i] }
  | .addActive n, _ => { s with active := s.active ++ [n] }
  | .discardActive n, _ => { s with active := s.active.filter (· != n) }
  | .reset, _ => { s with h := s.h.reset }
  | .launch t, _ => { s with h := s.h.launched s.clock t, loop := .scheduled }
  | .armEventSignal, _ => { s with h := s.h.armEventSignal }
  | .extendDeadline ms, _ => { s with h := s.h.extendDeadline s.clock ms }
  | .seenTraceIds, _ => { s with marks := s.marks ++ [.snapshot s.h.seenTraceIds.length] }
  | .stop, _ => { s with h := { s.h with stopRequested := true } }
  | .cancelTask, _ => Loop.cancel env s
  | .setStopped, _ => { s with h := { s.h with state := .stopped } }
  | .healthErrors, _ => { s with marks := s.marks ++ [.health s.h] }
  | .collect e, _ => { s with collected := s.collected ++ [e] }
  | .put item, .ok _ => { s with puts := s.puts ++ [(.pipeline, item)] }
  | .setStatus st, _ => { s with status := st }
  | .addListener i, _ => { s with listeners := s.listeners ++ [i] }
  | .addCanaryIds ids, _ => { s with canaryIds := s.canaryIds ++ ids }
  | .mark m, _ => { s with marks := s.marks ++ [m] }
  | _, _ => s

def parked (s : St) : Req → Bool
  | .resolve _ | .run _ | .spawnMonitor _ | .tempFile _ | .unlink _ | .sendp _ _ | .sleep _ | .waitReady _
  | .waitForEvent _ | .awaitTask _ | .joinTask => true
  | .put _ => s.full env
  | _ => false

def world : Coroutine.World Req Reply PyExc St Ev where
  answer s a r s' := allows env s a r = true ∧ effect env s a r = s'
  event s e s' := event env s e = some s'
  parked s a := parked env s a = true

/-- The outside of the run was told to stop waiting: the task that runs the pipeline was
    cancelled. `joinTask` also raises the read loop's own cancellation, once it is done. -/
def cancels (s : St) (a : Req) (r : Except PyExc (Reply a)) : Bool :=
  match r with
  | .error e => e.cls == .cancelledError && !(a == .joinTask && s.loop == .done)
  | .ok _ => false

/-- What is asked from a worker thread. `sleep` is also the coroutine's own. -/
def Req.threaded : Req → Bool
  | .resolve _ | .run _ | .tempFile _ | .unlink _ | .sendp _ _ | .sleep _ => true
  | _ => false

/-- The task was cancelled and its worker thread goes on. -/
def abandons (s : St) (a : Req) (r : Except PyExc (Reply a)) : Bool := a.threaded && cancels s a r

end Nse
