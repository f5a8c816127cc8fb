import Mathlib.Logic.Function.Basic
import GhostRunner.Json

/-! One call of `run_skill` (`skills/sandbox.py`) from the start of its process on: the call's
own task, the three tasks that feed and drain the pipes, the two of `_reap`, and the process.
One label is one stretch of code between two awaits, or something that the process, a timer or
the caller does. Which exception a `gather` or a timeout hands on is spelt out as in `asyncio`. -/
namespace GhostRunner.Skills

def maxResultBytes : Nat := 1000000
def stderrCap : Nat := 65536
def stderrExcerpt : Nat := 400
def readChunk : Nat := 65536

/-- `timeoutS` is the timeout as it is printed. -/
structure Skill where
  name : String
  timeoutS : String

/-- `json.loads` and `bytes.decode` with `errors="replace"`. -/
structure Runtime where
  loads : List UInt8 → Except Json.LoadsError Json
  decodeReplace : List UInt8 → PyStr

/-- The arguments of `run_skill`. -/
structure Call where
  runtime : Runtime
  skill : Skill
  args : List (PyStr × Json)

inductive Failure where
  | stdoutOverflow
  | unicodeEncode
  | foreign (text : String)
  deriving DecidableEq, Repr

/-- How `run_skill` returns or raises. -/
inductive Outcome where
  | result (members : List (PyStr × Json))
  | skillError (message : PyStr)
  | executionError (message : PyStr)
  | raised (failure : Failure)
  | cancelled

/-! ## Messages and results -/

def text (s : String) : PyStr := .ofString s

namespace Call

variable (call : Call)

def survivedMessage : PyStr :=
  text ("skill " ++ call.skill.name ++ ": sandbox process did not exit after SIGKILL")

/-- The `SkillError` of `_reap`. -/
def survivedError : Outcome := .skillError call.survivedMessage

def timedOutError : Outcome :=
  .executionError (text ("skill " ++ call.skill.name ++ " timed out after " ++
    call.skill.timeoutS ++ "s"))

def cappedError : Outcome :=
  .executionError (text ("skill " ++ call.skill.name ++ " output capped at " ++
    toString maxResultBytes ++ " bytes; results must be small JSON objects"))

/-- The end of `run_skill`, once the process has been waited for. -/
def conclude (code : Int) (stdout stderr : List UInt8) : Outcome :=
  if code ≠ 0 then
    let detail := (call.runtime.decodeReplace stderr).strip
    if text "bwrap:" <+: detail then
      .skillError (text ("sandbox failed for skill " ++ call.skill.name ++ ": ") ++
        detail.take stderrExcerpt)
    else
      .executionError (text ("skill " ++ call.skill.name ++ " exited " ++ toString code ++ ": ") ++
        if detail = [] then text "(no stderr)" else detail.take stderrExcerpt)
  else
    match call.runtime.loads stdout with
    | .error (.jsonDecodeError message) | .error (.valueError message) =>
      .executionError (text ("skill " ++ call.skill.name ++ " wrote invalid JSON to stdout: " ++
        message))
    | .error (.recursionError message) => .raised (.foreign message)
    | .ok (.obj members) => .result members
    | .ok value =>
      .executionError (text ("skill " ++ call.skill.name ++ " must output a JSON object, got " ++
        value.typeName))

end Call

/-! ## Tasks -/

/-- A task that stands somewhere, or has ended. -/
inductive Task (α β : Type) where
  | absent
  | running (at_ : α)
  | finished (result : β)
  | failed (failure : Failure)
  | cancelled
  deriving DecidableEq, Repr

def Task.isEnded {α β : Type} : Task α β → Bool
  | .absent | .running _ => false
  | _ => true

/-- `feed_stdin` before its first step, and in `drain`. -/
inductive Feeding where
  | created
  | draining
  deriving DecidableEq, Repr

/-- The chunks that `_drain` has kept, and the length of what it has read. -/
structure Reading where
  kept : List UInt8 := []
  total : Nat := 0
  deriving DecidableEq, Repr

inductive Pipe where
  | stdout
  | stderr
  deriving DecidableEq, Repr

/-- A pipe is read by its task, and after a kill by one of `_reap`. -/
inductive Reader where
  | task (pipe : Pipe)
  | reaper (pipe : Pipe)
  deriving DecidableEq, Repr

namespace Reader

def pipe : Reader → Pipe
  | .task pipe | .reaper pipe => pipe

def cap : Reader → Nat
  | .task .stdout => maxResultBytes
  | .task .stderr => stderrCap
  | .reaper _ => 0

def discardOverflow : Reader → Bool
  | .task .stdout => false
  | _ => true

/-- `_drain` has read a chunk. -/
def read (reader : Reader) (reading : Reading) (chunk : List UInt8) :
    Task Reading (List UInt8) :=
  let total := reading.total + chunk.length
  if total ≤ reader.cap then .running ⟨reading.kept ++ chunk,total⟩
  else if reader.discardOverflow then .running ⟨reading.kept,total⟩
  else .failed .stdoutOverflow

end Reader

/-! ## States -/

/-- The process, and the exit status of one that has ended. It is collected when the event
loop has waited for it. -/
inductive Proc where
  | absent
  | running
  | exited (code : Int)
  | collected (code : Int)
  deriving DecidableEq, Repr

/-- The await at which `run_skill` stands: the start of the process, the `gather` and the
`wait` under the timeout of the skill, the second `gather` of its handler, and the two awaits
of `_reap`. -/
inductive Await where
  | spawning
  | gathering
  | waiting
  | settling (overflow : Bool)
  | draining (overflow : Bool)
  | reaping (overflow : Bool)
  | ended (outcome : Outcome)

/-- What a `gather` comes to: its results, or the first exception of a task in it. -/
inductive Gathered where
  | results
  | failed (failure : Failure)
  | cancelled
  deriving DecidableEq, Repr

/-- `asked` is a request to cancel the tasks of the current `gather`, and `interrupted` one
that `run_skill` gets itself, whatever it awaits. `expired` and `cancelled` say who has asked
since the current timeout was entered: the timeout, or the caller. -/
structure State where
  await : Await
  proc : Proc
  killed : Bool
  eof : Pipe → Bool
  feed : Task Feeding Unit
  drains : Reader → Task Reading (List UInt8)
  gathered : Option Gathered
  asked : Bool
  interrupted : Bool
  expired : Bool
  cancelled : Bool

def init : State where
  await := .spawning
  proc := .absent
  killed := false
  eof := fun _ => false
  feed := .absent
  drains := fun _ => .absent
  gathered := none
  asked := false
  interrupted := false
  expired := false
  cancelled := false

namespace State

def setDrain (s : State) (reader : Reader) (task : Task Reading (List UInt8)) : State :=
  { s with drains := Function.update s.drains reader task }

/-- `Process.wait` returns no sooner than this; that it may also hold out for the pipes only
delays it. -/
def waited (s : State) : Bool :=
  match s.proc with
  | .collected _ => true
  | _ => false

def tasksEnded (s : State) : Bool :=
  s.feed.isEnded && (s.drains (.task .stdout)).isEnded && (s.drains (.task .stderr)).isEnded

def reapersEnded (s : State) : Bool :=
  (s.drains (.reaper .stdout)).isEnded && (s.drains (.reaper .stderr)).isEnded

end State

/-! ## The tasks of a `gather` -/

/-- A task of the current `gather` has ended. -/
def gather (s : State) (all : Bool) (ended : Gathered) : State :=
  if s.gathered.isSome then s
  else
    match ended with
    | .results =>
      if all then { s with gathered := some (if s.asked then .cancelled else .results) } else s
    | _ => { s with gathered := some ended }

def feedEnds (s : State) (task : Task Feeding Unit) (ended : Gathered) : State :=
  let s := { s with feed := task }
  match s.await with
  | .gathering => gather s s.tasksEnded ended
  | _ => s

def drainEnds (s : State) (reader : Reader) (task : Task Reading (List UInt8))
    (ended : Gathered) : State :=
  let s := s.setDrain reader task
  match s.await, reader with
  | .gathering, .task _ => gather s s.tasksEnded ended
  | .draining _, .reaper _ => gather s s.reapersEnded ended
  | _, _ => s

/-- The first step of `feed_stdin`: the arguments are encoded and written. A task that has been
asked to stop before it does not take it. -/
def feedStarts (call : Call) (s : State) : Option State :=
  match s.feed, s.asked with
  | .running .created, false =>
    -- The arguments stood in a decoded frame, so `json.dumps` does not give up on them.
    if (Json.written Json.spaced (.obj call.args)).encodes then
      some { s with feed := .running .draining }
    else some (feedEnds s (.failed .unicodeEncode) (.failed .unicodeEncode))
  | _, _ => none

/-- The input has been taken, or its pipe is broken, which is passed over. -/
def feedReturns (s : State) : Option State :=
  match s.feed with
  | .running .draining => some (feedEnds s (.finished ()) .results)
  | _ => none

def feedBreaks (s : State) (text : String) : Option State :=
  match s.feed, s.asked with
  | .running .created, true => none
  | .running _, _ => some (feedEnds s (.failed (.foreign text)) (.failed (.foreign text)))
  | _, _ => none

def feedStops (s : State) : Option State :=
  match s.feed with
  | .running _ => if s.asked then some (feedEnds s .cancelled .cancelled) else none
  | _ => none

def reads (s : State) (reader : Reader) (chunk : List UInt8) : Option State :=
  match s.drains reader with
  | .running reading =>
    if chunk ≠ [] ∧ chunk.length ≤ readChunk then
      match reader.read reading chunk with
      | .failed failure => some (drainEnds s reader (.failed failure) (.failed failure))
      | task => some (s.setDrain reader task)
    else none
  | _ => none

def readsEof (s : State) (reader : Reader) : Option State :=
  match s.drains reader with
  | .running reading =>
    if s.eof reader.pipe then some (drainEnds s reader (.finished reading.kept) .results) else none
  | _ => none

def readBreaks (s : State) (reader : Reader) (text : String) : Option State :=
  match s.drains reader with
  | .running _ =>
    some (drainEnds s reader (.failed (.foreign text)) (.failed (.foreign text)))
  | _ => none

def readStops (s : State) (reader : Reader) : Option State :=
  match s.drains reader with
  | .running _ => if s.asked then some (drainEnds s reader .cancelled .cancelled) else none
  | _ => none

/-! ## Cancellation -/

/-- `Task.cancel` of `run_skill`. A `gather` that has not come to anything hands it on to its
tasks; in the handler's these have been cancelled before. -/
def interrupt (s : State) : State :=
  match s.await, s.gathered with
  | .gathering, none | .draining _, none => { s with asked := true }
  | _, _ => { s with interrupted := true }

def cancel (s : State) : Option State :=
  match s.await with
  | .spawning | .ended _ => none
  | _ => some (interrupt { s with cancelled := true })

/-- The timer of the timeout around the await goes off. -/
def expires (s : State) : Option State :=
  match s.await with
  | .gathering | .waiting | .draining _ | .reaping _ =>
    if s.expired then none else some (interrupt { s with expired := true })
  | _ => none

/-! ## `run_skill` -/

inductive Wake where
  | returns
  | failed (failure : Failure)
  | cancelled
  deriving DecidableEq, Repr

/-- What the await gives when `run_skill` goes on. -/
def wake (s : State) : Option Wake :=
  match s.await with
  | .spawning | .ended _ => none
  | .gathering | .draining _ =>
    match s.gathered, s.interrupted with
    | none, _ => none
    | some _, true | some .cancelled, _ => some .cancelled
    | some .results, false => some .returns
    | some (.failed failure), false => some (.failed failure)
  | .settling _ =>
    if s.tasksEnded then some (if s.interrupted then .cancelled else .returns) else none
  | .waiting | .reaping _ =>
    if s.interrupted then some .cancelled else if s.waited then some .returns else none

/-- A timeout turns the cancellation that it has asked for into a `TimeoutError`, unless the
caller has asked as well. -/
def timesOut (s : State) : Bool := s.expired && !s.cancelled

/-- The handler for a timeout or an overflow, up to its `gather`. -/
def settle (s : State) (overflow : Bool) : State :=
  { s with await := .settling overflow, asked := true, interrupted := false }

/-- `_reap`, up to its `gather`. -/
def reap (s : State) (overflow : Bool) : State :=
  { s with
    await := .draining overflow
    killed := true
    drains := fun reader =>
      match reader with
      | .task _ => s.drains reader
      | .reaper _ => .running {}
    gathered := none
    asked := false
    interrupted := false
    expired := false
    cancelled := false }

def end_ (s : State) (outcome : Outcome) : State := { s with await := .ended outcome }

def bytes : Task Reading (List UInt8) → List UInt8
  | .finished result => result
  | _ => []

def exitCode : Proc → Int
  | .exited code | .collected code => code
  | _ => 0

def resumeWith (call : Call) (s : State) (wake : Wake) : State :=
  match s.await, wake with
  | .gathering, .returns => { s with await := .waiting }
  | .gathering, .failed .stdoutOverflow => settle s true
  | .gathering, .cancelled | .waiting, .cancelled =>
    if timesOut s then settle s false else end_ s .cancelled
  | .waiting, _ =>
    end_ s (call.conclude (exitCode s.proc) (bytes (s.drains (.task .stdout)))
      (bytes (s.drains (.task .stderr))))
  | .settling _, .cancelled => end_ s .cancelled
  | .settling overflow, _ => reap s overflow
  | .draining overflow, .returns => { s with await := .reaping overflow }
  | .draining _, .cancelled | .reaping _, .cancelled =>
    end_ s (if timesOut s then call.survivedError else .cancelled)
  | .reaping overflow, _ =>
    end_ s (if overflow then call.cappedError else call.timedOutError)
  | .gathering, .failed failure | .draining _, .failed failure => end_ s (.raised failure)
  | .spawning, _ | .ended _, _ => s

def spawned (s : State) : State :=
  { s with
    await := .gathering
    proc := .running
    feed := .running .created
    drains := fun reader =>
      match reader with
      | .task _ => .running {}
      | .reaper _ => .absent }

/-! ## Labels -/

inductive Op where
  | spawned
  | spawnFails (text : String)
  | resumes
  | cancel
  | expires
  | feedStarts
  | feedReturns
  | feedBreaks (text : String)
  | feedStops
  | reads (reader : Reader) (chunk : List UInt8)
  | readsEof (reader : Reader)
  | readBreaks (reader : Reader) (text : String)
  | readStops (reader : Reader)
  | exits (code : Int)
  | collects
  | closes (pipe : Pipe)
  deriving DecidableEq, Repr

def step (call : Call) (s : State) : Op → Option State
  | .spawned =>
    match s.await with
    | .spawning => some (Skills.spawned s)
    | _ => none
  | .spawnFails message =>
    match s.await with
    | .spawning => some (end_ s (.skillError (text ("cannot start skill sandbox: " ++ message))))
    | _ => none
  | .resumes => (wake s).map (resumeWith call s)
  | .cancel => cancel s
  | .expires => expires s
  | .feedStarts => feedStarts call s
  | .feedReturns => feedReturns s
  | .feedBreaks text => feedBreaks s text
  | .feedStops => feedStops s
  | .reads reader chunk => reads s reader chunk
  | .readsEof reader => readsEof s reader
  | .readBreaks reader text => readBreaks s reader text
  | .readStops reader => readStops s reader
  | .exits code => if s.proc = .running then some { s with proc := .exited code } else none
  | .collects =>
    match s.proc with
    | .exited code => some { s with proc := .collected code }
    | _ => none
  | .closes pipe => some { s with eof := Function.update s.eof pipe true }

end GhostRunner.Skills
