import Mathlib.Data.String.Basic
import GhostRunner.Machine
import GhostRunner.Turns

/-! Chat turns (`Orchestrator._run_chat_turn`), each with its LLM job in the scheduler
(`stream_via_scheduler`, `LlmScheduler._execute`) and its speech worker (`TurnSpeech`). One
label is one stretch of code between two awaits of one task. When a job is dispatched is up
to its label, and so is when and with what the worker's synthesis ends; audio envelopes and
binary frames are left out. A chat job is never preempted, so its task is only cancelled by
`cancel_turn` and `_remove`. -/
namespace GhostRunner.Orchestrator

def truncate (message : String) : String :=
  if message.length ≤ 120 then message else (message.take 119).toString ++ "…"

def internalError : String := "internal error; see core log"

def doneToken (t seq : Nat) : Envelope where
  payload := .token (streamId t) seq "" true (some "stop") none
  turn := some t

/-! ## The turn's task -/

/-- What the await of a turn's task gives when the task goes on. -/
inductive Wake where
  | returns
  | cancelled
  | ttsError (text : String)
  | llmError (text : String)
  | failed
  deriving DecidableEq, Repr

/-- `none` while the task waits. In `stopping` any `CancelledError` is swallowed by
`speech.cancel`; once `finish` has let go of the turn nothing cancels its task. -/
def Turn.wake (r : Turn) : Option Wake :=
  match r.task with
  | .absent | .ended => none
  | .streaming =>
    match r.future, r.asked with
    | .pending, _ => none
    | .cancelled, _ | _, true => some .cancelled
    | .result, false => some .returns
    | .llmError text, false => some (.llmError text)
    | .failed, false => some .failed
  | .speaking =>
    match r.speech, r.asked with
    | .running _, _ => none
    | .cancelled, _ | _, true => some .cancelled
    | .failed text, false => some (.ttsError text)
    | _, false => some .returns
  | .stopping _ =>
    match r.speech with
    | .running _ => none
    | _ => some .returns
  | .finishing | .holding | .idling => some .returns
  | _ => some (if r.asked then .cancelled else .returns)

/-- The end of the `CancelledError` handler. -/
def unwind (s : State) (t : Nat) : State :=
  { s with stream := none }.modify t fun r => { r with task := .ended }

/-- The end of the other handlers, up to the ERROR broadcast. -/
def showError (s : State) (t : Nat) (message : String) : State :=
  setState ({ s with stream := none }.modify t fun r =>
    { r with task := .erring, asked := false }) .error (some t) message

/-- A handler from its `speech.cancel()` on. A worker that is still running is cancelled and
awaited; one that has failed raises its `TtsError` again, out of the handler. -/
def handle (s : State) (t : Nat) (failure : Option String) : State :=
  match (s.turns t).speech with
  | .running _ =>
    s.modify t fun r => { r with task := .stopping failure, asked := false, stopped := true }
  | .failed _ => s.modify t fun r => { r with task := .ended }
  | _ =>
    match failure with
    | none => unwind s t
    | some message => showError s t message

def onCancelled (s : State) (t : Nat) : State := handle s t none

def onTtsError (s : State) (t : Nat) (text : String) : State :=
  showError s t (truncate ("TTS error: " ++ text))

def onLlmError (s : State) (t : Nat) (text : String) : State :=
  handle s t (some (truncate ("LLM error: " ++ text)))

def onException (s : State) (t : Nat) : State := handle s t (some internalError)

/-- The first step: the user's message is stored, the prompt read, and THINKING shown. -/
def startTurn (s : State) (t : Nat) (text : String) (stored : Bool) : State :=
  if stored then
    setState ({ s with store := s.store.appendMessage t .user text }.modify t fun r =>
      { r with task := .thinking }) .thinking (some t) ""
  else onException s t

/-- The speech and the record are set up, and the job is submitted. -/
def openStream (s : State) (t : Nat) : State :=
  { s with stream := some t }.modify t fun r => { r with
    task := .streaming
    speech := if s.tts then .running false else .absent
    record := {}
    job := .queued }

def closeStream (s : State) (t : Nat) : State :=
  (s.modify t fun r => { r with task := .closing }).hand (doneToken t (s.turns t).record.seq)

def succeed (s : State) (t : Nat) : State :=
  setState (s.modify t fun r => { r with task := .succeeding }) .success (some t) ""

/-- After the done token: the reply is stored, and `speech.finish` awaits the worker. -/
def storeReply (s : State) (t : Nat) (stored : Bool) : State :=
  let s := { s with stream := none }
  if stored then
    let s := { s with
      store := s.store.appendMessage t .assistant (String.join (s.turns t).record.parts) }
    match (s.turns t).speech with
    | .running _ => s.modify t fun r => { r with task := .speaking, speech := .running true }
    | .failed text => onTtsError s t text
    | .cancelled => onCancelled s t
    | _ => succeed s t
  else onException s t

/-- `_decay_to_idle` after its hold. -/
def decay (s : State) (t : Nat) : State :=
  if s.current = none then setState (s.modify t fun r => { r with task := .idling }) .idle none ""
  else s.modify t fun r => { r with task := .ended }

/-- The task goes on from its await with what it gave. -/
def resumeWith (s : State) (t : Nat) (stored : Bool) (wake : Wake) : State :=
  match (s.turns t).task, wake with
  | .created _, .cancelled => s.modify t fun r => { r with task := .ended }
  | .created text, _ => startTurn s t text stored
  | .thinking, .returns => openStream s t
  | .streaming, .returns => closeStream s t
  | .streaming, .cancelled => onCancelled (s.modify t Turn.removeJob) t
  | .streaming, .llmError text => onLlmError s t text
  | .streaming, _ => onException s t
  | .closing, .returns => storeReply s t stored
  | .speaking, .returns => succeed s t
  | .speaking, .ttsError text => onTtsError s t text
  | .succeeding, .returns => finish s t .done stored fun s => onException s t
  | .stopping none, _ => unwind s t
  | .stopping (some message), _ => showError s t message
  | .erring, .returns =>
    finish s t .error stored fun s => s.modify t fun r => { r with task := .ended }
  | .erring, _ => s.modify t fun r => { r with task := .ended }
  | .finishing, _ => s.modify t fun r => { r with task := .holding }
  | .holding, _ => decay s t
  | .idling, _ => s.modify t fun r => { r with task := .ended }
  | _, _ => onCancelled s t

def taskResumes (s : State) (t : Nat) (stored : Bool) : Option State :=
  (s.turns t).wake.map (resumeWith s t stored)

/-! ## The turn's job -/

/-- The scheduler takes the job from its queue, and drops it if its future is done. -/
def dispatch (s : State) (t : Nat) : Option State :=
  if (s.turns t).job = .queued then
    some (s.modify t fun r =>
      { r with job := if r.future = .pending then .unstarted else .ended })
  else none

/-- `_execute` handles the `CancelledError` of a job that is not being preempted. -/
def jobCancelled (s : State) (t : Nat) : State :=
  s.modify t fun r => { r with
    job := .ended
    future := if r.future = .pending then .cancelled else r.future }

def sendDelta (s : State) (t : Nat) (delta : String) : State :=
  (s.modify t fun r => { r with job := .sending delta }).hand
    (deltaToken t (s.turns t).record.seq delta)

/-- The LLM yields a delta: `on_delta` up to its first broadcast. -/
def onDelta (s : State) (t : Nat) (delta : String) : State :=
  if isObsolete s t then s
  else if (s.turns t).first then
    setState (s.modify t fun r => { r with first := false, job := .responding delta })
      .responding (some t) ""
  else sendDelta s t delta

/-- A job's task goes on. One that is cancelled before its first step never enters
`_execute`, and leaves its future as it is. -/
def jobResumes (s : State) (t : Nat) : Option State :=
  match (s.turns t).job, (s.turns t).halted with
  | .unstarted, true => some (s.modify t fun r => { r with job := .ended })
  | .fetching, true | .responding _, true | .sending _, true => some (jobCancelled s t)
  | .unstarted, false => some (s.modify t fun r => { r with job := .fetching })
  | .responding delta, false => some (sendDelta s t delta)
  | .sending delta, false =>
    some (s.modify t fun r => { r with
      job := .fetching
      record := ⟨r.record.parts ++ [delta],r.record.seq + 1⟩ })
  | _, _ => none

/-- The LLM stream ends, with a result or an exception for the submitter. -/
def llmEnds (s : State) (t : Nat) (outcome : Outcome) : State :=
  s.modify t fun r => { r with
    job := .ended
    future := if r.future = .pending then outcome else r.future }

/-! ## The turn's speech -/

/-- The speech worker ends: by its cancellation, by a `TtsError`, or after the final `None`. -/
def speechEnds (s : State) (t : Nat) (failure : Option String) : Option State :=
  match (s.turns t).speech, (s.turns t).stopped, failure with
  | .running _, true, _ => some (s.modify t fun r => { r with speech := .cancelled })
  | .running _, false, some text => some (s.modify t fun r => { r with speech := .failed text })
  | .running true, false, none => some (s.modify t fun r => { r with speech := .drained })
  | _, _, _ => none

/-! ## Labels -/

inductive Op where
  | startup
  | chatSend (a owner : Nat) (text : String) (stored counted recorded : Bool)
  | turnCancel (a session t : Nat) (stored : Bool)
  | commandResumes (a : Nat) (counted recorded : Bool)
  | taskResumes (t : Nat) (stored : Bool)
  | dispatch (t : Nat)
  | jobResumes (t : Nat)
  | delta (t : Nat) (delta : String)
  | llmEnds (t : Nat) (outcome : Outcome)
  | speechEnds (t : Nat) (failure : Option String)
  deriving DecidableEq, Repr

def step (s : State) : Op → Option State
  | .startup => some (setState s .idle none "")
  | .chatSend a owner text stored counted recorded =>
    if s.commands a = none then some (chatSend s a owner text stored counted recorded) else none
  | .turnCancel a session t stored =>
    if s.commands a = none then some (turnCancel s a session t stored) else none
  | .commandResumes a counted recorded => commandResumes s a counted recorded
  | .taskResumes t stored => taskResumes s t stored
  | .dispatch t => dispatch s t
  | .jobResumes t => jobResumes s t
  | .delta t delta =>
    if (s.turns t).job = .fetching ∧ (s.turns t).halted = false then some (onDelta s t delta)
    else none
  | .llmEnds t outcome =>
    if (s.turns t).job = .fetching ∧ (s.turns t).halted = false ∧ outcome ≠ .pending ∧
        outcome ≠ .cancelled then some (llmEnds s t outcome)
    else none
  | .speechEnds t failure => speechEnds s t failure

end GhostRunner.Orchestrator
