import Mathlib.Logic.Function.Basic
import GhostRunner.BinFrame
import GhostRunner.Chunker
import GhostRunner.Envelope

/-! `TurnSpeech` (`voice/tts_pipeline.py`) for any number of turns, over the stream ids of one
session manager. One label is one stretch of code between two awaits. What is handed to
`broadcast` and `broadcast_binary` counts from the call. The latency figures are left out. -/
namespace GhostRunner.Voice

open BinFrame

abbrev Pcm := List UInt8

def pcmFrameBytes : Nat := 65536

/-- A TTS client, with what `synth_stream` would yield for a sentence if it were neither
cancelled nor failed; it may depend on how often the turn has called it before. -/
structure SynthClient where
  sampleRate : Nat
  synthStream : Nat → PyStr → List Pcm
  nonempty : ∀ call sentence, ∀ pcm ∈ synthStream call sentence, pcm ≠ []
  even : ∀ call sentence, ∀ pcm ∈ synthStream call sentence, Even pcm.length

inductive Failure where
  | foreign (text : String)
  | encode (error : EncodeError)
  deriving DecidableEq, Repr

inductive Ending where
  | returned
  | cancelled
  | raised (failure : Failure)
  deriving DecidableEq, Repr

/-- The await at which `_run` stands: `queue.get`, the next chunk of a sentence, and the
broadcasts of the opening envelope, of the slice at an offset, and of the closing envelope. -/
inductive Worker where
  | created
  | waiting
  | synthesising (chunks : List Pcm)
  | opening (pcm : Pcm) (chunks : List Pcm)
  | sending (pcm : Pcm) (off : Nat) (chunks : List Pcm)
  | closing
  | ended (ending : Ending)
  deriving DecidableEq, Repr

/-- A call of `finish` or `cancel`. -/
inductive Call where
  | idle
  | waiting
  | returned
  | raised
  deriving DecidableEq, Repr

/-- `asked` is a request to cancel the worker. `calls` counts the calls of the TTS client; an
observer keeps the deltas in `fed`. -/
structure TurnSpeech where
  turnId : Nat
  streamId : Nat
  tts : SynthClient
  chunker : SentenceChunker := {}
  queue : List (Option PyStr) := []
  seq : Nat := 0
  opened : Bool := false
  worker : Worker := .created
  asked : Bool := false
  calls : Nat := 0
  finishing : Call := .idle
  cancelling : Call := .idle
  fed : List PyStr := []

inductive Sent where
  | text (env : Envelope)
  | binary (frame : Frame)
  deriving DecidableEq, Repr

/-- What the await of the worker gives when the worker goes on. -/
inductive Wake where
  | returns
  | cancelled
  | raises (text : String)
  deriving DecidableEq, Repr

namespace TurnSpeech

/-! ## The caller -/

def feed (s : TurnSpeech) (delta : PyStr) : TurnSpeech :=
  let fed := s.chunker.feed delta
  { s with chunker := fed.1, queue := s.queue ++ fed.2.map some, fed := s.fed ++ [delta] }

/-- `finish`, up to its await of the worker. -/
def finish (s : TurnSpeech) : TurnSpeech :=
  let flushed := s.chunker.flush
  { s with
    chunker := flushed.1
    queue := s.queue ++ flushed.2.map some ++ [none]
    finishing := .waiting }

/-- `cancel`, up to its await of the worker. -/
def cancel (s : TurnSpeech) : TurnSpeech := { s with asked := true, cancelling := .waiting }

/-- The caller of `finish` or `cancel` may itself have been cancelled when the worker ends. -/
def finishResumes (s : TurnSpeech) (interrupted : Bool) : Option TurnSpeech :=
  match s.finishing, s.worker with
  | .waiting, .ended .returned =>
    some { s with finishing := if interrupted then .raised else .returned }
  | .waiting, .ended _ => some { s with finishing := .raised }
  | _, _ => none

def cancelResumes (s : TurnSpeech) (interrupted : Bool) : Option TurnSpeech :=
  match s.cancelling, s.worker with
  | .waiting, .ended (.raised _) =>
    some { s with cancelling := if interrupted then .returned else .raised }
  | .waiting, .ended _ => some { s with cancelling := .returned }
  | _, _ => none

/-! ## The worker -/

def audioMeta (s : TurnSpeech) (last : Bool) : Envelope where
  payload := .audioMeta s.streamId s.tts.sampleRate last
  turn := some s.turnId

def sendMeta (s : TurnSpeech) (last : Bool) (worker : Worker) : TurnSpeech × List Sent :=
  ({ s with worker := worker },[.text (s.audioMeta last)])

/-- The loop over the slices of a chunk, from an offset up to its next await. -/
def sendSlice (s : TurnSpeech) (pcm : Pcm) (off : Nat) (chunks : List Pcm) :
    TurnSpeech × List Sent :=
  if off < pcm.length then
    match encodeFrame kindTtsPcm s.streamId s.seq ((pcm.drop off).take pcmFrameBytes) with
    | .ok frame => ({ s with worker := .sending pcm off chunks },[.binary frame])
    | .error error => ({ s with worker := .ended (.raised (.encode error)) },[])
  else ({ s with worker := .synthesising chunks },[])

/-- The TTS client yields a chunk, or is through with its sentence. -/
def nextChunk (s : TurnSpeech) : List Pcm → TurnSpeech × List Sent
  | [] => ({ s with worker := .waiting },[])
  | pcm :: chunks =>
    if s.opened then s.sendSlice pcm 0 chunks else s.sendMeta false (.opening pcm chunks)

def takeSentence (s : TurnSpeech) : TurnSpeech × List Sent :=
  match s.queue with
  | [] => (s,[])
  | none :: rest =>
    if s.opened then { s with queue := rest }.sendMeta true .closing
    else ({ s with queue := rest, worker := .ended .returned },[])
  | some sentence :: rest =>
    ({ s with
      queue := rest
      calls := s.calls + 1
      worker := .synthesising (s.tts.synthStream s.calls sentence) },[])

/-- A worker that is asked to stop before its first step or at the queue does so. What comes
out of the TTS client or of a broadcast is up to that code, which may swallow a request. -/
def admits (s : TurnSpeech) : Wake → Bool
  | .returns =>
    match s.worker with
    | .created => !s.asked
    | .waiting => !s.asked && s.queue ≠ []
    | .ended _ => false
    | _ => true
  | .cancelled =>
    match s.worker with
    | .created | .waiting => s.asked
    | .ended _ => false
    | _ => true
  | .raises _ =>
    match s.worker with
    | .created | .waiting | .ended _ => false
    | _ => true

def goesOn (s : TurnSpeech) : TurnSpeech × List Sent :=
  match s.worker with
  | .created => ({ s with worker := .waiting },[])
  | .waiting => s.takeSentence
  | .synthesising chunks => s.nextChunk chunks
  | .opening pcm chunks => { s with opened := true }.sendSlice pcm 0 chunks
  | .sending pcm off chunks =>
    { s with seq := s.seq + 1 }.sendSlice pcm (off + pcmFrameBytes) chunks
  | .closing => ({ s with worker := .ended .returned },[])
  | .ended _ => (s,[])

def resume (s : TurnSpeech) : Wake → TurnSpeech × List Sent
  | .returns => { s with asked := false }.goesOn
  | .cancelled => ({ s with worker := .ended .cancelled },[])
  | .raises text => ({ s with worker := .ended (.raised (.foreign text)) },[])

end TurnSpeech

/-! ## All turns -/

/-- The labels of one turn's speech. `interrupt` cancels the caller of `finish`, and with it
the worker that it awaits. -/
inductive Act where
  | feed (delta : PyStr)
  | finish
  | cancel
  | interrupt
  | worker (wake : Wake)
  | finishResumes (interrupted : Bool)
  | cancelResumes (interrupted : Bool)
  deriving DecidableEq, Repr

def TurnSpeech.act (s : TurnSpeech) : Act → Option (TurnSpeech × List Sent)
  | .feed delta => if s.finishing = .idle then some (s.feed delta,[]) else none
  | .finish => if s.finishing = .idle then some (s.finish,[]) else none
  | .cancel => if s.cancelling = .waiting then none else some (s.cancel,[])
  | .interrupt => if s.finishing = .waiting then some ({ s with asked := true },[]) else none
  | .worker wake => if s.admits wake then some (s.resume wake) else none
  | .finishResumes interrupted => (s.finishResumes interrupted).map fun s => (s,[])
  | .cancelResumes interrupted => (s.cancelResumes interrupted).map fun s => (s,[])

/-- The counter of `next_stream_id`, the speeches by their stream ids, and everything that
they have broadcast, in order. -/
structure State where
  nextStreamId : Nat
  speeches : Nat → Option TurnSpeech
  log : List Sent

def init : State := ⟨0,fun _ => none,[]⟩

inductive Op where
  | create (turnId : Nat) (tts : SynthClient)
  | speech (streamId : Nat) (act : Act)

def create (s : State) (turnId : Nat) (tts : SynthClient) : State :=
  let streamId := s.nextStreamId + 2
  { s with
    nextStreamId := streamId
    speeches := Function.update s.speeches streamId
      (some { turnId := turnId, streamId := streamId, tts := tts }) }

def step (s : State) : Op → Option State
  | .create turnId tts => some (create s turnId tts)
  | .speech k act =>
    ((s.speeches k).bind fun speech => speech.act act).map fun acted =>
      { s with
        speeches := Function.update s.speeches k (some acted.1)
        log := s.log ++ acted.2 }

end GhostRunner.Voice
