import GhostRunner.SynthStream
import GhostRunner.WavHeader

/-! What both TTS clients check before the core starts: `check_reachable`, and `probe_format`, which
pins the sample rate (`tts/client.py`, `tts/irodori.py`). -/
namespace GhostRunner.Tts

/-- What comes of a request whose answer is read as a whole. -/
inductive Reply where
  | httpError (exc : PyStr)
  | answered (statusCode : Nat) (content : List UInt8) (text : PyStr)

/-- The HTTP client: its `base_url` as it is printed, and what its server answers. -/
structure Http where
  baseUrl : PyStr
  get : String → Reply
  post : String → Json → Reply

/-- A `TtsError`, or the `struct.error` of the parser. -/
inductive Failure where
  | ttsError (message : PyStr)
  | structError
  deriving DecidableEq, Repr

def Fault.failure : Fault → Failure
  | .ttsError message => .ttsError (.ofString message)
  | .structError => .structError

/-- `_PROBE_TEXT` -/
def probeText : PyStr := .ofString "はい。"

/-- The parts in which the checks of the two clients differ. -/
structure Checks where
  engine : Engine
  healthPath : String
  probeBody : Json

namespace Checks

variable (checks : Checks) (http : Http)

def checkReachable : Except Failure Unit :=
  match http.get checks.healthPath with
  | .httpError exc =>
    .error (.ttsError (checks.engine.complaint " unreachable at " ++ http.baseUrl ++
      .ofString ": " ++ exc))
  | .answered statusCode _ _ =>
    if statusCode ≠ 200 then
      .error (.ttsError (checks.engine.complaint (" " ++ checks.healthPath ++ " returned " ++
        toString statusCode ++ " at ") ++ http.baseUrl))
    else .ok ()

/-- The whole answer is fed to the parser of the header. -/
def probed (content : List UInt8) : Except Fault Nat := do
  let (parser,_) ← WavHeaderParser.feed {} content
  parser.finish
  parser.sampleRate

/-- The rate that is pinned. -/
def probeFormat : Except Failure Nat :=
  match http.post checks.engine.path checks.probeBody with
  | .httpError exc =>
    .error (.ttsError (checks.engine.complaint " format probe failed: " ++ exc))
  | .answered statusCode content text =>
    if statusCode ≠ 200 then
      .error (.ttsError (checks.engine.complaint (" format probe returned " ++
        toString statusCode ++ ": ") ++ text.take 200))
    else (probed content).mapError Fault.failure

end Checks

def TtsClient.checks (client : TtsClient) : Checks where
  engine := client.engine
  healthPath := "/v1/health"
  probeBody := .obj [(.ofString "text",.str probeText),(.ofString "format",.str (.ofString "wav")),
    (.ofString "streaming",.bool false),(.ofString "chunk_length",.int client.chunkLength),
    (.ofString "max_new_tokens",.int 128)]

def IrodoriClient.checks (client : IrodoriClient) : Checks where
  engine := client.engine
  healthPath := "/health"
  probeBody := client.body probeText "wav"

/-- `check_reachable` -/
def TtsClient.checkReachable (client : TtsClient) : Http → Except Failure Unit :=
  client.checks.checkReachable

def IrodoriClient.checkReachable (client : IrodoriClient) : Http → Except Failure Unit :=
  client.checks.checkReachable

/-- `probe_format`, with the client that it leaves if it does not raise. -/
def TtsClient.probeFormat (client : TtsClient) (http : Http) : Except Failure TtsClient :=
  (client.checks.probeFormat http).map fun rate => { client with sampleRate := some rate }

def IrodoriClient.probeFormat (client : IrodoriClient) (http : Http) :
    Except Failure IrodoriClient :=
  (client.checks.probeFormat http).map fun rate => { client with sampleRate := some rate }

/-! ## What passes -/

theorem probed_ok_iff {content : List UInt8} {rate : Nat} :
    Checks.probed content = .ok rate ↔ ∃ header pcm, Header header rate ∧ content = header ++ pcm := by
  rw [← exists_comm]
  simp only [← WavHeaderParser.feed_passes_iff]
  simp only [Checks.probed,bind,Except.bind]
  constructor
  · intro passed
    split at passed
    · cases passed
    · next fed found =>
      obtain ⟨parser,pcm⟩ := fed
      dsimp only at passed
      split at passed
      · cases passed
      · next finished => exact ⟨pcm,parser,found,finished,passed⟩
  · rintro ⟨pcm,parser,found,finished,rates⟩
    rw [found]
    dsimp only
    rw [finished]
    exact rates

theorem checkReachable_ok_iff {checks : Checks} {http : Http} :
    checks.checkReachable http = .ok () ↔
      ∃ content text, http.get checks.healthPath = .answered 200 content text := by
  unfold Checks.checkReachable
  cases http.get checks.healthPath with
  | httpError exc => simp
  | answered statusCode content text =>
    by_cases fine : statusCode = 200
    · simp [fine]
    · simp [fine]

/-- The server has answered with a WAV file of 16 bit samples on one channel at the rate. -/
def Answers (checks : Checks) (http : Http) (rate : Nat) : Prop :=
  ∃ content text header pcm, http.post checks.engine.path checks.probeBody =
    .answered 200 content text ∧ Header header rate ∧ content = header ++ pcm

theorem mapError_ok_iff {ε ε' α : Type} {f : ε → ε'} {result : Except ε α} {a : α} :
    result.mapError f = .ok a ↔ result = .ok a := by
  cases result <;> simp [Except.mapError]

theorem probeFormat_ok_iff {checks : Checks} {http : Http} {rate : Nat} :
    checks.probeFormat http = .ok rate ↔ Answers checks http rate := by
  unfold Checks.probeFormat Answers
  cases http.post checks.engine.path checks.probeBody with
  | httpError exc => simp
  | answered statusCode content text =>
    by_cases fine : statusCode = 200
    · subst fine
      simp only [ne_eq,not_true_eq_false,if_false,mapError_ok_iff,probed_ok_iff]
      constructor
      · rintro ⟨header,pcm,isHeader,split⟩
        exact ⟨content,text,header,pcm,rfl,isHeader,split⟩
      · rintro ⟨_,_,header,pcm,same,isHeader,split⟩
        cases same
        exact ⟨header,pcm,isHeader,split⟩
    · simp [fine]

end GhostRunner.Tts
