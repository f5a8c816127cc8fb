import GhostRunner.Json
import GhostRunner.Machine
import GhostRunner.TurnSpeech

/-! `synth_stream` of `TtsClient` (`tts/client.py`) and of `IrodoriClient` (`tts/irodori.py`), read
to its end. What becomes of the HTTP request is an argument: `httpx` is not modelled. -/
namespace GhostRunner.Tts

open Machine

abbrev Pcm := List UInt8

/-- An answer with the chunks of its body, the `HTTPError` that ends the transfer early if one
does, and the body as text. -/
structure Response where
  statusCode : Nat
  chunks : List (List UInt8)
  broken : Option PyStr := none
  text : PyStr := []

inductive Exchange where
  | unanswered (exc : PyStr)
  | answered (resp : Response)

inductive Ending where
  | returned
  | valueError (message : PyStr)
  | ttsError (message : PyStr)
  deriving DecidableEq, Repr

def Ending.failed : Ending → Bool
  | .ttsError _ => true
  | _ => false

/-- The request that was made, the chunks that were yielded, and how the iteration ended. -/
structure Synthesis where
  request : Option (String × Json) := none
  yielded : List Pcm := []
  ending : Ending

/-- The parts in which the two clients differ. -/
structure Engine where
  name : String
  path : String
  body : PyStr → Json

structure Alignment where
  carry : List UInt8 := []
  gotAudio : Bool := false
  deriving DecidableEq, Repr

/-- The body of the loop over the response. -/
def align (s : Alignment) (responseChunk : List UInt8) : Alignment × List Pcm :=
  let aligned := s.carry ++ responseChunk
  let alignedLength := aligned.length - aligned.length % 2
  ({ carry := aligned.drop alignedLength, gotAudio := s.gotAudio || alignedLength ≠ 0 },
    if alignedLength ≠ 0 then [aligned.take alignedLength] else [])

namespace Engine

variable (engine : Engine) (unicode : PyStr.Unicode)

def complaint (text : String) : PyStr := .ofString (engine.name ++ text)

/-- After the loop. -/
def verdict (text : PyStr) (s : Alignment) : Ending :=
  if s.carry ≠ [] then .ttsError (engine.complaint " returned an odd trailing PCM byte")
  else if s.gotAudio = false then
    .ttsError (engine.complaint " returned no audio for " ++ text.repr unicode)
  else .returned

def requestFailed (exc : PyStr) : Ending := .ttsError (engine.complaint " request failed: " ++ exc)

def synthStream (sampleRate : Option Nat) (text : PyStr) (exchange : Exchange) : Synthesis :=
  if text = [] then { ending := .valueError (.ofString "text must not be empty") }
  else
    match sampleRate with
    | none =>
      { ending := .ttsError (.ofString "synth_stream before probe_format(); startup order bug") }
    | some _ =>
      let request := some (engine.path,engine.body text)
      match exchange with
      | .unanswered exc => { request := request, ending := engine.requestFailed exc }
      | .answered resp =>
        if resp.statusCode ≠ 200 then
          match resp.broken with
          | some exc => { request := request, ending := engine.requestFailed exc }
          | none =>
            { request := request, ending := .ttsError (engine.complaint (" " ++ engine.path ++
                " returned " ++ toString resp.statusCode ++ ": ") ++ resp.text.take 200) }
        else
          let looped := transduce align {} resp.chunks
          { request := request
            yielded := looped.2
            ending := match resp.broken with
              | some exc => engine.requestFailed exc
              | none => engine.verdict unicode text looped.1 }

end Engine

structure TtsClient where
  chunkLength : Int := 200
  sampleRate : Option Nat := none

def TtsClient.engine (client : TtsClient) : Engine where
  name := "fish-speech"
  path := "/v1/tts"
  body := fun text => .obj [(.ofString "text",.str text),(.ofString "format",.str (.ofString "wav")),
    (.ofString "streaming",.bool true),(.ofString "chunk_length",.int client.chunkLength),
    (.ofString "latency",.str (.ofString "balanced")),(.ofString "max_new_tokens",.int 1024)]

def TtsClient.synthStream (client : TtsClient) (unicode : PyStr.Unicode) : PyStr → Exchange →
    Synthesis := client.engine.synthStream unicode client.sampleRate

structure IrodoriClient where
  voice : PyStr := .ofString "none"
  sampleRate : Option Nat := none

/-- `_body`. -/
def IrodoriClient.body (client : IrodoriClient) (text : PyStr) (responseFormat : String) : Json :=
  .obj [(.ofString "model",.str (.ofString "irodori-tts")),(.ofString "input",.str text),
    (.ofString "voice",.str client.voice),
    (.ofString "response_format",.str (.ofString responseFormat))]

def IrodoriClient.engine (client : IrodoriClient) : Engine where
  name := "irodori-tts"
  path := "/v1/audio/speech"
  body := fun text => client.body text "pcm"

def IrodoriClient.synthStream (client : IrodoriClient) (unicode : PyStr.Unicode) : PyStr →
    Exchange → Synthesis := client.engine.synthStream unicode client.sampleRate

/-! ## The loop -/

/-- Nothing is lost between what is yielded and what is carried on, which is at most a byte. -/
theorem align_step (s : Alignment) (chunk : List UInt8) :
    (align s chunk).2.flatten ++ (align s chunk).1.carry = s.carry ++ chunk ∧
    (align s chunk).1.carry.length = (s.carry.length + chunk.length) % 2 ∧
    (∀ pcm ∈ (align s chunk).2, pcm ≠ [] ∧ Even pcm.length) ∧
    ((align s chunk).1.gotAudio = true ↔ s.gotAudio = true ∨ (align s chunk).2 ≠ []) := by
  have length := @List.length_append _ s.carry chunk
  simp only [align]
  generalize s.carry ++ chunk = aligned at length
  refine ⟨?_,?_,?_,?_⟩
  · by_cases none : aligned.length - aligned.length % 2 = 0
    · simp [none]
    · simp [none]
  · rw [List.length_drop]
    omega
  · intro pcm member
    by_cases none : aligned.length - aligned.length % 2 = 0
    · simp [none] at member
    · simp only [none,ne_eq,not_false_iff,if_true,List.mem_singleton] at member
      subst member
      have taken : (aligned.take (aligned.length - aligned.length % 2)).length =
          aligned.length - aligned.length % 2 := by
        rw [List.length_take]
        omega
      constructor
      · apply List.ne_nil_of_length_pos
        omega
      · rw [taken,Nat.even_iff]
        omega
  · by_cases none : aligned.length - aligned.length % 2 = 0 <;> simp [none]

/-- The same over all chunks. -/
theorem align_run (s : Alignment) (chunks : List (List UInt8)) :
    (transduce align s chunks).2.flatten ++ (transduce align s chunks).1.carry =
      s.carry ++ chunks.flatten ∧
    (s.carry.length < 2 → (transduce align s chunks).1.carry.length =
      (s.carry.length + chunks.flatten.length) % 2) ∧
    (∀ pcm ∈ (transduce align s chunks).2, pcm ≠ [] ∧ Even pcm.length) ∧
    ((transduce align s chunks).1.gotAudio = true ↔
      s.gotAudio = true ∨ (transduce align s chunks).2 ≠ []) := by
  induction chunks generalizing s with
  | nil =>
    refine ⟨by simp,?_,by simp,by simp⟩
    intro small
    simp only [transduce,List.flatten_nil,List.length_nil]
    omega
  | cons chunk chunks ih =>
    obtain ⟨kept,carried,aligned,audio⟩ := align_step s chunk
    obtain ⟨laterKept,laterCarried,laterAligned,laterAudio⟩ := ih (align s chunk).1
    simp only [transduce]
    refine ⟨?_,?_,?_,?_⟩
    · rw [List.flatten_append,List.append_assoc,laterKept,← List.append_assoc,kept]
      simp
    · intro small
      rw [laterCarried (by omega),carried,List.flatten_cons,List.length_append]
      omega
    · intro pcm member
      rcases List.mem_append.mp member with first | later
      · exact aligned pcm first
      · exact laterAligned pcm later
    · rw [laterAudio,audio]
      simp only [ne_eq,List.append_eq_nil_iff]
      tauto

/-! ## What is yielded of a body -/

/-- Whole samples, and all of the body but an odd last byte. -/
structure Whole (body : List UInt8) (yielded : List Pcm) : Prop where
  aligned : ∀ pcm ∈ yielded, pcm ≠ [] ∧ Even pcm.length
  joined : yielded.flatten = if body.length % 2 = 1 then body.dropLast else body

theorem Whole.length {body : List UInt8} {yielded : List Pcm} (whole : Whole body yielded) :
    yielded.flatten.length = body.length - body.length % 2 := by
  rw [whole.joined]
  split
  · rw [List.length_dropLast]
    omega
  · omega

/-- The longest beginning of the body that is made of whole samples. -/
theorem Whole.longest {body : List UInt8} {yielded : List Pcm} (whole : Whole body yielded) :
    yielded.flatten <+: body ∧ Even yielded.flatten.length ∧
    ∀ other, other <+: body → Even other.length → other.length ≤ yielded.flatten.length := by
  have length := whole.length
  refine ⟨?_,?_,?_⟩
  · rw [whole.joined]
    split
    · exact List.dropLast_prefix body
    · exact List.prefix_rfl
  · rw [length,Nat.even_iff]
    omega
  · intro other begins even
    have bound := begins.length_le
    rw [Nat.even_iff] at even
    omega

theorem align_whole (chunks : List (List UInt8)) :
    Whole chunks.flatten (transduce align {} chunks).2 ∧
    (transduce align {} chunks).1.carry.length = chunks.flatten.length % 2 := by
  obtain ⟨kept,carried,aligned,_⟩ := align_run {} chunks
  have carry := carried (by decide)
  simp only [List.nil_append,List.length_nil,Nat.zero_add] at kept carry
  refine ⟨⟨aligned,?_⟩,carry⟩
  rw [← kept] at carry ⊢
  generalize (transduce align {} chunks).1.carry = rest at carry ⊢
  by_cases odd : ((transduce align {} chunks).2.flatten ++ rest).length % 2 = 1
  · obtain ⟨byte,rfl⟩ := List.length_eq_one_iff.mp (carry.trans odd)
    rw [if_pos odd,List.dropLast_concat]
  · have empty : rest.length = 0 := by omega
    rw [if_neg odd,List.length_eq_zero_iff.mp empty,List.append_nil]

theorem gotAudio_iff (chunks : List (List UInt8)) :
    (transduce align {} chunks).1.gotAudio = true ↔ 2 ≤ chunks.flatten.length := by
  obtain ⟨_,_,aligned,audio⟩ := align_run {} chunks
  have length := (align_whole chunks).1.length
  simp only [Bool.false_eq_true,false_or] at audio
  rw [audio]
  constructor
  · intro some
    obtain ⟨pcm,rest,split⟩ := List.exists_cons_of_ne_nil some
    have ⟨proper,even⟩ := aligned pcm (by rw [split]; simp)
    have positive := List.length_pos_iff.mpr proper
    rw [split,List.flatten_cons,List.length_append] at length
    rw [Nat.even_iff] at even
    omega
  · intro long none
    rw [none] at length
    simp only [List.flatten_nil,List.length_nil] at length
    omega

/-! ## The two clients -/

section Engine

variable (engine : Engine) (unicode : PyStr.Unicode)

theorem verdict_returned_iff (text : PyStr) (chunks : List (List UInt8)) :
    engine.verdict unicode text (transduce align {} chunks).1 = .returned ↔
      ¬(chunks.flatten.length % 2 = 1 ∨ chunks.flatten.length = 0) := by
  have carry := (align_whole chunks).2
  have audio := gotAudio_iff chunks
  have odd : (transduce align {} chunks).1.carry ≠ [] ↔ chunks.flatten.length % 2 = 1 := by
    rw [← List.length_pos_iff,carry]
    omega
  have silent : (transduce align {} chunks).1.gotAudio = false ↔ ¬2 ≤ chunks.flatten.length := by
    rw [← audio,Bool.not_eq_true]
  simp only [Engine.verdict,odd,silent]
  generalize chunks.flatten.length = n
  split_ifs with isOdd long
  · simp [isOdd]
  · have audible : ¬(n % 2 = 1 ∨ n = 0) := by omega
    simp only [audible,not_false_iff]
  · have empty : n = 0 := by omega
    simp [empty]

theorem verdict_ttsError (text : PyStr) (s : Alignment) : engine.verdict unicode text s = .returned ∨
    ∃ message, engine.verdict unicode text s = .ttsError message := by
  simp only [Engine.verdict]
  split_ifs
  · exact .inr ⟨_,rfl⟩
  · exact .inr ⟨_,rfl⟩
  · exact .inl rfl

theorem synthStream_accepted {sampleRate : Option Nat} {text : PyStr} {resp : Response}
    (proper : text ≠ []) (probed : sampleRate.isSome = true) (accepted : resp.statusCode = 200) :
    (engine.synthStream unicode sampleRate text (.answered resp)).yielded =
      (transduce align {} resp.chunks).2 ∧
    (engine.synthStream unicode sampleRate text (.answered resp)).ending =
      match resp.broken with
      | some exc => engine.requestFailed exc
      | none => engine.verdict unicode text (transduce align {} resp.chunks).1 := by
  obtain ⟨rate,rfl⟩ := Option.isSome_iff_exists.mp probed
  have status : ¬resp.statusCode ≠ 200 := not_not.mpr accepted
  simp only [Engine.synthStream,if_neg proper,if_neg status]
  exact ⟨trivial,trivial⟩

/-- Whatever becomes of the request, what is yielded comes in whole samples. -/
theorem synthStream_aligned (sampleRate : Option Nat) (text : PyStr) (exchange : Exchange) :
    ∀ pcm ∈ (engine.synthStream unicode sampleRate text exchange).yielded,
      pcm ≠ [] ∧ Even pcm.length := by
  simp only [Engine.synthStream]
  split
  · simp
  cases sampleRate with
  | none => simp
  | some rate =>
    cases exchange with
    | unanswered => simp
    | answered resp =>
      dsimp only
      split
      · cases resp.broken <;> simp
      · exact (align_whole resp.chunks).1.aligned

/-- A client as a turn uses it. -/
def Engine.synthClient (rate : Nat) (exchanges : Nat → PyStr → Exchange) : Voice.SynthClient where
  sampleRate := rate
  synthStream := fun call sentence =>
    (engine.synthStream unicode (some rate) sentence (exchanges call sentence)).yielded
  nonempty := fun _ _ pcm member => (synthStream_aligned engine unicode _ _ _ pcm member).1
  even := fun _ _ pcm member => (synthStream_aligned engine unicode _ _ _ pcm member).2

end Engine

/-- How a client ends when the body has come whole, and when the transfer breaks. -/
def Ends (resp : Response) (ending : Ending) : Prop :=
  match resp.broken with
  | none => ((∃ message, ending = .ttsError message) ↔
      resp.chunks.flatten.length % 2 = 1 ∨ resp.chunks.flatten.length = 0) ∧
      (ending = .returned ∨ ∃ message, ending = .ttsError message)
  | some _ => ∃ message, ending = .ttsError message

theorem synthStream_ends (engine : Engine) (unicode : PyStr.Unicode) {sampleRate : Option Nat}
    {text : PyStr} {resp : Response} (proper : text ≠ []) (probed : sampleRate.isSome = true)
    (accepted : resp.statusCode = 200) :
    Ends resp (engine.synthStream unicode sampleRate text (.answered resp)).ending := by
  rw [(synthStream_accepted engine unicode proper probed accepted).2]
  simp only [Ends]
  cases resp.broken with
  | some exc => exact ⟨_,rfl⟩
  | none =>
    have returned := verdict_returned_iff engine unicode text resp.chunks
    have either := verdict_ttsError engine unicode text (transduce align {} resp.chunks).1
    refine ⟨?_,either⟩
    constructor
    · rintro ⟨message,raised⟩
      by_contra fine
      rw [returned.mpr fine] at raised
      cases raised
    · intro bad
      rcases either with fine | raised
      · exact absurd bad (returned.mp fine)
      · exact raised

/-- Both clients yield the same of an accepted request: whole samples, and all of the body but an
odd last byte. They fail at an odd or empty body, and when the transfer breaks, after the longest
beginning in whole samples. -/
theorem synth_stream_whole (tts : TtsClient) (irodori : IrodoriClient) (unicode : PyStr.Unicode)
    {text : PyStr} {resp : Response} (proper : text ≠ [])
    (ttsProbed : tts.sampleRate.isSome = true) (irodoriProbed : irodori.sampleRate.isSome = true)
    (accepted : resp.statusCode = 200) :
    let first := tts.synthStream unicode text (.answered resp)
    let second := irodori.synthStream unicode text (.answered resp)
    let body := resp.chunks.flatten
    first.yielded = second.yielded ∧ Whole body first.yielded ∧
    Ends resp first.ending ∧ Ends resp second.ending ∧
    (first.yielded.flatten <+: body ∧ Even first.yielded.flatten.length ∧
      ∀ other, other <+: body → Even other.length →
        other.length ≤ first.yielded.flatten.length) := by
  intro first second body
  have firstYields := (synthStream_accepted tts.engine unicode proper ttsProbed accepted).1
  have secondYields := (synthStream_accepted irodori.engine unicode proper irodoriProbed accepted).1
  have whole : Whole body first.yielded := by
    have all := (align_whole resp.chunks).1
    rwa [← firstYields] at all
  refine ⟨firstYields.trans secondYields.symm,whole,?_,?_,whole.longest⟩
  · exact synthStream_ends tts.engine unicode proper ttsProbed accepted
  · exact synthStream_ends irodori.engine unicode proper irodoriProbed accepted

/-- A body of three bytes in two chunks. -/
theorem synth_stream_whole_odd :
    Whole [1,0,2] (TtsClient.synthStream { sampleRate := some 44100 }
      ⟨fun _ => false,fun _ _ => rfl⟩ (.ofString "はい。")
      (.answered { statusCode := 200, chunks := [[1],[0,2]] })).yielded :=
  (@synth_stream_whole { sampleRate := some 44100 } { sampleRate := some 48000 }
    ⟨fun _ => false,fun _ _ => rfl⟩ (.ofString "はい。")
    { statusCode := 200, chunks := [[1],[0,2]] } (by decide) rfl rfl rfl).2.1

end GhostRunner.Tts
