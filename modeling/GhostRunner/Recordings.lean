import GhostRunner.Conversation

/-! The way of a recording from a client to whisper-server. -/
namespace GhostRunner.Wire

open Json (Reader Readable)
open Commands (Core Parts Transcript isWave maxAudioBytes)

/-- The longest message that the socket takes, in bytes. -/
def maxSize : Nat := 16 * 1024 * 1024

def utf8Size (c : CodePoint) : Nat :=
  if c < 0x80 then 1 else if c < 0x800 then 2 else if c < 0x10000 then 3 else 4

/-- `len(s.encode())` -/
def utf8Length (s : PyStr) : Nat := (s.map utf8Size).sum

@[simp] theorem utf8Length_append (s t : PyStr) :
    utf8Length (s ++ t) = utf8Length s + utf8Length t := by
  simp [utf8Length]

/-- A client sends a recording. -/
def asrCommand (id : PyStr) (wav : List UInt8) : Envelope where
  type := .ofString "command"
  id := some id
  payload := [(.ofString "name",.str (.ofString "asr.transcribe")),
    (.ofString "args",.obj [(.ofString "audio",.str (Base64.b64encode wav))])]

def asrReply (id : PyStr) : Transcript → Envelope
  | .text s =>
    { type := .ofString "ack", id := some id,
      payload := [(.ofString "ok",.bool true),
        (.ofString "result",.obj [(.ofString "text",.str s)])] }
  | .asrError message => errorEnvelope (.ofString Commands.eUnavailable)
      (Commands.truncate (.ofString "ASR error: " ++ message)) (some id)
  | .failed => errorEnvelope (.ofString eInternal)
      (.ofString "command asr.transcribe failed; see core log") (some id)

variable {reader : Reader} {unicode : PyStr.Unicode} {core : Core} {id : PyStr} {wav : List UInt8}
  {now : Int}

theorem asrCommand_fits (deep : 3 ≤ reader.maxDepth) (short : Short reader now) :
    (asrCommand id wav).Fits reader now := by
  obtain ⟨depth,bound⟩ : ∃ depth, reader.maxDepth - 1 = depth + 2 := ⟨reader.maxDepth - 3,by omega⟩
  refine ⟨by simp [asrCommand,validTypes],short,by simp [asrCommand],by simp [asrCommand],?_⟩
  rw [bound]
  simp [asrCommand,Readable]

/-! ## What becomes of it -/

theorem isWave_length (wave : isWave wav = true) : 44 ≤ wav.length := by
  simp only [isWave,Bool.and_eq_true,decide_eq_true_eq] at wave
  exact wave.1.1

theorem b64encode_nil_iff : Base64.b64encode wav = [] ↔ wav = [] := by
  rw [← List.length_eq_zero_iff,Base64.b64encode_length,← List.length_eq_zero_iff]
  omega

theorem asr_request (asr : core.asr = true) :
    if wav.length ≤ maxAudioBytes ∧ isWave wav = true then
      Commands.request core (.ofString "asr.transcribe")
        [(.ofString "audio",.str (Base64.b64encode wav))] = .ok (.transcribe wav)
    else ∃ message, Commands.request core (.ofString "asr.transcribe")
        [(.ofString "audio",.str (Base64.b64encode wav))] =
      Commands.refuse eBadEnvelope message := by
  have routed : Commands.request core (.ofString "asr.transcribe")
        [(.ofString "audio",.str (Base64.b64encode wav))] =
      Commands.asrTranscribe core [(.ofString "audio",.str (Base64.b64encode wav))] := by
    simp [Commands.request,Commands.text]
  rw [routed]
  simp only [Commands.asrTranscribe,asr,Dict.get_cons,if_true,Base64.b64decode_encode,
    b64encode_nil_iff]
  by_cases large : maxAudioBytes < wav.length
  · have proper : wav ≠ [] := by
      rintro rfl
      simp at large
    rw [if_neg (by omega),if_neg proper,if_pos large]
    exact ⟨_,rfl⟩
  by_cases wave : isWave wav = true
  · have long := isWave_length wave
    have proper : wav ≠ [] := by
      rintro rfl
      simp at long
    rw [if_pos ⟨by omega,wave⟩,if_neg proper,if_neg large,if_pos wave]
  · rw [if_neg fun both => wave both.2,if_neg large,if_neg wave]
    split_ifs
    · exact ⟨_,rfl⟩
    · exact ⟨_,rfl⟩

/-! ## The size of the frame -/

theorem utf8Length_ascii {s : PyStr} (ascii : ∀ c ∈ s, c < 0x80) : utf8Length s = s.length := by
  induction s with
  | nil => rfl
  | cons c s ih =>
    rw [List.forall_mem_cons] at ascii
    simp only [utf8Length] at ih
    simp [utf8Length,utf8Size,ascii.1,ih ascii.2]
    omega

theorem quote_plain {s : PyStr} (plain : ∀ c ∈ s, Json.escape c = [c]) :
    Json.quote s = 0x22 :: s ++ [0x22] := by
  have same : s.flatMap Json.escape = s := by
    rw [List.flatMap_congr plain,List.flatMap_singleton']
  have mark : PyStr.ofString "\"" = [0x22] := by decide
  rw [Json.quote,same,mark]
  rfl

theorem quote_size {s : PyStr} (plain : ∀ c ∈ s, Json.escape c = [c]) (ascii : ∀ c ∈ s, c < 0x80) :
    utf8Length (Json.quote s) = s.length + 2 := by
  have mark : utf8Length [0x22] = 1 := by decide
  rw [quote_plain plain,utf8Length_append,← List.singleton_append,utf8Length_append,
    utf8Length_ascii ascii,mark]
  omega

theorem quote_b64encode : utf8Length (Json.quote (Base64.b64encode wav)) =
    4 * ((wav.length + 2) / 3) + 2 := by
  rw [quote_size (Base64.b64encode_forall (by decide) (by decide) wav)
    (Base64.b64encode_ascii wav),Base64.b64encode_length]

/-- Whether a character stands for itself in a JSON text, and takes one byte. -/
def single (c : CodePoint) : Bool := Json.escape c = [c] && c < 0x80

theorem word_size (s : String) (plain : (PyStr.ofString s).all single = true) :
    utf8Length (Json.quote (.ofString s)) = (PyStr.ofString s).length + 2 := by
  simp only [List.all_eq_true,single,Bool.and_eq_true,decide_eq_true_eq] at plain
  exact quote_size (fun c member => (plain c member).1) fun c member => (plain c member).2

theorem mark_size (s : String) (plain : (PyStr.ofString s).all single = true) :
    utf8Length (.ofString s) = (PyStr.ofString s).length := by
  simp only [List.all_eq_true,single,Bool.and_eq_true,decide_eq_true_eq] at plain
  exact utf8Length_ascii fun c member => (plain c member).2

/-- The frame is four bytes for three of the recording, and what stands around it. -/
theorem asrCommand_size : utf8Length ((asrCommand id wav).text now) =
    4 * ((wav.length + 2) / 3) + utf8Length (Json.quote id) +
      utf8Length (.ofString (toString now)) + 92 := by
  simp only [Envelope.text,Envelope.members,asrCommand,Json.written,Json.compact,Json.render,
    Json.renderMembers,PyInt.json,protocolVersion,Option.toList,Option.getD,List.map,
    List.cons_append,List.nil_append,utf8Length_append,quote_b64encode]
  simp (disch := decide) only [word_size,mark_size]
  have lengths : (["\x7b","\x7d",":",",",toString (1 : Int),"v","type","command","ts","id","payload",
      "name","asr.transcribe","args","audio"].map fun s => (PyStr.ofString s).length) =
      [1,1,1,1,1,1,4,7,2,2,7,4,14,4,5] := by decide
  simp only [List.map,List.cons.injEq] at lengths
  omega

/-- The reply to a command with that id and name. -/
def handledReply (id name : PyStr) : Handled → Envelope
  | .protocolError error => errorEnvelope error.code error.message (some id)
  | .exception =>
    errorEnvelope (.ofString eInternal)
      (.ofString "command " ++ name ++ .ofString " failed; see core log") (some id)
  | .result result =>
    { type := .ofString "ack", id := some id,
      payload := [(.ofString "ok",.bool true),(.ofString "result",.obj result)] }

theorem commandReply_call {sessionId : String} {frame : Incoming} {env : Envelope} {name : PyStr}
    {args : Dict} (identified : env.id = some id) (call : commandCall env.payload = some (name,args)) :
    commandReply sessionId frame env =
      handledReply id name (frame.handle sessionId name args) := by
  simp only [commandReply,identified,call]
  cases frame.handle sessionId name args <;> rfl

theorem replyTo_command {python : Python} {sessionId : String} {frame : Incoming} {env : Envelope}
    {name : PyStr} {args : Dict} (decoded : decode python frame.raw = .ok env)
    (typed : env.type = .ofString "command") (identified : env.id = some id)
    (call : commandCall env.payload = some (name,args)) :
    replyTo python sessionId frame =
      .ok (some (handledReply id name (frame.handle sessionId name args))) := by
  rw [← commandReply_call identified call]
  simp [replyTo,decoded,typed]

/-- The frame has this reply, which a session that is served sends if it can be written. -/
structure Told (python : Python) (sessionId : String) (frame : Incoming) (reply : Envelope) :
    Prop where
  found : replyTo python sessionId frame = .ok (some reply)
  sent : ∀ s : State, s.loop = .serving → receive python sessionId s frame =
    match unsent python reply with
    | none => after s false [addressed sessionId reply]
    | some error => { s with loop := .raised error }

theorem told_command {python : Python} {sessionId : String} {frame : Incoming} {env reply : Envelope}
    (decoded : decode python frame.raw = .ok env) (typed : env.type = .ofString "command")
    (found : replyTo python sessionId frame = .ok (some reply)) :
    Told python sessionId frame reply := by
  have harmless : isViolation python frame = false := by
    simp [isViolation,decoded,typed]
  refine ⟨found,fun s serving => ?_⟩
  simp only [receive,serving,serveFrame_eq,found,harmless,answer]
  cases unsent python reply with
  | none => rfl
  | some error => rfl

/-- A recording of a client comes to whisper-server byte for byte, and its transcript goes back,
exactly if it is a WAV file that is not too large; and then the socket takes its frame, if what
else stands in the frame leaves room for it. -/
theorem recording_arrives (reader : Reader) (unicode : PyStr.Unicode) (core : Core) (parts : Parts)
    (sessionId : String) (id : PyStr) (wav : List UInt8) (sentAt : Int) (now : Millis)
    (deep : 3 ≤ reader.maxDepth) (short : Short reader sentAt) (asr : core.asr = true) :
    let frame : Incoming :=
      ⟨.text ((asrCommand id wav).text sentAt),Commands.handleCommand core parts,now⟩
    (if wav.length ≤ maxAudioBytes ∧ isWave wav = true then
      Told (interpreter reader unicode) sessionId frame
        (asrReply id (Commands.transcribe core.unicode (parts.infer wav)))
    else ∃ message, Told (interpreter reader unicode) sessionId frame
      (errorEnvelope (.ofString eBadEnvelope) message (some id))) ∧
    (wav.length ≤ maxAudioBytes →
      utf8Length (Json.quote id) + utf8Length (.ofString (toString sentAt)) ≤ 3000000 →
      utf8Length ((asrCommand id wav).text sentAt) ≤ maxSize) := by
  intro frame
  constructor
  · have decoded : decode (interpreter reader unicode) frame.raw =
        .ok ((asrCommand id wav).stamped sentAt) :=
      decode_encoded reader unicode _ sentAt (asrCommand_fits deep short)
    have call : commandCall ((asrCommand id wav).stamped sentAt).payload =
        some (.ofString "asr.transcribe",[(.ofString "audio",.str (Base64.b64encode wav))]) := by
      rfl
    have requested := @asr_request core wav asr
    have found : replyTo (interpreter reader unicode) sessionId frame = .ok (some (handledReply id _
        (frame.handle sessionId _ _))) := replyTo_command decoded rfl rfl call
    simp only [frame,Commands.handleCommand] at found
    split_ifs at requested with accepted
    · rw [if_pos accepted]
      refine told_command decoded rfl (found.trans ?_)
      rw [requested]
      simp only [Commands.perform]
      cases Commands.transcribe core.unicode (parts.infer wav) with
      | _ => rfl
    · obtain ⟨message,refused⟩ := requested
      rw [if_neg accepted]
      refine ⟨message,told_command decoded rfl (found.trans ?_)⟩
      rw [refused]
      rfl
  · intro small room
    rw [asrCommand_size]
    simp only [maxAudioBytes] at small
    simp only [maxSize]
    omega

/-! ## The shortest recording -/

/-- A header, without any samples. -/
def silence : List UInt8 :=
  [0x52,0x49,0x46,0x46,36,0,0,0,0x57,0x41,0x56,0x45] ++ List.replicate 32 0

/-- whisper-server answers with a space on either side. -/
def hearing : Parts :=
  { bareParts with
    infer := fun _ => .answered
      ⟨200,.ofString "\x7b\"text\":\" hm \"\x7d",.ok (.obj [(.ofString "text",.str (.ofString " hm "))])⟩ }

theorem silence_arrives :
    3 ≤ Json.tenths.maxDepth ∧ Short Json.tenths 0 ∧
    Told (interpreter Json.tenths .widest) "s-1"
      ⟨.text ((asrCommand (.ofString "c1") silence).text 0),
        Commands.handleCommand ⟨.widest,true,none⟩ hearing,epoch⟩
      (asrReply (.ofString "c1") (.text (.ofString "hm"))) ∧
    utf8Length ((asrCommand (.ofString "c1") silence).text 0) ≤ maxSize := by
  have deep : 3 ≤ Json.tenths.maxDepth := by decide
  have short : Short Json.tenths 0 := Nat.le_of_ble_eq_true rfl
  have small : silence.length ≤ maxAudioBytes := by decide
  have wave : isWave silence = true := by decide
  have heard : Commands.transcribe .widest (hearing.infer silence) = .text (.ofString "hm") := by
    have word : (PyStr.ofString " hm ").strip = .ofString "hm" := by decide
    rw [← word]
    rfl
  obtain ⟨told,size⟩ := recording_arrives Json.tenths .widest ⟨.widest,true,none⟩ hearing "s-1"
    (.ofString "c1") silence 0 epoch deep short rfl
  rw [if_pos ⟨small,wave⟩,heard] at told
  exact ⟨deep,short,told,size small (by decide)⟩

end GhostRunner.Wire
