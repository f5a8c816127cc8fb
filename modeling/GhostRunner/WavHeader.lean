import GhostRunner.Bytes
import GhostRunner.Machine

/-! `_WavHeaderParser` (`tts/client.py`). Bytes arrive in pieces, and the header is walked from its
start each time. A `fmt ` chunk is judged as a whole, when its last byte has come, the padding
included; only its size is judged before. -/
namespace GhostRunner.Tts

open Bytes Machine

/-- What a call raises: a `TtsError`, or the `struct.error` of an unpacking past the end. -/
inductive Fault where
  | ttsError (message : String)
  | structError
  deriving DecidableEq, Repr

def ascii (text : String) : List UInt8 := text.toList.map fun c => UInt8.ofNat c.toNat

def riffMagic : List UInt8 := ascii "RIFF"
def waveMagic : List UInt8 := ascii "WAVE"
def dataId : List UInt8 := ascii "data"
def fmtId : List UInt8 := ascii "fmt "

@[simp] theorem riffMagic_length : riffMagic.length = 4 := rfl
@[simp] theorem waveMagic_length : waveMagic.length = 4 := rfl
@[simp] theorem dataId_length : dataId.length = 4 := rfl
@[simp] theorem fmtId_length : fmtId.length = 4 := rfl

theorem fmtId_ne_dataId : fmtId ≠ dataId := by decide

/-- `struct.unpack_from("<HHI", data, offset)`. -/
def unpackHHI (data : List UInt8) (offset : Nat) : Except Fault (Nat × Nat × Nat) :=
  if data.length < offset + 8 then .error .structError
  else .ok (unpack (slice data offset (offset + 2)),unpack (slice data (offset + 2) (offset + 4)),
    unpack (slice data (offset + 4) (offset + 8)))

/-- `struct.unpack_from("<H", data, offset)[0]`. -/
def unpackH (data : List UInt8) (offset : Nat) : Except Fault Nat :=
  if data.length < offset + 2 then .error .structError
  else .ok (unpack (slice data offset (offset + 2)))

/-- The checks of a complete `fmt ` chunk, with the rate that they let pass. -/
def checkFmt (data : List UInt8) (payloadStart : Nat) : Except Fault Nat :=
  match unpackHHI data payloadStart with
  | .error fault => .error fault
  | .ok (audioFormat,channels,parsedRate) =>
    match unpackH data (payloadStart + 14) with
    | .error fault => .error fault
    | .ok bitsPerSample =>
      if audioFormat ≠ 1 then
        .error (.ttsError ("invalid audio_format in WAV header: " ++ toString audioFormat))
      else if bitsPerSample ≠ 16 then
        .error (.ttsError ("invalid bits_per_sample in WAV header: " ++ toString bitsPerSample))
      else if channels ≠ 1 then
        .error (.ttsError ("invalid channels in WAV header: " ++ toString channels))
      else .ok parsedRate

/-- The loop of `_find_pcm_start`. -/
def walk (data : List UInt8) (offset : Nat) (sampleRate : Option Nat) :
    Except Fault (Option (Nat × Nat)) :=
  if data.length < offset + 8 then .ok none
  else
    let chunkId := slice data offset (offset + 4)
    let chunkSize := unpack (slice data (offset + 4) (offset + 8))
    let payloadStart := offset + 8
    if chunkId = dataId then
      match sampleRate with
      | none => .error (.ttsError "WAV fmt chunk missing before data chunk")
      | some rate => .ok (some (payloadStart,rate))
    else if chunkId = fmtId ∧ chunkSize < 16 then
      .error (.ttsError ("invalid fmt chunk size: " ++ toString chunkSize))
    else
      let paddedEnd := payloadStart + chunkSize + chunkSize % 2
      if data.length < paddedEnd then .ok none
      else if chunkId = fmtId then
        match checkFmt data payloadStart with
        | .error fault => .error fault
        | .ok parsedRate => walk data paddedEnd (some parsedRate)
      else walk data paddedEnd sampleRate
termination_by data.length - offset

/-- The offset at which the samples start, and their rate. -/
def findPcmStart (data : List UInt8) : Except Fault (Option (Nat × Nat)) :=
  if 4 ≤ data.length ∧ slice data 0 4 ≠ riffMagic then
    .error (.ttsError "invalid RIFF magic in fish-speech WAV header")
  else if data.length < 12 then .ok none
  else if slice data 8 12 ≠ waveMagic then
    .error (.ttsError "invalid WAVE magic in fish-speech WAV header")
  else walk data 12 none

structure WavHeaderParser where
  buffer : List UInt8 := []
  headerComplete : Bool := false
  rate : Option Nat := none
  deriving DecidableEq, Repr

namespace WavHeaderParser

def sampleRate (p : WavHeaderParser) : Except Fault Nat :=
  match p.rate with
  | none => .error (.ttsError "sample rate unavailable before complete WAV header")
  | some rate => .ok rate

def feed (p : WavHeaderParser) (chunk : List UInt8) :
    Except Fault (WavHeaderParser × List UInt8) :=
  if p.headerComplete then .ok (p,chunk)
  else
    let data := p.buffer ++ chunk
    match findPcmStart data with
    | .error fault => .error fault
    | .ok none => .ok ({ p with buffer := data },[])
    | .ok (some (pcmStart,rate)) =>
      .ok ({ buffer := [], headerComplete := true, rate := some rate },data.drop pcmStart)

def finish (p : WavHeaderParser) : Except Fault Unit :=
  if p.headerComplete then .ok ()
  else .error (.ttsError "fish-speech stream ended before a complete WAV header")

end WavHeaderParser

/-! ## The format -/

def audioFormat (payload : List UInt8) : Nat := unpack (slice payload 0 2)
def channels (payload : List UInt8) : Nat := unpack (slice payload 2 4)
def byteRate (payload : List UInt8) : Nat := unpack (slice payload 4 8)
def bitsPerSample (payload : List UInt8) : Nat := unpack (slice payload 14 16)

/-- The payload with its padding has the length that the size field asks for. -/
def Sized (size payload : List UInt8) : Prop :=
  size.length = 4 ∧ payload.length = unpack size + unpack size % 2

/-- A complete chunk that the walk passes, with the rate known before and after it. -/
inductive Chunk : Option Nat → List UInt8 → Option Nat → Prop
  | other {rate : Option Nat} {id size payload : List UInt8} : id.length = 4 → id ≠ dataId →
      id ≠ fmtId → Sized size payload → Chunk rate (id ++ (size ++ payload)) rate
  | fmt {rate : Option Nat} {size payload : List UInt8} : Sized size payload →
      16 ≤ unpack size → audioFormat payload = 1 → channels payload = 1 →
      bitsPerSample payload = 16 →
      Chunk rate (fmtId ++ (size ++ payload)) (some (byteRate payload))

/-- Any number of them. The rate after them is that of the last `fmt ` chunk. -/
inductive Chunks : Option Nat → List UInt8 → Option Nat → Prop
  | nil {rate : Option Nat} : Chunks rate [] rate
  | cons {rate next last : Option Nat} {chunk rest : List UInt8} : Chunk rate chunk next →
      Chunks next rest last → Chunks rate (chunk ++ rest) last

/-- A header up to the `data` chunk, whose size field may say anything. -/
inductive Header : List UInt8 → Nat → Prop
  | intro {size chunks dataSize : List UInt8} {rate : Nat} : size.length = 4 →
      Chunks none chunks (some rate) → dataSize.length = 4 →
      Header (riffMagic ++ (size ++ (waveMagic ++ (chunks ++ (dataId ++ dataSize))))) rate

/-- Bytes that begin with a chunk the walk must not pass. -/
inductive BadChunk : Option Nat → String → List UInt8 → Prop
  | data {size rest : List UInt8} : size.length = 4 →
      BadChunk none "WAV fmt chunk missing before data chunk" (dataId ++ (size ++ rest))
  | size {rate : Option Nat} {size rest : List UInt8} : size.length = 4 → unpack size < 16 →
      BadChunk rate ("invalid fmt chunk size: " ++ toString (unpack size)) (fmtId ++ (size ++ rest))
  | format {rate : Option Nat} {size payload rest : List UInt8} : Sized size payload →
      16 ≤ unpack size → audioFormat payload ≠ 1 →
      BadChunk rate ("invalid audio_format in WAV header: " ++ toString (audioFormat payload))
        (fmtId ++ (size ++ (payload ++ rest)))
  | bits {rate : Option Nat} {size payload rest : List UInt8} : Sized size payload →
      16 ≤ unpack size → audioFormat payload = 1 → bitsPerSample payload ≠ 16 →
      BadChunk rate ("invalid bits_per_sample in WAV header: " ++ toString (bitsPerSample payload))
        (fmtId ++ (size ++ (payload ++ rest)))
  | mono {rate : Option Nat} {size payload rest : List UInt8} : Sized size payload →
      16 ≤ unpack size → audioFormat payload = 1 → bitsPerSample payload = 16 →
      channels payload ≠ 1 →
      BadChunk rate ("invalid channels in WAV header: " ++ toString (channels payload))
        (fmtId ++ (size ++ (payload ++ rest)))

/-- Bytes that no header starts with, whatever follows, and the complaint about them. -/
inductive Offends : String → List UInt8 → Prop
  | riff {magic rest : List UInt8} : magic.length = 4 → magic ≠ riffMagic →
      Offends "invalid RIFF magic in fish-speech WAV header" (magic ++ rest)
  | wave {size form rest : List UInt8} : size.length = 4 → form.length = 4 → form ≠ waveMagic →
      Offends "invalid WAVE magic in fish-speech WAV header"
        (riffMagic ++ (size ++ (form ++ rest)))
  | chunk {message : String} {size chunks rest : List UInt8} {last : Option Nat} :
      size.length = 4 → Chunks none chunks last → BadChunk last message rest →
      Offends message (riffMagic ++ (size ++ (waveMagic ++ (chunks ++ rest))))

/-! ## One chunk -/

/-- The four bytes of an id and the four of a size at an offset. -/
theorem read_header {data id size rest : List UInt8} {offset : Nat}
    (cut : data.drop offset = id ++ (size ++ rest)) (idLength : id.length = 4)
    (sizeLength : size.length = 4) : offset + 8 ≤ data.length ∧
      slice data offset (offset + 4) = id ∧ slice data (offset + 4) (offset + 8) = size ∧
      data.drop (offset + 8) = rest := by
  obtain ⟨first,afterId⟩ := slice_at cut (by rw [idLength])
  obtain ⟨second,afterSize⟩ := slice_at afterId (by rw [sizeLength])
  have lengths := congrArg List.length cut
  simp only [List.length_drop,List.length_append,idLength,sizeLength] at lengths
  exact ⟨by omega,first,second,afterSize⟩

theorem header_cut {data : List UInt8} {offset : Nat} (enough : offset + 8 ≤ data.length) :
    data.drop offset = slice data offset (offset + 4) ++
      (slice data (offset + 4) (offset + 8) ++ data.drop (offset + 8)) ∧
    (slice data offset (offset + 4)).length = 4 ∧
    (slice data (offset + 4) (offset + 8)).length = 4 := by
  have idLength := @slice_length _ data offset (offset + 4) (by omega)
  have sizeLength := @slice_length _ data (offset + 4) (offset + 8) (by omega)
  refine ⟨?_,by omega,by omega⟩
  rw [← slice_split (by omega),← slice_split (by omega)]

/-- A payload that is there is what the checks see; the unpackings stay inside it. -/
theorem checkFmt_payload {data payload rest : List UInt8} {start : Nat}
    (cut : data.drop start = payload ++ rest) (long : 16 ≤ payload.length) :
    checkFmt data start =
      if audioFormat payload ≠ 1 then
        .error (.ttsError ("invalid audio_format in WAV header: " ++
          toString (audioFormat payload)))
      else if bitsPerSample payload ≠ 16 then
        .error (.ttsError ("invalid bits_per_sample in WAV header: " ++
          toString (bitsPerSample payload)))
      else if channels payload ≠ 1 then
        .error (.ttsError ("invalid channels in WAV header: " ++ toString (channels payload)))
      else .ok (byteRate payload) := by
  have lengths := congrArg List.length cut
  simp only [List.length_drop,List.length_append] at lengths
  have format : slice data (start + 0) (start + 2) = slice payload 0 2 :=
    slice_within cut (by omega)
  have mono : slice data (start + 2) (start + 4) = slice payload 2 4 :=
    slice_within cut (by omega)
  have rate : slice data (start + 4) (start + 8) = slice payload 4 8 :=
    slice_within cut (by omega)
  have bits : slice data (start + 14) (start + 14 + 2) = slice payload 14 16 :=
    slice_within cut (by omega)
  have first : ¬data.length < start + 8 := by omega
  have second : ¬data.length < start + 14 + 2 := by omega
  rw [Nat.add_zero] at format
  simp only [checkFmt,unpackHHI,unpackH,if_neg first,if_neg second,format,mono,rate,bits]
  rfl

/-- The walk passes a chunk that the format lets pass. -/
theorem walk_chunk {data chunk rest : List UInt8} {offset : Nat} {rate next : Option Nat}
    (isChunk : Chunk rate chunk next) (cut : data.drop offset = chunk ++ rest) :
    walk data offset rate = walk data (offset + chunk.length) next ∧
      data.drop (offset + chunk.length) = rest := by
  have after := (slice_at cut rfl).2
  refine ⟨?_,after⟩
  cases isChunk with
  | @other id size payload idLength notData notFmt sized =>
    obtain ⟨sizeLength,length⟩ := sized
    simp only [List.append_assoc] at cut
    obtain ⟨enough,isId,isSize,payloadCut⟩ := read_header cut idLength sizeLength
    have lengths := congrArg List.length payloadCut
    simp only [List.length_drop,List.length_append] at lengths
    have inside : ¬data.length < offset + 8 + unpack size + unpack size % 2 := by omega
    have stop : offset + 8 + unpack size + unpack size % 2 =
        offset + (id ++ (size ++ payload)).length := by
      simp only [List.length_append]
      omega
    rw [walk]
    simp only [isId,isSize,if_neg (not_lt.mpr enough),if_neg notData,notFmt,false_and,if_false,
      if_neg inside]
    rw [stop]
  | @fmt size payload sized long isPcm isMono is16 =>
    obtain ⟨sizeLength,length⟩ := sized
    simp only [List.append_assoc] at cut
    obtain ⟨enough,isId,isSize,payloadCut⟩ := read_header cut rfl sizeLength
    have lengths := congrArg List.length payloadCut
    simp only [List.length_drop,List.length_append] at lengths
    have inside : ¬data.length < offset + 8 + unpack size + unpack size % 2 := by omega
    have stop : offset + 8 + unpack size + unpack size % 2 =
        offset + (fmtId ++ (size ++ payload)).length := by
      simp only [List.length_append,fmtId_length]
      omega
    have passes := checkFmt_payload payloadCut (by omega)
    simp only [isPcm,isMono,is16,ne_eq,not_true,if_false] at passes
    rw [walk]
    simp only [isId,isSize,if_neg (not_lt.mpr enough),if_neg fmtId_ne_dataId,true_and,
      if_neg (not_lt.mpr long),if_neg inside,if_true,passes]
    rw [stop]

theorem walk_chunks {data chunks rest : List UInt8} {offset : Nat} {rate last : Option Nat}
    (passed : Chunks rate chunks last) (cut : data.drop offset = chunks ++ rest) :
    walk data offset rate = walk data (offset + chunks.length) last ∧
      data.drop (offset + chunks.length) = rest := by
  induction passed generalizing offset with
  | nil => exact ⟨rfl,cut⟩
  | @cons rate next last chunk chunks isChunk _ ih =>
    rw [List.append_assoc] at cut
    obtain ⟨first,after⟩ := walk_chunk isChunk cut
    have ⟨later,stop⟩ := ih after
    rw [List.length_append,← Nat.add_assoc]
    exact ⟨first.trans later,stop⟩

theorem walk_data {data size rest : List UInt8} {offset rate : Nat}
    (cut : data.drop offset = dataId ++ (size ++ rest)) (sizeLength : size.length = 4) :
    walk data offset (some rate) = .ok (some (offset + 8,rate)) := by
  obtain ⟨enough,isId,_,_⟩ := read_header cut rfl sizeLength
  rw [walk]
  simp only [isId,if_neg (not_lt.mpr enough),if_true]

theorem walk_bad {data rest : List UInt8} {offset : Nat} {rate : Option Nat} {message : String}
    (bad : BadChunk rate message rest) (cut : data.drop offset = rest) :
    walk data offset rate = .error (.ttsError message) := by
  have fmt {size payload rest : List UInt8} (sized : Sized size payload) (long : 16 ≤ unpack size)
      (cut : data.drop offset = fmtId ++ (size ++ (payload ++ rest))) {message : String}
      (fails : checkFmt data (offset + 8) = .error (.ttsError message)) :
      walk data offset rate = .error (.ttsError message) := by
    obtain ⟨sizeLength,length⟩ := sized
    obtain ⟨enough,isId,isSize,payloadCut⟩ := read_header cut rfl sizeLength
    have lengths := congrArg List.length payloadCut
    simp only [List.length_drop,List.length_append] at lengths
    have inside : ¬data.length < offset + 8 + unpack size + unpack size % 2 := by omega
    rw [walk]
    simp only [isId,isSize,if_neg (not_lt.mpr enough),if_neg fmtId_ne_dataId,true_and,
      if_neg (not_lt.mpr long),if_neg inside,if_true,fails]
  have checked {size payload rest : List UInt8} (sized : Sized size payload)
      (long : 16 ≤ unpack size) (cut : data.drop offset = fmtId ++ (size ++ (payload ++ rest))) :=
    checkFmt_payload (read_header cut rfl sized.1).2.2.2 (by have := sized.2; omega)
  cases bad with
  | data sizeLength =>
    obtain ⟨enough,isId,_,_⟩ := read_header cut rfl sizeLength
    rw [walk]
    simp only [isId,if_neg (not_lt.mpr enough),if_true]
  | size sizeLength short =>
    obtain ⟨enough,isId,isSize,_⟩ := read_header cut rfl sizeLength
    rw [walk]
    simp only [isId,isSize,if_neg (not_lt.mpr enough),if_neg fmtId_ne_dataId,true_and,if_pos short]
  | format sized long notPcm =>
    apply fmt sized long cut
    rw [checked sized long cut,if_pos notPcm]
  | bits sized long isPcm not16 =>
    apply fmt sized long cut
    rw [checked sized long cut,if_neg (not_not.mpr isPcm),if_pos not16]
  | mono sized long isPcm is16 notMono =>
    apply fmt sized long cut
    rw [checked sized long cut,if_neg (not_not.mpr isPcm),if_neg (not_not.mpr is16),if_pos notMono]

/-! ## What the walk finds -/

/-- Where the walk ends up, in terms of the format. -/
inductive Walked (data : List UInt8) (offset : Nat) (rate : Option Nat) :
    Except Fault (Option (Nat × Nat)) → Prop
  | waits : Walked data offset rate (.ok none)
  | found {chunks size rest : List UInt8} {last : Nat} : Chunks rate chunks (some last) →
      size.length = 4 → data.drop offset = chunks ++ (dataId ++ (size ++ rest)) →
      Walked data offset rate (.ok (some (offset + chunks.length + 8,last)))
  | bad {chunks rest : List UInt8} {last : Option Nat} {message : String} :
      Chunks rate chunks last → BadChunk last message rest → data.drop offset = chunks ++ rest →
      Walked data offset rate (.error (.ttsError message))

theorem Walked.chunk {data chunk : List UInt8} {offset stop : Nat} {rate next : Option Nat}
    {result : Except Fault (Option (Nat × Nat))} (isChunk : Chunk rate chunk next)
    (cut : data.drop offset = chunk ++ data.drop stop) (stops : stop = offset + chunk.length)
    (later : Walked data stop next result) : Walked data offset rate result := by
  cases later with
  | waits => exact .waits
  | @found chunks size rest last passed sizeLength after =>
    have whole : data.drop offset = (chunk ++ chunks) ++ (dataId ++ (size ++ rest)) := by
      rw [cut,after,List.append_assoc]
    have start : stop + chunks.length + 8 = offset + (chunk ++ chunks).length + 8 := by
      rw [List.length_append]
      omega
    rw [start]
    exact .found (.cons isChunk passed) sizeLength whole
  | @bad chunks rest _ _ passed isBad after =>
    have whole : data.drop offset = (chunk ++ chunks) ++ rest := by
      rw [cut,after,List.append_assoc]
    exact .bad (.cons isChunk passed) isBad whole

/-- A complete `fmt ` chunk either passes or is bad. -/
theorem checkFmt_walked {data size payload rest : List UInt8} {offset : Nat} {rate : Option Nat}
    (sized : Sized size payload) (long : 16 ≤ unpack size)
    (cut : data.drop offset = fmtId ++ (size ++ (payload ++ rest))) :
    match checkFmt data (offset + 8) with
    | .error fault => Walked data offset rate (.error fault)
    | .ok parsedRate => Chunk rate (fmtId ++ (size ++ payload)) (some parsedRate) := by
  have payloadCut := (read_header cut rfl sized.1).2.2.2
  have enough : 16 ≤ payload.length := by
    have := sized.2
    omega
  rw [checkFmt_payload payloadCut enough]
  by_cases isPcm : audioFormat payload = 1
  case neg =>
    simp only [ne_eq,isPcm,not_false_iff,if_true]
    exact .bad .nil (.format sized long isPcm) cut
  by_cases is16 : bitsPerSample payload = 16
  case neg =>
    simp only [ne_eq,isPcm,is16,not_true,not_false_iff,if_true,if_false]
    exact .bad .nil (.bits sized long isPcm is16) cut
  by_cases isMono : channels payload = 1
  case neg =>
    simp only [ne_eq,isPcm,is16,isMono,not_true,not_false_iff,if_true,if_false]
    exact .bad .nil (.mono sized long isPcm is16 isMono) cut
  simp only [ne_eq,isPcm,is16,isMono,not_true,if_false]
  exact .fmt sized long isPcm isMono is16

theorem payload_cut {data size : List UInt8} {start : Nat} (sizeLength : size.length = 4)
    (complete : start + unpack size + unpack size % 2 ≤ data.length) : ∃ payload,
      Sized size payload ∧
      data.drop start = payload ++ data.drop (start + unpack size + unpack size % 2) := by
  refine ⟨slice data start (start + unpack size + unpack size % 2),⟨sizeLength,?_⟩,?_⟩
  · rw [slice_length complete]
    omega
  · exact slice_split (by omega)

theorem walk_walked (data : List UInt8) (offset : Nat) (rate : Option Nat) :
    Walked data offset rate (walk data offset rate) := by
  induction remaining : data.length - offset using Nat.strongRecOn generalizing offset rate with
  | ind n ih =>
    rw [walk]
    by_cases short : data.length < offset + 8
    · rw [if_pos short]
      exact .waits
    obtain ⟨cut,idLength,sizeLength⟩ := header_cut (not_lt.mp short)
    generalize slice data offset (offset + 4) = id at cut idLength
    generalize slice data (offset + 4) (offset + 8) = size at cut sizeLength
    simp only [if_neg short]
    by_cases isData : id = dataId
    · subst isData
      simp only [if_true]
      cases rate with
      | none => exact .bad .nil (.data sizeLength) cut
      | some rate => exact .found .nil sizeLength cut
    simp only [if_neg isData]
    by_cases tooSmall : id = fmtId ∧ unpack size < 16
    · obtain ⟨rfl,small⟩ := tooSmall
      simp only [small,and_self,if_true]
      exact .bad .nil (.size sizeLength small) cut
    simp only [if_neg tooSmall]
    by_cases incomplete : data.length < offset + 8 + unpack size + unpack size % 2
    · rw [if_pos incomplete]
      exact .waits
    simp only [if_neg incomplete]
    obtain ⟨payload,sized,after⟩ := payload_cut sizeLength (not_lt.mp incomplete)
    rw [after] at cut
    have later := fun next => ih _ (by omega) (offset + 8 + unpack size + unpack size % 2) next rfl
    have whole : data.drop offset = (id ++ (size ++ payload)) ++
        data.drop (offset + 8 + unpack size + unpack size % 2) := by
      rw [cut]
      simp only [List.append_assoc]
    have stops : offset + 8 + unpack size + unpack size % 2 =
        offset + (id ++ (size ++ payload)).length := by
      have length := sized.2
      simp only [List.length_append]
      omega
    by_cases isFmt : id = fmtId
    · subst isFmt
      have long : 16 ≤ unpack size := by
        by_contra small
        exact tooSmall ⟨rfl,not_le.mp small⟩
      have checked := @checkFmt_walked data size payload _ offset rate sized long cut
      simp only [if_true]
      cases check : checkFmt data (offset + 8) with
      | error fault => rwa [check] at checked
      | ok parsedRate =>
        rw [check] at checked
        exact .chunk checked whole stops (later (some parsedRate))
    · simp only [if_neg isFmt]
      exact .chunk (.other idLength isData isFmt sized) whole stops (later rate)

/-! ## The whole header -/

/-- Where the search ends up, in terms of the format. -/
inductive Parsed (data : List UInt8) : Except Fault (Option (Nat × Nat)) → Prop
  | waits : Parsed data (.ok none)
  | found {header pcm : List UInt8} {rate : Nat} : Header header rate → data = header ++ pcm →
      Parsed data (.ok (some (header.length,rate)))
  | bad {message : String} : Offends message data → Parsed data (.error (.ttsError message))

theorem findPcmStart_parsed (data : List UInt8) : Parsed data (findPcmStart data) := by
  rw [findPcmStart]
  by_cases magic : 4 ≤ data.length ∧ slice data 0 4 ≠ riffMagic
  · rw [if_pos magic]
    have cut := @slice_split _ data 0 4 (by omega)
    rw [List.drop_zero] at cut
    apply Parsed.bad
    rw [cut]
    exact .riff (slice_length magic.1) magic.2
  by_cases short : data.length < 12
  · rw [if_neg magic,if_pos short]
    exact .waits
  have isRiff : slice data 0 4 = riffMagic := by
    by_contra other
    exact magic ⟨by omega,other⟩
  have cut : data = riffMagic ++ (slice data 4 8 ++ (slice data 8 12 ++ data.drop 12)) := by
    rw [← isRiff,← slice_split (by omega),← slice_split (by omega),← slice_split (by omega)]
    rfl
  have sizeLength : (slice data 4 8).length = 4 := slice_length (by omega)
  rw [if_neg magic,if_neg short]
  by_cases form : slice data 8 12 ≠ waveMagic
  · rw [if_pos form]
    apply Parsed.bad
    rw [cut]
    exact .wave sizeLength (slice_length (by omega)) form
  rw [if_neg form]
  rw [not_not.mp form] at cut
  have walked := walk_walked data 12 none
  generalize walk data 12 none = result at walked
  cases walked with
  | waits => exact .waits
  | @found chunks dataSize rest rate passed dataLength after =>
    have whole : data = (riffMagic ++ (slice data 4 8 ++ (waveMagic ++
        (chunks ++ (dataId ++ dataSize))))) ++ rest := by
      rw [after] at cut
      simpa only [List.append_assoc] using cut
    have start : 12 + chunks.length + 8 = (riffMagic ++ (slice data 4 8 ++ (waveMagic ++
        (chunks ++ (dataId ++ dataSize))))).length := by
      simp only [List.length_append,sizeLength,dataLength,riffMagic_length,waveMagic_length,
        dataId_length]
      omega
    rw [start]
    exact .found (.intro sizeLength passed dataLength) whole
  | bad passed isBad after =>
    apply Parsed.bad
    rw [cut,after]
    exact .chunk sizeLength passed isBad

/-- The search reaches the chunks when the two magic words are there. -/
theorem findPcmStart_walk {size rest : List UInt8} (sizeLength : size.length = 4) :
    findPcmStart (riffMagic ++ (size ++ (waveMagic ++ rest))) =
      walk (riffMagic ++ (size ++ (waveMagic ++ rest))) 12 none ∧
    (riffMagic ++ (size ++ (waveMagic ++ rest))).drop 12 = rest := by
  have start : (riffMagic ++ (size ++ (waveMagic ++ rest))).drop 0 =
    riffMagic ++ (size ++ (waveMagic ++ rest)) := rfl
  obtain ⟨enough,isRiff,_,afterSize⟩ := read_header start rfl sizeLength
  obtain ⟨isWave,after⟩ := @slice_at _ _ waveMagic rest 8 12 afterSize rfl
  have long : ¬(riffMagic ++ (size ++ (waveMagic ++ rest))).length < 12 := by
    simp only [List.length_append,riffMagic_length,waveMagic_length]
    omega
  rw [Nat.zero_add] at isRiff
  refine ⟨?_,after⟩
  rw [findPcmStart,isRiff,isWave]
  simp only [ne_eq,not_true,and_false,if_false,if_neg long]

theorem findPcmStart_header {header pcm : List UInt8} {rate : Nat} (isHeader : Header header rate) :
    findPcmStart (header ++ pcm) = .ok (some (header.length,rate)) := by
  cases isHeader with
  | @intro size chunks dataSize _ sizeLength passed dataLength =>
    simp only [List.append_assoc]
    obtain ⟨reaches,after⟩ := @findPcmStart_walk size (chunks ++ (dataId ++ (dataSize ++ pcm)))
      sizeLength
    obtain ⟨walks,stop⟩ := walk_chunks passed after
    rw [reaches,walks,walk_data stop dataLength]
    simp only [List.length_append,sizeLength,dataLength,riffMagic_length,waveMagic_length,
      dataId_length,Except.ok.injEq,Option.some.injEq,Prod.mk.injEq,and_true]
    omega

theorem findPcmStart_offends {data : List UInt8} {message : String}
    (offends : Offends message data) : findPcmStart data = .error (.ttsError message) := by
  cases offends with
  | @riff magic rest length other =>
    have cut : (magic ++ rest).drop 0 = magic ++ rest := rfl
    have isMagic := (slice_at cut (by rw [length])).1
    rw [findPcmStart,if_pos]
    refine ⟨?_,?_⟩
    · rw [List.length_append]
      omega
    · rw [isMagic]
      exact other
  | @wave size form rest sizeLength formLength other =>
    have start : (riffMagic ++ (size ++ (form ++ rest))).drop 0 =
      riffMagic ++ (size ++ (form ++ rest)) := rfl
    obtain ⟨enough,isRiff,_,afterSize⟩ := read_header start rfl sizeLength
    have isForm := (@slice_at _ _ form rest 8 12 afterSize (by rw [formLength])).1
    have long : ¬(riffMagic ++ (size ++ (form ++ rest))).length < 12 := by
      simp only [List.length_append,riffMagic_length]
      omega
    rw [Nat.zero_add] at isRiff
    rw [findPcmStart,isRiff,isForm]
    simp only [ne_eq,not_true,and_false,if_false,if_neg long,other,not_false_iff,if_true]
  | @chunk _ size chunks rest last sizeLength passed isBad =>
    obtain ⟨reaches,after⟩ := @findPcmStart_walk size (chunks ++ rest) sizeLength
    obtain ⟨walks,stop⟩ := walk_chunks passed after
    rw [reaches,walks,walk_bad isBad stop]

/-! ## Bytes in pieces -/

theorem BadChunk.append {rate : Option Nat} {message : String} {bytes : List UInt8}
    (bad : BadChunk rate message bytes) (more : List UInt8) :
    BadChunk rate message (bytes ++ more) := by
  cases bad <;> simp only [List.append_assoc]
  case data length => exact .data length
  case size length small => exact .size length small
  case format sized long notPcm => exact .format sized long notPcm
  case bits sized long isPcm not16 => exact .bits sized long isPcm not16
  case mono sized long isPcm is16 notMono => exact .mono sized long isPcm is16 notMono

/-- What is wrong stays wrong. -/
theorem Offends.append {message : String} {data : List UInt8} (offends : Offends message data)
    (more : List UInt8) : Offends message (data ++ more) := by
  cases offends <;> simp only [List.append_assoc]
  case riff length other => exact .riff length other
  case wave sizeLength formLength other => exact .wave sizeLength formLength other
  case chunk sizeLength passed bad => exact .chunk sizeLength passed (bad.append more)

namespace WavHeaderParser

/-- The states that the parser gets into. -/
def Fine (p : WavHeaderParser) : Prop :=
  if p.headerComplete then p.rate.isSome = true else findPcmStart p.buffer = .ok none

theorem fine_init : Fine {} := by
  have waits : findPcmStart [] = .ok none := rfl
  simp [Fine,waits]

theorem feed_complete {p : WavHeaderParser} (complete : p.headerComplete = true)
    (chunk : List UInt8) : p.feed chunk = .ok (p,chunk) := by
  rw [feed,if_pos complete]

/-- What a `feed` does while the header is not complete. -/
theorem feed_cases {p : WavHeaderParser} (incomplete : p.headerComplete = false)
    (chunk : List UInt8) :
    (findPcmStart (p.buffer ++ chunk) = .ok none ∧
      p.feed chunk = .ok ({ p with buffer := p.buffer ++ chunk },[])) ∨
    (∃ header pcm rate, Header header rate ∧ p.buffer ++ chunk = header ++ pcm ∧
      p.feed chunk = .ok ({ buffer := [], headerComplete := true, rate := some rate },pcm)) ∨
    ∃ message, Offends message (p.buffer ++ chunk) ∧
      p.feed chunk = .error (.ttsError message) := by
  have parsed := findPcmStart_parsed (p.buffer ++ chunk)
  simp only [feed,incomplete,Bool.false_eq_true,if_false]
  generalize found : findPcmStart (p.buffer ++ chunk) = result at parsed
  cases parsed with
  | waits => exact .inl ⟨rfl,rfl⟩
  | @found header pcm rate isHeader split =>
    refine .inr (.inl ⟨header,pcm,rate,isHeader,split,?_⟩)
    simp only [split,List.drop_left]
  | bad offends => exact .inr (.inr ⟨_,offends,rfl⟩)

theorem feed_header {p : WavHeaderParser} {header pcm chunk : List UInt8} {rate : Nat}
    (incomplete : p.headerComplete = false) (isHeader : Header header rate)
    (split : p.buffer ++ chunk = header ++ pcm) : p.feed chunk =
      .ok ({ buffer := [], headerComplete := true, rate := some rate },pcm) := by
  simp only [feed,incomplete,Bool.false_eq_true,if_false,split,findPcmStart_header isHeader,
    List.drop_left]

theorem feed_offends {p : WavHeaderParser} {chunk : List UInt8} {message : String}
    (incomplete : p.headerComplete = false) (offends : Offends message (p.buffer ++ chunk)) :
    p.feed chunk = .error (.ttsError message) := by
  simp only [feed,incomplete,Bool.false_eq_true,if_false,findPcmStart_offends offends]

theorem feed_fine (p : WavHeaderParser) (chunk : List UInt8) (q : WavHeaderParser)
    (out : List UInt8) (fine : p.Fine) (fed : p.feed chunk = .ok (q,out)) : q.Fine := by
  by_cases complete : p.headerComplete = true
  · rw [feed_complete complete] at fed
    cases fed
    exact fine
  · have incomplete := Bool.eq_false_iff.mpr complete
    rcases feed_cases incomplete chunk with ⟨waits,out⟩ | ⟨header,pcm,rate,_,_,out⟩ | ⟨_,_,out⟩
    · rw [out] at fed
      cases fed
      simpa [Fine,incomplete] using waits
    · rw [out] at fed
      cases fed
      simp [Fine]
    · rw [out] at fed
      cases fed

theorem feed_nil (p : WavHeaderParser) (fine : p.Fine) : p.feed [] = .ok (p,[]) := by
  by_cases complete : p.headerComplete = true
  · exact feed_complete complete []
  · have incomplete := Bool.eq_false_iff.mpr complete
    simp only [Fine,incomplete,Bool.false_eq_true,if_false] at fine
    simp only [feed,incomplete,Bool.false_eq_true,if_false,List.append_nil,fine]
    rw [← incomplete]

theorem feed_append (p : WavHeaderParser) (first second : List UInt8) (_ : p.Fine) :
    p.feed (first ++ second) = attempt feed p [first,second] := by
  by_cases complete : p.headerComplete = true
  · simp [attempt,feed_complete complete]
  · have incomplete := Bool.eq_false_iff.mpr complete
    rcases feed_cases incomplete first with
      ⟨_,out⟩ | ⟨header,pcm,rate,isHeader,split,out⟩ | ⟨message,offends,out⟩
    · have later : p.feed (first ++ second) =
          feed { p with buffer := p.buffer ++ first } second := by
        simp [feed,incomplete]
      simp only [attempt,out,later]
      cases feed { p with buffer := p.buffer ++ first } second <;> simp
    · have whole : p.buffer ++ (first ++ second) = header ++ (pcm ++ second) := by
        rw [← List.append_assoc,split,List.append_assoc]
      rw [feed_header incomplete isHeader whole]
      simp [attempt,out,feed_complete]
    · have whole : Offends message (p.buffer ++ (first ++ second)) := by
        rw [← List.append_assoc]
        exact offends.append second
      rw [feed_offends incomplete whole]
      simp [attempt,out]

theorem feed_pieces (pieces : List (List UInt8)) :
    attempt feed {} pieces = feed {} pieces.flatten :=
  attempt_flatten feed_fine feed_nil feed_append fine_init pieces

/-! ## All bytes at once -/

theorem feed_error_iff {bytes : List UInt8} {message : String} :
    feed {} bytes = .error (.ttsError message) ↔ Offends message bytes := by
  constructor
  · intro refused
    rcases feed_cases (p := {}) rfl bytes with ⟨_,out⟩ | ⟨_,_,_,_,_,out⟩ | ⟨other,offends,out⟩
    · rw [out] at refused
      cases refused
    · rw [out] at refused
      cases refused
    · rw [out] at refused
      cases refused
      exact offends
  · intro offends
    exact feed_offends rfl offends

theorem feed_stays_inside (bytes : List UInt8) : feed {} bytes ≠ .error .structError := by
  intro refused
  rcases feed_cases (p := {}) rfl bytes with ⟨_,out⟩ | ⟨_,_,_,_,_,out⟩ | ⟨_,_,out⟩
  all_goals
    rw [out] at refused
    cases refused

theorem feed_passes_iff {bytes pcm : List UInt8} {rate : Nat} :
    (∃ p, feed {} bytes = .ok (p,pcm) ∧ p.finish = .ok () ∧ p.sampleRate = .ok rate) ↔
      ∃ header, Header header rate ∧ bytes = header ++ pcm := by
  constructor
  · rintro ⟨p,passed,finished,rates⟩
    rcases feed_cases (p := {}) rfl bytes with
      ⟨_,out⟩ | ⟨header,rest,found,isHeader,split,out⟩ | ⟨_,_,out⟩
    · rw [out] at passed
      cases passed
      cases finished
    · rw [out] at passed
      cases passed
      cases rates
      exact ⟨header,isHeader,split⟩
    · rw [out] at passed
      cases passed
  · rintro ⟨header,isHeader,split⟩
    exact ⟨_,feed_header rfl isHeader split,rfl,rfl⟩

theorem feed_unfinished {bytes out : List UInt8} {p : WavHeaderParser}
    (passed : feed {} bytes = .ok (p,out)) (unfinished : p.finish ≠ .ok ()) :
    out = [] ∧ ∃ message, p.finish = .error (.ttsError message) := by
  rcases feed_cases (p := {}) rfl bytes with ⟨_,fed⟩ | ⟨_,_,_,_,_,fed⟩ | ⟨_,_,fed⟩
  · rw [fed] at passed
    cases passed
    exact ⟨rfl,_,rfl⟩
  · rw [fed] at passed
    cases passed
    exact absurd rfl unfinished
  · rw [fed] at passed
    cases passed

/-- Bytes that come in pieces are treated like the same bytes in one piece: they are refused as
soon as they offend, they pass exactly if a header comes first, and otherwise `finish` refuses
them. No unpacking goes past the end. -/
theorem feed_pieces_spec (pieces : List (List UInt8)) :
    attempt feed {} pieces = feed {} pieces.flatten ∧
    (∀ message, attempt feed {} pieces = .error (.ttsError message) ↔
      Offends message pieces.flatten) ∧
    (∀ fed rest message, pieces = fed ++ rest → Offends message fed.flatten →
      attempt feed {} fed = .error (.ttsError message)) ∧
    attempt feed {} pieces ≠ .error .structError ∧
    (∀ rate pcm, (∃ p, attempt feed {} pieces = .ok (p,pcm) ∧ p.finish = .ok () ∧
      p.sampleRate = .ok rate) ↔ ∃ header, Header header rate ∧ pieces.flatten = header ++ pcm) ∧
    (∀ p out, attempt feed {} pieces = .ok (p,out) → p.finish ≠ .ok () →
      out = [] ∧ ∃ message, p.finish = .error (.ttsError message)) := by
  rw [feed_pieces pieces]
  refine ⟨rfl,fun _ => feed_error_iff,?_,feed_stays_inside _,fun _ _ => feed_passes_iff,?_⟩
  · intro fed rest message _ offends
    rw [feed_pieces fed]
    exact feed_error_iff.mpr offends
  · intro p out passed unfinished
    exact feed_unfinished passed unfinished

end WavHeaderParser

end GhostRunner.Tts
