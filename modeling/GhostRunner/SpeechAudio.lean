import GhostRunner.TurnSpeech

/-! The audio of a turn is its synthesised speech: what the worker has yet to send, after what
it has sent, stays all that the chunker's sentences amount to. -/
namespace GhostRunner.Voice

open BinFrame Machine Bytes

/-! ## What a client hears -/

/-- A text envelope, or what `decode_frame` makes of a binary frame. -/
abbrev Heard := Envelope ⊕ Except String Fields

def Sent.heard : Sent → Heard
  | .text env => .inl env
  | .binary frame => .inr (decodeFrame frame)

/-- The audio stream that a broadcast belongs to. -/
def Sent.stream : Sent → Option Nat
  | .text env =>
    match env.payload with
    | .audioMeta stream _ _ => some stream
    | _ => none
  | .binary frame =>
    match decodeFrame frame with
    | .ok fields => some fields.streamId
    | .error _ => none

def audio (k : Nat) (log : List Sent) : List Sent := log.filter fun sent => sent.stream = some k

/-- The frames of a stream, numbered from 0. -/
def frames (k : Nat) (payloads : List Pcm) : List Heard :=
  payloads.mapIdx fun seq payload => .inr (.ok ⟨kindTtsPcm,k,seq,payload⟩)

/-- An audio stream in full: its frames in their brackets, or nothing. -/
def TurnSpeech.script (s : TurnSpeech) (payloads : List Pcm) : List Heard :=
  if payloads = [] then []
  else .inl (s.audioMeta false) :: (frames s.streamId payloads ++ [.inl (s.audioMeta true)])

/-- The chunks that a TTS client yields for sentences, from a call on. -/
def SynthClient.synthesised (tts : SynthClient) : Nat → List PyStr → List Pcm
  | _, [] => []
  | call, sentence :: rest => tts.synthStream call sentence ++ tts.synthesised (call + 1) rest

/-- The speech for all that has been fed, if nothing more is. -/
def TurnSpeech.speech (s : TurnSpeech) : List Pcm := s.tts.synthesised 0 (sentences s.fed)

/-! ## Slices -/

def cut (chunks : List Pcm) : List Pcm := chunks.flatMap (slices pcmFrameBytes)

@[simp] theorem cut_nil : cut [] = [] := rfl

@[simp] theorem cut_cons (pcm : Pcm) (chunks : List Pcm) :
    cut (pcm :: chunks) = slices pcmFrameBytes pcm ++ cut chunks := rfl

@[simp] theorem cut_append (first rest : List Pcm) : cut (first ++ rest) = cut first ++ cut rest :=
  List.flatMap_append

theorem cut_flatten (chunks : List Pcm) : (cut chunks).flatten = chunks.flatten := by
  induction chunks with
  | nil => rfl
  | cons pcm chunks ih =>
    rw [cut_cons,List.flatten_append,ih,slices_flatten (by decide),List.flatten_cons]

theorem cut_sound {chunks : List Pcm} (even : ∀ pcm ∈ chunks, Even pcm.length) :
    ∀ payload ∈ cut chunks,
      payload ≠ [] ∧ Even payload.length ∧ payload.length ≤ pcmFrameBytes := by
  intro payload member
  obtain ⟨pcm,chunk,slice⟩ := List.mem_flatMap.mp member
  apply @slices_forall _ pcmFrameBytes pcm (by decide) (fun payload => payload ≠ [] ∧
    Even payload.length ∧ payload.length ≤ pcmFrameBytes) ?_ payload slice
  · intro i inside
    have whole : Even (pcm.length - i * pcmFrameBytes) :=
      (even pcm chunk).tsub ((by decide : Even pcmFrameBytes).mul_left i)
    refine ⟨?_,?_,List.length_take_le ..⟩
    · apply List.ne_nil_of_length_pos
      rw [List.length_take,List.length_drop]
      have : 0 < pcmFrameBytes := by decide
      omega
    · rw [List.length_take,List.length_drop]
      rcases min_choice pcmFrameBytes (pcm.length - i * pcmFrameBytes) with eq | eq <;> rw [eq]
      · decide
      · exact whole

theorem SynthClient.synthesised_append (tts : SynthClient) (call : Nat) (first rest : List PyStr) :
    tts.synthesised call (first ++ rest) =
      tts.synthesised call first ++ tts.synthesised (call + first.length) rest := by
  induction first generalizing call with
  | nil => rfl
  | cons sentence first ih =>
    have next : call + 1 + first.length = call + (first.length + 1) := by omega
    simp only [List.cons_append,synthesised,ih,List.append_assoc,List.length_cons,next]

theorem SynthClient.synthesised_mem {tts : SynthClient} {call : Nat} {sentences : List PyStr}
    {pcm : Pcm} (member : pcm ∈ tts.synthesised call sentences) :
    ∃ call sentence, pcm ∈ tts.synthStream call sentence := by
  induction sentences generalizing call with
  | nil => cases member
  | cons sentence rest ih =>
    rcases List.mem_append.mp member with now | later
    · exact ⟨call,sentence,now⟩
    · exact ih later

@[simp] theorem frames_concat (k : Nat) (payloads : List Pcm) (payload : Pcm) :
    frames k (payloads ++ [payload]) =
      frames k payloads ++ [.inr (.ok ⟨kindTtsPcm,k,payloads.length,payload⟩)] := by
  simp [frames]

theorem frames_begin (k : Nat) {first all : List Pcm} (within : first <+: all) :
    frames k first <+: frames k all := by
  obtain ⟨rest,rfl⟩ := within
  simp [frames,List.mapIdx_append]

/-! ## One speech -/

def Worker.chunks : Worker → List Pcm
  | .synthesising chunks | .sending _ _ chunks => chunks
  | .opening pcm chunks => pcm :: chunks
  | _ => []

/-- The payloads that the worker will still send of the sentence it has taken. -/
def Worker.left : Worker → List Pcm
  | .synthesising chunks => cut chunks
  | .opening pcm chunks => cut (pcm :: chunks)
  | .sending pcm off chunks => slices pcmFrameBytes (pcm.drop (off + pcmFrameBytes)) ++ cut chunks
  | _ => []

def Worker.isOpening : Worker → Bool
  | .opening .. => true
  | _ => false

def Worker.isSending : Worker → Bool
  | .sending .. => true
  | _ => false

namespace TurnSpeech

/-- The sentences that have been queued. -/
def queued (s : TurnSpeech) : List PyStr :=
  if s.finishing = .idle then (transduce SentenceChunker.feed {} s.fed).2 else sentences s.fed

/-- The payloads of all that has been queued. -/
def ready (s : TurnSpeech) : List Pcm := cut (s.tts.synthesised 0 s.queued)

/-- What the worker has sent, what it will send of the sentence it has taken, and what is in
its queue is all that has been queued. -/
structure Owes (s : TurnSpeech) (sent left : List Pcm) (later : List PyStr) : Prop where
  queue : s.queue = later.map some ++ if s.finishing = .idle then [] else [none]
  calls : s.calls + later.length = s.queued.length
  payloads : sent ++ (left ++ cut (s.tts.synthesised s.calls later)) = s.ready

/-- The stream has been opened, and these payloads sent. -/
def shown (s : TurnSpeech) (sent : List Pcm) : List Heard :=
  .inl (s.audioMeta false) :: frames s.streamId sent

/-- The worker has yet to come to the end of its queue. -/
structure Live (s : TurnSpeech) (heard : List Heard) (sent : List Pcm) (later : List PyStr) :
    Prop where
  owes : s.Owes sent s.worker.left later
  chunks : ∀ pcm ∈ s.worker.chunks, pcm ≠ []
  opened : s.opened = true ↔ sent ≠ []
  seq : sent.length = if s.worker.isSending then s.seq + 1 else s.seq
  heard : heard = if s.opened || s.worker.isOpening then s.shown sent else []

/-- Some of what has been queued has been sent, or nothing. -/
def Begun (s : TurnSpeech) (heard : List Heard) : Prop :=
  heard = [] ∨ ∃ sent, sent <+: s.ready ∧ s.ready ≠ [] ∧ heard = s.shown sent

/-- Everything has been sent. -/
def Whole (s : TurnSpeech) (heard : List Heard) : Prop :=
  s.finishing ≠ .idle ∧ heard = s.script s.ready

/-- No frame can be made of some payload, for its number or that of the stream. -/
def Overflows (s : TurnSpeech) : Prop := u64Max < s.streamId ∨ u32Max < s.ready.length

/-- What has been heard of a speech, wherever its worker stands. -/
def Voiced (s : TurnSpeech) (heard : List Heard) : Prop :=
  match s.worker with
  | .closing | .ended .returned => s.Whole heard
  | .ended (.raised (.encode _)) => s.Begun heard ∧ s.Overflows
  | .ended _ => s.Begun heard ∨ s.Whole heard
  | _ => ∃ sent later, s.Live heard sent later

/-- The chunker has consumed what has been fed. -/
def Fed (s : TurnSpeech) : Prop :=
  s.finishing = .idle → s.chunker = (transduce SentenceChunker.feed {} s.fed).1

theorem Live.begun {s : TurnSpeech} {heard : List Heard} {sent : List Pcm} {later : List PyStr}
    (live : s.Live heard sent later) : s.Begun heard := by
  have within : sent <+: s.ready := ⟨_,live.owes.payloads⟩
  by_cases shows : (s.opened || s.worker.isOpening) = true
  · refine .inr ⟨sent,within,?_,by rw [live.heard,if_pos shows]⟩
    intro none
    have payloads := live.owes.payloads
    rw [none,List.append_eq_nil_iff,List.append_eq_nil_iff] at payloads
    rcases Bool.or_eq_true_iff.mp shows with opened | opening
    · exact live.opened.mp opened payloads.1
    · cases worker : s.worker <;> simp only [worker,Worker.isOpening] at opening
      case opening pcm chunks =>
        have proper := live.chunks pcm (by simp [worker,Worker.chunks])
        have left := payloads.2.1
        rw [worker,Worker.left,cut_cons,slices_step proper (by decide)] at left
        cases left
      all_goals cases opening
  · exact .inl (by rw [live.heard,if_neg shows])

theorem Voiced.begun {s : TurnSpeech} {heard : List Heard} (voiced : s.Voiced heard) :
    s.Begun heard ∨ s.Whole heard := by
  simp only [Voiced] at voiced
  split at voiced
  · exact .inr voiced
  · exact .inr voiced
  · exact .inl voiced.1
  · exact voiced
  · obtain ⟨sent,later,live⟩ := voiced
    exact .inl live.begun

/-- A worker may be cancelled or fail at any await. -/
theorem Voiced.ends {s : TurnSpeech} {heard : List Heard} (voiced : s.Voiced heard) :
    ({ s with worker := .ended .cancelled } : TurnSpeech).Voiced heard ∧
      ∀ text, ({ s with worker := .ended (.raised (.foreign text)) } : TurnSpeech).Voiced heard :=
  ⟨voiced.begun,fun _ => voiced.begun⟩

/-! ## The slices of a chunk -/

theorem encode_overflow {k seq : Nat} {pcm : Pcm} {error : EncodeError} (proper : pcm ≠ [])
    (failed : encodeFrame kindTtsPcm k seq (pcm.take pcmFrameBytes) = .error error) :
    u64Max < k ∨ u32Max < seq := by
  by_contra fits
  rw [not_or,not_lt,not_lt] at fits
  have short : (pcm.take pcmFrameBytes).length ≤ u32Max :=
    (List.length_take_le ..).trans (by decide)
  have encodable : Encodable ⟨kindTtsPcm,k,seq,pcm.take pcmFrameBytes⟩ :=
    ⟨(by decide : kindTtsPcm ∈ knownKinds),fits.1,fits.2,by simp [proper,pcmFrameBytes],short⟩
  have encoded := encodeFrame_ok_iff.mpr ⟨encodable,rfl⟩
  rw [failed] at encoded
  cases encoded

/-- The worker is about to send a chunk from an offset on. -/
theorem sendSlice_voiced {s : TurnSpeech} {heard : List Heard} {sent : List Pcm}
    {later : List PyStr} {pcm : Pcm} {off : Nat} {chunks : List Pcm}
    (owes : s.Owes sent (slices pcmFrameBytes (pcm.drop off) ++ cut chunks) later)
    (proper : ∀ pcm ∈ chunks, pcm ≠ []) (opened : s.opened = true)
    (some : pcm.length ≤ off → sent ≠ []) (seq : sent.length = s.seq)
    (heard_eq : heard = s.shown sent) :
    (s.sendSlice pcm off chunks).1.Voiced
      (heard ++ (s.sendSlice pcm off chunks).2.map Sent.heard) := by
  by_cases inside : off < pcm.length
  · have rest : pcm.drop off ≠ [] := by
      apply List.ne_nil_of_length_pos
      rw [List.length_drop]
      omega
    have step := slices_step rest (by decide : 0 < pcmFrameBytes)
    cases encoded : encodeFrame kindTtsPcm s.streamId s.seq ((pcm.drop off).take pcmFrameBytes) with
    | ok frame =>
      have read := decode_encode encoded
      simp only [sendSlice,inside,encoded,if_true]
      refine ⟨sent ++ [(pcm.drop off).take pcmFrameBytes],later,?_,proper,?_,?_,?_⟩
      · refine ⟨owes.queue,owes.calls,Eq.trans ?_ owes.payloads⟩
        simp [step,Worker.left,List.drop_drop]
      · simp [opened]
      · simp [Worker.isSending,seq]
      · simp [opened,heard_eq,shown,Sent.heard,read,← seq]
        rfl
    | error error =>
      have proper : s.ready ≠ [] := by
        rw [← owes.payloads,step]
        simp
      have numbered : s.seq < s.ready.length := by
        rw [← owes.payloads,step,← seq]
        simp
      simp only [sendSlice,inside,encoded,if_true,List.map_nil,List.append_nil]
      exact ⟨.inr ⟨sent,⟨_,owes.payloads⟩,proper,heard_eq⟩,
        (encode_overflow rest encoded).imp id fun large => large.trans numbered⟩
  · have none : pcm.drop off = [] := List.drop_eq_nil_of_le (not_lt.mp inside)
    simp only [sendSlice,inside,if_false,List.map_nil,List.append_nil]
    refine ⟨sent,later,?_,proper,?_,?_,?_⟩
    · refine ⟨owes.queue,owes.calls,Eq.trans ?_ owes.payloads⟩
      simp [none,Worker.left]
    · simp [opened,some (not_lt.mp inside)]
    · simp [Worker.isSending,seq]
    · simp [opened,heard_eq]
      rfl

/-! ## One step of the worker -/

theorem nextChunk_voiced {s : TurnSpeech} {heard : List Heard} {sent : List Pcm}
    {later : List PyStr} {chunks : List Pcm} (owes : s.Owes sent (cut chunks) later)
    (proper : ∀ pcm ∈ chunks, pcm ≠ []) (opened : s.opened = true ↔ sent ≠ [])
    (seq : sent.length = s.seq) (heard_eq : heard = if s.opened then s.shown sent else []) :
    (s.nextChunk chunks).1.Voiced (heard ++ (s.nextChunk chunks).2.map Sent.heard) := by
  cases chunks with
  | nil =>
    simp only [nextChunk,List.map_nil,List.append_nil]
    refine ⟨sent,later,⟨owes.queue,owes.calls,owes.payloads⟩,?_,opened,?_,?_⟩
    · simp [Worker.chunks]
    · simp [Worker.isSending,seq]
    · simp [heard_eq,Worker.isOpening]
      rfl
  | cons pcm chunks =>
    by_cases open' : s.opened = true
    · rw [nextChunk,if_pos open']
      refine sendSlice_voiced owes (fun other member => proper other (.tail _ member)) open'
        (fun _ => opened.mp open') seq ?_
      rw [heard_eq,if_pos open']
    · have none : sent = [] := by
        by_contra some
        exact open' (opened.mpr some)
      rw [nextChunk,if_neg open']
      refine ⟨sent,later,⟨owes.queue,owes.calls,owes.payloads⟩,proper,opened,?_,?_⟩
      · simp [sendMeta,Worker.isSending,seq]
      · simp [heard_eq,open',Worker.isOpening,sendMeta,Sent.heard,shown,none,frames]
        rfl

theorem takeSentence_voiced {s : TurnSpeech} {heard : List Heard} {sent : List Pcm}
    {later : List PyStr} (waits : s.worker = .waiting) (live : s.Live heard sent later)
    (admitted : s.queue ≠ []) :
    (s.takeSentence).1.Voiced (heard ++ (s.takeSentence).2.map Sent.heard) := by
  obtain ⟨⟨queue,calls,payloads⟩,_,opened,seq,heard_eq⟩ := live
  simp only [waits,Worker.left,Worker.isSending,Worker.isOpening,Bool.or_false,List.nil_append,
    Bool.false_eq_true,if_false] at payloads seq heard_eq
  cases later with
  | nil =>
    have finished : s.finishing ≠ .idle := by
      intro idle
      rw [queue,if_pos idle] at admitted
      exact admitted rfl
    have last : s.queue = [none] := by rw [queue,if_neg finished]; rfl
    have all : sent = s.ready := by simpa [SynthClient.synthesised] using payloads
    by_cases open' : s.opened = true
    · have proper : s.ready ≠ [] := all ▸ opened.mp open'
      have whole : heard ++ [.inl (s.audioMeta true)] = s.script s.ready := by
        rw [heard_eq,if_pos open',script,if_neg proper,all]
        rfl
      simp only [takeSentence,last,open',if_true,sendMeta]
      exact ⟨finished,whole⟩
    · have none : s.ready = [] := by
        by_contra proper
        exact open' (opened.mpr (all ▸ proper))
      have whole : heard = s.script s.ready := by
        rw [heard_eq,if_neg open',script,if_pos none]
      simp only [takeSentence,last,open',Bool.false_eq_true,if_false,List.map_nil,List.append_nil]
      exact ⟨finished,whole⟩
  | cons sentence later =>
    have taken : s.queue = some sentence ::
        (later.map some ++ if s.finishing = .idle then [] else [none]) := queue
    simp only [takeSentence,taken,List.map_nil,List.append_nil]
    refine ⟨sent,later,⟨rfl,Eq.trans ?_ calls,Eq.trans ?_ payloads⟩,?_,opened,?_,?_⟩
    · simp only [List.length_cons]
      omega
    · simp [Worker.left,SynthClient.synthesised]
    · exact fun pcm member => s.tts.nonempty s.calls sentence pcm member
    · simp [Worker.isSending,seq]
    · simp [Worker.isOpening,heard_eq]
      rfl

theorem goesOn_voiced {s : TurnSpeech} {heard : List Heard} (voiced : s.Voiced heard)
    (admitted : s.worker = .waiting → s.queue ≠ []) :
    (s.goesOn).1.Voiced (heard ++ (s.goesOn).2.map Sent.heard) := by
  have stands := voiced
  simp only [Voiced] at voiced
  cases worker : s.worker <;> simp only [worker] at voiced <;> simp only [goesOn,worker]
  case created =>
    obtain ⟨sent,later,⟨owes,_,opened,seq,heard_eq⟩⟩ := voiced
    rw [worker] at owes seq heard_eq
    rw [List.map_nil,List.append_nil]
    exact ⟨sent,later,⟨owes.queue,owes.calls,owes.payloads⟩,by simp [Worker.chunks],opened,seq,
      heard_eq⟩
  case waiting =>
    obtain ⟨sent,later,live⟩ := voiced
    exact takeSentence_voiced worker live (admitted worker)
  case synthesising chunks =>
    obtain ⟨sent,later,⟨owes,proper,opened,seq,heard_eq⟩⟩ := voiced
    rw [worker] at owes proper seq heard_eq
    exact nextChunk_voiced owes proper opened seq (by simpa [Worker.isOpening] using heard_eq)
  case opening pcm chunks =>
    obtain ⟨sent,later,⟨owes,proper,_,seq,heard_eq⟩⟩ := voiced
    rw [worker] at owes proper seq heard_eq
    obtain ⟨chunk,rest⟩ := List.forall_mem_cons.mp proper
    refine @sendSlice_voiced _ _ sent later _ _ _ ⟨owes.queue,owes.calls,owes.payloads⟩
      rest rfl (fun empty => ?_) seq ?_
    · exact (chunk (List.length_eq_zero_iff.mp (Nat.le_zero.mp empty))).elim
    · rw [heard_eq,Worker.isOpening,Bool.or_true]
      rfl
  case sending pcm off chunks =>
    obtain ⟨sent,later,⟨owes,proper,opened,seq,heard_eq⟩⟩ := voiced
    rw [worker] at owes proper seq heard_eq
    have some : sent ≠ [] := by
      rintro rfl
      simp [Worker.isSending] at seq
    have open' := opened.mpr some
    refine @sendSlice_voiced _ _ sent later _ _ _ ⟨owes.queue,owes.calls,owes.payloads⟩
      proper open' (fun _ => some) seq ?_
    rw [heard_eq,open']
    rfl
  case closing =>
    rw [List.map_nil,List.append_nil]
    exact voiced
  case ended ending =>
    rw [List.map_nil,List.append_nil]
    exact stands

/-! ## The other labels -/

/-- More sentences have been queued, and the worker has not moved. -/
theorem Voiced.queues {s u : TurnSpeech} {heard : List Heard} {more : List PyStr}
    {chunker : SentenceChunker} {finishing : Call} {fed : List PyStr} (voiced : s.Voiced heard)
    (idle : s.finishing = .idle)
    (same : u = { s with
      chunker := chunker
      queue := s.queue ++ more.map some ++ if finishing = .idle then [] else [none]
      finishing := finishing
      fed := fed })
    (queued : u.queued = s.queued ++ more) : u.Voiced heard := by
  have ready_eq : u.ready = s.ready ++ cut (s.tts.synthesised s.queued.length more) := by
    rw [ready,ready,queued,same,SynthClient.synthesised_append,cut_append,Nat.zero_add]
  have shown_eq : u.shown = s.shown := by rw [same]; rfl
  have worker : u.worker = s.worker := by rw [same]
  have begun : s.Begun heard → u.Begun heard := by
    rintro (silent | ⟨sent,within,proper,heard_eq⟩)
    · exact .inl silent
    · refine .inr ⟨sent,?_,?_,by rw [shown_eq]; exact heard_eq⟩
      · rw [ready_eq]
        exact within.trans (List.prefix_append ..)
      · rw [ready_eq]
        exact List.append_ne_nil_of_left_ne_nil proper _
  simp only [Voiced,worker] at voiced ⊢
  split at voiced
  · exact (voiced.1 idle).elim
  · exact (voiced.1 idle).elim
  · refine ⟨begun voiced.1,voiced.2.imp (by rw [same]; exact id) fun many => ?_⟩
    rw [ready_eq,List.length_append]
    omega
  · rcases voiced with started | ⟨finished,_⟩
    · exact .inl (begun started)
    · exact (finished idle).elim
  · obtain ⟨sent,later,⟨⟨queue,calls,payloads⟩,chunks,opened,seq,heard_eq⟩⟩ := voiced
    have moved : u.tts = s.tts ∧ u.calls = s.calls ∧ u.seq = s.seq ∧ u.opened = s.opened := by
      rw [same]
      exact ⟨rfl,rfl,rfl,rfl⟩
    obtain ⟨tts,calls_eq,seq_eq,opened_eq⟩ := moved
    refine ⟨sent,later ++ more,⟨⟨?_,?_,?_⟩,?_,?_,?_,?_⟩⟩
    · rw [same,queue,if_pos idle]
      simp
    · rw [calls_eq,queued,List.length_append,List.length_append]
      omega
    · rw [ready_eq,worker,tts,calls_eq,SynthClient.synthesised_append,cut_append,calls,← payloads]
      simp only [List.append_assoc]
    · rwa [worker]
    · rwa [opened_eq]
    · rwa [worker,seq_eq]
    · rwa [opened_eq,worker,shown_eq]

/-- What has been heard is in keeping with the caller's fields, which no other label reads. -/
theorem Voiced.caller {s u : TurnSpeech} {heard : List Heard} {asked : Bool}
    {finishing cancelling : Call} (voiced : s.Voiced heard)
    (same : u = { s with asked := asked, finishing := finishing, cancelling := cancelling })
    (idle : finishing = .idle ↔ s.finishing = .idle) : u.Voiced heard := by
  have queued : u.queued = s.queued := by
    simp only [TurnSpeech.queued,same,idle]
  have ready_eq : u.ready = s.ready := by
    rw [ready,ready,queued,same]
  have worker : u.worker = s.worker := by rw [same]
  have begun : s.Begun heard → u.Begun heard := by
    rintro (silent | ⟨sent,within,proper,heard_eq⟩)
    · exact .inl silent
    · exact .inr ⟨sent,ready_eq ▸ within,ready_eq ▸ proper,by rw [heard_eq,same]; rfl⟩
  have whole : s.Whole heard → u.Whole heard := by
    rintro ⟨finished,heard_eq⟩
    refine ⟨?_,by rw [heard_eq,ready_eq,same]; rfl⟩
    rw [same]
    exact mt idle.mp finished
  simp only [Voiced,worker] at voiced ⊢
  split at voiced
  · exact whole voiced
  · exact whole voiced
  · exact ⟨begun voiced.1,voiced.2.imp (by rw [same]; exact id) (by rw [ready_eq]; exact id)⟩
  · exact voiced.imp begun whole
  · obtain ⟨sent,later,⟨⟨queue,calls,payloads⟩,chunks,opened,seq,heard_eq⟩⟩ := voiced
    refine ⟨sent,later,⟨⟨?_,?_,?_⟩,?_,?_,?_,?_⟩⟩
    · simpa only [same,idle] using queue
    · rw [queued,← calls,same]
    · rw [ready_eq,← payloads,same]
    · rwa [worker]
    · rw [same]; exact opened
    · rw [same]; exact seq
    · rw [same]; exact heard_eq

theorem feed_voiced {s : TurnSpeech} {heard : List Heard} (voiced : s.Voiced heard) (fed : s.Fed)
    (idle : s.finishing = .idle) (delta : PyStr) :
    (s.feed delta).Voiced heard ∧ (s.feed delta).Fed := by
  have chunks := @transduce_append _ _ _ SentenceChunker.feed {} s.fed [delta]
  have same : s.feed delta = { s with
      chunker := (s.chunker.feed delta).1
      queue := s.queue ++ (s.chunker.feed delta).2.map some ++
        if s.finishing = .idle then [] else [none]
      finishing := s.finishing
      fed := s.fed ++ [delta] } := by simp [feed,idle]
  constructor
  · apply voiced.queues idle same
    simp [queued,feed,idle,chunks,fed idle,transduce]
  · intro _
    simp [feed,chunks,fed idle,transduce]

theorem finish_voiced {s : TurnSpeech} {heard : List Heard} (voiced : s.Voiced heard) (fed : s.Fed)
    (idle : s.finishing = .idle) : s.finish.Voiced heard ∧ s.finish.Fed := by
  have same : s.finish = { s with
      chunker := s.chunker.flush.1
      queue := s.queue ++ s.chunker.flush.2.map some ++
        if Call.waiting = .idle then [] else [none]
      finishing := .waiting
      fed := s.fed } := rfl
  constructor
  · apply voiced.queues idle same
    simp [queued,finish,idle,fed idle,sentences]
  · intro other
    cases other

/-! ## Any label -/

/-- A call that has returned has seen the end of the worker. -/
structure Called (s : TurnSpeech) : Prop where
  finished : s.finishing = .returned → s.worker = .ended .returned
  cancelled : s.cancelling = .returned → ∃ ending, s.worker = .ended ending

structure Sound (s : TurnSpeech) (heard : List Heard) : Prop where
  voiced : s.Voiced heard
  fed : s.Fed
  called : s.Called

/-- A step leaves the speech in its stream. -/
structure Stays (s : TurnSpeech) (r : TurnSpeech × List Sent) : Prop where
  streamId : r.1.streamId = s.streamId
  fed : r.1.fed = s.fed
  chunker : r.1.chunker = s.chunker
  finishing : r.1.finishing = s.finishing
  cancelling : r.1.cancelling = s.cancelling
  sent : ∀ sent ∈ r.2, sent.stream = some s.streamId

theorem Stays.silent {s u : TurnSpeech} {worker : Worker} {queue : List (Option PyStr)}
    {calls : Nat} (same : u = { s with worker := worker, queue := queue, calls := calls }) :
    s.Stays (u,[]) := by
  subst same
  exact ⟨rfl,rfl,rfl,rfl,rfl,by simp⟩

/-- What is set before a step does not take it out of its stream. -/
theorem Stays.set {s : TurnSpeech} {r : TurnSpeech × List Sent} {opened asked : Bool} {seq : Nat}
    (stays : Stays { s with opened := opened, asked := asked, seq := seq } r) : s.Stays r :=
  ⟨stays.streamId,stays.fed,stays.chunker,stays.finishing,stays.cancelling,stays.sent⟩

theorem sendMeta_stays (s : TurnSpeech) (last : Bool) (worker : Worker) :
    s.Stays (s.sendMeta last worker) :=
  ⟨rfl,rfl,rfl,rfl,rfl,by simp [sendMeta,Sent.stream,audioMeta]⟩

theorem sendSlice_stays (s : TurnSpeech) (pcm : Pcm) (off : Nat) (chunks : List Pcm) :
    s.Stays (s.sendSlice pcm off chunks) := by
  simp only [sendSlice]
  split
  · split
    · next frame encoded =>
      exact ⟨rfl,rfl,rfl,rfl,rfl,by simp [Sent.stream,decode_encode encoded]⟩
    · exact .silent rfl
  · exact .silent rfl

theorem goesOn_stays (s : TurnSpeech) : s.Stays s.goesOn := by
  simp only [goesOn]
  split
  · exact .silent rfl
  · simp only [takeSentence]
    split
    · exact .silent rfl
    · split
      · exact ⟨rfl,rfl,rfl,rfl,rfl,(sendMeta_stays ..).sent⟩
      · exact .silent rfl
    · exact .silent rfl
  · simp only [nextChunk]
    split
    · exact .silent rfl
    · split
      · exact sendSlice_stays ..
      · exact sendMeta_stays ..
  · exact .set (sendSlice_stays { s with opened := true } ..)
  · exact .set (sendSlice_stays { s with seq := s.seq + 1 } ..)
  · exact .silent rfl
  · exact .silent rfl

theorem resume_stays (s : TurnSpeech) (wake : Wake) : s.Stays (s.resume wake) := by
  cases wake with
  | returns => exact .set (goesOn_stays { s with asked := false })
  | cancelled => exact .silent rfl
  | raises text => exact .silent rfl

theorem resume_sound {s : TurnSpeech} {heard : List Heard} (sound : s.Sound heard) {wake : Wake}
    (admitted : s.admits wake = true) :
    (s.resume wake).1.Sound (heard ++ (s.resume wake).2.map Sent.heard) := by
  have running : ∀ ending, s.worker ≠ .ended ending := by
    intro ending ended
    cases wake <;> simp [admits,ended] at admitted
  have stays := resume_stays s wake
  refine ⟨?_,?_,⟨?_,?_⟩⟩
  · cases wake with
    | returns =>
      have unasked : ({ s with asked := false } : TurnSpeech).Voiced heard :=
        sound.voiced.caller rfl .rfl
      apply goesOn_voiced unasked
      intro (waits : s.worker = .waiting)
      have queue : s.asked = false ∧ ¬s.queue = [] := by simpa [admits,waits] using admitted
      exact queue.2
    | cancelled =>
      rw [resume,List.map_nil,List.append_nil]
      exact sound.voiced.ends.1
    | raises text =>
      rw [resume,List.map_nil,List.append_nil]
      exact sound.voiced.ends.2 text
  · intro idle
    rw [stays.chunker,stays.fed]
    exact sound.fed (stays.finishing ▸ idle)
  · intro returned
    exact (running _ (sound.called.finished (stays.finishing ▸ returned))).elim
  · intro returned
    obtain ⟨ending,ended⟩ := sound.called.cancelled (stays.cancelling ▸ returned)
    exact (running ending ended).elim

/-- The caller's fields change, and the worker has not moved. -/
theorem Sound.caller {s u : TurnSpeech} {heard : List Heard} {asked : Bool}
    {finishing cancelling : Call} (sound : s.Sound heard)
    (same : u = { s with asked := asked, finishing := finishing, cancelling := cancelling })
    (idle : finishing = .idle ↔ s.finishing = .idle) (called : u.Called) : u.Sound heard := by
  refine ⟨sound.voiced.caller same idle,?_,called⟩
  subst same
  exact fun now => sound.fed (idle.mp now)

theorem Sound.initial (turnId streamId : Nat) (tts : SynthClient) :
    Sound { turnId := turnId, streamId := streamId, tts := tts } [] := by
  refine ⟨⟨[],[],⟨rfl,rfl,?_⟩,by simp [Worker.chunks],by simp,rfl,rfl⟩,fun _ => rfl,⟨nofun,nofun⟩⟩
  simp [Worker.left,ready,queued,SynthClient.synthesised]

/-- What a label does to a speech keeps it sound, and stays in its stream. -/
theorem act_sound {s u : TurnSpeech} {heard : List Heard} {act : Act} {sent : List Sent}
    (sound : s.Sound heard) (taken : s.act act = some (u,sent)) :
    u.Sound (heard ++ sent.map Sent.heard) ∧ u.streamId = s.streamId ∧
      ∀ item ∈ sent, item.stream = some s.streamId := by
  have called := sound.called
  have silent : ∀ u : TurnSpeech, u.Sound heard → u.streamId = s.streamId →
      u.Sound (heard ++ ([] : List Sent).map Sent.heard) ∧ u.streamId = s.streamId ∧
        ∀ item ∈ ([] : List Sent), item.stream = some s.streamId := by
    intro u sound same
    rw [List.map_nil,List.append_nil]
    exact ⟨sound,same,by simp⟩
  cases act with
  | feed delta =>
    simp only [TurnSpeech.act] at taken
    split at taken <;> cases taken
    next idle =>
    obtain ⟨voiced,fed⟩ := feed_voiced sound.voiced sound.fed idle delta
    exact silent _ ⟨voiced,fed,⟨called.finished,called.cancelled⟩⟩ rfl
  | finish =>
    simp only [TurnSpeech.act] at taken
    split at taken <;> cases taken
    next idle =>
    obtain ⟨voiced,fed⟩ := finish_voiced sound.voiced sound.fed idle
    exact silent _ ⟨voiced,fed,⟨nofun,called.cancelled⟩⟩ rfl
  | cancel =>
    simp only [TurnSpeech.act] at taken
    split at taken <;> cases taken
    exact silent _ (sound.caller rfl .rfl ⟨called.finished,nofun⟩) rfl
  | interrupt =>
    simp only [TurnSpeech.act] at taken
    split at taken <;> cases taken
    exact silent _ (sound.caller rfl .rfl ⟨called.finished,called.cancelled⟩) rfl
  | worker wake =>
    simp only [TurnSpeech.act] at taken
    split at taken
    case isFalse => cases taken
    next admitted =>
    have stays := resume_stays s wake
    have voiced := resume_sound sound admitted
    rw [Option.some.inj taken] at stays voiced
    exact ⟨voiced,stays.streamId,stays.sent⟩
  | finishResumes interrupted =>
    obtain ⟨v,resumed,same⟩ := Option.map_eq_some_iff.mp taken
    cases same
    simp only [TurnSpeech.finishResumes] at resumed
    split at resumed <;> cases resumed
    · next waits ended =>
      refine silent _ (sound.caller rfl ?_ ⟨fun _ => ended,called.cancelled⟩) rfl
      cases interrupted <;> simp [waits]
    · next waits _ =>
      exact silent _ (sound.caller rfl (by simp [waits]) ⟨nofun,called.cancelled⟩) rfl
  | cancelResumes interrupted =>
    obtain ⟨v,resumed,same⟩ := Option.map_eq_some_iff.mp taken
    cases same
    simp only [TurnSpeech.cancelResumes] at resumed
    split at resumed <;> cases resumed
    all_goals
      next ended =>
        exact silent _ (sound.caller rfl .rfl ⟨called.finished,fun _ => ⟨_,ended⟩⟩) rfl

end TurnSpeech

/-! ## All turns -/

/-- Each speech is sound over its own stream, and no stream is used before it is made. -/
structure Sounds (s : State) : Prop where
  made : ∀ k speech, s.speeches k = some speech →
    speech.streamId = k ∧ k ≤ s.nextStreamId ∧ speech.Sound ((audio k s.log).map Sent.heard)
  fresh : ∀ k, s.nextStreamId < k → audio k s.log = []

theorem Sounds.initial : Sounds init := ⟨fun _ _ none => (nomatch none),fun _ _ => rfl⟩

theorem audio_own {k : Nat} {log sent : List Sent} (own : ∀ item ∈ sent, item.stream = some k) :
    audio k (log ++ sent) = audio k log ++ sent := by
  have all : sent.filter (fun item => item.stream = some k) = sent :=
    List.filter_eq_self.mpr fun item member => by simp [own item member]
  rw [audio,List.filter_append,all,audio]

theorem audio_other {j k : Nat} {log sent : List Sent} (own : ∀ item ∈ sent, item.stream = some k)
    (other : j ≠ k) : audio j (log ++ sent) = audio j log := by
  have none : sent.filter (fun item => item.stream = some j) = [] :=
    List.filter_eq_nil_iff.mpr fun item member => by simp [own item member,other.symm]
  rw [audio,List.filter_append,none,List.append_nil,audio]

theorem Sounds.step {s u : State} {op : Op} (inv : Sounds s)
    (taken : GhostRunner.Voice.step s op = some u) : Sounds u := by
  cases op with
  | create turnId tts =>
    cases taken
    refine ⟨fun k speech made => ?_,fun k later => inv.fresh k (by simp only [create] at later; omega)⟩
    by_cases new : k = s.nextStreamId + 2
    · subst k
      simp only [create,Function.update_self] at made
      cases made
      refine ⟨rfl,le_rfl,?_⟩
      simp only [create]
      rw [inv.fresh _ (by omega)]
      exact TurnSpeech.Sound.initial ..
    · simp only [create,Function.update_of_ne new] at made
      obtain ⟨own,known,sound⟩ := inv.made k speech made
      exact ⟨own,by simp only [create]; omega,sound⟩
  | speech k act =>
    obtain ⟨⟨speech,sent⟩,acted,rfl⟩ := Option.map_eq_some_iff.mp taken
    obtain ⟨before,found,taken⟩ := Option.bind_eq_some_iff.mp acted
    obtain ⟨own,known,sound⟩ := inv.made k before found
    obtain ⟨sound,same,stays⟩ := TurnSpeech.act_sound sound taken
    rw [own] at same stays
    refine ⟨fun j speech made => ?_,fun j later => ?_⟩
    · by_cases mine : j = k
      · subst j
        simp only [Function.update_self] at made
        cases made
        refine ⟨same,known,?_⟩
        simp only [audio_own stays,List.map_append]
        exact sound
      · simp only [Function.update_of_ne mine] at made
        simp only [audio_other stays mine]
        exact inv.made j speech made
    · have other : j ≠ k := by
        simp only at later
        omega
      simp only [audio_other stays other]
      exact inv.fresh j later

theorem Sounds.reached {ops : List Op} {s : State}
    (reached : run GhostRunner.Voice.step init ops = some s) : Sounds s :=
  run_invariant (fun _ _ _ inv taken => Sounds.step inv taken) Sounds.initial reached

/-! ## Workers that have ended -/

theorem TurnSpeech.act_ended {s u : TurnSpeech} {act : Act} {sent : List Sent} {ending : Ending}
    (ended : s.worker = .ended ending) (taken : s.act act = some (u,sent)) :
    u.worker = .ended ending ∧ sent = [] := by
  cases act with
  | worker wake =>
    have stops : s.admits wake = false := by cases wake <;> simp [admits,ended]
    simp [TurnSpeech.act,stops] at taken
  | finishResumes interrupted =>
    obtain ⟨v,resumed,same⟩ := Option.map_eq_some_iff.mp taken
    cases same
    simp only [TurnSpeech.finishResumes] at resumed
    split at resumed <;> cases resumed <;> exact ⟨ended,rfl⟩
  | cancelResumes interrupted =>
    obtain ⟨v,resumed,same⟩ := Option.map_eq_some_iff.mp taken
    cases same
    simp only [TurnSpeech.cancelResumes] at resumed
    split at resumed <;> cases resumed <;> exact ⟨ended,rfl⟩
  | feed delta =>
    simp only [TurnSpeech.act] at taken
    split at taken <;> cases taken
    exact ⟨ended,rfl⟩
  | finish =>
    simp only [TurnSpeech.act] at taken
    split at taken <;> cases taken
    exact ⟨ended,rfl⟩
  | cancel =>
    simp only [TurnSpeech.act] at taken
    split at taken <;> cases taken
    exact ⟨ended,rfl⟩
  | interrupt =>
    simp only [TurnSpeech.act] at taken
    split at taken <;> cases taken
    exact ⟨ended,rfl⟩

/-- The worker of a stream has ended, and this is all that has been broadcast for it. -/
def Over (k : Nat) (all : List Sent) (s : State) : Prop :=
  audio k s.log = all ∧ ∃ speech ending, s.speeches k = some speech ∧
    speech.worker = .ended ending

theorem Over.step {s u : State} {op : Op} {k : Nat} {all : List Sent} (inv : Sounds s)
    (gone : Over k all s) (taken : GhostRunner.Voice.step s op = some u) : Over k all u := by
  obtain ⟨sent_eq,speech,ending,found,ended⟩ := gone
  cases op with
  | create turnId tts =>
    cases taken
    have known := (inv.made k speech found).2.1
    have other : k ≠ s.nextStreamId + 2 := by omega
    refine ⟨sent_eq,speech,ending,?_,ended⟩
    simp only [create,Function.update_of_ne other,found]
  | speech j act =>
    obtain ⟨⟨after,sent⟩,acted,rfl⟩ := Option.map_eq_some_iff.mp taken
    obtain ⟨before,made,acted⟩ := Option.bind_eq_some_iff.mp acted
    obtain ⟨own,_,sound⟩ := inv.made j before made
    obtain ⟨_,_,stays⟩ := TurnSpeech.act_sound sound acted
    rw [own] at stays
    by_cases mine : k = j
    · subst mine
      obtain rfl := Option.some.inj (found.symm.trans made)
      obtain ⟨still,rfl⟩ := TurnSpeech.act_ended ended acted
      refine ⟨by rw [List.append_nil]; exact sent_eq,after,ending,?_,still⟩
      simp only [Function.update_self]
    · refine ⟨by rw [audio_other stays mine]; exact sent_eq,speech,ending,?_,ended⟩
      simp only [Function.update_of_ne mine,found]

theorem Over.run {s u : State} {ops : List Op} {k : Nat} {all : List Sent} (inv : Sounds s)
    (gone : Over k all s) (reached : Machine.run GhostRunner.Voice.step s ops = some u) :
    Over k all u := by
  have keep : ∀ s op u, (Sounds s ∧ Over k all s) → GhostRunner.Voice.step s op = some u →
      Sounds u ∧ Over k all u :=
    fun _ _ _ both taken => ⟨both.1.step taken,Over.step both.1 both.2 taken⟩
  exact (run_invariant keep ⟨inv,gone⟩ reached).2

/-! ## The audio of a turn -/

/-- The payloads of a stream: its speech, in pieces that a frame can carry. -/
structure Carries (payloads speech : List Pcm) : Prop where
  sound : ∀ payload ∈ payloads,
    payload ≠ [] ∧ Even payload.length ∧ payload.length ≤ pcmFrameBytes
  speech : payloads.flatten = speech.flatten

namespace TurnSpeech

theorem cut_carries (s : TurnSpeech) : Carries (cut s.speech) s.speech := by
  refine ⟨cut_sound fun pcm member => ?_,cut_flatten s.speech⟩
  obtain ⟨call,sentence,chunk⟩ := SynthClient.synthesised_mem member
  exact s.tts.even call sentence pcm chunk

theorem ready_begins (s : TurnSpeech) : s.ready <+: cut s.speech := by
  have queued : s.queued <+: sentences s.fed := by
    simp only [queued]
    split
    · exact List.prefix_append ..
    · exact List.prefix_refl _
  obtain ⟨rest,all⟩ := queued
  rw [speech,← all,SynthClient.synthesised_append,cut_append]
  exact List.prefix_append ..

theorem ready_finished {s : TurnSpeech} (finished : s.finishing ≠ .idle) :
    s.ready = cut s.speech := by
  rw [ready,speech,queued,if_neg finished]

theorem Voiced.script_begins {s : TurnSpeech} {heard : List Heard} (voiced : s.Voiced heard) :
    heard <+: s.script (cut s.speech) := by
  rcases voiced.begun with (rfl | ⟨sent,within,proper,rfl⟩) | ⟨finished,rfl⟩
  · exact List.nil_prefix
  · have all : cut s.speech ≠ [] := by
      intro none
      exact proper (List.prefix_nil.mp (none ▸ s.ready_begins))
    rw [script,if_neg all]
    apply List.cons_prefix_cons.mpr
    exact ⟨rfl,(frames_begin _ (within.trans s.ready_begins)).trans (List.prefix_append ..)⟩
  · rw [ready_finished finished]

end TurnSpeech

/-- What is broadcast for a stream is a prefix of its script, all of it if `finish` returns,
and nothing more once `cancel` has returned. No frame fails to be encoded while the numbers
of frames and streams fit their fields. -/
theorem audio_is_speech (ops : List Op) (s : State) (reached : run step init ops = some s)
    (k : Nat) (speech : TurnSpeech) (made : s.speeches k = some speech) :
    ∃ payloads, Carries payloads speech.speech ∧
      (audio k s.log).map Sent.heard <+: speech.script payloads ∧
      (speech.finishing = .returned → (audio k s.log).map Sent.heard = speech.script payloads) ∧
      (speech.cancelling = .returned → ∀ later u, run step s later = some u →
        audio k u.log = audio k s.log) ∧
      (payloads.length < 2 ^ 32 → k ≤ u64Max →
        ∀ error, speech.worker ≠ .ended (.raised (.encode error))) := by
  have inv := Sounds.reached reached
  obtain ⟨own,_,sound⟩ := inv.made k speech made
  refine ⟨cut speech.speech,speech.cut_carries,sound.voiced.script_begins,?_,?_,?_⟩
  · intro returned
    have voiced := sound.voiced
    simp only [TurnSpeech.Voiced,sound.called.finished returned] at voiced
    rw [voiced.2,speech.ready_finished voiced.1]
  · intro returned later u continued
    obtain ⟨ending,ended⟩ := sound.called.cancelled returned
    exact (Over.run inv ⟨rfl,speech,ending,made,ended⟩ continued).1
  · intro few small error failed
    have voiced := sound.voiced
    simp only [TurnSpeech.Voiced,failed] at voiced
    have most := speech.ready_begins.length_le
    rcases voiced.2 with stream | many
    · omega
    · simp only [u32Max] at many
      omega

/-- A client that says every sentence in two chunks. -/
def beeps : SynthClient where
  sampleRate := 44100
  synthStream _ _ := [[1,2],[3,4,5,6]]
  nonempty := by simp
  even := by simp; decide

/-- One turn is spoken to its end, and the speech of the next is cancelled at its second chunk. -/
def spokenThenCancelled : List Op := [
  .create 7 beeps,
  .speech 2 (.feed (PyStr.ofString "はい")),
  .speech 2 (.worker .returns),
  .speech 2 .finish,
  .create 8 beeps,
  .speech 2 (.worker .returns),
  .speech 2 (.worker .returns),
  .speech 2 (.worker .returns),
  .speech 4 (.feed (PyStr.ofString "え？ あ")),
  .speech 4 (.worker .returns),
  .speech 2 (.worker .returns),
  .speech 4 (.worker .returns),
  .speech 4 (.worker .returns),
  .speech 2 (.worker .returns),
  .speech 4 (.worker .returns),
  .speech 2 (.worker .returns),
  .speech 2 (.worker .returns),
  .speech 2 (.worker .returns),
  .speech 4 .cancel,
  .speech 2 (.worker .returns),
  .speech 4 (.worker .cancelled),
  .speech 2 (.finishResumes false),
  .speech 4 (.cancelResumes false)]

theorem spokenThenCancelled_audio : ∃ s, run step init spokenThenCancelled = some s ∧
    (∃ speech, s.speeches 2 = some speech ∧ speech.finishing = .returned ∧
      ∃ payloads, Carries payloads speech.speech ∧
        (audio 2 s.log).map Sent.heard = speech.script payloads) ∧
    (∃ speech, s.speeches 4 = some speech ∧ speech.cancelling = .returned ∧
      (audio 4 s.log).length = 2 ∧ ∀ later u, run step s later = some u →
        audio 4 u.log = audio 4 s.log) := by
  have eval : ∃ s, run step init spokenThenCancelled = some s ∧
      ((s.speeches 2).any fun speech => speech.finishing = .returned) = true ∧
      ((s.speeches 4).any fun speech => speech.cancelling = .returned) = true ∧
      (audio 4 s.log).length = 2 := exists_of_eval (by decide +kernel)
  obtain ⟨s,reached,finished,cancelled,short⟩ := eval
  obtain ⟨first,made,finished⟩ := (Option.any_eq_true ..).mp finished
  obtain ⟨second,made',cancelled⟩ := (Option.any_eq_true ..).mp cancelled
  have finished : first.finishing = .returned := of_decide_eq_true finished
  have cancelled : second.cancelling = .returned := of_decide_eq_true cancelled
  obtain ⟨payloads,carries,_,all,_⟩ := audio_is_speech spokenThenCancelled s reached 2 first made
  obtain ⟨_,_,_,_,still,_⟩ := audio_is_speech spokenThenCancelled s reached 4 second made'
  exact ⟨s,reached,⟨first,made,finished,payloads,carries,all finished⟩,
    ⟨second,made',cancelled,short,still cancelled⟩⟩

end GhostRunner.Voice
