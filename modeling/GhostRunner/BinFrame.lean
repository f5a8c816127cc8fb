import Mathlib.Data.Finset.Insert
import GhostRunner.Bytes

/-! Binary frames (`binframe.py`): the header `<BBQII`, then the payload. -/
namespace GhostRunner.BinFrame

open Bytes

abbrev Frame := List UInt8

def hdrVer : Nat := 1
def kindTtsPcm : Nat := 0x01
def kindMicPcm : Nat := 0x02
def kindPerception : Nat := 0x03

def knownKinds : List Nat := [kindTtsPcm,kindMicPcm,kindPerception]

def headerSize : Nat := 18

def u64Max : Nat := 2 ^ 64 - 1
def u32Max : Nat := 2 ^ 32 - 1

/-- The format specification `02x`. -/
def hex02 (n : Int) : String :=
  let digits := Nat.toDigits 16 n.natAbs
  String.ofList (if n < 0 then '-' :: digits else digits.leftpad 2 '0')

/-- What `encode_frame` raises: a `ValueError` of its own, or the `struct.error` for a payload
whose length does not fit its field. -/
inductive EncodeError where
  | valueError (message : String)
  | structError
  deriving DecidableEq, Repr

def encodeFrame (kind streamId seq : Int) (payload : List UInt8) : Except EncodeError Frame :=
  if ∀ known ∈ knownKinds, kind ≠ known then
    .error (.valueError ("unknown binary frame kind 0x" ++ hex02 kind))
  else if ¬(0 ≤ streamId ∧ streamId ≤ u64Max) then
    .error (.valueError ("stream_id " ++ toString streamId ++ " out of u64 range"))
  else if ¬(0 ≤ seq ∧ seq ≤ u32Max) then
    .error (.valueError ("seq " ++ toString seq ++ " out of u32 range"))
  else if payload = [] then .error (.valueError "binary frame payload must be non-empty")
  else if u32Max < payload.length then .error .structError
  else .ok (pack 1 hdrVer ++ pack 1 kind.toNat ++ pack 8 streamId.toNat ++ pack 4 seq.toNat ++
    pack 4 payload.length ++ payload)

/-- A decoded frame. -/
structure Fields where
  kind : Nat
  streamId : Nat
  seq : Nat
  payload : List UInt8
  deriving DecidableEq, Repr

/-- The field of the header at an offset, as `unpack_from` reads it. -/
def field (frame : Frame) (offset width : Nat) : Nat := unpack ((frame.drop offset).take width)

/-- The error is the message of the `FrameError`. -/
def decodeFrame (frame : Frame) : Except String Fields :=
  if frame.length < headerSize then
    .error ("frame shorter than the " ++ toString headerSize ++ "-byte header (" ++
      toString frame.length ++ " bytes)")
  else if field frame 0 1 ≠ hdrVer then
    .error ("unknown binary header version " ++ toString (field frame 0 1))
  else if field frame 1 1 ∉ knownKinds then
    .error ("unknown binary frame kind 0x" ++ hex02 (field frame 1 1))
  else if field frame 14 4 ≠ (frame.drop headerSize).length then
    .error ("payload_len " ++ toString (field frame 14 4) ++ " does not match actual payload (" ++
      toString (frame.drop headerSize).length ++ " bytes)")
  else .ok ⟨field frame 1 1,field frame 2 8,field frame 10 4,frame.drop headerSize⟩

/-! ## Round trips -/

/-- What `encode_frame` accepts. -/
structure Encodable (fields : Fields) : Prop where
  kind : fields.kind ∈ knownKinds
  streamId : fields.streamId ≤ u64Max
  seq : fields.seq ≤ u32Max
  payload : fields.payload ≠ []
  length : fields.payload.length ≤ u32Max

def Fields.frame (fields : Fields) : Frame :=
  pack 1 hdrVer ++ pack 1 fields.kind ++ pack 8 fields.streamId ++ pack 4 fields.seq ++
    pack 4 fields.payload.length ++ fields.payload

theorem encodeFrame_ok_iff {fields : Fields} {frame : Frame} :
    encodeFrame fields.kind fields.streamId fields.seq fields.payload = .ok frame ↔
      Encodable fields ∧ frame = fields.frame := by
  have known : (∀ known ∈ knownKinds, (fields.kind : Int) ≠ known) ↔ fields.kind ∉ knownKinds := by
    constructor
    · intro other member; exact other _ member rfl
    · intro other known member same; exact other (by rwa [Int.ofNat_inj.mp same])
  have streams : (0 ≤ (fields.streamId : Int) ∧ (fields.streamId : Int) ≤ u64Max) ↔
      fields.streamId ≤ u64Max := by omega
  have seqs : (0 ≤ (fields.seq : Int) ∧ (fields.seq : Int) ≤ u32Max) ↔ fields.seq ≤ u32Max := by
    omega
  simp only [encodeFrame,known,streams,seqs,Int.toNat_natCast]
  constructor
  · intro encoded
    by_cases kind : fields.kind ∈ knownKinds
    case neg => simp [kind] at encoded
    by_cases streamId : fields.streamId ≤ u64Max
    case neg => simp [kind,streamId] at encoded
    by_cases seq : fields.seq ≤ u32Max
    case neg => simp [kind,streamId,seq] at encoded
    by_cases empty : fields.payload = []
    case pos => simp [kind,streamId,seq,empty] at encoded
    by_cases long : u32Max < fields.payload.length
    case pos => simp [kind,streamId,seq,empty,long] at encoded
    refine ⟨⟨kind,streamId,seq,empty,not_lt.mp long⟩,?_⟩
    simp [kind,streamId,seq,empty,long] at encoded
    exact encoded.symm
  · rintro ⟨⟨kind,streamId,seq,payload,length⟩,rfl⟩
    simp [kind,streamId,seq,payload,not_lt.mpr length,Fields.frame]

/-- A field that starts after the bytes before it is the number packed there. -/
theorem field_pack (before after : List UInt8) {offset width n : Nat}
    (start : before.length = offset) (fits : n < 256 ^ width) :
    field (before ++ (pack width n ++ after)) offset width = n := by
  subst start
  simp [field,unpack_pack fits]

theorem decodeFrame_frame {fields : Fields} (fits : Encodable fields) :
    decodeFrame fields.frame = .ok fields := by
  obtain ⟨kind,streamId,seq,payload⟩ := fields
  obtain ⟨known,streamFits,seqFits,_,lengthFits⟩ := fits
  simp only [u64Max,u32Max] at streamFits seqFits lengthFits
  have small : kind < 256 ^ 1 := by
    simp only [knownKinds,kindTtsPcm,kindMicPcm,kindPerception,List.mem_cons,List.not_mem_nil,
      or_false] at known
    omega
  have frame : Fields.frame ⟨kind,streamId,seq,payload⟩ = pack 1 hdrVer ++ (pack 1 kind ++
      (pack 8 streamId ++ (pack 4 seq ++ (pack 4 payload.length ++ payload)))) := by
    simp [Fields.frame]
  have version : field (Fields.frame ⟨kind,streamId,seq,payload⟩) 0 1 = hdrVer := by
    rw [frame]
    exact field_pack [] _ rfl (by decide)
  have kinds : field (Fields.frame ⟨kind,streamId,seq,payload⟩) 1 1 = kind := by
    rw [frame]
    exact field_pack (pack 1 hdrVer) _ (by simp) small
  have streams : field (Fields.frame ⟨kind,streamId,seq,payload⟩) 2 8 = streamId := by
    rw [frame,← List.append_assoc]
    exact field_pack (pack 1 hdrVer ++ pack 1 kind) _ (by simp) (by omega)
  have seqs : field (Fields.frame ⟨kind,streamId,seq,payload⟩) 10 4 = seq := by
    rw [frame,← List.append_assoc,← List.append_assoc]
    exact field_pack ((pack 1 hdrVer ++ pack 1 kind) ++ pack 8 streamId) _ (by simp) (by omega)
  have lengths : field (Fields.frame ⟨kind,streamId,seq,payload⟩) 14 4 = payload.length := by
    rw [frame,← List.append_assoc,← List.append_assoc,← List.append_assoc]
    exact field_pack (((pack 1 hdrVer ++ pack 1 kind) ++ pack 8 streamId) ++ pack 4 seq) _
      (by simp) (by omega)
  have rest : (Fields.frame ⟨kind,streamId,seq,payload⟩).drop headerSize = payload :=
    List.drop_left' (by simp [headerSize])
  have long : ¬(Fields.frame ⟨kind,streamId,seq,payload⟩).length < headerSize := by
    rw [frame]
    simp [headerSize]
    omega
  simp only [decodeFrame,version,kinds,streams,seqs,lengths,rest,known,long,if_false,ne_eq,
    not_true]

/-- What `encode_frame` has encoded, `decode_frame` reads back. -/
theorem decode_encode {kind streamId seq : Nat} {payload : List UInt8} {frame : Frame}
    (encoded : encodeFrame kind streamId seq payload = .ok frame) :
    decodeFrame frame = .ok ⟨kind,streamId,seq,payload⟩ := by
  obtain ⟨fits,rfl⟩ := (@encodeFrame_ok_iff ⟨kind,streamId,seq,payload⟩ frame).mp encoded
  exact decodeFrame_frame fits

theorem field_lt (frame : Frame) (offset width : Nat) : field frame offset width < 256 ^ width := by
  apply (unpack_lt _).trans_le
  exact Nat.pow_le_pow_right (by decide) (List.length_take_le ..)

/-- A field that lies in the frame, followed by what comes after it. -/
theorem pack_field {frame : Frame} {offset width : Nat} (inside : offset + width ≤ frame.length) :
    pack width (field frame offset width) ++ frame.drop (offset + width) = frame.drop offset := by
  have wide : ((frame.drop offset).take width).length = width := by
    rw [List.length_take,List.length_drop]
    omega
  have bytes : pack width (field frame offset width) = (frame.drop offset).take width := by
    have spelt := pack_unpack ((frame.drop offset).take width)
    rwa [wide] at spelt
  rw [bytes,← List.drop_drop,List.take_append_drop]

/-- What `decode_frame` asks of a frame. -/
theorem decodeFrame_ok_iff {frame : Frame} {fields : Fields} : decodeFrame frame = .ok fields ↔
    (headerSize ≤ frame.length ∧ field frame 0 1 = hdrVer ∧ field frame 1 1 ∈ knownKinds ∧
      field frame 14 4 = (frame.drop headerSize).length) ∧
    fields = ⟨field frame 1 1,field frame 2 8,field frame 10 4,frame.drop headerSize⟩ := by
  constructor
  · intro decoded
    simp only [decodeFrame] at decoded
    split at decoded
    · cases decoded
    next long =>
    split at decoded
    · cases decoded
    next version =>
    split at decoded
    · cases decoded
    next known =>
    split at decoded
    · cases decoded
    next length =>
    cases decoded
    exact ⟨⟨not_lt.mp long,not_not.mp version,not_not.mp known,not_not.mp length⟩,rfl⟩
  · rintro ⟨⟨long,version,known,length⟩,rfl⟩
    simp only [decodeFrame,not_lt.mpr long,version,known,length,if_false,ne_eq,not_true]

/-- What `decode_frame` accepts is what `encode_frame` makes of its fields, unless it has no
payload. -/
theorem encode_decode {frame : Frame} {fields : Fields} (decoded : decodeFrame frame = .ok fields)
    (payload : fields.payload ≠ []) :
    encodeFrame fields.kind fields.streamId fields.seq fields.payload = .ok frame := by
  obtain ⟨⟨long,version,known,length⟩,rfl⟩ := decodeFrame_ok_iff.mp decoded
  simp only [headerSize] at long version known length payload
  have streamFits := field_lt frame 2 8
  have seqFits := field_lt frame 10 4
  have lengthFits := field_lt frame 14 4
  rw [length] at lengthFits
  refine encodeFrame_ok_iff.mpr ⟨⟨known,?_,?_,payload,?_⟩,?_⟩
  · simp only [u64Max]; omega
  · simp only [u32Max]; omega
  · simp only [u32Max,headerSize]; omega
  · have header : frame = pack 1 hdrVer ++ (pack 1 (field frame 1 1) ++
        (pack 8 (field frame 2 8) ++ (pack 4 (field frame 10 4) ++
          (pack 4 (frame.drop 18).length ++ frame.drop 18)))) := by
      rw [← version,← length,pack_field (by omega),pack_field (by omega),pack_field (by omega),
        pack_field (by omega),pack_field (by omega)]
      rfl
    simpa [Fields.frame,headerSize] using header

/-! ## Which frames are legal -/

/-- A field that lies in the beginning of a frame. -/
theorem field_begins {first frame : Frame} (begins : first <+: frame) {offset width : Nat}
    (inside : offset + width ≤ first.length) :
    field first offset width = field frame offset width := by
  obtain ⟨rest,rfl⟩ := begins
  have short : width ≤ (first.drop offset).length := by
    rw [List.length_drop]
    omega
  rw [field,field,List.drop_append_of_le_length (by omega),List.take_append_of_le_length short]

/-- The header tells where the frame ends, so no legal frame begins another. -/
theorem decodeFrame_begins {first frame : Frame} {some other : Fields}
    (begins : first <+: frame) (decoded : decodeFrame first = .ok some)
    (decodedWhole : decodeFrame frame = .ok other) : first = frame := by
  obtain ⟨⟨long,_,_,length⟩,_⟩ := decodeFrame_ok_iff.mp decoded
  obtain ⟨⟨longWhole,_,_,lengthWhole⟩,_⟩ := decodeFrame_ok_iff.mp decodedWhole
  simp only [headerSize] at long longWhole length lengthWhole
  have same := @field_begins first frame begins 14 4 long
  rw [length,lengthWhole,List.length_drop,List.length_drop] at same
  apply begins.eq_of_length
  omega

/-- `decode_frame` undoes `encode_frame`, and refuses what is cut off or goes on. -/
theorem encode_then_decode {kind streamId seq : Nat} {payload : List UInt8}
    (known : kind ∈ knownKinds) (streamFits : streamId < 2 ^ 64) (seqFits : seq < 2 ^ 32)
    (proper : payload ≠ []) (lengthFits : payload.length < 2 ^ 32) :
    ∃ frame, encodeFrame kind streamId seq payload = .ok frame ∧
      decodeFrame frame = .ok ⟨kind,streamId,seq,payload⟩ ∧
      (∀ first, first <+: frame → first ≠ frame → ∃ message, decodeFrame first = .error message) ∧
      ∀ more, more ≠ [] → ∃ message, decodeFrame (frame ++ more) = .error message := by
  have fits : Encodable ⟨kind,streamId,seq,payload⟩ :=
    ⟨known,Nat.le_pred_of_lt streamFits,Nat.le_pred_of_lt seqFits,proper,
      Nat.le_pred_of_lt lengthFits⟩
  have encoded := encodeFrame_ok_iff.mpr ⟨fits,rfl⟩
  have decoded := decodeFrame_frame fits
  refine ⟨_,encoded,decoded,?_,?_⟩
  · intro first begins cut
    cases result : decodeFrame first with
    | error message => exact ⟨message,rfl⟩
    | ok fields => exact absurd (decodeFrame_begins begins result decoded) cut
  · intro more goesOn
    cases result : decodeFrame (Fields.frame ⟨kind,streamId,seq,payload⟩ ++ more) with
    | error message => exact ⟨message,rfl⟩
    | ok fields =>
      have same := decodeFrame_begins (List.prefix_append _ more) decoded result
      exact absurd (List.self_eq_append_right.mp same) goesOn

/-- At the largest stream id. -/
theorem encode_then_decode_largest : ∃ frame,
    encodeFrame 2 (2 ^ 64 - 1 : Nat) 1 [0x78] = .ok frame ∧
      decodeFrame frame = .ok ⟨2,2 ^ 64 - 1,1,[0x78]⟩ := by
  obtain ⟨frame,encoded,decoded,_⟩ := @encode_then_decode 2 (2 ^ 64 - 1) 1 [0x78] (by decide)
    (by decide) (by decide) (by decide) (by decide)
  exact ⟨frame,encoded,decoded⟩

/-- A legal header with nothing after it. -/
def Bare (frame : Frame) : Prop :=
  frame.length = headerSize ∧ field frame 0 1 = hdrVer ∧ field frame 1 1 ∈ knownKinds ∧
    field frame 14 4 = 0

/-- The two sides agree on a frame exactly if it is not a bare header. -/
theorem decode_encodes_iff (frame : Frame) :
    (∀ fields, decodeFrame frame = .ok fields →
      encodeFrame fields.kind fields.streamId fields.seq fields.payload = .ok frame) ↔
    ¬Bare frame := by
  constructor
  · rintro agrees ⟨length,version,known,zero⟩
    have empty : frame.drop headerSize = [] := List.drop_eq_nil_of_le (le_of_eq length)
    have decoded := decodeFrame_ok_iff.mpr ⟨⟨ge_of_eq length,version,known,by
      rw [zero,empty]
      rfl⟩,rfl⟩
    have encoded := (encodeFrame_ok_iff.mp (agrees _ decoded)).1
    exact encoded.payload empty
  · intro notBare fields decoded
    apply encode_decode decoded
    obtain ⟨⟨long,version,known,length⟩,rfl⟩ := decodeFrame_ok_iff.mp decoded
    intro empty
    change frame.drop headerSize = [] at empty
    rw [empty] at length
    have short := List.drop_eq_nil_iff.mp empty
    exact notBare ⟨le_antisymm short long,version,known,length⟩

/-- The bare header of an audio frame. -/
theorem bare_header : ∃ fields,
    decodeFrame [1,1,2,0,0,0,0,0,0,0,0,0,0,0,0,0,0,0] = .ok fields ∧
    encodeFrame fields.kind fields.streamId fields.seq fields.payload ≠
      .ok [1,1,2,0,0,0,0,0,0,0,0,0,0,0,0,0,0,0] :=
  ⟨⟨1,2,0,[]⟩,by decide,by decide⟩

end GhostRunner.BinFrame
