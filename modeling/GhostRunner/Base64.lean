import GhostRunner.PyStr

/-! Base64 as Python's `base64` reads it under `validate=True` (`a2b_base64` in its strict mode),
and that it reads back what it writes. -/
namespace Base64

inductive Fault where
  | notAscii
  | leadingPadding
  | excessPadding
  | excessData
  | notBase64
  | discontinuous
  | oneMore (characters : Nat)
  | incorrectPadding
  deriving DecidableEq, Repr

def Fault.message : Fault → String
  | .notAscii => "string argument should contain only ASCII characters"
  | .leadingPadding => "Leading padding not allowed"
  | .excessPadding => "Excess padding not allowed"
  | .excessData => "Excess data after padding"
  | .notBase64 => "Only base64 data is allowed"
  | .discontinuous => "Discontinuous padding not allowed"
  | .oneMore characters => "Invalid base64-encoded string: number of data characters (" ++
      toString characters ++ ") cannot be 1 more than a multiple of 4"
  | .incorrectPadding => "Incorrect padding"

def pad : CodePoint := 0x3d

/-- The six bits of a character. -/
def sextet (c : CodePoint) : Option Nat :=
  if 0x41 ≤ c ∧ c ≤ 0x5a then some (c.val - 0x41)
  else if 0x61 ≤ c ∧ c ≤ 0x7a then some (c.val - 0x61 + 26)
  else if 0x30 ≤ c ∧ c ≤ 0x39 then some (c.val - 0x30 + 52)
  else if c = 0x2b then some 62 else if c = 0x2f then some 63 else none

/-- The character of six bits. -/
def letter (n : Nat) : CodePoint :=
  Fin.ofNat 0x110000 (if n < 26 then n + 0x41 else if n < 52 then n - 26 + 0x61
    else if n < 62 then n - 52 + 0x30 else if n = 62 then 0x2b else 0x2f)

/-! ## Reading -/

/-- `quad` characters of the current four have been read, and `left` are the bits of them that no
byte has been made of. -/
structure Decoder where
  quad : Nat := 0
  left : Nat := 0
  pads : Nat := 0
  padding : Bool := false
  out : List UInt8 := []
  deriving DecidableEq, Repr

/-- A byte is complete. -/
def Decoder.put (d : Decoder) (quad left byte : Nat) : Decoder :=
  { d with quad := quad, left := left, pads := 0, out := d.out ++ [UInt8.ofNat byte] }

def Decoder.take (d : Decoder) (n : Nat) : Decoder :=
  match d.quad with
  | 0 => { d with quad := 1, left := n, pads := 0 }
  | 1 => d.put 2 (n % 16) (d.left * 4 + n / 16)
  | 2 => d.put 3 (n % 4) (d.left * 16 + n / 4)
  | _ => d.put 0 0 (d.left * 64 + n)

/-- What has been read up to here ends the text. -/
def Decoder.finish (d : Decoder) : Except Fault (List UInt8) :=
  if d.quad = 0 then .ok d.out
  else if d.quad = 1 then .error (.oneMore (d.out.length / 3 * 4 + 1))
  else .error .incorrectPadding

def decodeFrom (d : Decoder) : PyStr → Except Fault (List UInt8)
  | [] => d.finish
  | c :: rest =>
    if c = pad then
      if d.quad = 0 then .error .excessPadding
      else if 2 ≤ d.quad then
        if 4 ≤ d.quad + (d.pads + 1) then
          if rest = [] then .ok d.out else .error .excessData
        else decodeFrom { d with padding := true, pads := d.pads + 1 } rest
      else decodeFrom { d with padding := true } rest
    else
      match sextet c with
      | none => .error .notBase64
      | some n => if d.padding then .error .discontinuous else decodeFrom (d.take n) rest

/-- `base64.b64decode(s, validate=True)` -/
def b64decode (s : PyStr) : Except Fault (List UInt8) :=
  if s.any fun c => 0x80 ≤ c then .error .notAscii
  else if s.head? = some pad then .error .leadingPadding
  else decodeFrom {} s

/-! ## Writing -/

def b64encode : List UInt8 → PyStr
  | [] => []
  | [a] => [letter (a.toNat / 4),letter (a.toNat % 4 * 16),pad,pad]
  | [a,b] => [letter (a.toNat / 4),letter (a.toNat % 4 * 16 + b.toNat / 16),
      letter (b.toNat % 16 * 4),pad]
  | a :: b :: c :: rest => letter (a.toNat / 4) :: letter (a.toNat % 4 * 16 + b.toNat / 16) ::
      letter (b.toNat % 16 * 4 + c.toNat / 64) :: letter (c.toNat % 64) :: b64encode rest

/-! ## Reading what was written -/

theorem letter_reads : ∀ n < 64, sextet (letter n) = some n ∧ letter n ≠ pad ∧ letter n < 0x80 := by
  decide

theorem decodeFrom_letter {d : Decoder} {n : Nat} (small : n < 64) (plain : d.padding = false)
    (rest : PyStr) : decodeFrom d (letter n :: rest) = decodeFrom (d.take n) rest := by
  obtain ⟨reads,notPad,-⟩ := letter_reads n small
  simp [decodeFrom,notPad,reads,plain]

theorem put_byte {d : Decoder} {quad left byte : Nat} {a : UInt8} (same : byte = a.toNat) :
    d.put quad left byte =
      { d with quad := quad, left := left, pads := 0, out := d.out ++ [a] } := by
  rw [same,Decoder.put,UInt8.ofNat_toNat]

/-- What is written is read, after whatever whole quads. -/
theorem decodeFrom_encode (bytes out : List UInt8) :
    decodeFrom { out := out } (b64encode bytes) = .ok (out ++ bytes) := by
  induction bytes using b64encode.induct generalizing out with
  | case1 => simp [b64encode,decodeFrom,Decoder.finish]
  | case2 a =>
    have := a.toNat_lt
    have first : a.toNat / 4 * 4 + a.toNat % 4 * 16 / 16 = a.toNat := by omega
    rw [b64encode,decodeFrom_letter (by omega) rfl,decodeFrom_letter (by omega) rfl]
    simp only [Decoder.take,put_byte first]
    simp [decodeFrom]
  | case3 a b =>
    have := a.toNat_lt
    have := b.toNat_lt
    have first : a.toNat / 4 * 4 + (a.toNat % 4 * 16 + b.toNat / 16) / 16 = a.toNat := by omega
    have second : (a.toNat % 4 * 16 + b.toNat / 16) % 16 * 16 + b.toNat % 16 * 4 / 4 = b.toNat := by
      omega
    rw [b64encode,decodeFrom_letter (by omega) rfl,decodeFrom_letter (by omega) rfl,
      decodeFrom_letter (by omega) rfl]
    simp only [Decoder.take,put_byte first,put_byte second]
    simp [decodeFrom]
  | case4 a b c rest ih =>
    have := a.toNat_lt
    have := b.toNat_lt
    have := c.toNat_lt
    have first : a.toNat / 4 * 4 + (a.toNat % 4 * 16 + b.toNat / 16) / 16 = a.toNat := by omega
    have second : (a.toNat % 4 * 16 + b.toNat / 16) % 16 * 16 +
        (b.toNat % 16 * 4 + c.toNat / 64) / 4 = b.toNat := by omega
    have third : (b.toNat % 16 * 4 + c.toNat / 64) % 4 * 64 + c.toNat % 64 = c.toNat := by omega
    rw [b64encode,decodeFrom_letter (by omega) rfl,decodeFrom_letter (by omega) rfl,
      decodeFrom_letter (by omega) rfl,decodeFrom_letter (by omega) rfl]
    simp only [Decoder.take,put_byte first,put_byte second,put_byte third]
    simpa using ih (out ++ [a,b,c])

theorem letter_plain {n : Nat} (small : n < 64) : letter n ≠ pad ∧ letter n < 0x80 :=
  (letter_reads n small).2

/-- What holds of every letter and of the padding holds of what is written. -/
theorem b64encode_forall {p : CodePoint → Prop} (letters : ∀ n < 64, p (letter n)) (padding : p pad)
    (bytes : List UInt8) : ∀ c ∈ b64encode bytes, p c := by
  induction bytes using b64encode.induct with
  | case1 => simp [b64encode]
  | case2 a =>
    have := a.toNat_lt
    simp only [b64encode,List.forall_mem_cons]
    exact ⟨letters _ (by omega),letters _ (by omega),padding,padding,by simp⟩
  | case3 a b =>
    have := a.toNat_lt
    have := b.toNat_lt
    simp only [b64encode,List.forall_mem_cons]
    exact ⟨letters _ (by omega),letters _ (by omega),letters _ (by omega),padding,by simp⟩
  | case4 a b c rest ih =>
    have := a.toNat_lt
    have := b.toNat_lt
    have := c.toNat_lt
    simp only [b64encode,List.forall_mem_cons]
    exact ⟨letters _ (by omega),letters _ (by omega),letters _ (by omega),letters _ (by omega),ih⟩

theorem b64encode_ascii (bytes : List UInt8) : ∀ c ∈ b64encode bytes, c < 0x80 :=
  b64encode_forall (fun n small => (letter_plain small).2) (by decide) bytes

theorem b64encode_head (bytes : List UInt8) : (b64encode bytes).head? ≠ some pad := by
  have plain (a : UInt8) : letter (a.toNat / 4) ≠ pad :=
    (letter_plain (by have := a.toNat_lt; omega)).1
  match bytes with
  | [] => simp [b64encode]
  | [a] => simp [b64encode,plain a]
  | [a,b] => simp [b64encode,plain a]
  | a :: b :: c :: rest => simp [b64encode,plain a]

theorem b64encode_length (bytes : List UInt8) :
    (b64encode bytes).length = 4 * ((bytes.length + 2) / 3) := by
  induction bytes using b64encode.induct with
  | case1 => rfl
  | case2 a => simp [b64encode]
  | case3 a b => simp [b64encode]
  | case4 a b c rest ih =>
    simp only [b64encode,List.length_cons,ih]
    omega

/-- `b64decode` reads back what `b64encode` writes. -/
theorem b64decode_encode (bytes : List UInt8) : b64decode (b64encode bytes) = .ok bytes := by
  have ascii : ¬((b64encode bytes).any fun c => 0x80 ≤ c) = true := by
    simpa [Fin.not_le] using b64encode_ascii bytes
  rw [b64decode,if_neg ascii,if_neg (b64encode_head bytes)]
  simpa using decodeFrom_encode bytes []

end Base64
