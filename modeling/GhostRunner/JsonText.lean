import GhostRunner.Json

/-! JSON texts as Python's `json.loads` reads them. A scanner gives what it has read and the text
that is left. -/
namespace Json

inductive Fault where
  | malformed
  | tooManyDigits
  | tooDeep
  deriving DecidableEq, Repr

abbrev Scan (α : Type) := PyStr → Except Fault (α × PyStr)

def isWhitespace (c : CodePoint) : Bool := c = 0x20 || c = 0x09 || c = 0x0a || c = 0x0d

def skip (s : PyStr) : PyStr := s.dropWhile isWhitespace

def isDigit (c : CodePoint) : Bool := 0x30 ≤ c && c ≤ 0x39

/-! ## Strings -/

def hexDigit (c : CodePoint) : Option Nat :=
  if 0x30 ≤ c ∧ c ≤ 0x39 then some (c.val - 0x30)
  else if 0x41 ≤ c ∧ c ≤ 0x46 then some (c.val - 0x37)
  else if 0x61 ≤ c ∧ c ≤ 0x66 then some (c.val - 0x57)
  else none

/-- The code of an escape with the letter `u`. -/
def hexCode (a b c d : CodePoint) : Option CodePoint := do
  let a ← hexDigit a
  let b ← hexDigit b
  let c ← hexDigit c
  let d ← hexDigit d
  return Fin.ofNat 0x110000 (((a * 16 + b) * 16 + c) * 16 + d)

/-- The character that an escape with another letter stands for. -/
def unescape (e : CodePoint) : Option CodePoint :=
  if e = 0x22 ∨ e = 0x5c ∨ e = 0x2f then some e
  else if e = 0x62 then some 0x08 else if e = 0x66 then some 0x0c
  else if e = 0x6e then some 0x0a else if e = 0x72 then some 0x0d
  else if e = 0x74 then some 0x09 else none

/-- A character of a string, and whether it was written as a code. -/
abbrev Spelled := CodePoint × Bool

/-- The characters up to the closing quote. -/
def scanSpelled : PyStr → Option (List Spelled × PyStr)
  | [] => none
  | c :: rest =>
    if c = 0x22 then some ([],rest)
    else if c = 0x5c then
      match rest with
      | [] => none
      | e :: rest =>
        if e = 0x75 then
          match rest with
          | h :: i :: j :: k :: rest => do
            let code ← hexCode h i j k
            let (spelled,rest) ← scanSpelled rest
            return ((code,true) :: spelled,rest)
          | _ => none
        else do
          let char ← unescape e
          let (spelled,rest) ← scanSpelled rest
          return ((char,false) :: spelled,rest)
    else if c < 0x20 then none
    else do
      let (spelled,rest) ← scanSpelled rest
      return ((c,false) :: spelled,rest)

def isHigh (u : Spelled) : Bool := u.2 && 0xd800 ≤ u.1 && u.1 ≤ 0xdbff
def isLow (u : Spelled) : Bool := u.2 && 0xdc00 ≤ u.1 && u.1 ≤ 0xdfff

/-- Two codes that make up a surrogate pair are one character. -/
def join : List Spelled → PyStr
  | [] => []
  | u :: rest =>
    match rest with
    | [] => [u.1]
    | v :: more =>
      if isHigh u ∧ isLow v then
        Fin.ofNat 0x110000 (0x10000 + (u.1.val - 0xd800) * 0x400 + (v.1.val - 0xdc00)) :: join more
      else u.1 :: join (v :: more)

/-- A string, after its opening quote. -/
def scanString (s : PyStr) : Except Fault (PyStr × PyStr) :=
  match scanSpelled s with
  | some (spelled,rest) => .ok (join spelled,rest)
  | none => .error .malformed

/-! ## Numbers -/

/-- An optional sign of the given kinds. -/
def scanSign (isSign : CodePoint → Bool) : PyStr → PyStr × PyStr
  | [] => ([],[])
  | c :: rest => if isSign c then ([c],rest) else ([],c :: rest)

def isMinus (c : CodePoint) : Bool := c = 0x2d
def isSign (c : CodePoint) : Bool := c = 0x2b || c = 0x2d

/-- An integer, which has no leading zeros. -/
def scanInteger (s : PyStr) : Option (PyStr × PyStr) :=
  match (scanSign isMinus s).2 with
  | [] => none
  | d :: rest =>
    if d = 0x30 then some ((scanSign isMinus s).1 ++ [d],rest)
    else if isDigit d then
      some ((scanSign isMinus s).1 ++ d :: rest.takeWhile isDigit,rest.dropWhile isDigit)
    else none

/-- A point that no digit follows is not part of the number. -/
def scanFraction (s : PyStr) : PyStr × PyStr :=
  match s with
  | p :: d :: rest =>
    if p = 0x2e ∧ isDigit d then (p :: d :: rest.takeWhile isDigit,rest.dropWhile isDigit)
    else ([],s)
  | _ => ([],s)

/-- Neither is an exponent without digits. -/
def scanExponent (s : PyStr) : PyStr × PyStr :=
  match s with
  | [] => ([],[])
  | e :: rest =>
    let signed := scanSign isSign rest
    match signed.2.takeWhile isDigit with
    | [] => ([],s)
    | d :: digits =>
      if e = 0x65 ∨ e = 0x45 then (e :: signed.1 ++ d :: digits,signed.2.dropWhile isDigit)
      else ([],s)

def digitsValue (digits : PyStr) : Nat := digits.foldl (fun n d => 10 * n + (d.val - 0x30)) 0

/-- The value of the literal of an integer. -/
def integerValue (literal : PyStr) : Int :=
  match scanSign isMinus literal with
  | ([],digits) => digitsValue digits
  | (_,digits) => -digitsValue digits

/-! ## Values -/

/-- The separated elements of an array or an object that is not empty. Each takes some of the
text, so that a text as long as `fuel` does not have more of them. -/
def scanSeparated {α : Type} (scan : Scan α) (close : CodePoint) : Nat → Scan (List α)
  | 0,_ => .error .malformed
  | fuel + 1,s => do
    let (element,s) ← scan s
    match skip s with
    | [] => throw .malformed
    | c :: rest =>
      if c = close then return ([element],rest)
      else if c = 0x2c then
        let (elements,s) ← scanSeparated scan close fuel (skip rest)
        return (element :: elements,s)
      else throw .malformed

/-- What stands after an opening bracket. -/
def scanElements {α : Type} (scan : Scan α) (close : CodePoint) : Scan (List α) := fun s =>
  match skip s with
  | [] => .error .malformed
  | c :: rest =>
    if c = close then .ok ([],rest) else scanSeparated scan close (c :: rest).length (c :: rest)

def scanMember (scan : Scan Json) : Scan (PyStr × Json)
  | [] => .error .malformed
  | q :: s =>
    if q = 0x22 then do
      let (key,s) ← scanString s
      match skip s with
      | [] => throw .malformed
      | c :: rest =>
        if c = 0x3a then
          let (value,s) ← scan (skip rest)
          return ((key,value),s)
        else throw .malformed
    else .error .malformed

/-- `d[key] = value`: a key that is there already keeps its place. -/
def put (members : List (PyStr × Json)) (key : PyStr) (value : Json) : List (PyStr × Json) :=
  if key ∈ members.map Prod.fst then
    members.map fun member => if member.1 = key then (key,value) else member
  else members ++ [(key,value)]

def dictOf (members : List (PyStr × Json)) : List (PyStr × Json) :=
  members.foldl (fun dict member => put dict member.1 member.2) []

/-- An array or an object, after its opening bracket. -/
def scanContainer (scan : Scan Json) (opening : CodePoint) (s : PyStr) :
    Except Fault (Json × PyStr) :=
  if opening = 0x5b then do
    let (items,s) ← scanElements scan 0x5d s
    return (.arr items,s)
  else do
    let (members,s) ← scanElements (scanMember scan) 0x7d s
    return (.obj (dictOf members),s)

def constants : List (PyStr × Json) :=
  [("null",null),("true",bool true),("false",bool false),("NaN",float "nan"),
    ("Infinity",float "inf"),("-Infinity",float "-inf")].map fun (text,value) =>
    (.ofString text,value)

/-- What follows the word, if the text begins with it. -/
def afterWord : PyStr → PyStr → Option PyStr
  | [],s => some s
  | _ :: _,[] => none
  | c :: word,d :: s => if c = d then afterWord word s else none

def scanConstant (s : PyStr) : Option (Json × PyStr) :=
  constants.findSome? fun (word,value) => (afterWord word s).map fun rest => (value,rest)

/-- The literal of a number: its sign and what stands before the point, then the rest. -/
def scanNumber (s : PyStr) : Option ((PyStr × PyStr) × PyStr) := do
  let (integer,s) ← scanInteger s
  let (fraction,s) := scanFraction s
  let (exponent,s) := scanExponent s
  return ((integer,fraction ++ exponent),s)

/-! ## The reader -/

/-- A string of digits after which a number may go on. -/
def Digits (digits : PyStr) : Prop := digits ≠ [] ∧ ∀ c ∈ digits, isDigit c = true

/-- The parts of the literal of a number. -/
structure Literal where
  minus : Bool
  integer : PyStr
  fraction : PyStr
  exponent : PyStr

namespace Literal

def sign (l : Literal) : PyStr := if l.minus then [0x2d] else []

def text (l : Literal) : PyStr := l.sign ++ l.integer ++ (l.fraction ++ l.exponent)

structure Valid (l : Literal) : Prop where
  digits : Digits l.integer
  leading : l.integer.head? = some 0x30 → l.integer = [0x30]
  fraction : l.fraction = [] ∨ ∃ digits, l.fraction = 0x2e :: digits ∧ Digits digits
  exponent : l.exponent = [] ∨ ∃ e sign digits, l.exponent = e :: sign ++ digits ∧
    (e = 0x65 ∨ e = 0x45) ∧ (sign = [] ∨ ∃ c, sign = [c] ∧ isSign c = true) ∧ Digits digits

end Literal

/-- The `repr` of a float, from which it can be read again. -/
def Repr (float : PyStr → String) (repr : String) : Prop :=
  repr = "nan" ∨ repr = "inf" ∨ repr = "-inf" ∨
    ∃ l : Literal, l.Valid ∧ l.fraction ++ l.exponent ≠ [] ∧ l.text = .ofString repr ∧
      float l.text = repr

/-- What depends on the interpreter: how it writes values, how deep they may be nested in a text,
the `repr` of the float that a literal denotes, and what it says of a text that it refuses. `int`
takes as many digits as `str` writes, no value is read that is nested too deep to be written, and
the `repr` of a float denotes that float. -/
structure Reader where
  writer : Writer
  maxDepth : Nat
  nesting : maxDepth ≤ writer.maxDepth
  float : PyStr → String
  repr : ∀ l : Literal, l.Valid → Repr float (float l.text)
  complaint : PyStr → String
  digitsMessage : PyStr → String
  depthMessage : String

def Reader.maxDigits (reader : Reader) : Nat := reader.writer.maxDigits

/-- The reader, if it read as deep as it writes. -/
def Reader.deepest (reader : Reader) : Reader :=
  { reader with maxDepth := reader.writer.maxDepth, nesting := Nat.le_refl _ }

variable (reader : Reader)

def scanNumeral (s : PyStr) : Except Fault (Json × PyStr) :=
  match scanNumber s with
  | none => .error .malformed
  | some ((integer,[]),rest) =>
    if reader.maxDigits < (scanSign isMinus integer).2.length then .error .tooManyDigits
    else .ok (.int (integerValue integer),rest)
  | some ((integer,more),rest) => .ok (.float (reader.float (integer ++ more)),rest)

/-- A value; `container` reads one that begins with a bracket. -/
def scanWith (container : CodePoint → PyStr → Except Fault (Json × PyStr)) :
    PyStr → Except Fault (Json × PyStr)
  | [] => .error .malformed
  | c :: rest =>
    if c = 0x22 then (scanString rest).map fun (s,rest) => (.str s,rest)
    else if c = 0x5b ∨ c = 0x7b then container c rest
    else match scanConstant (c :: rest) with
      | some found => .ok found
      | none => scanNumeral reader (c :: rest)

/-- `scan_once`, which is called once for each level of nesting. -/
def scanOnce : Nat → PyStr → Except Fault (Json × PyStr)
  | 0 => scanWith reader fun _ _ => .error .tooDeep
  | depth + 1 => scanWith reader (scanContainer (scanOnce depth))

/-- `json.loads` -/
def Reader.loads (text : PyStr) : Except LoadsError Json :=
  match scanOnce reader reader.maxDepth (skip text) with
  | .ok (value,rest) =>
    if skip rest = [] then .ok value else .error (.jsonDecodeError (reader.complaint text))
  | .error .malformed => .error (.jsonDecodeError (reader.complaint text))
  | .error .tooManyDigits => .error (.valueError (reader.digitsMessage text))
  | .error .tooDeep => .error (.recursionError reader.depthMessage)

end Json
