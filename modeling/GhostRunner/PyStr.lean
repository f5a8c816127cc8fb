import Mathlib.Data.List.DropRight

/-! Python strings. A `str` is any sequence of code points: a lone surrogate, which no encoding
to UTF-8 admits, may stand in it. -/

abbrev CodePoint := Fin 0x110000

instance CodePoint.neZero : @NeZero Nat Zero.ofOfNat0 0x110000 := ⟨by decide⟩
instance CodePoint.lawfulBEq : LawfulBEq CodePoint := inferInstance

abbrev PyStr := List CodePoint

instance PyStr.lawfulBEq : LawfulBEq PyStr := inferInstance

def Char.codePoint (c : Char) : CodePoint :=
  ⟨c.toNat,by rcases c.valid with low | ⟨_,high⟩ <;> simp only [Char.toNat] <;> omega⟩

def CodePoint.isSurrogate (c : CodePoint) : Bool := 0xd800 ≤ c && c ≤ 0xdfff

theorem Char.codePoint_isSurrogate (c : Char) : c.codePoint.isSurrogate = false := by
  have range : c.codePoint < 0xd800 ∨ 0xdfff < c.codePoint := c.valid.imp id And.left
  simp only [CodePoint.isSurrogate,Bool.and_eq_false_iff,decide_eq_false_iff_not,Fin.not_le]
  exact range

namespace PyStr

def ofString (s : String) : PyStr := s.toList.map Char.codePoint

theorem ofString_injective : Function.Injective ofString := by
  have codePoint : Function.Injective Char.codePoint := by
    intro c d same
    exact Char.toNat_inj.mp (congrArg (fun point : CodePoint => point.val) same)
  intro s t same
  exact String.toList_inj.mp (List.map_injective_iff.mpr codePoint same)

@[simp] theorem ofString_inj {s t : String} : ofString s = ofString t ↔ s = t :=
  ofString_injective.eq_iff

/-- `str.isspace` of one character. -/
def isSpace (c : CodePoint) : Bool :=
  (0x09 ≤ c && c ≤ 0x0d) || (0x1c ≤ c && c ≤ 0x20) || c = 0x85 || c = 0xa0 || c = 0x1680 ||
    (0x2000 ≤ c && c ≤ 0x200a) || c = 0x2028 || c = 0x2029 || c = 0x202f || c = 0x205f ||
    c = 0x3000

/-- `str.encode` to UTF-8 does not raise. -/
def encodes (s : PyStr) : Bool := s.all fun c => !c.isSurrogate

def strip (s : PyStr) : PyStr := (s.dropWhile isSpace).rdropWhile isSpace

/-- A number in lower-case hexadecimal digits, with leading zeros up to a width. -/
def hex (width n : Nat) : PyStr :=
  ofString (String.ofList ((Nat.toDigits 16 n).leftpad width '0'))

@[simp] theorem encodes_append (s t : PyStr) : encodes (s ++ t) = (encodes s && encodes t) :=
  List.all_append

@[simp] theorem encodes_ofString (s : String) : encodes (ofString s) = true := by
  simp [encodes,ofString,Char.codePoint_isSurrogate]

@[simp] theorem encodes_hex (width n : Nat) : encodes (hex width n) = true := encodes_ofString _

theorem encodes_flatMap {f : CodePoint → PyStr} {s : PyStr} :
    encodes (s.flatMap f) = s.all fun c => (f c).encodes := by
  induction s with
  | nil => rfl
  | cons c s ih => rw [List.flatMap_cons,encodes_append,ih,List.all_cons]

/-! ## `strip` -/

/-- What `strip` takes away is white space at the ends. -/
theorem strip_split (s : PyStr) : ∃ left right, s = left ++ (strip s ++ right) ∧
    (∀ c ∈ left, isSpace c = true) ∧ ∀ c ∈ right, isSpace c = true := by
  refine ⟨s.takeWhile isSpace,(s.dropWhile isSpace).rtakeWhile isSpace,?_,?_,?_⟩
  · rw [strip,List.rdropWhile_append_rtakeWhile,List.takeWhile_append_dropWhile]
  · intro c member
    exact List.mem_takeWhile_imp member
  · intro c member
    exact List.mem_rtakeWhile_imp member

/-- Text between two characters that stand is kept. -/
theorem strip_inside {before after : PyStr} {c : CodePoint} (first : ∃ d ∈ before, isSpace d = false)
    (last : ∃ d ∈ after, isSpace d = false) : strip (before ++ c :: after) =
      before.dropWhile isSpace ++ c :: after.rdropWhile isSpace := by
  have stands (text : PyStr) (some : ∃ d ∈ text, isSpace d = false) :
      (text.dropWhile isSpace).isEmpty = false := by
    obtain ⟨d,member,plain⟩ := some
    rw [List.isEmpty_eq_false_iff,ne_eq,List.dropWhile_eq_nil_iff]
    intro all
    rw [all d member] at plain
    cases plain
  have backwards : ∃ d ∈ after.reverse, isSpace d = false := by simpa using last
  rw [strip,List.dropWhile_append,stands before first]
  simp only [Bool.false_eq_true,if_false,List.rdropWhile,List.reverse_append,List.reverse_cons,
    List.append_assoc]
  rw [List.dropWhile_append,stands _ backwards]
  simp

theorem strip_head {s rest : PyStr} {c : CodePoint} (split : strip s = c :: rest) :
    isSpace c = false := by
  have begins : c :: rest <+: s.dropWhile isSpace := split ▸ List.rdropWhile_prefix _ _
  obtain ⟨more,same⟩ := begins
  have stands := List.head?_dropWhile_not isSpace s
  rw [← same] at stands
  exact stands

theorem strip_last {s rest : PyStr} {c : CodePoint} (split : strip s = rest ++ [c]) :
    isSpace c = false := by
  have proper : strip s ≠ [] := by simp [split]
  have stands := List.rdropWhile_last_not isSpace (s.dropWhile isSpace) proper
  have last : (strip s).getLast proper = c := by simp [split]
  simp only [strip] at last
  rw [last] at stands
  simpa using stands

/-! ## `repr` -/

/-- Which characters `str.isprintable` takes for printable. Surrogates are not. -/
structure Unicode where
  printable : CodePoint → Bool
  surrogate : ∀ c, c.isSurrogate = true → printable c = false

theorem surrogate_only (c : CodePoint) (surrogate : c.isSurrogate = true) :
    (!c.isSurrogate) = false := by
  rw [surrogate]; rfl

/-- Everything but the surrogates is taken for printable. -/
def Unicode.widest : Unicode := ⟨fun c => !c.isSurrogate,surrogate_only⟩

variable (unicode : Unicode)

def reprChar (quote c : CodePoint) : PyStr :=
  if c = quote ∨ c = 0x5c then [0x5c,c]
  else if c = 0x09 then ofString "\\t" else if c = 0x0a then ofString "\\n"
  else if c = 0x0d then ofString "\\r"
  else if c < 0x20 ∨ c = 0x7f then ofString "\\x" ++ hex 2 c
  else if c < 0x7f ∨ unicode.printable c then [c]
  else if c ≤ 0xff then ofString "\\x" ++ hex 2 c
  else if c ≤ 0xffff then ofString "\\u" ++ hex 4 c
  else ofString "\\U" ++ hex 8 c

def reprQuote (s : PyStr) : CodePoint := if 0x27 ∈ s ∧ 0x22 ∉ s then 0x22 else 0x27

def repr (s : PyStr) : PyStr :=
  [reprQuote s] ++ s.flatMap (reprChar unicode (reprQuote s)) ++ [reprQuote s]

theorem ascii_isSurrogate {c : CodePoint} (low : c < 0x80) : c.isSurrogate = false := by
  simp only [CodePoint.isSurrogate,Bool.and_eq_false_iff,decide_eq_false_iff_not,Fin.not_le]
  exact .inl (Nat.lt_trans low (by decide))

theorem reprChar_encodes {quote c : CodePoint} (low : quote < 0x80) :
    (reprChar unicode quote c).encodes = true := by
  simp only [reprChar]
  split_ifs with special _ _ _ _ kept
  · have small : c < 0x80 := by
      rcases special with rfl | rfl
      · exact low
      · decide
    simp [encodes,ascii_isSurrogate small]
    decide
  · simp
  · simp
  · simp
  · simp
  · have plain : c.isSurrogate = false := by
      rcases kept with low | printable
      · exact ascii_isSurrogate (Nat.lt_trans low (by decide))
      · by_contra surrogate
        rw [unicode.surrogate c (by simpa using surrogate)] at printable
        cases printable
    simp [encodes,plain]
  · simp
  · simp
  · simp

/-- A `repr` has no surrogate in it. -/
@[simp] theorem repr_encodes (s : PyStr) : (repr unicode s).encodes = true := by
  have low : reprQuote s < 0x80 := by
    simp only [reprQuote]
    split <;> decide
  have quote : encodes [reprQuote s] = true := by simp [encodes,ascii_isSurrogate low]
  rw [repr,encodes_append,encodes_append,quote,encodes_flatMap]
  simp [reprChar_encodes unicode low]

/-! ## UTF-8 -/

/-- The character at the code point, where it has one. -/
def toChar (c : CodePoint) : Char := Char.ofNat c.val

theorem codePoint_toChar {c : CodePoint} (plain : c.isSurrogate = false) :
    (toChar c).codePoint = c := by
  have valid : Nat.isValidChar c.val := by
    simp only [CodePoint.isSurrogate,Bool.and_eq_false_iff,decide_eq_false_iff_not] at plain
    have low : ¬0xd800 ≤ c.val ∨ ¬c.val ≤ 0xdfff := plain
    have high := c.isLt
    simp only [Nat.isValidChar]
    omega
  have made : toChar c = Char.ofNatAux c.val valid := dif_pos valid
  rw [made]
  rfl

/-- `str.encode`, where it does not raise. -/
def utf8 (s : PyStr) : List UInt8 := s.flatMap fun c => String.utf8EncodeChar (toChar c)

@[simp] theorem utf8_nil : utf8 [] = [] := rfl

/-- `bytes.decode`. -/
def fromUtf8? (bytes : List UInt8) : Option PyStr :=
  bytes.toByteArray.utf8Decode?.map fun chars => chars.toList.map Char.codePoint

theorem chars_of_encodes {s : PyStr} (encodes : s.encodes = true) :
    s.map (fun c => (toChar c).codePoint) = s := by
  have same : ∀ c ∈ s, (toChar c).codePoint = id c := by
    intro c among
    exact codePoint_toChar (by simpa using List.all_eq_true.mp encodes c among)
  rw [List.map_congr_left same,List.map_id]

theorem fromUtf8_utf8 {s : PyStr} (encodes : s.encodes = true) : fromUtf8? (utf8 s) = some s := by
  have encoded : (utf8 s).toByteArray = (s.map toChar).utf8Encode := by
    simp [utf8,List.utf8Encode,List.flatMap_map]
  simp [fromUtf8?,encoded,Function.comp_def,chars_of_encodes encodes]

/-- What can be encoded is the text of a `String`. -/
theorem exists_ofString {s : PyStr} (encodes : s.encodes = true) : ∃ t, ofString t = s := by
  refine ⟨String.ofList (s.map toChar),?_⟩
  rw [ofString,String.toList_ofList,List.map_map]
  exact chars_of_encodes encodes

end PyStr
