import Mathlib.Algebra.Group.Nat.Defs
import GhostRunner.JsonText

/-! `json.loads` reads back what `json.dumps` writes, and what it reads can be written and read
again. -/
namespace Json

variable {reader : Reader}

/-! ## What stands before a text is read off it -/

/-- The text does not go on with such a character. -/
def Stops (p : CodePoint → Bool) (rest : PyStr) : Prop := ∀ c ∈ rest.head?, p c = false

theorem Stops.imp {p q : CodePoint → Bool} {rest : PyStr} (stops : Stops p rest)
    (weaker : ∀ c, q c = true → p c = true) : Stops q rest := by
  intro c head
  by_contra holds
  have := stops c head
  rw [weaker c (by simpa using holds)] at this
  cases this

theorem takeWhile_stops {p : CodePoint → Bool} {first rest : PyStr}
    (all : ∀ c ∈ first, p c = true) (stops : Stops p rest) :
    (first ++ rest).takeWhile p = first := by
  have none : rest.takeWhile p = [] := by
    cases rest with
    | nil => rfl
    | cons c rest => simp [stops c rfl]
  rw [List.takeWhile_append_of_pos all,none,List.append_nil]

theorem dropWhile_stops {p : CodePoint → Bool} {first rest : PyStr}
    (all : ∀ c ∈ first, p c = true) (stops : Stops p rest) :
    (first ++ rest).dropWhile p = rest := by
  rw [List.dropWhile_append_of_pos all]
  cases rest with
  | nil => rfl
  | cons c rest => simp [stops c rfl]

/-! ### Numbers -/

/-- Whether a number may go on with the character. -/
def goesOn (c : CodePoint) : Bool := isDigit c || c = 0x2e || c = 0x65 || c = 0x45

theorem isDigit_goesOn (c : CodePoint) (digit : isDigit c = true) : goesOn c = true := by
  simp [goesOn,digit]

theorem digit_not_sign {c : CodePoint} (digit : isDigit c = true) : isSign c = false := by
  have ends : isDigit 0x2b = false ∧ isDigit 0x2d = false := by decide
  by_contra sign
  simp only [isSign,Bool.not_eq_false,Bool.or_eq_true,decide_eq_true_eq] at sign
  rcases sign with rfl | rfl
  · rw [ends.1] at digit; cases digit
  · rw [ends.2] at digit; cases digit

theorem digit_not_minus {c : CodePoint} (digit : isDigit c = true) : isMinus c = false := by
  have := digit_not_sign digit
  simp only [isSign,Bool.or_eq_false_iff] at this
  exact this.2

/-- A sign that is there is read, and none that is not. -/
theorem scanSign_digits {sign digits : PyStr} {p : CodePoint → Bool}
    (signed : sign = [] ∨ ∃ c, sign = [c] ∧ p c = true) (digit : Digits digits)
    (plain : ∀ c, isDigit c = true → p c = false) (rest : PyStr) :
    scanSign p (sign ++ (digits ++ rest)) = (sign,digits ++ rest) := by
  obtain ⟨proper,all⟩ := digit
  cases digits with
  | nil => exact absurd rfl proper
  | cons d digits =>
    rcases signed with rfl | ⟨c,rfl,isSign⟩
    · simp [scanSign,plain d (all d (by simp))]
    · simp [scanSign,isSign]

theorem Literal.sign_cases (l : Literal) : l.sign = [] ∨ ∃ c, l.sign = [c] ∧ isMinus c = true := by
  by_cases minus : l.minus = true
  · exact .inr ⟨0x2d,by simp [Literal.sign,minus],by decide⟩
  · exact .inl (by simp [Literal.sign,minus])

theorem scanInteger_text {l : Literal} {rest : PyStr} (valid : l.Valid)
    (stops : Stops isDigit rest) :
    scanInteger (l.sign ++ (l.integer ++ rest)) = some (l.sign ++ l.integer,rest) := by
  have signed := scanSign_digits l.sign_cases valid.digits (fun c => digit_not_minus) rest
  obtain ⟨proper,all⟩ := valid.digits
  rw [scanInteger,signed]
  cases integer : l.integer with
  | nil => exact absurd integer proper
  | cons d digits =>
    rw [integer] at all
    have later : ∀ c ∈ digits, isDigit c = true := fun c member => all c (by simp [member])
    by_cases zero : d = 0x30
    · have single := valid.leading (by rw [integer,zero]; rfl)
      rw [integer] at single
      obtain ⟨-,rfl⟩ := List.cons_eq_cons.mp single
      simp [zero]
    · simp [zero,all d (by simp),takeWhile_stops later stops,dropWhile_stops later stops]

theorem scanFraction_text {l : Literal} {rest : PyStr} (valid : l.Valid)
    (stops : Stops (fun c => isDigit c || c = 0x2e) rest) :
    scanFraction (l.fraction ++ rest) = (l.fraction,rest) := by
  rcases valid.fraction with none | ⟨digits,text,proper,all⟩
  · rw [none,List.nil_append]
    match rest with
    | [] => rfl
    | [_] => rfl
    | p :: d :: rest =>
      have other := stops p rfl
      simp only [Bool.or_eq_false_iff,decide_eq_false_iff_not] at other
      simp [scanFraction,other.2]
  · have ends : Stops isDigit rest := stops.imp fun c digit => by simp [digit]
    cases digits with
    | nil => exact absurd rfl proper
    | cons d digits =>
      have later : ∀ c ∈ digits, isDigit c = true := fun c member => all c (by simp [member])
      simp [text,scanFraction,all d (by simp),takeWhile_stops later ends,
        dropWhile_stops later ends]

theorem scanExponent_text {l : Literal} {rest : PyStr} (valid : l.Valid)
    (stops : Stops goesOn rest) : scanExponent (l.exponent ++ rest) = (l.exponent,rest) := by
  rcases valid.exponent with none | ⟨e,sign,digits,text,letter,signed,digit⟩
  · rw [none,List.nil_append]
    cases rest with
    | nil => rfl
    | cons e rest =>
      have other := stops e rfl
      simp only [goesOn,Bool.or_eq_false_iff,decide_eq_false_iff_not] at other
      simp only [scanExponent]
      split
      · rfl
      · simp [other.1.2,other.2]
  · have scanned := scanSign_digits signed digit (fun c => digit_not_sign) rest
    have ends : Stops isDigit rest := stops.imp isDigit_goesOn
    rw [text]
    simp only [List.cons_append,List.append_assoc,scanExponent,scanned]
    rw [takeWhile_stops digit.2 ends,dropWhile_stops digit.2 ends]
    obtain ⟨proper,-⟩ := digit
    cases digits with
    | nil => exact absurd rfl proper
    | cons d digits => simp [letter]

/-- The end of the integer, of the fraction and of the exponent is where the next part begins. -/
theorem Literal.Valid.parts_stop {l : Literal} {rest : PyStr} (valid : l.Valid)
    (stops : Stops goesOn rest) : Stops isDigit (l.fraction ++ (l.exponent ++ rest)) ∧
      Stops (fun c => isDigit c || c = 0x2e) (l.exponent ++ rest) := by
  have exponent : Stops (fun c => isDigit c || c = 0x2e) (l.exponent ++ rest) := by
    rcases valid.exponent with none | ⟨e,sign,digits,text,letter,-⟩
    · rw [none,List.nil_append]
      refine stops.imp fun c own => ?_
      simp only [Bool.or_eq_true] at own
      simp only [goesOn,Bool.or_eq_true]
      exact .inl (.inl own)
    · intro c head
      rw [text] at head
      cases head
      rcases letter with rfl | rfl <;> decide
  refine ⟨?_,exponent⟩
  rcases valid.fraction with none | ⟨digits,text,-⟩
  · rw [none,List.nil_append]
    exact exponent.imp fun c digit => by simp [digit]
  · intro c head
    rw [text] at head
    cases head
    decide

theorem scanNumber_text {l : Literal} {rest : PyStr} (valid : l.Valid)
    (stops : Stops goesOn rest) : scanNumber (l.text ++ rest) =
      some ((l.sign ++ l.integer,l.fraction ++ l.exponent),rest) := by
  obtain ⟨first,second⟩ := valid.parts_stop stops
  have text : l.text ++ rest = l.sign ++ (l.integer ++ (l.fraction ++ (l.exponent ++ rest))) := by
    simp [Literal.text]
  rw [text,scanNumber,scanInteger_text valid first]
  simp [scanFraction_text valid second,scanExponent_text valid stops]

/-! ### Integers -/

theorem ofString_toString (n : Nat) :
    PyStr.ofString (toString n) = (Nat.toDigits 10 n).map Char.codePoint := by
  simp [PyStr.ofString]

theorem isDigit_codePoint {c : Char} (digit : c.isDigit = true) :
    isDigit c.codePoint = true ∧ c.codePoint.val - 0x30 = c.toNat - '0'.toNat := by
  simp only [Char.isDigit,Bool.and_eq_true,decide_eq_true_eq] at digit
  have low : (0x30 : Nat) ≤ c.toNat := digit.1
  have high : c.toNat ≤ (0x39 : Nat) := digit.2
  refine ⟨?_,rfl⟩
  simp only [isDigit,Bool.and_eq_true,decide_eq_true_eq]
  exact ⟨low,high⟩

theorem digits_toDigits (n : Nat) : Digits ((Nat.toDigits 10 n).map Char.codePoint) := by
  refine ⟨by simp,?_⟩
  intro c member
  obtain ⟨digit,among,rfl⟩ := List.mem_map.mp member
  exact (isDigit_codePoint (Nat.isDigit_of_mem_toDigits (by decide) (by decide) among)).1

/-- The digits of a number do not begin with 0, unless that is all. -/
theorem toDigits_leading (n : Nat) (zero : (Nat.toDigits 10 n).head? = some '0') :
    Nat.toDigits 10 n = ['0'] := by
  induction n using Nat.strongRecOn with
  | ind n ih =>
    rw [Nat.toDigits_eq_if (by decide)] at zero ⊢
    split at zero
    · next small =>
      rw [if_pos small]
      simp only [List.head?_cons,Option.some.injEq] at zero
      rw [zero]
    · next large =>
      rw [List.head?_append_of_ne_nil _ Nat.toDigits_ne_nil] at zero
      have head := ih (n / 10) (by omega) zero
      have value := @Nat.ofDigitChars_ten_toDigits (n / 10)
      rw [head] at value
      have none : n / 10 = 0 := value.symm.trans (by decide)
      omega

theorem digitsValue_toDigits (n : Nat) :
    digitsValue ((Nat.toDigits 10 n).map Char.codePoint) = n := by
  have step (chars : List Char) (digits : ∀ c ∈ chars, c.isDigit = true) (m : Nat) :
      (chars.map Char.codePoint).foldl (fun n d => 10 * n + (d.val - 0x30)) m =
        Nat.ofDigitChars 10 chars m := by
    induction chars generalizing m with
    | nil => simp
    | cons c chars ih =>
      rw [List.map_cons,List.foldl_cons,Nat.ofDigitChars_cons,
        (isDigit_codePoint (digits c (by simp))).2,ih (fun d member => digits d (by simp [member]))]
  rw [digitsValue,step _ (fun c member => Nat.isDigit_of_mem_toDigits (by decide) (by decide) member),
    Nat.ofDigitChars_ten_toDigits]

/-- The literal of an integer. -/
def intLiteral (n : Int) : Literal := ⟨n < 0,.ofString (toString n.natAbs),[],[]⟩

theorem intLiteral_valid (n : Int) : (intLiteral n).Valid := by
  refine ⟨?_,?_,.inl rfl,.inl rfl⟩
  · simp only [intLiteral,ofString_toString]
    exact digits_toDigits _
  · simp only [intLiteral,ofString_toString,List.head?_map,Option.map_eq_some_iff]
    rintro ⟨c,head,zero⟩
    have isZero : c = '0' := Char.toNat_inj.mp (congrArg (fun p : CodePoint => p.val) zero)
    rw [toDigits_leading _ (isZero ▸ head)]
    decide

theorem intLiteral_text (n : Int) : (intLiteral n).text = .ofString (toString n) := by
  rcases Int.natAbs_eq n with eq | eq
  · have positive : ¬n < 0 := by omega
    rw [Literal.text,Literal.sign]
    simp only [intLiteral,decide_eq_true_eq,if_neg positive,List.append_nil,List.nil_append]
    rw [eq]
    rfl
  · by_cases negative : n < 0
    · obtain ⟨m,rfl⟩ := Int.eq_negSucc_of_lt_zero negative
      have written : toString (Int.negSucc m) = "-" ++ toString (m + 1) := rfl
      rw [written,Literal.text,Literal.sign]
      simp [intLiteral,PyStr.ofString]
      decide
    · have : n = 0 := by omega
      subst n
      decide

theorem integerValue_text (n : Int) :
    integerValue ((intLiteral n).sign ++ (intLiteral n).integer) = n := by
  have scanned := scanSign_digits (intLiteral n).sign_cases (intLiteral_valid n).digits
    (fun c => digit_not_minus) []
  simp only [List.append_nil] at scanned
  rw [integerValue,scanned]
  have value : (digitsValue (intLiteral n).integer : Int) = n.natAbs := by
    simp only [intLiteral,ofString_toString,digitsValue_toDigits]
  by_cases negative : n < 0
  · simp only [Literal.sign,intLiteral,negative,decide_true,if_true] at value ⊢
    rw [value]
    omega
  · simp only [Literal.sign,intLiteral,negative,decide_false,Bool.false_eq_true,if_false] at value ⊢
    rw [value]
    omega

/-! ### Strings -/

theorem join_uncoded {spelled : List Spelled} (uncoded : ∀ u ∈ spelled, isHigh u = false) :
    join spelled = spelled.map Prod.fst := by
  induction spelled with
  | nil => rfl
  | cons u rest ih =>
    have later := ih fun v member => uncoded v (by simp [member])
    cases rest with
    | nil => rfl
    | cons v more =>
      rw [join,if_neg (by simp [uncoded u (by simp)]),later]
      rfl


/-- The code of a control character. -/
theorem hexCode_control (c : CodePoint) (control : c < 0x20) :
    ∃ h i j k, PyStr.hex 4 c = [h,i,j,k] ∧ hexCode h i j k = some c := by
  have all : ∀ n : Fin 0x20, ∃ h i j k,
      ((Nat.toDigits 16 n).leftpad 4 '0').map Char.codePoint = [h,i,j,k] ∧
        hexCode h i j k = some (Fin.ofNat 0x110000 n) := by
    intro n
    have four : (((Nat.toDigits 16 n).leftpad 4 '0').map Char.codePoint).length = 4 := by
      revert n; decide
    obtain ⟨h,i,j,k,digits⟩ := List.length_eq_four.mp four
    refine ⟨h,i,j,k,digits,?_⟩
    have value : ∀ n : Fin 0x20, ∀ text,
        ((Nat.toDigits 16 n).leftpad 4 '0').map Char.codePoint = text →
          (text[0]?.bind fun h => text[1]?.bind fun i => text[2]?.bind fun j =>
            text[3]?.bind fun k => hexCode h i j k) = some (Fin.ofNat 0x110000 n) := by
      rintro n text rfl
      revert n; decide
    simpa using value n _ digits
  obtain ⟨h,i,j,k,digits,code⟩ := all ⟨c.val,control⟩
  have back : Fin.ofNat 0x110000 c.val = c := Fin.ofNat_val_eq_self c
  refine ⟨h,i,j,k,?_,code.trans (congrArg some back)⟩
  rw [← digits]
  simp [PyStr.hex,PyStr.ofString]

/-- What is scanned before the rest. -/
def spellFirst (u : Spelled) (scanned : Option (List Spelled × PyStr)) :
    Option (List Spelled × PyStr) := scanned.map fun found => (u :: found.1,found.2)

theorem scanSpelled_plain {c : CodePoint} (notQuote : c ≠ 0x22) (notSlash : c ≠ 0x5c)
    (high : ¬c < 0x20) (rest : PyStr) :
    scanSpelled (c :: rest) = spellFirst (c,false) (scanSpelled rest) := by
  rw [scanSpelled.eq_def]
  simp only [if_neg notQuote,if_neg notSlash,if_neg high]
  cases scanSpelled rest <;> rfl

theorem scanSpelled_letter {c e : CodePoint} (notCode : e ≠ 0x75) (stands : unescape e = some c)
    (rest : PyStr) : scanSpelled (0x5c :: e :: rest) = spellFirst (c,false) (scanSpelled rest) := by
  have notQuote : (0x5c : CodePoint) ≠ 0x22 := by decide
  rw [scanSpelled.eq_def]
  simp only [if_neg notQuote,if_true,if_neg notCode,stands]
  cases scanSpelled rest <;> rfl

theorem scanSpelled_code {c h i j k : CodePoint} (code : hexCode h i j k = some c) (rest : PyStr) :
    scanSpelled (0x5c :: 0x75 :: h :: i :: j :: k :: rest) =
      spellFirst (c,true) (scanSpelled rest) := by
  have notQuote : (0x5c : CodePoint) ≠ 0x22 := by decide
  rw [scanSpelled.eq_def]
  simp only [if_neg notQuote,if_true,code]
  cases scanSpelled rest <;> rfl

/-- A character is read as it was written, as a code only if it is a control character. -/
theorem scanSpelled_escape (c : CodePoint) (rest : PyStr) :
    ∃ coded : Bool, (coded = true → c < 0x20) ∧
      scanSpelled (escape c ++ rest) = spellFirst (c,coded) (scanSpelled rest) := by
  have written (s : String) (e : CodePoint) (text : PyStr.ofString s = [0x5c,e])
      (notCode : e ≠ 0x75) (stands : unescape e = some c) : ∃ coded : Bool,
      (coded = true → c < 0x20) ∧ scanSpelled (PyStr.ofString s ++ rest) =
        spellFirst (c,coded) (scanSpelled rest) :=
    ⟨false,by simp,by rw [text]; exact scanSpelled_letter notCode stands rest⟩
  simp only [escape]
  split_ifs with quote slash eq eq eq eq eq control
  · exact written _ 0x22 (by decide) (by decide) (by rw [quote]; decide)
  · exact written _ 0x5c (by decide) (by decide) (by rw [slash]; decide)
  · exact written _ 0x62 (by decide) (by decide) (by rw [eq]; decide)
  · exact written _ 0x66 (by decide) (by decide) (by rw [eq]; decide)
  · exact written _ 0x6e (by decide) (by decide) (by rw [eq]; decide)
  · exact written _ 0x72 (by decide) (by decide) (by rw [eq]; decide)
  · exact written _ 0x74 (by decide) (by decide) (by rw [eq]; decide)
  · obtain ⟨h,i,j,k,digits,code⟩ := hexCode_control c control
    have marker : PyStr.ofString "\\u" = [0x5c,0x75] := by decide
    exact ⟨true,fun _ => control,by rw [marker,digits]; exact scanSpelled_code code rest⟩
  · exact ⟨false,by simp,scanSpelled_plain quote slash control rest⟩

theorem scanSpelled_quoted (s rest : PyStr) :
    ∃ spelled, scanSpelled (s.flatMap escape ++ 0x22 :: rest) = some (spelled,rest) ∧
      spelled.map Prod.fst = s ∧ ∀ u ∈ spelled, isHigh u = false := by
  induction s with
  | nil =>
    refine ⟨[],?_,rfl,by simp⟩
    rw [List.flatMap_nil,List.nil_append,scanSpelled.eq_def]
    rfl
  | cons c s ih =>
    obtain ⟨spelled,scanned,text,uncoded⟩ := ih
    obtain ⟨coded,control,first⟩ := scanSpelled_escape c (s.flatMap escape ++ 0x22 :: rest)
    refine ⟨(c,coded) :: spelled,?_,by simp [text],?_⟩
    · rw [List.flatMap_cons,List.append_assoc,first,scanned]
      rfl
    · intro u member
      rcases List.mem_cons.mp member with rfl | later
      · by_contra high
        simp only [isHigh,Bool.not_eq_false,Bool.and_eq_true,decide_eq_true_eq] at high
        have : c.val < 0x20 := control high.1.1
        have : 0xd800 ≤ c.val := high.1.2
        omega
      · exact uncoded u later

/-- A string in quotes is read back. -/
theorem scanString_quote (s rest : PyStr) :
    ∃ tail, quote s ++ rest = 0x22 :: tail ∧ scanString tail = .ok (s,rest) := by
  obtain ⟨spelled,scanned,text,uncoded⟩ := scanSpelled_quoted s rest
  refine ⟨s.flatMap escape ++ 0x22 :: rest,?_,?_⟩
  · have mark : PyStr.ofString "\"" = [0x22] := by decide
    simp [quote,mark]
  · rw [scanString,scanned]
    simp [join_uncoded uncoded,text]

/-! ## What `dumps` writes is read back -/

/-- The value can be read again in that depth: its integers are not too long, its floats are
floats, no key stands twice. -/
def Readable (reader : Reader) : Nat → Json → Prop
  | _,.null | _,.bool _ | _,.str _ => True
  | _,.int n => (toString n.natAbs).length ≤ reader.maxDigits
  | _,.float repr => Repr reader.float repr
  | 0,.arr _ | 0,.obj _ => False
  | depth + 1,.arr items => ∀ item ∈ items, Readable reader depth item
  | depth + 1,.obj members => (members.map Prod.fst).Nodup ∧
      ∀ member ∈ members, Readable reader depth member.2

/-- A comma and a colon, with white space behind them. -/
structure Separators.Plain (separators : Separators) : Prop where
  item : ∃ space : PyStr, PyStr.ofString separators.item = 0x2c :: space ∧
    ∀ c ∈ space, isWhitespace c = true
  key : ∃ space : PyStr, PyStr.ofString separators.key = 0x3a :: space ∧
    ∀ c ∈ space, isWhitespace c = true

theorem compact_plain : compact.Plain := ⟨⟨[],by decide,by simp⟩,⟨[],by decide,by simp⟩⟩

theorem spaced_plain : spaced.Plain :=
  ⟨⟨[0x20],by decide,by simp [isWhitespace]⟩,⟨[0x20],by decide,by simp [isWhitespace]⟩⟩

theorem skip_space {space s : PyStr} (all : ∀ c ∈ space, isWhitespace c = true)
    (begins : Stops isWhitespace s) : skip (space ++ s) = s := dropWhile_stops all begins

theorem skip_stops {s : PyStr} (begins : Stops isWhitespace s) : skip s = s := by
  have skipped : skip ([] ++ s) = s := skip_space (by simp) begins
  exact skipped

/-- The scanner reads what stands before the text, which does not begin with white space or with
a closing bracket. -/
structure Reads {α : Type} (scan : Scan α) (written : PyStr) (value : α) : Prop where
  begins : ∃ c tail, written = c :: tail ∧ isWhitespace c = false ∧ c ≠ 0x5d ∧ c ≠ 0x7d
  reads : ∀ rest, Stops goesOn rest → scan (written ++ rest) = .ok (value,rest)

theorem Reads.skips {α : Type} {scan : Scan α} {written : PyStr} {value : α}
    (reads : Reads scan written value) {space : PyStr} (all : ∀ c ∈ space, isWhitespace c = true)
    (rest : PyStr) : skip (space ++ (written ++ rest)) = written ++ rest := by
  obtain ⟨c,tail,rfl,visible,-⟩ := reads.begins
  exact skip_space all fun d head => by cases head; exact visible

/-- Elements as they are written, with a comma and white space between them. -/
def separated {α : Type} (write : α → PyStr) (separator : PyStr) : List α → PyStr
  | [] => []
  | [element] => write element
  | element :: rest => write element ++ separator ++ separated write separator rest

theorem close_stops {close : CodePoint} (closes : close = 0x5d ∨ close = 0x7d) (rest : PyStr) :
    Stops goesOn (close :: rest) ∧ Stops isWhitespace (close :: rest) ∧ close ≠ 0x2c := by
  obtain ⟨ends,visible,other⟩ :
      goesOn close = false ∧ isWhitespace close = false ∧ close ≠ 0x2c := by
    rcases closes with rfl | rfl <;> decide
  exact ⟨fun c head => by cases head; exact ends,fun c head => by cases head; exact visible,other⟩

theorem comma_stops (rest : PyStr) :
    Stops goesOn (0x2c :: rest) ∧ Stops isWhitespace (0x2c :: rest) := by
  have plain : goesOn 0x2c = false ∧ isWhitespace 0x2c = false := by decide
  exact ⟨fun c head => by cases head; exact plain.1,fun c head => by cases head; exact plain.2⟩

theorem scanSeparated_separated {α : Type} {scan : Scan α} {write : α → PyStr}
    {separator space : PyStr} {close : CodePoint} (comma : separator = 0x2c :: space)
    (all : ∀ c ∈ space, isWhitespace c = true) (closes : close = 0x5d ∨ close = 0x7d)
    {elements : List α} (some : elements ≠ [])
    (reads : ∀ element ∈ elements, Reads scan (write element) element) (rest : PyStr) {fuel : Nat}
    (enough : elements.length ≤ fuel) :
    scanSeparated scan close fuel (separated write separator elements ++ close :: rest) =
      .ok (elements,rest) := by
  obtain ⟨ends,visible,other⟩ := close_stops closes rest
  induction elements generalizing fuel with
  | nil => exact absurd rfl some
  | cons element elements ih =>
    obtain ⟨fuel,rfl⟩ : ∃ n, fuel = n + 1 := ⟨fuel - 1,by simp at enough; omega⟩
    have first := reads element (by simp)
    cases elements with
    | nil =>
      have scanned := first.reads _ ends
      simp only [separated,scanSeparated,scanned,bind,Except.bind,skip_stops visible]
      rw [if_pos trivial]
      rfl
    | cons next more =>
      have long : (next :: more).length ≤ fuel := by simpa using enough
      have later := ih (by simp) (fun e member => reads e (by simp [member])) long
      obtain ⟨stops,begins⟩ := comma_stops
        (space ++ (separated write separator (next :: more) ++ close :: rest))
      have text : separated write separator (element :: next :: more) ++ close :: rest =
          write element ++ 0x2c ::
            (space ++ (separated write separator (next :: more) ++ close :: rest)) := by
        simp [separated,comma]
      have begun : skip (space ++ (separated write separator (next :: more) ++ close :: rest)) =
          separated write separator (next :: more) ++ close :: rest := by
        have second := reads next (by simp)
        cases more with
        | nil => exact second.skips all _
        | cons last more =>
          simp only [separated,List.append_assoc]
          exact second.skips all _
      rw [text]
      simp only [scanSeparated,first.reads _ stops,bind,Except.bind,skip_stops begins]
      rw [if_neg (Ne.symm other),if_pos trivial,begun,later]
      rfl

/-- Each element takes some of the text. -/
theorem length_separated {α : Type} {scan : Scan α} {write : α → PyStr} (separator : PyStr)
    {elements : List α} (reads : ∀ element ∈ elements, Reads scan (write element) element) :
    elements.length ≤ (separated write separator elements).length := by
  induction elements with
  | nil => simp [separated]
  | cons element elements ih =>
    have later := ih fun next member => reads next (by simp [member])
    obtain ⟨c,tail,own,-⟩ := (reads element (by simp)).begins
    cases elements with
    | nil => simp [separated,own]
    | cons next more =>
      simp only [separated,own,List.length_append,List.length_cons] at later ⊢
      omega

/-- All elements between brackets. -/
theorem scanElements_separated {α : Type} {scan : Scan α} {write : α → PyStr}
    {separator space : PyStr} {close : CodePoint} (comma : separator = 0x2c :: space)
    (all : ∀ c ∈ space, isWhitespace c = true) (closes : close = 0x5d ∨ close = 0x7d)
    {elements : List α} (reads : ∀ element ∈ elements, Reads scan (write element) element)
    (rest : PyStr) :
    scanElements scan close (separated write separator elements ++ close :: rest) =
      .ok (elements,rest) := by
  obtain ⟨-,visible,-⟩ := close_stops closes rest
  cases elements with
  | nil => simp [separated,scanElements,skip_stops visible]
  | cons element elements =>
    have first := reads element (by simp)
    obtain ⟨c,tail,written,plain,notSquare,notCurly⟩ := first.begins
    obtain ⟨text,begun⟩ : ∃ more, separated write separator (element :: elements) ++ close :: rest =
        c :: more := by
      cases elements with
      | nil => exact ⟨_,by rw [separated,written]; rfl⟩
      | cons next more => exact ⟨_,by simp only [separated,written,List.cons_append]; rfl⟩
    have other : c ≠ close := by
      rcases closes with rfl | rfl
      · exact notSquare
      · exact notCurly
    have long : (element :: elements).length ≤ (c :: text).length := by
      have enough := length_separated separator reads
      rw [← begun,List.length_append]
      omega
    rw [scanElements,begun,skip_stops (fun d head => by cases head; exact plain)]
    simp only [if_neg other]
    rw [← begun]
    exact scanSeparated_separated comma all closes (by simp) reads rest (begun ▸ long)

/-- The style of `dumps`. -/
def dumpStyle (separators : Separators) : Style where
  null := "null"
  yes := "true"
  no := "false"
  float := floatText
  str := quote
  item := separators.item
  key := separators.key

theorem renderItems_separated (style : Style) (items : List Json) :
    renderItems style items = separated (render style) (.ofString style.item) items := by
  induction items with
  | nil => rfl
  | cons item items ih =>
    cases items with
    | nil => rfl
    | cons next more => simp only [renderItems,separated,ih]

def renderMember (style : Style) (member : PyStr × Json) : PyStr :=
  style.str member.1 ++ .ofString style.key ++ render style member.2

theorem renderMembers_separated (style : Style) (members : List (PyStr × Json)) :
    renderMembers style members =
      separated (renderMember style) (.ofString style.item) members := by
  induction members with
  | nil => rfl
  | cons member members ih =>
    cases members with
    | nil => rfl
    | cons next more => simp only [renderMembers,separated,ih,renderMember]

theorem put_new {members : List (PyStr × Json)} {key : PyStr} (value : Json)
    (other : key ∉ members.map Prod.fst) : put members key value = members ++ [(key,value)] :=
  if_neg other

/-- Members with different keys are a dict already. -/
theorem dictOf_nodup {members : List (PyStr × Json)} (different : (members.map Prod.fst).Nodup) :
    dictOf members = members := by
  have grows (first rest : List (PyStr × Json))
      (different : ((first ++ rest).map Prod.fst).Nodup) :
      rest.foldl (fun dict member => put dict member.1 member.2) first = first ++ rest := by
    induction rest generalizing first with
    | nil => simp
    | cons member rest ih =>
      have other : member.1 ∉ first.map Prod.fst := by
        rw [List.map_append,List.map_cons,List.nodup_append] at different
        intro member'
        exact different.2.2 _ member' member.1 (by simp) rfl
      have longer := ih (first ++ [member]) (by simpa using different)
      rw [List.foldl_cons,put_new _ other,longer]
      simp
  simpa [dictOf] using grows [] members (by simpa using different)

/-! ### Values -/

theorem constants_eq : constants = [([0x6e,0x75,0x6c,0x6c],null),([0x74,0x72,0x75,0x65],bool true),
    ([0x66,0x61,0x6c,0x73,0x65],bool false),([0x4e,0x61,0x4e],float "nan"),
    ([0x49,0x6e,0x66,0x69,0x6e,0x69,0x74,0x79],float "inf"),
    ([0x2d,0x49,0x6e,0x66,0x69,0x6e,0x69,0x74,0x79],float "-inf")] := rfl

/-- None of the constants is the beginning of another. -/
theorem scanConstant_word {word : PyStr} {value : Json} (among : (word,value) ∈ constants)
    (rest : PyStr) : scanConstant (word ++ rest) = some (value,rest) := by
  simp only [constants_eq,List.mem_cons,Prod.mk.injEq,List.not_mem_nil,or_false] at among
  rcases among with ⟨rfl,rfl⟩ | ⟨rfl,rfl⟩ | ⟨rfl,rfl⟩ | ⟨rfl,rfl⟩ | ⟨rfl,rfl⟩ | ⟨rfl,rfl⟩ <;>
    simp [scanConstant,constants_eq,afterWord]

theorem digit_ne {c d : CodePoint} (digit : isDigit c = true) (other : isDigit d = false) :
    c ≠ d := by
  rintro rfl
  rw [digit] at other
  cases other

/-- A number begins like no other value. -/
theorem Literal.Valid.begins {l : Literal} (valid : l.Valid) :
    ∃ c tail, l.text = c :: tail ∧ (isDigit c = true ∨ c = 0x2d ∧ ∃ d more, tail = d :: more ∧
      isDigit d = true) := by
  obtain ⟨proper,all⟩ := valid.digits
  cases integer : l.integer with
  | nil => exact absurd integer proper
  | cons d digits =>
    have digit := all d (by simp [integer])
    cases minus : l.minus with
    | true =>
      exact ⟨0x2d,_,by simp [Literal.text,Literal.sign,minus,integer]; rfl,
        .inr ⟨rfl,d,_,rfl,digit⟩⟩
    | false =>
      exact ⟨d,_,by simp [Literal.text,Literal.sign,minus,integer]; rfl,.inl digit⟩

theorem scanConstant_number {l : Literal} (valid : l.Valid) (rest : PyStr) :
    scanConstant (l.text ++ rest) = none := by
  obtain ⟨c,tail,text,digit | ⟨rfl,d,more,rfl,digit⟩⟩ := valid.begins
  · have differs (d : CodePoint) (other : isDigit d = false) : ¬d = c := (digit_ne digit other).symm
    rw [text]
    simp [scanConstant,constants_eq,afterWord,differs 0x6e (by decide),differs 0x74 (by decide),
      differs 0x66 (by decide),differs 0x4e (by decide),differs 0x49 (by decide),
      differs 0x2d (by decide)]
  · have differs : ¬(0x49 : CodePoint) = d := (digit_ne digit (by decide)).symm
    rw [text]
    simp [scanConstant,constants_eq,afterWord,differs]

section
variable {container : CodePoint → PyStr → Except Fault (Json × PyStr)}

theorem scanWith_number {l : Literal} (valid : l.Valid) (rest : PyStr) :
    scanWith reader container (l.text ++ rest) = scanNumeral reader (l.text ++ rest) := by
  have none := scanConstant_number valid rest
  obtain ⟨c,tail,text,start⟩ := valid.begins
  have plain : c ≠ 0x22 ∧ c ≠ 0x5b ∧ c ≠ 0x7b := by
    rcases start with digit | ⟨rfl,-⟩
    · exact ⟨digit_ne digit (by decide),digit_ne digit (by decide),digit_ne digit (by decide)⟩
    · decide
  rw [text,List.cons_append] at none ⊢
  simp [scanWith,plain,none]

theorem number_begins {l : Literal} (valid : l.Valid) :
    ∃ c tail, l.text = c :: tail ∧ isWhitespace c = false ∧ c ≠ 0x5d ∧ c ≠ 0x7d := by
  obtain ⟨c,tail,text,start⟩ := valid.begins
  refine ⟨c,tail,text,?_⟩
  rcases start with digit | ⟨rfl,-⟩
  · have visible : isWhitespace c = false := by
      simp [isWhitespace,digit_ne digit (show isDigit 0x20 = false by decide),
        digit_ne digit (show isDigit 0x09 = false by decide),
        digit_ne digit (show isDigit 0x0a = false by decide),
        digit_ne digit (show isDigit 0x0d = false by decide)]
    exact ⟨visible,digit_ne digit (by decide),digit_ne digit (by decide)⟩
  · decide

theorem reads_int {n : Int} (short : (toString n.natAbs).length ≤ reader.maxDigits) :
    Reads (scanWith reader container) (.ofString (toString n)) (.int n) := by
  have valid := intLiteral_valid n
  rw [← intLiteral_text]
  refine ⟨number_begins valid,fun rest stops => ?_⟩
  have split := scanSign_digits (intLiteral n).sign_cases valid.digits (fun c => digit_not_minus) []
  simp only [List.append_nil] at split
  have fits : ¬reader.maxDigits < (intLiteral n).integer.length := by
    rw [← String.length_toList] at short
    simpa [intLiteral,PyStr.ofString] using short
  have whole : (intLiteral n).fraction ++ (intLiteral n).exponent = [] := rfl
  rw [scanWith_number valid,scanNumeral,scanNumber_text valid stops,whole]
  simp only [split,if_neg fits,integerValue_text]

theorem reads_constant {word : PyStr} {value : Json} (among : (word,value) ∈ constants) :
    Reads (scanWith reader container) word value := by
  have begins : ∃ c tail, word = c :: tail ∧ isWhitespace c = false ∧ c ≠ 0x5d ∧ c ≠ 0x7d ∧
      c ≠ 0x22 ∧ c ≠ 0x5b ∧ c ≠ 0x7b := by
    simp only [constants_eq,List.mem_cons,Prod.mk.injEq,List.not_mem_nil,or_false] at among
    rcases among with ⟨rfl,-⟩ | ⟨rfl,-⟩ | ⟨rfl,-⟩ | ⟨rfl,-⟩ | ⟨rfl,-⟩ | ⟨rfl,-⟩ <;>
      exact ⟨_,_,rfl,by decide⟩
  obtain ⟨c,tail,text,visible,notSquare,notCurly,plain⟩ := begins
  refine ⟨⟨c,tail,text,visible,notSquare,notCurly⟩,fun rest _ => ?_⟩
  have found := scanConstant_word among rest
  rw [text,List.cons_append] at found ⊢
  simp [scanWith,plain,found]

/-- No number is written like a float that is not finite. -/
theorem floatText_literal {l : Literal} {repr : String} (valid : l.Valid)
    (text : l.text = .ofString repr) : floatText repr = repr := by
  obtain ⟨c,tail,begins,start⟩ := valid.begins
  rw [text] at begins
  have notInf : repr ≠ "inf" := by
    rintro rfl
    cases begins
    rcases start with digit | ⟨minus,-⟩
    · exact absurd digit (by decide)
    · exact absurd minus (by decide)
  have notMinusInf : repr ≠ "-inf" := by
    rintro rfl
    cases begins
    rcases start with digit | ⟨-,d,more,rest,digit⟩
    · exact absurd digit (by decide)
    · cases rest
      exact absurd digit (by decide)
  have notNan : repr ≠ "nan" := by
    rintro rfl
    cases begins
    rcases start with digit | ⟨minus,-⟩
    · exact absurd digit (by decide)
    · exact absurd minus (by decide)
  simp [floatText,notInf,notMinusInf,notNan]

theorem reads_float {repr : String} (float : Repr reader.float repr) :
    Reads (scanWith reader container) (.ofString (floatText repr)) (.float repr) := by
  rcases float with rfl | rfl | rfl | ⟨l,valid,more,text,same⟩
  · exact reads_constant (by rw [constants_eq]; simp; decide)
  · exact reads_constant (by rw [constants_eq]; simp; decide)
  · exact reads_constant (by rw [constants_eq]; simp; decide)
  · rw [floatText_literal valid text,← text]
    refine ⟨number_begins valid,fun rest stops => ?_⟩
    have whole : l.sign ++ l.integer ++ (l.fraction ++ l.exponent) = l.text := rfl
    rw [scanWith_number valid,scanNumeral,scanNumber_text valid stops]
    split
    · next found => cases found
    · next found =>
      simp only [Option.some.injEq,Prod.mk.injEq] at found
      exact absurd found.1.2 more
    · next found =>
      simp only [Option.some.injEq,Prod.mk.injEq] at found
      obtain ⟨⟨rfl,rfl⟩,rfl⟩ := found
      rw [whole,same]

theorem reads_str (s : PyStr) : Reads (scanWith reader container) (quote s) (.str s) := by
  refine ⟨?_,fun rest _ => ?_⟩
  · obtain ⟨tail,text,-⟩ := scanString_quote s []
    exact ⟨0x22,tail,by simpa using text,by decide⟩
  · obtain ⟨tail,text,scanned⟩ := scanString_quote s rest
    rw [text]
    simp [scanWith,scanned,Except.map]

theorem reads_arr {scan : Scan Json} {separators : Separators} (plain : separators.Plain)
    {items : List Json}
    (reads : ∀ item ∈ items, Reads scan (written separators item) item) :
    Reads (scanWith reader (scanContainer scan)) (written separators (.arr items)) (.arr items) := by
  have text : written separators (.arr items) =
      0x5b :: (separated (written separators) (.ofString separators.item) items ++ [0x5d]) := by
    have items_eq := renderItems_separated (dumpStyle separators) items
    have opening : PyStr.ofString "[" = [0x5b] := by decide
    have closing : PyStr.ofString "]" = [0x5d] := by decide
    change .ofString "[" ++ renderItems (dumpStyle separators) items ++ .ofString "]" = _
    rw [items_eq,opening,closing]
    rfl
  obtain ⟨space,comma,all⟩ := plain.item
  rw [text]
  refine ⟨⟨0x5b,_,rfl,by decide⟩,fun rest _ => ?_⟩
  have scanned := scanElements_separated comma all (.inl rfl) reads rest
  have notQuote : (0x5b : CodePoint) ≠ 0x22 := by decide
  simp only [List.cons_append,List.append_assoc,List.nil_append,scanWith,if_neg notQuote]
  simp only [scanContainer,scanned]
  rfl

theorem reads_member {scan : Scan Json} {separators : Separators} (plain : separators.Plain)
    {member : PyStr × Json} (reads : Reads scan (written separators member.2) member.2) :
    Reads (scanMember scan) (renderMember (dumpStyle separators) member) member := by
  obtain ⟨space,colon,all⟩ := plain.key
  obtain ⟨key,value⟩ := member
  have whole (rest : PyStr) : renderMember (dumpStyle separators) (key,value) ++ rest =
      quote key ++ 0x3a :: (space ++ (written separators value ++ rest)) := by
    have text : renderMember (dumpStyle separators) (key,value) =
        quote key ++ .ofString separators.key ++ written separators value := rfl
    simp [text,colon]
  constructor
  · obtain ⟨tail,text,-⟩ := scanString_quote key (0x3a :: (space ++ (written separators value ++ [])))
    have begun := whole []
    rw [List.append_nil,text] at begun
    exact ⟨0x22,tail,begun,by decide⟩
  · intro rest stops
    obtain ⟨tail,text,scanned⟩ := scanString_quote key
      (0x3a :: (space ++ (written separators value ++ rest)))
    have begins : Stops isWhitespace (0x3a :: (space ++ (written separators value ++ rest))) :=
      fun c head => by cases head; decide
    rw [whole,text]
    simp only [scanMember,if_true,scanned,bind,Except.bind,skip_stops begins,reads.skips all]
    simp only [reads.reads rest stops]
    rfl

theorem reads_obj {scan : Scan Json} {separators : Separators} (plain : separators.Plain)
    {members : List (PyStr × Json)} (different : (members.map Prod.fst).Nodup)
    (reads : ∀ member ∈ members, Reads scan (written separators member.2) member.2) :
    Reads (scanWith reader (scanContainer scan)) (written separators (.obj members))
      (.obj members) := by
  have text : written separators (.obj members) =
      0x7b :: (separated (renderMember (dumpStyle separators)) (.ofString separators.item) members ++
        [0x7d]) := by
    have members_eq := renderMembers_separated (dumpStyle separators) members
    have opening : PyStr.ofString "\x7b" = [0x7b] := by decide
    have closing : PyStr.ofString "\x7d" = [0x7d] := by decide
    change .ofString "\x7b" ++ renderMembers (dumpStyle separators) members ++
      .ofString "\x7d" = _
    rw [members_eq,opening,closing]
    rfl
  obtain ⟨space,comma,all⟩ := plain.item
  rw [text]
  refine ⟨⟨0x7b,_,rfl,by decide⟩,fun rest _ => ?_⟩
  have scanned := scanElements_separated comma all (.inr rfl)
    (fun member among => reads_member plain (reads member among)) rest
  have notQuote : (0x7b : CodePoint) ≠ 0x22 := by decide
  have notSquare : (0x7b : CodePoint) ≠ 0x5b := by decide
  simp only [List.cons_append,List.append_assoc,List.nil_append,scanWith,if_neg notQuote]
  simp only [scanContainer,if_neg notSquare,scanned]
  simp only [if_pos,or_true,bind,Except.bind,dictOf_nodup different]
  rfl

/-- A value without elements is read at every depth. -/
theorem reads_leaf {separators : Separators} {value : Json} {depth : Nat}
    (readable : Readable reader depth value) (notArr : ∀ items, value ≠ .arr items)
    (notObj : ∀ members, value ≠ .obj members) :
    Reads (scanWith reader container) (written separators value) value := by
  have word (text : String) {value : Json} (among : (PyStr.ofString text,value) ∈ constants) :
      Reads (scanWith reader container) (PyStr.ofString text) value := reads_constant among
  cases value with
  | null => exact word "null" (by rw [constants_eq]; simp; decide)
  | bool b =>
    cases b with
    | true => exact word "true" (by rw [constants_eq]; simp; decide)
    | false => exact word "false" (by rw [constants_eq]; simp; decide)
  | int n => exact reads_int (by simpa [Readable] using readable)
  | float repr => exact reads_float (by simpa [Readable] using readable)
  | str s => exact reads_str s
  | arr items => exact absurd rfl (notArr items)
  | obj members => exact absurd rfl (notObj members)

end

/-- What is written is read back at every depth that suffices. -/
theorem reads_written {separators : Separators} (plain : separators.Plain) (depth : Nat)
    (value : Json) (readable : Readable reader depth value) :
    Reads (scanOnce reader depth) (written separators value) value := by
  induction depth generalizing value with
  | zero =>
    refine reads_leaf readable ?_ ?_
    · rintro items rfl
      simp [Readable] at readable
    · rintro members rfl
      simp [Readable] at readable
  | succ depth ih =>
    cases value with
    | arr items => exact reads_arr plain fun item member => ih item (readable item member)
    | obj members =>
      exact reads_obj plain readable.1 fun member among => ih member.2 (readable.2 member among)
    | _ => exact reads_leaf readable (by simp) (by simp)

theorem whitespace_stops {space : PyStr} (all : ∀ c ∈ space, isWhitespace c = true) :
    Stops goesOn space := by
  intro c head
  have white := all c (List.mem_of_mem_head? head)
  simp only [isWhitespace,Bool.or_eq_true,decide_eq_true_eq] at white
  rcases white with ((rfl | rfl) | rfl) | rfl <;> rfl

/-- `json.loads` reads back what `json.dumps` writes, and white space behind it. -/
theorem loads_written_before {separators : Separators} (plain : separators.Plain) {value : Json}
    (readable : Readable reader reader.maxDepth value) {space : PyStr}
    (all : ∀ c ∈ space, isWhitespace c = true) :
    reader.loads (written separators value ++ space) = .ok value := by
  have reads := reads_written plain reader.maxDepth value readable
  have begun : skip ([] ++ (written separators value ++ space)) = _ := reads.skips (by simp) space
  have scanned := reads.reads space (whitespace_stops all)
  have ends : skip space = [] := by
    have skipped : skip (space ++ []) = [] := skip_space all (by simp [Stops])
    rwa [List.append_nil] at skipped
  rw [List.nil_append] at begun
  simp only [Reader.loads,begun,scanned,ends]
  rfl

theorem loads_written {separators : Separators} (plain : separators.Plain) {value : Json}
    (readable : Readable reader reader.maxDepth value) :
    reader.loads (written separators value) = .ok value := by
  have read : reader.loads (written separators value ++ []) = .ok value :=
    loads_written_before plain readable (by simp)
  rwa [List.append_nil] at read

/-! ### What can be read is what can be written -/

mutual

/-- Its floats are floats, and no key stands twice. -/
def Formed (float : PyStr → String) : Json → Prop
  | .null | .bool _ | .int _ | .str _ => True
  | .float repr => Repr float repr
  | .arr items => FormedItems float items
  | .obj members => (members.map Prod.fst).Nodup ∧ FormedMembers float members

def FormedItems (float : PyStr → String) : List Json → Prop
  | [] => True
  | item :: rest => Formed float item ∧ FormedItems float rest

def FormedMembers (float : PyStr → String) : List (PyStr × Json) → Prop
  | [] => True
  | (_,value) :: rest => Formed float value ∧ FormedMembers float rest

end

theorem formedItems_iff {float : PyStr → String} {items : List Json} :
    FormedItems float items ↔ ∀ item ∈ items, Formed float item := by
  induction items with
  | nil => simp [FormedItems]
  | cons item rest ih => simp [FormedItems,ih]

theorem formedMembers_iff {float : PyStr → String} {members : List (PyStr × Json)} :
    FormedMembers float members ↔ ∀ member ∈ members, Formed float member.2 := by
  induction members with
  | nil => simp [FormedMembers]
  | cons member rest ih => simp [FormedMembers,ih]

/-- A value that is formed can be read again in the depths in which it can be written. -/
theorem readable_iff {depth : Nat} {value : Json} : Readable reader depth value ↔
    Formed reader.float value ∧ fault reader.writer depth value = none := by
  induction depth generalizing value with
  | zero => cases value <;> simp [Readable,Formed,fault,Reader.maxDigits]
  | succ depth ih =>
    cases value with
    | arr items => simp [Readable,Formed,fault,ih,formedItems_iff,forall_and]
    | obj members => simp [Readable,Formed,fault,ih,formedMembers_iff,forall_and,and_assoc]
    | _ => simp [Readable,Formed,fault,Reader.maxDigits]

/-- What can be written can be written within wider limits. -/
theorem fault_mono {narrow wide : Writer} {depth deeper : Nat} {value : Json}
    (digits : narrow.maxDigits ≤ wide.maxDigits) (deep : depth ≤ deeper)
    (written : fault narrow depth value = none) : fault wide deeper value = none := by
  induction depth generalizing deeper value with
  | zero =>
    cases value with
    | int n =>
      simp only [fault,ite_eq_right_iff,reduceCtorEq,imp_false,Nat.not_lt] at written
      exact fault_int (written.trans digits)
    | _ => simp_all [fault]
  | succ depth ih =>
    obtain ⟨deeper,rfl⟩ : ∃ more, deeper = more + 1 := ⟨deeper - 1,by omega⟩
    have below : depth ≤ deeper := by omega
    cases value with
    | int n =>
      simp only [fault,ite_eq_right_iff,reduceCtorEq,imp_false,Nat.not_lt] at written
      exact fault_int (written.trans digits)
    | arr items =>
      simp only [fault,faultItems_none] at written ⊢
      exact fun item member => ih below (written item member)
    | obj members =>
      simp only [fault,faultMembers_none] at written ⊢
      exact fun member among => ih below (written member among)
    | _ => simp [fault]

/-- A reader of wider limits reads it too. -/
theorem Readable.mono {client : Reader} {depth deeper : Nat} {value : Json}
    (float : client.float = reader.float) (digits : reader.maxDigits ≤ client.maxDigits)
    (deep : depth ≤ deeper) (readable : Readable reader depth value) :
    Readable client deeper value := by
  obtain ⟨formed,written⟩ := readable_iff.mp readable
  exact readable_iff.mpr ⟨float ▸ formed,fault_mono digits deep written⟩

theorem Readable.dumps {value : Json} (separators : Separators)
    (readable : Readable reader reader.maxDepth value) :
    reader.writer.dumps separators value = .ok (written separators value) := by
  have room := fault_mono (Nat.le_refl _) reader.nesting (readable_iff.mp readable).2
  rw [Writer.dumps,room]

/-! ## What is read can be written and read again -/

theorem scanSign_sign (p : CodePoint → Bool) (s : PyStr) :
    (scanSign p s).1 = [] ∨ ∃ c, (scanSign p s).1 = [c] ∧ p c = true := by
  cases s with
  | nil => exact .inl rfl
  | cons c rest =>
    by_cases sign : p c = true
    · exact .inr ⟨c,by simp [scanSign,sign],sign⟩
    · exact .inl (by simp [scanSign,sign])

theorem digits_taken {d : CodePoint} (digit : isDigit d = true) (rest : PyStr) :
    Digits (d :: rest.takeWhile isDigit) := by
  refine ⟨by simp,fun c member => ?_⟩
  rcases List.mem_cons.mp member with rfl | later
  · exact digit
  · exact List.mem_takeWhile_imp later

theorem scanInteger_sound {s integer rest : PyStr} (scanned : scanInteger s = some (integer,rest)) :
    ∃ (minus : Bool) (digits : PyStr), integer = (Literal.mk minus digits [] []).sign ++ digits ∧
      Digits digits ∧ (digits.head? = some 0x30 → digits = [0x30]) := by
  obtain ⟨minus,sign⟩ : ∃ minus : Bool,
      ∀ digits, (scanSign isMinus s).1 = (Literal.mk minus digits [] []).sign := by
    rcases scanSign_sign isMinus s with none | ⟨c,sign,isMinus⟩
    · exact ⟨false,fun _ => none⟩
    · have : c = 0x2d := of_decide_eq_true isMinus
      exact ⟨true,fun _ => by rw [sign,this]; rfl⟩
  simp only [scanInteger] at scanned
  split at scanned
  · cases scanned
  · next d more _ =>
    split_ifs at scanned with zero digit
    · cases scanned
      refine ⟨minus,[d],by rw [sign],⟨by simp,?_⟩,fun _ => by rw [zero]⟩
      intro c member
      rw [List.mem_singleton.mp member,zero]
      decide
    · cases scanned
      refine ⟨minus,_,by rw [sign],digits_taken digit more,fun head => ?_⟩
      exact absurd (Option.some.inj head) zero

theorem scanFraction_sound (s : PyStr) : (scanFraction s).1 = [] ∨
    ∃ digits, (scanFraction s).1 = 0x2e :: digits ∧ Digits digits := by
  match s with
  | [] => exact .inl rfl
  | [_] => exact .inl rfl
  | p :: d :: rest =>
    simp only [scanFraction]
    split_ifs with point
    · exact .inr ⟨_,by rw [point.1],digits_taken point.2 rest⟩
    · exact .inl rfl

theorem scanExponent_sound (s : PyStr) : (scanExponent s).1 = [] ∨
    ∃ e sign digits, (scanExponent s).1 = e :: sign ++ digits ∧ (e = 0x65 ∨ e = 0x45) ∧
      (sign = [] ∨ ∃ c, sign = [c] ∧ isSign c = true) ∧ Digits digits := by
  cases s with
  | nil => exact .inl rfl
  | cons e rest =>
    simp only [scanExponent]
    split
    · exact .inl rfl
    · next d digits taken =>
      split_ifs with letter
      · refine .inr ⟨e,_,_,rfl,letter,scanSign_sign isSign rest,by simp,fun c member => ?_⟩
        rw [← taken] at member
        exact List.mem_takeWhile_imp member
      · exact .inl rfl

theorem scanNumber_sound {s integer more rest : PyStr}
    (scanned : scanNumber s = some ((integer,more),rest)) :
    ∃ l : Literal, l.Valid ∧ l.sign ++ l.integer = integer ∧ l.fraction ++ l.exponent = more := by
  simp only [scanNumber,Option.bind_eq_bind,Option.bind_eq_some_iff] at scanned
  obtain ⟨⟨integer',after⟩,first,made⟩ := scanned
  obtain ⟨minus,digits,text,digit,leading⟩ := scanInteger_sound first
  cases made
  exact ⟨⟨minus,digits,_,_⟩,
    ⟨digit,leading,scanFraction_sound after,scanExponent_sound (scanFraction after).2⟩,text.symm,
    rfl⟩

theorem digitsValue_lt {digits : PyStr} (all : ∀ c ∈ digits, isDigit c = true) :
    digitsValue digits < 10 ^ digits.length := by
  induction digits using List.reverseRecOn with
  | nil => decide
  | append_singleton digits d ih =>
    have before := ih fun c member => all c (by simp [member])
    have digit := all d (by simp)
    simp only [isDigit,Bool.and_eq_true,decide_eq_true_eq] at digit
    have low : d.val - 0x30 ≤ 9 := by
      have : d.val ≤ 0x39 := digit.2
      omega
    have value : digitsValue (digits ++ [d]) = 10 * digitsValue digits + (d.val - 0x30) := by
      simp [digitsValue]
    rw [value,List.length_append,List.length_singleton,Nat.pow_succ]
    omega

theorem natAbs_integerValue (l : Literal) (valid : l.Valid) :
    (integerValue (l.sign ++ l.integer)).natAbs = digitsValue l.integer := by
  have scanned := scanSign_digits l.sign_cases valid.digits (fun c => digit_not_minus) []
  simp only [List.append_nil] at scanned
  rw [integerValue,scanned]
  cases l.sign with
  | nil => simp
  | cons c sign => simp

theorem scanNumeral_readable {s rest : PyStr} {value : Json} {depth : Nat}
    (scanned : scanNumeral reader s = .ok (value,rest)) : Readable reader depth value := by
  simp only [scanNumeral] at scanned
  split at scanned
  · cases scanned
  · next integer left found =>
    obtain ⟨l,valid,rfl,-⟩ := scanNumber_sound found
    split_ifs at scanned with long
    cases scanned
    have split := scanSign_digits l.sign_cases valid.digits (fun c => digit_not_minus) []
    simp only [List.append_nil] at split
    simp only [split] at long
    simp only [Readable,natAbs_integerValue l valid]
    have positive : 0 < l.integer.length := List.length_pos_iff.mpr valid.digits.1
    have fits := (Nat.length_toDigits_le_iff (by decide) positive).mpr (digitsValue_lt valid.digits.2)
    have length : (toString (digitsValue l.integer)).length =
        (Nat.toDigits 10 (digitsValue l.integer)).length := by
      rw [← String.length_toList]
      simp
    omega
  · next integer more left other found =>
    obtain ⟨l,valid,rfl,rfl⟩ := scanNumber_sound found
    cases scanned
    simp only [Readable]
    exact reader.repr l valid

theorem scanSeparated_sound {α : Type} {P : α → Prop} {scan : Scan α} {close : CodePoint}
    (each : ∀ s a rest, scan s = .ok (a,rest) → P a) {fuel : Nat} {s rest : PyStr}
    {elements : List α} (scanned : scanSeparated scan close fuel s = .ok (elements,rest)) :
    ∀ element ∈ elements, P element := by
  induction fuel generalizing s elements with
  | zero => cases scanned
  | succ fuel ih =>
    simp only [scanSeparated] at scanned
    cases first : scan s with
    | error fault => simp [first,bind,Except.bind] at scanned
    | ok found =>
      obtain ⟨element,after⟩ := found
      simp only [first,bind,Except.bind] at scanned
      have own := each s element after first
      split at scanned
      · cases scanned
      · next c more _ =>
        split_ifs at scanned with closes comma
        · cases scanned
          simpa using own
        · cases later : scanSeparated scan close fuel (skip more) with
          | error fault => simp [later] at scanned
          | ok found =>
            simp only [later] at scanned
            cases scanned
            intro e member
            rcases List.mem_cons.mp member with rfl | among
            · exact own
            · exact ih later e among

theorem scanElements_sound {α : Type} {P : α → Prop} {scan : Scan α} {close : CodePoint}
    (each : ∀ s a rest, scan s = .ok (a,rest) → P a) {s rest : PyStr} {elements : List α}
    (scanned : scanElements scan close s = .ok (elements,rest)) :
    ∀ element ∈ elements, P element := by
  simp only [scanElements] at scanned
  split at scanned
  · cases scanned
  · split_ifs at scanned
    · cases scanned
      simp
    · exact scanSeparated_sound each scanned

theorem scanMember_sound {P : Json → Prop} {scan : Scan Json}
    (each : ∀ s value rest, scan s = .ok (value,rest) → P value) {s rest : PyStr}
    {member : PyStr × Json} (scanned : scanMember scan s = .ok (member,rest)) : P member.2 := by
  cases s with
  | nil => cases scanned
  | cons q s =>
    simp only [scanMember] at scanned
    split_ifs at scanned
    cases key : scanString s with
    | error fault => simp [key,bind,Except.bind] at scanned
    | ok found =>
      simp only [key,bind,Except.bind] at scanned
      split at scanned
      · cases scanned
      · next c more _ =>
        split_ifs at scanned
        cases value : scan (skip more) with
        | error fault => simp [value] at scanned
        | ok found =>
          simp only [value] at scanned
          cases scanned
          exact each _ _ _ value

/-- Putting a member in keeps the keys different and adds no other value. -/
theorem put_sound {P : Json → Prop} {members : List (PyStr × Json)} {key : PyStr} {value : Json}
    (different : (members.map Prod.fst).Nodup) (each : ∀ member ∈ members, P member.2)
    (new : P value) : ((put members key value).map Prod.fst).Nodup ∧
      ∀ member ∈ put members key value, P member.2 := by
  simp only [put]
  split_ifs with there
  · have keys : (members.map fun member => if member.1 = key then (key,value) else member).map
        Prod.fst = members.map Prod.fst := by
      rw [List.map_map]
      apply List.map_congr_left
      intro member _
      by_cases same : member.1 = key <;> simp [same]
    refine ⟨by rw [keys]; exact different,fun member among => ?_⟩
    obtain ⟨old,before,rfl⟩ := List.mem_map.mp among
    by_cases same : old.1 = key
    · simpa [same] using new
    · simpa [same] using each old before
  · refine ⟨?_,fun member among => ?_⟩
    · rw [List.map_append,List.nodup_append]
      refine ⟨different,by simp,?_⟩
      intro k among k' own same
      simp only [List.map_cons,List.map_nil,List.mem_singleton] at own
      exact there (own ▸ same ▸ among)
    · rcases List.mem_append.mp among with before | own
      · exact each member before
      · rw [List.mem_singleton.mp own]
        exact new

theorem dictOf_sound {P : Json → Prop} {members : List (PyStr × Json)}
    (each : ∀ member ∈ members, P member.2) : ((dictOf members).map Prod.fst).Nodup ∧
      ∀ member ∈ dictOf members, P member.2 := by
  have grows (rest first : List (PyStr × Json)) (later : ∀ member ∈ rest, P member.2)
      (sound : (first.map Prod.fst).Nodup ∧ ∀ member ∈ first, P member.2) :
      ((rest.foldl (fun dict member => put dict member.1 member.2) first).map Prod.fst).Nodup ∧
        ∀ member ∈ rest.foldl (fun dict member => put dict member.1 member.2) first, P member.2 := by
    induction rest generalizing first with
    | nil => exact sound
    | cons member rest ih =>
      exact ih _ (fun next among => later next (by simp [among]))
        (put_sound sound.1 sound.2 (later member (by simp)))
  exact grows members [] each ⟨by simp,by simp⟩

theorem scanWith_readable {container : CodePoint → PyStr → Except Fault (Json × PyStr)}
    {s rest : PyStr} {value : Json} {depth : Nat}
    (inner : ∀ c s value rest, container c s = .ok (value,rest) → Readable reader depth value)
    (scanned : scanWith reader container s = .ok (value,rest)) : Readable reader depth value := by
  cases s with
  | nil => cases scanned
  | cons c s =>
    simp only [scanWith] at scanned
    split_ifs at scanned with quote bracket
    · cases string : scanString s with
      | error fault => simp [string,Except.map] at scanned
      | ok found =>
        simp only [string,Except.map] at scanned
        cases scanned
        simp [Readable]
    · exact inner c s value rest scanned
    · split at scanned
      · next found constant =>
        cases scanned
        obtain ⟨⟨word,value'⟩,among,matched⟩ := List.exists_of_findSome?_eq_some constant
        obtain ⟨after,-,same⟩ := Option.map_eq_some_iff.mp matched
        cases same
        simp only [constants_eq,List.mem_cons,Prod.mk.injEq,List.not_mem_nil,or_false] at among
        rcases among with ⟨-,rfl⟩ | ⟨-,rfl⟩ | ⟨-,rfl⟩ | ⟨-,rfl⟩ | ⟨-,rfl⟩ | ⟨-,rfl⟩ <;>
          simp [Readable,Repr]
      · exact scanNumeral_readable scanned

theorem scanOnce_readable {depth : Nat} {s rest : PyStr} {value : Json}
    (scanned : scanOnce reader depth s = .ok (value,rest)) : Readable reader depth value := by
  induction depth generalizing s rest value with
  | zero => exact scanWith_readable (by simp) scanned
  | succ depth ih =>
    refine scanWith_readable ?_ scanned
    intro c s value rest contained
    simp only [scanContainer] at contained
    split_ifs at contained
    · cases items : scanElements (scanOnce reader depth) 0x5d s with
      | error fault => simp [items,bind,Except.bind] at contained
      | ok found =>
        simp only [items,bind,Except.bind] at contained
        cases contained
        exact scanElements_sound (fun s a rest => ih) items
    · cases members : scanElements (scanMember (scanOnce reader depth)) 0x7d s with
      | error fault => simp [members,bind,Except.bind] at contained
      | ok found =>
        simp only [members,bind,Except.bind] at contained
        cases contained
        exact dictOf_sound (scanElements_sound
          (fun s a rest => scanMember_sound fun s value rest => ih) members)

/-- What `json.loads` gives can be read again once it is written. -/
theorem loads_readable {text : PyStr} {value : Json} (loaded : reader.loads text = .ok value) :
    Readable reader reader.maxDepth value := by
  simp only [Reader.loads] at loaded
  split at loaded
  · next found scanned =>
    split_ifs at loaded
    cases loaded
    exact scanOnce_readable scanned
  · cases loaded
  · cases loaded
  · cases loaded

/-! ## A reader -/

/-- The literal of a digit after the point. -/
def tenthLiteral (d : CodePoint) : Literal := ⟨false,[0x30],[0x2e,d],[]⟩

theorem tenthLiteral_valid {d : CodePoint} (digit : isDigit d = true) : (tenthLiteral d).Valid := by
  refine ⟨⟨by simp [tenthLiteral],?_⟩,fun _ => rfl,.inr ⟨[d],rfl,by simp,by simpa using digit⟩,
    .inl rfl⟩
  simp [tenthLiteral,isDigit]

theorem repr_tenth {float : PyStr → String} (reads : float (.ofString "0.6") = "0.6") :
    Repr float "0.6" :=
  .inr (.inr (.inr ⟨tenthLiteral 0x36,tenthLiteral_valid (by decide),by simp [tenthLiteral],
    by decide,reads⟩))

/-- A reader that takes every literal but one for zero. -/
def tenthsFloat (literal : PyStr) : String :=
  if literal = .ofString "0.6" then "0.6" else "0.0"

theorem tenthsFloat_repr (l : Literal) (_ : l.Valid) : Repr tenthsFloat (tenthsFloat l.text) := by
  by_cases known : l.text = .ofString "0.6"
  · rw [tenthsFloat,if_pos known]
    exact repr_tenth rfl
  · rw [tenthsFloat,if_neg known]
    exact .inr (.inr (.inr ⟨tenthLiteral 0x30,tenthLiteral_valid (by decide),
      by simp [tenthLiteral],by decide,rfl⟩))

def tenths : Reader where
  writer := .usual
  maxDepth := 1000
  nesting := by decide
  float := tenthsFloat
  repr := tenthsFloat_repr
  complaint := fun _ => "Expecting value: line 1 column 1 (char 0)"
  digitsMessage := fun _ => "Exceeds the limit (4300 digits) for integer string conversion"
  depthMessage := "maximum recursion depth exceeded"

end Json
