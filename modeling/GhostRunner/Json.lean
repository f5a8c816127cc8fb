import GhostRunner.PyStr

/-! JSON values as Python's `json` makes them, with what `json.dumps` writes under
`ensure_ascii=False`, and their `repr`. -/

/-- A float is kept by its `repr`. In a dict no key stands twice. -/
inductive Json where
  | null
  | bool (b : Bool)
  | int (n : Int)
  | float (repr : String)
  | str (s : PyStr)
  | arr (items : List Json)
  | obj (members : List (PyStr × Json))

namespace Json

/-- What `json.loads` may raise. Both of the first two are `ValueError`s. -/
inductive LoadsError where
  | jsonDecodeError (message : String)
  | valueError (message : String)
  | recursionError (message : String)
  deriving DecidableEq, Repr

/-- `type(value).__name__` -/
def typeName : Json → String
  | .null => "NoneType"
  | .bool _ => "bool"
  | .int _ => "int"
  | .float _ => "float"
  | .str _ => "str"
  | .arr _ => "list"
  | .obj _ => "dict"

mutual

/-- Every string in the value has the property, keys included. -/
def all (p : PyStr → Bool) : Json → Bool
  | .str s => p s
  | .arr items => allItems p items
  | .obj members => allMembers p members
  | .null | .bool _ | .int _ | .float _ => true

def allItems (p : PyStr → Bool) : List Json → Bool
  | [] => true
  | item :: rest => item.all p && allItems p rest

def allMembers (p : PyStr → Bool) : List (PyStr × Json) → Bool
  | [] => true
  | (key,value) :: rest => p key && value.all p && allMembers p rest

end

theorem allMembers_append (p : PyStr → Bool) (first rest : List (PyStr × Json)) :
    allMembers p (first ++ rest) = (allMembers p first && allMembers p rest) := by
  induction first with
  | nil => rfl
  | cons member first ih => simp [allMembers,ih,Bool.and_assoc]

/-- No string in the value has a lone surrogate. -/
def encodes (value : Json) : Bool := value.all PyStr.encodes

/-! ## Writing a value -/

/-- How values are written. Brackets and braces are always the same. -/
structure Style where
  null : String
  yes : String
  no : String
  float : String → String
  str : PyStr → PyStr
  item : String
  key : String

variable (style : Style)

mutual

def render : Json → PyStr
  | .null => .ofString style.null
  | .bool b => .ofString (if b then style.yes else style.no)
  | .int n => .ofString (toString n)
  | .float repr => .ofString (style.float repr)
  | .str s => style.str s
  | .arr items => .ofString "[" ++ renderItems items ++ .ofString "]"
  | .obj members => .ofString "\x7b" ++ renderMembers members ++ .ofString "\x7d"

def renderItems : List Json → PyStr
  | [] => []
  | [item] => render item
  | item :: rest => render item ++ .ofString style.item ++ renderItems rest

def renderMembers : List (PyStr × Json) → PyStr
  | [] => []
  | [(key,value)] => style.str key ++ .ofString style.key ++ render value
  | (key,value) :: rest =>
    style.str key ++ .ofString style.key ++ render value ++ .ofString style.item ++
      renderMembers rest

end

mutual

/-- What is written can be encoded exactly if the strings in it are written so that they can. -/
theorem render_encodes (value : Json) :
    (render style value).encodes = value.all fun s => (style.str s).encodes := by
  cases value with
  | null => simp [render,all]
  | bool b => simp [render,all]
  | int n => simp [render,all]
  | float repr => simp [render,all]
  | str s => simp [render,all]
  | arr items => simp [render,all,renderItems_encodes items]
  | obj members => simp [render,all,renderMembers_encodes members]

theorem renderItems_encodes (items : List Json) :
    (renderItems style items).encodes = allItems (fun s => (style.str s).encodes) items := by
  match items with
  | [] => rfl
  | [item] => simp [renderItems,allItems,render_encodes item]
  | item :: next :: rest =>
    simp [renderItems,allItems,render_encodes item,renderItems_encodes (next :: rest)]

theorem renderMembers_encodes (members : List (PyStr × Json)) :
    (renderMembers style members).encodes =
      allMembers (fun s => (style.str s).encodes) members := by
  match members with
  | [] => rfl
  | [(key,value)] => simp [renderMembers,allMembers,render_encodes value]
  | (key,value) :: next :: rest =>
    simp [renderMembers,allMembers,render_encodes value,renderMembers_encodes (next :: rest),
      Bool.and_assoc]

end

mutual

theorem all_true (value : Json) : value.all (fun _ => true) = true := by
  cases value with
  | arr items => simp [all,allItems_true items]
  | obj members => simp [all,allMembers_true members]
  | _ => rfl

theorem allItems_true (items : List Json) : allItems (fun _ => true) items = true := by
  match items with
  | [] => rfl
  | item :: rest => simp [allItems,all_true item,allItems_true rest]

theorem allMembers_true (members : List (PyStr × Json)) :
    allMembers (fun _ => true) members = true := by
  match members with
  | [] => rfl
  | (key,value) :: rest => simp [allMembers,all_true value,allMembers_true rest]

end

/-! ## `json.dumps` -/

/-- A character within quotes. Without `ensure_ascii`, only these are escaped. -/
def escape (c : CodePoint) : PyStr :=
  if c = 0x22 then .ofString "\\\"" else if c = 0x5c then .ofString "\\\\"
  else if c = 0x08 then .ofString "\\b" else if c = 0x0c then .ofString "\\f"
  else if c = 0x0a then .ofString "\\n" else if c = 0x0d then .ofString "\\r"
  else if c = 0x09 then .ofString "\\t"
  else if c < 0x20 then .ofString "\\u" ++ PyStr.hex 4 c else [c]

def quote (s : PyStr) : PyStr := .ofString "\"" ++ s.flatMap escape ++ .ofString "\""

/-- A float, which `dumps` writes as its `repr` unless it is not finite. -/
def floatText (repr : String) : String :=
  if repr = "inf" then "Infinity" else if repr = "-inf" then "-Infinity"
  else if repr = "nan" then "NaN" else repr

/-- The separators after an item and after a key. -/
structure Separators where
  item : String
  key : String

def spaced : Separators := ⟨", ",": "⟩
def compact : Separators := ⟨",",":"⟩

/-- The text of a value. -/
def written (separators : Separators) (value : Json) : PyStr :=
  value.render {
    null := "null"
    yes := "true"
    no := "false"
    float := floatText
    str := quote
    item := separators.item
    key := separators.key }

theorem escape_encodes (c : CodePoint) : (escape c).encodes = !c.isSurrogate := by
  have plain (low : c < 0x80) : true = !c.isSurrogate := by
    rw [PyStr.ascii_isSurrogate low]
    rfl
  have written (s : String) (low : c < 0x80) : (PyStr.ofString s).encodes = !c.isSurrogate := by
    rw [PyStr.encodes_ofString]
    exact plain low
  simp only [escape]
  split_ifs with eq eq eq eq eq eq eq low
  · exact written _ (eq ▸ by decide)
  · exact written _ (eq ▸ by decide)
  · exact written _ (eq ▸ by decide)
  · exact written _ (eq ▸ by decide)
  · exact written _ (eq ▸ by decide)
  · exact written _ (eq ▸ by decide)
  · exact written _ (eq ▸ by decide)
  · simpa using plain (Nat.lt_trans low (by decide))
  · simp [PyStr.encodes]

theorem quote_encodes (s : PyStr) : (quote s).encodes = s.encodes := by
  simp only [quote,PyStr.encodes_append,PyStr.encodes_ofString,PyStr.encodes_flatMap,
    escape_encodes,Bool.true_and,Bool.and_true]
  rfl

/-- It can be encoded exactly if no string in the value has a lone surrogate. -/
@[simp] theorem written_encodes (separators : Separators) (value : Json) :
    (written separators value).encodes = value.encodes := by
  simp [written,render_encodes,quote_encodes,encodes]

/-- What `dumps` raises. The first is a `ValueError`. -/
inductive DumpsError where
  | valueError (message : String)
  | recursionError (message : String)
  deriving DecidableEq, Repr

/-- What depends on the interpreter when a value is dumped: how many digits of an integer `str`
writes (no limit is below 640), how deep values may be nested (five levels at least), and what it
says of a value that it refuses. -/
structure Writer where
  maxDigits : Nat
  digits : 640 ≤ maxDigits
  maxDepth : Nat
  deep : 5 ≤ maxDepth
  digitsMessage : String
  depthMessage : String

/-- Limits that an interpreter may have. -/
def Writer.usual : Writer where
  maxDigits := 4300
  digits := by decide
  maxDepth := 1000
  deep := by decide
  digitsMessage := "Exceeds the limit (4300 digits) for integer string conversion"
  depthMessage := "maximum recursion depth exceeded while encoding a JSON object"

variable (writer : Writer)

mutual

/-- The first error on the way through the value, in that depth. -/
def fault (depth : Nat) : Json → Option DumpsError
  | .null | .bool _ | .float _ | .str _ => none
  | .int n =>
    if writer.maxDigits < (toString n.natAbs).length then some (.valueError writer.digitsMessage)
    else none
  | .arr items =>
    match depth with
    | 0 => some (.recursionError writer.depthMessage)
    | depth + 1 => faultItems depth items
  | .obj members =>
    match depth with
    | 0 => some (.recursionError writer.depthMessage)
    | depth + 1 => faultMembers depth members

def faultItems (depth : Nat) : List Json → Option DumpsError
  | [] => none
  | item :: rest => (fault depth item).or (faultItems depth rest)

def faultMembers (depth : Nat) : List (PyStr × Json) → Option DumpsError
  | [] => none
  | (_,value) :: rest => (fault depth value).or (faultMembers depth rest)

end

variable {writer} {depth : Nat}

@[simp] theorem fault_str (s : PyStr) : fault writer depth (.str s) = none := by
  simp [fault]

@[simp] theorem fault_bool (b : Bool) : fault writer depth (.bool b) = none := by
  simp [fault]

theorem fault_int {n : Int} (short : (toString n.natAbs).length ≤ writer.maxDigits) :
    fault writer depth (.int n) = none := by
  rw [fault,if_neg (Nat.not_lt.mpr short)]

@[simp] theorem faultItems_none {items : List Json} :
    faultItems writer depth items = none ↔ ∀ item ∈ items, fault writer depth item = none := by
  induction items with
  | nil => simp [faultItems]
  | cons item rest ih => simp [faultItems,ih]

@[simp] theorem faultMembers_none {members : List (PyStr × Json)} :
    faultMembers writer depth members = none ↔
      ∀ member ∈ members, fault writer depth member.2 = none := by
  induction members with
  | nil => simp [faultMembers]
  | cons member rest ih => simp [faultMembers,ih]

/-- `json.dumps` -/
def Writer.dumps (writer : Writer) (separators : Separators) (value : Json) :
    Except DumpsError PyStr :=
  match fault writer writer.maxDepth value with
  | some error => .error error
  | none => .ok (written separators value)

/-! ## `repr` -/

def repr (unicode : PyStr.Unicode) (value : Json) : PyStr :=
  value.render {
    null := "None"
    yes := "True"
    no := "False"
    float := id
    str := PyStr.repr unicode
    item := ", "
    key := ": " }

@[simp] theorem repr_encodes (unicode : PyStr.Unicode) (value : Json) :
    (repr unicode value).encodes = true := by
  simp [repr,render_encodes,all_true]

end Json
