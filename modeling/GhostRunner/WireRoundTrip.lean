import GhostRunner.JsonRoundTrip
import GhostRunner.WireGrammar

/-! `decode` undoes `Envelope.encode`. -/
namespace GhostRunner.Wire

open Json (Reader Readable)

/-- An interpreter whose `json.loads` is the scanner. -/
def interpreter (reader : Reader) (unicode : PyStr.Unicode) : Python :=
  ⟨reader.loads,unicode,reader.writer⟩

/-- The number is not too long to be read. -/
def Short (reader : Reader) (n : Int) : Prop :=
  (toString n.natAbs).length ≤ reader.maxDigits

def PyInt.Fits (reader : Reader) : PyInt → Prop
  | .int n => Short reader n
  | .bool _ => True

/-- The envelope fits the limits at the time `now`: its type is one of the protocol, and what
stands in it can be read again. -/
structure Envelope.Fits (reader : Reader) (now : Int) (env : Envelope) : Prop where
  type : env.type ∈ validTypes
  ts : (env.ts.getD (.int now)).Fits reader
  seq : ∀ n ∈ env.seq, n.Fits reader
  turn : ∀ n ∈ env.turn, n.Fits reader
  payload : Readable reader (reader.maxDepth - 1) (.obj env.payload)

/-- The envelope with the time that `encode` writes. -/
def Envelope.stamped (env : Envelope) (now : Int) : Envelope :=
  { env with ts := some (env.ts.getD (.int now)) }

variable {reader : Reader} {unicode : PyStr.Unicode}

theorem PyInt.Fits.readable {n : PyInt} (fits : n.Fits reader) (depth : Nat) :
    Readable reader depth n.json := by
  cases n with
  | int n =>
    have short : Short reader n := fits
    simpa [PyInt.json,Readable,Short] using short
  | bool b => simp [PyInt.json,Readable]

theorem short_of_le {n : Int} (small : (toString n.natAbs).length ≤ 640) : Short reader n :=
  small.trans reader.writer.digits

theorem short_one : Short reader 1 := short_of_le (by decide)

theorem short_now (now : Millis) : Short reader now.value :=
  short_of_le (now.short.trans (by decide))

/-! ## Looking up members -/

@[simp] theorem Dict.get_nil (key : String) : Dict.get [] key = none := rfl

@[simp] theorem Dict.get_cons (key own : String) (value : Json) (rest : Dict) :
    Dict.get ((.ofString own,value) :: rest) key = if key = own then some value else rest.get key := by
  by_cases same : key = own
  · subst same
    simp [Dict.get]
  · have differs : (PyStr.ofString key == PyStr.ofString own) = false := by simpa using same
    simp [Dict.get,same,List.lookup_cons,differs]

@[simp] theorem Dict.get_append (first rest : Dict) (key : String) :
    Dict.get (first ++ rest) key = (first.get key).or (rest.get key) := List.lookup_append

/-- A member that is written only if there is a value. -/
@[simp] theorem Dict.get_optional {α : Type} (wrap : α → Json) (field : Option α)
    (key own : String) : Dict.get (field.toList.map fun content => (.ofString own,wrap content)) key =
      if key = own then field.map wrap else none := by
  cases field with
  | none => simp
  | some content => simp

theorem members_nodup (env : Envelope) (now : Int) : ((env.members now).map Prod.fst).Nodup := by
  simp only [Envelope.members]
  cases env.id <;> cases env.seq <;> cases env.session <;> cases env.turn <;> simp

theorem Envelope.Fits.readable {env : Envelope} {now : Int} (fits : env.Fits reader now) :
    Readable reader reader.maxDepth (.obj (env.members now)) := by
  obtain ⟨depth,deep⟩ : ∃ depth, reader.maxDepth = depth + 1 := by
    cases bound : reader.maxDepth with
    | zero =>
      have payload := fits.payload
      rw [bound] at payload
      exact payload.elim
    | succ depth => exact ⟨depth,rfl⟩
  have payload := fits.payload
  rw [deep] at payload ⊢
  refine ⟨members_nodup env now,?_⟩
  intro member among
  simp only [Envelope.members,List.mem_append,List.mem_cons,List.not_mem_nil,or_false,
    List.mem_map,Option.mem_toList] at among
  rcases among with ((((((rfl | rfl | rfl) | ⟨id,-,rfl⟩) | ⟨n,own,rfl⟩) | ⟨session,-,rfl⟩) |
    ⟨n,own,rfl⟩) | rfl)
  · exact PyInt.Fits.readable (n := .int protocolVersion) short_one depth
  · simp [Readable]
  · exact fits.ts.readable depth
  · simp [Readable]
  · exact (fits.seq n own).readable depth
  · simp [Readable]
  · exact (fits.turn n own).readable depth
  · exact payload

theorem nullable_map {α : Type} {wrap : α → Json} (field : Option α) :
    Nullable wrap (field.map wrap) field := by
  cases field with
  | none => exact .inl ⟨.inl rfl,rfl⟩
  | some content => exact .inr ⟨content,rfl,rfl⟩

/-- The members that `encode` writes say what the envelope has. -/
theorem members_carry {env : Envelope} (now : Int) (known : env.type ∈ validTypes) :
    isVersion ((env.members now).get "v") = true ∧
      Carries (env.members now) (env.stamped now) := by
  refine ⟨rfl,⟨rfl,known⟩,.inr ?_,?_,?_,.inr ⟨_,rfl,rfl⟩,?_,?_⟩
  · simp [Envelope.members,Envelope.stamped]
  · simpa [Envelope.members,Envelope.stamped] using nullable_map env.id
  · simpa [Envelope.members,Envelope.stamped] using nullable_map env.turn
  · simpa [Envelope.members,Envelope.stamped] using nullable_map env.seq
  · simpa [Envelope.members,Envelope.stamped] using nullable_map env.session

/-- What `encode` writes, `decode` reads. -/
theorem decode_encoded (reader : Reader) (unicode : PyStr.Unicode) (env : Envelope) (now : Int)
    (fits : env.Fits reader now) :
    decode (interpreter reader unicode) (.text (env.text now)) = .ok (env.stamped now) := by
  have parsed : (interpreter reader unicode).loads (env.text now) = .ok (.obj (env.members now)) :=
    Json.loads_written Json.compact_plain fits.readable
  rw [decode_object _ parsed]
  exact (decodeObject_ok_iff _).mpr (members_carry now fits.type)

theorem Envelope.Fits.encode {env : Envelope} {now : Int} (fits : env.Fits reader now) :
    env.encode reader.writer now = .ok (env.text now) :=
  fits.readable.dumps Json.compact

/-- A client that reads JSON as the core does, and at least as much of it as the core writes. -/
structure Follows (client reader : Reader) : Prop where
  float : client.float = reader.float
  digits : reader.maxDigits ≤ client.maxDigits
  depth : reader.writer.maxDepth ≤ client.maxDepth

theorem Follows.fits {client : Reader} (follows : Follows client reader) {env : Envelope} {now : Int}
    (fits : env.Fits reader.deepest now) : env.Fits client now := by
  have number (n : PyInt) (short : n.Fits reader.deepest) : n.Fits client := by
    cases n with
    | int n => exact Nat.le_trans short follows.digits
    | bool b => trivial
  have payload : Readable client (client.maxDepth - 1) (.obj env.payload) :=
    @Readable.mono reader.deepest client _ _ _ follows.float follows.digits
      (Nat.sub_le_sub_right follows.depth 1) fits.payload
  exact ⟨fits.type,number _ fits.ts,fun n own => number n (fits.seq n own),
    fun n own => number n (fits.turn n own),payload⟩

/-! ## What `decode` reads can be encoded again -/

theorem Dict.mem_of_get {members : Dict} {key : String} {value : Json}
    (found : members.get key = some value) : (.ofString key,value) ∈ members := by
  induction members with
  | nil => cases found
  | cons member members ih =>
    obtain ⟨own,content⟩ := member
    simp only [Dict.get,List.lookup_cons] at found
    split at found
    · next same =>
      cases found
      rw [beq_iff_eq.mp same]
      exact List.mem_cons_self
    · exact List.mem_cons_of_mem _ (ih found)

theorem Dict.encodes_get {members : Dict} {key : String} {value : Json}
    (encodes : (Json.obj members).encodes = true) (found : members.get key = some value) :
    value.encodes = true := by
  have member := Dict.mem_of_get found
  obtain ⟨before,after,split⟩ := List.append_of_mem member
  rw [split] at encodes
  simp only [Json.encodes,Json.all,Json.allMembers_append,Json.allMembers,
    Bool.and_eq_true] at encodes
  exact encodes.2.1.2

theorem PyInt.fits_of_readable {n : PyInt} {depth : Nat} (readable : Readable reader depth n.json) :
    n.Fits reader := by
  cases n with
  | int n => simpa [PyInt.json,PyInt.Fits,Readable,Short] using readable
  | bool b => trivial

theorem decode_ok {text : PyStr} {env : Envelope}
    (decoded : decode (interpreter reader unicode) (.text text) = .ok env) :
    ∃ members : Dict, reader.loads text = .ok (.obj members) ∧ Carries members env := by
  simp only [decode] at decoded
  split at decoded
  · cases decoded
  · cases decoded
  · cases decoded
  · next members parsed =>
    exact ⟨members,parsed,((decodeObject_ok_iff _).mp decoded).2⟩
  · cases decoded

theorem decode_fits {text : PyStr} {env : Envelope} (now : Int) (deep : 2 ≤ reader.maxDepth)
    (decoded : decode (interpreter reader unicode) (.text text) = .ok env) :
    env.Fits reader now ∧ env.stamped now = env := by
  obtain ⟨members,parsed,carries⟩ := decode_ok decoded
  have readable := Json.loads_readable parsed
  obtain ⟨depth,bound⟩ : ∃ depth, reader.maxDepth = depth + 2 := ⟨reader.maxDepth - 2,by omega⟩
  rw [bound] at readable
  have value {key : String} {v : Json} (found : members.get key = some v) :
      Readable reader (depth + 1) v := readable.2 _ (Dict.mem_of_get found)
  have number {key : String} {field : Option PyInt}
      (read : Nullable PyInt.json (members.get key) field) : ∀ n ∈ field, n.Fits reader := by
    rintro n own
    rcases read with ⟨-,none⟩ | ⟨content,found,some⟩
    · rw [none] at own
      cases own
    · rw [some] at own
      cases own
      exact PyInt.fits_of_readable (value found)
  have stamp : ∃ n, env.ts = some n ∧ n.Fits reader := by
    rcases carries.ts with ⟨-,zero⟩ | ⟨n,found,own⟩
    · exact ⟨_,zero,short_of_le (by decide)⟩
    · exact ⟨n,own,PyInt.fits_of_readable (value found)⟩
  obtain ⟨n,own,short⟩ := stamp
  refine ⟨⟨carries.type.2,by rw [own]; exact short,number carries.seq,number carries.turn,?_⟩,
    by rw [Envelope.stamped,own]; cases env; cases own; rfl⟩
  have below : reader.maxDepth - 1 = depth + 1 := by omega
  rw [below]
  rcases carries.payload with ⟨-,empty⟩ | found
  · rw [empty]
    exact ⟨by simp,by simp⟩
  · exact value found

/-- Every envelope that fits the limits is read as it was, up to its time; and an envelope was ever
read exactly if what is written of it is read as that envelope. -/
theorem reencoding_lossless (reader : Reader) (unicode : PyStr.Unicode) (now : Int)
    (deep : 2 ≤ reader.maxDepth) (env : Envelope) :
    (env.Fits reader now → ∃ text, env.encode reader.writer now = .ok text ∧
      decode (interpreter reader unicode) (.text text) = .ok (env.stamped now)) ∧
    ((∃ text, decode (interpreter reader unicode) (.text text) = .ok env) ↔
      ∃ text, env.encode reader.writer now = .ok text ∧
        decode (interpreter reader unicode) (.text text) = .ok env) := by
  refine ⟨fun fits => ⟨_,fits.encode,decode_encoded reader unicode env now fits⟩,?_,
    fun ⟨text,_,decoded⟩ => ⟨text,decoded⟩⟩
  rintro ⟨text,decoded⟩
  obtain ⟨fits,same⟩ := decode_fits now deep decoded
  have again := decode_encoded reader unicode env now fits
  rw [same] at again
  exact ⟨_,fits.encode,again⟩

/-- A `hello` of a client. -/
def hello : Envelope where
  type := .ofString "hello"
  payload := [(.ofString "accept_v",.arr [.int 1]),(.ofString "gain",.float "0.6")]
  ts := some (.int 0)

theorem hello_fits : hello.Fits Json.tenths 0 := by
  refine ⟨by simp [hello,validTypes],?_,by simp [hello],by simp [hello],?_⟩
  · exact Nat.le_of_ble_eq_true rfl
  · have float : Json.Repr Json.tenths.float "0.6" := Json.repr_tenth rfl
    have one : Short Json.tenths 1 := short_one
    refine ⟨by simp [hello],?_⟩
    simp only [hello,List.forall_mem_cons]
    exact ⟨by simpa [Readable,Short] using one,by simpa [Readable] using float,by simp⟩

theorem hello_reencoded :
    2 ≤ Json.tenths.maxDepth ∧ hello.Fits Json.tenths 0 ∧
      ∃ text, hello.encode Json.tenths.writer 0 = .ok text ∧
        decode (interpreter Json.tenths .widest) (.text text) = .ok (hello.stamped 0) := by
  have deep : 2 ≤ Json.tenths.maxDepth := by decide
  exact ⟨deep,hello_fits,(reencoding_lossless Json.tenths .widest 0 deep hello).1 hello_fits⟩

end GhostRunner.Wire
