import GhostRunner.CoreStore

/-! What `CoreStore` keeps over the lives of any number of processes, whatever fails and wherever
they end. -/
namespace GhostRunner.CoreStore

open Machine

/-! ## What becomes of a call -/

/-- `finish_turn` checks its status before its statement. -/
def Call.Proper : Call → Prop
  | .finishTurn _ status _ _ => status ∈ terminal
  | _ => True

instance Call.decidableProper (call : Call) : Decidable call.Proper := by
  cases call <;> unfold Call.Proper <;> infer_instance

inductive Fate where
  | done
  | failed
  | undone
  | pending
  deriving DecidableEq, Repr

/-- What becomes of a statement that can be executed, or that cannot. -/
def Luck.fate (luck : Luck) (stated : Bool) : Fate :=
  match luck with
  | .works => if stated then .done else .failed
  | .statementFails undone => if undone then .undone else .failed
  | .commitFails undone => if stated then (if undone then .undone else .pending) else .failed

def Database.fate (db : Database) (luck : Luck) (call : Call) : Fate :=
  if call.Proper then luck.fate (call.statement db.seen).isOk else .failed

/-- A call returns only what is committed. One that raises has done nothing, or undone what was not
yet committed, or left its change to the next commit. -/
inductive Fares (db : Database) (call : Call) : Fate → Except Error Value → Database → Prop
  | done {tables : Tables} {value : Value} (proper : call.Proper)
      (done : call.statement db.seen = .ok (tables,value)) :
      Fares db call .done (.ok value) ⟨tables,tables⟩
  | failed (error : Error) : Fares db call .failed (.error error) db
  | undone (error : Error) : Fares db call .undone (.error error) ⟨db.disk,db.disk⟩
  | pending {tables : Tables} {value : Value} (error : Error) (proper : call.Proper)
      (done : call.statement db.seen = .ok (tables,value)) :
      Fares db call .pending (.error error) ⟨db.disk,tables⟩

theorem write_fares (db : Database) (luck : Luck) {call : Call} (proper : call.Proper) :
    Fares db call (luck.fate (call.statement db.seen).isOk) (db.write luck call.statement).1
      (db.write luck call.statement).2 := by
  cases luck with
  | works =>
    cases stated : call.statement db.seen with
    | error error =>
      simp only [Database.write,stated]
      exact .failed error
    | ok made =>
      simp only [Database.write,stated]
      exact .done proper stated
  | statementFails undone =>
    cases undone with
    | false => exact .failed _
    | true => exact .undone _
  | commitFails undone =>
    cases stated : call.statement db.seen with
    | error error =>
      simp only [Database.write,stated]
      exact .failed error
    | ok made =>
      simp only [Database.write,stated]
      cases undone with
      | false => exact .pending _ proper stated
      | true => exact .undone _

theorem perform_fares (db : Database) (unicode : PyStr.Unicode) (luck : Luck) (call : Call) :
    Fares db call (db.fate luck call) (db.perform unicode luck call).1
      (db.perform unicode luck call).2 := by
  cases call with
  | finishTurn turnId status reason now =>
    simp only [Database.perform,Database.fate]
    by_cases proper : status ∈ terminal
    · have lawful : (Call.finishTurn turnId status reason now).Proper := proper
      rw [if_pos proper,if_pos lawful]
      exact write_fares db luck lawful
    · have unlawful : ¬(Call.finishTurn turnId status reason now).Proper := proper
      rw [if_neg proper,if_neg unlawful]
      exact .failed _
  | kvSet => exact write_fares db luck trivial
  | nextTurnId => exact write_fares db luck trivial
  | recordTurn => exact write_fares db luck trivial
  | appendMessage => exact write_fares db luck trivial

/-! ## What a statement does -/

theorem unit_ok {result : Except Error Tables} {tables : Tables} {value : Value}
    (done : unit result = .ok (tables,value)) : result = .ok tables := by
  cases result with
  | error error => cases done
  | ok found => cases done; rfl

/-- Parameters that cannot be bound raise. -/
theorem bound {check : Except Error Unit} {rest : Except Error (Tables × Value)}
    {made : Tables × Value} (done : (check >>= fun _ => rest) = .ok made) : rest = .ok made := by
  cases check with
  | error error => cases done
  | ok _ => exact done

theorem kvSet_ok {key value : PyStr} {before after : Tables} {result : Value}
    (done : kvSet key value before = .ok (after,result)) : after = before.setKv key value := by
  have made := bound (bound done)
  cases made
  rfl

theorem recordTurn_ok {turnId : Int} {origin owner : PyStr} {now : Int} {before after : Tables}
    {value : Value} (done : recordTurn turnId origin owner now before = .ok (after,value)) :
    before.turns turnId = none ∧ ∃ valid, after = before.putTurn turnId
      { origin := origin, ownerSession := owner, startedAt := now } valid := by
  have made := unit_ok (bound (bound (bound (bound done))))
  simp only [insertTurn] at made
  split_ifs at made with valid taken
  cases made
  exact ⟨Option.not_isSome_iff_eq_none.mp taken,valid,rfl⟩

theorem finishTurn_ok {turnId : Int} {status : PyStr} {reason : Option PyStr} {now : Int}
    {before after : Tables} {value : Value}
    (done : finishTurn turnId status reason now before = .ok (after,value)) :
    (before.turns turnId = none ∧ after = before) ∨ ∃ row valid,
      before.turns turnId = some row ∧ after = before.putTurn turnId
        { row with status := status, endedAt := some now, cancelReason := reason } valid := by
  have made := unit_ok (bound (bound (bound (bound done))))
  simp only [updateTurn] at made
  split at made
  · next absent =>
    cases made
    exact .inl ⟨absent,rfl⟩
  · next row found =>
    split_ifs at made with valid
    cases made
    exact .inr ⟨row,valid,found,rfl⟩

theorem appendMessage_ok {turnId : Int} {role message : PyStr} {now : Int} {before after : Tables}
    {value : Value} (done : appendMessage turnId role message now before = .ok (after,value)) :
    (before.turns turnId).isSome = true ∧ after.kv = before.kv ∧ after.turns = before.turns ∧
      after.messages = before.messages ++ [⟨before.nextMessageId,turnId,role,message,now⟩] := by
  have made := unit_ok (bound (bound (bound (bound done))))
  simp only [insertMessage] at made
  split_ifs at made with valid there
  cases made
  exact ⟨there,rfl,rfl,rfl⟩

/-! ## Nothing that was committed goes away -/

/-- A row keeps what it was made with, and once it is over it is so for good. -/
structure TurnRow.Becomes (row row' : TurnRow) : Prop where
  origin : row'.origin = row.origin
  ownerSession : row'.ownerSession = row.ownerSession
  startedAt : row'.startedAt = row.startedAt
  gone : row.status ∈ terminal → row'.status ∈ terminal

/-- What is in the first tables is still in the second. -/
structure Extends (first second : Tables) : Prop where
  kv : ∀ key, (first.kv key).isSome = true → (second.kv key).isSome = true
  turns : ∀ id row, first.turns id = some row → ∃ row', second.turns id = some row' ∧ row.Becomes row'
  messages : first.messages <+: second.messages

theorem TurnRow.Becomes.refl (row : TurnRow) : row.Becomes row := ⟨rfl,rfl,rfl,id⟩

theorem TurnRow.Becomes.trans {a b c : TurnRow} (first : a.Becomes b) (second : b.Becomes c) :
    a.Becomes c :=
  ⟨second.origin.trans first.origin,second.ownerSession.trans first.ownerSession,
    second.startedAt.trans first.startedAt,fun gone => second.gone (first.gone gone)⟩

theorem Extends.refl (tables : Tables) : Extends tables tables :=
  ⟨fun _ there => there,fun _ row found => ⟨row,found,.refl row⟩,List.prefix_rfl⟩

theorem Extends.trans {a b c : Tables} (first : Extends a b) (second : Extends b c) :
    Extends a c := by
  refine ⟨fun key there => second.kv key (first.kv key there),fun id row found => ?_,
    first.messages.trans second.messages⟩
  obtain ⟨next,there,becomes⟩ := first.turns id row found
  obtain ⟨last,stands,later⟩ := second.turns id next there
  exact ⟨last,stands,becomes.trans later⟩

theorem setKv_extends (tables : Tables) (key value : PyStr) :
    Extends tables (tables.setKv key value) := by
  refine ⟨fun other there => ?_,fun _ row found => ⟨row,found,.refl row⟩,List.prefix_rfl⟩
  by_cases same : other = key
  · rw [same,setKv_kv,Function.update_self]
    rfl
  · rw [setKv_kv,Function.update_of_ne same]
    exact there

theorem putTurn_extends {tables : Tables} {id : Int} {row : TurnRow} {valid : row.Checked}
    (becomes : ∀ old, tables.turns id = some old → old.Becomes row) :
    Extends tables (tables.putTurn id row valid) := by
  refine ⟨fun _ there => there,fun other old found => ?_,List.prefix_rfl⟩
  by_cases same : other = id
  · subst same
    exact ⟨row,Function.update_self ..,becomes old found⟩
  · exact ⟨old,(Function.update_of_ne same ..).trans found,.refl old⟩

/-- What a call that has returned leaves in the tables for good, which before it were those that it
saw. -/
def Left (seen tables : Tables) : Call → Prop
  | .kvSet key _ => (tables.kv key).isSome = true
  | .nextTurnId => (tables.kv counterKey).isSome = true
  | .recordTurn turnId origin owner now => ∃ row, tables.turns turnId = some row ∧
      row.origin = origin ∧ row.ownerSession = owner ∧ row.startedAt = now
  | .finishTurn turnId _ _ _ => (seen.turns turnId).isSome = true →
      ∃ row, tables.turns turnId = some row ∧ row.status ∈ terminal
  | .appendMessage turnId role message now =>
      ⟨seen.nextMessageId,turnId,role,message,now⟩ ∈ tables.messages

theorem Left.lasts {seen first second : Tables} {call : Call} (left : Left seen first call)
    (kept : Extends first second) : Left seen second call := by
  cases call with
  | kvSet key value => exact kept.kv key left
  | nextTurnId => exact kept.kv counterKey left
  | recordTurn turnId origin owner now =>
    obtain ⟨row,found,isOrigin,isOwner,isStart⟩ := left
    obtain ⟨row',there,becomes⟩ := kept.turns turnId row found
    exact ⟨row',there,becomes.origin.trans isOrigin,becomes.ownerSession.trans isOwner,
      becomes.startedAt.trans isStart⟩
  | finishTurn turnId status reason now =>
    intro known
    obtain ⟨row,found,gone⟩ := left known
    obtain ⟨row',there,becomes⟩ := kept.turns turnId row found
    exact ⟨row',there,becomes.gone gone⟩
  | appendMessage turnId role message now => exact kept.messages.subset left

theorem statement_extends {call : Call} {before after : Tables} {value : Value}
    (proper : call.Proper) (done : call.statement before = .ok (after,value)) :
    Extends before after ∧ Left before after call := by
  cases call with
  | kvSet key content =>
    cases kvSet_ok done
    exact ⟨setKv_extends before key content,by simp [Left]⟩
  | nextTurnId =>
    cases done
    exact ⟨setKv_extends before counterKey _,by simp [Left]⟩
  | recordTurn turnId origin owner now =>
    obtain ⟨absent,valid,rfl⟩ := recordTurn_ok done
    refine ⟨putTurn_extends fun old found => ?_,_,Function.update_self ..,rfl,rfl,rfl⟩
    cases absent.symm.trans found
  | finishTurn turnId status reason now =>
    rcases finishTurn_ok done with ⟨absent,rfl⟩ | ⟨row,valid,found,rfl⟩
    · refine ⟨.refl after,fun known => ?_⟩
      rw [absent] at known
      cases known
    · refine ⟨putTurn_extends fun old there => ?_,fun _ => ⟨_,Function.update_self ..,proper⟩⟩
      cases found.symm.trans there
      exact ⟨rfl,rfl,rfl,fun _ => proper⟩
  | appendMessage turnId role message now =>
    obtain ⟨_,kv,turns,messages⟩ := appendMessage_ok done
    refine ⟨⟨fun key there => by rw [kv]; exact there,fun id row found => ?_,?_⟩,?_⟩
    · exact ⟨row,by rw [turns,found],.refl row⟩
    · rw [messages]
      exact List.prefix_append ..
    · simp [Left,messages]

/-! ## What a call has written stays until the next one to its place -/

/-- Where a call writes. -/
inductive Place where
  | value (key : PyStr)
  | turn (id : Int)
  | messages
  deriving DecidableEq

def Call.place : Call → Place
  | .kvSet key _ => .value key
  | .nextTurnId => .value counterKey
  | .recordTurn turnId _ _ _ => .turn turnId
  | .finishTurn turnId _ _ _ => .turn turnId
  | .appendMessage _ _ _ _ => .messages

/-- What a call writes, over the tables that it saw. -/
def Written (seen tables : Tables) : Call → Prop
  | .kvSet key value => tables.kv key = some value
  | .nextTurnId => tables.kv counterKey = some seen.nextCount
  | .recordTurn turnId origin owner now => tables.turns turnId =
      some { origin := origin, ownerSession := owner, startedAt := now }
  | .finishTurn turnId status reason now => tables.turns turnId =
      (seen.turns turnId).map fun row =>
        { row with status := status, endedAt := some now, cancelReason := reason }
  | .appendMessage turnId role message now =>
      tables.messages = seen.messages ++ [⟨seen.nextMessageId,turnId,role,message,now⟩]

theorem statement_written {call : Call} {before after : Tables} {value : Value}
    (done : call.statement before = .ok (after,value)) : Written before after call := by
  cases call with
  | kvSet key content =>
    cases kvSet_ok done
    simp [Written]
  | nextTurnId =>
    cases done
    simp [Written]
  | recordTurn turnId origin owner now =>
    obtain ⟨-,valid,rfl⟩ := recordTurn_ok done
    exact Function.update_self ..
  | finishTurn turnId status reason now =>
    rcases finishTurn_ok done with ⟨absent,rfl⟩ | ⟨row,valid,found,rfl⟩
    · simp only [Written,absent,Option.map_none]
    · simp only [Written,found,Option.map_some]
      exact Function.update_self ..
  | appendMessage turnId role message now => exact (appendMessage_ok done).2.2.2

/-- The tables hold the same at a place. -/
def SameAt (first second : Tables) : Place → Prop
  | .value key => second.kv key = first.kv key
  | .turn id => second.turns id = first.turns id
  | .messages => second.messages = first.messages

/-- A statement writes at the place of its call only. -/
theorem statement_frame {call : Call} {before after : Tables} {value : Value} {place : Place}
    (other : call.place ≠ place) (done : call.statement before = .ok (after,value)) :
    SameAt before after place := by
  cases call with
  | kvSet key content =>
    cases kvSet_ok done
    cases place with
    | value key' => exact Function.update_of_ne (fun same => other (congrArg Place.value same.symm)) ..
    | _ => rfl
  | nextTurnId =>
    cases done
    cases place with
    | value key' => exact Function.update_of_ne (fun same => other (congrArg Place.value same.symm)) ..
    | _ => rfl
  | recordTurn turnId origin owner now =>
    obtain ⟨-,valid,rfl⟩ := recordTurn_ok done
    cases place with
    | turn id => exact Function.update_of_ne (fun same => other (congrArg Place.turn same.symm)) ..
    | _ => rfl
  | finishTurn turnId status reason now =>
    rcases finishTurn_ok done with ⟨absent,rfl⟩ | ⟨row,valid,found,rfl⟩
    · cases place <;> rfl
    · cases place with
      | turn id => exact Function.update_of_ne (fun same => other (congrArg Place.turn same.symm)) ..
      | _ => rfl
  | appendMessage turnId role message now =>
    obtain ⟨-,kv,turns,-⟩ := appendMessage_ok done
    cases place with
    | value key => exact congrFun kv key
    | turn id => exact congrFun turns id
    | messages => exact absurd rfl other

theorem Written.same {seen first second : Tables} {call : Call} (written : Written seen first call)
    (same : SameAt first second call.place) : Written seen second call := by
  cases call <;> exact Eq.trans same written

/-- The call has returned, and none after it has gone to its place. -/
def Latest (log : List Entry) (entry : Entry) : Prop :=
  ∃ before after value, log = before ++ entry :: after ∧ entry.result = .ok value ∧
    ∀ next ∈ after, next.call.place ≠ entry.call.place

/-- What the latest calls have written is in the tables. -/
def Intact (log : List Entry) (tables : Tables) : Prop :=
  ∀ entry, Latest log entry → Written entry.seen tables entry.call

/-- A call was the latest before another one, which has gone elsewhere, or it is that one. -/
theorem latest_append {log : List Entry} {last entry : Entry} (latest : Latest (log ++ [last]) entry) :
    (Latest log entry ∧ last.call.place ≠ entry.call.place) ∨
      (entry = last ∧ ∃ value, last.result = .ok value) := by
  obtain ⟨before,after,value,split,returned,elsewhere⟩ := latest
  rcases List.eq_nil_or_concat after with rfl | ⟨between,final,rfl⟩
  · obtain ⟨-,same⟩ := List.append_inj' split rfl
    cases same
    exact .inr ⟨rfl,value,returned⟩
  · rw [List.concat_eq_append,← List.cons_append,← List.append_assoc] at split
    obtain ⟨whole,same⟩ := List.append_inj' split rfl
    cases same
    refine .inl ⟨⟨before,between,value,whole,returned,fun next among => ?_⟩,?_⟩
    · exact elsewhere next (by simp [among])
    · exact elsewhere last (by simp)

theorem Intact.refused {log : List Entry} {tables : Tables} (intact : Intact log tables)
    (seen : Tables) (call : Call) (error : Error) :
    Intact (log ++ [⟨seen,call,.error error⟩]) tables := by
  intro entry latest
  rcases latest_append latest with ⟨earlier,-⟩ | ⟨rfl,value,returned⟩
  · exact intact entry earlier
  · cases returned

theorem Intact.done {log : List Entry} {seen after : Tables} {call : Call} {value : Value}
    (intact : Intact log seen) (done : call.statement seen = .ok (after,value))
    (result : Except Error Value) : Intact (log ++ [⟨seen,call,result⟩]) after := by
  intro entry latest
  rcases latest_append latest with ⟨earlier,elsewhere⟩ | ⟨rfl,-⟩
  · exact (intact entry earlier).same (statement_frame elsewhere done)
  · exact statement_written done

/-! ## The runs -/

/-- The open transaction only adds to what is committed, which has everything that a call has
returned for; and nothing but another call changes what the latest has written. -/
structure Sound (s : State) : Prop where
  ahead : ∀ seen, s.connection = some seen → Extends s.disk seen ∧ Intact s.log seen
  kept : ∀ entry ∈ s.log, ∀ value, entry.result = .ok value → Left entry.seen s.disk entry.call
  intact : Intact s.log s.disk

theorem Intact.none (tables : Tables) : Intact [] tables := by
  rintro entry ⟨before,after,value,split,-⟩
  simp at split

theorem Sound.fresh : Sound fresh :=
  ⟨fun _ opened => (nomatch opened),fun _ among => (nomatch among),.none _⟩

theorem opened_extends (tables : Tables) : Extends tables tables.opened := by
  unfold Tables.opened
  split
  · exact ⟨fun _ there => there,fun _ row found => ⟨row,found,.refl row⟩,List.prefix_rfl⟩
  · exact .refl tables

theorem Intact.opened {log : List Entry} {tables : Tables} (intact : Intact log tables) :
    Intact log tables.opened := by
  intro entry latest
  refine (intact entry latest).same ?_
  unfold Tables.opened
  split <;> cases entry.call.place <;> rfl

theorem Sound.done {s : State} {seen after : Tables} {call : Call} {value : Value} (inv : Sound s)
    (opened : s.connection = some seen) (proper : call.Proper)
    (done : call.statement seen = .ok (after,value)) : Extends s.disk after ∧
      Sound ⟨after,some after,s.log ++ [⟨seen,call,.ok value⟩]⟩ := by
  obtain ⟨ahead,current⟩ := inv.ahead seen opened
  obtain ⟨extended,left⟩ := statement_extends proper done
  have kept := ahead.trans extended
  have written := current.done done (.ok value)
  refine ⟨kept,fun _ held => ?_,fun entry among other returned => ?_,written⟩
  · cases held
    exact ⟨.refl after,written⟩
  · rcases List.mem_append.mp among with before | last
    · exact (inv.kept entry before other returned).lasts kept
    · cases List.mem_singleton.mp last
      exact left

theorem Sound.refused {s : State} {after : Tables} (inv : Sound s) (seen : Tables) (call : Call)
    (error : Error) (ahead : Extends s.disk after)
    (current : Intact (s.log ++ [⟨seen,call,.error error⟩]) after) :
    Sound ⟨s.disk,some after,s.log ++ [⟨seen,call,.error error⟩]⟩ := by
  refine ⟨fun _ held => ?_,fun entry among value returned => ?_,inv.intact.refused seen call error⟩
  · cases held
    exact ⟨ahead,current⟩
  · rcases List.mem_append.mp among with before | last
    · exact inv.kept entry before value returned
    · cases List.mem_singleton.mp last
      cases returned

/-- What a step does to the file. -/
theorem step_sound {unicode : PyStr.Unicode} {s t : State} {op : Op} (inv : Sound s)
    (taken : step unicode s op = some t) : Extends s.disk t.disk ∧ Sound t := by
  cases op with
  | opens works =>
    obtain ⟨-,taken⟩ := Option.ite_none_right_eq_some.mp taken
    cases works with
    | false => cases taken; exact ⟨.refl _,inv⟩
    | true =>
      cases taken
      have extended := opened_extends s.disk
      refine ⟨extended,fun seen opened => ?_,fun entry among value result => ?_,inv.intact.opened⟩
      · cases opened
        exact ⟨.refl _,inv.intact.opened⟩
      · exact (inv.kept entry among value result).lasts extended
  | ends =>
    cases taken
    exact ⟨.refl _,⟨fun _ opened => (by cases opened),inv.kept,inv.intact⟩⟩
  | call luck call =>
    simp only [step] at taken
    split at taken
    · cases taken
    · next seen opened =>
      obtain ⟨ahead,current⟩ := inv.ahead seen opened
      have fares := perform_fares ⟨s.disk,seen⟩ unicode luck call
      generalize Database.fate ⟨s.disk,seen⟩ luck call = fate at fares
      generalize Database.perform ⟨s.disk,seen⟩ unicode luck call = made at taken fares
      obtain ⟨result,db⟩ := made
      cases taken
      cases fares with
      | done proper done => exact inv.done opened proper done
      | failed error =>
        exact ⟨.refl _,inv.refused seen call error ahead (current.refused seen call error)⟩
      | undone error =>
        have again := inv.intact.refused seen call error
        exact ⟨.refl _,inv.refused seen call error (.refl _) again⟩
      | pending error proper done =>
        have later := ahead.trans (statement_extends proper done).1
        exact ⟨.refl _,inv.refused seen call error later (current.done done _)⟩

theorem step_log {unicode : PyStr.Unicode} {s t : State} {op : Op}
    (taken : step unicode s op = some t) : s.log <+: t.log := by
  cases op with
  | opens works =>
    obtain ⟨-,taken⟩ := Option.ite_none_right_eq_some.mp taken
    cases works <;> cases taken <;> exact List.prefix_rfl
  | ends =>
    cases taken
    exact List.prefix_rfl
  | call luck call =>
    simp only [step] at taken
    split at taken
    · cases taken
    · cases taken
      exact List.prefix_append ..

theorem run_extends {unicode : PyStr.Unicode} {s t : State} {ops : List Op} (inv : Sound s)
    (reached : run (step unicode) s ops = some t) :
    Extends s.disk t.disk ∧ s.log <+: t.log ∧ Sound t := by
  induction ops generalizing s with
  | nil => cases reached; exact ⟨.refl _,List.prefix_rfl,inv⟩
  | cons op ops ih =>
    obtain ⟨u,taken,reached⟩ := run_cons_iff.mp reached
    obtain ⟨first,between⟩ := step_sound inv taken
    obtain ⟨rest,more,last⟩ := ih between reached
    exact ⟨first.trans rest,(step_log taken).trans more,last⟩

/-- Whatever happens to later processes, what is in the file stays there; what a call has returned
for is in the file; and it is there, and read, as the call has written it until another goes to its
place. -/
theorem returned_calls_last (unicode : PyStr.Unicode) (ops rest : List Op) (s u : State)
    (reached : run (step unicode) fresh ops = some s) (later : run (step unicode) s rest = some u) :
    Extends s.disk u.disk ∧ s.log <+: u.log ∧
    (∀ entry ∈ u.log, ∀ value, entry.result = .ok value → Left entry.seen u.disk entry.call) ∧
    Intact u.log u.disk ∧ ∀ seen, u.connection = some seen → Intact u.log seen := by
  obtain ⟨-,-,sound⟩ := run_extends .fresh reached
  obtain ⟨kept,more,last⟩ := run_extends sound later
  exact ⟨kept,more,last.kept,last.intact,fun seen opened => (last.ahead seen opened).2⟩

/-- A process records a turn and dies. -/
def firstLife : List Op :=
  [.opens true,.call .works .nextTurnId,
    .call .works (.recordTurn 1 (text "balloon") (text "s1") 1000),.ends]

/-- The commit of the next one fails. -/
def secondLife : List Op :=
  [.opens true,.call (.commitFails false) .nextTurnId,.ends]

theorem secondLife_lasts : ∃ s u, run (step .widest) fresh firstLife = some s ∧
    run (step .widest) s secondLife = some u ∧ Extends s.disk u.disk ∧ s.log <+: u.log ∧
    (∀ entry ∈ u.log, ∀ value, entry.result = .ok value → Left entry.seen u.disk entry.call) ∧
    Intact u.log u.disk ∧ ∀ seen, u.connection = some seen → Intact u.log seen := by
  have completes : ∃ u, run (step .widest) fresh (firstLife ++ secondLife) = some u ∧ True :=
    exists_of_eval (by decide)
  have begins : ∃ s, run (step .widest) fresh firstLife = some s ∧ True :=
    exists_of_eval (by decide)
  obtain ⟨s,reached,-⟩ := begins
  obtain ⟨u,later,-⟩ := completes
  rw [run_append reached] at later
  exact ⟨s,u,reached,later,returned_calls_last .widest firstLife secondLife s u reached later⟩

/-! ## The turn counter -/

theorem digit_not_blank {c : CodePoint} (digit : Json.isDigit c = true) : isBlank c = false := by
  simp only [Json.isDigit,Bool.and_eq_true,decide_eq_true_eq] at digit
  have low : (0x30 : Nat) ≤ c.val := digit.1
  simp only [isBlank,Bool.or_eq_false_iff,decide_eq_false_iff_not,Bool.and_eq_false_iff]
  refine ⟨fun same => ?_,.inr fun within => ?_⟩
  · have value : c.val = 0x20 := by rw [same]; rfl
    omega
  · have value : c.val ≤ 0x0d := within
    omega

theorem castInteger_number (n : Nat) (small : (n : Int) ≤ maxInteger) :
    castInteger (text (toString n)) = n := by
  have digits := Json.digits_toDigits n
  have value := Json.digitsValue_toDigits n
  rw [text,Json.ofString_toString]
  generalize (Nat.toDigits 10 n).map Char.codePoint = written at digits value
  have unblank : written.dropWhile isBlank = written := by
    cases written with
    | nil => rfl
    | cons d rest => exact List.dropWhile_cons_of_neg (by simp [digit_not_blank (digits.2 d (by simp))])
  have unsigned : Json.scanSign Json.isSign ([] ++ (written ++ [])) = ([],written ++ []) :=
    Json.scanSign_digits (.inl rfl) digits (fun c => Json.digit_not_sign) []
  have whole : written.takeWhile Json.isDigit = written := List.takeWhile_eq_self_iff.mpr digits.2
  simp only [List.nil_append,List.append_nil] at unsigned
  simp only [castInteger,unblank,unsigned,whole,value]
  rw [if_neg (by simp),clamp,if_neg (by simp only [maxInteger]; omega),if_neg (by omega)]

/-- The counter stands at a number. -/
def Counts (tables : Tables) (n : Nat) : Prop :=
  tables.kv counterKey = if n = 0 then none else some (text (toString n))

theorem Counts.next {tables : Tables} {n : Nat} (counts : Counts tables n)
    (small : (n : Int) < maxInteger) : tables.nextCount = text (toString (n + 1)) := by
  simp only [Counts] at counts
  split_ifs at counts with zero
  · subst zero
    simp only [Tables.nextCount,counts]
    rfl
  · have value := castInteger_number n (Int.le_of_lt small)
    simp only [Tables.nextCount,counts,increment,value]
    rw [if_neg (Int.ne_of_lt small)]
    rfl

/-- No call but `next_turn_id` touches the counter. -/
def Call.Foreign : Call → Prop
  | .kvSet key _ => key ≠ counterKey
  | _ => True

theorem statement_counts {call : Call} {before after : Tables} {value : Value} {n : Nat}
    (foreign : call.Foreign) (counts : Counts before n) (small : (n : Int) < maxInteger)
    (done : call.statement before = .ok (after,value)) :
    (call = .nextTurnId ∧ value = .integer (n + 1) ∧ Counts after (n + 1)) ∨
    (call ≠ .nextTurnId ∧ Counts after n) := by
  cases call with
  | nextTurnId =>
    cases done
    have next := counts.next small
    refine .inl ⟨rfl,?_,?_⟩
    · rw [next,castInteger_number (n + 1) (by push_cast; omega)]
      push_cast
      rfl
    · simp [Counts,next]
  | kvSet key content =>
    cases kvSet_ok done
    refine .inr ⟨nofun,?_⟩
    rw [Counts,setKv_kv,Function.update_of_ne (Ne.symm foreign)]
    exact counts
  | recordTurn =>
    obtain ⟨-,valid,rfl⟩ := recordTurn_ok done
    exact .inr ⟨nofun,counts⟩
  | finishTurn =>
    rcases finishTurn_ok done with ⟨-,rfl⟩ | ⟨row,valid,-,rfl⟩
    · exact .inr ⟨nofun,counts⟩
    · exact .inr ⟨nofun,counts⟩
  | appendMessage =>
    obtain ⟨-,kv,-,-⟩ := appendMessage_ok done
    exact .inr ⟨nofun,by rw [Counts,kv]; exact counts⟩

/-- After at most `k` steps: the file's counter has reached every id that was issued, and the
connection's counter is not behind it. -/
structure Numbered (s : State) (k : Nat) : Prop where
  disk : ∃ d, Counts s.disk d ∧ d ≤ k ∧ (∀ i ∈ issued s.log, 0 < i ∧ i ≤ d) ∧
    ∀ seen, s.connection = some seen → ∃ n, Counts seen n ∧ d ≤ n ∧ n ≤ k
  ascending : (issued s.log).Pairwise (· < ·)

theorem Numbered.fresh : Numbered fresh 0 :=
  ⟨⟨0,rfl,Nat.le_refl 0,fun _ among => (nomatch among),fun _ opened => (nomatch opened)⟩,.nil⟩

theorem issued_append (log : List Entry) (entry : Entry) :
    issued (log ++ [entry]) = issued log ++ issued [entry] := List.filterMap_append

def Op.Foreign : Op → Prop
  | .call _ made => made.Foreign
  | _ => True

theorem opened_counts {tables : Tables} {n : Nat} (counts : Counts tables n) :
    Counts tables.opened n := by
  unfold Tables.opened
  split <;> exact counts

theorem Numbered.step {unicode : PyStr.Unicode} {s t : State} {op : Op} {k : Nat}
    (inv : Numbered s k) (foreign : op.Foreign) (few : (k : Int) < maxInteger)
    (taken : step unicode s op = some t) : Numbered t (k + 1) := by
  obtain ⟨⟨d,counts,bounded,reached,open_⟩,ascending⟩ := inv
  cases op with
  | opens works =>
    obtain ⟨-,taken⟩ := Option.ite_none_right_eq_some.mp taken
    cases works with
    | false =>
      cases taken
      refine ⟨⟨d,counts,by omega,reached,fun seen opened => ?_⟩,ascending⟩
      obtain ⟨n,seenCounts,least,most⟩ := open_ seen opened
      exact ⟨n,seenCounts,least,by omega⟩
    | true =>
      cases taken
      refine ⟨⟨d,opened_counts counts,by omega,reached,fun seen opened => ?_⟩,ascending⟩
      cases opened
      exact ⟨d,opened_counts counts,le_refl d,by omega⟩
  | ends =>
    cases taken
    exact ⟨⟨d,counts,by omega,reached,fun _ opened => (nomatch opened)⟩,ascending⟩
  | call luck call =>
    simp only [CoreStore.step] at taken
    split at taken
    · cases taken
    · next seen opened =>
      obtain ⟨n,seenCounts,least,most⟩ := open_ seen opened
      have small : (n : Int) < maxInteger := by omega
      have fares := perform_fares ⟨s.disk,seen⟩ unicode luck call
      generalize Database.fate ⟨s.disk,seen⟩ luck call = fate at fares
      generalize Database.perform ⟨s.disk,seen⟩ unicode luck call = made at taken fares
      obtain ⟨result,db⟩ := made
      cases taken
      have silent (error : Error) : issued (s.log ++ [⟨seen,call,.error error⟩]) = issued s.log := by
        rw [issued_append]
        cases call <;> exact List.append_nil _
      cases fares with
      | @done tables value proper done =>
        rcases statement_counts foreign seenCounts small done with ⟨rfl,rfl,next⟩ | ⟨other,same⟩
        · have more : issued (s.log ++ [⟨seen,.nextTurnId,.ok (.integer (n + 1))⟩]) =
              issued s.log ++ [((n + 1 : Nat) : Int)] := issued_append ..
          refine ⟨⟨n + 1,next,by omega,fun i among => ?_,fun _ opened => ?_⟩,?_⟩
          · rw [more] at among
            rcases List.mem_append.mp among with before | last
            · have := reached i before
              omega
            · rw [List.mem_singleton.mp last]
              omega
          · cases opened
            exact ⟨n + 1,next,le_refl _,by omega⟩
          · rw [more,List.pairwise_append]
            refine ⟨ascending,List.pairwise_singleton _ _,fun i among j last => ?_⟩
            rw [List.mem_singleton.mp last]
            have := reached i among
            omega
        · have same_ : issued (s.log ++ [⟨seen,call,.ok value⟩]) = issued s.log := by
            rw [issued_append]
            cases call with
            | nextTurnId => exact absurd rfl other
            | _ => exact List.append_nil _
          refine ⟨⟨n,same,by omega,fun i among => ?_,fun _ opened => ?_⟩,by rw [same_]; exact ascending⟩
          · rw [same_] at among
            have := reached i among
            omega
          · cases opened
            exact ⟨n,same,le_refl n,by omega⟩
      | failed error =>
        refine ⟨⟨d,counts,by omega,by rw [silent]; exact reached,fun _ opened => ?_⟩,
          by rw [silent]; exact ascending⟩
        cases opened
        exact ⟨n,seenCounts,least,by omega⟩
      | undone error =>
        refine ⟨⟨d,counts,by omega,by rw [silent]; exact reached,fun _ opened => ?_⟩,
          by rw [silent]; exact ascending⟩
        cases opened
        exact ⟨d,counts,le_refl d,by omega⟩
      | @pending tables value error proper done =>
        refine ⟨⟨d,counts,by omega,by rw [silent]; exact reached,fun _ opened => ?_⟩,
          by rw [silent]; exact ascending⟩
        cases opened
        rcases statement_counts foreign seenCounts small done with ⟨rfl,-,next⟩ | ⟨-,same⟩
        · exact ⟨n + 1,next,by omega,by omega⟩
        · exact ⟨n,same,least,by omega⟩

theorem Numbered.run {unicode : PyStr.Unicode} {s t : State} {ops : List Op} {k : Nat}
    (inv : Numbered s k) (foreign : ∀ op ∈ ops, op.Foreign)
    (few : ((k + ops.length : Nat) : Int) ≤ maxInteger)
    (reached : Machine.run (CoreStore.step unicode) s ops = some t) :
    Numbered t (k + ops.length) := by
  induction ops generalizing s k with
  | nil => cases reached; exact inv
  | cons op ops ih =>
    obtain ⟨u,taken,reached⟩ := run_cons_iff.mp reached
    rw [List.length_cons] at few ⊢
    have next := inv.step (foreign op (by simp)) (by push_cast at few; omega) taken
    have last := ih next (fun op' among => foreign op' (by simp [among])) (by push_cast at few ⊢; omega)
      reached
    rwa [show k + (ops.length + 1) = k + 1 + ops.length by omega]

/-- No id is issued twice, in however many processes. -/
theorem ids_never_reused (unicode : PyStr.Unicode) (ops : List Op) (s : State)
    (reached : run (step unicode) fresh ops = some s) (foreign : ∀ op ∈ ops, op.Foreign)
    (few : (ops.length : Int) ≤ maxInteger) :
    (issued s.log).Pairwise (· < ·) ∧ ∀ i ∈ issued s.log, 0 < i := by
  have numbered := Numbered.fresh.run foreign (by simpa using few) reached
  obtain ⟨d,_,_,bounds,_⟩ := numbered.disk
  exact ⟨numbered.ascending,fun i among => (bounds i among).1⟩

/-- The id of the failed commit has not been returned, and is issued to the third process. -/
theorem threeLives_ascend : ∃ s,
    run (step .widest) fresh (firstLife ++ secondLife ++ firstLife) = some s ∧
    issued s.log = [1,2] ∧ (issued s.log).Pairwise (· < ·) ∧ ∀ i ∈ issued s.log, 0 < i := by
  have completes : ∃ s, run (step .widest) fresh (firstLife ++ secondLife ++ firstLife) = some s ∧
      issued s.log = [1,2] := exists_of_eval (by decide)
  obtain ⟨s,reached,ids⟩ := completes
  refine ⟨s,reached,ids,ids_never_reused .widest _ s reached ?_ (by decide)⟩
  intro op among
  simp only [firstLife,secondLife,List.mem_append,List.mem_cons,List.not_mem_nil,or_false] at among
  rcases among with (((rfl | rfl | rfl | rfl) | (rfl | rfl | rfl)) | (rfl | rfl | rfl | rfl))
  all_goals trivial

end GhostRunner.CoreStore
