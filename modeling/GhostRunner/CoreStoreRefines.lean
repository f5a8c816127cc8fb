import GhostRunner.CoreStoreRuns
import GhostRunner.Prompt
import GhostRunner.WireMessages

/-! `CoreStore` does for the orchestrator and its `TurnManager` what their model says of the store,
but for what a failed commit leaves behind: the ledger keeps one store that is committed and one that
the connection sees. -/
namespace GhostRunner.CoreStore

open Machine
open Orchestrator (Store Status)

/-! ## The calls that they make -/

inductive Use where
  | nextTurnId
  | recordTurn (t : Nat) (origin : Origin) (owner : Nat)
  | finishTurn (t : Nat) (status : Status) (reason : Option String)
  | appendMessage (t : Nat) (role : Orchestrator.Role) (message : String)

/-- What they keep to: a row is made for a turn that was issued, and a turn is not finished as
active. The counter does not run out. -/
def Use.Legal (store : Store) : Use → Prop
  | .nextTurnId => (store.counter : Int) < maxInteger
  | .recordTurn t _ _ => t ≤ store.counter
  | .finishTurn _ status _ => status ≠ .active
  | .appendMessage _ _ _ => True

instance Use.decidableLegal (store : Store) (use : Use) : Decidable (use.Legal store) := by
  cases use <;> unfold Use.Legal <;> infer_instance

/-- What the model of the store does. -/
def Use.effect (store : Store) : Use → Store
  | .nextTurnId => store.nextTurnId.1
  | .recordTurn t origin owner =>
    if issued : t ≤ store.counter then store.recordTurn t issued origin owner else store
  | .finishTurn t status reason => store.finishTurn t status reason
  | .appendMessage t role message => store.appendMessage t role message

/-- The store as the file has it, and as the connection sees it. -/
structure Ledger where
  committed : Store
  current : Store

def Ledger.empty : Ledger := ⟨Orchestrator.emptyStore,Orchestrator.emptyStore⟩

/-- A use that is done commits what is pending with it; one that is undone drops it. -/
def ledgerStep (ledger : Ledger) : Use × Fate → Option Ledger
  | (use,.done) =>
    if use.Legal ledger.current then some ⟨use.effect ledger.current,use.effect ledger.current⟩
    else none
  | (_,.failed) => some ledger
  | (_,.undone) => some ⟨ledger.committed,ledger.committed⟩
  | (use,.pending) =>
    if use.Legal ledger.current then some { ledger with current := use.effect ledger.current }
    else none

/-- What the uses that are done make of a store. -/
def returned (store : Store) (uses : List (Use × Fate)) : Store :=
  uses.foldl (fun store (use,fate) => if fate = .done then use.effect store else store) store

theorem settled_step {store : Store} {use : Use} {fate : Fate} {ledger : Ledger}
    (settled : fate ≠ .pending) (taken : ledgerStep ⟨store,store⟩ (use,fate) = some ledger) :
    ledger = ⟨returned store [(use,fate)],returned store [(use,fate)]⟩ := by
  cases fate with
  | done =>
    obtain ⟨-,made⟩ := Option.ite_none_right_eq_some.mp taken
    cases made
    rfl
  | failed => cases taken; rfl
  | undone => cases taken; rfl
  | pending => exact absurd rfl settled

/-- With no commit left pending, a call that raises is as if it had not been made. -/
theorem settled_run {store : Store} {uses : List (Use × Fate)} {ledger : Ledger}
    (settled : ∀ use ∈ uses, use.2 ≠ .pending)
    (taken : run ledgerStep ⟨store,store⟩ uses = some ledger) :
    ledger = ⟨returned store uses,returned store uses⟩ := by
  induction uses generalizing store with
  | nil => cases taken; rfl
  | cons use uses ih =>
    obtain ⟨between,step,rest⟩ := run_cons_iff.mp taken
    have made := settled_step (settled use (by simp)) step
    subst made
    exact ih (fun later among => settled later (by simp [among])) rest

section Session

variable (session : Nat → PyStr)

def roleName (role : Orchestrator.Role) : PyStr := text (Prompt.Role.ofStored role).name

def Use.call (now : Int) : Use → Call
  | .nextTurnId => .nextTurnId
  | .recordTurn t origin owner => .recordTurn t (text origin.name) (session owner) now
  | .finishTurn t status reason => .finishTurn t (text status.name) (reason.map text) now
  | .appendMessage t role message => .appendMessage t (roleName role) (text message) now

structure Attempt where
  use : Use
  now : Int
  luck : Luck

/-- The database makes the call, and says what has become of it. -/
def attemptStep (unicode : PyStr.Unicode) (db : Database) (attempt : Attempt) :
    Database × List (Use × Fate) :=
  let call := attempt.use.call session attempt.now
  ((db.perform unicode attempt.luck call).2,[(attempt.use,db.fate attempt.luck call)])

/-! ## One store, seen twice -/

def TurnRow.content (row : TurnRow) : PyStr × PyStr × PyStr × Option PyStr :=
  (row.origin,row.ownerSession,row.status,row.cancelReason)

def rowContent (row : Orchestrator.Row) : PyStr × PyStr × PyStr × Option PyStr :=
  (text row.origin.name,session row.owner,text row.status.name,row.reason.map text)

def MessageRow.content (m : MessageRow) : Int × PyStr × PyStr := (m.turnId,m.role,m.text)

def messageContent (m : Orchestrator.Message) : Int × PyStr × PyStr :=
  (m.turn,roleName m.role,text m.text)

/-- The tables hold what the store holds, and the times. -/
structure Stores (tables : Tables) (store : Store) : Prop where
  counter : Counts tables store.counter
  rows : ∀ t : Nat, (tables.turns t).map TurnRow.content = (store.rows t).map (rowContent session)
  messages : tables.messages.map MessageRow.content = store.messages.map messageContent

theorem Stores.empty : Stores session .empty Orchestrator.emptyStore := ⟨rfl,fun _ => rfl,rfl⟩

variable {session}

theorem terminal_name {status : Status} (gone : status ≠ .active) : text status.name ∈ terminal := by
  cases status with
  | active => exact absurd rfl gone
  | done => decide
  | cancelled => decide
  | error => decide

theorem Use.proper {store : Store} {use : Use} (legal : use.Legal store) (now : Int) :
    (use.call session now).Proper := by
  cases use with
  | finishTurn t status reason => exact terminal_name legal
  | _ => trivial

theorem Use.foreign (use : Use) (now : Int) : (use.call session now).Foreign := by
  cases use <;> trivial

/-- What the statement of a use does is what the model of the store does. -/
theorem statement_effect {store : Store} {use : Use} {now : Int} {before after : Tables}
    {value : Value} (stores : Stores session before store) (legal : use.Legal store)
    (done : (use.call session now).statement before = .ok (after,value)) :
    Stores session after (use.effect store) := by
  cases use with
  | nextTurnId =>
    have foreign : Call.Foreign .nextTurnId := trivial
    rcases statement_counts foreign stores.counter legal done with ⟨_,_,counts⟩ | ⟨other,_⟩
    · cases done
      exact ⟨counts,stores.rows,stores.messages⟩
    · exact absurd rfl other
  | recordTurn t origin owner =>
    obtain ⟨absent,valid,rfl⟩ := recordTurn_ok done
    have issued : t ≤ store.counter := legal
    simp only [Use.effect,dif_pos issued]
    refine ⟨stores.counter,fun t' => ?_,stores.messages⟩
    by_cases same : t' = t
    · subst same
      simp [Tables.putTurn,Store.recordTurn,TurnRow.content,rowContent,Status.name]
    · have other : (t' : Int) ≠ t := by omega
      simpa [Tables.putTurn,Store.recordTurn,same,other] using stores.rows t'
  | finishTurn t status reason =>
    have known := stores.rows t
    rcases finishTurn_ok done with ⟨absent,rfl⟩ | ⟨row,valid,found,rfl⟩
    · rw [absent,Option.map_none,eq_comm,Option.map_eq_none_iff] at known
      refine ⟨stores.counter,fun t' => ?_,stores.messages⟩
      by_cases same : t' = t
      · subst same
        simp [Use.effect,Store.finishTurn,known,absent]
      · simpa [Use.effect,Store.finishTurn,same] using stores.rows t'
    · rw [found,Option.map_some,eq_comm,Option.map_eq_some_iff] at known
      obtain ⟨own,there,content⟩ := known
      simp only [rowContent,TurnRow.content,Prod.mk.injEq] at content
      refine ⟨stores.counter,fun t' => ?_,stores.messages⟩
      by_cases same : t' = t
      · subst same
        simp [Use.effect,Store.finishTurn,Tables.putTurn,there,TurnRow.content,rowContent,
          content.1,content.2.1]
      · have other : (t' : Int) ≠ t := by omega
        simpa [Use.effect,Store.finishTurn,Tables.putTurn,same,other] using stores.rows t'
  | appendMessage t role message =>
    obtain ⟨-,kv,turns,messages⟩ := appendMessage_ok done
    refine ⟨by rw [Counts,kv]; exact stores.counter,fun t' => by rw [turns]; exact stores.rows t',?_⟩
    simp [messages,stores.messages,Use.effect,Store.appendMessage,MessageRow.content,messageContent]

variable (session) in
/-- The file holds the committed store, and the connection sees the current one. -/
structure Database.Keeps (db : Database) (ledger : Ledger) : Prop where
  committed : Stores session db.disk ledger.committed
  current : Stores session db.seen ledger.current

theorem attempt_refines {unicode : PyStr.Unicode} {db : Database} {ledger ledger' : Ledger}
    {attempt : Attempt} (keeps : db.Keeps session ledger)
    (taken : ledgerStep ledger (attempt.use,db.fate attempt.luck
      (attempt.use.call session attempt.now)) = some ledger') :
    (attemptStep session unicode db attempt).1.Keeps session ledger' := by
  have fares := perform_fares db unicode attempt.luck (attempt.use.call session attempt.now)
  simp only [attemptStep]
  generalize db.fate attempt.luck (attempt.use.call session attempt.now) = fate at fares taken
  generalize db.perform unicode attempt.luck (attempt.use.call session attempt.now) = made at fares
  obtain ⟨result,after⟩ := made
  cases fares with
  | done proper done =>
    obtain ⟨legal,made⟩ := Option.ite_none_right_eq_some.mp taken
    cases made
    have stores := statement_effect keeps.current legal done
    exact ⟨stores,stores⟩
  | failed error =>
    cases taken
    exact keeps
  | undone error =>
    cases taken
    exact ⟨keeps.committed,keeps.committed⟩
  | pending error proper done =>
    obtain ⟨legal,made⟩ := Option.ite_none_right_eq_some.mp taken
    cases made
    exact ⟨keeps.committed,statement_effect keeps.current legal done⟩

/-- `recent_messages` reads what the prompt is made of. -/
theorem recentMessages_same {db : Database} {store : Store} (stores : Stores session db.seen store)
    (limit : Nat) (small : (limit : Int) ≤ maxInteger) : db.recentMessages limit =
      .ok ((Prompt.recentMessages (Prompt.table store) limit).map fun (role,message) =>
        (text role.name,text message)) := by
  have within : bindInteger limit = .ok () := if_pos ⟨by simp only [maxInteger]; omega,small⟩
  have pairs : db.seen.messages.map (fun m => (m.role,m.text)) =
      (Prompt.table store).map fun m => (text m.role.name,text m.text) := by
    have both := congrArg (List.map fun m : Int × PyStr × PyStr => m.2) stores.messages
    simp only [List.map_map] at both
    rw [Prompt.table,List.map_map]
    exact both
  have reading : ¬(limit : Int) < 0 := by omega
  simp only [Database.recentMessages,within,bind,Except.bind,pure,Except.pure,if_neg reading,
    Int.toNat_natCast,Prompt.recentMessages]
  rw [List.map_take,List.map_reverse,pairs]
  simp [List.map_take,Function.comp_def]

theorem attempts_refine {unicode : PyStr.Unicode} {attempts : List Attempt} {db : Database}
    {ledger ledger' : Ledger} (keeps : db.Keeps session ledger)
    (taken : run ledgerStep ledger (transduce (attemptStep session unicode) db attempts).2 =
      some ledger') :
    (transduce (attemptStep session unicode) db attempts).1.Keeps session ledger' := by
  induction attempts generalizing db ledger with
  | nil =>
    cases taken
    exact keeps
  | cons attempt attempts ih =>
    obtain ⟨next,step,rest⟩ := run_cons_iff.mp taken
    exact ih (attempt_refines keeps step) rest

/-- Over any calls of one process, whatever becomes of each, the file holds what the model of the
store makes of those that are committed, the connection sees those that are pending too, and the
history is read as the connection sees it. Where none was left pending, the calls that have returned
make both. -/
theorem calls_refine_store (unicode : PyStr.Unicode) (session : Nat → PyStr)
    (attempts : List Attempt) (db db' : Database) (uses : List (Use × Fate))
    (ledger ledger' : Ledger)
    (attempted : transduce (attemptStep session unicode) db attempts = (db',uses))
    (keeps : db.Keeps session ledger) (taken : run ledgerStep ledger uses = some ledger') :
    db'.Keeps session ledger' ∧
    (∀ limit : Nat, (limit : Int) ≤ maxInteger → db'.recentMessages limit =
      .ok ((Prompt.recentMessages (Prompt.table ledger'.current) limit).map fun (role,message) =>
        (text role.name,text message))) ∧
    ((∀ use ∈ uses, use.2 ≠ .pending) → ∀ store, ledger = ⟨store,store⟩ →
      ledger' = ⟨returned store uses,returned store uses⟩) := by
  obtain ⟨rfl,rfl⟩ := Prod.ext_iff.mp attempted
  have refined := attempts_refine keeps taken
  refine ⟨refined,fun limit small => recentMessages_same refined.current limit small,?_⟩
  rintro settled store rfl
  exact settled_run settled taken

end Session

/-- A turn whose reply was not stored at first, and then only with the end of the turn. -/
def storedLate : List Attempt :=
  [⟨.nextTurnId,0,.works⟩,⟨.recordTurn 1 .balloon 7,0,.works⟩,
    ⟨.appendMessage 1 .user "hi",1,.works⟩,⟨.appendMessage 1 .assistant "lost",2,.commitFails true⟩,
    ⟨.appendMessage 1 .assistant "hello",3,.commitFails false⟩,⟨.finishTurn 1 .done none,4,.works⟩]

def numbered (owner : Nat) : PyStr := text (toString owner)

theorem storedLate_refines : ∃ db' uses ledger',
    transduce (attemptStep numbered .widest) ⟨.empty,.empty⟩ storedLate = (db',uses) ∧
    run ledgerStep .empty uses = some ledger' ∧
    ledger'.committed.messages = [⟨1,.user,"hi"⟩,⟨1,.assistant,"hello"⟩] ∧
    db'.Keeps numbered ledger' := by
  have completes : ∃ ledger', run ledgerStep .empty
      (transduce (attemptStep numbered .widest) ⟨.empty,.empty⟩ storedLate).2 = some ledger' ∧
      ledger'.committed.messages = [⟨1,.user,"hi"⟩,⟨1,.assistant,"hello"⟩] :=
    exists_of_eval (by decide)
  obtain ⟨ledger',taken,messages⟩ := completes
  have empty : Stores numbered Tables.empty Orchestrator.emptyStore := .empty numbered
  exact ⟨_,_,ledger',rfl,taken,messages,(calls_refine_store .widest numbered storedLate
    ⟨.empty,.empty⟩ _ _ .empty ledger' rfl ⟨empty,empty⟩ taken).1⟩

end GhostRunner.CoreStore
