import GhostRunner.Orchestrator

/-! The messages that `_run_chat_turn` hands to `chat_stream`: `_prompt`
(`orchestrator/orchestrator.py`) over the `messages` table (`store.py`). The rows of the table
stand in the order of their ids. A turn reaches its prompt only when its text has been stored. -/
namespace GhostRunner.Prompt

/-- What the `CHECK` on the column admits. -/
inductive Role where
  | user
  | assistant
  | tool
  deriving DecidableEq, Repr

def Role.name : Role → String
  | .user => "user"
  | .assistant => "assistant"
  | .tool => "tool"

structure Message where
  turnId : Nat
  role : Role
  text : String
  deriving DecidableEq, Repr

/-- A message as the model reads it. -/
structure ChatMessage where
  role : String
  content : String
  deriving DecidableEq, Repr

structure LlmConfig where
  systemPrompt : String
  historyMessages : Nat

def appendMessage (messages : List Message) (turnId : Nat) (role : Role) (text : String) :
    List Message := messages ++ [⟨turnId,role,text⟩]

/-- `ORDER BY id DESC LIMIT ?`, then reversed. -/
def recentMessages (messages : List Message) (limit : Nat) : List (Role × String) :=
  ((messages.reverse.take limit).map fun m => (m.role,m.text)).reverse

def prompt (cfg : LlmConfig) (messages : List Message) (text : String) : List ChatMessage :=
  [⟨"system",cfg.systemPrompt⟩] ++
    ((recentMessages messages cfg.historyMessages).filterMap fun (role,msg) =>
      if role = .user ∨ role = .assistant then some ⟨role.name,msg⟩ else none) ++
    [⟨"user",text⟩]

/-- The start of `_run_chat_turn`. -/
def turnPrompt (cfg : LlmConfig) (messages : List Message) (turnId : Nat) (text : String) :
    List ChatMessage := prompt cfg (appendMessage messages turnId .user text) text

/-! ## In the orchestrator -/

def Role.ofStored : Orchestrator.Role → Role
  | .user => .user
  | .assistant => .assistant

/-- The table as the orchestrator writes it. -/
def table (store : Orchestrator.Store) : List Message :=
  store.messages.map fun m => ⟨m.turn,.ofStored m.role,m.text⟩

/-! ## What the prompt holds -/

/-- The conversation in a stretch of the table. -/
def conversation (messages : List Message) : List ChatMessage :=
  (messages.filter fun m => m.role = .user ∨ m.role = .assistant).map fun m => ⟨m.role.name,m.text⟩

/-- The most recent messages, the oldest first. -/
def window (messages : List Message) (limit : Nat) : List Message :=
  messages.drop (messages.length - limit)

theorem prompt_eq (cfg : LlmConfig) (messages : List Message) (text : String) :
    prompt cfg messages text = [⟨"system",cfg.systemPrompt⟩] ++
      conversation (window messages cfg.historyMessages) ++ [⟨"user",text⟩] := by
  have recent : recentMessages messages cfg.historyMessages =
      (window messages cfg.historyMessages).map fun m => (m.role,m.text) := by
    rw [recentMessages,window,List.take_reverse,← List.map_reverse,List.reverse_reverse]
  have talk (stretch : List Message) :
      ((stretch.map fun m => (m.role,m.text)).filterMap fun (role,msg) =>
        if role = .user ∨ role = .assistant then some ⟨role.name,msg⟩ else none) =
      conversation stretch := by
    induction stretch with
    | nil => rfl
    | cons m stretch ih =>
      by_cases chat : m.role = .user ∨ m.role = .assistant
      · simp [conversation,chat] at ih ⊢
        exact ih
      · simp [conversation,chat] at ih ⊢
        exact ih
  rw [prompt,recent,talk]

theorem conversation_append (first rest : List Message) :
    conversation (first ++ rest) = conversation first ++ conversation rest := by
  simp [conversation]

/-- A new message pushes the oldest one out of the window. -/
theorem window_append (messages : List Message) (m : Message) (limit : Nat) :
    window (messages ++ [m]) (limit + 1) = window messages limit ++ [m] := by
  have same : (messages ++ [m]).length - (limit + 1) = messages.length - limit := by
    simp only [List.length_append,List.length_singleton]
    omega
  rw [window,window,same,List.drop_append_of_le_length (Nat.sub_le _ _)]

theorem window_succ {messages : List Message} {limit : Nat} (enough : limit < messages.length) :
    ∃ m, window messages (limit + 1) = m :: window messages limit := by
  have inside : messages.length - (limit + 1) < messages.length := by omega
  have next : messages.length - (limit + 1) + 1 = messages.length - limit := by omega
  refine ⟨messages[messages.length - (limit + 1)],?_⟩
  rw [window,window,← next]
  exact List.drop_eq_getElem_cons inside

theorem cons_eq_concat_iff {α : Type} {x y : α} {l : List α} :
    x :: l = l ++ [y] ↔ ∀ z ∈ x :: l, z = y := by
  induction l generalizing x with
  | nil => simp
  | cons z l ih =>
    rw [List.cons_append,List.cons_eq_cons,ih]
    constructor
    · rintro ⟨rfl,all⟩
      exact List.forall_mem_cons.mpr ⟨all x (by simp),all⟩
    · intro all
      have ⟨first,rest⟩ := List.forall_mem_cons.mp all
      exact ⟨first.trans (rest z (by simp)).symm,rest⟩

/-- Either no history is asked for, or it is full and says nothing but this text: its oldest
message is the user's with this text, and so is everything else the model would read of it. -/
def OnlyRepeats (messages : List Message) (limit : Nat) (text : String) : Prop :=
  limit = 0 ∨ limit ≤ messages.length ∧
    (∀ m ∈ (window messages limit).head?, m.role = .user ∧ m.text = text) ∧
    ∀ m ∈ window messages limit, m.role = .user ∨ m.role = .assistant →
      m.role = .user ∧ m.text = text

theorem chat_eq_iff {m : Message} {text : String} :
    (⟨m.role.name,m.text⟩ : ChatMessage) = ⟨"user",text⟩ ↔ m.role = .user ∧ m.text = text := by
  cases role : m.role <;> simp [Role.name]

theorem conversation_repeats_iff {messages : List Message} {text : String} :
    (∀ chat ∈ conversation messages, chat = ⟨"user",text⟩) ↔
      ∀ m ∈ messages, m.role = .user ∨ m.role = .assistant → m.role = .user ∧ m.text = text := by
  constructor
  · intro all m member talks
    apply chat_eq_iff.mp
    apply all
    exact List.mem_map_of_mem (List.mem_filter.mpr ⟨member,decide_eq_true talks⟩)
  · intro all chat member
    obtain ⟨m,kept,rfl⟩ := List.mem_map.mp member
    obtain ⟨inside,talks⟩ := List.mem_filter.mp kept
    exact chat_eq_iff.mpr (all m inside (of_decide_eq_true talks))

theorem conversation_cons (m : Message) (messages : List Message) :
    conversation (m :: messages) =
      if m.role = .user ∨ m.role = .assistant then ⟨m.role.name,m.text⟩ :: conversation messages
      else conversation messages := by
  by_cases talks : m.role = .user ∨ m.role = .assistant <;> simp [conversation,talks]

/-- The prompt holds the conversation before the turn and the text once exactly if the history in
it only repeats the text. -/
theorem turnPrompt_once_iff (cfg : LlmConfig) (messages : List Message) (turnId : Nat)
    (text : String) :
    turnPrompt cfg messages turnId text = [⟨"system",cfg.systemPrompt⟩] ++
      conversation (window messages cfg.historyMessages) ++ [⟨"user",text⟩] ↔
    OnlyRepeats messages cfg.historyMessages text := by
  rw [turnPrompt,prompt_eq,List.append_cancel_right_eq,List.append_cancel_left_eq]
  have longer (stretch : List ChatMessage) : stretch ++ [⟨"user",text⟩] ≠ stretch := by
    simp
  cases cfg.historyMessages with
  | zero => simp [OnlyRepeats,window]
  | succ limit =>
    have own : conversation [⟨turnId,.user,text⟩] = [⟨"user",text⟩] := rfl
    rw [appendMessage,window_append,conversation_append,own]
    by_cases enough : limit < messages.length
    · obtain ⟨oldest,split⟩ := window_succ enough
      have only : OnlyRepeats messages (limit + 1) text ↔ (oldest.role = .user ∧ oldest.text = text) ∧
          ∀ m ∈ oldest :: window messages limit, m.role = .user ∨ m.role = .assistant →
            m.role = .user ∧ m.text = text := by
        have length : limit + 1 ≤ messages.length := enough
        simp only [OnlyRepeats,Nat.add_one_ne_zero,false_or,split,length,true_and,List.head?_cons,
          Option.mem_def,Option.some.injEq,forall_eq']
      rw [only,split,conversation_cons]
      by_cases talks : oldest.role = .user ∨ oldest.role = .assistant
      · rw [if_pos talks,eq_comm,cons_eq_concat_iff,List.forall_mem_cons,List.forall_mem_cons,
          chat_eq_iff,conversation_repeats_iff]
        tauto
      · rw [if_neg talks]
        constructor
        · intro same; exact absurd same (longer _)
        · rintro ⟨⟨user,_⟩,_⟩; exact absurd (.inl user) talks
    · have all (count : Nat) (covers : messages.length ≤ count) : window messages count = messages := by
        rw [window,Nat.sub_eq_zero_of_le covers,List.drop_zero]
      rw [all limit (not_lt.mp enough),all (limit + 1) (by omega)]
      constructor
      · intro same; exact absurd same (longer _)
      · rintro (none | ⟨full,_⟩)
        · cases none
        · omega

/-- The first turn of a new installation. -/
theorem turnPrompt_twice : turnPrompt ⟨"",20⟩ [] 1 "こんにちは" ≠ [⟨"system",""⟩] ++
    conversation (window [] 20) ++ [⟨"user","こんにちは"⟩] := by
  decide

end GhostRunner.Prompt
