import GhostRunner.SkillManifest

/-! `SkillLibrary.load` (`skills/library.py`): all the skills under one root directory, or none. -/
namespace GhostRunner.SkillLibrary

/-- The root directory as it is found. No two entries have the same name. -/
structure Disk where
  isDir : Except OSError Bool
  entries : Except OSError {entries : List Entry // (entries.map Entry.name).Nodup}

abbrev Skills := List (PyStr × Skill)

structure Library where
  root : PyStr
  skills : Skills

variable (python : Python)

/-! ## `load` -/

/-- `skills[name] = skill` -/
def assign (skills : Skills) (name : PyStr) (skill : Skill) : Skills :=
  if name ∈ skills.map Prod.fst then
    skills.map fun member => if member.1 = name then (name,skill) else member
  else skills ++ [(name,skill)]

/-- `sorted` of the paths in one directory. -/
def sorted (entries : List Entry) : List Entry :=
  entries.mergeSort fun a b => decide (a.name ≤ b.name)

/-- The loop over the entries. Stray files beside the directories are passed over. -/
def loadEntries : List Entry → Skills → Except Error Skills
  | [], skills => .ok skills
  | entry :: rest, skills =>
    match entry.isDir with
    | .error error => .error (.osError error)
    | .ok false => loadEntries rest skills
    | .ok true =>
      match entry.loadManifest python with
      | .error error => .error error
      | .ok skill => loadEntries rest (assign skills entry.name skill)

/-- `load`, with the library that it leaves. -/
def load (disk : Disk) (library : Library) : Except Error Unit × Library :=
  match disk.isDir with
  | .error error => (.error (.osError error),library)
  | .ok false =>
    (.error (.skillError (text "skill library " ++ library.root ++ text " is not a directory")),
      library)
  | .ok true =>
    match disk.entries with
    | .error error => (.error (.osError error),library)
    | .ok entries =>
      match loadEntries python (sorted entries) [] with
      | .error error => (.error error,library)
      | .ok skills => (.ok (),{ library with skills := skills })

/-! ## The law -/

def Entry.isSubdirectory (entry : Entry) : Bool :=
  match entry.isDir with
  | .ok isDir => isDir
  | .error _ => false

/-- The skill has the name of its directory, and the digest of its code. -/
structure Entry.Gives (entry : Entry) (skill : Skill) : Prop where
  name : skill.name = entry.name
  pattern : nameMatches skill.name = true
  timeout : ∃ seconds, skill.timeoutS.value = some seconds ∧ 0 < seconds ∧ seconds ≤ maxTimeoutS
  digest : ∃ bytes, entry.code = .ok bytes ∧ skill.sha256 = python.hexdigest bytes

/-- There is one skill for each subdirectory, and no other. -/
structure Loaded (disk : Disk) (skills : Skills) : Prop where
  complete : ∃ entries, disk.entries = .ok entries ∧
    (skills.map Prod.fst).Perm ((entries.val.filter Entry.isSubdirectory).map Entry.name)
  distinct : (skills.map Prod.fst).Nodup
  each : ∀ member ∈ skills, ∃ entries, disk.entries = .ok entries ∧ ∃ entry ∈ entries.val,
    entry.isSubdirectory = true ∧ entry.name = member.1 ∧ entry.Gives python member.2

/-- All the skills are loaded, or a `SkillError` is raised and the library stays as it was. -/
def AllOrNothing (disk : Disk) (library : Library) : Prop :=
  match load python disk library with
  | (.ok (),after) => Loaded python disk after.skills
  | (.error (.skillError _),after) => after.skills = library.skills
  | (.error _,_) => False

/-! ## The loop -/

/-- The entry is passed over or loaded. -/
def Entry.Passes (entry : Entry) : Prop :=
  entry.isDir = .ok false ∨ entry.isDir = .ok true ∧ ∃ skill, entry.Valid python skill

/-- The entry ends the loop, and not by a `SkillError`. -/
def Entry.Interrupts (entry : Entry) : Prop :=
  (∃ error, entry.isDir = .error error) ∨ entry.isDir = .ok true ∧ entry.Breaks python

/-- Such an entry is come to after none but good ones. -/
def Interrupted (entries : List Entry) : Prop :=
  ∃ before entry after, entries = before ++ entry :: after ∧
    (∀ other ∈ before, other.Passes python) ∧ entry.Interrupts python

variable {python}

theorem interrupted_cons {entry : Entry} {rest : List Entry} :
    Interrupted python (entry :: rest) ↔
      entry.Interrupts python ∨ entry.Passes python ∧ Interrupted python rest := by
  constructor
  · rintro ⟨before,other,after,split,pass,interrupts⟩
    cases before with
    | nil =>
      obtain ⟨rfl,rfl⟩ := List.cons_eq_cons.mp split
      exact .inl interrupts
    | cons first before =>
      obtain ⟨rfl,rfl⟩ := List.cons_eq_cons.mp split
      obtain ⟨passes,pass⟩ := List.forall_mem_cons.mp pass
      exact .inr ⟨passes,before,other,after,rfl,pass,interrupts⟩
  · rintro (interrupts | ⟨passes,before,other,after,rfl,pass,interrupts⟩)
    · exact ⟨[],entry,rest,rfl,by simp,interrupts⟩
    · exact ⟨entry :: before,other,after,rfl,List.forall_mem_cons.mpr ⟨passes,pass⟩,interrupts⟩

theorem escapes_loadEntries {entries : List Entry} {skills : Skills} :
    Escapes (loadEntries python entries skills) ↔ Interrupted python entries := by
  induction entries generalizing skills with
  | nil =>
    simp only [loadEntries,not_escapes_ok,false_iff]
    rintro ⟨before,entry,after,split,_⟩
    simp at split
  | cons entry rest ih =>
    rw [interrupted_cons]
    simp only [loadEntries,Entry.Interrupts,Entry.Passes]
    cases isDir : entry.isDir with
    | error error => simp [Escapes]
    | ok directory =>
      cases directory with
      | false => simp [ih]
      | true =>
        cases loaded : entry.loadManifest python with
        | error error =>
          have breaks : entry.Breaks python ↔ ∀ message, error ≠ .skillError message := by
            rw [← escapes_loadManifest,loaded,escapes_error]
          have invalid : ¬∃ skill, entry.Valid python skill := by
            rintro ⟨skill,valid⟩
            rw [loadManifest_ok_iff.2 valid] at loaded
            cases loaded
          simp [breaks,invalid,escapes_error]
        | ok skill =>
          have fine : ¬entry.Breaks python := by
            rw [← escapes_loadManifest,loaded]
            exact not_escapes_ok skill
          have valid : ∃ skill, entry.Valid python skill := ⟨skill,loadManifest_ok_iff.1 loaded⟩
          simp [ih,fine,valid]

/-- The name is new, and the skill goes to the end. -/
theorem assign_fresh {skills : Skills} {name : PyStr} (fresh : name ∉ skills.map Prod.fst)
    (skill : Skill) : assign skills name skill = skills ++ [(name,skill)] :=
  if_neg fresh

theorem Entry.Valid.gives {entry : Entry} {skill : Skill} (valid : entry.Valid python skill) :
    entry.Gives python skill := by
  obtain ⟨raw,_,describes⟩ := valid.manifest
  obtain ⟨bytes,has,same⟩ := valid.digest
  exact ⟨describes.directory,describes.pattern,PyFloat.within_iff.1 describes.within,bytes,has.2,
    same.symm⟩

/-- What the loop adds to the skills that it has. -/
theorem loadEntries_adds {entries : List Entry} {skills result : Skills}
    (distinct : (skills.map Prod.fst ++ entries.map Entry.name).Nodup)
    (loaded : loadEntries python entries skills = .ok result) : ∃ added,
      result = skills ++ added ∧
      added.map Prod.fst = (entries.filter Entry.isSubdirectory).map Entry.name ∧
      ∀ member ∈ added, ∃ entry ∈ entries, entry.isSubdirectory = true ∧
        entry.name = member.1 ∧ entry.Gives python member.2 := by
  induction entries generalizing skills with
  | nil =>
    cases loaded
    exact ⟨[],by simp,rfl,by simp⟩
  | cons entry rest ih =>
    simp only [loadEntries] at loaded
    cases isDir : entry.isDir with
    | error error => rw [isDir] at loaded; cases loaded
    | ok directory =>
      rw [isDir] at loaded
      cases directory with
      | false =>
        have skipped : entry.isSubdirectory = false := by simp [Entry.isSubdirectory,isDir]
        have fewer : (skills.map Prod.fst ++ rest.map Entry.name).Nodup :=
          distinct.sublist ((List.sublist_cons_self ..).append_left _)
        obtain ⟨added,rfl,names,each⟩ := ih fewer loaded
        refine ⟨added,rfl,?_,fun member present => ?_⟩
        · rw [names,List.filter_cons_of_neg (by simp [skipped])]
        · obtain ⟨other,within,gives⟩ := each member present
          exact ⟨other,List.mem_cons_of_mem _ within,gives⟩
      | true =>
        have kept : entry.isSubdirectory = true := by simp [Entry.isSubdirectory,isDir]
        cases manifest : entry.loadManifest python with
        | error error => simp [manifest] at loaded
        | ok skill =>
          have fresh : entry.name ∉ skills.map Prod.fst := fun present =>
            (List.nodup_append.mp distinct).2.2 _ present _ List.mem_cons_self rfl
          simp only [manifest,assign_fresh fresh] at loaded
          have moved : ((skills ++ [(entry.name,skill)]).map Prod.fst ++
              rest.map Entry.name).Nodup := by
            simpa using distinct
          obtain ⟨added,rfl,names,each⟩ := ih moved loaded
          refine ⟨(entry.name,skill) :: added,by simp,?_,?_⟩
          · rw [List.map_cons,names,List.filter_cons_of_pos kept,List.map_cons]
          · intro member present
            rcases List.mem_cons.mp present with rfl | present
            · exact ⟨entry,List.mem_cons_self,kept,rfl,(loadManifest_ok_iff.1 manifest).gives⟩
            · obtain ⟨other,within,gives⟩ := each member present
              exact ⟨other,List.mem_cons_of_mem _ within,gives⟩

/-! ## When the law holds -/

/-- The directories cannot be listed or looked up, or an entry interrupts the loop. -/
def Disk.Breaks (python : Python) (disk : Disk) : Prop :=
  (∃ error, disk.isDir = .error error) ∨
    disk.isDir = .ok true ∧ ((∃ error, disk.entries = .error error) ∨
      ∃ entries, disk.entries = .ok entries ∧ Interrupted python (sorted entries.val))

theorem sorted_perm (entries : List Entry) : (sorted entries).Perm entries :=
  List.mergeSort_perm ..

theorem loaded_of_loadEntries {disk : Disk} {skills : Skills}
    {entries : {entries : List Entry // (entries.map Entry.name).Nodup}}
    (listed : disk.entries = .ok entries)
    (loaded : loadEntries python (sorted entries.val) [] = .ok skills) :
    Loaded python disk skills := by
  have perm := sorted_perm entries.val
  have distinct : ((sorted entries.val).map Entry.name).Nodup :=
    (perm.map Entry.name).nodup_iff.2 entries.property
  have fresh : (([] : Skills).map Prod.fst ++ (sorted entries.val).map Entry.name).Nodup := distinct
  obtain ⟨added,rfl,names,each⟩ := loadEntries_adds fresh loaded
  refine ⟨⟨entries,listed,?_⟩,?_,fun member present => ?_⟩
  · rw [names]
    exact (perm.filter _).map _
  · rw [names]
    exact distinct.sublist (List.filter_sublist.map _)
  · obtain ⟨entry,within,gives⟩ := each member present
    exact ⟨entries,listed,entry,perm.mem_iff.1 within,gives⟩

/-- What comes of an error that has left the library as it was. -/
theorem allOrNothing_error {disk : Disk} {library : Library} {error : Error}
    (result : load python disk library = (.error error,library)) :
    AllOrNothing python disk library ↔ ¬∀ message, error ≠ .skillError message := by
  simp only [AllOrNothing,result]
  cases error <;> simp

/-- Loading keeps the law as long as no entry interrupts it. -/
theorem load_allOrNothing_iff (python : Python) (disk : Disk) (library : Library) :
    AllOrNothing python disk library ↔ ¬disk.Breaks python := by
  cases isDir : disk.isDir with
  | error error =>
    have result : load python disk library = (.error (.osError error),library) := by
      simp only [load,isDir]
    simp [allOrNothing_error result,Disk.Breaks,isDir]
  | ok directory =>
    cases directory with
    | false =>
      have result : load python disk library = (.error (.skillError (text "skill library " ++
          library.root ++ text " is not a directory")),library) := by
        simp only [load,isDir]
      simp [allOrNothing_error result,Disk.Breaks,isDir]
    | true =>
      cases listed : disk.entries with
      | error error =>
        have result : load python disk library = (.error (.osError error),library) := by
          simp only [load,isDir,listed]
        simp [allOrNothing_error result,Disk.Breaks,isDir,listed]
      | ok entries =>
        have breaks : disk.Breaks python ↔
            Escapes (loadEntries python (sorted entries.val) []) := by
          rw [escapes_loadEntries]
          simp [Disk.Breaks,isDir,listed]
        rw [breaks]
        cases loop : loadEntries python (sorted entries.val) [] with
        | error error =>
          have result : load python disk library = (.error error,library) := by
            simp only [load,isDir,listed,loop]
          rw [allOrNothing_error result,escapes_error]
        | ok skills =>
          have result : load python disk library =
              (.ok (),{ library with skills := skills }) := by
            simp only [load,isDir,listed,loop]
          have loaded : AllOrNothing python disk library := by
            simp only [AllOrNothing,result]
            exact loaded_of_loadEntries listed loop
          simp [loaded]

/-! ## A manifest that is not in UTF-8 -/

/-- An interpreter that finds no table in any file. -/
def bare : Python where
  loads bytes :=
    if (ByteArray.mk bytes.toArray).IsValidUTF8 then
      .error (.tomlDecodeError (text "Expected '=' after a key in a key/value pair"))
    else .error (.unicodeDecodeError (text "'utf-8' codec can't decode byte 0xff in position 0"))
  decodes bytes := by
    split
    · next valid => simp [valid]
    · next invalid => simp [invalid]
  lower := id
  floatRepr _ := []
  unicode := .widest
  hexdigest _ := []

/-- One directory, with a manifest of the byte 0xff. -/
def latin : Disk where
  isDir := .ok true
  entries := .ok ⟨[⟨text "skills/echo",text "echo",.ok true,.ok [0xff],.ok true,.ok []⟩],by simp⟩

theorem latin_escapes : ∃ message, load bare latin ⟨text "skills",[]⟩ =
    (.error (.unicodeDecodeError message),⟨text "skills",[]⟩) ∧
      ¬AllOrNothing bare latin ⟨text "skills",[]⟩ := by
  have invalid : ¬(ByteArray.mk [0xff].toArray).IsValidUTF8 := by decide
  have result : load bare latin ⟨text "skills",[]⟩ =
      (.error (.unicodeDecodeError
        (text "'utf-8' codec can't decode byte 0xff in position 0")),⟨text "skills",[]⟩) := by
    simp [load,latin,sorted,loadEntries,Entry.loadManifest,Entry.readManifest,bare,invalid,bind,
      Except.bind]
  refine ⟨_,result,?_⟩
  rw [allOrNothing_error result]
  exact fun caught => caught fun message same => by cases same

end GhostRunner.SkillLibrary
