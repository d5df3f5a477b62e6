import HostRoster.Proofs.FileTrees
import HostRoster.Proofs.Operations
import HostRoster.Proofs.Protocols
import HostRoster.Store.Backend

/-!
# Files that take another's place

A store of files writes a document to a file beside it, which then takes the place of the
old one. The stored state is never half a document as long as nobody else writes to that
file. Its name is the name of the state with another ending, so that the state and the
lock have it in common whenever their names differ in the ending only.
-/
namespace HostRoster

/-- How far the replacement of a file has come. -/
inductive Replacement where
  | preparing
  | drafted (text : String)
  | placed

/-- What is asked of a machine to replace the file at a path by a text that is allowed. -/
inductive Replaces (path : String) (allowed : String → Prop) :
    Replacement → Exchange Machine → Replacement → Prop
  | looks (stage : Replacement) {call : FileCall} (harmless : call.changes = [])
      (reply : call.Answer) : Replaces path allowed stage ⟨.file call, reply⟩ stage
  | asks (stage : Replacement) (request : MachineCall) (other : ∀ call, request ≠ .file call)
      (reply : request.Answer) : Replaces path allowed stage ⟨request, reply⟩ stage
  | creates (reply : Except String Unit) :
      Replaces path allowed .preparing
        ⟨.file (.create (FileStore.draftPath path)), reply⟩ .preparing
  | writes {text : String} (fits : allowed text) :
      Replaces path allowed .preparing
        ⟨.file (.write (FileStore.draftPath path) text), Except.ok ()⟩ (.drafted text)
  | fails (text reason : String) :
      Replaces path allowed .preparing
        ⟨.file (.write (FileStore.draftPath path) text), Except.error reason⟩ .preparing
  | places (text : String) (reply : Except String Unit) :
      Replaces path allowed (.drafted text)
        ⟨.file (.rename (FileStore.draftPath path) path), reply⟩ .placed

section Store
variable {s : FileStore} {path text : String} {allowed : String → Prop}

theorem conforms_makeDirectory : s.makeDirectory.Conforms (Replaces path allowed) .preparing
    fun _ stage => stage = .preparing := by
  intro (found : Bool)
  refine ⟨.preparing, .looks _ rfl _, ?_⟩
  cases found with
  | true => rfl
  | false => exact fun made => ⟨.preparing, .looks _ rfl _, rfl⟩

theorem conforms_readFile {file : String} :
    (FileStore.readFile file).Conforms (Replaces path allowed) .preparing
      fun _ stage => stage = .preparing := by
  intro (found : Bool)
  refine ⟨.preparing, .looks _ rfl _, ?_⟩
  cases found with
  | false => rfl
  | true =>
    intro (reply : Except String String)
    refine ⟨.preparing, .looks _ rfl _, ?_⟩
    cases reply <;> rfl

/-- A file is replaced by way of the file beside it. -/
theorem conforms_writeFile (fits : allowed text) :
    (s.writeFile path text).run.Conforms (Replaces path allowed) .preparing fun _ _ => True := by
  rw [FileStore.writeFile, ExceptT.run_bind]
  refine Program.conforms_bind.2 (conforms_makeDirectory.mono ?_)
  rintro made _ rfl
  cases made with
  | error e => trivial
  | ok _ =>
    intro (created : Except String Unit)
    refine ⟨.preparing, .creates created, ?_⟩
    cases created with
    | error reason => trivial
    | ok _ =>
      intro (written : Except String Unit)
      cases written with
      | error reason => exact ⟨.preparing, .fails text reason, trivial⟩
      | ok _ =>
        refine ⟨.drafted text, .writes fits, fun (synced : Except String Unit) => ?_⟩
        refine ⟨.drafted text, .looks _ rfl _, ?_⟩
        cases synced with
        | error reason => trivial
        | ok _ =>
          exact fun (placed : Except String Unit) => ⟨.placed, .places text placed, trivial⟩

theorem conforms_write (s : FileStore) (d : Document) (allowed : String → Prop)
    (fits : allowed text) :
    (s.carryOut (.write d text)).Conforms (Replaces (s.path d) allowed) .preparing
      fun _ _ => True :=
  Program.conforms_bind.2 ((conforms_writeFile fits).mono fun _ _ _ => trivial)

theorem conforms_save (s : FileStore) (state : ClusterState) :
    (Backend.perform (.files s) (.save state)).Conforms
      (Replaces s.statePath (· = state.document)) .preparing fun _ _ => True :=
  Program.conforms_bind.2 ((conforms_write s .state (· = state.document) rfl).mono
    fun _ _ _ => trivial)

theorem conforms_acquire (s : FileStore) (holder : String) :
    (Backend.perform (.files s) (.acquire holder)).Conforms
      (Replaces (s.path .lock) fun _ => True) .preparing fun _ _ => True := by
  change ((StoreCall.acquireLock holder).run.interpret s.carryOut).Conforms _ _ _
  rw [StoreCall.acquireLock_eq, StoreCall.readLock, StoreCall.run_readParsed_bind]
  refine Program.conforms_bind.2 (conforms_readFile.mono ?_)
  rintro reply _ rfl
  dsimp only
  cases StoreCall.ofText Lock.parse reply with
  | error e => trivial
  | ok found =>
    dsimp only
    rw [StoreCall.run_claimLock]
    intro (now : Instant)
    refine ⟨.preparing, .asks _ .now (by simp) _, fun (id : String) => ?_⟩
    refine ⟨.preparing, .asks _ .freshId (by simp) _, fun (process : String) => ?_⟩
    refine ⟨.preparing, .asks _ .processName (by simp) _, fun (other : String) => ?_⟩
    refine ⟨.preparing, .asks _ .freshId (by simp) _, ?_⟩
    refine Program.conforms_bind.2 ?_
    dsimp only [Program.Conforms]
    cases Lock.ensureFree found now with
    | error e => trivial
    | ok _ =>
      refine Program.conforms_bind.2 ?_
      exact (conforms_write s .lock (fun _ => True) trivial).mono fun _ _ _ => trivial

/-- The replacement of a file changes that file and the one beside it only. -/
theorem Replaces.changes {stage stage' : Replacement} {call : FileCall} {reply : call.Answer}
    (h : Replaces path allowed stage ⟨.file call, reply⟩ stage') :
    ∀ file ∈ call.changes, file = FileStore.draftPath path ∨ file = path := by
  cases h with
  | looks _ harmless => simp [harmless]
  | asks _ _ other => exact absurd rfl (other call)
  | creates => simp [FileCall.changes]
  | writes => simp [FileCall.changes]
  | fails => simp [FileCall.changes]
  | places => simp [FileCall.changes]

end Store

/-- A tree of files that carries out calls on files. All else may be answered in any way. -/
inductive FileTree.Serves : FileTree → Exchange Machine → FileTree → Prop
  | file (t : FileTree) (call : FileCall) :
      Serves t ⟨.file call, (t.carryOut call).1⟩ (t.carryOut call).2
  | other (t : FileTree) {request : MachineCall} (other : ∀ call, request ≠ .file call)
      (reply : request.Answer) : Serves t ⟨request, reply⟩ t

theorem FileTree.serves_file {t t' : FileTree} {call : FileCall} {reply : call.Answer}
    (h : t.Serves ⟨.file call, reply⟩ t') :
    reply = (t.carryOut call).1 ∧ t' = (t.carryOut call).2 := by
  cases h with
  | file => exact ⟨rfl, rfl⟩
  | other other => exact absurd rfl (other call)

theorem FileTree.serves_other {t t' : FileTree} {request : MachineCall} {reply : request.Answer}
    (h : t.Serves ⟨request, reply⟩ t') (other : ∀ call, request ≠ .file call) : t' = t := by
  cases h with
  | file => exact absurd rfl (other _)
  | other => rfl

theorem FileTree.Serves.of_carryOut {t t' : FileTree} {call : FileCall} {reply : call.Answer}
    (h : t.carryOut call = (reply, t')) : t.Serves ⟨.file call, reply⟩ t' := by
  have served := Serves.file t call
  rw [h] at served
  exact served

/-- The file at a path holds what it held in the beginning, or the text that takes its place. A
text that was written beside it is still there. -/
structure Intact (start : FileTree) (path text : String) (t : FileTree) (stage : Replacement) :
    Prop where
  present : t.present = start.present
  target : ∀ content, t.file? (start.place path) = some content →
    start.file? (start.place path) = some content ∨ content = .text text
  draft : ∀ written, stage = .drafted written → written = text ∧
    t.file? (start.place (FileStore.draftPath path)) = some (.text text)

section Steps
variable {start t t' : FileTree} {path text : String} {stage stage' : Replacement}
  {e : Exchange Machine}

/-- What changes neither the file nor the one beside it leaves it intact. -/
theorem Intact.of_spares {touched : List String} (h : Intact start path text t stage)
    (spares : t.Spares touched t') (target : start.place path ∉ touched)
    (draft : start.place (FileStore.draftPath path) ∉ touched) :
    Intact start path text t' stage where
  present := spares.present.trans h.present
  target content := by
    rw [spares.files _ target]
    exact h.target content
  draft written at_ := by
    rw [spares.files _ draft]
    exact h.draft written at_

/-- A call on the file beside it leaves the file itself as it was. -/
theorem Intact.beside (h : Intact start path text t stage) (call : FileCall)
    (only : call.changes = [FileStore.draftPath path])
    (apart : start.place path ≠ start.place (FileStore.draftPath path)) :
    (t.carryOut call).2.present = start.present ∧
      ∀ content, (t.carryOut call).2.file? (start.place path) = some content →
        start.file? (start.place path) = some content ∨ content = .text text := by
  have spares := t.spares_carryOut call
  have untouched : start.place path ∉ call.changes.map t.place := by
    simp [only, FileTree.place_of_present h.present, apart]
  refine ⟨spares.present.trans h.present, fun content stands => ?_⟩
  rw [spares.files _ untouched] at stands
  exact h.target content stands

/-- A step of the replacement itself. -/
theorem Intact.step (h : Intact start path text t stage)
    (apart : start.place path ≠ start.place (FileStore.draftPath path))
    (proper : start.place path ≠ "/" ∧ start.place (FileStore.draftPath path) ≠ "/")
    (served : t.Serves e t') (step : Replaces path (· = text) stage e stage') :
    Intact start path text t' stage' := by
  have here := FileTree.place_of_present h.present
  cases step with
  | looks _ harmless reply =>
    obtain ⟨-, rfl⟩ := FileTree.serves_file served
    refine h.of_spares (t.spares_carryOut _) ?_ ?_ <;> simp [harmless]
  | asks _ request other reply =>
    rw [FileTree.serves_other served other]
    exact h
  | creates reply =>
    obtain ⟨-, rfl⟩ := FileTree.serves_file served
    obtain ⟨present, target⟩ := h.beside (.create _) rfl apart
    exact ⟨present, target, nofun⟩
  | @writes written fits =>
    obtain rfl := fits
    obtain ⟨done, rfl⟩ := FileTree.serves_file served
    obtain ⟨present, target⟩ := h.beside (.write _ written) rfl apart
    refine ⟨present, target, ?_⟩
    rintro _ ⟨⟩
    have stands := FileTree.file?_write (by rw [here]; exact proper.2) done.symm
    rw [here] at stands
    exact ⟨rfl, stands⟩
  | fails written reason =>
    obtain ⟨-, rfl⟩ := FileTree.serves_file served
    obtain ⟨present, target⟩ := h.beside (.write _ written) rfl apart
    exact ⟨present, target, nofun⟩
  | places written reply =>
    obtain ⟨-, rfl⟩ := FileTree.serves_file served
    obtain ⟨rfl, drafted⟩ := h.draft written rfl
    have spares := t.spares_carryOut (.rename (FileStore.draftPath path) path)
    refine ⟨spares.present.trans h.present, fun content stands => ?_, nofun⟩
    rw [← here path] at stands
    rcases FileTree.file?_rename (by rw [here]; exact proper.1) stands with moved | stayed
    · rw [here, drafted] at moved
      exact .inr (Option.some.inj moved).symm
    · rw [here] at stayed
      exact h.target content stayed

/-- A step of the replacement of another file. -/
theorem Intact.of_other {other : String} {allowed : String → Prop} {stage₁ stage₂ : Replacement}
    (h : Intact start path text t stage)
    (away : ∀ file, file = FileStore.draftPath other ∨ file = other →
      start.place file ≠ start.place path ∧
        start.place file ≠ start.place (FileStore.draftPath path))
    (served : t.Serves e t') (step : Replaces other allowed stage₁ e stage₂) :
    Intact start path text t' stage := by
  have here := FileTree.place_of_present h.present
  obtain ⟨request, reply⟩ := e
  by_cases onFile : ∃ call, request = .file call
  · obtain ⟨call, rfl⟩ := onFile
    obtain ⟨-, rfl⟩ := FileTree.serves_file served
    refine h.of_spares (t.spares_carryOut call) ?_ ?_
    · intro touched
      obtain ⟨file, mem, same⟩ := List.mem_map.1 touched
      exact (away file (step.changes file mem)).1 ((here file).symm.trans same)
    · intro touched
      obtain ⟨file, mem, same⟩ := List.mem_map.1 touched
      exact (away file (step.changes file mem)).2 ((here file).symm.trans same)
  · rw [FileTree.serves_other served fun call same => onFile ⟨call, same⟩]
    exact h

end Steps

/-- Two processes on one store: one saves a state, the other takes the lock. -/
inductive Party where
  | saver
  | locker
deriving DecidableEq

namespace Party

def Result : Party → Type
  | saver => Except StateError Unit
  | locker => Except StateError Lock

def program (s : FileStore) (state : ClusterState) (holder : String) :
    (party : Party) → Program Machine party.Result
  | saver => Backend.perform (.files s) (.save state)
  | locker => Backend.perform (.files s) (.acquire holder)

/-- What each of them replaces. -/
def law (s : FileStore) (state : ClusterState) :
    Party → Replacement → Exchange Machine → Replacement → Prop
  | saver => Replaces s.statePath (· = state.document)
  | locker => Replaces (s.path .lock) fun _ => True

theorem exists_history {s : FileStore} {state : ClusterState} {holder : String} (party : Party)
    {exchanges : List (Exchange Machine)} {rest : Program Machine party.Result}
    (run : (party.program s state holder).Follows exchanges rest) :
    ∃ stage, History (law s state party) .preparing exchanges stage := by
  cases party with
  | saver => exact (conforms_save s state).history run
  | locker => exact (conforms_acquire s holder).history run

end Party

/-- The lock and the file beside it stand elsewhere than the state and the file beside it. -/
structure FileStore.Apart (s : FileStore) (t : FileTree) : Prop where
  draft : t.place s.statePath ≠ t.place (draftPath s.statePath)
  proper : t.place s.statePath ≠ "/" ∧ t.place (draftPath s.statePath) ≠ "/"
  lock : ∀ file, file = draftPath (s.path .lock) ∨ file = s.path .lock →
    t.place file ≠ t.place s.statePath ∧ t.place file ≠ t.place (draftPath s.statePath)

section Places
variable {path : String} {dir name : List Char} {t : FileTree}

/-- The lock and the file beside it stand where the state stands, under names of their own. -/
theorem FileStore.place_lock (h : Path.Names path dir name) :
    t.place ((ofStatePath path).path .lock) = FileTree.child (t.reach dir) "state.lock" ∧
      t.place (draftPath ((ofStatePath path).path .lock)) =
        FileTree.child (t.reach dir) "state.tmp" := by
  obtain ⟨dir', lock, same⟩ := FileTree.exists_beside h
    (show '/' ∉ Document.lock.fileName.toList by decide) (by decide)
  have draft := lock.withEnding (show '/' ∉ "tmp".toList by decide) (by decide)
  have lockPlace := FileTree.place_eq (t := t) lock
  have draftPlace := FileTree.place_eq (t := t) draft
  rw [same] at lockPlace draftPlace
  exact ⟨lockPlace, draftPlace⟩

theorem FileStore.place_draft (h : Path.Names path dir name) :
    t.place (draftPath path) =
      FileTree.child (t.reach dir) (.ofList (Path.stem name ++ '.' :: "tmp".toList)) :=
  FileTree.place_eq (h.withEnding (show '/' ∉ "tmp".toList by decide) (by decide))

theorem FileStore.proper_places (h : Path.Names path dir name) :
    t.place path ≠ "/" ∧ t.place (draftPath path) ≠ "/" := by
  rw [FileTree.place_eq h, place_draft h]
  exact ⟨FileTree.child_ne_root _ h.proper.1, FileTree.child_ne_root _ (by simp)⟩

/-- Another name than `state` before the ending sets the state apart from the lock, and another
ending than that of the files beside them sets it apart from its own. -/
theorem FileStore.apart_of_names (h : Path.Names path dir name)
    (stem : Path.stem name ≠ "state".toList)
    (ending : name ≠ Path.stem name ++ '.' :: "tmp".toList) :
    (FileStore.ofStatePath path).Apart t := by
  have statePlace := FileTree.place_eq (t := t) h
  have draftPlace := place_draft (t := t) h
  obtain ⟨lockPlace, lockDraftPlace⟩ := place_lock (t := t) h
  have lockName : "state.lock".toList ≠ name := by
    intro same
    exact stem (by rw [← same]; decide)
  have lockDraftName : "state.tmp".toList ≠ name := by
    intro same
    exact stem (by rw [← same]; decide)
  have lockNoDraft : "state.lock".toList ≠ Path.stem name ++ '.' :: "tmp".toList := by
    intro same
    have last := congrArg List.getLast? same
    have tail : ('.' :: "tmp".toList).getLast? = some 'p' := by decide
    rw [List.getLast?_append, tail, Option.some_or] at last
    exact absurd last (by decide)
  have draftsApart : "state".toList ++ '.' :: "tmp".toList ≠
      Path.stem name ++ '.' :: "tmp".toList :=
    fun same => stem (List.append_cancel_right same).symm
  refine ⟨?_, proper_places h, fun file touched => ?_⟩
  · change t.place path ≠ t.place (draftPath path)
    rw [statePlace, draftPlace]
    exact FileTree.child_ne _ ending
  · change t.place file ≠ t.place path ∧ t.place file ≠ t.place (draftPath path)
    rcases touched with here | here
    · rw [here, lockDraftPlace, statePlace, draftPlace]
      exact ⟨FileTree.child_ne _ lockDraftName, FileTree.child_ne _ draftsApart⟩
    · rw [here, lockPlace, statePlace, draftPlace]
      exact ⟨FileTree.child_ne _ lockName, FileTree.child_ne _ lockNoDraft⟩

/-- With the name `state` before its ending, the state is first written to the same file as the
lock. -/
theorem FileStore.shared_draft (h : Path.Names path dir name)
    (stem : Path.stem name = "state".toList) :
    t.place (draftPath ((ofStatePath path).path .lock)) = t.place (draftPath path) := by
  rw [(place_lock h).2, place_draft h, stem]
  rfl

end Places

/-- While the files stand apart, the stored state stays whole. -/
theorem intact_of_timeline {s : FileStore} {state : ClusterState} {start last : FileTree}
    {t now : Instant} {turns : List (Turn Party Machine)} {stages : Party → Replacement}
    (apart : s.Apart start)
    (line : Timeline (fun _ => FileTree.Serves) t start turns now last)
    (reached : HaveReached (Party.law s state) .preparing turns stages) :
    Intact start s.statePath state.document last (stages .saver) := by
  refine line.invariant (fun before _ mid => ∀ stages,
    HaveReached (Party.law s state) .preparing before stages →
      Intact start s.statePath state.document mid (stages .saver)) ?_ ?_ stages reached
  · intro stages reached
    rw [(reached .saver).eq_of_nil]
    exact ⟨rfl, fun content stands => .inl stands, nofun⟩
  · rintro before ⟨party, time, e⟩ noon mid next - - intact - served stages' reached
    obtain ⟨stages, stage, earlier, step, rfl⟩ := reached.of_snoc
    have h := intact stages earlier
    cases party with
    | saver =>
      rw [Function.update_self]
      exact h.step apart.draft apart.proper served step
    | locker =>
      have others : Party.saver ≠ Party.locker := by decide
      rw [Function.update_of_ne others]
      exact h.of_other apart.lock served step

/-- The state is written beside its place and the lock is begun beside its own, and then the state
takes its place. -/
def crossing (s : FileStore) (text : String) : List (Turn Party Machine) :=
  ([⟨.file (.contains s.directory), true⟩,
    ⟨.file (.create (FileStore.draftPath s.statePath)), Except.ok ()⟩,
    ⟨.file (.write (FileStore.draftPath s.statePath) text), Except.ok ()⟩,
    ⟨.file (.sync (FileStore.draftPath s.statePath)), Except.ok ()⟩].map
      (⟨.saver, ⟨0, 0⟩, ·⟩)) ++
    ([⟨.file (.contains (s.path .lock)), false⟩, ⟨.now, (⟨0, 0⟩ : Instant)⟩, ⟨.freshId, "1"⟩,
      ⟨.processName, "process"⟩, ⟨.freshId, "2"⟩, ⟨.file (.contains s.directory), true⟩,
      ⟨.file (.create (FileStore.draftPath (s.path .lock))), Except.ok ()⟩].map
        (⟨.locker, ⟨0, 0⟩, ·⟩)) ++
    [⟨.saver, ⟨0, 0⟩,
      ⟨.file (.rename (FileStore.draftPath s.statePath) s.statePath), Except.ok ()⟩⟩]

/-- The trees that such a run goes through. -/
structure Crosses (s : FileStore) (text : String) (start created written begun last : FileTree) :
    Prop where
  directory : start.carryOut (.contains s.directory) = (true, start)
  creates : start.carryOut (.create (FileStore.draftPath s.statePath)) = (.ok (), created)
  writes : created.carryOut (.write (FileStore.draftPath s.statePath) text) = (.ok (), written)
  free : written.carryOut (.contains (s.path .lock)) = (false, written)
  directoryAgain : written.carryOut (.contains s.directory) = (true, written)
  begins : written.carryOut (.create (FileStore.draftPath (s.path .lock))) = (.ok (), begun)
  places : begun.carryOut (.rename (FileStore.draftPath s.statePath) s.statePath) = (.ok (), last)

theorem Crosses.interleaves {s : FileStore} {state : ClusterState}
    {start created written begun last : FileTree}
    (trees : Crosses s state.document start created written begun last) (holder : String) :
    ∃ rests, Interleaves (fun _ => FileTree.Serves) (Party.program s state holder) ⟨0, 0⟩ start
      (crossing s state.document) ⟨0, 0⟩ last rests := by
  have follows : ∀ party, ∃ rest, (Party.program s state holder party).Follows
      (Turn.own party (crossing s state.document)) rest := by
    intro party
    cases party with
    | saver => exact ⟨.done (.ok ()), .ask (.ask (.ask (.ask (.ask (.rest _)))))⟩
    | locker => exact ⟨_, .ask (.ask (.ask (.ask (.ask (.ask (.ask (.rest _)))))))⟩
  choose rests follows using follows
  refine ⟨rests, ?_, follows⟩
  refine .move rfl (.of_carryOut trees.directory) (.move rfl (.of_carryOut trees.creates) ?_)
  refine .move rfl (.of_carryOut trees.writes) (.move rfl (.file written (.sync _)) ?_)
  refine .move rfl (.of_carryOut trees.free) ?_
  refine .move rfl (.other _ (by nofun) _) (.move rfl (.other _ (by nofun) _) ?_)
  refine .move rfl (.other _ (by nofun) _) (.move rfl (.other _ (by nofun) _) ?_)
  refine .move rfl (.of_carryOut trees.directoryAgain) (.move rfl (.of_carryOut trees.begins) ?_)
  exact .move rfl (.of_carryOut trees.places) (.rest _ _)

/-- If both are first written to one file, the state is empty in the end. -/
theorem Crosses.torn {s : FileStore} {text : String} {start created written begun last : FileTree}
    (trees : Crosses s text start created written begun last)
    (proper : start.place s.statePath ≠ "/" ∧ start.place (FileStore.draftPath s.statePath) ≠ "/")
    (shared : start.place (FileStore.draftPath (s.path .lock)) =
      start.place (FileStore.draftPath s.statePath)) :
    last.file? (start.place s.statePath) = some (.text "") := by
  have present : written.present = start.present := by
    have first := (start.spares_carryOut (.create (FileStore.draftPath s.statePath))).present
    have second := (created.spares_carryOut (.write (FileStore.draftPath s.statePath) text)).present
    rw [trees.creates] at first
    rw [trees.writes] at second
    exact second.trans first
  have here := FileTree.place_of_present present
  have emptied := FileTree.overwrite_ok (FileTree.ok_of_changed trees.begins)
  rw [here, shared] at emptied
  have there : ∀ path, begun.place path = start.place path := by
    intro path
    rw [emptied]
    exact here path
  obtain ⟨content, moved, placed⟩ := FileTree.rename_ok (FileTree.ok_of_changed trees.places)
  rw [there] at moved placed
  rw [emptied, FileTree.file?_put _ proper.2] at moved
  rw [placed, there, FileTree.file?_put _ proper.1, moved]

/-- Such a run tears every state with the name `state` before its ending. -/
theorem Crosses.torn_of_stem {path text : String} {dir name : List Char}
    {start created written begun last : FileTree} (h : Path.Names path dir name)
    (stem : Path.stem name = "state".toList)
    (trees : Crosses (.ofStatePath path) text start created written begun last) :
    last.file? (start.place path) = some (.text "") :=
  trees.torn (FileStore.proper_places h) (FileStore.shared_draft h stem)

def crossingState : ClusterState := .new ⟨0, 0⟩ "c1" "c1" "production"

/-- A tree with texts at some places. -/
def FileTree.holding (t : FileTree) (files : List (String × String)) : FileTree :=
  files.foldl (fun t file => t.put file.1 (.file (.text file.2))) t

theorem crosses_apart : Crosses (.ofStatePath "cluster.json") crossingState.document {}
    (.holding {} [("/cluster.tmp", "")]) (.holding {} [("/cluster.tmp", crossingState.document)])
    (.holding {} [("/cluster.tmp", crossingState.document), ("/state.tmp", "")])
    (.holding {} [("/cluster.json", crossingState.document), ("/state.tmp", "")]) :=
  ⟨rfl, rfl, rfl, rfl, rfl, rfl, rfl⟩

/-- A tree with the directory that stores are usually kept in. -/
def usualTree : FileTree := ({} : FileTree).put "/.hostsync" .directory

theorem crosses_usual :
    Crosses (.ofDirectory FileStore.usualDirectory) crossingState.document usualTree
      (usualTree.holding [("/.hostsync/state.tmp", "")])
      (usualTree.holding [("/.hostsync/state.tmp", crossingState.document)])
      (usualTree.holding [("/.hostsync/state.tmp", "")])
      (usualTree.holding [("/.hostsync/state.json", "")]) :=
  ⟨rfl, rfl, rfl, rfl, rfl, rfl, rfl⟩

/-- The state at a path that ends in a name is never torn if the name has another stem than that of
the lock and another ending than the files beside them: wherever a save and an acquisition of the
lock are stopped, the file at the path holds what it held in the beginning or the whole state that
is saved. -/
theorem state_never_torn {path : String} {dir name : List Char} (h : Path.Names path dir name)
    (stem : Path.stem name ≠ "state".toList)
    (ending : name ≠ Path.stem name ++ '.' :: "tmp".toList)
    {state : ClusterState} {holder : String} {start last : FileTree} {t now : Instant}
    {turns : List (Turn Party Machine)}
    {rests : (party : Party) → Program Machine party.Result}
    (run : Interleaves (fun _ => FileTree.Serves)
      (Party.program (.ofStatePath path) state holder) t start turns now last rests)
    {content : FileContent} (stands : last.content path = .ok content) :
    start.file? (start.place path) = some content ∨ content = .text state.document := by
  have reached : ∀ party, ∃ stage, History (Party.law (.ofStatePath path) state party) .preparing
      (Turn.own party turns) stage := fun party => party.exists_history (run.follows party)
  choose stages reached using reached
  have apart := FileStore.apart_of_names (t := start) h stem ending
  have intact := intact_of_timeline apart run.timeline reached
  have found := FileTree.file?_of_content stands
  rw [FileTree.place_of_present intact.present] at found
  exact intact.target content found

theorem state_never_torn_crossing : ∃ last rests,
    Interleaves (fun _ => FileTree.Serves)
      (Party.program (.ofStatePath "cluster.json") crossingState "holder") ⟨0, 0⟩ {}
      (crossing (.ofStatePath "cluster.json") crossingState.document) ⟨0, 0⟩ last rests ∧
    ∃ content, last.content "cluster.json" = .ok content ∧
      (({} : FileTree).file? (({} : FileTree).place "cluster.json") = some content ∨
        content = .text crossingState.document) := by
  have named : Path.Names "cluster.json" [] "cluster.json".toList :=
    ⟨rfl, .inl rfl, by decide, by decide⟩
  obtain ⟨rests, run⟩ := crosses_apart.interleaves "holder"
  refine ⟨_, rests, run, .text crossingState.document, rfl, ?_⟩
  exact state_never_torn named (by decide) (by decide) run rfl

/-- In the usual place, the state and the lock are first written to one file. A state can take its
place when the file has been emptied for the lock. -/
theorem usual_state_torn : ∃ last rests,
    Interleaves (fun _ => FileTree.Serves)
      (Party.program (.ofDirectory FileStore.usualDirectory) crossingState "holder") ⟨0, 0⟩
      usualTree (crossing (.ofDirectory FileStore.usualDirectory) crossingState.document) ⟨0, 0⟩
      last rests ∧
    usualTree.content ".hostsync/state.json" = .error .missing ∧
    last.content ".hostsync/state.json" = .ok (.text "") ∧ crossingState.document ≠ "" := by
  have named : Path.Names ".hostsync/state.json" ".hostsync/".toList "state.json".toList :=
    ⟨rfl, .inr ⟨".hostsync".toList, rfl⟩, by decide, by decide⟩
  have emptied := Crosses.torn_of_stem named rfl crosses_usual
  obtain ⟨rests, run⟩ := crosses_usual.interleaves "holder"
  exact ⟨_, rests, run, rfl, FileTree.content_of_file? rfl emptied, by decide +kernel⟩

end HostRoster
