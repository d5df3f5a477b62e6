import HostRoster.Proofs.Exchange
import HostRoster.Proofs.FileStores
import HostRoster.Store.Backend

/-!
# Two kinds of stores that behave alike

What a store does is said over calls on two documents, so that two kinds of stores differ only
in how they keep these. As long as neither fails, both keep them like two texts: whatever is
asked of both, their replies are the same, and so are the texts they are left with.
-/
namespace HostRoster

namespace ObjectStore

/-- A store of objects keeps texts without fail: no call is going to fail, and the objects of the
documents hold the texts. -/
structure Keeps (s : ObjectStore) (storage : ObjectStorage) (texts : Document → Option String) :
    Prop where
  faultless : storage.faults = []
  holds : ∀ d, storage.objects.get? (s.bucket ++ "/" ++ s.key d) =
    (texts d).map fun x => .text x

section Calls
variable {a : Almanac} {w : World} {asked : Nat} {s : ObjectStore}
  {texts : Document → Option String}

theorem place_ne (s : ObjectStore) {d e : Document} (apart : d ≠ e) :
    s.bucket ++ "/" ++ s.key d ≠ s.bucket ++ "/" ++ s.key e := by
  intro same
  have names : d.fileName = e.fileName :=
    (String.append_right_inj _).1 ((String.append_right_inj _).1 same)
  cases d <;> cases e <;> first | exact absurd rfl apart | exact absurd names (by decide)

/-- The object of one document is replaced or removed. -/
theorem Keeps.update {storage : ObjectStorage} (h : s.Keeps storage texts) (d : Document)
    (text : Option String) {objects : KeyMap String FileContent}
    (here : objects.get? (s.bucket ++ "/" ++ s.key d) = text.map fun x => .text x)
    (others : ∀ place ≠ s.bucket ++ "/" ++ s.key d, objects.get? place = storage.objects.get? place) :
    s.Keeps { storage with objects } (Function.update texts d text) := by
  refine ⟨h.faultless, fun e => ?_⟩
  by_cases this : e = d
  · subst this
    rw [here, Function.update_self]
  · rw [others _ (s.place_ne this), h.holds, Function.update_of_ne this]

theorem play_object_of {call : ObjectCall} {reply : call.Answer} {storage : ObjectStorage}
    (faultless : w.storage.faults = []) (performs : w.storage.perform call = (reply, storage)) :
    a.machine.play (Machine.object call) (w, asked) = (reply, { w with storage }, asked) := by
  have carries : w.storage.carryOut call = w.storage.perform call := by
    simp [ObjectStorage.carryOut, ObjectStorage.takeFault, faultless]
  rw [Almanac.play_object, carries, performs]

theorem perform_fetch {storage : ObjectStorage} (h : s.Keeps storage texts) (d : Document) :
    storage.perform (.fetch s.bucket (s.key d)) = ((texts d).elim .missing .text, storage) := by
  have stored := h.holds d
  rw [ObjectStorage.perform, stored]
  cases texts d <;> rfl

theorem perform_check {storage : ObjectStorage} (h : s.Keeps storage texts) (d : Document) :
    storage.perform (.check s.bucket (s.key d)) = (.ok (texts d).isSome, storage) := by
  rw [ObjectStorage.perform, h.holds, Option.isSome_map]

/-- A store of objects that keeps texts does what is done to the texts. -/
theorem standsIn (a : Almanac) (s : ObjectStore) :
    a.machine.StandsIn s.carryOut a.papers fun m p => m.2 = p.2 ∧ s.Keeps m.1.storage p.1 := by
  rintro call ⟨w, asked⟩ ⟨texts, _⟩ ⟨rfl, h⟩
  cases call with
  | read d =>
    refine ⟨_, (Server.play_then (play_object_of h.faultless (perform_fetch h d))).trans ?_, rfl, h⟩
    change (s.ofFetched d ((texts d).elim .missing .text), _) = (.ok (texts d), _)
    cases texts d <;> rfl
  | write d text =>
    refine ⟨_, Server.play_then (play_object_of h.faultless rfl), rfl, ?_⟩
    exact h.update d (some text) (KeyMap.get?_insert ..) fun place apart =>
      KeyMap.get?_insert_of_ne apart _
  | remove d =>
    refine ⟨_, Server.play_then (play_object_of h.faultless rfl), rfl, ?_⟩
    exact h.update d none (KeyMap.get?_erase ..) fun place apart => KeyMap.get?_erase_of_ne apart
  | contains d =>
    exact ⟨_, Server.play_then (play_object_of h.faultless (perform_check h d)), rfl, h⟩
  | now => exact ⟨_, rfl, rfl, h⟩
  | freshId => exact ⟨_, rfl, rfl, h⟩
  | processName => exact ⟨_, rfl, rfl, h⟩

end Calls

end ObjectStore

/-- Something asked of a store: an operation, or whether a lock is held that has not expired. -/
inductive StoreQuestion where
  | call (call : StoreCall)
  | isLocked

namespace StoreQuestion

def Answer : StoreQuestion → Type
  | call c => c.Answer
  | isLocked => Bool

/-- What a question does to the documents. -/
def perform : (question : StoreQuestion) → Keeping question.Answer
  | call c => c.perform
  | isLocked => do
    let lock ← StoreCall.readLock
    let now : Instant ← Documents.ask .now
    return isHeld lock now

end StoreQuestion

def Questions : Interface where
  Request := StoreQuestion
  Reply question := Except StateError question.Answer

namespace Backend

/-- What a machine that goes by an almanac makes of questions to a store, one after the other. -/
def replies (b : Backend) (a : Almanac) (questions : List StoreQuestion) (m : World × Nat) :
    List (Exchange Questions) × World × Nat :=
  a.machine.replies (fun question : Questions.Request => question.perform.run.interpret b.carryOut)
    questions m

/-- A store of files in any directory and a store of objects in any bucket that keep the same texts
without fail, whatever these are, give the same replies to whatever is asked of both, one question
after the other, and keep the same texts in the end: the replies and the texts that come of asking
two texts the same. -/
theorem kinds_agree (a : Almanac) (directory : String) (store : ObjectStore)
    (questions : List StoreQuestion) {w v : World} {texts : Document → Option String} (asked : Nat)
    (files : (FileStore.ofDirectory directory).Keeps w.files texts)
    (objects : store.Keeps v.storage texts) :
    ∃ replies w' v' texts' asked',
      (Backend.files (.ofDirectory directory)).replies a questions (w, asked) =
        (replies, w', asked') ∧
      (Backend.objects store).replies a questions (v, asked) = (replies, v', asked') ∧
      a.papers.replies (fun question : Questions.Request => question.perform.run) questions
        (texts, asked) = (replies, texts', asked') ∧
      (FileStore.ofDirectory directory).Keeps w'.files texts' ∧ store.Keeps v'.storage texts' := by
  let ask := fun question : Questions.Request => question.perform.run
  obtain ⟨⟨w', _⟩, onFiles, rfl, kept⟩ := (FileStore.standsIn a directory).replies ask questions
    (w, asked) (texts, asked) ⟨rfl, files⟩
  obtain ⟨⟨v', _⟩, onObjects, rfl, kept'⟩ := (ObjectStore.standsIn a store).replies ask questions
    (v, asked) (texts, asked) ⟨rfl, objects⟩
  exact ⟨_, w', v', _, _, onFiles, onObjects, rfl, kept, kept'⟩

/-- A state that is no document, and a lock that has long expired. -/
def abandonedTexts : Document → Option String
  | .state => some "\x7b"
  | .lock => some (Lock.mk "1" "holder" ⟨0, 0⟩ ⟨300, 0⟩).document

def abandonedFiles : World where
  files := ((({} : FileTree).put "/.hostsync" .directory).put "/.hostsync/state.json"
    (.file (.text "\x7b"))).put "/.hostsync/state.lock"
      (.file (.text (Lock.mk "1" "holder" ⟨0, 0⟩ ⟨300, 0⟩).document))
  clock := ⟨0, 0⟩
  process := ""

def abandonedObjects : World where
  storage.objects := .ofList [("b/prod/state.json", .text "\x7b"),
    ("b/prod/state.lock", .text (Lock.mk "1" "holder" ⟨0, 0⟩ ⟨300, 0⟩).document)]
  clock := ⟨0, 0⟩
  process := ""

def lateAlmanac : Almanac := ⟨fun n => ⟨1000 + n, 0⟩, World.identifier, fun _ => "process"⟩

def lateQuestions : List StoreQuestion :=
  [.call .load, .isLocked, .call (.release "2"), .call (.acquire "other"), .isLocked,
    .call .delete, .call .delete, .call .hasState]

theorem keeps_abandonedFiles :
    (FileStore.ofDirectory FileStore.usualDirectory).Keeps abandonedFiles.files abandonedTexts := by
  have holds : ∀ d, abandonedFiles.files.Holds
      ((FileStore.ofDirectory FileStore.usualDirectory).path d) (abandonedTexts d) := by
    intro d
    cases d <;> rfl
  exact ⟨holds, abandonedFiles.files, rfl, fun d => ⟨holds d, by cases d <;> exact ⟨_, rfl⟩⟩⟩

theorem keeps_abandonedObjects :
    (ObjectStore.mk "b" "prod/").Keeps abandonedObjects.storage abandonedTexts :=
  ⟨rfl, fun d => by cases d <;> rfl⟩

theorem kinds_agree_abandoned : ∃ replies w' v' texts' asked',
    (Backend.files (.ofDirectory FileStore.usualDirectory)).replies lateAlmanac lateQuestions
      (abandonedFiles, 0) = (replies, w', asked') ∧
    (Backend.objects ⟨"b", "prod/"⟩).replies lateAlmanac lateQuestions (abandonedObjects, 0) =
      (replies, v', asked') ∧
    lateAlmanac.papers.replies (fun question : Questions.Request => question.perform.run)
      lateQuestions (abandonedTexts, 0) = (replies, texts', asked') ∧
    (FileStore.ofDirectory FileStore.usualDirectory).Keeps w'.files texts' ∧
    (ObjectStore.mk "b" "prod/").Keeps v'.storage texts' :=
  kinds_agree lateAlmanac FileStore.usualDirectory ⟨"b", "prod/"⟩ lateQuestions 0
    keeps_abandonedFiles keeps_abandonedObjects

end Backend

end HostRoster
