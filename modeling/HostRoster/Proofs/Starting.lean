import HostRoster.Proofs.Entries
import HostRoster.Proofs.FileStores

/-!
# Starting a directory

A directory is started in steps, each of which changes the tree of files or fails and changes
nothing. Where all of them can be taken, what is left out is read, added to and written back as the
text of one file, so that taking them once more ends in the same tree.
-/
namespace HostRoster

namespace Init
open FileTree

/-- A change of a tree of files that can fail. -/
abbrev Step := FileTree → Except Trouble FileTree

/-- Takes steps as far as they go. -/
def settle : List Step → World → Except SyncError Unit × World
  | [], w => (.ok (), w)
  | step :: rest, w =>
    match step w.files with
    | .ok files => settle rest { w with files }
    | .error trouble => (.error (.io trouble.message), w)

/-- A job does what some steps do, whatever else it asks or says. -/
def Takes (job : Job Unit) (steps : List Step) : Prop :=
  ∀ w, World.server.play job.run w = settle steps w

theorem settle_append (first second : List Step) (w : World) :
    settle (first ++ second) w = match settle first w with
      | (.ok _, w') => settle second w'
      | (.error error, w') => (.error error, w') := by
  induction first generalizing w with
  | nil => rfl
  | cons step rest ih =>
    rw [List.cons_append, settle, settle]
    cases step w.files with
    | error trouble => rfl
    | ok files => exact ih _

theorem Takes.andThen {first second : Job Unit} {a b : List Step} (h : Takes first a)
    (next : Takes second b) : Takes (first >>= fun _ => second) (a ++ b) := by
  intro w
  rw [ExceptT.run_bind, Server.play_bind, h w, settle_append]
  obtain ⟨result, w'⟩ := settle a w
  cases result with
  | error error => rfl
  | ok value => exact next w'

theorem takes_say (line : String) : Takes (say line) [] := fun _ => rfl

/-- Asking whether something is there changes nothing. -/
theorem Takes.asking {path : String} {next : Bool → Job Unit} {steps : List Step}
    (h : ∀ w, World.server.play (next (w.files.found path)).run w = settle steps w) :
    Takes (contains path >>= next) steps :=
  fun w => (Server.play_run_then rfl).trans (h w)

/-- What a call that changes the tree gives and leaves behind. -/
def changed (w : World) (result : Except Trouble FileTree) : Except String Unit × World :=
  ((w.files.changed result).1, { w with files := (w.files.changed result).2 })

theorem takes_attempt {call : Program Machine (Except String Unit)} {step : Step}
    (h : ∀ w, World.server.play call w = changed w (step w.files)) : Takes (attempt call) [step] := by
  intro w
  refine (Server.play_then (h w)).trans ?_
  rw [settle]
  cases step w.files <;> rfl

theorem play_replaceFile (path text : String) (w : World) :
    World.server.play (Machine.replaceFile path text) w =
      changed w (w.files.overwrite path text) := by
  have creates : World.server.play
      (Machine.file (.create path) : Program Machine (Except String Unit)) w =
        changed w (w.files.overwrite path "") := rfl
  refine (Server.play_then creates).trans ?_
  cases created : w.files.overwrite path "" with
  | error trouble =>
    rw [overwrite_error created]
    rfl
  | ok t =>
    obtain ⟨next, edited, written⟩ := exists_edited created text
    change changed { w with files := t } (t.edit path fun _ => .text text) = _
    rw [edited, written]
    rfl

theorem takes_write (path text : String) : Takes (write path text) [(·.overwrite path text)] := by
  have replaces : Takes (attempt (Machine.replaceFile path text)) [(·.overwrite path text)] :=
    takes_attempt (play_replaceFile path text)
  exact replaces.andThen (takes_say _)

/-- The tree in which a file has all names to leave out, which are added to those it has. -/
def ignoring (path : String) : Step := fun t =>
  if t.found path then do t.overwrite path (ignoreText (some (← t.read path)))
  else t.overwrite path (ignoreText none)

theorem takes_writeIgnored (path : String) : Takes (writeIgnored path) [ignoring path] := by
  refine Takes.asking fun w => ?_
  cases found : w.files.found path with
  | false =>
    have same : ignoring path w.files = w.files.overwrite path (ignoreText none) := by
      simp [ignoring, found]
    refine (takes_write path (ignoreText none) w).trans ?_
    rw [settle, settle, same]
  | true =>
    have reads : World.server.play (attempt (Machine.file (.read path))).run w =
      (((w.files.read path).mapError Trouble.message).mapError .io, w) := rfl
    have same : ignoring path w.files =
        w.files.read path >>= fun text => w.files.overwrite path (ignoreText (some text)) := by
      simp [ignoring, found]
    rw [settle, same, if_pos rfl, ExceptT.run_bind, Server.play_bind, reads]
    cases stored : w.files.read path with
    | error trouble => rfl
    | ok text =>
      dsimp only [Except.mapError]
      change _ = settle [(·.overwrite path (ignoreText (some text)))] w
      cases all : missingFrom text with
      | nil =>
        -- nothing is written, and the file has the text that the step would write
        have kept : ignoreText (some text) = text := by rw [ignoreText, all]
        rw [kept, settle, overwrite_self stored]
        rfl
      | cons first rest =>
        have longer : ignoreText (some text) = text ++ addition (first :: rest) := by
          rw [ignoreText, all]
        have adds : Takes (attempt (Machine.file (.append path (addition (first :: rest)))))
          [(·.edit path (·.append (addition (first :: rest))))] := takes_attempt fun _ => rfl
        refine (adds.andThen (takes_say _) w).trans ?_
        rw [longer, List.append_nil, settle, settle, edit_append stored]

/-- The steps of a start by force before the last. -/
def firstSteps (directory : String) : List Step := [(·.opened directory),
  (·.overwrite (Path.join directory "hostsync.yaml") configText),
  (·.overwrite (Path.join directory ".env.example") variablesText)]

def steps (directory : String) : List Step :=
  firstSteps directory ++ [ignoring (Path.join directory ".gitignore")]

/-- Telling what to do next changes nothing. -/
theorem takes_forM_say (lines : List String) : Takes (lines.forM say) [] := by
  induction lines with
  | nil => exact fun _ => rfl
  | cons line rest ih => exact (takes_say line).andThen ih

theorem takes_open {directory : String} {next : Job Unit} {rest : List Step} (h : Takes next rest) :
    Takes (do
      if !(← contains directory) then attempt (Machine.file (.makeDirectory directory))
      next) ((·.opened directory) :: rest) := by
  refine Takes.asking fun w => ?_
  have made : Takes (attempt (Machine.file (.makeDirectory directory)))
    [(·.makeDirectory directory)] := takes_attempt fun _ => rfl
  rw [settle, opened]
  cases w.files.found directory with
  | false => exact (made.andThen h w).trans rfl
  | true => exact h w

theorem takes_run (directory : String) : Takes (run directory true) (steps directory) := by
  refine Takes.asking fun w => ?_
  have files := (takes_write (Path.join directory "hostsync.yaml") configText).andThen
    ((takes_write (Path.join directory ".env.example") variablesText).andThen
      ((takes_writeIgnored (Path.join directory ".gitignore")).andThen (takes_forM_say nextSteps)))
  exact takes_open files w

/-- The names of the files that a directory is started with. -/
def names : List String := ["hostsync.yaml", ".env.example", ".gitignore"]

theorem proper_names {name : String} (mem : name ∈ names) : '/' ∉ name.toList ∧
    name.toList ≠ [] ∧ name.toList ≠ ['.'] ∧ name.toList ≠ ['.', '.'] := by
  revert name
  decide

theorem place_ne (t : FileTree) (directory : String) {a b : String} (memA : a ∈ names)
    (memB : b ∈ names) (apart : a ≠ b) :
    t.place (Path.join directory a) ≠ t.place (Path.join directory b) := by
  obtain ⟨plainA, properA⟩ := proper_names memA
  obtain ⟨plainB, properB⟩ := proper_names memB
  obtain ⟨dir, before⟩ := exists_before directory
  rw [place_eq (before.names a plainA properA), place_eq (before.names b plainB properB)]
  exact child_ne _ fun same => apart (String.toList_inj.1 same)

/-- A directory that holds one of the files is there. -/
theorem opened_of_read {t : FileTree} {directory name text : String} (mem : name ∈ names)
    (reads : t.read (Path.join directory name) = .ok text) : t.opened directory = .ok t := by
  obtain ⟨place, located, -⟩ := read_ok_iff.1 reads
  obtain ⟨plain, proper⟩ := proper_names mem
  obtain ⟨dir, before⟩ := exists_before directory
  rw [opened, makeDirectory_of_locate before (before.names name plain proper) located, ite_self]

/-- A directory can be started by force: it is there or can be made, each file can be written in it,
and what stands at the place of the last one is a text, or nothing at all. -/
structure Startable (t : FileTree) (directory : String) (old : Option String) : Prop where
  writable : ∃ base, t.opened directory = .ok base ∧
    ∀ name ∈ names, base.Free (Path.join directory name)
  text : t.file? (t.place (Path.join directory ".gitignore")) = old.map .text

/-- A directory has been started. -/
structure Started (t : FileTree) (directory text : String) : Prop where
  opened : t.opened directory = .ok t
  config : t.read (Path.join directory "hostsync.yaml") = .ok configText
  sample : t.read (Path.join directory ".env.example") = .ok variablesText
  ignores : t.read (Path.join directory ".gitignore") = .ok text

section Steps
variable {t t' : FileTree} {w : World} {path directory text : String} {old : Option String}

theorem ignoring_of_holds (h : t.Holds path old) :
    ignoring path t = t.overwrite path (ignoreText old) := by
  rw [ignoring, h.found_eq]
  cases old with
  | none => rfl
  | some text =>
    have reads : t.read path = .ok text := h
    rw [reads]
    rfl

theorem exists_text_of_ignoring (h : ignoring path t = .ok t') :
    t.Free path ∧ ∃ old : Option String, t.file? (t.place path) = old.map .text := by
  rw [ignoring] at h
  split at h
  · obtain ⟨text, reads, -⟩ := bind_ok h
    obtain ⟨place, located, stands⟩ := read_ok_iff.1 reads
    refine ⟨⟨place, located, by simp [stands]⟩, some text, ?_⟩
    rw [← place_of_locate located]
    exact file?_eq.2 stands
  · rename_i missing
    obtain ⟨place, located, free⟩ := (overwrites_of_ok h).free
    have nothing : t.entry? place = none := by
      by_contra some_
      exact missing (found_iff.2 ⟨place, located, some_⟩)
    refine ⟨⟨place, located, free⟩, none, ?_⟩
    rw [← place_of_locate located, file?, nothing]
    rfl

/-- The steps change nothing in a directory that has been started. -/
theorem Started.settle_eq (h : Started w.files directory text)
    (all : ignoreText (some text) = text) : settle (steps directory) w = (.ok (), w) := by
  have holds : w.files.Holds (Path.join directory ".gitignore") (some text) := h.ignores
  have ignores := (ignoring_of_holds holds).trans ((congrArg _ all).trans (overwrite_self h.ignores))
  simp only [steps, firstSteps, List.cons_append, List.nil_append, settle, h.opened,
    overwrite_self h.config, overwrite_self h.sample, ignores]

/-- Before the last step the last file is left alone. -/
theorem leavesAlone_of_first {step : Step} (mem : step ∈ firstSteps directory)
    (taken : step t = .ok t') : t.LeavesAlone (Path.join directory ".gitignore") t' := by
  have written {name text : String} (known : name ∈ names) (other : ".gitignore" ≠ name)
      (h : t.overwrite (Path.join directory name) text = .ok t') :
      t.LeavesAlone (Path.join directory ".gitignore") t' := by
    rw [overwrite_ok h]
    refine (spares_put t (List.mem_singleton_self _) _).leavesAlone ?_
    rw [List.mem_singleton]
    exact place_ne t directory (by decide) known other
  rw [firstSteps, List.mem_cons, List.mem_cons, List.mem_singleton] at mem
  obtain rfl | rfl | rfl := mem
  · exact (spares_opened taken).leavesAlone List.not_mem_nil
  · exact written (by decide) (by decide) taken
  · exact written (by decide) (by decide) taken

/-- What each step leaves alone, all of them do. -/
theorem settle_leavesAlone {steps : List Step}
    (careful : ∀ step ∈ steps, ∀ t t', step t = .ok t' → t.LeavesAlone path t') (w : World) :
    w.files.LeavesAlone path (settle steps w).2.files := by
  induction steps generalizing w with
  | nil => exact ⟨rfl, rfl⟩
  | cons step rest ih =>
    obtain ⟨first, careful⟩ := List.forall_mem_cons.1 careful
    rw [settle]
    cases taken : step w.files with
    | error trouble => exact ⟨rfl, rfl⟩
    | ok t => exact (first _ t taken).trans (ih careful { w with files := t })

theorem settle_first (directory : String) (w : World) :
    w.files.LeavesAlone (Path.join directory ".gitignore") (settle (firstSteps directory) w).2.files :=
  settle_leavesAlone (fun _ mem _ _ => leavesAlone_of_first mem) w

theorem Startable.started (h : Startable w.files directory old) :
    ∃ t, settle (steps directory) w = (.ok (), { w with files := t }) ∧
      Started t directory (ignoreText old) := by
  -- each step is taken in the tree of the one before, in which the same paths can be written
  obtain ⟨base, made, free⟩ := h.writable
  obtain ⟨t₁, first⟩ := exists_overwritten (free "hostsync.yaml" (by decide)) configText
  have config := overwrites_of_ok first
  have free₁ := fun name mem => config.same.free (free name mem)
  obtain ⟨t₂, second⟩ := exists_overwritten (free₁ ".env.example" (by decide)) variablesText
  have sample := overwrites_of_ok second
  have free₂ := fun name mem => sample.same.free (free₁ name mem)
  have taken : settle (firstSteps directory) w = (.ok (), { w with files := t₂ }) := by
    simp only [firstSteps, settle, made, first, second]
  have left := settle_first directory w
  rw [taken] at left
  have holds : t₂.Holds (Path.join directory ".gitignore") old :=
    holds_of_free (free₂ ".gitignore" (by decide)) (left.file.trans h.text)
  obtain ⟨t₃, third⟩ := exists_overwritten (free₂ ".gitignore" (by decide)) (ignoreText old)
  have ignores := overwrites_of_ok third
  -- what was written first is still there, since the files stand in different places
  refine ⟨t₃, ?_, opened_of_read (by decide) ignores.reads, ?_, ?_, ignores.reads⟩
  · have last := (ignoring_of_holds holds).trans third
    rw [steps, settle_append, taken]
    simp only [settle, last]
  · refine ignores.same.read (ignores.others _ ?_) (sample.same.read (sample.others _ ?_) config.reads)
    · exact place_ne t₂ directory (by decide) (by decide) (by decide)
    · exact place_ne t₁ directory (by decide) (by decide) (by decide)
  · refine ignores.same.read (ignores.others _ ?_) sample.reads
    exact place_ne t₂ directory (by decide) (by decide) (by decide)

theorem exists_taken {step : Step} {rest : List Step}
    (succeeds : (settle (step :: rest) w).1 = .ok ()) :
    ∃ t, step w.files = .ok t ∧ (settle rest { w with files := t }).1 = .ok () := by
  rw [settle] at succeeds
  cases taken : step w.files with
  | error trouble =>
    rw [taken] at succeeds
    cases succeeds
  | ok t =>
    rw [taken] at succeeds
    exact ⟨t, rfl, succeeds⟩

/-- Where the steps can be taken, the files could be written from the start. -/
theorem exists_startable (succeeds : (settle (steps directory) w).1 = .ok ()) :
    ∃ old, Startable w.files directory old := by
  obtain ⟨base, made, succeeds⟩ := exists_taken succeeds
  obtain ⟨t₁, first, succeeds⟩ := exists_taken succeeds
  obtain ⟨t₂, second, succeeds⟩ := exists_taken succeeds
  obtain ⟨t₃, third, -⟩ := exists_taken succeeds
  have left := settle_first directory w
  have taken : settle (firstSteps directory) w = (.ok (), { w with files := t₂ }) := by
    simp only [firstSteps, settle, made, first, second]
  rw [taken] at left
  have config := overwrites_of_ok first
  have sample := overwrites_of_ok second
  obtain ⟨free, old, text⟩ := exists_text_of_ignoring third
  refine ⟨old, ⟨base, made, fun name mem => ?_⟩, left.file.symm.trans text⟩
  simp only [names, List.mem_cons, List.not_mem_nil, or_false] at mem
  obtain rfl | rfl | rfl := mem
  · exact config.free
  · exact config.same.symm.free sample.free
  · exact config.same.symm.free (sample.same.symm.free free)

/-- The last file is touched by the last step only, which changes nothing where it fails. -/
theorem leavesAlone_of_error (fails : (settle (steps directory) w).1 ≠ .ok ()) :
    w.files.LeavesAlone (Path.join directory ".gitignore") (settle (steps directory) w).2.files := by
  have left := settle_first directory w
  rw [steps, settle_append] at fails ⊢
  generalize settle (firstSteps directory) w = reached at fails left ⊢
  obtain ⟨result, w'⟩ := reached
  cases result with
  | error error => exact left
  | ok value =>
    dsimp only [settle] at fails ⊢
    cases taken : ignoring (Path.join directory ".gitignore") w'.files with
    | error trouble => exact left
    | ok t =>
      rw [taken] at fails
      exact absurd rfl fails

end Steps

/-- What a start by force comes to. -/
def forced (directory : String) (w : World) : Except SyncError Unit × World :=
  World.server.play (run directory true).run w

/-- What a start by force does to the names that are left out. -/
structure LeavesOut (w : World) (directory : String) : Prop where
  /-- It succeeds exactly where the files can be written and a text, or nothing, says what is left out
  so far. -/
  succeeds_iff : (forced directory w).1 = .ok () ↔ ∃ old, Startable w.files directory old
  /-- From there it goes on to a text that leaves out all names. -/
  extends_old : ∀ old, Startable w.files directory old → ∃ text,
    (forced directory w).2.files.read (Path.join directory ".gitignore") = .ok text ∧
      Extends (old.getD "") text
  /-- A second start succeeds again and changes nothing at all. -/
  again : (forced directory w).1 = .ok () →
    forced directory (forced directory w).2 = (.ok (), (forced directory w).2)
  /-- A start that fails leaves the file alone. -/
  spared : (forced directory w).1 ≠ .ok () →
    w.files.LeavesAlone (Path.join directory ".gitignore") (forced directory w).2.files

/-- A start by force keeps what is left out so far and adds the names that are missing, once. -/
theorem forced_leavesOut (w : World) (directory : String) : LeavesOut w directory := by
  have runs : ∀ w, forced directory w = settle (steps directory) w := takes_run directory
  refine ⟨⟨fun succeeds => ?_, ?_⟩, fun old startable => ?_, fun succeeds => ?_, fun fails => ?_⟩
  · exact exists_startable (runs w ▸ succeeds)
  · rintro ⟨old, startable⟩
    obtain ⟨t, settles, -⟩ := startable.started
    rw [runs, settles]
  · obtain ⟨t, settles, started⟩ := startable.started
    rw [runs, settles]
    exact ⟨_, started.ignores, extends_ignoreText old⟩
  · rw [runs] at succeeds
    obtain ⟨old, startable⟩ := exists_startable succeeds
    obtain ⟨t, settles, started⟩ := startable.started
    rw [runs w, settles, runs]
    exact started.settle_eq (ignoreText_again old)
  · rw [runs] at fails ⊢
    exact leavesAlone_of_error fails

/-- One name is left out on an indented line, another only as the start of a last line that is not
ended. -/
def halfIgnored : World where
  files := ({} : FileTree).put "/.gitignore" (.file (.text "  .hostsync/\r\n.env.local"))
  clock := ⟨0, 0⟩
  process := ""

theorem startable_halfIgnored :
    Startable halfIgnored.files "." (some "  .hostsync/\r\n.env.local") where
  writable := by
    have free : ∀ name ∈ names, halfIgnored.files.locate (Path.join "." name) = .ok ("/" ++ name) ∧
        halfIgnored.files.entry? ("/" ++ name) ≠ some .directory := by decide +kernel
    refine ⟨halfIgnored.files, if_pos (by decide +kernel), fun name mem => ?_⟩
    exact ⟨_, free name mem⟩
  text := by decide +kernel

theorem forced_leavesOut_halfIgnored : ∃ text,
    (forced "." halfIgnored).2.files.read "./.gitignore" = .ok text ∧
      Extends "  .hostsync/\r\n.env.local" text :=
  (forced_leavesOut halfIgnored ".").extends_old _ startable_halfIgnored

end Init

end HostRoster
