import HostRoster.Proofs.KeyMap
import HostRoster.Proofs.Paths

/-!
# What a call does to a tree of files

A call changes no file but those it names, and what it does to those is said once for
each call. The place of a path does not depend on what stands in the tree, so that calls
on paths can be told apart by the paths alone.
-/
namespace HostRoster

/-- The paths of the files that a call may change. -/
def FileCall.changes : FileCall → List String
  | .create path => [path]
  | .write path _ => [path]
  | .append path _ => [path]
  | .rename source target => [source, target]
  | .delete path => [path]
  | _ => []

namespace FileTree

variable {t t' : FileTree} {path place : String} {entry : FileEntry}

theorem entry_put_of_ne (t : FileTree) {other : String} (apart : other ≠ place)
    (entry : FileEntry) :
    FileTree.entry? (t.put place entry) other = t.entry? other := by
  unfold entry?
  split
  · rfl
  · exact KeyMap.get?_insert_of_ne apart entry

theorem entry_put (t : FileTree) (proper : place ≠ "/") (entry : FileEntry) :
    FileTree.entry? (t.put place entry) place = some entry := by
  unfold entry?
  rw [if_neg proper]
  exact KeyMap.get?_insert ..

theorem put_put (t : FileTree) (place : String) (first second : FileEntry) :
    (t.put place first).put place second = t.put place second :=
  congrArg (fun entries => { t with entries }) (KeyMap.insert_insert t.entries place first second)

/-- What stands at a place can be put there without change. -/
theorem put_of_entry (proper : place ≠ "/") (stands : t.entry? place = some entry) :
    t.put place entry = t := by
  unfold entry? at stands
  rw [if_neg proper] at stands
  exact congrArg (fun entries => { t with entries })
    (KeyMap.insert_of_mem (KeyMap.get?_eq_some.1 stands))

/-- The file at a place, if a file stands there. -/
def file? (t : FileTree) (place : String) : Option FileContent :=
  match t.entry? place with
  | some (.file content) => some content
  | _ => none

theorem file?_eq {content : FileContent} :
    t.file? place = some content ↔ t.entry? place = some (.file content) := by
  unfold file?
  split <;> simp_all

/-- A file that is read stands at the place of its path. -/
theorem file?_of_content {content : FileContent} (h : t.content path = .ok content) :
    t.file? (t.place path) = some content := by
  obtain ⟨place, found, stored⟩ := bind_ok h
  rw [← place_of_locate found, file?_eq]
  split at stored
  · cases stored
  · cases stored
  · rename_i here
    rw [here, Except.ok.inj stored]

theorem content_of_file? {content : FileContent} (found : t.locate path = .ok place)
    (stands : t.file? place = some content) : t.content path = .ok content := by
  rw [FileTree.content, found]
  dsimp only [bind, Except.bind]
  rw [file?_eq.1 stands]

/-- The tree without what stands at a place. -/
def without (t : FileTree) (place : String) : FileTree :=
  { t with entries := t.entries.erase place }

theorem entry_without_of_ne (t : FileTree) {other : String} (apart : other ≠ place) :
    FileTree.entry? (t.without place) other = t.entry? other := by
  unfold entry?
  split
  · rfl
  · exact KeyMap.get?_erase_of_ne apart

theorem entry_without (t : FileTree) (proper : place ≠ "/") :
    FileTree.entry? (t.without place) place = none := by
  unfold entry?
  rw [if_neg proper]
  exact KeyMap.get?_erase ..

theorem file?_without (t : FileTree) {other : String} (apart : other ≠ place) :
    (t.without place).file? other = t.file? other := by
  rw [file?, entry_without_of_ne t apart, file?]

theorem file?_put_of_ne (t : FileTree) {other : String} (apart : other ≠ place)
    (entry : FileEntry) :
    (t.put place entry).file? other = t.file? other := by
  rw [file?, entry_put_of_ne t apart, file?]

theorem file?_put (t : FileTree) (proper : place ≠ "/") (content : FileContent) :
    (t.put place (.file content)).file? place = some content := by
  rw [file?, entry_put t proper]

/-- The files stay as they are, but for those at some places, and so does the directory from which
paths are seen. -/
structure Spares (t : FileTree) (touched : List String) (t' : FileTree) : Prop where
  present : t'.present = t.present
  files : ∀ place ∉ touched, t'.file? place = t.file? place

theorem Spares.refl (t : FileTree) (touched : List String) : t.Spares touched t :=
  ⟨rfl, fun _ _ => rfl⟩

theorem spares_put (t : FileTree) {touched : List String} (mem : place ∈ touched)
    (entry : FileEntry) : t.Spares touched (t.put place entry) := by
  refine ⟨rfl, fun other away => file?_put_of_ne t ?_ entry⟩
  rintro rfl
  exact away mem

theorem spares_without (t : FileTree) {touched : List String} (mem : place ∈ touched) :
    t.Spares touched (t.without place) := by
  refine ⟨rfl, fun other away => file?_without t ?_⟩
  rintro rfl
  exact away mem

theorem Spares.trans {t'' : FileTree} {touched : List String} (first : t.Spares touched t')
    (second : t'.Spares touched t'') : t.Spares touched t'' :=
  ⟨second.present.trans first.present,
    fun place away => (second.files place away).trans (first.files place away)⟩

/-- The place of a path stays the same while the directory from which paths are seen does. -/
theorem place_of_present (same : t'.present = t.present) (path : String) :
    t'.place path = t.place path := by
  rw [FileTree.place, FileTree.start, same, FileTree.place, FileTree.start]

/-- The file at a path stays as it is, and so does the directory from which paths are seen. -/
structure LeavesAlone (t : FileTree) (path : String) (t' : FileTree) : Prop where
  present : t'.present = t.present
  file : t'.file? (t'.place path) = t.file? (t.place path)

theorem LeavesAlone.trans {t'' : FileTree} (first : t.LeavesAlone path t')
    (second : t'.LeavesAlone path t'') : t.LeavesAlone path t'' :=
  ⟨second.present.trans first.present, second.file.trans first.file⟩

theorem Spares.leavesAlone {touched : List String} (h : t.Spares touched t')
    (away : t.place path ∉ touched) : t.LeavesAlone path t' := by
  refine ⟨h.present, ?_⟩
  rw [place_of_present h.present]
  exact h.files _ away

theorem overwrite_ok_iff {text : String} : t.overwrite path text = .ok t' ↔
    ∃ place, t.locate path = .ok place ∧ t.entry? place ≠ some .directory ∧
      t.put place (.file (.text text)) = t' := by
  constructor
  · intro written
    obtain ⟨place, located, replaced⟩ := bind_ok written
    split at replaced
    · cases replaced
    · exact ⟨place, located, ‹_›, Except.ok.inj replaced⟩
  · rintro ⟨place, located, free, rfl⟩
    rw [overwrite, located]
    dsimp only [bind, Except.bind]
    split
    · exact absurd ‹_› free
    · rfl

theorem overwrite_ok {text : String} (h : t.overwrite path text = .ok t') :
    t' = t.put (t.place path) (.file (.text text)) := by
  obtain ⟨place, located, -, rfl⟩ := overwrite_ok_iff.1 h
  rw [place_of_locate located]

theorem edit_ok {f : FileContent → FileContent} (h : t.edit path f = .ok t') :
    ∃ content, t' = t.put (t.place path) (.file (f content)) := by
  obtain ⟨place, found, edited⟩ := bind_ok h
  rw [← place_of_locate found]
  split at edited
  · cases edited
  · cases edited
  · rename_i content _
    exact ⟨content, (Except.ok.inj edited).symm⟩

theorem delete_ok (h : t.delete path = .ok t') :
    t' = t.without (t.place path) := by
  obtain ⟨place, found, deleted⟩ := bind_ok h
  rw [← place_of_locate found]
  split at deleted
  · cases deleted
  · cases deleted
  · exact (Except.ok.inj deleted).symm

theorem rename_ok {source target : String} (h : t.rename source target = .ok t') :
    ∃ content, t.file? (t.place source) = some content ∧
      t' = (t.without (t.place source)).put (t.place target) (.file content) := by
  obtain ⟨old, foundOld, found⟩ := bind_ok h
  obtain ⟨new, foundNew, renamed⟩ := bind_ok found
  rw [← place_of_locate foundOld, ← place_of_locate foundNew]
  split at renamed
  · cases renamed
  · cases renamed
  · cases renamed
  · rename_i entry noDirectory stored _
    cases entry with
    | directory => exact (noDirectory rfl).elim
    | file content => exact ⟨content, file?_eq.2 stored, (Except.ok.inj renamed).symm⟩

theorem descend_ok_iff {start segment : String} {visit : FileTree × String} :
    descend (t, start) segment = .ok visit ↔ ∃ next, t.step start segment = .ok next ∧
      (t.entry? next = some .directory ∧ visit = (t, next) ∨
        t.entry? next = none ∧ visit = (t.put next .directory, next)) := by
  constructor
  · intro down
    obtain ⟨next, stepped, made⟩ := bind_ok down
    refine ⟨next, stepped, ?_⟩
    split at made
    · exact .inl ⟨‹_›, (Except.ok.inj made).symm⟩
    · cases made
    · exact .inr ⟨‹_›, (Except.ok.inj made).symm⟩
  · rintro ⟨next, stepped, made⟩
    rw [descend, stepped]
    dsimp only [bind, Except.bind]
    rcases made with ⟨stands, rfl⟩ | ⟨missing, rfl⟩
    · rw [stands]
    · rw [missing]

theorem descend_ok {visit visit' : FileTree × String} {segment : String}
    (h : descend visit segment = .ok visit') : visit.1.Spares [] visit'.1 := by
  obtain ⟨place, -, ⟨-, rfl⟩ | ⟨missing, rfl⟩⟩ := descend_ok_iff.1 h
  · exact .refl _ _
  · refine ⟨rfl, fun other _ => ?_⟩
    by_cases here : other = place
    · subst here
      have proper : other ≠ "/" := by
        rintro rfl
        cases missing
      rw [file?, entry_put _ proper, file?, missing]
    · exact file?_put_of_ne _ here _

theorem foldlM_descend_ok {segments : List String} {visit visit' : FileTree × String}
    (h : segments.foldlM descend visit = .ok visit') : visit.1.Spares [] visit'.1 := by
  induction segments generalizing visit with
  | nil =>
    rw [← Except.ok.inj h]
    exact .refl _ _
  | cons segment rest ih =>
    rw [List.foldlM_cons] at h
    obtain ⟨next, first, onward⟩ := bind_ok h
    exact (descend_ok first).trans (ih onward)

/-- Making directories changes no file. -/
theorem makeDirectory_ok (h : t.makeDirectory path = .ok t') : t.Spares [] t' := by
  obtain ⟨visit, down, same⟩ := bind_ok h
  rw [← Except.ok.inj same]
  exact foldlM_descend_ok down

theorem spares_changed {result : Except Trouble FileTree} {touched : List String}
    (after : ∀ t', result = .ok t' → t.Spares touched t') :
    t.Spares touched (t.changed result).2 := by
  cases result with
  | error trouble => exact .refl t touched
  | ok t' => exact after t' rfl

theorem ok_of_changed {result : Except Trouble FileTree} (h : t.changed result = (.ok (), t')) :
    result = .ok t' := by
  cases result with
  | error trouble => cases congrArg Prod.fst h
  | ok changed => exact congrArg Except.ok (congrArg Prod.snd h)

/-- A call changes no file but those it names. -/
theorem spares_carryOut (t : FileTree) (call : FileCall) :
    t.Spares (call.changes.map t.place) (t.carryOut call).2 := by
  cases call with
  | contains path => exact .refl t _
  | read path => exact .refl t _
  | makeDirectory path =>
    exact spares_changed fun t' made => makeDirectory_ok made
  | create path =>
    refine spares_changed fun t' created => ?_
    rw [overwrite_ok created]
    exact spares_put t List.mem_cons_self _
  | write path text =>
    refine spares_changed fun t' written => ?_
    obtain ⟨content, rfl⟩ := edit_ok written
    exact spares_put t List.mem_cons_self _
  | append path text =>
    refine spares_changed fun t' written => ?_
    obtain ⟨content, rfl⟩ := edit_ok written
    exact spares_put t List.mem_cons_self _
  | sync path => exact .refl t _
  | rename source target =>
    refine spares_changed fun t' renamed => ?_
    obtain ⟨content, -, rfl⟩ := rename_ok renamed
    have old : t.place source ∈ [t.place source, t.place target] := by simp
    have new : t.place target ∈ [t.place source, t.place target] := by simp
    exact (t.spares_without old).trans (spares_put _ new _)
  | delete path =>
    refine spares_changed fun t' deleted => ?_
    rw [delete_ok deleted]
    exact spares_without t List.mem_cons_self

/-- A file that was written holds the text. -/
theorem file?_write {text : String} (proper : t.place path ≠ "/")
    (written : (t.carryOut (.write path text)).1 = .ok ()) :
    (t.carryOut (.write path text)).2.file? (t.place path) = some (.text text) := by
  change (t.changed (t.edit path fun _ => .text text)).1 = .ok () at written
  change (t.changed (t.edit path fun _ => .text text)).2.file? _ = _
  cases edited : t.edit path fun _ => .text text with
  | error trouble =>
    rw [edited] at written
    cases written
  | ok t' =>
    obtain ⟨content, rfl⟩ := edit_ok edited
    exact file?_put t proper _

/-- What stands at the target after a renaming stood at the source or at the target. -/
theorem file?_rename {source target : String} {content : FileContent}
    (proper : t.place target ≠ "/")
    (stands : (t.carryOut (.rename source target)).2.file? (t.place target) = some content) :
    t.file? (t.place source) = some content ∨ t.file? (t.place target) = some content := by
  change (t.changed (t.rename source target)).2.file? _ = _ at stands
  cases renamed : t.rename source target with
  | error trouble =>
    rw [renamed] at stands
    exact .inr stands
  | ok t' =>
    obtain ⟨moved, stood, rfl⟩ := rename_ok renamed
    rw [renamed] at stands
    change ((t.without (t.place source)).put (t.place target) (.file moved)).file? _ = _ at stands
    rw [file?_put _ proper] at stands
    exact .inl (stands ▸ stood)

end FileTree

end HostRoster
