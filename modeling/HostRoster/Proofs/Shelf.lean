import HostRoster.Proofs.Locks
import HostRoster.Proofs.Turns
import HostRoster.Store
import Mathlib.Logic.Function.Basic

/-!
# Documents at hand

The two documents of a store as two texts that every call reads or changes at once. An
identifier is never given out twice, and the clock shows instants of the calendar only.
-/
namespace HostRoster

/-- The documents of a store, and the identifiers that have been given out. -/
structure Shelf where
  text : Document → Option String := fun _ => none
  given : List String := []

namespace Shelf

/-- The shelf with another text for a document. -/
def put (s : Shelf) (d : Document) (text : Option String) : Shelf :=
  { s with text := Function.update s.text d text }

@[simp] theorem text_put (s : Shelf) (d : Document) (text : Option String) :
    (s.put d text).text d = text := by
  simp [put]

@[simp] theorem text_put_of_ne (s : Shelf) {d other : Document} (apart : other ≠ d)
    (text : Option String) : (s.put d text).text other = s.text other := by
  simp [put, apart]

@[simp] theorem given_put (s : Shelf) (d : Document) (text : Option String) :
    (s.put d text).given = s.given := rfl

/-- An instant that a clock may show: the calendar has it, and also the time at which a lock
that is taken now expires. -/
def Shown (time : Instant) : Prop := time.Storable ∧ (time.addSeconds Lock.lifetime).Storable

instance (time : Instant) : Decidable (Shown time) := inferInstanceAs (Decidable (_ ∧ _))

/-- How the documents answer a call at a time, and what they are afterwards. -/
inductive Answers (time : Instant) : Shelf → Exchange Documents → Shelf → Prop
  | read (s : Shelf) (d : Document) : Answers time s ⟨.read d, Except.ok (s.text d)⟩ s
  | write (s : Shelf) (d : Document) (text : String) :
      Answers time s ⟨.write d text, Except.ok ()⟩ (s.put d (some text))
  | remove (s : Shelf) (d : Document) : Answers time s ⟨.remove d, Except.ok ()⟩ (s.put d none)
  | contains (s : Shelf) (d : Document) :
      Answers time s ⟨.contains d, Except.ok (s.text d).isSome⟩ s
  | now (s : Shelf) (shown : Shown time) : Answers time s ⟨.now, time⟩ s
  | freshId {s : Shelf} {id : String} (fresh : id ∉ s.given) :
      Answers time s ⟨.freshId, id⟩ { s with given := id :: s.given }
  | processName (s : Shelf) (name : String) : Answers time s ⟨.processName, name⟩ s

section Calls
variable {time : Instant} {s s' : Shelf} {d : Document}

@[simp] theorem answers_read {reply : Except StateError (Option String)} :
    Answers time s ⟨.read d, reply⟩ s' ↔ reply = .ok (s.text d) ∧ s' = s := by
  constructor
  · intro h
    cases h
    exact ⟨rfl, rfl⟩
  · rintro ⟨rfl, rfl⟩
    exact .read ..

@[simp] theorem answers_write {text : String} {reply : Except StateError Unit} :
    Answers time s ⟨.write d text, reply⟩ s' ↔ reply = .ok () ∧ s' = s.put d (some text) := by
  constructor
  · intro h
    cases h
    exact ⟨rfl, rfl⟩
  · rintro ⟨rfl, rfl⟩
    exact .write ..

@[simp] theorem answers_remove {reply : Except StateError Unit} :
    Answers time s ⟨.remove d, reply⟩ s' ↔ reply = .ok () ∧ s' = s.put d none := by
  constructor
  · intro h
    cases h
    exact ⟨rfl, rfl⟩
  · rintro ⟨rfl, rfl⟩
    exact .remove ..

@[simp] theorem answers_contains {reply : Except StateError Bool} :
    Answers time s ⟨.contains d, reply⟩ s' ↔ reply = .ok (s.text d).isSome ∧ s' = s := by
  constructor
  · intro h
    cases h
    exact ⟨rfl, rfl⟩
  · rintro ⟨rfl, rfl⟩
    exact .contains ..

@[simp] theorem answers_now {reply : Instant} :
    Answers time s ⟨.now, reply⟩ s' ↔ Shown time ∧ reply = time ∧ s' = s := by
  constructor
  · intro h
    cases h with
    | now shown => exact ⟨shown, rfl, rfl⟩
  · rintro ⟨shown, rfl, rfl⟩
    exact .now _ shown

@[simp] theorem answers_freshId {reply : String} : Answers time s ⟨.freshId, reply⟩ s' ↔
    reply ∉ s.given ∧ s' = { s with given := reply :: s.given } := by
  constructor
  · intro h
    cases h with
    | freshId fresh => exact ⟨fresh, rfl⟩
  · rintro ⟨fresh, rfl⟩
    exact .freshId fresh

@[simp] theorem answers_processName {reply : String} :
    Answers time s ⟨.processName, reply⟩ s' ↔ s' = s := by
  constructor
  · intro h
    cases h
    rfl
  · rintro rfl
    exact .processName ..

end Calls

/-- The stored lock is this one, if there is one. -/
structure Keeps (s : Shelf) (kept : Option Lock) : Prop where
  text : s.text .lock = kept.map Lock.document
  storable : ∀ l ∈ kept, l.acquiredAt.Storable ∧ l.expiresAt.Storable
  known : ∀ l ∈ kept, l.id ∈ s.given

/-- A stored lock is known by its document. -/
theorem Keeps.unique {s : Shelf} {kept other : Option Lock} (h : s.Keeps kept)
    (h' : s.Keeps other) : kept = other := by
  have same := h.text.symm.trans h'.text
  cases kept with
  | none =>
    cases other with
    | none => rfl
    | some l => cases same
  | some l =>
    cases other with
    | none => cases same
    | some l' =>
      have parsed := Lock.parse_document (h.storable l rfl).1 (h.storable l rfl).2
      have parsed' := Lock.parse_document (h'.storable l' rfl).1 (h'.storable l' rfl).2
      rw [Option.some.inj same, parsed'] at parsed
      exact congrArg some (Except.ok.inj parsed).symm

theorem Keeps.mono {s s' : Shelf} {kept : Option Lock} (h : s.Keeps kept)
    (same : s'.text .lock = s.text .lock) (given : s.given ⊆ s'.given) : s'.Keeps kept :=
  ⟨same.trans h.text, h.storable, fun l mem => given (h.known l mem)⟩

theorem keeps_none {s : Shelf} (empty : s.text .lock = none) : s.Keeps none :=
  ⟨empty, fun _ mem => absurd mem (Option.not_mem_none _),
    fun _ mem => absurd mem (Option.not_mem_none _)⟩

end Shelf

end HostRoster
