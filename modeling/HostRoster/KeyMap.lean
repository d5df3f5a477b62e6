/-!
# Ordered maps

A map is kept as its entries in strictly ascending key order, so two maps with
the same entries are the same value and a walk over a map needs no sorting.
Strings compare by code point, which is also the order of their UTF-8 bytes.
-/
namespace HostRoster

/-- A finite map whose entries are stored once each, in ascending key order. -/
structure KeyMap (κ α : Type) [Ord κ] where
  entries : List (κ × α)
  ascending : entries.Pairwise fun a b => compare a.1 b.1 = .lt

namespace KeyMap

variable {κ α β : Type} [Ord κ]

@[ext] theorem ext {m n : KeyMap κ α} (h : m.entries = n.entries) : m = n := by
  cases m; cases n; cases h; rfl

instance [DecidableEq κ] [DecidableEq α] : DecidableEq (KeyMap κ α) := fun m n =>
  decidable_of_iff (m.entries = n.entries) ⟨ext, fun h => h ▸ rfl⟩

def empty : KeyMap κ α := ⟨[], .nil⟩

instance : EmptyCollection (KeyMap κ α) := ⟨empty⟩
instance : Inhabited (KeyMap κ α) := ⟨empty⟩

def keys (m : KeyMap κ α) : List κ := m.entries.map (·.1)

def values (m : KeyMap κ α) : List α := m.entries.map (·.2)

def size (m : KeyMap κ α) : Nat := m.entries.length

def isEmpty (m : KeyMap κ α) : Bool := m.entries.isEmpty

def get? (m : KeyMap κ α) (k : κ) : Option α :=
  (m.entries.find? fun e => compare k e.1 == .eq).map (·.2)

def contains (m : KeyMap κ α) (k : κ) : Bool :=
  m.entries.any fun e => compare k e.1 == .eq

def erase (m : KeyMap κ α) (k : κ) : KeyMap κ α :=
  ⟨m.entries.filter fun e => compare k e.1 != .eq, m.ascending.filter _⟩

/-- Applies a function to every value; the keys stay as they are. -/
def map (f : κ → α → β) (m : KeyMap κ α) : KeyMap κ β :=
  ⟨m.entries.map fun e => (e.1, f e.1 e.2),
    List.pairwise_map.2 m.ascending⟩

def filter (p : κ → α → Bool) (m : KeyMap κ α) : KeyMap κ α :=
  ⟨m.entries.filter fun e => p e.1 e.2, m.ascending.filter _⟩

/-- Puts an entry at its place among ascending entries, replacing one of the same key. -/
def place (k : κ) (v : α) : List (κ × α) → List (κ × α)
  | [] => [(k, v)]
  | (l, w) :: rest =>
    match compare k l with
    | .lt => (k, v) :: (l, w) :: rest
    | .eq => (k, v) :: rest
    | .gt => (l, w) :: place k v rest

theorem mem_place {k : κ} {v : α} {e : κ × α} {l : List (κ × α)} (h : e ∈ place k v l) :
    e = (k, v) ∨ e ∈ l := by
  induction l with
  | nil => simpa [place] using h
  | cons f rest ih =>
    obtain ⟨l, w⟩ := f
    rw [place] at h
    split at h
    · simpa using h
    · rcases List.mem_cons.1 h with rfl | h
      · exact .inl rfl
      · exact .inr (.tail _ h)
    · rcases List.mem_cons.1 h with rfl | h
      · exact .inr (.head _)
      · exact (ih h).imp id (.tail _)

variable [Std.TransOrd κ]

theorem ascending_place (k : κ) (v : α) {l : List (κ × α)}
    (h : l.Pairwise fun a b => compare a.1 b.1 = .lt) :
    (place k v l).Pairwise fun a b => compare a.1 b.1 = .lt := by
  induction l with
  | nil => exact List.pairwise_singleton ..
  | cons f rest ih =>
    obtain ⟨l, w⟩ := f
    obtain ⟨first, rest_ascending⟩ := List.pairwise_cons.1 h
    rw [place]
    split
    next below =>
      refine List.pairwise_cons.2 ⟨fun e he => ?_, h⟩
      rcases List.mem_cons.1 he with rfl | he
      · exact below
      · exact Std.TransCmp.lt_trans below (first e he)
    next same =>
      exact List.pairwise_cons.2
        ⟨fun e he => Std.TransCmp.lt_of_eq_of_lt same (first e he), rest_ascending⟩
    next above =>
      refine List.pairwise_cons.2 ⟨fun e he => ?_, ih rest_ascending⟩
      rcases mem_place he with rfl | he
      · exact Std.OrientedCmp.lt_of_gt above
      · exact first e he

/-- The map with a value stored under a key, in place of any earlier one. -/
def insert (m : KeyMap κ α) (k : κ) (v : α) : KeyMap κ α :=
  ⟨place k v m.entries, ascending_place k v m.ascending⟩

/-- The map of a list of entries; of two with one key the later wins. -/
def ofList (entries : List (κ × α)) : KeyMap κ α :=
  entries.foldl (fun m e => m.insert e.1 e.2) ∅

/-- The values that a partial function has on the entries. -/
def filterMap (f : κ → α → Option β) (m : KeyMap κ α) : KeyMap κ β :=
  ⟨m.entries.filterMap fun e => (f e.1 e.2).map (e.1, ·), by
    refine List.Pairwise.filterMap _ ?_ m.ascending
    intro a b h c hc d hd
    simp only [Option.map_eq_some_iff] at hc hd
    obtain ⟨_, _, rfl⟩ := hc
    obtain ⟨_, _, rfl⟩ := hd
    exact h⟩

end KeyMap

end HostRoster
