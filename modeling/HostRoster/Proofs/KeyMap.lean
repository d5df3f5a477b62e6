import HostRoster.KeyMap
import Mathlib.Data.List.Perm.Basic
import Mathlib.Data.List.Nodup

/-!
# Laws of ordered maps

A map is determined by its entries up to order, and looking up a key is the same
as finding its entry. Everything below is derived from the ascending order of the
keys, so that no later module opens `place`.
-/
namespace HostRoster.KeyMap

section Lists
variable {κ α β : Type} [Ord κ]

@[simp] theorem entries_empty : (∅ : KeyMap κ α).entries = [] := rfl

@[simp] theorem keys_empty : (∅ : KeyMap κ α).keys = [] := rfl

@[simp] theorem entries_map (m : KeyMap κ α) (f : κ → α → β) :
    (m.map f).entries = m.entries.map fun e => (e.1, f e.1 e.2) := rfl

@[simp] theorem keys_map (m : KeyMap κ α) (f : κ → α → β) : (m.map f).keys = m.keys := by
  simp [keys]

@[simp] theorem length_keys (m : KeyMap κ α) : m.keys.length = m.size := by simp [keys, size]

@[simp] theorem length_values (m : KeyMap κ α) : m.values.length = m.size := by
  simp [values, size]

theorem ascending_keys (m : KeyMap κ α) : m.keys.Pairwise fun a b => compare a b = .lt :=
  List.pairwise_map.2 m.ascending

theorem mem_keys {m : KeyMap κ α} {k : κ} : k ∈ m.keys ↔ ∃ v, (k, v) ∈ m.entries := by
  simp [keys]

theorem mem_keys_of_mem {m : KeyMap κ α} {e : κ × α} (h : e ∈ m.entries) : e.1 ∈ m.keys :=
  List.mem_map_of_mem h

theorem mem_values_of_mem {m : KeyMap κ α} {e : κ × α} (h : e ∈ m.entries) :
    e.2 ∈ m.values :=
  List.mem_map_of_mem h

theorem isEmpty_iff {m : KeyMap κ α} : m.isEmpty = true ↔ m = ∅ := by
  simp [isEmpty, KeyMap.ext_iff]

/-- Two maps with the same keys, entry by entry. -/
theorem forall₂_entries {m : KeyMap κ α} {n : KeyMap κ β} {rel : κ × α → κ × β → Prop}
    (keys : m.keys = n.keys)
    (each : ∀ k v w, (k, v) ∈ m.entries → (k, w) ∈ n.entries → rel (k, v) (k, w)) :
    List.Forall₂ rel m.entries n.entries := by
  have shared : List.Forall₂ (fun a b => a.1 = b.1) m.entries n.entries := by
    have same : List.Forall₂ Eq (m.entries.map Prod.fst) (n.entries.map Prod.fst) := by
      rw [List.forall₂_eq_eq_eq]
      exact keys
    exact List.forall₂_map_right_iff.1 (List.forall₂_map_left_iff.1 same)
  refine List.forall₂_iff_zip.2 ⟨shared.length_eq, fun {a b} mem => ?_⟩
  obtain ⟨left, right⟩ := List.of_mem_zip mem
  obtain ⟨k, v⟩ := a
  obtain ⟨l, w⟩ := b
  obtain rfl : k = l := List.forall₂_zip shared mem
  exact each k v w left right

end Lists

section Membership
variable {κ α : Type} [Ord κ] [Std.LawfulEqOrd κ]

theorem contains_iff {m : KeyMap κ α} {k : κ} : m.contains k = true ↔ k ∈ m.keys := by
  simp only [contains, List.any_eq_true, beq_iff_eq, Std.compare_eq_iff_eq, keys, List.mem_map]
  exact exists_congr fun e => and_congr_right' eq_comm

theorem erase_of_not_mem {m : KeyMap κ α} {k : κ} (h : k ∉ m.keys) : m.erase k = m := by
  refine KeyMap.ext (List.filter_eq_self.2 fun e he => ?_)
  have apart : k ≠ e.1 := fun same => h (same ▸ mem_keys_of_mem he)
  simpa using apart

theorem mem_erase {m : KeyMap κ α} {k : κ} {e : κ × α} :
    e ∈ (m.erase k).entries ↔ e ∈ m.entries ∧ e.1 ≠ k := by
  simp only [erase, List.mem_filter, bne_iff_ne, ne_eq, Std.compare_eq_iff_eq]
  exact and_congr_right' (not_congr eq_comm)

end Membership

section Lookup
variable {κ α β : Type} [Ord κ] [Std.TransOrd κ]

theorem nodup_keys (m : KeyMap κ α) : m.keys.Nodup := by
  refine List.pairwise_map.2 (m.ascending.imp fun {a b} below same => ?_)
  have order : compare b.1 b.1 = .lt := same ▸ below
  simp [Std.ReflCmp.compare_self] at order

/-- What holds of the entries of any two keys holds of any two entries. -/
theorem pairwise_entries {m : KeyMap κ α} {rel : κ × α → κ × α → Prop}
    (h : ∀ a ∈ m.entries, ∀ b ∈ m.entries, a.1 ≠ b.1 → rel a b) : m.entries.Pairwise rel :=
  (List.pairwise_map.1 m.nodup_keys).imp_of_mem fun ha hb apart => h _ ha _ hb apart

/-- Two maps with the same entries in some order are equal. -/
theorem ext_perm {m n : KeyMap κ α} (h : m.entries.Perm n.entries) : m = n := by
  refine ext (h.eq_of_pairwise (fun a b _ _ ab ba => ?_) m.ascending n.ascending)
  have order : compare a.1 a.1 = .lt := Std.TransCmp.lt_trans ab ba
  simp [Std.ReflCmp.compare_self] at order

/-- Two maps with the same entries are equal. -/
theorem ext_mem {m n : KeyMap κ α} (h : ∀ e, e ∈ m.entries ↔ e ∈ n.entries) : m = n :=
  ext_perm ((List.perm_ext_iff_of_nodup (m.nodup_keys.of_map _) (n.nodup_keys.of_map _)).2 h)

/-- Two maps with the same keys in some order have them in the same order. -/
theorem keys_eq_of_perm {m : KeyMap κ α} {n : KeyMap κ β} (h : m.keys.Perm n.keys) :
    m.keys = n.keys := by
  refine h.eq_of_pairwise (fun a b _ _ ab ba => ?_) m.ascending_keys n.ascending_keys
  have order : compare a a = .lt := Std.TransCmp.lt_trans ab ba
  simp [Std.ReflCmp.compare_self] at order

theorem eq_of_mem {m : KeyMap κ α} {k : κ} {v w : α} (hv : (k, v) ∈ m.entries)
    (hw : (k, w) ∈ m.entries) : v = w := by
  have h := List.inj_on_of_nodup_map m.nodup_keys hv hw rfl
  exact congrArg Prod.snd h

variable [Std.LawfulEqOrd κ]

theorem get?_eq_some {m : KeyMap κ α} {k : κ} {v : α} :
    m.get? k = some v ↔ (k, v) ∈ m.entries := by
  simp only [get?, Option.map_eq_some_iff]
  constructor
  · rintro ⟨e, found, rfl⟩
    have same : k = e.1 := by simpa using List.find?_some found
    subst same
    exact List.mem_of_find?_eq_some found
  · intro h
    obtain ⟨e, found⟩ : ∃ e, m.entries.find? (fun e => compare k e.1 == .eq) = some e :=
      Option.isSome_iff_exists.1 (List.find?_isSome.2 ⟨(k, v), h, by simp⟩)
    have same : k = e.1 := by simpa using List.find?_some found
    subst same
    exact ⟨e, found, eq_of_mem (List.mem_of_find?_eq_some found) h⟩

theorem get?_eq_none {m : KeyMap κ α} {k : κ} : m.get? k = none ↔ k ∉ m.keys := by
  simp only [mem_keys, ← get?_eq_some, not_exists]
  exact Option.eq_none_iff_forall_not_mem

theorem get?_map (m : KeyMap κ α) (f : κ → α → β) (k : κ) :
    (m.map f).get? k = (m.get? k).map (f k) := by
  refine Option.ext fun w => ?_
  simp only [get?_eq_some, entries_map, List.mem_map, Prod.mk.injEq, Option.map_eq_some_iff]
  constructor
  · rintro ⟨e, he, rfl, rfl⟩
    exact ⟨e.2, he, rfl⟩
  · rintro ⟨v, hv, rfl⟩
    exact ⟨(k, v), hv, rfl, rfl⟩

theorem get?_filter (m : KeyMap κ α) (p : κ → α → Bool) (k : κ) :
    (m.filter p).get? k = (m.get? k).filter (p k) := by
  refine Option.ext fun v => ?_
  rw [get?_eq_some, Option.filter_eq_some_iff, get?_eq_some]
  exact List.mem_filter

theorem get?_erase_of_ne {m : KeyMap κ α} {k l : κ} (other : k ≠ l) :
    (m.erase l).get? k = m.get? k := by
  refine Option.ext fun v => ?_
  rw [get?_eq_some, get?_eq_some, mem_erase]
  exact and_iff_left other

theorem get?_erase (m : KeyMap κ α) (k : κ) : (m.erase k).get? k = none := by
  refine get?_eq_none.2 fun kept => ?_
  obtain ⟨v, mem⟩ := mem_keys.1 kept
  exact (mem_erase.1 mem).2 rfl

theorem mem_insert {m : KeyMap κ α} {k : κ} {v : α} {e : κ × α} :
    e ∈ (m.insert k v).entries ↔ e = (k, v) ∨ e ∈ m.entries ∧ e.1 ≠ k := by
  obtain ⟨entries, ascending⟩ := m
  simp only [insert]
  induction entries with
  | nil => simp [place]
  | cons f rest ih =>
    obtain ⟨first, tail⟩ := List.pairwise_cons.1 ascending
    rw [place]
    split
    next below =>
      have apart : ∀ g ∈ f :: rest, g.1 ≠ k := by
        intro g hg same
        have order : compare k g.1 = .lt := by
          rcases List.mem_cons.1 hg with rfl | hg
          · exact below
          · exact Std.TransCmp.lt_trans below (first g hg)
        simp [same] at order
      grind
    next same =>
      have same : k = f.1 := by simpa using same
      have apart : ∀ g ∈ rest, g.1 ≠ k := by
        intro g hg eq
        have order := first g hg
        simp [eq, same] at order
      grind
    next above =>
      have apart : f.1 ≠ k := by
        intro eq
        simp [eq] at above
      simp only [List.mem_cons, ih tail]
      grind

theorem get?_insert (m : KeyMap κ α) (k : κ) (v : α) : (m.insert k v).get? k = some v :=
  get?_eq_some.2 (mem_insert.2 (.inl rfl))

theorem get?_insert_of_ne {m : KeyMap κ α} {k l : κ} (other : k ≠ l) (v : α) :
    (m.insert l v).get? k = m.get? k := by
  refine Option.ext fun w => ?_
  simp only [get?_eq_some, mem_insert, Prod.mk.injEq, other, false_and, false_or, ne_eq,
    not_false_eq_true, and_true]

theorem mem_keys_insert {m : KeyMap κ α} {k l : κ} {v : α} :
    l ∈ (m.insert k v).keys ↔ l = k ∨ l ∈ m.keys := by
  simp only [mem_keys, mem_insert, Prod.mk.injEq]
  by_cases same : l = k <;> simp [same]

theorem perm_insert {m : KeyMap κ α} {k : κ} (h : k ∉ m.keys) (v : α) :
    (m.insert k v).entries.Perm ((k, v) :: m.entries) := by
  have fresh : (k, v) ∉ m.entries := fun he => h (mem_keys_of_mem he)
  refine (List.perm_ext_iff_of_nodup ((nodup_keys _).of_map _)
    (List.nodup_cons.2 ⟨fresh, m.nodup_keys.of_map _⟩)).2 fun e => ?_
  rw [mem_insert, List.mem_cons]
  have apart : e ∈ m.entries → e.1 ≠ k := fun he same => h (same ▸ mem_keys_of_mem he)
  tauto

/-- An insertion is an erasure followed by the insertion of a new key. -/
theorem perm_insert_erase (m : KeyMap κ α) (k : κ) (v : α) :
    (m.insert k v).entries.Perm ((k, v) :: (m.erase k).entries) := by
  have gone : k ∉ (m.erase k).keys := get?_eq_none.1 (get?_erase m k)
  have same : m.insert k v = (m.erase k).insert k v := by
    refine ext_mem fun e => ?_
    simp only [mem_insert, mem_erase]
    tauto
  exact same ▸ perm_insert gone v

/-- Without the key of one entry the others are left as they stand. -/
theorem entries_erase_of_eq_append {m : KeyMap κ α} {before after : List (κ × α)} {e : κ × α}
    (split : m.entries = before ++ e :: after) : (m.erase e.1).entries = before ++ after := by
  have once := m.nodup_keys
  rw [keys, split, List.map_append, List.map_cons, List.nodup_append, List.nodup_cons] at once
  obtain ⟨-, ⟨apart, -⟩, others⟩ := once
  have left : ∀ x ∈ before ++ after, (compare e.1 x.1 != .eq) = true := by
    intro x hx
    have differ : e.1 ≠ x.1 := by
      intro same
      rcases List.mem_append.1 hx with hx | hx
      · exact others _ (List.mem_map_of_mem hx) _ (.head _) same.symm
      · exact apart (same ▸ List.mem_map_of_mem hx)
    simpa using differ
  show m.entries.filter _ = _
  rw [split, List.filter_append, List.filter_cons_of_neg (by simp), ← List.filter_append]
  exact List.filter_eq_self.2 left

/-- An entry that is there is put in its own place. -/
theorem insert_of_mem {m : KeyMap κ α} {k : κ} {v : α} (h : (k, v) ∈ m.entries) :
    m.insert k v = m := by
  refine ext_mem fun e => ?_
  rw [mem_insert]
  constructor
  · rintro (rfl | ⟨he, -⟩)
    · exact h
    · exact he
  · intro he
    by_cases eq : e.1 = k
    · exact .inl (Prod.ext eq (eq_of_mem he (eq ▸ h)))
    · exact .inr ⟨he, eq⟩

/-- Of two values under one key only the later is kept. -/
theorem insert_insert (m : KeyMap κ α) (k : κ) (v w : α) :
    (m.insert k v).insert k w = m.insert k w := by
  refine ext_mem fun e => ?_
  simp only [mem_insert]
  refine or_congr_right ⟨?_, fun old => ⟨.inr old, old.2⟩⟩
  rintro ⟨rfl | old, apart⟩
  · exact absurd rfl apart
  · exact old

theorem perm_erase {m : KeyMap κ α} {k : κ} {v : α} (h : (k, v) ∈ m.entries) :
    m.entries.Perm ((k, v) :: (m.erase k).entries) := by
  simpa [insert_of_mem h] using perm_insert_erase m k v

end Lookup

section Collect
variable {κ α : Type} [Ord κ] [Std.TransOrd κ] [Std.LawfulEqOrd κ]

/-- Entries put in one after the other, the later of one key over the earlier. -/
abbrev insertAll (m : KeyMap κ α) (entries : List (κ × α)) : KeyMap κ α :=
  entries.foldl (fun m e => m.insert e.1 e.2) m

theorem mem_of_mem_insertAll {l : List (κ × α)} {m : KeyMap κ α} {e : κ × α}
    (h : e ∈ (m.insertAll l).entries) : e ∈ l ∨ e ∈ m.entries := by
  induction l generalizing m with
  | nil => exact .inr h
  | cons f rest ih =>
    rcases ih h with h | h
    · exact .inl (.tail _ h)
    · rcases mem_insert.1 h with rfl | ⟨h, -⟩
      · exact .inl (.head _)
      · exact .inr h

theorem mem_keys_insertAll {l : List (κ × α)} {m : KeyMap κ α} {k : κ} :
    k ∈ (m.insertAll l).keys ↔ k ∈ l.map (·.1) ∨ k ∈ m.keys := by
  induction l generalizing m with
  | nil => simp
  | cons f rest ih =>
    simp only [List.foldl_cons, ih, mem_keys_insert, List.map_cons, List.mem_cons]
    tauto

theorem get?_insertAll_of_not_mem {l : List (κ × α)} {m : KeyMap κ α} {k : κ}
    (other : k ∉ l.map (·.1)) : (m.insertAll l).get? k = m.get? k := by
  induction l generalizing m with
  | nil => rfl
  | cons f rest ih =>
    rw [List.map_cons, List.mem_cons, not_or] at other
    exact (ih other.2).trans (get?_insert_of_ne other.1 f.2)

/-- Of keys that are put in once each, every one has the value it was put in with. -/
theorem get?_insertAll_of_mem {l : List (κ × α)} {m : KeyMap κ α} {e : κ × α}
    (once : (l.map (·.1)).Nodup) (mem : e ∈ l) : (m.insertAll l).get? e.1 = some e.2 := by
  induction l generalizing m with
  | nil => simp at mem
  | cons f rest ih =>
    obtain ⟨new, once⟩ := List.nodup_cons.1 once
    rcases List.mem_cons.1 mem with rfl | mem
    · exact (get?_insertAll_of_not_mem new).trans (get?_insert ..)
    · exact ih once mem

/-- Of two maps put together the second counts where both have a key. -/
theorem get?_insertAll_entries (m n : KeyMap κ α) (k : κ) :
    (m.insertAll n.entries).get? k = (n.get? k).or (m.get? k) := by
  cases found : n.get? k with
  | none => exact get?_insertAll_of_not_mem (get?_eq_none.1 found)
  | some v => exact get?_insertAll_of_mem n.nodup_keys (get?_eq_some.1 found)

/-- New keys, each once, add their entries and change no other. -/
theorem perm_insertAll {l : List (κ × α)} {m : KeyMap κ α}
    (h : (l.map (·.1) ++ m.keys).Nodup) : (m.insertAll l).entries.Perm (l ++ m.entries) := by
  induction l generalizing m with
  | nil => exact .refl _
  | cons f rest ih =>
    rw [List.map_cons, List.cons_append, List.nodup_cons, List.mem_append, not_or] at h
    obtain ⟨⟨new, apart⟩, nodup⟩ := h
    have placed := perm_insert apart f.2
    have keys : (m.insert f.1 f.2).keys.Perm (f.1 :: m.keys) := placed.map Prod.fst
    refine (ih ?_).trans ((placed.append_left rest).trans List.perm_middle)
    rw [(keys.append_left _).nodup_iff, List.perm_middle.nodup_iff, List.nodup_cons,
      List.mem_append, not_or]
    exact ⟨⟨new, apart⟩, nodup⟩

theorem perm_ofList {l : List (κ × α)} (h : (l.map (·.1)).Nodup) :
    (ofList l).entries.Perm l := by
  simpa [ofList, insertAll] using perm_insertAll (m := ∅) (l := l) (by simpa using h)

theorem ofList_entries (m : KeyMap κ α) : ofList m.entries = m :=
  ext_perm (perm_ofList m.nodup_keys)

theorem mem_keys_ofList {l : List (κ × α)} {k : κ} :
    k ∈ (ofList l).keys ↔ k ∈ l.map (·.1) := by
  simpa [ofList, insertAll] using mem_keys_insertAll (m := ∅) (l := l) (k := k)

theorem mem_of_mem_ofList {l : List (κ × α)} {e : κ × α} (h : e ∈ (ofList l).entries) :
    e ∈ l := by
  simpa using mem_of_mem_insertAll (m := ∅) h

end Collect

end HostRoster.KeyMap
