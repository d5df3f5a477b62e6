import HostRoster.Proofs.Dealing
import Mathlib.Algebra.BigOperators.Finprod
import Mathlib.Data.List.ReduceOption
import Mathlib.Logic.Function.Basic
import Mathlib.Tactic.Abel

/-!
# One stack for each class

Buckets are kept as an ordered map, in which a class stays when its stack runs empty. Whatever
calls are made, they answer as one stack for each class does, where a take goes to the stack
that leaves the subnet open when its own is empty. No key is lost, made up or given out twice
on the way.
-/
namespace HostRoster

/-- A call that changes buckets. -/
inductive BucketCall where
  | push (c : HostClass) (key : String)
  | take (c : HostClass)
deriving DecidableEq, Repr

namespace BucketCall

/-- The key that a call puts in. -/
def pushed? : BucketCall → Option String
  | push _ key => some key
  | take _ => none

/-- The keys that calls put in. -/
def pushed (calls : List BucketCall) : List String := (calls.map pushed?).reduceOption

/-- What calls give, one after the other, and the state behind them. -/
def run {σ : Type} (act : σ → BucketCall → Option String × σ) (s : σ) :
    List BucketCall → List (Option String) × σ
  | [] => ([], s)
  | call :: rest =>
    let first := act s call
    let others := run act first.2 rest
    (first.1 :: others.1, others.2)

/-- A view that every call respects is respected by all of them together. -/
theorem run_view {σ τ : Type} {act : σ → BucketCall → Option String × σ}
    {act' : τ → BucketCall → Option String × τ} {view : σ → τ}
    (each : ∀ s call, act' (view s) call = ((act s call).1, view (act s call).2))
    (calls : List BucketCall) (s : σ) :
    run act' (view s) calls = ((run act s calls).1, view (run act s calls).2) := by
  induction calls generalizing s with
  | nil => rfl
  | cons call rest ih => simp only [run, each, ih]

end BucketCall

/-- One stack of keys for each class, the latest first. -/
abbrev Stacks := HostClass → List String

namespace Stacks

/-- Takes from the stack of the class if that has a key, or else, for a class with a subnet, from
the stack of the same class without one. -/
def take (s : Stacks) (c : HostClass) : Option String × Stacks :=
  match s c, c.subnetId with
  | key :: rest, _ => (some key, Function.update s c rest)
  | [], none => (none, s)
  | [], some _ =>
    match s c.withoutSubnet with
    | key :: rest => (some key, Function.update s c.withoutSubnet rest)
    | [] => (none, s)

/-- The key that a call gives, if any, and the stacks behind it. -/
def carryOut (s : Stacks) : BucketCall → Option String × Stacks
  | .push c key => (none, Function.update s c (key :: s c))
  | .take c => s.take c

end Stacks

namespace Buckets

/-- The key that a call gives, if any, and the buckets behind it. A take that finds no key leaves
the buckets as they are. -/
def carryOut (b : Buckets) : BucketCall → Option String × Buckets
  | .push c key => (none, b.push c key)
  | .take c => (b.take c).elim (none, b) fun taken => (some taken.1, taken.2)

theorem stack_insert (b : Buckets) (c : HostClass) (keys : List String) :
    (mk (b.byClass.insert c keys)).stack = Function.update b.stack c keys := by
  funext other
  by_cases same : other = c
  · simp [same, stack, KeyMap.get?_insert]
  · simp [same, stack, KeyMap.get?_insert_of_ne same]

theorem stack_push (b : Buckets) (c : HostClass) (key : String) :
    (b.push c key).stack = Function.update b.stack c (key :: b.stack c) :=
  b.stack_insert c _

theorem pop_of_nil {b : Buckets} {c : HostClass} (empty : b.stack c = []) : b.pop c = none := by
  simp [pop, empty]

theorem pop_of_cons {b : Buckets} {c : HostClass} {key : String} {rest : List String}
    (stacked : b.stack c = key :: rest) :
    b.pop c = some (key, ⟨b.byClass.insert c rest⟩) := by
  simp [pop, stacked]

/-- A take does what it does to one stack for each class. -/
theorem take_stack (b : Buckets) (c : HostClass) :
    (b.carryOut (.take c)).1 = (Stacks.take b.stack c).1 ∧
      (b.carryOut (.take c)).2.stack = (Stacks.take b.stack c).2 := by
  cases own : b.stack c with
  | cons key rest => simp [carryOut, take, Stacks.take, own, pop_of_cons own, stack_insert]
  | nil =>
    cases subnet : c.subnetId with
    | none => simp [carryOut, take, Stacks.take, own, subnet, pop_of_nil own]
    | some subnet' =>
      cases open_ : b.stack c.withoutSubnet with
      | nil => simp [carryOut, take, Stacks.take, own, subnet, open_, pop_of_nil own, pop_of_nil open_]
      | cons key rest =>
        simp [carryOut, take, Stacks.take, own, subnet, open_, pop_of_nil own, pop_of_cons open_,
          stack_insert]

theorem carryOut_stack (b : Buckets) (call : BucketCall) :
    Stacks.carryOut b.stack call = ((b.carryOut call).1, (b.carryOut call).2.stack) := by
  cases call with
  | push c key => simp [Stacks.carryOut, carryOut, stack_push]
  | take c =>
    obtain ⟨answer, left⟩ := b.take_stack c
    rw [answer, left]
    rfl

/-- The waiting keys of all classes. -/
def keys (b : Buckets) : Multiset String := b.slots.map Prod.snd

/-- A call moves at most one key: into the buckets, or out of them. -/
theorem keys_carryOut (b : Buckets) (call : BucketCall) :
    (call.pushed?.toList : Multiset String) + b.keys =
      ↑(b.carryOut call).1.toList + (b.carryOut call).2.keys := by
  cases call with
  | push c key => simp [BucketCall.pushed?, carryOut, keys]
  | take c =>
    cases taken : b.take c with
    | none => simp [BucketCall.pushed?, carryOut, taken]
    | some found => simp [BucketCall.pushed?, carryOut, taken, keys, slots_take_source taken]

/-- By induction on the calls. -/
theorem keys_run (b : Buckets) (calls : List BucketCall) :
    (BucketCall.pushed calls : Multiset String) + b.keys =
      ↑(BucketCall.run carryOut b calls).1.reduceOption +
        (BucketCall.run carryOut b calls).2.keys := by
  have split (first : Option String) (others : List (Option String)) :
      ((first :: others).reduceOption : Multiset String) = ↑first.toList + ↑others.reduceOption := by
    cases first <;> simp [List.reduceOption]
  induction calls generalizing b with
  | nil => simp [BucketCall.run, BucketCall.pushed]
  | cons call rest ih =>
    have step := b.keys_carryOut call
    have onward := ih (b.carryOut call).2
    have pushed : (BucketCall.pushed (call :: rest) : Multiset String) =
        ↑call.pushed?.toList + ↑(BucketCall.pushed rest) := split ..
    rw [pushed, BucketCall.run, split]
    calc (call.pushed?.toList : Multiset String) + ↑(BucketCall.pushed rest) + b.keys
        = ↑(BucketCall.pushed rest) + (↑call.pushed?.toList + b.keys) := by abel
      _ = ↑(b.carryOut call).1.toList + (↑(BucketCall.pushed rest) + (b.carryOut call).2.keys) := by
          rw [step]
          abel
      _ = _ := by rw [onward, add_assoc]

theorem keys_eq_sum (b : Buckets) :
    b.keys = (b.byClass.entries.map fun e => (e.2 : Multiset String)).sum := by
  rw [keys, slots]
  induction b.byClass.entries with
  | nil => rfl
  | cons e rest ih =>
    rw [List.flatMap_cons, ← Multiset.coe_add, Multiset.map_add, ih, List.map_cons, List.sum_cons]
    simp [Function.comp_def]

/-- A class that has not been seen shows no key. -/
theorem mem_keys_of_waiting {b : Buckets} {c : HostClass} (some_ : b.waiting c ≠ []) :
    c ∈ b.byClass.keys := by
  by_contra unseen
  simp [waiting, stack, KeyMap.get?_eq_none.2 unseen] at some_

/-- The keys of all classes are those that the classes show, taken together. -/
theorem keys_eq_finsum (b : Buckets) : b.keys = ∑ᶠ c, (b.waiting c : Multiset String) := by
  have seen : Function.support (fun c => (b.waiting c : Multiset String)) ⊆ b.byClass.keys.toFinset := by
    intro c some_
    simpa using mem_keys_of_waiting fun none => some_ (by simp [none])
  have shown : ∀ e ∈ b.byClass.entries, (b.waiting e.1 : Multiset String) = ↑e.2 := by
    intro e mem
    have found : b.byClass.get? e.1 = some e.2 := KeyMap.get?_eq_some.2 mem
    simp [waiting, stack, found]
  calc b.keys
      = (b.byClass.entries.map fun e => (b.waiting e.1 : Multiset String)).sum := by
        rw [keys_eq_sum, List.map_congr_left shown]
    _ = (b.byClass.keys.map fun c => (b.waiting c : Multiset String)).sum := by
        rw [KeyMap.keys, List.map_map]
        rfl
    _ = ∑ᶠ c, (b.waiting c : Multiset String) := by
        rw [finsum_eq_sum_of_support_subset _ seen, List.sum_toFinset _ b.byClass.nodup_keys]

/-- What calls on empty buckets come to. -/
structure Stacked (calls : List BucketCall) (answers : List (Option String)) (b : Buckets) : Prop where
  /-- The answers and what is left are those of one stack for each class. -/
  refines : BucketCall.run Stacks.carryOut (fun _ => []) calls = (answers, b.stack)
  /-- A class shows its stack, the latest key last. -/
  shown : ∀ c, b.waiting c = (b.stack c).reverse
  /-- Every key that was put in and not taken counts. -/
  size : b.size + answers.reduceOption.length = (BucketCall.pushed calls).length
  isEmpty_iff : b.isEmpty = true ↔ b.size = 0
  finite : {c | b.waiting c ≠ []}.Finite
  /-- The keys that were put in are those that were taken and those that the classes still show. -/
  keys : (BucketCall.pushed calls : Multiset String) =
    ↑answers.reduceOption + ∑ᶠ c, (b.waiting c : Multiset String)

/-- Whatever calls are made on empty buckets, they do what they do to one stack for each class, and
every key that was put in is either taken once or still waiting. -/
theorem run_refines_stacks (calls : List BucketCall) :
    Stacked calls (BucketCall.run carryOut empty calls).1
      (BucketCall.run carryOut empty calls).2 where
  refines := BucketCall.run_view carryOut_stack calls empty
  shown _ := rfl
  size := by
    have card := congrArg Multiset.card (empty.keys_run calls)
    simp only [Buckets.keys, slots_empty, Multiset.map_zero, add_zero, Multiset.coe_card,
      Multiset.card_add, Multiset.card_map] at card
    rw [size_eq_card]
    omega
  isEmpty_iff := by rw [Buckets.isEmpty_iff, size_eq_card, Multiset.card_eq_zero]
  finite := (List.finite_toSet _).subset fun _ some_ => mem_keys_of_waiting some_
  keys := by
    have accounts := empty.keys_run calls
    rw [Buckets.keys, slots_empty, Multiset.map_zero, add_zero] at accounts
    rw [accounts, keys_eq_finsum]

end Buckets

end HostRoster
