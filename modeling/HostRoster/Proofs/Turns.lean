import HostRoster.Proofs.Exchange
import HostRoster.Proofs.Instants
import Mathlib.Data.List.Induction

/-!
# Clients that take turns

Several clients, each with a program of its own, ask one shared side. Every request is
answered at once and at some time, so what the clients do together is a list of turns on
a clock that never goes back. A client that stops in the middle, or has to wait, is one
whose further turns are missing, so that statements about all lists of turns are also
statements about every point at which a client may crash.
-/
namespace HostRoster

/-- An exchange of one of several clients, and when it took place. -/
structure Turn (ι : Type) (I : Interface) where
  client : ι
  time : Instant
  exchange : Exchange I

variable {ι η : Type} {I : Interface} {α : ι → Type}

/-- The exchanges of one client, in order. -/
def Turn.own [DecidableEq ι] (i : ι) (turns : List (Turn ι I)) : List (Exchange I) :=
  (turns.filter fun turn => turn.client = i).map Turn.exchange

namespace Turn
variable [DecidableEq ι]

@[simp] theorem own_nil (i : ι) : own i ([] : List (Turn ι I)) = [] := rfl

@[simp] theorem own_append (i : ι) (a b : List (Turn ι I)) :
    own i (a ++ b) = own i a ++ own i b := by
  simp [own]

theorem own_cons (turn : Turn ι I) (rest : List (Turn ι I)) :
    own turn.client (turn :: rest) = turn.exchange :: own turn.client rest := by
  simp [own]

theorem own_cons_of_ne {i : ι} {turn : Turn ι I} (other : turn.client ≠ i)
    (rest : List (Turn ι I)) : own i (turn :: rest) = own i rest := by
  simp [own, other]

theorem mem_own {i : ι} {turns : List (Turn ι I)} {e : Exchange I} :
    e ∈ own i turns ↔ ∃ turn ∈ turns, turn.client = i ∧ turn.exchange = e := by
  simp [own, and_assoc]

end Turn

/-- A shared side that moves by a law of the time may take part in the turns, from a state at
one time to a state at a later one. -/
inductive Timeline (law : Instant → η → Exchange I → η → Prop) :
    Instant → η → List (Turn ι I) → Instant → η → Prop
  | rest (t : Instant) (h : η) : Timeline law t h [] t h
  | move {t now : Instant} {h mid last : η} {turn : Turn ι I} {rest : List (Turn ι I)}
      (later : turn.time.isBefore t = false) (first : law turn.time h turn.exchange mid)
      (others : Timeline law turn.time mid rest now last) :
      Timeline law t h (turn :: rest) now last

namespace Timeline

variable {law : Instant → η → Exchange I → η → Prop} {t now : Instant} {h last : η}

theorem append_iff {a b : List (Turn ι I)} : Timeline law t h (a ++ b) now last ↔
    ∃ noon mid, Timeline law t h a noon mid ∧ Timeline law noon mid b now last := by
  constructor
  · intro line
    induction a generalizing t h with
    | nil => exact ⟨t, h, .rest t h, line⟩
    | cons turn a ih =>
      cases line with
      | move later first others =>
        obtain ⟨noon, mid, before, after⟩ := ih others
        exact ⟨noon, mid, .move later first before, after⟩
  · rintro ⟨noon, mid, before, after⟩
    induction before with
    | rest t h => exact after
    | move later first _ ih => exact .move later first (ih after)

/-- The clock does not go back. -/
theorem not_before {turns : List (Turn ι I)} (line : Timeline law t h turns now last) :
    now.isBefore t = false := by
  induction line with
  | rest t h => exact Instant.not_isBefore_self
  | move later _ _ ih =>
    rw [Instant.not_isBefore_iff] at *
    omega

theorem mono {weaker : Instant → η → Exchange I → η → Prop} {turns : List (Turn ι I)}
    (line : Timeline law t h turns now last)
    (imp : ∀ time s e s', law time s e s' → weaker time s e s') :
    Timeline weaker t h turns now last := by
  induction line with
  | rest t h => exact .rest t h
  | move later first _ ih => exact .move later (imp _ _ _ _ first) ih

/-- Every turn was taken by the law, between the beginning and the end. -/
theorem of_mem {turns : List (Turn ι I)} (line : Timeline law t h turns now last)
    {turn : Turn ι I} (mem : turn ∈ turns) : ∃ mid next, law turn.time mid turn.exchange next ∧
      turn.time.isBefore t = false ∧ now.isBefore turn.time = false := by
  obtain ⟨before, after, rfl⟩ := List.append_of_mem mem
  obtain ⟨noon, mid, past, today⟩ := append_iff.1 line
  cases today with
  | @move _ _ _ next _ _ _ later first others =>
    refine ⟨mid, next, first, ?_, others.not_before⟩
    have start := past.not_before
    rw [Instant.not_isBefore_iff] at *
    omega

/-- What holds at the start and is kept by every turn, given those before it, holds at the end. -/
theorem invariant {turns : List (Turn ι I)} (line : Timeline law t h turns now last)
    (keeps : List (Turn ι I) → Instant → η → Prop) (start : keeps [] t h)
    (step : ∀ before turn noon mid next, (∃ after, turns = before ++ turn :: after) →
      Timeline law t h before noon mid → keeps before noon mid →
      turn.time.isBefore noon = false → law turn.time mid turn.exchange next →
      keeps (before ++ [turn]) turn.time next) : keeps turns now last := by
  -- by induction from the right end, where the turns so far are a list again
  suffices all : ∀ before after, turns = before ++ after → ∀ noon mid,
      Timeline law t h before noon mid → keeps before noon mid from
    all turns [] (List.append_nil _).symm now last line
  intro before
  induction before using List.reverseRecOn with
  | nil =>
    rintro after - noon mid ⟨⟩
    exact start
  | append_singleton before turn ih =>
    intro after split noon mid line
    obtain ⟨morning, state, past, today⟩ := append_iff.1 line
    cases today with
    | move later first others =>
      cases others
      have shape : turns = before ++ turn :: after := by simp [split]
      exact step before turn _ _ _ ⟨after, shape⟩ past (ih _ shape _ _ past) later first

end Timeline

/-- The first exchange of a client took place in some turn. -/
theorem Turn.own_eq_cons [DecidableEq ι] {i : ι} {turns : List (Turn ι I)} {e : Exchange I}
    {rest : List (Exchange I)} (shape : Turn.own i turns = e :: rest) :
    ∃ before time after, turns = before ++ ⟨i, time, e⟩ :: after ∧ Turn.own i before = [] := by
  induction turns with
  | nil => cases shape
  | cons turn turns ih =>
    by_cases own : turn.client = i
    · subst own
      rw [Turn.own_cons] at shape
      obtain ⟨rfl, -⟩ := List.cons.inj shape
      exact ⟨[], turn.time, turns, rfl, rfl⟩
    · rw [Turn.own_cons_of_ne own] at shape
      obtain ⟨before, time, after, rfl, none_before⟩ := ih shape
      exact ⟨turn :: before, time, after, rfl, by rw [Turn.own_cons_of_ne own, none_before]⟩

/-- The turns interleave the runs of the clients' programs, each of which has come to some rest. -/
structure Interleaves [DecidableEq ι] (law : Instant → η → Exchange I → η → Prop)
    (programs : (i : ι) → Program I (α i)) (t : Instant) (h : η) (turns : List (Turn ι I))
    (now : Instant) (last : η) (rests : (i : ι) → Program I (α i)) : Prop where
  timeline : Timeline law t h turns now last
  follows : ∀ i, (programs i).Follows (Turn.own i turns) (rests i)

end HostRoster
