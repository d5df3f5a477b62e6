import HostRoster.Proofs.Turns
import Mathlib.Logic.Function.Basic

/-!
# Programs that keep to a protocol

A protocol says what a program may ask at each stage and which stage comes next. What a
program asks under every reply can be checked against it once and for all. When several
clients take turns, each of them has reached a stage of its own protocol, and every turn
moves one of them by one exchange.
-/
namespace HostRoster

namespace Program
variable {I : Interface} {α β σ : Type}

/-- Under every reply the exchanges of the program move a state of its own by a law, and it ends
with a value and a state that satisfy `post`. -/
def Conforms (law : σ → Exchange I → σ → Prop) :
    Program I α → σ → (α → σ → Prop) → Prop
  | .done value, s, post => post value s
  | .ask r next, s, post => ∀ reply, ∃ s', law s ⟨r, reply⟩ s' ∧ (next reply).Conforms law s' post

variable {law : σ → Exchange I → σ → Prop}

theorem conforms_bind {p : Program I α} {f : α → Program I β} {s : σ} {post : β → σ → Prop} :
    (p >>= f).Conforms law s post ↔
      p.Conforms law s fun value s' => (f value).Conforms law s' post := by
  induction p generalizing s with
  | done value => exact Iff.rfl
  | ask r next ih =>
    exact forall_congr' fun reply => exists_congr fun s' => and_congr_right fun _ => ih reply

theorem Conforms.mono {p : Program I α} {s : σ} {post weaker : α → σ → Prop}
    (h : p.Conforms law s post) (imp : ∀ value s', post value s' → weaker value s') :
    p.Conforms law s weaker := by
  induction p generalizing s with
  | done value => exact imp value s h
  | ask r next ih =>
    intro reply
    obtain ⟨s', moved, onward⟩ := h reply
    exact ⟨s', moved, ih reply onward⟩

/-- The exchanges of a run form a history of the law. -/
theorem Conforms.history {p q : Program I α} {s : σ} {post : α → σ → Prop}
    {exchanges : List (Exchange I)} (h : p.Conforms law s post) (run : p.Follows exchanges q) :
    ∃ s', History law s exchanges s' := by
  induction run generalizing s with
  | rest p => exact ⟨s, .rest s⟩
  | ask _ ih =>
    obtain ⟨mid, moved, onward⟩ := h _
    obtain ⟨s', history⟩ := ih onward
    exact ⟨s', .move moved history⟩

end Program

theorem History.eq_of_nil {I : Interface} {η : Type} {law : η → Exchange I → η → Prop} {h last : η}
    (history : History law h [] last) : last = h := by
  cases history
  rfl

theorem History.append_iff {I : Interface} {η : Type} {law : η → Exchange I → η → Prop} {h last : η}
    {a b : List (Exchange I)} : History law h (a ++ b) last ↔
      ∃ mid, History law h a mid ∧ History law mid b last := by
  constructor
  · intro history
    induction a generalizing h with
    | nil => exact ⟨h, .rest h, history⟩
    | cons e a ih =>
      cases history with
      | move first others =>
        obtain ⟨mid, before, after⟩ := ih others
        exact ⟨mid, .move first before, after⟩
  · rintro ⟨mid, before, after⟩
    induction before with
    | rest h => exact after
    | move first _ ih => exact .move first (ih after)

section Clients
variable {ι σ : Type} [DecidableEq ι] {I : Interface} {laws : ι → σ → Exchange I → σ → Prop} {first : σ}

/-- The stages that the clients have reached after some turns. -/
def HaveReached (laws : ι → σ → Exchange I → σ → Prop) (first : σ) (turns : List (Turn ι I))
    (stages : ι → σ) : Prop :=
  ∀ i, History (laws i) first (Turn.own i turns) (stages i)

/-- The client of the last turn has come one step further, and nobody else has. -/
theorem HaveReached.of_snoc {before : List (Turn ι I)} {turn : Turn ι I} {stages' : ι → σ}
    (h : HaveReached laws first (before ++ [turn]) stages') :
    ∃ stages stage, HaveReached laws first before stages ∧
      laws turn.client (stages turn.client) turn.exchange stage ∧
      stages' = Function.update stages turn.client stage := by
  have parts : ∀ i, ∃ stage, History (laws i) first (Turn.own i before) stage ∧
      History (laws i) stage (Turn.own i [turn]) (stages' i) := fun i =>
    History.append_iff.1 (Turn.own_append i before [turn] ▸ h i)
  choose stages earlier latest using parts
  have own := latest turn.client
  rw [Turn.own_cons, Turn.own_nil] at own
  cases own with
  | move advanced rest =>
    cases rest
    refine ⟨stages, stages' turn.client, earlier, advanced, funext fun i => ?_⟩
    by_cases here : i = turn.client
    · subst here
      rw [Function.update_self]
    · have other := latest i
      rw [Turn.own_cons_of_ne (Ne.symm here), Turn.own_nil] at other
      rw [Function.update_of_ne here, other.eq_of_nil]

/-- The stages at a cut through the turns. -/
theorem HaveReached.exists_cut {before after : List (Turn ι I)}
    (whole : ∀ i, ∃ stage, History (laws i) first (Turn.own i (before ++ after)) stage) :
    ∃ stages ends : ι → σ, HaveReached laws first before stages ∧
      ∀ i, History (laws i) (stages i) (Turn.own i after) (ends i) := by
  have parts : ∀ i, ∃ stage last, History (laws i) first (Turn.own i before) stage ∧
      History (laws i) stage (Turn.own i after) last := by
    intro i
    obtain ⟨last, history⟩ := whole i
    rw [Turn.own_append] at history
    obtain ⟨stage, earlier, later⟩ := History.append_iff.1 history
    exact ⟨stage, last, earlier, later⟩
  choose stages ends earlier later using parts
  exact ⟨stages, ends, earlier, later⟩

end Clients

end HostRoster
