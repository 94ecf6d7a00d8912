/-
Module: DragsterNet.Lib.Pacing
Purpose: A worker that sends, pauses and sends again, watched with a clock: when
  two of its sends start a gap apart.
Trusted boundary: none
Main exports: Phase, Face, Clocked, Clocked.becomes, Clocked.Turn, Clocked.Paced,
  Clocked.Paced.becomes
-/
import Mathlib.Data.List.Chain

namespace DragsterNet.Lib

/-- Where the worker is in its loop: before the test whether it is to stop, behind
it, in the middle of a send, behind the send, in the pause, or at its end. -/
inductive Phase where
  | top
  | armed
  | sending
  | spent
  | pausing
  | gone
deriving DecidableEq

/-- What there is to see of a worker. -/
structure Face (σ : Type) where
  phase : σ → Phase
  stopped : σ → Bool
  now : σ → Nat

/-- A state with the end of the pause, and when its sends started. -/
structure Clocked (σ : Type) where
  state : σ
  release : Nat
  starts : List Nat

variable {σ : Type} (face : Face σ) (gap : Nat)

namespace Clocked

/-- The next state; a pause that begins lasts for a gap. -/
def becomes (clocked : Clocked σ) (after : σ) : Clocked σ where
  state := after
  release :=
    if face.phase clocked.state ≠ .pausing ∧ face.phase after = .pausing then
      face.now clocked.state + gap
    else clocked.release
  starts :=
    if face.phase clocked.state ≠ .sending ∧ face.phase after = .sending then
      clocked.starts ++ [face.now clocked.state]
    else clocked.starts

/-- The last start lies a gap back. -/
def Free (clocked : Clocked σ) : Prop :=
  ∀ last ∈ clocked.starts.getLast?, last + gap ≤ face.now clocked.state

instance (clocked : Clocked σ) : Decidable (Free face gap clocked) :=
  inferInstanceAs (Decidable (∀ last ∈ clocked.starts.getLast?, _))

/-- Each start is at least a gap behind the one before it. -/
def Spaced (clocked : Clocked σ) : Prop :=
  clocked.starts.IsChain fun one two => one + gap ≤ two

/-- What a step does to the worker.  It comes back to its test from a pause that is
over, or where it is too late for another send, or where a send may start anyway. -/
inductive Turn (clocked : Clocked σ) (after : σ) : Prop where
  | stays (same : face.phase after = face.phase clocked.state)
  | arms (top : face.phase clocked.state = .top) (serves : face.stopped clocked.state = false)
      (armed : face.phase after = .armed)
  | sends (armed : face.phase clocked.state = .armed) (sending : face.phase after = .sending)
  | spends (spent : face.phase after = .spent)
  | pauses (pausing : face.phase after = .pausing)
  | expires (pausing : face.phase clocked.state = .pausing)
      (late : clocked.release ≤ face.now clocked.state) (top : face.phase after = .top)
  | stops (stopped : face.stopped after = true) (top : face.phase after = .top)
  | freed (free : Free face gap clocked) (top : face.phase after = .top)
  | leaves (gone : face.phase after = .gone)

/-- The starts are spaced, and where another one may come the last one lies, or
will lie, a gap back. -/
structure Paced (clocked : Clocked σ) : Prop where
  spaced : clocked.Spaced gap
  past : ∀ last ∈ clocked.starts.getLast?, last ≤ face.now clocked.state
  top : face.phase clocked.state = .top → face.stopped clocked.state = true ∨
    Free face gap clocked
  armed : face.phase clocked.state = .armed → Free face gap clocked
  pausing : face.phase clocked.state = .pausing →
    ∀ last ∈ clocked.starts.getLast?, last + gap ≤ clocked.release

variable {face gap} {clocked : Clocked σ} {after : σ}

theorem Paced.start (unsent : clocked.starts = []) : Paced face gap clocked := by
  have none_ : ∀ last, last ∉ clocked.starts.getLast? := by
    intro last isLast
    rw [unsent] at isLast
    cases isLast
  have free : Free face gap clocked := fun last isLast => absurd isLast (none_ last)
  constructor
  · rw [Spaced, unsent]
    exact .nil
  · exact fun last isLast => absurd isLast (none_ last)
  · exact fun _ => .inr free
  · exact fun _ => free
  · exact fun _ last isLast => absurd isLast (none_ last)

theorem becomes_starts (quiet : face.phase after ≠ .sending ∨
      face.phase clocked.state = .sending) :
    (clocked.becomes face gap after).starts = clocked.starts := by
  apply if_neg
  rintro ⟨notSending, sending⟩
  rcases quiet with quiet | quiet
  · exact quiet sending
  · exact notSending quiet

theorem becomes_release (awake : face.phase after ≠ .pausing ∨
      face.phase clocked.state = .pausing) :
    (clocked.becomes face gap after).release = clocked.release := by
  apply if_neg
  rintro ⟨notPausing, pausing⟩
  rcases awake with awake | awake
  · exact awake pausing
  · exact notPausing awake

/-- A step with which no send starts. -/
theorem Paced.quiet (paced : Paced face gap clocked)
    (clock : face.now clocked.state ≤ face.now after)
    (quiet : face.phase after ≠ .sending ∨ face.phase clocked.state = .sending)
    (top : face.phase after = .top → face.stopped after = true ∨ Free face gap clocked)
    (armed : face.phase after = .armed → Free face gap clocked)
    (pausing : face.phase after = .pausing → ∀ last ∈ clocked.starts.getLast?,
      last + gap ≤ (clocked.becomes face gap after).release) :
    Paced face gap (clocked.becomes face gap after) := by
  have starts := @becomes_starts _ face gap clocked after quiet
  have free : Free face gap clocked → Free face gap (clocked.becomes face gap after) := by
    intro isFree last isLast
    rw [starts] at isLast
    exact (isFree last isLast).trans clock
  constructor
  · rw [Spaced, starts]
    exact paced.spaced
  · intro last isLast
    rw [starts] at isLast
    exact (paced.past last isLast).trans clock
  · exact fun atTop => (top atTop).imp_right free
  · exact fun isArmed => free (armed isArmed)
  · intro pauses last isLast
    rw [starts] at isLast
    exact pausing pauses last isLast

/-- A send starts, a gap behind the last one. -/
theorem Paced.sends (paced : Paced face gap clocked)
    (clock : face.now clocked.state ≤ face.now after)
    (armed : face.phase clocked.state = .armed) (sending : face.phase after = .sending) :
    Paced face gap (clocked.becomes face gap after) := by
  have notSending : face.phase clocked.state ≠ .sending := by
    rw [armed]
    exact Phase.noConfusion
  have starts : (clocked.becomes face gap after).starts =
      clocked.starts ++ [face.now clocked.state] := if_pos ⟨notSending, sending⟩
  have other : ∀ {phase : Phase}, phase ≠ .sending →
      face.phase (clocked.becomes face gap after).state ≠ phase := by
    intro phase apart same
    exact apart (same.symm.trans sending)
  constructor
  · rw [Spaced, starts]
    apply paced.spaced.append (.singleton _)
    intro last isLast next isNext
    obtain rfl := Option.some.inj isNext
    exact paced.armed armed last isLast
  · intro last isLast
    rw [starts, List.getLast?_concat] at isLast
    obtain rfl := Option.some.inj isLast
    exact clock
  · exact fun atTop => absurd atTop (other Phase.noConfusion)
  · exact fun isArmed => absurd isArmed (other Phase.noConfusion)
  · exact fun pauses => absurd pauses (other Phase.noConfusion)

/-- The worker comes back to its test, too late for another send or with one free. -/
theorem Paced.returns (paced : Paced face gap clocked)
    (clock : face.now clocked.state ≤ face.now after) (top : face.phase after = .top)
    (due : face.stopped after = true ∨ Free face gap clocked) :
    Paced face gap (clocked.becomes face gap after) := by
  have other : ∀ {phase : Phase}, phase ≠ .top → face.phase after ≠ phase := by
    intro phase apart same
    exact apart (same.symm.trans top)
  apply paced.quiet clock (.inl (other Phase.noConfusion))
  · exact fun _ => due
  · exact fun armed => absurd armed (other Phase.noConfusion)
  · exact fun pauses => absurd pauses (other Phase.noConfusion)

theorem Paced.becomes (paced : Paced face gap clocked) (turn : Turn face gap clocked after)
    (clock : face.now clocked.state ≤ face.now after)
    (lasting : face.stopped clocked.state = true → face.stopped after = true) :
    Paced face gap (clocked.becomes face gap after) := by
  have differ : ∀ {phase other : Phase}, face.phase after = phase → other ≠ phase →
      face.phase after ≠ other := by
    intro phase other isPhase apart same
    exact apart (same.symm.trans isPhase)
  cases turn with
  | stays same =>
      apply paced.quiet clock
      · by_cases sends : face.phase clocked.state = .sending
        · exact .inr sends
        · exact .inl fun sending => sends (same.symm.trans sending)
      · exact fun top => (paced.top (same.symm.trans top)).imp_left lasting
      · exact fun armed => paced.armed (same.symm.trans armed)
      · intro pausing last isLast
        rw [becomes_release (.inr (same.symm.trans pausing))]
        exact paced.pausing (same.symm.trans pausing) last isLast
  | arms top serves armed =>
      have free : Free face gap clocked := by
        rcases paced.top top with stopped | free
        · exact absurd (serves.symm.trans stopped) Bool.false_ne_true
        · exact free
      apply paced.quiet clock (.inl (differ armed Phase.noConfusion))
      · exact fun _ => .inr free
      · exact fun _ => free
      · exact fun pausing => absurd pausing (differ armed Phase.noConfusion)
  | sends armed sending => exact paced.sends clock armed sending
  | spends spent =>
      apply paced.quiet clock (.inl (differ spent Phase.noConfusion))
      · exact fun top => absurd top (differ spent Phase.noConfusion)
      · exact fun armed => absurd armed (differ spent Phase.noConfusion)
      · exact fun pausing => absurd pausing (differ spent Phase.noConfusion)
  | pauses pausing =>
      apply paced.quiet clock (.inl (differ pausing Phase.noConfusion))
      · exact fun top => absurd top (differ pausing Phase.noConfusion)
      · exact fun armed => absurd armed (differ pausing Phase.noConfusion)
      · intro _ last isLast
        by_cases already : face.phase clocked.state = .pausing
        · rw [becomes_release (.inr already)]
          exact paced.pausing already last isLast
        · have release : (clocked.becomes face gap after).release =
              face.now clocked.state + gap := if_pos ⟨already, pausing⟩
          rw [release]
          exact Nat.add_le_add_right (paced.past last isLast) gap
  | expires pausing late top =>
      have free : Free face gap clocked := fun last isLast =>
        (paced.pausing pausing last isLast).trans late
      exact paced.returns clock top (.inr free)
  | stops stopped top => exact paced.returns clock top (.inl stopped)
  | freed free top => exact paced.returns clock top (.inr free)
  | leaves gone =>
      apply paced.quiet clock (.inl (differ gone Phase.noConfusion))
      · exact fun top => absurd top (differ gone Phase.noConfusion)
      · exact fun armed => absurd armed (differ gone Phase.noConfusion)
      · exact fun pauses => absurd pauses (differ gone Phase.noConfusion)

end Clocked

end DragsterNet.Lib
