/-!
# Loops and what they put out

A loop goes on from state to state as long as a test holds, and every round puts out a list. A run of it
is a finite tree, so there is one only if the loop ends. A function that counts down a number of rounds
computes the run if the number is large enough.

Main statements:

* `Loop.unique`: a loop puts out one list at most.
* `Loop.of_countdown`: the loop ends, and the function that counts down gives what it puts out.
-/

namespace TextDiagram

variable {σ β : Type}

/-- The loop with the given test, output and next state, started in a state, ends and puts out a list. -/
inductive Loop (goesOn : σ → Prop) (output : σ → List β) (next : σ → σ) : σ → List β → Prop where
  | stop {s : σ} (hstop : ¬goesOn s) : Loop goesOn output next s []
  | round {s : σ} {rest : List β} (hgo : goesOn s) (hrest : Loop goesOn output next (next s) rest) :
      Loop goesOn output next s (output s ++ rest)

namespace Loop

variable {goesOn : σ → Prop} {output : σ → List β} {next : σ → σ} {s : σ}

/-- A loop puts out one list at most. -/
theorem unique {xs ys : List β} (hx : Loop goesOn output next s xs)
    (hy : Loop goesOn output next s ys) : xs = ys := by
  induction hx generalizing ys with
  | stop hstop =>
    cases hy with
    | stop => rfl
    | round hgo => exact absurd hgo hstop
  | round hgo _ ih =>
    cases hy with
    | stop hstop => exact absurd hgo hstop
    | round _ hrest => rw [ih hrest]

/-- If no rounds are enough only for a loop that stops at once, and one less is enough after a round, then
counting down from enough rounds gives what the loop puts out. -/
theorem of_countdown [DecidablePred goesOn] (f : Nat → σ → List β) (enough : Nat → σ → Prop)
    (hzero : ∀ s, f 0 s = [])
    (hsucc : ∀ n s, f (n + 1) s = if goesOn s then output s ++ f n (next s) else [])
    (hnone : ∀ s, enough 0 s → ¬goesOn s)
    (hround : ∀ n s, enough (n + 1) s → goesOn s → enough n (next s))
    {n : Nat} (henough : enough n s) : Loop goesOn output next s (f n s) := by
  induction n generalizing s with
  | zero =>
    rw [hzero]
    exact .stop (hnone s henough)
  | succ n ih =>
    rw [hsucc]
    by_cases hgo : goesOn s
    · rw [if_pos hgo]
      exact .round hgo (ih (hround n s henough hgo))
    · rw [if_neg hgo]
      exact .stop hgo

end Loop

end TextDiagram
