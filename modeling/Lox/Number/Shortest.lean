import Lox.Number.Nearest

namespace Lox

/-!
# The shortest decimal that reads back

The text of a number has as few digits as will do: it is the decimal fraction of fewest
significant digits whose nearest number is the given one, and of several such fractions the one
closest to the number.

The search runs over the grids of multiples of `10 ^ j`, from the coarsest down. On each grid only
the two neighbours of the exact value are tried: if any point of the grid reads back, then one of
these does.

* `Decimal.neighbours` — the two points of a grid beside a value, the closer one first.
* `Decimal.shortest` — the first of them that reads back, or the exact value.
* `Decimal.nearest_shortest` — what is found reads back, if the exact value does.
-/

namespace Decimal

/-- The neighbours of a coefficient on the grid of the multiples of `step`, the closer one first;
    of two at the same distance, the upper one. -/
def neighbours (coefficient step : Nat) : List Nat :=
  let below := coefficient / step * step
  if 2 * (coefficient % step) < step then [below, below + step] else [below + step, below]

/-- Starting at the grid of step `10 ^ j`, the first neighbour of `d` that has the magnitude `p`;
    on the finest grid, `d` itself. -/
def shortestFrom (p : Nat) (d : Decimal) : Nat → Decimal
  | 0 => d
  | j + 1 =>
    match (neighbours d.coefficient (Nat.pow 10 (j + 1))).find?
        fun c => nearest ⟨c, d.places⟩ == p with
    | some c => ⟨c, d.places⟩
    | none => shortestFrom p d j

theorem nearest_shortestFrom {p : Nat} {d : Decimal} (h : d.nearest = p) (j : Nat) :
    (shortestFrom p d j).nearest = p := by
  induction j with
  | zero => exact h
  | succ j ih =>
    unfold shortestFrom
    split
    · next c hc => simpa using List.find?_some hc
    · exact ih

/-- The shortest decimal fraction that reads back as the finite magnitude `p`. The coarsest grid
    tried is that of the leading digit of the exact value. -/
def shortest (p : Nat) : Decimal :=
  let d := exact p
  shortestFrom p d ((Nat.toDigits 10 d.coefficient).length - 1)

theorem nearest_shortest {p : Nat} (h : (exact p).nearest = p) : (shortest p).nearest = p :=
  nearest_shortestFrom h _

end Decimal

end Lox
