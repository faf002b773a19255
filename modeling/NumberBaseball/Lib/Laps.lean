import Mathlib.Algebra.Order.Ring.Int
import Mathlib.Logic.Function.Basic

/-!
# `Lib.Laps` — a round robin that people join while it goes round

`Laps` keeps, next to the turn, how often the turn has come round and in which lap every seat was taken;
what a seat has been served is read off these (`served`). Serving and joining are each one change to this
bookkeeping (`served_serve`, `served_join_of_lt`, `served_join_last`).

The point is a bound. Suppose the round robin stops as soon as nobody present has been served `K` times or
fewer. A seat then keeps it going for `K` laps and a bit after it was taken, so with `n` seats there are at
most `K * n` whole laps, and no seat is served more than `K * n + 1` times (`Bounded.served_le`), whoever
has left meanwhile.
-/

namespace RoundRobin

/-- Where the turn is, how often it has come round, and in which lap every seat was taken. -/
structure Laps where
  seats  : Nat
  turn   : Nat
  lap    : Int
  joined : Nat → Int

namespace Laps

variable {K : Int} {L : Laps} {i : Nat}

/-- How often seat `i` has been served: once in every lap since it was taken, this one included as soon as
    the turn has passed it. -/
def served (L : Laps) (i : Nat) : Int := L.lap + 1 - L.joined i - if L.turn ≤ i then 1 else 0

/-- Serve the seat at the turn. -/
def serve (L : Laps) : Laps :=
  if L.turn + 1 < L.seats then { L with turn := L.turn + 1 }
  else { L with turn := 0, lap := L.lap + 1 }

/-- Somebody takes a seat at the end. -/
def join (L : Laps) : Laps :=
  { L with seats := L.seats + 1, joined := Function.update L.joined L.seats L.lap }

/-- Nobody has been served, and the turn is at `turn`: as if the seats before it were taken for the next
    lap. -/
def fresh (seats turn : Nat) : Laps where
  seats := seats
  turn := turn
  lap := 0
  joined i := if i < turn then 1 else 0

@[simp] theorem seats_serve : L.serve.seats = L.seats := by
  unfold serve
  split <;> rfl

theorem turn_serve (h : L.turn < L.seats) : L.serve.turn = (L.turn + 1) % L.seats := by
  unfold serve
  split
  · next hlt => exact (Nat.mod_eq_of_lt hlt).symm
  · next hge => rw [show L.turn + 1 = L.seats by omega, Nat.mod_self]

theorem served_serve (h : i < L.seats) (hturn : L.turn < L.seats) :
    L.serve.served i = L.served i + if i = L.turn then 1 else 0 := by
  unfold serve served
  split
  · -- within the lap only the seat at the turn is passed
    show L.lap + 1 - L.joined i - (if L.turn + 1 ≤ i then 1 else 0) = _
    split <;> split <;> split <;> omega
  · -- the last seat of a lap
    show L.lap + 1 + 1 - L.joined i - (if 0 ≤ i then 1 else 0) = _
    rw [if_pos (Nat.zero_le i)]
    split <;> split <;> omega

theorem served_join_of_lt (h : i < L.seats) : L.join.served i = L.served i := by
  unfold join served
  show L.lap + 1 - Function.update L.joined L.seats L.lap i - _ = _
  rw [Function.update_of_ne (by omega)]

theorem served_join_last (h : L.turn ≤ L.seats) : L.join.served L.seats = 0 := by
  unfold join served
  show L.lap + 1 - Function.update L.joined L.seats L.lap L.seats - (if L.turn ≤ L.seats then 1 else 0) = 0
  rw [Function.update_self, if_pos h]
  omega

theorem served_fresh (seats turn : Nat) : (fresh seats turn).served i = 0 := by
  unfold fresh served
  show (0 : Int) + 1 - (if i < turn then 1 else 0) - (if turn ≤ i then 1 else 0) = 0
  split <;> split <;> omega

/-! ## The bound -/

/-- There have been at most `K` laps for every seat, and a seat was taken only after at most `K` laps for
    every seat before it; but the first one may be a lap late. -/
structure Bounded (K : Int) (L : Laps) : Prop where
  start  : 0 ≤ L.lap
  lap    : L.lap ≤ K * L.seats
  nonneg : ∀ i, 0 ≤ L.joined i
  first  : 0 < L.seats → L.joined 0 ≤ 0 ∨ L.joined 0 ≤ 1 ∧ 2 ≤ L.seats
  later  : ∀ i, 0 < i → i < L.seats → L.joined i ≤ K * i

/-- More seats allow more laps. -/
theorem mul_le_mul_seats (hK : 1 ≤ K) {a b : Nat} (h : a ≤ b) : K * (a : Int) ≤ K * (b : Int) :=
  Int.mul_le_mul_of_nonneg_left (by omega) (by omega)

theorem Bounded.fresh {seats turn : Nat} (hK : 1 ≤ K) (h : turn = 0 ∨ turn = 1 ∧ 2 ≤ seats) :
    (fresh seats turn).Bounded K where
  start := Int.le_refl 0
  lap := by
    show (0 : Int) ≤ K * (seats : Int)
    have := mul_le_mul_seats hK (Nat.zero_le seats)
    omega
  nonneg i := by
    show (0 : Int) ≤ if i < turn then 1 else 0
    split <;> omega
  first _ := by
    show (if 0 < turn then (1 : Int) else 0) ≤ 0 ∨ (if 0 < turn then (1 : Int) else 0) ≤ 1 ∧ 2 ≤ seats
    rcases h with rfl | ⟨rfl, h2⟩
    · exact Or.inl (Int.le_refl 0)
    · exact Or.inr ⟨Int.le_refl 1, h2⟩
  later i hpos _ := by
    show (if i < turn then (1 : Int) else 0) ≤ K * i
    rw [if_neg (by omega)]
    have := mul_le_mul_seats hK (Nat.zero_le i)
    omega

/-- **Joining keeps the bound.** -/
theorem Bounded.join (h : L.Bounded K) (hK : 1 ≤ K) : L.join.Bounded K where
  start := h.start
  lap := h.lap.trans (mul_le_mul_seats hK (Nat.le_succ _))
  nonneg i := by
    show 0 ≤ Function.update L.joined L.seats L.lap i
    by_cases hi : i = L.seats
    · subst hi
      rw [Function.update_self]
      exact h.start
    · rw [Function.update_of_ne hi]
      exact h.nonneg i
  first _ := by
    show Function.update L.joined L.seats L.lap 0 ≤ 0 ∨
      Function.update L.joined L.seats L.lap 0 ≤ 1 ∧ 2 ≤ L.seats + 1
    rcases Nat.eq_zero_or_pos L.seats with h0 | hpos
    · -- the first seat is taken in the first lap
      have hlap := h.lap
      rw [h0, Int.natCast_zero, Int.mul_zero] at hlap
      rw [h0, Function.update_self]
      exact Or.inl hlap
    · rw [Function.update_of_ne (by omega)]
      rcases h.first hpos with h0 | ⟨h1, h2⟩
      · exact Or.inl h0
      · exact Or.inr ⟨h1, by omega⟩
  later i hpos hi := by
    show Function.update L.joined L.seats L.lap i ≤ K * i
    by_cases hi' : i = L.seats
    · subst hi'
      rw [Function.update_self]
      exact h.lap
    · rw [Function.update_of_ne hi']
      exact h.later i hpos (by have : i < L.seats + 1 := hi; omega)

/-- **Serving keeps the bound**, if it leaves somebody who has been served `K` times or fewer. -/
theorem Bounded.serve (h : L.Bounded K) (hK : 1 ≤ K) (hi : i < L.seats) (hleft : L.serve.served i ≤ K) :
    L.serve.Bounded K := by
  have hjoined : L.serve.joined = L.joined := by
    unfold Laps.serve
    split <;> rfl
  have hstart : 0 ≤ L.serve.lap := by
    have := h.start
    unfold Laps.serve
    split
    · exact this
    · show 0 ≤ L.lap + 1
      omega
  refine ⟨hstart, ?_, by rw [hjoined]; exact h.nonneg, by rw [hjoined, seats_serve]; exact h.first,
    by rw [hjoined, seats_serve]; exact h.later⟩
  -- the seat was taken `K` laps ago at most
  have hlap : L.serve.lap ≤ K + L.joined i := by
    unfold served at hleft
    rw [hjoined] at hleft
    split at hleft <;> omega
  rw [seats_serve]
  rcases Nat.eq_zero_or_pos i with rfl | hpos
  · have hone := mul_le_mul_seats hK hi
    rw [Int.natCast_succ, Int.natCast_zero, Int.zero_add, Int.mul_one] at hone
    rcases h.first hi with h0 | ⟨h1, h2⟩
    · omega
    · have htwo := mul_le_mul_seats hK h2
      omega
  · have hseat := h.later i hpos hi
    have hnext := mul_le_mul_seats hK hi
    rw [Int.natCast_succ, Int.mul_add, Int.mul_one] at hnext
    omega

/-- **What a seat is served at most.** -/
theorem Bounded.served_le (h : L.Bounded K) (i : Nat) : L.served i ≤ K * L.seats + 1 := by
  have hlap := h.lap
  have hjoined := h.nonneg i
  unfold served
  split <;> omega

end Laps

end RoundRobin
