import Mathlib.Data.Int.Init
import Mathlib.Data.Fin.Basic
import Mathlib.Logic.Function.Iterate
import Mathlib.Tactic.Ring

/-!
# `Lib.RoundRobin` — seats around a table, served in turn

An abstract `Table` has `n` seats, one of which holds the turn, and a count of what each seat has
used. `serve` charges the seat that holds the turn and passes the turn on, cyclically. The file gives

* the **closed form** of `k` services: where the turn is (`serve_iterate_turn`) and what each seat has
  used (`serve_iterate_used`), in terms of how far `ahead` of the turn the seat sits;
* the **budget** predicate `Due M K` — after exactly `K` more services every seat has used exactly
  `M` — which is the invariant behind "nobody uses more than `M`", and how it survives a service, a
  fresh start, and a seat joining at the end of the table.

The turn is a `Fin n`, so a table whose turn is nobody's cannot be built; in particular `0 < n`.
-/

namespace RoundRobin

/-- A table of `n` seats: whose turn it is, and what each seat has used so far. -/
@[ext] structure Table (n : Nat) where
  turn : Fin n
  used : Fin n → Int

namespace Table

variable {n : Nat}

/-- Charge the seat at the turn and pass the turn to the next seat. -/
def serve (T : Table n) : Table n where
  turn := ⟨(T.turn + 1) % n, Nat.mod_lt _ T.turn.pos⟩
  used := Function.update T.used T.turn (T.used T.turn + 1)

/-- How many services pass before seat `i` is the one served. -/
def ahead (T : Table n) (i : Fin n) : Nat := (i + n - T.turn) % n

theorem ahead_lt (T : Table n) (i : Fin n) : T.ahead i < n := Nat.mod_lt _ T.turn.pos

/-- The seat `j` places past the turn is `j` services ahead. -/
theorem ahead_of_eq {T : Table n} {i : Fin n} {j : Nat} (hj : j < n)
    (hi : (i : Nat) = (T.turn + j) % n) : T.ahead i = j := by
  have ht := T.turn.isLt
  unfold ahead
  rcases Nat.lt_or_ge (T.turn + j) n with h | h
  · rw [hi, Nat.mod_eq_of_lt h, show (T.turn : Nat) + j + n - T.turn = j + n by omega,
      Nat.add_mod_right, Nat.mod_eq_of_lt hj]
  · rw [hi, Nat.mod_eq_sub_mod h, Nat.mod_eq_of_lt (show (T.turn : Nat) + j - n < n by omega),
      show (T.turn : Nat) + j - n + n - T.turn = j by omega, Nat.mod_eq_of_lt hj]

/-- The converse: a seat sits `ahead` places past the turn. -/
theorem eq_of_ahead (T : Table n) (i : Fin n) : (i : Nat) = (T.turn + T.ahead i) % n := by
  have ht := T.turn.isLt
  have hi := i.isLt
  unfold ahead
  rcases Nat.lt_or_ge i T.turn with h | h
  · rw [Nat.mod_eq_of_lt (show (i : Nat) + n - T.turn < n by omega),
      show (T.turn : Nat) + (i + n - T.turn) = i + n by omega, Nat.add_mod_right,
      Nat.mod_eq_of_lt hi]
  · rw [show (i : Nat) + n - T.turn = (i - T.turn) + n by omega, Nat.add_mod_right,
      Nat.mod_eq_of_lt (show (i : Nat) - T.turn < n by omega),
      show (T.turn : Nat) + (i - T.turn) = i by omega, Nat.mod_eq_of_lt hi]

/-! ## `k` services in closed form -/

/-- How often a seat `a` places ahead is served in `k` services around `n` seats. -/
def share (n k a : Nat) : Nat := (k + n - 1 - a) / n

/-- The seat is served for the `m`-th time, and not yet for the next, while `k` is in a window of `n`. -/
theorem share_eq_iff {k a m : Nat} (ha : a < n) :
    share n k a = m ↔ k ≤ m * n + a ∧ m * n + a < k + n := by
  unfold share
  rw [Nat.div_eq_iff (by omega)]
  omega

theorem share_zero {a : Nat} (ha : a < n) : share n 0 a = 0 := by
  rw [share_eq_iff ha]
  omega

/-- One more service reaches exactly the seat at residue `k`. -/
theorem share_succ {k a : Nat} (ha : a < n) :
    share n (k + 1) a = share n k a + if k % n = a then 1 else 0 := by
  obtain ⟨hle, hlt⟩ := (share_eq_iff (k := k) ha).mp rfl
  generalize share n k a = m at hle hlt ⊢
  rw [share_eq_iff ha]
  rcases Nat.lt_or_eq_of_le hle with h | h
  · -- inside the window: at residue `a`, `k` would be a whole lap earlier
    have hk : k % n ≠ a := by
      intro hk
      have hdiv := Nat.div_add_mod k n
      have hlap : n * (k / n) < n * m := by
        rw [Nat.mul_comm n m]
        omega
      have hquot := Nat.mul_le_mul_left n (Nat.lt_of_mul_lt_mul_left hlap)
      rw [Nat.mul_succ, Nat.mul_comm n m] at hquot
      omega
    rw [if_neg hk, Nat.add_zero m]
    omega
  · -- at the end of the window
    have hk : k % n = a := by
      rw [h, Nat.mul_comm, Nat.mul_add_mod, Nat.mod_eq_of_lt ha]
    rw [if_pos hk, Nat.succ_mul]
    omega

/-- **The turn after `k` services.** -/
theorem serve_iterate_turn (T : Table n) (k : Nat) :
    ((serve^[k] T).turn : Nat) = (T.turn + k) % n := by
  induction k with
  | zero => exact (Nat.mod_eq_of_lt T.turn.isLt).symm
  | succ k ih =>
      rw [Function.iterate_succ_apply']
      show (((serve^[k] T).turn : Nat) + 1) % n = _
      rw [ih, Nat.mod_add_mod, Nat.add_assoc]

/-- **What each seat has used after `k` services.** -/
theorem serve_iterate_used (T : Table n) (k : Nat) (i : Fin n) :
    (serve^[k] T).used i = T.used i + share n k (T.ahead i) := by
  induction k with
  | zero => simp [share_zero (T.ahead_lt i)]
  | succ k ih =>
      rw [Function.iterate_succ_apply', share_succ (T.ahead_lt i)]
      show Function.update (serve^[k] T).used (serve^[k] T).turn _ i = _
      by_cases hi : i = (serve^[k] T).turn
      · -- the seat served next is the one at residue `k`
        have hk : k % n = T.ahead i := by
          symm
          apply ahead_of_eq (Nat.mod_lt _ T.turn.pos)
          rw [hi, serve_iterate_turn, Nat.add_mod_mod]
        subst hi
        rw [Function.update_self, ih, if_pos hk]
        push_cast
        ring
      · -- any other seat keeps its count
        have hk : k % n ≠ T.ahead i := by
          intro hk
          apply hi
          apply Fin.ext
          rw [serve_iterate_turn, T.eq_of_ahead i, ← hk, Nat.add_mod_mod]
        rw [Function.update_of_ne hi, ih, if_neg hk, Nat.add_zero]

/-- Services never lower a count. -/
theorem used_le_iterate (T : Table n) (k : Nat) (i : Fin n) : T.used i ≤ (serve^[k] T).used i := by
  rw [serve_iterate_used]
  omega

/-- A service raises the count of the seat it serves. -/
theorem serve_used_turn (T : Table n) : T.serve.used T.turn = T.used T.turn + 1 :=
  Function.update_self ..

/-- `M` whole laps serve every seat `M` times. -/
theorem share_laps (M : Nat) {a : Nat} (ha : a < n) : share n (n * M) a = M := by
  rw [share_eq_iff ha, Nat.mul_comm n M]
  omega

/-! ## The budget -/

/-- **The budget.** After exactly `K` more services every seat has used exactly `M`. -/
def Due (M K : Nat) (T : Table n) : Prop := ∀ i, (serve^[K] T).used i = M

/-- A table within its budget has no seat above `M`. -/
theorem Due.used_le {M K : Nat} {T : Table n} (h : T.Due M K) (i : Fin n) : T.used i ≤ M := by
  rw [← h i]
  exact T.used_le_iterate K i

/-- The budget counts down by one with each service. -/
theorem Due.serve {M K : Nat} {T : Table n} (h : T.Due M (K + 1)) : T.serve.Due M K := h

theorem Due.iterate {M K k : Nat} {T : Table n} (h : T.Due M (K + k)) : (Table.serve^[k] T).Due M K := by
  intro i
  rw [← Function.iterate_add_apply]
  exact h i

/-- The budget is spent exactly when every seat has used `M`. -/
theorem Due.spent_iff {M K : Nat} {T : Table n} (h : T.Due M K) :
    (∀ i, (M : Int) ≤ T.used i) ↔ K = 0 := by
  constructor
  · intro hall
    cases K with
    | zero => rfl
    | succ K =>
        -- the next service would take the seat at the turn above `M`
        have hup := T.serve_used_turn
        have hle := h.serve.used_le T.turn
        have := hall T.turn
        omega
  · rintro rfl i
    exact le_of_eq (h i).symm

/-- It is spent after `K` services, and not before. -/
theorem Due.spent_iterate_iff {M K k : Nat} {T : Table n} (h : T.Due M K) :
    (∀ i, (M : Int) ≤ (Table.serve^[k] T).used i) ↔ K ≤ k := by
  rcases Nat.lt_or_ge k K with hk | hk
  · -- some services are still due
    obtain ⟨d, rfl⟩ := Nat.exists_eq_add_of_lt hk
    have hrest : (Table.serve^[k] T).Due M (d + 1) := by
      refine Due.iterate ?_
      rwa [show d + 1 + k = k + d + 1 by omega]
    rw [hrest.spent_iff]
    omega
  · -- after `K` services everybody has `M`, and further ones take nothing back
    refine iff_of_true (fun i => ?_) hk
    obtain ⟨d, rfl⟩ := Nat.exists_eq_add_of_le' hk
    rw [Function.iterate_add_apply, ← h i]
    exact (Table.serve^[K] T).used_le_iterate d i

/-- A fresh table is within budget for `M` laps, whoever holds the turn. -/
theorem due_fresh {T : Table n} (hz : ∀ i, T.used i = 0) (M : Nat) : T.Due M (n * M) := by
  intro i
  rw [serve_iterate_used, hz, share_laps M (T.ahead_lt i)]
  omega

/-- A seat added after the last one, with nothing used. -/
def join (T : Table n) : Table (n + 1) where
  turn := T.turn.castSucc
  used := fun i => if h : (i : Nat) < n then T.used ⟨i, h⟩ else 0

/-- How far ahead the old seats are once a seat has joined: those before the turn move back by one. -/
theorem ahead_join (T : Table n) (i : Fin n) :
    T.join.ahead i.castSucc = if T.turn ≤ i then (i : Nat) - T.turn else i + (n + 1) - T.turn := by
  have ht := T.turn.isLt
  have hi := i.isLt
  show ((i : Nat) + (n + 1) - T.turn) % (n + 1) = _
  split
  · next h =>
      have h : (T.turn : Nat) ≤ i := h
      rw [show (i : Nat) + (n + 1) - T.turn = i - T.turn + (n + 1) by omega, Nat.add_mod_right,
        Nat.mod_eq_of_lt (by omega)]
  · next h =>
      have h : ¬ (T.turn : Nat) ≤ i := h
      exact Nat.mod_eq_of_lt (by omega)

theorem ahead_join_last (T : Table n) : T.join.ahead (Fin.last n) = n - T.turn := by
  have ht := T.turn.isLt
  show (n + (n + 1) - T.turn) % (n + 1) = _
  rw [show n + (n + 1) - T.turn = n - T.turn + (n + 1) by omega, Nat.add_mod_right,
    Nat.mod_eq_of_lt (by omega)]

/-- How far ahead an old seat was before the join. -/
theorem ahead_eq (T : Table n) (i : Fin n) :
    T.ahead i = if T.turn ≤ i then (i : Nat) - T.turn else i + n - T.turn := by
  have ht := T.turn.isLt
  have hi := i.isLt
  unfold ahead
  split
  · next h =>
      have h : (T.turn : Nat) ≤ i := h
      rw [show (i : Nat) + n - T.turn = i - T.turn + n by omega, Nat.add_mod_right,
        Nat.mod_eq_of_lt (by omega)]
  · next h =>
      have h : ¬ (T.turn : Nat) ≤ i := h
      exact Nat.mod_eq_of_lt (by omega)

/-- In the first lap of the budget the seat at the turn and the last seat both have the whole of `M`
    still to come, so `K` is `M * n` less at most the turn. -/
theorem Due.bounds {M K : Nat} {T : Table n} (h : T.Due M K)
    (hz : ∀ i, T.turn ≤ i → T.used i = 0) : K ≤ M * n ∧ M * n ≤ K + T.turn := by
  have ht := T.turn.isLt
  have hshare : ∀ i, T.turn ≤ i → share n K (i - T.turn) = M := by
    intro i hi
    have hi' := h i
    rw [serve_iterate_used, hz i hi, ahead_eq, if_pos hi] at hi'
    omega
  have hfirst := hshare T.turn (Fin.le_refl _)
  have hlast := hshare ⟨n - 1, by omega⟩ (show (T.turn : Nat) ≤ n - 1 by omega)
  rw [Nat.sub_self, share_eq_iff (by omega)] at hfirst
  rw [share_eq_iff (show n - 1 - T.turn < n by omega)] at hlast
  omega

/-- So every old seat is served as often in the `K + M` services around the longer table. -/
theorem share_join {M K : Nat} {T : Table n} (h : T.Due M K)
    (hz : ∀ i, T.turn ≤ i → T.used i = 0) (i : Fin n) :
    share (n + 1) (K + M) (T.join.ahead i.castSucc) = share n K (T.ahead i) := by
  have hi := i.isLt
  obtain ⟨hhi, hlo⟩ := h.bounds hz
  obtain ⟨hle, hlt⟩ := (share_eq_iff (k := K) (T.ahead_lt i)).mp rfl
  generalize hm : share n K (T.ahead i) = m at hle hlt ⊢
  rw [share_eq_iff (T.join.ahead_lt _), ahead_join, Nat.mul_succ]
  rw [ahead_eq] at hle hlt
  by_cases hturn : T.turn ≤ i
  · have hmM : m = M := by
      have hi' := h i
      rw [serve_iterate_used, hz i hturn, hm] at hi'
      omega
    rw [if_pos hturn] at hle hlt ⊢
    omega
  · have hturn' : (i : Nat) < T.turn := Fin.not_le.mp hturn
    have ht := T.turn.isLt
    rw [if_neg hturn] at hle hlt ⊢
    -- the seat has had its turn in this lap, so it has `M` or one less to come
    have hmM : m ≤ M := by
      have : m * n < (M + 1) * n := by
        rw [Nat.succ_mul]
        omega
      exact Nat.le_of_lt_succ (Nat.lt_of_mul_lt_mul_right this)
    have hMm : M ≤ m + 1 := by
      have : M * n < (m + 2) * n := by
        rw [Nat.succ_mul, Nat.succ_mul]
        omega
      exact Nat.le_of_lt_succ (Nat.lt_of_mul_lt_mul_right this)
    omega

/-- **Joining in the first lap keeps the budget.** If no seat from the turn to the last one has used
    anything, the current lap still has to pass the end of the table: the new seat is served in it,
    and every seat, old and new, reaches `M` in the same lap. -/
theorem Due.join {M K : Nat} {T : Table n} (h : T.Due M K)
    (hz : ∀ i, T.turn ≤ i → T.used i = 0) : T.join.Due M (K + M) := by
  have ht := T.turn.isLt
  obtain ⟨hhi, hlo⟩ := h.bounds hz
  intro i
  rw [serve_iterate_used]
  refine Fin.lastCases ?_ (fun i => ?_) i
  · -- the newcomer, served last in each lap
    have hlast : share (n + 1) (K + M) (n - T.turn) = M := by
      rw [share_eq_iff (by omega), Nat.mul_succ]
      omega
    rw [ahead_join_last, hlast]
    simp [Table.join]
  · have hold := h i
    rw [serve_iterate_used] at hold
    rw [share_join h hz i]
    simpa [Table.join] using hold

end Table

end RoundRobin
