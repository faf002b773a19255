import Mathlib.Data.List.Nodup
import Mathlib.Data.List.InsertIdx

/-!
# `Lib.Draw` — drawing without replacement

`pick pool is` draws from `pool` at the positions `is`, one after the other, each from what the draws
before have left. As long as the pool has no repetitions and the positions fit, the positions can be read
off what has been drawn (`positions_pick`), so different positions draw differently (`pick_inj`).
-/

variable {α : Type}

namespace Draw

/-- Draw at the positions `is`; a position beyond the pool ends the draw. -/
def pick : List α → List Nat → List α
  | _,    []      => []
  | pool, i :: is =>
      match pool[i]? with
      | some a => a :: pick (pool.eraseIdx i) is
      | none   => []

/-- Every position is in the pool of its draw, when the first pool has `n` elements. -/
def Fits : Nat → List Nat → Prop
  | _, []      => True
  | n, i :: is => i < n ∧ Fits (n - 1) is

/-- A draw that fits takes the element there. -/
theorem pick_cons {pool : List α} {i : Nat} (is : List Nat) (h : i < pool.length) :
    pick pool (i :: is) = pool[i] :: pick (pool.eraseIdx i) is := by
  rw [pick, List.getElem?_eq_getElem h]

/-- Nothing is drawn that is not in the pool. -/
theorem mem_of_mem_pick {is : List Nat} {a : α} : ∀ {pool : List α}, a ∈ pick pool is → a ∈ pool := by
  induction is with
  | nil =>
      intro pool h
      cases h
  | cons i is ih =>
      intro pool h
      rw [pick] at h
      cases hi : pool[i]? with
      | none =>
          rw [hi] at h
          cases h
      | some b =>
          rw [hi] at h
          rcases List.mem_cons.mp h with rfl | h
          · exact List.mem_of_getElem? hi
          · exact List.mem_of_mem_eraseIdx (ih h)

/-! ## Positions and results -/

variable [DecidableEq α]

/-- Where the elements `as` are drawn. -/
def positions : List α → List α → List Nat
  | _,    []      => []
  | pool, a :: as => pool.idxOf a :: positions (pool.erase a) as

/-- **The positions can be read off.** -/
theorem positions_pick {is : List Nat} : ∀ {pool : List α}, pool.Nodup → Fits pool.length is →
    positions pool (pick pool is) = is := by
  induction is with
  | nil => exact fun _ _ => rfl
  | cons i is ih =>
      intro pool hnodup hfits
      obtain ⟨hi, hfits⟩ := hfits
      have hlen : (pool.eraseIdx i).length = pool.length - 1 := List.length_eraseIdx_of_lt hi
      rw [pick_cons is hi, positions, hnodup.idxOf_getElem i hi, hnodup.erase_getElem i hi,
        ih (hnodup.sublist (List.eraseIdx_sublist ..)) (by rw [hlen]; exact hfits)]

/-- **Different positions draw differently.** -/
theorem pick_inj {pool : List α} {is js : List Nat} (hpool : pool.Nodup) (his : Fits pool.length is)
    (hjs : Fits pool.length js) : pick pool is = pick pool js ↔ is = js := by
  constructor
  · intro h
    rw [← positions_pick hpool his, h, positions_pick hpool hjs]
  · intro h
    rw [h]

end Draw
