import Mathlib.Data.List.Infix

/-!
# `Lib.Channel` — reliable ordered channels, and what is read from two of them

A **channel** carries values one way, in order and without loss. It keeps what has been delivered next to
what is still in flight, so that "nothing is lost, doubled or reordered" is a statement about one list,
the `history`: sending extends it, receiving leaves it alone (`history_send`, `history_receive`), and what
has been delivered is a prefix of it (`delivered_isPrefix`).

A reader of two channels sees a **merge** of their deliveries: each in its own order, the two in any.
-/

variable {α : Type}

/-- A one-way channel: the values that have arrived and those under way, oldest first. -/
structure Channel (α : Type) where
  delivered : List α
  inFlight  : List α
deriving DecidableEq, Repr

namespace Channel

/-- A channel on which nothing has been sent. -/
def empty : Channel α := ⟨[], []⟩

/-- Everything that has ever been sent. -/
def history (c : Channel α) : List α := c.delivered ++ c.inFlight

/-- Put more values under way. -/
def send (c : Channel α) (as : List α) : Channel α := { c with inFlight := c.inFlight ++ as }

/-- The oldest value under way arrives. -/
def receive (c : Channel α) : Option (α × Channel α) :=
  match c.inFlight with
  | []      => none
  | a :: as => some (a, ⟨c.delivered ++ [a], as⟩)

variable {c d : Channel α} {a : α} {as : List α}

@[simp] theorem send_nil : c.send [] = c := by
  simp [send]

@[simp] theorem delivered_send : (c.send as).delivered = c.delivered := rfl

@[simp] theorem inFlight_send : (c.send as).inFlight = c.inFlight ++ as := rfl

@[simp] theorem history_send : (c.send as).history = c.history ++ as := by
  simp [history]

theorem receive_eq_some :
    c.receive = some (a, d) ↔ c.inFlight = a :: d.inFlight ∧ d.delivered = c.delivered ++ [a] := by
  obtain ⟨del, fly⟩ := c
  obtain ⟨del', fly'⟩ := d
  cases fly with
  | nil => simp [receive]
  | cons b bs =>
      simp only [receive, Option.some.injEq, Prod.mk.injEq, Channel.mk.injEq, List.cons.injEq]
      constructor
      · rintro ⟨rfl, rfl, rfl⟩
        exact ⟨⟨rfl, rfl⟩, rfl⟩
      · rintro ⟨⟨rfl, rfl⟩, rfl⟩
        exact ⟨rfl, rfl, rfl⟩

theorem receive_eq_none : c.receive = none ↔ c.inFlight = [] := by
  unfold receive
  cases c.inFlight <;> simp

/-- Delivery takes nothing out of the history. -/
theorem history_receive (h : c.receive = some (a, d)) : d.history = c.history := by
  obtain ⟨hfly, hdel⟩ := receive_eq_some.mp h
  rw [history, history, hfly, hdel, List.append_assoc, List.singleton_append]

/-- What has arrived is the beginning of what was sent. -/
theorem delivered_isPrefix (c : Channel α) : c.delivered <+: c.history := List.prefix_append ..

/-- When nothing is under way everything has arrived. -/
theorem delivered_eq_history (h : c.inFlight = []) : c.delivered = c.history := by
  rw [history, h, List.append_nil]

end Channel

/-! ## Merges -/

/-- `Merges xs ys zs`: `zs` was written by appending the members of `xs` and of `ys`, each in order. -/
inductive Merges : List α → List α → List α → Prop
  | nil : Merges [] [] []
  | left {xs ys zs : List α} {a : α} : Merges xs ys zs → Merges (xs ++ [a]) ys (zs ++ [a])
  | right {xs ys zs : List α} {a : α} : Merges xs ys zs → Merges xs (ys ++ [a]) (zs ++ [a])

namespace Merges
variable {xs ys zs : List α}

/-- A whole list appended on the left. -/
theorem appendLeft (h : Merges xs ys zs) (as : List α) : Merges (xs ++ as) ys (zs ++ as) := by
  induction as generalizing xs zs with
  | nil => simpa using h
  | cons a as ih => simpa using ih (h.left (a := a))

/-- What picks nothing out of the right list picks the same out of the merge as out of the left list. -/
theorem filter_left {p : α → Bool} (h : Merges xs ys zs) (hys : ∀ y ∈ ys, p y = false) :
    zs.filter p = xs.filter p := by
  induction h with
  | nil => rfl
  | left _ ih => rw [List.filter_append, List.filter_append, ih hys]
  | @right xs ys zs a _ ih =>
      have hys' := List.forall_mem_append.mp hys
      have ha : ¬ p a = true := by simp [hys'.2 a List.mem_cons_self]
      rw [List.filter_append, ih hys'.1, List.filter_cons_of_neg ha, List.filter_nil, List.append_nil]

/-- A whole list appended on the right. -/
theorem appendRight (h : Merges xs ys zs) (bs : List α) : Merges xs (ys ++ bs) (zs ++ bs) := by
  induction bs generalizing ys zs with
  | nil => simpa using h
  | cons b bs ih => simpa using ih (h.right (a := b))

end Merges
