import NumberBaseball.Correctness.Attempts
import NumberBaseball.Correctness.DeadAccess
import NumberBaseball.Correctness.ChatLine
import NumberBaseball.Lib.Laps

/-!
# `Correctness.Latecomers` — how far beyond the limit a count can go

A player who logs in during a round begins at zero and keeps it going, and those who were there before are
charged on beyond their three attempts. `Lapped` keeps the laps of the round next to the server, whoever
comes or goes, and bounds them: with `n` entries in the roster no count exceeds `2 * n + 1`. For every `n`
from two on there is a run that gets there (`attempts_bounded_by_roster`).
-/

namespace NumberBaseball

open World Machine RoundRobin

variable {s s' : World} {e : Event}

/-! ## The laps of a round -/

/-- The server looks like the laps, as far as it has players. -/
structure Lapped (s : World) (L : Laps) : Prop where
  seats   : s.allPlayerControllers.length = L.seats
  turn    : s.currentTurnIndex = (L.turn : Nat)
  used    : ∀ i ps, s.stateAt i = some ps → ps.currentGuessCount = L.served i
  bounded : L.Bounded 2

/-- A charge leaves the limit at three. -/
theorem quota_charge (hwf : s.WellFormed) {t i : Nat} {ps : HwPlayerState}
    (hps : (s.charge t).stateAt i = some ps) : ps.maxGuessCount = 3 := by
  rw [stateAt_charge] at hps
  split at hps
  · obtain ⟨ps₀, hps₀, rfl⟩ := Option.map_eq_some_iff.mp hps
    exact (hwf.seatState hps₀).quota
  · exact (hwf.seatState hps).quota

theorem lt_length_charge {t i : Nat} {ps : HwPlayerState} (hps : (s.charge t).stateAt i = some ps) :
    i < s.allPlayerControllers.length := by
  obtain ⟨c, hget, -⟩ := stateAt_eq_some.mp hps
  have hi : i < (s.charge t).allPlayerControllers.length := (List.getElem?_eq_some_iff.mp hget).1
  exact hi.trans_eq (List.length_modify ..)

/-- A player state after a login is an old one, or the newcomer's. -/
theorem stateAt_joined_cases {i : Nat} {ps : HwPlayerState} (hps : s.joined.stateAt i = some ps) :
    i < s.allPlayerControllers.length ∧ s.stateAt i = some ps ∨
      i = s.allPlayerControllers.length ∧ ps.currentGuessCount = 0 := by
  obtain ⟨c, hc, -⟩ := stateAt_eq_some.mp hps
  have hlt : i < s.joined.allPlayerControllers.length := (List.getElem?_eq_some_iff.mp hc).1
  rw [show s.joined.allPlayerControllers.length = s.allPlayerControllers.length + 1 from
    List.length_append] at hlt
  rcases Nat.lt_or_eq_of_le (Nat.le_of_lt_succ hlt) with hold | rfl
  · rw [stateAt_joined_of_lt hold] at hps
    exact Or.inl ⟨hold, hps⟩
  · obtain ⟨ps', hps', hzero, -⟩ := stateAt_joined_last (s := s)
    rw [hps, Option.some.injEq] at hps'
    exact Or.inr ⟨rfl, hps' ▸ hzero⟩

namespace Lapped
variable {L : Laps}

/-- A round in which nobody has used anything, with the turn at one of the first two entries. -/
theorem fresh (turn : Nat) (hturn : s.currentTurnIndex = (turn : Nat))
    (h : turn = 0 ∨ turn = 1 ∧ 2 ≤ s.allPlayerControllers.length)
    (hunused : Unused s.allPlayerControllers) : ∃ L, Lapped s L := by
  refine ⟨Laps.fresh s.allPlayerControllers.length turn, rfl, hturn, ?_, .fresh (by decide) h⟩
  intro i ps hps
  obtain ⟨c, hc, hst⟩ := stateAt_eq_some.mp hps
  rw [Laps.served_fresh]
  exact hunused c (List.mem_of_getElem? hc) ps hst

/-- The laps do not see the clock, the calls or the secret. -/
theorem congr (h : Lapped s L) (hroster : s'.allPlayerControllers = s.allPlayerControllers)
    (hturn : s'.currentTurnIndex = s.currentTurnIndex) : Lapped s' L where
  seats := by rw [hroster]; exact h.seats
  turn := hturn.trans h.turn
  used i ps hps := by
    unfold World.stateAt at hps
    rw [hroster] at hps
    exact h.used i ps hps
  bounded := h.bounded

theorem joined (h : Lapped s L) (hwf : s.WellFormed) : Lapped s.joined L.join where
  seats := by
    show (s.allPlayerControllers ++ [_]).length = L.seats + 1
    rw [List.length_append, h.seats]
    rfl
  turn := h.turn
  used i ps hps := by
    rcases stateAt_joined_cases hps with ⟨hold, hps⟩ | ⟨rfl, hzero⟩
    · rw [Laps.served_join_of_lt (by rw [← h.seats]; exact hold)]
      exact h.used i ps hps
    · rw [hzero, h.seats, Laps.served_join_last]
      -- the turn is in the roster, or at zero
      have hturn := h.turn
      have hseats := h.seats
      by_cases hnil : s.allPlayerControllers = []
      · have := hwf.turn_empty hnil
        omega
      · have := hwf.turn_range hnil
        omega
  bounded := h.bounded.join (by decide)

theorem logout (h : Lapped s L) {pc : Nat} : Lapped (s.modify pc HwPlayerController.destroyed) L where
  seats := (List.length_modify ..).trans h.seats
  turn := h.turn
  used i ps hps := h.used i ps (stateAt_logout hps)
  bounded := h.bounded

/-- **The refinement step.** A charge that ends no round serves the seat at the turn. -/
theorem charge (h : Lapped s L) (hwf : s.WellFormed) (hc : s.charges e = true) (hm : Move s e s')
    (hgoes : ¬ RoundEnds s s') : Lapped s' L.serve := by
  have hw := hm.wins_eq_false hwf hgoes
  obtain ⟨t, secret, random, calls, hturn, -, -, heq⟩ := hm.of_charge hwf hc hw
  obtain ⟨hcur, hlt⟩ := turnHolder_eq_some.mp hturn
  have hex : (s.charge t).exhausted = false := by
    rw [← draws_iff hturn hc hw, ← Bool.not_eq_true]
    exact fun hd => hgoes ((hm.roundEnds_iff hwf).mpr (Or.inr hd))
  rw [settled_of_attempt hex] at heq
  subst heq
  have ht : L.turn = t := by
    have := h.turn
    omega
  have hlt' : t < L.seats := by rw [← h.seats]; exact hlt
  -- what the player states have become
  have hused : ∀ i ps, (s.charge t).stateAt i = some ps → ps.currentGuessCount = L.serve.served i := by
    intro i ps hps
    have hi : i < L.seats := by rw [← h.seats]; exact lt_length_charge hps
    rw [Laps.served_serve hi (by rw [ht]; exact hlt'), ht]
    rw [stateAt_charge] at hps
    by_cases hti : t = i
    · subst hti
      rw [if_pos rfl] at hps
      obtain ⟨ps₀, hps₀, rfl⟩ := Option.map_eq_some_iff.mp hps
      rw [if_pos rfl, ← h.used t ps₀ hps₀]
      rfl
    · rw [if_neg hti] at hps
      rw [if_neg (Ne.symm hti), Int.add_zero]
      exact h.used i ps hps
  -- somebody has an attempt left
  have hleft : ∃ i, i < L.seats ∧ L.serve.served i ≤ 2 := by
    by_contra hnone
    have hall : (s.charge t).exhausted = true := by
      refine exhausted_iff.mpr fun i ps hps => ?_
      have hi : i < L.seats := by rw [← h.seats]; exact lt_length_charge hps
      rw [quota_charge hwf hps, hused i ps hps]
      by_contra hlt
      exact hnone ⟨i, hi, by omega⟩
    rw [hex] at hall
    cases hall
  obtain ⟨i, hi, hserved⟩ := hleft
  refine ⟨?_, ?_, hused, h.bounded.serve (by decide) hi hserved⟩
  · rw [Laps.seats_serve, ← h.seats]
    exact List.length_modify ..
  · rw [Laps.turn_serve (by rw [ht]; exact hlt'), ht, ← h.seats]
    show (((s.charge t).nextSeat t : Nat) : Int) = _
    rw [nextSeat_charge_of_attempt hex]

end Lapped

/-- After a round the turn is at the first entry, or at the second one if there is one. -/
theorem Move.turn_of_roundEnds (hwf : s.WellFormed) (hm : Move s e s') (hend : RoundEnds s s') :
    ∃ turn : Nat, s'.currentTurnIndex = turn ∧
      (turn = 0 ∨ turn = 1 ∧ 2 ≤ s'.allPlayerControllers.length) := by
  cases hw : s.wins e with
  | true =>
      obtain ⟨t, c, ps, secret, random, calls, -, -, -, -, rfl⟩ := hm.of_win hw
      exact ⟨0, rfl, Or.inl rfl⟩
  | false =>
      have hdraw : s.draws e = true := by simpa [hw] using (hm.roundEnds_iff hwf).mp hend
      have hc := (charges_of_draws hdraw).1
      have hlen := hm.length_eq (isArrival_of_charges hc)
      obtain ⟨t, secret, random, calls, hturn, -, -, rfl⟩ := hm.of_charge hwf hc hw
      rw [draws_iff hturn hc hw] at hdraw
      refine ⟨(s.charge t).nextSeat t, rfl, ?_⟩
      obtain ⟨-, hlt⟩ := turnHolder_eq_some.mp hturn
      rw [hlen, nextSeat_charge_of_exhausted hdraw]
      rcases Nat.lt_or_ge 1 s.allPlayerControllers.length with h1 | h1
      · exact Or.inr ⟨Nat.mod_eq_of_lt h1, h1⟩
      · rw [show s.allPlayerControllers.length = 1 by omega]
        exact Or.inl rfl

/-- **The step lemma.** -/
theorem exists_lapped_move (hwf : s.WellFormed) (h : ∃ L, Lapped s L) (hm : Move s e s') :
    ∃ L, Lapped s' L := by
  by_cases hend : RoundEnds s s'
  · obtain ⟨turn, hturn, hseats⟩ := hm.turn_of_roundEnds hwf hend
    exact Lapped.fresh turn hturn hseats (hm.unused_of_roundEnds hwf hend)
  obtain ⟨L, h⟩ := h
  cases harr : e.isArrival with
  | true =>
      cases hm with
      | login => exact ⟨_, h.joined hwf⟩
      | logout => exact ⟨L, h.logout⟩
      | _ => cases harr
  | false =>
      cases hc : s.charges e with
      | true => exact ⟨_, h.charge hwf hc hm hend⟩
      | false =>
          obtain ⟨clock, calls, rfl⟩ := hm.of_idle hwf harr hc
          exact ⟨L, h.congr rfl rfl⟩

theorem lapped_of_reachable {kinds : Event → Prop} (h : (game .yieldsNull kinds).Reachable s) :
    ∃ L, Lapped s L := by
  refine h.invariant (I := fun s => ∃ L, Lapped s L) ?_ ?_
  · intro s hi
    have hf := game_init_fresh hi
    exact Lapped.fresh 0 hf.turn (Or.inl rfl) hf.unused
  · intro s e s' hr hI ha hs
    have hwf := wellFormed_of_reachable hr
    exact exists_lapped_move hwf hI (Move.of_handle hwf ha.2 hs)

/-! ## Playing on -/

/-- A number that is not the secret. -/
def wrongGuess (secret : FString) : FString := if secret = text "123" then text "456" else text "123"

theorem wrongGuess_ne (secret : FString) : wrongGuess secret ≠ secret := by
  unfold wrongGuess
  split
  · next h =>
      rw [h]
      decide
  · next h => exact fun heq => h heq.symm

theorem isGuess_wrongGuess (secret : FString) :
    lastThree (wrongGuess secret) = wrongGuess secret ∧ isGuessNumberString (wrongGuess secret) = true := by
  unfold wrongGuess
  split <;> decide

section Playing
variable {n : Nat} {T : Table n}

/-- Whoever has a seat at the table is connected. -/
theorem Seats.isConnected {M : Int} (h : Seats M s T) (i : Fin n) : s.isConnected i = true := by
  obtain ⟨ps, hps, -⟩ := h.used i
  obtain ⟨c, hc, hst⟩ := stateAt_eq_some.mp hps
  refine isConnected_iff.mpr ⟨c, hc, ?_⟩
  by_contra hv
  unfold HwPlayerController.state? at hst
  rw [if_neg hv] at hst
  cases hst

/-- The player at the turn can always guess wrong. -/
theorem exists_miss (hwf : s.WellFormed) (h : Seats 3 s T) : ∃ msg s',
    (game .yieldsNull noLogout).allowed s (.chat T.turn msg) ∧
    handle .yieldsNull s (.chat T.turn msg) = .ok s' ∧
    s.charges (.chat T.turn msg) = true ∧ s.wins (.chat T.turn msg) = false := by
  have hpc := h.isConnected T.turn
  obtain ⟨hlast, hguess⟩ := isGuess_wrongGuess s.secretNumberString
  obtain ⟨s', hs', -⟩ := handle_move (e := .chat T.turn (wrongGuess s.secretNumberString)) hwf hpc nofun
  refine ⟨wrongGuess s.secretNumberString, s', ⟨rfl, hpc⟩, hs', ?_, ?_⟩
  · exact inTurnGuess_iff.mpr ⟨h.turnHolder, by rw [hlast]; exact hguess⟩
  · rw [← Bool.not_eq_true, hwf.wins_iff, hlast]
    exact fun hwin => wrongGuess_ne _ hwin.2

/-- `k` wrong guesses serve the table `k` times, unless the round ends before. -/
theorem run_of_serves (hwf : s.WellFormed) (h : Seats 3 s T) (k : Nat)
    (hgo : ∀ k', k' ≤ k → 1 ≤ k' → ¬ AllAt 3 (Table.serve^[k'] T)) : ∃ es s',
      (game .yieldsNull noLogout).Run s es s' ∧ s'.WellFormed ∧ Seats 3 s' (Table.serve^[k] T) := by
  induction k with
  | zero => exact ⟨[], s, .nil, hwf, h⟩
  | succ k ih =>
      obtain ⟨es, s₁, hrun, hwf₁, hseats⟩ := ih fun k' hk' => hgo k' (Nat.le_succ_of_le hk')
      obtain ⟨msg, s₂, ha, hs₂, hc, hw⟩ := exists_miss hwf₁ hseats
      have hm := Move.of_handle hwf₁ ha.2 hs₂
      obtain ⟨hends, hnext⟩ := hseats.charge hwf₁ hc hw hm
      have hlast : (game .yieldsNull noLogout).Run s₁ [.chat (Table.serve^[k] T).turn msg] s₂ :=
        .single ha hs₂
      refine ⟨_, s₂, hrun.append hlast, hwf₁.move hm, ?_⟩
      rw [Function.iterate_succ_apply']
      refine hnext fun hend => hgo (k + 1) (Nat.le_refl _) (by omega) ?_
      rw [Function.iterate_succ_apply']
      exact hends.mp hend

end Playing

/-! ## A crowd that has come one by one -/

/-- The table at which the bound is met: everybody has come when the player before was about to use the
    last attempt. -/
def crowd (n : Nat) : Table (n + 1) where
  turn := Fin.last n
  used i := if (i : Nat) = n then 2 else 2 * ((n : Int) + 1 - i) + 1

theorem ahead_join_crowd (n : Nat) (i : Fin (n + 2)) : (crowd n).join.ahead i = (i + 2) % (n + 2) := by
  show ((i : Nat) + (n + 2) - n) % (n + 2) = _
  rw [show (i : Nat) + (n + 2) - n = i + 2 by omega]

/-- One more player, and after two laps and a bit that player is about to use the last attempt. -/
theorem crowd_succ (n : Nat) : Table.serve^[2 * n + 5] (crowd n).join = crowd (n + 1) := by
  have hturn : (Table.serve^[2 * n + 5] (crowd n).join).turn = (crowd (n + 1)).turn := by
    apply Fin.ext
    rw [Table.serve_iterate_turn]
    show (n + (2 * n + 5)) % (n + 2) = n + 1
    rw [show n + (2 * n + 5) = n + 1 + (n + 2) * 2 by ring, Nat.add_mul_mod_self_left,
      Nat.mod_eq_of_lt (by omega)]
  refine Table.ext hturn (funext fun i => ?_)
  have hi := i.isLt
  rw [Table.serve_iterate_used, ahead_join_crowd]
  show (if h : (i : Nat) < n + 1 then (if (i : Nat) = n then (2 : Int) else 2 * ((n : Int) + 1 - i) + 1) else 0)
    + _ = if (i : Nat) = n + 1 then 2 else 2 * (((n + 1 : Nat) : Int) + 1 - i) + 1
  rcases Nat.lt_trichotomy i n with hlt | heq | hgt
  · -- two more for whoever was there before
    have hshare : Table.share (n + 2) (2 * n + 5) ((i + 2) % (n + 2)) = 2 := by
      rw [Nat.mod_eq_of_lt (by omega), Table.share_eq_iff (by omega)]
      omega
    rw [hshare, dif_pos (by omega), if_neg (by omega), if_neg (by omega)]
    omega
  · -- the player at the turn is served at both ends
    have hshare : Table.share (n + 2) (2 * n + 5) ((i + 2) % (n + 2)) = 3 := by
      rw [heq, Nat.mod_self, Table.share_eq_iff (by omega)]
      omega
    rw [hshare, dif_pos (by omega), if_pos heq, if_neg (by omega)]
    omega
  · have hshare : Table.share (n + 2) (2 * n + 5) ((i + 2) % (n + 2)) = 2 := by
      rw [show (i : Nat) + 2 = 1 + (n + 2) by omega, Nat.add_mod_right, Nat.mod_eq_of_lt (by omega),
        Table.share_eq_iff (by omega)]
      omega
    rw [hshare, dif_neg (by omega), if_pos (by omega)]
    rfl

/-- So long the newcomer has an attempt left. -/
theorem crowd_goes_on (n k : Nat) (hk : k ≤ 2 * n + 5) : ¬ AllAt 3 (Table.serve^[k] (crowd n).join) := by
  intro hall
  have hshare : Table.share (n + 2) k ((n + 1 + 2) % (n + 2)) < 3 := by
    rw [show n + 1 + 2 = 1 + (n + 2) by omega, Nat.add_mod_right, Nat.mod_eq_of_lt (by omega)]
    unfold Table.share
    exact Nat.div_lt_of_lt_mul (by omega)
  have hused : (Table.serve^[k] (crowd n).join).used (Fin.last (n + 1))
      = (Table.share (n + 2) k ((n + 1 + 2) % (n + 2)) : Nat) := by
    rw [Table.serve_iterate_used, ahead_join_crowd]
    simp [Table.join]
  have hlast := hall (Fin.last (n + 1))
  rw [hused] at hlast
  omega

/-- The first player, before the first turn. -/
theorem seats_first : Seats 3 emptyServer.joined (⟨0, fun _ => 0⟩ : Table 1) := by
  refine ⟨rfl, rfl, fun i => ?_⟩
  obtain rfl : i = 0 := Subsingleton.elim ..
  exact ⟨_, rfl, rfl, rfl⟩

/-- Any number of players can come like this. -/
theorem exists_crowd (n : Nat) : ∃ s, (game .yieldsNull noLogout).Reachable s ∧ Seats 3 s (crowd n) := by
  induction n with
  | zero =>
      -- one player, who misses twice
      have hlogin : (game .yieldsNull noLogout).Run emptyServer [.login true] emptyServer.joined :=
        .single ⟨rfl, rfl⟩ login_ok
      have hr := Reachable.run (.init emptyServer_init) hlogin
      have hgo : ∀ k, k ≤ 2 → 1 ≤ k → ¬ AllAt 3 (Table.serve^[k] (⟨0, fun _ => 0⟩ : Table 1)) := by
        intro k hk _ hall
        have hzero := hall 0
        rw [Table.serve_iterate_used] at hzero
        have hshare : ∀ a, Table.share 1 k a ≤ k := by
          intro a
          unfold Table.share
          omega
        have := hshare ((⟨0, fun _ => 0⟩ : Table 1).ahead 0)
        change (3 : Int) ≤ 0 + _ at hzero
        omega
      obtain ⟨es, s', hrun, -, hseats'⟩ := run_of_serves (wellFormed_of_reachable hr) seats_first 2 hgo
      have hcrowd : Table.serve^[2] (⟨0, fun _ => 0⟩ : Table 1) = crowd 0 := by
        refine Table.ext (Subsingleton.elim ..) (funext fun i => ?_)
        obtain rfl : i = 0 := Subsingleton.elim ..
        rfl
      rw [hcrowd] at hseats'
      exact ⟨s', hr.run hrun, hseats'⟩
  | succ n ih =>
      obtain ⟨s, hr, hseats⟩ := ih
      have hwf := wellFormed_of_reachable hr
      have hlogin : (game .yieldsNull noLogout).Run s [.login true] s.joined := .single ⟨rfl, rfl⟩ login_ok
      obtain ⟨es, s', hrun, -, hseats'⟩ := run_of_serves (hwf.move .login) hseats.joined (2 * n + 5)
        fun k hk _ => crowd_goes_on n k hk
      rw [crowd_succ] at hseats'
      exact ⟨s', hr.run (hlogin.append hrun), hseats'⟩

/-- **How far beyond the limit a count can go.** In every state reached, with `n` entries in the roster no
    count exceeds `2 * n + 1`, whoever came and went when. And no smaller bound would do: for every `n`
    from two on, a run without a disconnect leads to `n` players of whom the first has used `2 * n + 1`.
    From `n = 2 ^ 30` on that is no `int32` any more, which the source counts in. -/
theorem attempts_bounded_by_roster :
    (∀ acc s, (game acc everyEvent).Reachable s → ∀ i ps, s.stateAt i = some ps →
      ps.currentGuessCount ≤ 2 * s.allPlayerControllers.length + 1) ∧
    ∀ n, 2 ≤ n → ∃ s ps, (game .yieldsNull noLogout).Reachable s ∧ s.allPlayerControllers.length = n ∧
      s.stateAt 0 = some ps ∧ ps.currentGuessCount = 2 * n + 1 := by
  constructor
  · intro acc s h i ps hps
    obtain ⟨L, hL⟩ := lapped_of_reachable (reachable_yieldsNull h)
    rw [hL.used i ps hps, hL.seats]
    exact hL.bounded.served_le i
  · intro n hn
    obtain ⟨n, rfl⟩ : ∃ m, n = m + 1 := ⟨n - 1, by omega⟩
    obtain ⟨s, hr, hseats⟩ := exists_crowd n
    obtain ⟨ps, hps, hcount, -⟩ := hseats.used 0
    refine ⟨s, ps, hr, hseats.length, hps, ?_⟩
    rw [hcount]
    show (if (0 : Nat) = n then (2 : Int) else 2 * ((n : Int) + 1 - (0 : Nat)) + 1) = _
    rw [if_neg (by omega)]
    omega

end NumberBaseball
