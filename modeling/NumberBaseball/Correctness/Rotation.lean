import NumberBaseball.Correctness.Turns
import NumberBaseball.Lib.RoundRobin

/-!
# `Correctness.Rotation` — a round is a round-robin table

`Seats M s T` says that the server `s` looks like the abstract table `T`: everybody in the roster is
connected, the turns agree, and so do the counts. `Seats.charge` is the refinement step: a charge that
ends no round serves the table once, and it ends the round exactly when the service leaves everybody at
the limit `M`; moves that charge nobody leave the table alone. What a round does is then read off the
closed form of `k` services.
-/

namespace NumberBaseball

open World Machine RoundRobin

variable {s s' : World} {e : Event} {n : Nat} {M : Int} {T : Table n}

/-! ## The refinement -/

/-- The server looks like the table, with everybody connected and limited to `M`. -/
structure Seats (M : Int) (s : World) (T : Table n) : Prop where
  length : s.allPlayerControllers.length = n
  turn   : s.currentTurnIndex = (T.turn : Nat)
  used   : ∀ i : Fin n, ∃ ps, s.stateAt i = some ps ∧ ps.currentGuessCount = T.used i ∧
    ps.maxGuessCount = M

namespace Seats

/-- The table does not see the clock, the calls or the secret. -/
theorem congr (h : Seats M s T) (hroster : s'.allPlayerControllers = s.allPlayerControllers)
    (hturn : s'.currentTurnIndex = s.currentTurnIndex) : Seats M s' T where
  length := by rw [hroster]; exact h.length
  turn := hturn.trans h.turn
  used i := by
    unfold World.stateAt
    rw [hroster]
    exact h.used i

theorem turnHolder (h : Seats M s T) : s.turnHolder = some (T.turn : Nat) :=
  turnHolder_eq_some.mpr ⟨h.turn, by rw [h.length]; exact T.turn.isLt⟩

/-- A state of a seated player is the one the table knows. -/
theorem stateAt (h : Seats M s T) {i : Nat} {ps : HwPlayerState} (hps : s.stateAt i = some ps) :
    ∃ hi : i < n, ps.currentGuessCount = T.used ⟨i, hi⟩ ∧ ps.maxGuessCount = M := by
  obtain ⟨c, hc, -⟩ := stateAt_eq_some.mp hps
  obtain ⟨hlt, -⟩ := List.getElem?_eq_some_iff.mp hc
  rw [h.length] at hlt
  obtain ⟨ps', hps', hcount, hmax⟩ := h.used ⟨i, hlt⟩
  rw [hps, Option.some.injEq] at hps'
  subst hps'
  exact ⟨hlt, hcount, hmax⟩

/-- Nobody has an attempt left exactly when the table has everybody at `M`. -/
theorem exhausted_iff (h : Seats M s T) : s.exhausted = true ↔ ∀ i, M ≤ T.used i := by
  rw [NumberBaseball.exhausted_iff]
  constructor
  · intro hall i
    obtain ⟨ps, hps, hcount, hmax⟩ := h.used i
    rw [← hcount, ← hmax]
    exact hall i ps hps
  · intro hall i ps hps
    obtain ⟨hi, hcount, hmax⟩ := h.stateAt hps
    rw [hcount, hmax]
    exact hall ⟨i, hi⟩

/-- The charge itself: the seat at the turn is charged, and the turn stays. -/
theorem charged (h : Seats M s T) : Seats M (s.charge T.turn)
    { T with used := T.serve.used } where
  length := (List.length_modify ..).trans h.length
  turn := h.turn
  used i := by
    obtain ⟨ps, hps, hcount, hmax⟩ := h.used i
    rw [stateAt_charge, hps]
    show ∃ ps', _ ∧ _ = Function.update T.used T.turn (T.used T.turn + 1) i ∧ _
    by_cases hi : i = T.turn
    · subst hi
      rw [if_pos rfl, Function.update_self, ← hcount]
      exact ⟨_, rfl, rfl, hmax⟩
    · rw [if_neg fun heq => hi (Fin.ext heq.symm), Function.update_of_ne hi]
      exact ⟨ps, rfl, hcount, hmax⟩

/-- **The refinement step.** A charge that does not win serves the table once; it ends the round exactly
    when the service leaves everybody at the limit. -/
theorem charge (h : Seats M s T) (hwf : s.WellFormed) (hc : s.charges e = true)
    (hw : s.wins e = false) (hm : Move s e s') :
    (RoundEnds s s' ↔ ∀ i, M ≤ T.serve.used i) ∧ (¬ RoundEnds s s' → Seats M s' T.serve) := by
  obtain ⟨t, secret, random, calls, hturn, -, -, heq⟩ := hm.of_charge hwf hc hw
  rw [h.turnHolder, Option.some.injEq] at hturn
  subst hturn
  have hends : RoundEnds s s' ↔ (s.charge T.turn).exhausted = true := by
    rw [hm.roundEnds_iff hwf, hw, draws_iff h.turnHolder hc hw]
    simp
  refine ⟨hends.trans h.charged.exhausted_iff, fun hgoes => ?_⟩
  -- the round goes on, so settling only passes the turn
  rw [hends, Bool.not_eq_true] at hgoes
  rw [settled_of_attempt hgoes] at heq
  refine Seats.congr (s := { s.charge T.turn with currentTurnIndex := T.serve.turn })
    ⟨h.charged.length, rfl, h.charged.used⟩ (by rw [heq]; rfl) ?_
  rw [heq]
  show (((s.charge T.turn).nextSeat T.turn : Nat) : Int) = (((T.turn + 1) % n : Nat) : Int)
  rw [nextSeat_charge_of_attempt hgoes, h.length]

/-- Whatever does not win ends the round exactly as a charge that leaves everybody at the limit. -/
theorem roundEnds_iff (h : Seats M s T) (hwf : s.WellFormed) (hw : s.wins e = false)
    (hm : Move s e s') : RoundEnds s s' ↔ s.charges e = true ∧ ∀ i, M ≤ T.serve.used i := by
  cases hc : s.charges e with
  | true => simpa using (h.charge hwf hc hw hm).1
  | false =>
      refine iff_of_false (fun hend => hend (hm.secret_eq hwf hc).2) ?_
      exact fun h => Bool.false_ne_true h.1

/-- A move that charges nobody, and is no arrival, leaves the table alone. -/
theorem idle (h : Seats M s T) (hwf : s.WellFormed) (he : e.isArrival = false)
    (hc : s.charges e = false) (hm : Move s e s') : Seats M s' T := by
  obtain ⟨clock, calls, rfl⟩ := hm.of_idle hwf he hc
  exact h.congr rfl rfl

end Seats

/-! ## A whole round -/

/-- Nobody comes or goes. -/
def midRound (e : Event) : Prop := e.isArrival = false

instance : DecidablePred midRound := fun e => inferInstanceAs (Decidable (e.isArrival = false))

/-- The server while nobody comes or goes, with the number of turns charged so far. -/
def tallied : Machine (World × Nat) Event Fault :=
  (game .yieldsNull midRound).track (fun _ => 0) (fun s e _ k => if s.charges e then k + 1 else k)

instance (p : World × Nat) (e : Event) : Decidable (tallied.allowed p e) :=
  inferInstanceAs (Decidable ((game .yieldsNull midRound).allowed p.1 e))

/-- Every seat has used at least `M`. -/
def AllAt (M : Int) (T : Table n) : Prop := ∀ i, M ≤ T.used i

/-- As long as the round that was on in `s` goes on, `k` charged turns are `k` services, and no service
    so far has left everybody at the limit. -/
structure InRound (M : Int) (s : World) (T : Table n) (u : World) (k : Nat) : Prop where
  wellFormed : u.WellFormed
  generated  : s.secretsGenerated ≤ u.secretsGenerated
  seats      : u.secretsGenerated = s.secretsGenerated → Seats M u (Table.serve^[k] T) ∧
    ∀ k', 1 ≤ k' → k' ≤ k → ¬ AllAt M (Table.serve^[k'] T)

/-- **The step lemma.** -/
theorem InRound.move {u u' : World} {k : Nat} (h : InRound M s T u k) (he : e.isArrival = false)
    (hm : Move u e u') : InRound M s T u' (if u.charges e then k + 1 else k) := by
  have hle := hm.generated_le h.wellFormed
  have hgen := h.generated
  refine ⟨h.wellFormed.move hm, by omega, fun hsame => ?_⟩
  obtain ⟨hseats, hbefore⟩ := h.seats (by omega)
  have hgoes : ¬ RoundEnds u u' := by
    unfold RoundEnds
    omega
  cases hc : u.charges e with
  | false => exact ⟨hseats.idle h.wellFormed he hc hm, hbefore⟩
  | true =>
      have hw := hm.wins_eq_false h.wellFormed hgoes
      obtain ⟨hends, hnext⟩ := hseats.charge h.wellFormed hc hw hm
      rw [if_pos rfl, Function.iterate_succ_apply']
      refine ⟨hnext hgoes, fun k' h1 hk' => ?_⟩
      -- the services before this one have not ended the round, and neither has this one
      rcases Nat.lt_or_ge k' (k + 1) with hlt | hge
      · exact hbefore k' h1 (by omega)
      · obtain rfl : k' = k + 1 := by omega
        rw [Function.iterate_succ_apply']
        exact fun hall => hgoes (hends.mpr hall)

/-- **The run lemma.** -/
theorem inRound_of_run {u : World} {k : Nat} {es : List Event} (hwf : s.WellFormed)
    (h : Seats M s T) (hrun : tallied.Run (s, 0) es (u, k)) : InRound M s T u k := by
  refine hrun.invariant (I := fun p => InRound M s T p.1 p.2) ?_
    ⟨hwf, Nat.le_refl _, fun _ => ⟨h, fun k' h1 h0 => by omega⟩⟩
  rintro ⟨u, k⟩ e ⟨u', k'⟩ hI ha hs
  obtain ⟨hs, hk⟩ := track_step_ok.mp hs
  have hm := Move.of_handle hI.wellFormed ha.2 hs
  rw [show k' = _ from hk]
  exact hI.move ha.1 hm

/-! ## The closed form -/

/-- What the player `j` places past the turn `start` has used `k` charged turns later, when the counts
    were `c`. -/
def usedAfter (n start : Nat) (c : Nat → Int) (k j : Nat) : Int :=
  c ((start + j) % n) + ((k + n - 1 - j) / n : Nat)

/-- Everybody is at the limit `k` charged turns later. -/
def AllUsed (n start : Nat) (c : Nat → Int) (M : Int) (k : Nat) : Prop :=
  ∀ j < n, M ≤ usedAfter n start c k j

/-- The table that starts at `start` with the counts `c`. -/
def startTable {n start : Nat} (hstart : start < n) (c : Nat → Int) : Table n where
  turn := ⟨start, hstart⟩
  used i := c i

section ClosedForm
variable {start : Nat} {c : Nat → Int} (hstart : start < n)

theorem startTable_used (k : Nat) {j : Nat} (hj : j < n) :
    (Table.serve^[k] (startTable hstart c)).used ⟨(start + j) % n, Nat.mod_lt _ (by omega)⟩
      = usedAfter n start c k j := by
  rw [Table.serve_iterate_used, Table.ahead_of_eq hj rfl]
  rfl

theorem allAt_startTable_iff {k : Nat} :
    AllAt M (Table.serve^[k] (startTable hstart c)) ↔ AllUsed n start c M k := by
  constructor
  · intro h j hj
    rw [← startTable_used hstart k hj]
    exact h _
  · intro h i
    have hj := (startTable hstart c).ahead_lt i
    have hi : i = ⟨(start + (startTable hstart c).ahead i) % n, Nat.mod_lt _ (by omega)⟩ :=
      Fin.ext ((startTable hstart c).eq_of_ahead i)
    rw [hi, startTable_used hstart k hj]
    exact h _ hj

/-- `M` laps charge everybody `M` times. -/
theorem usedAfter_laps (M : Nat) {j : Nat} (hj : j < n) :
    usedAfter n start c (n * M) j = c ((start + j) % n) + M := by
  rw [usedAfter, show (n * M + n - 1 - j) / n = M from Table.share_laps M hj]

/-- So they bring everybody to the limit `M`, wherever the counts began. -/
theorem allUsed_laps (h0 : ∀ i < n, 0 ≤ c i) (M : Nat) : AllUsed n start c M (n * M) := by
  intro j hj
  rw [usedAfter_laps M hj]
  have := h0 ((start + j) % n) (Nat.mod_lt _ (by omega))
  omega

include hstart in
/-- When the counts began at zero, no fewer do. -/
theorem allUsed_iff_of_zero (hzero : ∀ i < n, c i = 0) (M k : Nat) :
    AllUsed n start c M k ↔ n * M ≤ k := by
  have hdue : (startTable hstart c).Due M (n * M) := Table.due_fresh (fun i => hzero i i.isLt) M
  exact (allAt_startTable_iff hstart).symm.trans hdue.spent_iterate_iff

end ClosedForm

/-! ## Fairness and the length of a round -/

/-- **Round-robin fairness and the length of a round.** Take a reachable state in which everybody in the
    roster is connected, with `M` attempts each. While nobody comes or goes and the round goes on, after
    `k` charged turns the turn has moved `k` places, and everybody has been charged as often as `k` turns
    around the roster pass by; the round ends without a winner exactly at the first charge that leaves
    everybody at the limit. That takes at most `n * M` charges, and exactly so many, `M` for each player,
    when the round began with all counts zero. -/
theorem round_robin_fairness {s : World} {n start M : Nat} {c : Nat → Int}
    (hs : (game .yieldsNull everyEvent).Reachable s) (hpos : 0 < n)
    (hn : s.allPlayerControllers.length = n) (hstart : s.currentTurnIndex = start)
    (hseats : ∀ i < n, ∃ ps, s.stateAt i = some ps ∧ ps.currentGuessCount = c i ∧
      ps.maxGuessCount = M) :
    (∀ es u k, tallied.Run (s, 0) es (u, k) → u.secretsGenerated = s.secretsGenerated →
      u.currentTurnIndex = ((start + k) % n : Nat) ∧
      (∀ j < n, ∃ ps, u.stateAt ((start + j) % n) = some ps ∧
        ps.currentGuessCount = usedAfter n start c k j) ∧
      (∀ k', 1 ≤ k' → k' ≤ k → ¬ AllUsed n start c M k') ∧
      ∀ e u', e.isArrival = false → u.admits e = true → handle .yieldsNull u e = .ok u' →
        u.wins e = false → (RoundEnds u u' ↔ u.charges e = true ∧ AllUsed n start c M (k + 1))) ∧
    (∃ k, 1 ≤ k ∧ k ≤ n * M ∧ AllUsed n start c M k) ∧
    ((∀ i < n, c i = 0) → (∀ k, AllUsed n start c M k ↔ n * M ≤ k) ∧
      ∀ j < n, usedAfter n start c (n * M) j = M) := by
  have hwf := wellFormed_of_reachable hs
  have hlt : start < n := by
    have := (hwf.turn_range (List.ne_nil_of_length_pos (by omega))).2
    omega
  have htable : Seats M s (startTable hlt c) := ⟨hn, hstart, fun i => hseats i i.isLt⟩
  refine ⟨?_, ?_, ?_⟩
  · intro es u k hrun hsame
    obtain ⟨hwfu, -, hround⟩ := inRound_of_run hwf htable hrun
    obtain ⟨htable', hbefore⟩ := hround hsame
    refine ⟨?_, ?_, ?_, ?_⟩
    · rw [htable'.turn, Table.serve_iterate_turn]
      rfl
    · intro j hj
      obtain ⟨ps, hps, hcount, -⟩ := htable'.used ⟨(start + j) % n, Nat.mod_lt _ hpos⟩
      exact ⟨ps, hps, hcount.trans (startTable_used hlt k hj)⟩
    · intro k' h1 hk' hall
      exact hbefore k' h1 hk' ((allAt_startTable_iff hlt).mpr hall)
    · intro e u' he ha hstep hw
      rw [htable'.roundEnds_iff hwfu hw (Move.of_handle hwfu ha hstep), ← allAt_startTable_iff hlt,
        Function.iterate_succ_apply']
      rfl
  · obtain ⟨ps, hps, -, hmax⟩ := hseats 0 hpos
    have hM : M = 3 := by
      have := (hwf.seatState hps).quota
      omega
    refine ⟨n * M, by rw [hM]; omega, Nat.le_refl _, allUsed_laps (fun i hi => ?_) M⟩
    obtain ⟨ps, hps, hcount, -⟩ := hseats i hi
    rw [← hcount]
    exact (hwf.seatState hps).count
  · intro hzero
    refine ⟨allUsed_iff_of_zero hlt hzero M, fun j hj => ?_⟩
    rw [usedAfter_laps M hj, hzero _ (Nat.mod_lt _ hpos), Int.zero_add]

/-- Two players at the beginning of the first round: after five wrong guesses in turn the second player has one
    attempt left, and the sixth ends the round. -/
theorem round_robin_fairness_two :
    let es := [.chat 0 (text "456"), .chat 1 (text "456"), .chat 0 (text "456"), .chat 1 (text "456"),
      .chat 0 (text "456")]
    ∃ u u', tallied.Run (emptyServer.joined.joined, 0) es (u, 5) ∧
      u.currentTurnIndex = ((0 + 5) % 2 : Nat) ∧
      (∀ j < 2, ∃ ps, u.stateAt ((0 + j) % 2) = some ps ∧
        ps.currentGuessCount = usedAfter 2 0 (fun _ => 0) 5 j) ∧
      (∀ k', 1 ≤ k' → k' ≤ 5 → ¬ AllUsed 2 0 (fun _ => 0) 3 k') ∧
      handle .yieldsNull u (.chat 1 (text "456")) = .ok u' ∧ RoundEnds u u' ∧
      (∃ k, 1 ≤ k ∧ k ≤ 2 * 3 ∧ AllUsed 2 0 (fun _ => 0) 3 k) ∧
      ∀ j < 2, usedAfter 2 0 (fun _ => 0) (2 * 3) j = 3 := by
  intro es
  have hlogins : (game .yieldsNull everyEvent).Run emptyServer [.login true, .login true]
      emptyServer.joined.joined := .cons ⟨trivial, rfl⟩ login_ok (.single ⟨trivial, rfl⟩ login_ok)
  have hr : (game .yieldsNull everyEvent).Reachable emptyServer.joined.joined :=
    .run (.init emptyServer_init) hlogins
  have hseats : ∀ i < 2, ∃ ps, emptyServer.joined.joined.stateAt i = some ps ∧
      ps.currentGuessCount = 0 ∧ ps.maxGuessCount = (3 : Nat) := by
    intro i hi
    have hview : ∀ i < 2, (emptyServer.joined.joined.stateAt i).map
        (fun ps => (ps.currentGuessCount, ps.maxGuessCount)) = some (0, 3) := by decide +kernel
    obtain ⟨ps, hps, heq⟩ := Option.map_eq_some_iff.mp (hview i hi)
    exact ⟨ps, hps, (Prod.mk.inj heq).1, (Prod.mk.inj heq).2⟩
  obtain ⟨hrounds, hsome, hzero⟩ := round_robin_fairness (n := 2) (M := 3) (c := fun _ => 0) hr
    (by decide) rfl rfl hseats
  obtain ⟨hspent, hused⟩ := hzero fun _ _ => rfl
  obtain ⟨⟨u, k⟩, q, hrun, ha, hs, hview⟩ := Run.exists_step_view (M := tallied)
    (s := (emptyServer.joined.joined, 0)) es (.chat 1 (text "456"))
    (fun p _ => (p.2, [p.1.charges (.chat 1 (text "456")), p.1.wins (.chat 1 (text "456"))],
      p.1.secretsGenerated))
    (b := (5, [true, false], emptyServer.joined.joined.secretsGenerated)) (by decide +kernel)
  simp only [Prod.mk.injEq, List.cons.injEq, and_true] at hview
  obtain ⟨rfl, ⟨hcharges, hwins⟩, hsame⟩ := hview
  obtain ⟨hturn, hcounts, hbefore, hends⟩ := hrounds es u 5 hrun hsame
  have hhandle := (track_step_ok.mp hs).1
  exact ⟨u, q.1, hrun, hturn, hcounts, hbefore, hhandle,
    (hends _ _ rfl ha.2 hhandle hwins).mpr ⟨hcharges, (hspent 6).mpr (by decide)⟩, hsome, hused⟩

end NumberBaseball
