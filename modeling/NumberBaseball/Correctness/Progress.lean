import NumberBaseball.Correctness.Latecomers
import NumberBaseball.Correctness.DeadSeats

/-!
# `Correctness.Progress` — what must happen, what can, and what never will

As long as everybody in the roster is connected and nobody comes or goes, a round takes at most 48 ticks
for every player, whatever is chatted meanwhile, and it may take as many (`round_ends_within`). If the
player at the turn has left, nothing happens any more, and no login, logout, chat line or tick helps
(`dead_turn_freezes`). So a round can still be finished exactly when the turn is not at a destroyed
controller (`round_can_end_iff`).
-/

namespace NumberBaseball

open World Machine RoundRobin

variable {s s' : World} {e : Event}

/-! ## What must happen -/

/-- While the round goes on and the turn is at a connected player, a tick takes a second off the clock, or
    winds it up from zero when it charges. -/
theorem Move.clock_of_tick (hwf : s.WellFormed) (hholder : s.holderConnected = true)
    (hm : Move s .tick s') :
    s'.remainingTime + 1 = s.remainingTime + if s.charges .tick then 16 else 0 := by
  obtain ⟨t, hturn, hpc⟩ := holderConnected_iff.mp hholder
  cases hm with
  | timeout hturn' hpc' h0 =>
      rw [charges_tick, (timesOut_iff hwf).mpr ⟨h0, hholder⟩, settled_remainingTime, h0]
      rfl
  | counted hpos =>
      have hc : s.timesOut = false := by
        rw [← Bool.not_eq_true, timesOut_iff hwf]
        exact fun h => absurd h.1 (by omega)
      rw [charges_tick, hc]
      show s.remainingTime - 1 + 1 = s.remainingTime + 0
      omega
  | rewound hturn' hpc' =>
      rw [hturn, Option.some.injEq] at hturn'
      rw [← hturn', hpc] at hpc'
      cases hpc'
  | deserted hnone =>
      rw [hturn] at hnone
      cases hnone

/-- Anything else leaves the clock alone, or winds it up when it charges. -/
theorem Move.clock_le (hwf : s.WellFormed) (hholder : s.holderConnected = true)
    (he : e.isArrival = false) (hm : Move s e s') :
    s'.remainingTime + (if e == .tick then 1 else 0)
      ≤ s.remainingTime + (if s.charges e then 16 else 0) := by
  cases e with
  | login _ => cases he
  | logout _ => cases he
  | tick => exact le_of_eq (hm.clock_of_tick hwf hholder)
  | chat pc msg =>
      show s'.remainingTime + 0 ≤ _
      cases hc : s.charges (.chat pc msg) with
      | true =>
          have hclock := (hwf.move hm).clock.2
          have := hwf.clock.1
          rw [show turnTime = 15 from rfl] at hclock
          show _ ≤ s.remainingTime + 16
          omega
      | false =>
          cases hm with
          | overheard =>
              obtain ⟨calls, heq⟩ := overheard_eq s pc msg
              rw [heq]
              exact Int.le_refl _
          | win _ hw =>
              rw [charges_of_wins hw] at hc
              cases hc
          | miss hturn _ hg =>
              rw [charges_chat, inTurnGuess_iff.mpr ⟨hturn, hg⟩] at hc
              cases hc

section Rounds
variable {n : Nat} {T : Table n} {u u' : World} {k ticks : Nat}

theorem Seats.holderConnected {M : Int} (h : Seats M s T) : s.holderConnected = true :=
  holderConnected_iff.mpr ⟨T.turn, h.turnHolder, h.isConnected T.turn⟩

/-- After three laps everybody has used three attempts. -/
theorem allAt_laps (h : Seats 3 s T) (hwf : s.WellFormed) : AllAt 3 (Table.serve^[n * 3] T) := by
  intro i
  obtain ⟨ps, hps, hcount, -⟩ := h.used i
  have := (hwf.seatState hps).count
  rw [Table.serve_iterate_used, Table.share_laps 3 (T.ahead_lt i), ← hcount]
  omega

/-- As long as the round that was on in `s` goes on, the ticks so far have come out of the clock and of the
    sixteen seconds that a charge can bring. -/
structure Paced (s : World) (T : Table n) (u : World) (k ticks : Nat) : Prop where
  round : InRound 3 s T u k
  pace  : u.secretsGenerated = s.secretsGenerated → ticks + u.remainingTime ≤ s.remainingTime + 16 * k

/-- **The step lemma.** -/
theorem Paced.move (h : Paced s T u k ticks) (he : e.isArrival = false) (hm : Move u e u') :
    Paced s T u' (if u.charges e then k + 1 else k) (ticks + if e == .tick then 1 else 0) := by
  refine ⟨h.round.move he hm, fun hsame => ?_⟩
  have hle := hm.generated_le h.round.wellFormed
  have hgen := h.round.generated
  have hgoes : u.secretsGenerated = s.secretsGenerated := by omega
  have hpace := h.pace hgoes
  have hclock := hm.clock_le h.round.wellFormed (h.round.seats hgoes).1.holderConnected he
  cases hc : u.charges e <;> cases ht : e == .tick <;> simp [hc, ht] at hclock ⊢ <;> omega

/-- **The run lemma.** -/
theorem paced_of_run {es : List Event} (hwf : s.WellFormed) (h : Seats 3 s T)
    (hrun : tallied.Run (s, 0) es (u, k)) : Paced s T u k (es.countP (· == .tick)) := by
  have hstep : ∀ (p : World × Nat) e q ticks, Paced s T p.1 p.2 ticks → tallied.allowed p e →
      tallied.step p e = .ok q → Paced s T q.1 q.2 (ticks + if e == .tick then 1 else 0) := by
    rintro ⟨u, k⟩ e ⟨u', k'⟩ ticks hI ha hs
    obtain ⟨hs, hk⟩ := track_step_ok.mp hs
    rw [show k' = _ from hk]
    exact hI.move ha.1 (Move.of_handle hI.round.wellFormed ha.2 hs)
  have hstart : Paced s T s 0 0 :=
    ⟨⟨hwf, Nat.le_refl _, fun _ => ⟨h, fun k' h1 h0 => by omega⟩⟩, fun _ => by simp⟩
  have hend := hrun.count_invariant hstep hstart
  rwa [Nat.zero_add] at hend

/-! ### The longest round -/

/-- A round of nothing but ticks: it goes on, with every second accounted for, or it has lasted 48 ticks a
    player. -/
def Ticked (s : World) (T : Table n) (u : World) (ticks : Nat) : Prop :=
  (∃ k, u.secretsGenerated = s.secretsGenerated ∧ Seats 3 u (Table.serve^[k] T) ∧
    ticks + u.remainingTime = 15 + 16 * k) ∨ 48 * n ≤ ticks

/-- **The step lemma.** -/
theorem Ticked.move (hdue : T.Due 3 (n * 3)) (hwf : u.WellFormed) (h : Ticked s T u ticks)
    (hm : Move u .tick u') : Ticked s T u' (ticks + 1) := by
  obtain ⟨k, hgen, hseats, hpace⟩ | hlong := h
  · have hclock := hm.clock_of_tick hwf hseats.holderConnected
    cases hc : u.charges .tick with
    | false =>
        rw [hc] at hclock
        simp only [Bool.false_eq_true, if_false] at hclock
        have hsame : u'.secretsGenerated = u.secretsGenerated := (hm.secret_eq hwf hc).2
        exact Or.inl ⟨k, hsame.trans hgen, hseats.idle hwf rfl hc hm, by omega⟩
    | true =>
        rw [hc] at hclock
        simp only [if_true] at hclock
        obtain ⟨hends, hnext⟩ := hseats.charge hwf hc rfl hm
        rw [← Function.iterate_succ_apply' Table.serve k T] at hends hnext
        by_cases hend : RoundEnds u u'
        · -- the last charge due has come when the clock had run out
          have h3 := hdue.spent_iterate_iff.mp (hends.mp hend)
          have h0 := ((timesOut_iff hwf).mp hc).1
          right
          omega
        · refine Or.inl ⟨k + 1, (not_not.mp hend).trans hgen, hnext hend, ?_⟩
          omega
  · right
    omega

/-- **The run lemma.** -/
theorem exists_ticked (hwf : s.WellFormed) (hclock : s.remainingTime = 15) (h : Seats 3 s T)
    (hdue : T.Due 3 (n * 3)) (k : Nat) : ∃ u,
      (game .yieldsNull midRound).Run s (List.replicate k .tick) u ∧ u.WellFormed ∧ Ticked s T u k := by
  induction k with
  | zero => exact ⟨s, .nil, hwf, Or.inl ⟨0, rfl, h, by rw [hclock]; rfl⟩⟩
  | succ k ih =>
      obtain ⟨u, hrun, hwfu, hticked⟩ := ih
      obtain ⟨u', hs, hm⟩ := handle_move (e := .tick) hwfu rfl nofun
      have hlast : (game .yieldsNull midRound).Run u [.tick] u' := .single ⟨rfl, rfl⟩ hs
      refine ⟨u', ?_, hwfu.move hm, hticked.move hdue hwfu hm⟩
      rw [List.replicate_succ']
      exact hrun.append hlast

end Rounds

/-- Any number of players can be waiting for the first turn of a round. -/
theorem exists_full_house (n : Nat) : ∃ s, (game .yieldsNull noLogout).Reachable s ∧ s.remainingTime = 15 ∧
    ∃ T : Table (n + 1), Seats 3 s T ∧ ∀ i, T.used i = 0 := by
  induction n with
  | zero =>
      have hlogin : (game .yieldsNull noLogout).Run emptyServer [.login true] emptyServer.joined :=
        .single ⟨rfl, rfl⟩ login_ok
      exact ⟨_, Reachable.run (.init emptyServer_init) hlogin, rfl, _, seats_first, fun _ => rfl⟩
  | succ n ih =>
      obtain ⟨s, hr, hclock, T, hseats, hzero⟩ := ih
      have hlogin : (game .yieldsNull noLogout).Run s [.login true] s.joined := .single ⟨rfl, rfl⟩ login_ok
      refine ⟨s.joined, hr.run hlogin, hclock, T.join, hseats.joined, fun i => ?_⟩
      unfold Table.join
      dsimp only
      split
      · exact hzero _
      · rfl

/-- **How long a round takes.** Take a reachable state with players, all of them connected. However they
    chat and guess, once the timer has run 48 times for each of them, and nobody has come or gone, the
    round has ended. And it can take that long: for any number of players there is a reachable state in
    which one tick fewer leaves the round on. -/
theorem round_ends_within :
    (∀ acc s s' es, (game acc everyEvent).Reachable s → AllConnected s.allPlayerControllers →
      s.allPlayerControllers ≠ [] → (game acc midRound).Run s es s' →
      48 * s.allPlayerControllers.length ≤ es.countP (· == .tick) →
      s.secretsGenerated < s'.secretsGenerated) ∧
    ∀ n, 0 < n → ∃ s s', (game .yieldsNull noLogout).Reachable s ∧
      AllConnected s.allPlayerControllers ∧ s.allPlayerControllers.length = n ∧
      (game .yieldsNull midRound).Run s (List.replicate (48 * n - 1) .tick) s' ∧
      s'.secretsGenerated = s.secretsGenerated := by
  constructor
  · intro acc s s' es hs hall hne hrun hlong
    have hwf := wellFormed_of_reachable (reachable_yieldsNull hs)
    obtain ⟨T, hseats⟩ := exists_seats hwf hall hne
    obtain ⟨k, htallied⟩ : ∃ k, tallied.Run (s, 0) es (s', k) := (run_yieldsNull hrun).track 0
    have hpaced := paced_of_run hwf hseats htallied
    by_contra hgoes
    have hsame : s'.secretsGenerated = s.secretsGenerated := by
      have := hpaced.round.generated
      omega
    have hpace := hpaced.pace hsame
    -- the round would have ended with the third lap
    have hk : k < s.allPlayerControllers.length * 3 := by
      by_contra hk
      refine (hpaced.round.seats hsame).2 _ ?_ (by omega) (allAt_laps hseats hwf)
      have := List.length_pos_iff.mpr hne
      omega
    have hfull := hwf.clock.2
    have hclock := hpaced.round.wellFormed.clock.1
    rw [show turnTime = 15 from rfl] at hfull
    omega
  · intro n hn
    obtain ⟨n, rfl⟩ : ∃ m, n = m + 1 := ⟨n - 1, by omega⟩
    obtain ⟨s, hr, hclock, T, hseats, hzero⟩ := exists_full_house n
    obtain ⟨s', hrun, -, hticked⟩ := exists_ticked (wellFormed_of_reachable hr) hclock hseats
      (Table.due_fresh hzero 3) (48 * (n + 1) - 1)
    refine ⟨s, s', hr, ?_, hseats.length, hrun, ?_⟩
    · intro c hc
      obtain ⟨i, hi⟩ := List.mem_iff_getElem?.mp hc
      have hlt := (List.getElem?_eq_some_iff.mp hi).1
      rw [hseats.length] at hlt
      obtain ⟨d, hd, hv⟩ := isConnected_iff.mp (hseats.isConnected ⟨i, hlt⟩)
      rw [hi, Option.some.injEq] at hd
      rwa [hd]
    · obtain ⟨-, hgen, -⟩ | hlong := hticked
      · exact hgen
      · omega

/-- One player who does nothing. -/
theorem round_ends_within_alone : ∃ s', (game .yieldsNull everyEvent).Run emptyServer [.login true]
      emptyServer.joined ∧
    (game .yieldsNull midRound).Run emptyServer.joined (List.replicate 48 .tick) s' ∧
    emptyServer.joined.secretsGenerated < s'.secretsGenerated := by
  have hlogin : (game .yieldsNull everyEvent).Run emptyServer [.login true] emptyServer.joined :=
    .single ⟨trivial, rfl⟩ login_ok
  obtain ⟨s', hrun, -⟩ := Run.exists_view (M := game .yieldsNull midRound) (s := emptyServer.joined)
    (List.replicate 48 .tick) (fun _ => ()) (b := ()) (by decide +kernel)
  refine ⟨s', hlogin, hrun, round_ends_within.1 .yieldsNull _ s' _ (.run (.init emptyServer_init) hlogin)
    ?_ ?_ hrun ?_⟩
  · intro c hc
    obtain rfl := List.mem_singleton.mp hc
    rfl
  · exact List.cons_ne_nil _ _
  · decide

/-! ## What never happens -/

/-- What is left as it was when the turn was at the destroyed controller `t` in `s`. -/
structure Frozen (s : World) (t : Nat) (u : World) : Prop where
  wellFormed : u.WellFormed
  length     : s.allPlayerControllers.length ≤ u.allPlayerControllers.length
  turn       : u.turnHolder = some t
  dead       : u.isConnected t = false
  secret     : u.secretNumberString = s.secretNumberString
  generated  : u.secretsGenerated = s.secretsGenerated
  players    : ∀ i ps, u.stateAt i = some ps →
    if i < s.allPlayerControllers.length then s.stateAt i = some ps else ps.currentGuessCount = 0

namespace Frozen
variable {t : Nat} {u u' : World}

theorem start (hwf : s.WellFormed) (hturn : s.turnHolder = some t) (hdead : s.isConnected t = false) :
    Frozen s t s where
  wellFormed := hwf
  length := Nat.le_refl _
  turn := hturn
  dead := hdead
  secret := rfl
  generated := rfl
  players i ps hps := by
    obtain ⟨c, hc, -⟩ := stateAt_eq_some.mp hps
    rw [if_pos (List.getElem?_eq_some_iff.mp hc).1]
    exact hps

/-- Nobody can be charged. -/
theorem charges (h : Frozen s t u) (ha : u.admits e = true) : u.charges e = false := by
  rw [← Bool.not_eq_true]
  intro hc
  cases e with
  | login _ => cases hc
  | logout _ => cases hc
  | chat pc msg =>
      -- the guess would be the destroyed controller's
      obtain ⟨hturn, -⟩ := inTurnGuess_iff.mp hc
      rw [h.turn, Option.some.injEq] at hturn
      subst hturn
      exact Bool.false_ne_true (h.dead.symm.trans ha)
  | tick =>
      obtain ⟨t', hturn, hpc⟩ := holderConnected_iff.mp ((timesOut_iff h.wellFormed).mp hc).2
      rw [h.turn, Option.some.injEq] at hturn
      subst hturn
      exact Bool.false_ne_true (h.dead.symm.trans hpc)

/-- **The step lemma.** -/
theorem move (h : Frozen s t u) (ha : u.admits e = true) (hm : Move u e u') : Frozen s t u' := by
  have hc := h.charges ha
  have hwf := h.wellFormed
  obtain ⟨hsecret, hgen⟩ := hm.secret_eq hwf hc
  have hlt := (turnHolder_eq_some.mp h.turn).2
  cases harr : e.isArrival with
  | false =>
      obtain ⟨clock, calls, rfl⟩ := hm.of_idle hwf harr hc
      exact ⟨hwf.move hm, h.length, h.turn, h.dead, h.secret, h.generated, h.players⟩
  | true =>
      cases hm with
      | login =>
          have hold : u.joined.allPlayerControllers[t]? = u.allPlayerControllers[t]? :=
            List.getElem?_append_left hlt
          refine ⟨hwf.move .login, ?_, ?_, ?_, h.secret, h.generated, ?_⟩
          · show _ ≤ (u.allPlayerControllers ++ [_]).length
            rw [List.length_append]
            exact Nat.le_add_right_of_le h.length
          · refine turnHolder_eq_some.mpr ⟨(turnHolder_eq_some.mp h.turn).1, ?_⟩
            show t < (u.allPlayerControllers ++ [_]).length
            rw [List.length_append]
            omega
          · rw [← h.dead]
            unfold World.isConnected
            rw [hold]
          · intro i ps hps
            rcases stateAt_joined_cases hps with ⟨-, hps⟩ | ⟨rfl, hzero⟩
            · exact h.players i ps hps
            · rw [if_neg (Nat.not_lt.mpr h.length)]
              exact hzero
      | logout =>
          refine ⟨hwf.move .logout, ?_, turnHolder_logout.trans h.turn, ?_, h.secret, h.generated, ?_⟩
          · exact h.length.trans_eq (List.length_modify ..).symm
          · rw [isConnected_logout, h.dead, Bool.and_false]
          · exact fun i ps hps => h.players i ps (stateAt_logout hps)
      | _ => cases harr

/-- **The run lemma.** -/
theorem run {kinds : Event → Prop} {es : List Event} (h : Frozen s t u)
    (hrun : (game .yieldsNull kinds).Run u es u') : Frozen s t u' := by
  refine hrun.invariant (I := Frozen s t) (fun u e u' hI ha hs => ?_) h
  exact hI.move ha.2 (Move.of_handle hI.wellFormed ha.2 hs)

end Frozen

/-- **A turn of somebody who has left freezes the game.** Once the turn is at a destroyed controller, the
    turn, the secret and the counts of all who are there stay as they are in every run, whoever logs in or
    out, chats or guesses, and however often the timer runs; newcomers never use an attempt. -/
theorem dead_turn_freezes {acc : DeadAccess} {es : List Event} {t : Nat}
    (hs : (game acc everyEvent).Reachable s) (hturn : s.turnHolder = some t)
    (hdead : s.isConnected t = false) (hrun : (game acc everyEvent).Run s es s') :
    s'.turnHolder = some t ∧ s'.secretNumberString = s.secretNumberString ∧
    s'.secretsGenerated = s.secretsGenerated ∧
    ∀ i ps, s'.stateAt i = some ps →
      if i < s.allPlayerControllers.length then s.stateAt i = some ps else ps.currentGuessCount = 0 := by
  have hwf := wellFormed_of_reachable (reachable_yieldsNull hs)
  have h := (Frozen.start hwf hturn hdead).run (run_yieldsNull hrun)
  exact ⟨h.turn, h.secret, h.generated, h.players⟩

/-- Two players; the first leaves at the turn, a third comes, the second guesses the secret, and the clock
    runs out. -/
theorem dead_turn_freezes_guess : ∃ s s',
    (game .faults everyEvent).Run emptyServer [.login true, .login true, .logout 0] s ∧
    (game .faults everyEvent).Run s ([.login true, .chat 1 (text "123")] ++ List.replicate 17 .tick) s' ∧
    s'.turnHolder = some 0 ∧ s'.secretsGenerated = s.secretsGenerated := by
  obtain ⟨s, hrun, hview⟩ := Run.exists_view (M := game .faults everyEvent) (s := emptyServer)
    [.login true, .login true, .logout 0]
    (fun s => (s.turnHolder, s.isConnected 0,
      ((game .faults everyEvent).tryRun s
        ([.login true, .chat 1 (text "123")] ++ List.replicate 17 .tick)).isSome))
    (b := (some 0, false, true)) (by decide +kernel)
  simp only [Prod.mk.injEq] at hview
  obtain ⟨hturn, hdead, hend⟩ := hview
  obtain ⟨s', hs'⟩ := Option.isSome_iff_exists.mp hend
  have hrun' := Run.of_tryRun hs'
  obtain ⟨h, -, hgen, -⟩ := dead_turn_freezes (.run (.init emptyServer_init) hrun) hturn hdead hrun'
  exact ⟨s, s', hrun, hrun', h, hgen⟩

/-! ## What can happen -/

/-- A secret is its own last three characters. -/
theorem IsSecret.lastThree {secret : FString} (h : IsSecret secret) : lastThree secret = secret :=
  lastThree_of_length h.1.le

/-- Whoever is connected at the turn can win. -/
theorem exists_win {t : Nat} (hwf : s.WellFormed) (hturn : s.turnHolder = some t)
    (hpc : s.isConnected t = true) :
    ∃ es s', (game .yieldsNull everyEvent).Run s es s' ∧ s.secretsGenerated < s'.secretsGenerated := by
  obtain ⟨s', hs, hm⟩ := handle_move (e := .chat t s.secretNumberString) hwf hpc nofun
  have hw : s.wins (.chat t s.secretNumberString) = true :=
    hwf.wins_iff.mpr ⟨hturn, hwf.secret.lastThree⟩
  have hrun : (game .yieldsNull everyEvent).Run s [.chat t s.secretNumberString] s' :=
    .single ⟨trivial, hpc⟩ hs
  have hends : RoundEnds s s' := (hm.roundEnds_iff hwf).mpr (Or.inl hw)
  exact ⟨_, s', hrun, Nat.lt_of_le_of_ne (hm.generated_le hwf) hends.symm⟩

/-- **When a round can still be finished.** From a reachable state some run, on an engine that yields null
    for destroyed controllers, ends the round exactly when the turn is nobody's yet or at a connected
    player. -/
theorem round_can_end_iff (hs : (game .yieldsNull everyEvent).Reachable s) :
    (∃ es s', (game .yieldsNull everyEvent).Run s es s' ∧ s.secretsGenerated < s'.secretsGenerated) ↔
      ∀ t, s.turnHolder = some t → s.isConnected t = true := by
  have hwf := wellFormed_of_reachable hs
  constructor
  · rintro ⟨es, s', hrun, hlt⟩ t hturn
    by_contra hdead
    have h := (Frozen.start hwf hturn (by simpa using hdead)).run hrun
    exact absurd h.generated (Nat.ne_of_gt hlt)
  · intro hholder
    cases hturn : s.turnHolder with
    | some t => exact exists_win hwf hturn (hholder t hturn)
    | none =>
        -- the first player to log in gets the turn
        have hnil := hwf.turnHolder_eq_none hturn
        have hlogin : (game .yieldsNull everyEvent).Run s [.login true] s.joined :=
          .single ⟨trivial, rfl⟩ login_ok
        have hturn' : s.joined.turnHolder = some 0 := by
          refine turnHolder_eq_some.mpr ⟨hwf.turn_empty hnil, ?_⟩
          show 0 < (s.allPlayerControllers ++ [_]).length
          simp
        have hpc : s.joined.isConnected s.allPlayerControllers.length = true :=
          isConnected_iff.mpr ⟨_, List.getElem?_concat_length .., rfl⟩
        rw [hnil] at hpc
        obtain ⟨es, s', hrun, hlt⟩ := exists_win (hwf.move .login) hturn' hpc
        exact ⟨_, s', hlogin.append hrun, hlt⟩

/-- Two players; when the second leaves the round can be finished, when the first does it cannot. -/
theorem round_can_end_iff_two :
    (∃ s, (game .yieldsNull everyEvent).Run emptyServer [.login true, .login true, .logout 1] s ∧
      ∃ es s', (game .yieldsNull everyEvent).Run s es s' ∧ s.secretsGenerated < s'.secretsGenerated) ∧
    (∃ s, (game .yieldsNull everyEvent).Run emptyServer [.login true, .login true, .logout 0] s ∧
      ¬ ∃ es s', (game .yieldsNull everyEvent).Run s es s' ∧ s.secretsGenerated < s'.secretsGenerated) := by
  constructor
  · obtain ⟨s, hrun, hview⟩ := Run.exists_view (M := game .yieldsNull everyEvent) (s := emptyServer)
      [.login true, .login true, .logout 1] (fun s => (s.turnHolder, s.isConnected 0)) (b := (some 0, true))
      (by decide +kernel)
    obtain ⟨hturn, hpc⟩ := Prod.mk.inj hview
    refine ⟨s, hrun, (round_can_end_iff (.run (.init emptyServer_init) hrun)).mpr fun t ht => ?_⟩
    rw [hturn, Option.some.injEq] at ht
    rwa [← ht]
  · obtain ⟨s, hrun, hview⟩ := Run.exists_view (M := game .yieldsNull everyEvent) (s := emptyServer)
      [.login true, .login true, .logout 0] (fun s => (s.turnHolder, s.isConnected 0)) (b := (some 0, false))
      (by decide +kernel)
    obtain ⟨hturn, hdead⟩ := Prod.mk.inj hview
    refine ⟨s, hrun, fun hend => ?_⟩
    rw [(round_can_end_iff (.run (.init emptyServer_init) hrun)).mp hend 0 hturn] at hdead
    cases hdead

end NumberBaseball
