import NumberBaseball.Correctness.Turns

/-!
# `Correctness.Rounds` — the state a round starts in, and the clock of a turn

A round ends on three paths: a winning guess returns right after `ResetGame`, while a draw, by guess or
by timeout, goes on into `TurnToNextPlayer`. Neither path leaves the initial round state: the first does
not wind up the clock, the second moves the turn on from index `0`. `round_start_iff` says when the
state is the initial one all the same.

The clock that the winning path leaves running, and that runs on an empty server, cuts the next turn
short. `full_turn_before_timeout` is the statement for the runs in which neither happens; the history it
speaks of, the number of ticks since the turn began, is `turnAge`.
-/

namespace NumberBaseball

open World Machine

variable {s s' : World} {e : Event}

/-! ## The state a round starts in -/

/-- The initial state of a round whose secret was drawn from `random`. -/
structure RoundStart (random : RandomStream) (s : World) : Prop where
  turn   : s.currentTurnIndex = 0
  idle   : s.bHasActedInCurrentTurn = false
  clock  : s.remainingTime = turnTime
  unused : Unused s.allPlayerControllers
  secret : ∃ rest, generateSecretNumber random = .ok (s.secretNumberString, rest)

/-- A charge that ends the round leaves the turn at index `1`, taken around the roster. -/
theorem settled_roundStart_iff {t : Nat} {secret : FString} {random : RandomStream}
    (hturn : s.turnHolder = some t) (hgen : generateSecretNumber s.random = .ok (secret, random))
    (hex : (s.charge t).exhausted = true) {calls : List Rpc} :
    RoundStart s.random { (s.charge t).settled t secret random with sent := calls } ↔
      s.allPlayerControllers.length = 1 := by
  obtain ⟨-, hlt⟩ := turnHolder_eq_some.mp hturn
  rw [settled_of_exhausted hex, nextSeat_charge_of_exhausted hex]
  constructor
  · intro h
    have hturn : ((1 % s.allPlayerControllers.length : Nat) : Int) = 0 := h.turn
    by_contra hne
    -- with two or more entries the index is `1`
    rw [Nat.mod_eq_of_lt (by omega)] at hturn
    omega
  · intro h1
    refine ⟨?_, rfl, rfl, unused_clear _, random, hgen⟩
    rw [h1]
    rfl

theorem Move.roundStart_iff (hwf : s.WellFormed) (hm : Move s e s') (hend : RoundEnds s s') :
    RoundStart s.random s' ↔
      if s.wins e then s.remainingTime = turnTime else s.allPlayerControllers.length = 1 := by
  cases hw : s.wins e with
  | true =>
      obtain ⟨t, c, ps, secret, random, calls, -, -, -, hgen, rfl⟩ := hm.of_win hw
      exact ⟨RoundStart.clock, fun h => ⟨rfl, rfl, h, unused_clear _, _, hgen⟩⟩
  | false =>
      have hdraw : s.draws e = true := by
        simpa [hw] using (hm.roundEnds_iff hwf).mp hend
      have hc := (charges_of_draws hdraw).1
      obtain ⟨t, secret, random, calls, hturn, -, hgen, rfl⟩ := hm.of_charge hwf hc hw
      rw [draws_iff hturn hc hw] at hdraw
      exact settled_roundStart_iff hturn hgen hdraw

/-- **When a round starts from the initial state.** After an event that ends a round the state is the
    initial round state exactly when the round was won with the clock still full, or drawn with a single
    entry in the roster. -/
theorem round_start_iff (hs : (game .yieldsNull everyEvent).Reachable s) (ha : s.admits e = true)
    (hstep : handle .yieldsNull s e = .ok s') (hend : RoundEnds s s') :
    RoundStart s.random s' ↔
      if s.wins e then s.remainingTime = turnTime else s.allPlayerControllers.length = 1 := by
  have hwf := wellFormed_of_reachable hs
  exact (Move.of_handle hwf ha hstep).roundStart_iff hwf hend

/-- A player alone, whose third wrong guess is a draw. -/
theorem round_start_iff_alone : ∃ s s',
    (game .yieldsNull everyEvent).Run emptyServer
      [.login true, .chat 0 (text "456"), .chat 0 (text "456")] s ∧
    handle .yieldsNull s (.chat 0 (text "456")) = .ok s' ∧ RoundStart s.random s' := by
  obtain ⟨s, s', hrun, ha, hs, hview⟩ := Run.exists_step_view (M := game .yieldsNull everyEvent)
    (s := emptyServer) [.login true, .chat 0 (text "456"), .chat 0 (text "456")]
    (.chat 0 (text "456"))
    (fun s s' => (decide (RoundEnds s s'), s.wins (.chat 0 (text "456")),
      s.allPlayerControllers.length)) (b := (true, false, 1)) (by decide +kernel)
  simp only [Prod.mk.injEq, decide_eq_true_eq] at hview
  obtain ⟨hend, hw, hlen⟩ := hview
  refine ⟨s, s', hrun, hs, ?_⟩
  rw [round_start_iff (.run (.init emptyServer_init) hrun) ha.2 hs hend, hw]
  exact hlen

/-- Two players, one tick, and the player at the turn guesses the secret: the next round starts with
    the clock at `14`. When instead both use up their attempts, it starts at index `1`. -/
theorem round_start_fails :
    (∃ s s', (game .yieldsNull noLogout).Reachable s ∧
      (game .yieldsNull noLogout).Run emptyServer [.login true, .login true, .tick] s ∧
      s.admits (.chat 0 (text "123")) = true ∧
      handle .yieldsNull s (.chat 0 (text "123")) = .ok s' ∧ RoundEnds s s' ∧
      s'.remainingTime = 14 ∧ ¬ RoundStart s.random s') ∧
    (∃ s s', (game .yieldsNull noLogout).Reachable s ∧
      (game .yieldsNull noLogout).Run emptyServer [.login true, .login true, .chat 0 (text "456"),
        .chat 1 (text "456"), .chat 0 (text "456"), .chat 1 (text "456"), .chat 0 (text "456")] s ∧
      s.admits (.chat 1 (text "456")) = true ∧
      handle .yieldsNull s (.chat 1 (text "456")) = .ok s' ∧ RoundEnds s s' ∧
      s'.currentTurnIndex = 1 ∧ ¬ RoundStart s.random s') := by
  constructor
  · obtain ⟨s, s', hrun, ha, hs, hview⟩ := Run.exists_step_view (M := game .yieldsNull noLogout)
      (s := emptyServer) [.login true, .login true, .tick] (.chat 0 (text "123"))
      (fun s s' => (decide (RoundEnds s s'), s'.remainingTime)) (b := (true, 14)) (by decide +kernel)
    simp only [Prod.mk.injEq, decide_eq_true_eq] at hview
    refine ⟨s, s', .run (.init emptyServer_init) hrun, hrun, ha.2, hs, hview.1, hview.2, ?_⟩
    intro h
    rw [h.clock] at hview
    exact absurd hview.2 (by decide)
  · obtain ⟨s, s', hrun, ha, hs, hview⟩ := Run.exists_step_view (M := game .yieldsNull noLogout)
      (s := emptyServer) [.login true, .login true, .chat 0 (text "456"), .chat 1 (text "456"),
        .chat 0 (text "456"), .chat 1 (text "456"), .chat 0 (text "456")] (.chat 1 (text "456"))
      (fun s s' => (decide (RoundEnds s s'), s'.currentTurnIndex)) (b := (true, 1)) (by decide +kernel)
    simp only [Prod.mk.injEq, decide_eq_true_eq] at hview
    refine ⟨s, s', .run (.init emptyServer_init) hrun, hrun, ha.2, hs, hview.1, hview.2, ?_⟩
    intro h
    rw [h.turn] at hview
    exact absurd hview.2 (by decide)

/-! ## The clock of a turn -/

/-- The event begins a turn: a login makes the index valid, a winning guess restarts the round, any
    other charge passes the turn on (after a draw, too). -/
def World.beginsTurn (s : World) (e : Event) : Bool :=
  (e.isLogin && s.turnHolder.isNone) || s.charges e

/-- The ticks since the current turn began, after event `e` in state `s`, when before it there were
    `age`. -/
def turnAge (s : World) (e : Event) (_ : World) (age : Nat) : Nat :=
  if s.beginsTurn e then 0 else if e = .tick then age + 1 else age

/-- A machine of the server with the age of the current turn. `BeginPlay` comes before every tick. -/
def aged (M : Machine World Event Fault) : Machine (World × Nat) Event Fault :=
  M.track (fun _ => 0) turnAge

instance {M : Machine World Event Fault} [∀ s e, Decidable (M.allowed s e)] (p : World × Nat)
    (e : Event) : Decidable ((aged M).allowed p e) :=
  inferInstanceAs (Decidable ((M.track (fun _ => 0) turnAge).allowed p e))

/-- The login that makes the index valid, and every winning guess, come while the clock is full. -/
def ClockFull (s : World) (e : Event) : Prop :=
  (e.isLogin && s.turnHolder.isNone) = true ∨ s.wins e = true → s.remainingTime = turnTime

instance : Decidable (ClockFull s e) := inferInstanceAs (Decidable (_ ∨ _ → _))

/-- Clock and age together cover a whole turn, as soon as there is a turn. -/
def FullTurn (s : World) (age : Nat) : Prop :=
  s.allPlayerControllers ≠ [] → turnTime ≤ s.remainingTime + age

/-- **The step lemma.** A move whose turns begin on a full clock keeps clock and age in balance. -/
theorem FullTurn.move {age : Nat} (hwf : s.WellFormed) (h : FullTurn s age) (hP : ClockFull s e)
    (hm : Move s e s') : FullTurn s' (turnAge s e s' age) := by
  -- enough wherever the clock has just been wound up
  have hfull : ∀ n : Nat, turnTime ≤ turnTime + (n : Int) := fun n => by omega
  cases hm with
  | login =>
      intro _
      cases hturn : s.turnHolder with
      | none =>
          rw [show s.joined.remainingTime = turnTime from hP (Or.inl (by rw [hturn]; rfl))]
          exact hfull _
      | some t =>
          rw [show turnAge s (.login true) s.joined age = age by
            simp [turnAge, World.beginsTurn, hturn, World.charges]]
          refine h (fun hnil => ?_)
          obtain ⟨-, hlt⟩ := turnHolder_eq_some.mp hturn
          rw [hnil] at hlt
          cases hlt
  | logout =>
      intro hne
      exact h (fun hnil => hne (List.modify_eq_nil_iff.mpr hnil))
  | overheard hg =>
      obtain ⟨calls, heq⟩ := overheard_eq s _ _
      rw [heq]
      intro hne
      rw [show turnAge s (.chat _ _) _ age = age by
        simp [turnAge, World.beginsTurn, World.charges, hg, Event.isLogin]]
      exact h hne
  | win hturn hw hc hps hgen =>
      intro _
      show turnTime ≤ s.remainingTime + _
      rw [hP (Or.inr hw)]
      exact hfull _
  | miss =>
      intro _
      rw [settled_remainingTime]
      exact hfull _
  | timeout =>
      intro _
      rw [settled_remainingTime]
      exact hfull _
  | counted hpos =>
      intro hne
      have hage : turnAge s .tick s.counted age = age + 1 := by
        simp [turnAge, World.beginsTurn, World.charges, World.timesOut, hpos, Event.isLogin]
      rw [hage]
      -- the clock loses what the age gains
      have := h hne
      show turnTime ≤ s.remainingTime - 1 + _
      omega
  | rewound =>
      intro _
      exact hfull _
  | deserted hn =>
      intro hne
      exact absurd (hwf.turnHolder_eq_none hn) hne

/-- **A full turn before every timeout.** In a run whose first login and winning guesses come while the
    clock is full, a tick that charges the player at the turn comes at least `TurnTime` ticks after the
    turn began. -/
theorem full_turn_before_timeout {kinds : Event → Prop} {age : Nat}
    (h : (aged ((game .yieldsNull kinds).restrict ClockFull)).Reachable (s, age))
    (htick : s.timesOut = true) : turnTime ≤ age := by
  have hI : FullTurn s age := by
    refine restrict_track_invariant (P := ClockFull) ?_ (fun _ _ _ _ hwf h hP hm => h.move hwf hP hm) h
    intro s hf _
    rw [hf.clock]
    decide
  simp only [World.timesOut, Bool.and_eq_true, decide_eq_true_eq, Option.any_eq_true] at htick
  obtain ⟨⟨hexpired, -⟩, t, hturn, -⟩ := htick
  obtain ⟨-, hlt⟩ := turnHolder_eq_some.mp hturn
  have := hI (List.ne_nil_of_length_pos (by omega))
  omega

/-- A player alone, charged after the fifteenth tick. -/
theorem full_turn_before_timeout_alone : ∃ s,
    (aged ((game .yieldsNull noLogout).restrict ClockFull)).Run (emptyServer, 0)
      (.login true :: List.replicate 15 .tick) (s, 15) ∧
    s.timesOut = true ∧ turnTime ≤ (15 : Nat) := by
  obtain ⟨⟨s, age⟩, hrun, hview⟩ := Run.exists_view
    (M := aged ((game .yieldsNull noLogout).restrict ClockFull))
    (s := (emptyServer, 0)) (.login true :: List.replicate 15 .tick)
    (fun p => (p.1.timesOut, p.2)) (b := (true, 15)) (by decide +kernel)
  obtain ⟨htick, rfl⟩ := Prod.mk.inj hview
  have hinit : ((game .yieldsNull noLogout).restrict ClockFull).init emptyServer :=
    @emptyServer_init .yieldsNull noLogout
  exact ⟨s, hrun, htick, full_turn_before_timeout (.run (.init ⟨hinit, rfl⟩) hrun) htick⟩

/-- Fifteen ticks on an empty server, and the first player to log in is charged by the next tick. Two
    players, fourteen ticks, a winning guess, and the player at the turn is charged after one tick. -/
theorem full_turn_before_timeout_fails :
    (∃ s, (aged (game .yieldsNull noLogout)).Reachable (s, 0) ∧
      (aged (game .yieldsNull noLogout)).Run (emptyServer, 0)
        (List.replicate 15 Event.tick ++ [Event.login true]) (s, 0) ∧
      s.timesOut = true ∧ ¬ turnTime ≤ (0 : Nat)) ∧
    (∃ s, (aged (game .yieldsNull noLogout)).Reachable (s, 1) ∧
      (aged (game .yieldsNull noLogout)).Run (emptyServer, 0)
        (Event.login true :: .login true :: List.replicate 14 .tick ++
          [Event.chat 0 (text "123"), .tick])
        (s, 1) ∧
      s.timesOut = true ∧ ¬ turnTime ≤ (1 : Nat)) := by
  constructor
  · obtain ⟨⟨s, age⟩, hrun, hview⟩ := Run.exists_view
      (M := aged (game .yieldsNull noLogout))
      (s := (emptyServer, 0)) (List.replicate 15 Event.tick ++ [Event.login true])
      (fun p => (p.1.timesOut, p.2)) (b := (true, 0)) (by decide +kernel)
    obtain ⟨htick, rfl⟩ := Prod.mk.inj hview
    exact ⟨s, .run (.init ⟨emptyServer_init, rfl⟩) hrun, hrun, htick, by decide⟩
  · obtain ⟨⟨s, age⟩, hrun, hview⟩ := Run.exists_view
      (M := aged (game .yieldsNull noLogout))
      (s := (emptyServer, 0))
      (Event.login true :: .login true :: List.replicate 14 .tick ++
          [Event.chat 0 (text "123"), .tick])
      (fun p => (p.1.timesOut, p.2)) (b := (true, 1)) (by decide +kernel)
    obtain ⟨htick, rfl⟩ := Prod.mk.inj hview
    exact ⟨s, .run (.init ⟨emptyServer_init, rfl⟩) hrun, hrun, htick, by decide⟩

end NumberBaseball
