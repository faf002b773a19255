import NumberBaseball.Correctness.Numbers
import NumberBaseball.Correctness.Handlers

/-!
# `Correctness.Moves` — the well-formed states, and everything a step out of one can do

`World.WellFormed` is the representation invariant of the game mode at an event boundary. From a
well-formed state every admitted event is one of nine **moves** (`handle_move`): the inductive
predicate `Move` says, once for the whole development, which branch of which handler runs and what
state it leaves behind, guards included. Every invariant below is a case analysis on it.

The moves are those of an engine on which a destroyed controller yields a null player state.
-/

namespace NumberBaseball

open World

/-! ## Seats -/

/-- What the player state of a connected controller at position `i` looks like. -/
structure SeatState (i : Nat) (ps : HwPlayerState) : Prop where
  name  : ps.playerNameString = text "Player" ++ fromInt ((i : Int) + 1)
  quota : ps.maxGuessCount = 3
  count : 0 ≤ ps.currentGuessCount

/-- Every connected controller has a player state, named after its position. -/
def Seated (cs : List HwPlayerController) : Prop :=
  ∀ i c, cs[i]? = some c → c.isValid = true → ∃ ps, c.state? = some ps ∧ SeatState i ps

theorem SeatState.charged {i : Nat} {ps : HwPlayerState} (h : SeatState i ps) :
    SeatState i ps.charged where
  name  := h.name
  quota := h.quota
  count := Int.add_nonneg h.count (by decide)

theorem SeatState.cleared {i : Nat} {ps : HwPlayerState} (h : SeatState i ps) :
    SeatState i ps.cleared where
  name  := h.name
  quota := h.quota
  count := Int.le_refl 0

/-- A rewrite of the entries that keeps who is valid, and what seats their states are fit for, keeps
    everybody seated. -/
theorem Seated.of_pointwise {cs ds : List HwPlayerController} {f : Nat → HwPlayerState → HwPlayerState}
    (h : Seated cs) (hf : ∀ i ps, SeatState i ps → SeatState i (f i ps))
    (hd : ∀ i (d : HwPlayerController), ds[i]? = some d → d.isValid = true →
      ∃ c : HwPlayerController, cs[i]? = some c ∧ c.isValid = true ∧
        d.state? = c.state?.map (f i)) : Seated ds := by
  intro i d hdi hv
  obtain ⟨c, hc, hcv, hst⟩ := hd i d hdi hv
  obtain ⟨ps, hps, hseat⟩ := h i c hc hcv
  exact ⟨f i ps, by rw [hst, hps, Option.map_some], hf i ps hseat⟩

theorem Seated.map_state {cs : List HwPlayerController} {g : HwPlayerController → HwPlayerController}
    {f : HwPlayerState → HwPlayerState} (h : Seated cs)
    (hf : ∀ i ps, SeatState i ps → SeatState i (f ps)) (hg : ∀ c, (g c).isValid = c.isValid)
    (hst : ∀ c, (g c).state? = c.state?.map f) : Seated (cs.map g) := by
  refine h.of_pointwise (f := fun _ => f) hf ?_
  intro i d hd hv
  rw [List.getElem?_map] at hd
  obtain ⟨c, hc, rfl⟩ := Option.map_eq_some_iff.mp hd
  exact ⟨c, hc, by rw [← hg, hv], hst c⟩

theorem Seated.notify {s : World} {msg : FString} (h : Seated s.allPlayerControllers) :
    Seated (s.notify msg).allPlayerControllers :=
  h.map_state (f := id) (fun _ _ => id) (fun _ => HwPlayerController.isValid_notified)
    (fun c => by rw [Option.map_id]; exact HwPlayerController.state?_notified)

theorem Seated.clear {cs : List HwPlayerController} (h : Seated cs) :
    Seated (cs.map (·.mapState HwPlayerState.cleared)) :=
  h.map_state (fun _ _ => SeatState.cleared) (fun _ => HwPlayerController.isValid_mapState)
    (fun _ => HwPlayerController.state?_mapState)

theorem Seated.charge {s : World} {t : Nat} (h : Seated s.allPlayerControllers) :
    Seated (s.charge t).allPlayerControllers := by
  refine h.of_pointwise (f := fun i => if t = i then HwPlayerState.charged else id) ?_ ?_
  · intro i ps hps
    by_cases hti : t = i
    · rw [if_pos hti]; exact hps.charged
    · rw [if_neg hti]; exact hps
  · intro i d hd hv
    change (s.allPlayerControllers.modify t _)[i]? = some d at hd
    rw [List.getElem?_modify] at hd
    obtain ⟨c, hc, rfl⟩ := Option.map_eq_some_iff.mp hd
    by_cases hti : t = i
    · simp only [if_pos hti, HwPlayerController.isValid_mapState] at hv ⊢
      exact ⟨c, hc, hv, HwPlayerController.state?_mapState⟩
    · simp only [if_neg hti] at hv ⊢
      exact ⟨c, hc, hv, by rw [Option.map_id]; rfl⟩

theorem Seated.judged {s : World} {secret : FString} {random : RandomStream}
    (h : Seated s.allPlayerControllers) : Seated (s.judged secret random).allPlayerControllers := by
  unfold World.judged
  split
  · exact h.notify.clear
  · exact h

/-- A destroyed controller leaves the others where they are. -/
theorem Seated.logout {s : World} {pc : Nat} (h : Seated s.allPlayerControllers) :
    Seated (s.modify pc HwPlayerController.destroyed).allPlayerControllers := by
  refine h.of_pointwise (f := fun _ => id) (fun _ _ => id) ?_
  intro i d hd hv
  change (s.allPlayerControllers.modify pc _)[i]? = some d at hd
  rw [List.getElem?_modify] at hd
  obtain ⟨c, hc, rfl⟩ := Option.map_eq_some_iff.mp hd
  by_cases hi : pc = i
  · simp only [if_pos hi] at hv
    exact absurd hv Bool.false_ne_true
  · simp only [if_neg hi] at hv ⊢
    exact ⟨c, hc, hv, by rw [Option.map_id]; rfl⟩

/-- A newcomer sits at the end, under the next name. -/
theorem Seated.joined {s : World} (h : Seated s.allPlayerControllers) :
    Seated s.joined.allPlayerControllers := by
  intro i c hc hv
  change (s.allPlayerControllers ++ [_])[i]? = some c at hc
  rcases Nat.lt_trichotomy i s.allPlayerControllers.length with hi | hi | hi
  · rw [List.getElem?_append_left hi] at hc
    exact h i c hc hv
  · -- the newcomer: the name carries the length of the roster, which is the position plus one
    subst hi
    rw [List.getElem?_append_right (Nat.le_refl _), Nat.sub_self] at hc
    obtain rfl := Option.some.inj hc
    exact ⟨_, rfl, rfl, rfl, Int.le_refl 0⟩
  · rw [List.getElem?_append_right (Nat.le_of_lt hi), List.getElem?_eq_none (by simp; omega)] at hc
    cases hc

/-- Players before the game and after a reset have used nothing. -/
def Unused (cs : List HwPlayerController) : Prop :=
  ∀ c ∈ cs, ∀ ps, c.state? = some ps → ps.currentGuessCount = 0

theorem unused_clear (cs : List HwPlayerController) :
    Unused (cs.map (·.mapState HwPlayerState.cleared)) := by
  intro c hc ps hps
  obtain ⟨d, -, rfl⟩ := List.mem_map.mp hc
  rw [HwPlayerController.state?_mapState] at hps
  obtain ⟨qs, -, rfl⟩ := Option.map_eq_some_iff.mp hps
  rfl

/-! ## The representation invariant -/

/-- The state of the game mode at an event boundary. -/
structure World.WellFormed (s : World) : Prop where
  turn_empty : s.allPlayerControllers = [] → s.currentTurnIndex = 0
  turn_range : s.allPlayerControllers ≠ [] →
    0 ≤ s.currentTurnIndex ∧ s.currentTurnIndex < s.allPlayerControllers.length
  idle       : s.bHasActedInCurrentTurn = false
  clock      : 0 ≤ s.remainingTime ∧ s.remainingTime ≤ turnTime
  secret     : IsSecret s.secretNumberString
  seated     : Seated s.allPlayerControllers

namespace World.WellFormed
variable {s : World}

/-- As soon as anybody has logged in the turn is somebody's. -/
theorem turnHolder (h : s.WellFormed) (hne : s.allPlayerControllers ≠ []) :
    ∃ t, s.turnHolder = some t := by
  obtain ⟨h0, hlt⟩ := h.turn_range hne
  refine ⟨s.currentTurnIndex.toNat, turnHolder_eq_some.mpr ⟨?_, ?_⟩⟩ <;> omega

theorem turnHolder_eq_none (h : s.WellFormed) (hn : s.turnHolder = none) :
    s.allPlayerControllers = [] := by
  by_contra hne
  obtain ⟨t, ht⟩ := h.turnHolder hne
  rw [hn] at ht
  cases ht

/-- A connected controller, with its player state. -/
theorem connected (h : s.WellFormed) {pc : Nat} (hpc : s.isConnected pc = true) :
    ∃ c ps, s.allPlayerControllers[pc]? = some c ∧ c.isValid = true ∧ c.state? = some ps ∧
      SeatState pc ps := by
  obtain ⟨c, hc, hv⟩ := isConnected_iff.mp hpc
  obtain ⟨ps, hps, hseat⟩ := h.seated pc c hc hv
  exact ⟨c, ps, hc, hv, hps, hseat⟩

/-- On a well-formed state the win test is equality of the last three characters with the secret. -/
theorem wins_iff (h : s.WellFormed) {pc : Nat} {msg : FString} :
    s.wins (.chat pc msg) = true ↔
      s.turnHolder = some pc ∧ lastThree msg = s.secretNumberString := by
  simp only [World.wins, World.inTurnGuess, Bool.and_eq_true, beq_iff_eq, and_assoc]
  refine and_congr_right fun _ => ?_
  constructor
  · rintro ⟨hg, he⟩
    exact (equals_iff (isGuessNumberString_iff.mp hg).2 h.secret.2.2).mp he
  · intro he
    rw [he]
    exact ⟨h.secret.isGuess, (equals_iff h.secret.2.2 h.secret.2.2).mpr rfl⟩

end World.WellFormed

/-! ## Moves -/

/-- `Move s e s'`: what event `e` does to a well-formed state `s`. -/
inductive Move : World → Event → World → Prop
  /-- A player logs in. -/
  | login {s : World} : Move s (.login true) s.joined
  /-- A player disconnects; the entry stays. -/
  | logout {s : World} {pc : Nat} :
      Move s (.logout pc) (s.modify pc HwPlayerController.destroyed)
  /-- A chat line that is no in-turn guess. -/
  | overheard {s : World} {pc : Nat} {msg : FString} (h : s.inTurnGuess pc msg = false) :
      Move s (.chat pc msg) (s.overheard pc msg)
  /-- The player at the turn guesses the secret. -/
  | win {s : World} {t : Nat} {msg : FString} {c : HwPlayerController} {ps : HwPlayerState}
      {secret : FString} {random : RandomStream}
      (hturn : s.turnHolder = some t) (hw : s.wins (.chat t msg) = true)
      (hc : s.allPlayerControllers[t]? = some c) (hps : c.state? = some ps)
      (hgen : generateSecretNumber s.random = .ok (secret, random)) :
      Move s (.chat t msg)
        (((s.guessed t msg (text "3S0B")).notify
          (ps.playerNameString ++ text " has won the game.")).restart secret random)
  /-- The player at the turn guesses something else. -/
  | miss {s : World} {t : Nat} {msg verdict secret : FString} {random : RandomStream}
      (hturn : s.turnHolder = some t) (hpc : s.isConnected t = true)
      (hg : isGuessNumberString (lastThree msg) = true) (hw : s.wins (.chat t msg) = false)
      (hv : judgeResult s.secretNumberString (lastThree msg) = .ok verdict)
      (hgen : generateSecretNumber s.random = .ok (secret, random)) :
      Move s (.chat t msg) ((s.guessed t msg verdict).settled t secret random)
  /-- The clock of a connected player at the turn has run out. -/
  | timeout {s : World} {t : Nat} {secret : FString} {random : RandomStream}
      (hturn : s.turnHolder = some t) (hpc : s.isConnected t = true) (h : s.remainingTime = 0)
      (hgen : generateSecretNumber s.random = .ok (secret, random)) :
      Move s .tick ((s.timedOut t).settled t secret random)
  /-- The clock runs. -/
  | counted {s : World} (h : 0 < s.remainingTime) : Move s .tick s.counted
  /-- The clock has run out on a destroyed controller. -/
  | rewound {s : World} {t : Nat} (hturn : s.turnHolder = some t) (hpc : s.isConnected t = false)
      (h : s.remainingTime = 0) : Move s .tick s.resetTime
  /-- The clock has run out and nobody has ever logged in. -/
  | deserted {s : World} (hturn : s.turnHolder = none) (h : s.remainingTime = 0) : Move s .tick s

/-- After a charge that did not win the turn goes to a position of the roster. -/
theorem nextSeat_lt {s : World} {t : Nat} (ht : s.turnHolder = some t) :
    s.nextSeat t < s.allPlayerControllers.length := by
  obtain ⟨-, hlt⟩ := turnHolder_eq_some.mp ht
  exact Nat.mod_lt _ (by omega)

/-! A charge and its announcements leave turn and roster length alone. -/

@[simp] theorem length_guessed {s : World} {t : Nat} {msg verdict : FString} :
    (s.guessed t msg verdict).allPlayerControllers.length = s.allPlayerControllers.length :=
  List.length_modify ..

@[simp] theorem length_timedOut {s : World} {t : Nat} :
    (s.timedOut t).allPlayerControllers.length = s.allPlayerControllers.length :=
  List.length_modify ..

theorem turnHolder_guessed {s : World} {t : Nat} {msg verdict : FString} :
    (s.guessed t msg verdict).turnHolder = s.turnHolder :=
  turnHolder_congr length_guessed rfl

theorem turnHolder_timedOut {s : World} {t : Nat} : (s.timedOut t).turnHolder = s.turnHolder :=
  turnHolder_congr length_timedOut rfl

theorem map_isValid_charge {s : World} {t : Nat} :
    (s.charge t).allPlayerControllers.map (·.isValid) = s.allPlayerControllers.map (·.isValid) :=
  map_isValid_modify fun _ => HwPlayerController.isValid_mapState

/-- Only logins and logouts change who is connected. -/
theorem Move.map_isValid {s s' : World} {e : Event} (he : e.isArrival = false) (hm : Move s e s') :
    s'.allPlayerControllers.map (·.isValid) = s.allPlayerControllers.map (·.isValid) := by
  cases hm with
  | login => cases he
  | logout => cases he
  | overheard =>
      obtain ⟨calls, heq⟩ := overheard_eq s _ _
      rw [heq]
  | @win t => exact map_isValid_restart.trans map_isValid_charge
  | @miss t msg verdict =>
      exact (map_isValid_judged (s.guessed t msg verdict) _ _).trans map_isValid_charge
  | @timeout t => exact (map_isValid_judged (s.timedOut t) _ _).trans map_isValid_charge
  | counted => rfl
  | rewound => rfl
  | deserted => rfl

/-- On an engine that answers dead accesses with null a charge is always settled. -/
theorem settle_yieldsNull {s : World} {t : Nat} {secret : FString} {random : RandomStream}
    (ht : s.turnHolder = some t) (hgen : generateSecretNumber s.random = .ok (secret, random)) :
    (judgeGame .yieldsNull t 0 s >>= turnToNextPlayer .yieldsNull) = .ok (s.settled t secret random) :=
  settle_ok (turnHolder_eq_some.mp ht).1 (scanReadable_yieldsNull _)
    (List.getElem?_eq_getElem (nextSeat_lt ht)) (readable_yieldsNull _) hgen

theorem inTurnGuess_iff {s : World} {pc : Nat} {msg : FString} :
    s.inTurnGuess pc msg = true ↔
      s.turnHolder = some pc ∧ isGuessNumberString (lastThree msg) = true := by
  simp [World.inTurnGuess]

/-- A winning guess is an in-turn guess. -/
theorem inTurnGuess_of_wins {s : World} {pc : Nat} {msg : FString}
    (h : s.wins (.chat pc msg) = true) : s.inTurnGuess pc msg = true :=
  (Bool.and_eq_true_iff.mp h).1

/-- The handler of a winning guess, up to the judge: the verdict that is broadcast is `3S0B`. -/
theorem chat_win {acc : DeadAccess} {s : World} {pc : Nat} {msg : FString} (hwf : s.WellFormed)
    (hpc : s.isConnected pc = true) (hw : s.wins (.chat pc msg) = true) :
    printChatMessageString acc pc msg s
      = judgeGame acc pc 3 (s.guessed pc msg (text "3S0B")) := by
  obtain ⟨hturn, heq⟩ := hwf.wins_iff.mp hw
  obtain ⟨c, hc, hv⟩ := isConnected_iff.mp hpc
  have hguess := (inTurnGuess_iff.mp (inTurnGuess_of_wins hw)).2
  have hverdict := (judgeResult_eq_3S0B hwf.secret.1 (isGuessNumberString_iff.mp hguess).1).mpr heq
  have hequals : equals (lastThree msg) s.secretNumberString = true := by
    rw [heq]
    exact (equals_iff hwf.secret.2.2 hwf.secret.2.2).mpr rfl
  rw [chat_guess hturn hguess hverdict hc (Or.inl hv), if_pos hequals]

/-- The handler of any other in-turn guess, up to the judge. -/
theorem chat_miss {acc : DeadAccess} {s : World} {pc : Nat} {msg verdict : FString}
    (hpc : s.isConnected pc = true) (hg : s.inTurnGuess pc msg = true)
    (hw : s.wins (.chat pc msg) = false)
    (hverdict : judgeResult s.secretNumberString (lastThree msg) = .ok verdict) :
    printChatMessageString acc pc msg s
      = (judgeGame acc pc 0 (s.guessed pc msg verdict) >>= turnToNextPlayer acc) := by
  obtain ⟨hturn, hguess⟩ := inTurnGuess_iff.mp hg
  obtain ⟨c, hc, hv⟩ := isConnected_iff.mp hpc
  have hne : ¬ equals (lastThree msg) s.secretNumberString = true := by
    intro he
    simp [World.wins, hg, he] at hw
  rw [chat_guess hturn hguess hverdict hc (Or.inl hv), if_neg hne]

/-- The entry of the player who has just been charged. -/
theorem getElem?_guessed {s : World} {t : Nat} {msg verdict : FString} {c : HwPlayerController}
    (hc : s.allPlayerControllers[t]? = some c) :
    (s.guessed t msg verdict).allPlayerControllers[t]? = some (c.mapState .charged) := by
  show (s.allPlayerControllers.modify t _)[t]? = _
  rw [List.getElem?_modify_eq, hc]
  rfl

/-- The winner is charged, announced by name, and the game restarts. -/
theorem judgeGame_guessed {acc : DeadAccess} {s : World} {t : Nat} {msg verdict secret : FString}
    {random : RandomStream} {c : HwPlayerController} {ps : HwPlayerState}
    (hc : s.allPlayerControllers[t]? = some c) (hps : c.state? = some ps)
    (hr : ∀ c ∈ (s.guessed t msg verdict).allPlayerControllers, Readable acc c)
    (hgen : generateSecretNumber s.random = .ok (secret, random)) :
    judgeGame acc t 3 (s.guessed t msg verdict)
      = .ok (((s.guessed t msg verdict).notify
          (ps.playerNameString ++ text " has won the game.")).restart secret random) := by
  have hps' : (c.mapState .charged).state? = some ps.charged := by
    rw [HwPlayerController.state?_mapState, hps]
    rfl
  -- the name is the one the winner had before the charge
  have hwon := judgeGame_win (getElem?_guessed hc) hps' hr hgen
  exact hwon

/-- **The inversion lemma.** From a well-formed state every admitted event other than a login without a
    player state succeeds, as one of the moves. -/
theorem handle_move {s : World} {e : Event} (hwf : s.WellFormed) (ha : s.admits e = true)
    (hlogin : e ≠ .login false) : ∃ s', handle .yieldsNull s e = .ok s' ∧ Move s e s' := by
  obtain ⟨secret, random, hgen, -⟩ := generateSecretNumber_ok s.random
  cases e with
  | login hasPlayerState =>
      cases hasPlayerState with
      | false => exact absurd rfl hlogin
      | true => exact ⟨_, login_ok, .login⟩
  | logout pc => exact ⟨_, rfl, .logout⟩
  | chat pc msg =>
      cases hg : s.inTurnGuess pc msg with
      | false => exact ⟨_, chat_overheard ha hg, .overheard hg⟩
      | true =>
          obtain ⟨hturn, hguess⟩ := inTurnGuess_iff.mp hg
          obtain ⟨c, ps, hc, hv, hps, -⟩ := hwf.connected ha
          -- the source compares the guess with the secret, whatever the verdict says
          cases hwin : s.wins (.chat pc msg) with
          | true =>
              have hchat : handle .yieldsNull s (.chat pc msg) = _ := chat_win hwf ha hwin
              rw [judgeGame_guessed hc hps (fun _ _ => readable_yieldsNull _) hgen] at hchat
              exact ⟨_, hchat, .win hturn hwin hc hps hgen⟩
          | false =>
              have hverdict := judgeResult_eq hwf.secret.1 (isGuessNumberString_iff.mp hguess).1
              have hchat : handle .yieldsNull s (.chat pc msg) = _ := chat_miss ha hg hwin hverdict
              rw [settle_yieldsNull (turnHolder_guessed.trans hturn) hgen] at hchat
              exact ⟨_, hchat, .miss hturn ha hguess hwin hverdict hgen⟩
  | tick =>
      have hclock := hwf.clock.1
      rcases lt_or_ge 0 s.remainingTime with h | h
      · exact ⟨_, tick_counted h, .counted h⟩
      · -- expired: it depends on who is at the turn
        have h0 : s.remainingTime = 0 := by omega
        cases hturn : s.turnHolder with
        | none => exact ⟨_, tick_nobody h hturn, .deserted hturn h0⟩
        | some t =>
            cases hpc : s.isConnected t with
            | false => exact ⟨_, tick_dead h hwf.idle hturn hpc, .rewound hturn hpc h0⟩
            | true =>
                obtain ⟨c, ps, hc, hv, -, -⟩ := hwf.connected hpc
                have htick : updateGameTimer .yieldsNull s = _ := tick_timeout h hwf.idle hturn hc hv
                rw [settle_yieldsNull (turnHolder_timedOut.trans hturn) hgen, Except.ok_bind]
                  at htick
                exact ⟨_, htick, .timeout hturn hpc h0 hgen⟩

/-! ## A move is what the handler does -/

/-- The guards of the moves exclude each other. -/
theorem Move.det {s s₁ s₂ : World} {e : Event} (h : Move s e s₁) (h' : Move s e s₂) : s₁ = s₂ := by
  -- a second move of another kind contradicts a guard; one of the same kind agrees in what it read
  cases h with
  | login => cases h'; rfl
  | logout => cases h'; rfl
  | overheard hg =>
      cases h' with
      | overheard => rfl
      | win _ hw => rw [inTurnGuess_of_wins hw] at hg; cases hg
      | miss hturn _ hguess => rw [inTurnGuess_iff.mpr ⟨hturn, hguess⟩] at hg; cases hg
  | win hturn hw hc hps hgen =>
      cases h' with
      | overheard hg => rw [inTurnGuess_of_wins hw] at hg; cases hg
      | win _ _ hc' hps' hgen' =>
          rw [hc, Option.some.injEq] at hc'
          subst hc'
          rw [hps, Option.some.injEq] at hps'
          subst hps'
          rw [hgen, Except.ok.injEq, Prod.mk.injEq] at hgen'
          rw [hgen'.1, hgen'.2]
      | miss _ _ _ hw' => rw [hw] at hw'; cases hw'
  | miss hturn hpc hguess hw hv hgen =>
      cases h' with
      | overheard hg => rw [inTurnGuess_iff.mpr ⟨hturn, hguess⟩] at hg; cases hg
      | win _ hw' => rw [hw] at hw'; cases hw'
      | miss _ _ _ _ hv' hgen' =>
          rw [hv, Except.ok.injEq] at hv'
          rw [hgen, Except.ok.injEq, Prod.mk.injEq] at hgen'
          rw [hv', hgen'.1, hgen'.2]
  | timeout hturn hpc h0 hgen =>
      cases h' with
      | timeout hturn' _ _ hgen' =>
          rw [hturn, Option.some.injEq] at hturn'
          rw [hgen, Except.ok.injEq, Prod.mk.injEq] at hgen'
          rw [hturn', hgen'.1, hgen'.2]
      | counted hpos => omega
      | rewound hturn' hpc' =>
          rw [hturn, Option.some.injEq] at hturn'
          rw [← hturn', hpc] at hpc'
          cases hpc'
      | deserted hnone => rw [hturn] at hnone; cases hnone
  | counted hpos =>
      cases h' with
      | counted => rfl
      | timeout => omega
      | rewound => omega
      | deserted => omega
  | rewound hturn hpc h0 =>
      cases h' with
      | timeout hturn' hpc' =>
          rw [hturn, Option.some.injEq] at hturn'
          rw [hturn', hpc'] at hpc
          cases hpc
      | counted hpos => omega
      | rewound => rfl
      | deserted hnone => rw [hturn] at hnone; cases hnone
  | deserted hnone h0 =>
      cases h' with
      | timeout hturn => rw [hturn] at hnone; cases hnone
      | counted hpos => omega
      | rewound hturn => rw [hturn] at hnone; cases hnone
      | deserted => rfl

/-- A move is what the handler does. -/
theorem Move.handle_eq {s s' : World} {e : Event} (h : Move s e s') (hwf : s.WellFormed)
    (ha : s.admits e = true) : handle .yieldsNull s e = .ok s' := by
  have hlogin : e ≠ .login false := by
    rintro rfl
    cases h
  obtain ⟨s'', hs'', hm⟩ := handle_move hwf ha hlogin
  rw [hs'', hm.det h]

/-- A login without a player state faults; so a step that succeeds is a move. -/
theorem Move.of_handle {s s' : World} {e : Event} (hwf : s.WellFormed) (ha : s.admits e = true)
    (hs : handle .yieldsNull s e = .ok s') : Move s e s' := by
  have hlogin : e ≠ .login false := by
    rintro rfl
    rw [show handle .yieldsNull s (.login false) = .error .invalidPointer from login_fault] at hs
    cases hs
  obtain ⟨s'', hs'', hm⟩ := handle_move hwf ha hlogin
  rw [hs, Except.ok.injEq] at hs''
  rwa [hs'']

end NumberBaseball
