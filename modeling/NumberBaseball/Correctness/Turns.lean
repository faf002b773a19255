import NumberBaseball.Correctness.Invariant

/-!
# `Correctness.Turns` — whose turn it is, what a charge does, where the turn goes next

The nine moves fall into four groups: arrivals, a winning guess, any other charge (a wrong guess or a
timeout), and moves that charge nobody. `Move.of_charge` shows that a wrong guess and a timeout are one
operation, up to what is sent: charge the player at the turn, then settle. `Move.turnHolder_eq` and
`Move.turnHolder_of_charges` say where the turn is after each.
-/

namespace NumberBaseball

open World Machine

variable {s s' : World} {e : Event}

/-! ## Where the turn is -/

/-- The turn is at a connected player. -/
def World.holderConnected (s : World) : Bool := s.turnHolder.any s.isConnected

/-- Somebody is connected. -/
def World.anyConnected (s : World) : Bool := s.allPlayerControllers.any (·.isValid)

/-- Where a charge takes the turn. -/
def World.nextHolder (s : World) (e : Event) : Option Nat :=
  s.turnHolder.map fun t => if s.wins e then 0 else (s.charge t).nextSeat t

theorem holderConnected_iff :
    s.holderConnected = true ↔ ∃ t, s.turnHolder = some t ∧ s.isConnected t = true := by
  simp [World.holderConnected, Option.any_eq_true]

theorem anyConnected_iff : s.anyConnected = true ↔ ∃ pc, s.isConnected pc = true := by
  unfold World.anyConnected
  rw [List.any_eq_true]
  constructor
  · rintro ⟨c, hc, hv⟩
    obtain ⟨pc, hpc⟩ := List.mem_iff_getElem?.mp hc
    exact ⟨pc, isConnected_iff.mpr ⟨c, hpc, hv⟩⟩
  · rintro ⟨pc, hpc⟩
    obtain ⟨c, hc, hv⟩ := isConnected_iff.mp hpc
    exact ⟨c, List.mem_of_getElem? hc, hv⟩

theorem holderConnected_congr (hturn : s'.turnHolder = s.turnHolder)
    (hv : s'.allPlayerControllers.map (·.isValid) = s.allPlayerControllers.map (·.isValid)) :
    s'.holderConnected = s.holderConnected := by
  unfold World.holderConnected
  rw [hturn, funext (isConnected_congr hv)]

theorem anyConnected_congr
    (hv : s'.allPlayerControllers.map (·.isValid) = s.allPlayerControllers.map (·.isValid)) :
    s'.anyConnected = s.anyConnected := by
  have h : ∀ w : World, w.anyConnected = (w.allPlayerControllers.map (·.isValid)).any id :=
    fun w => by rw [List.any_map]; rfl
  rw [h, h, hv]

theorem timesOut_iff (hwf : s.WellFormed) :
    s.timesOut = true ↔ s.remainingTime = 0 ∧ s.holderConnected = true := by
  have hclock := hwf.clock.1
  unfold World.timesOut World.holderConnected
  rw [hwf.idle, Bool.not_false, Bool.and_true, Bool.and_eq_true, decide_eq_true_eq]
  refine and_congr_left fun _ => ?_
  omega

theorem charges_of_wins (h : s.wins e = true) : s.charges e = true := by
  cases e with
  | chat pc msg => exact inTurnGuess_of_wins h
  | _ => cases h

theorem wins_of_not_charges (h : s.charges e = false) : s.wins e = false := by
  rw [← Bool.not_eq_true]
  intro hw
  rw [charges_of_wins hw] at h
  cases h

/-- Nobody is charged for coming or going. -/
theorem isArrival_of_charges (h : s.charges e = true) : e.isArrival = false := by
  cases e with
  | login _ => cases h
  | logout _ => cases h
  | _ => rfl

/-- Only somebody connected is charged. -/
theorem anyConnected_of_charges (hwf : s.WellFormed) (ha : s.admits e = true)
    (hc : s.charges e = true) : s.anyConnected = true := by
  cases e with
  | login _ => cases hc
  | logout _ => cases hc
  | chat pc msg => exact anyConnected_iff.mpr ⟨pc, ha⟩
  | tick =>
      obtain ⟨t, -, hpc⟩ := holderConnected_iff.mp ((timesOut_iff hwf).mp hc).2
      exact anyConnected_iff.mpr ⟨t, hpc⟩

theorem isConnected_charge {t pc : Nat} : (s.charge t).isConnected pc = s.isConnected pc :=
  isConnected_congr map_isValid_charge pc

/-- Only logins change the length of the roster. -/
theorem Move.length_eq (he : e.isArrival = false) (hm : Move s e s') :
    s'.allPlayerControllers.length = s.allPlayerControllers.length := by
  simpa using congrArg List.length (hm.map_isValid he)

/-! ## A charge -/

theorem turnHolder_charge {t : Nat} : (s.charge t).turnHolder = s.turnHolder :=
  turnHolder_congr (List.length_modify ..) rfl

section Charge
variable {t : Nat} {msg verdict secret : FString} {random : RandomStream}

theorem settled_guessed : ∃ calls, (s.guessed t msg verdict).settled t secret random
    = { (s.charge t).settled t secret random with sent := calls } := by
  cases hex : (s.charge t).exhausted with
  | true =>
      rw [settled_of_exhausted hex, settled_of_exhausted (s := s.guessed t msg verdict) hex]
      exact ⟨_, rfl⟩
  | false =>
      rw [settled_of_attempt hex, settled_of_attempt (s := s.guessed t msg verdict) hex]
      exact ⟨_, rfl⟩

theorem settled_timedOut : ∃ calls, (s.timedOut t).settled t secret random
    = { (s.charge t).settled t secret random with sent := calls } := by
  cases hex : (s.charge t).exhausted with
  | true =>
      rw [settled_of_exhausted hex, settled_of_exhausted (s := s.timedOut t) hex]
      exact ⟨_, rfl⟩
  | false =>
      rw [settled_of_attempt hex, settled_of_attempt (s := s.timedOut t) hex]
      exact ⟨_, rfl⟩

end Charge

/-- A charge that does not win is a wrong guess or a timeout. -/
theorem Move.charge_cases (hwf : s.WellFormed) (hc : s.charges e = true) (hw : s.wins e = false)
    (hm : Move s e s') : ∃ t secret random, s.turnHolder = some t ∧ s.isConnected t = true ∧
      generateSecretNumber s.random = .ok (secret, random) ∧
      ((∃ msg verdict, isGuessNumberString (lastThree msg) = true ∧
          judgeResult s.secretNumberString (lastThree msg) = .ok verdict ∧
          s' = (s.guessed t msg verdict).settled t secret random) ∨
        s' = (s.timedOut t).settled t secret random) := by
  -- two moves remain; the guard of every other one contradicts the charge
  cases hm with
  | login => cases hc
  | logout => cases hc
  | overheard hg =>
      rw [charges_chat, hg] at hc
      cases hc
  | win _ hw' =>
      rw [hw'] at hw
      cases hw
  | miss hturn hpc hg _ hv hgen =>
      exact ⟨_, _, _, hturn, hpc, hgen, Or.inl ⟨_, _, hg, hv, rfl⟩⟩
  | timeout hturn hpc _ hgen => exact ⟨_, _, _, hturn, hpc, hgen, Or.inr rfl⟩
  | counted hpos =>
      have := ((timesOut_iff hwf).mp hc).1
      omega
  | rewound hturn hpc =>
      obtain ⟨t, hturn', hpc'⟩ := holderConnected_iff.mp ((timesOut_iff hwf).mp hc).2
      rw [hturn, Option.some.injEq] at hturn'
      rw [hturn', hpc'] at hpc
      cases hpc
  | deserted hnone =>
      obtain ⟨t, hturn, -⟩ := holderConnected_iff.mp ((timesOut_iff hwf).mp hc).2
      rw [hnone] at hturn
      cases hturn

/-- **A charge that does not win** is charged and settled; how it came about only shows in what is
    sent. -/
theorem Move.of_charge (hwf : s.WellFormed) (hc : s.charges e = true) (hw : s.wins e = false)
    (hm : Move s e s') : ∃ t secret random calls, s.turnHolder = some t ∧ s.isConnected t = true ∧
      generateSecretNumber s.random = .ok (secret, random) ∧
      s' = { (s.charge t).settled t secret random with sent := calls } := by
  obtain ⟨t, secret, random, hturn, hpc, hgen, h⟩ := hm.charge_cases hwf hc hw
  rcases h with ⟨msg, verdict, -, -, rfl⟩ | rfl
  · obtain ⟨calls, heq⟩ := settled_guessed
    exact ⟨t, secret, random, calls, hturn, hpc, hgen, heq⟩
  · obtain ⟨calls, heq⟩ := settled_timedOut
    exact ⟨t, secret, random, calls, hturn, hpc, hgen, heq⟩

/-- **A winning guess** announces the winner by name and restarts the game. -/
theorem Move.of_win (hw : s.wins e = true) (hm : Move s e s') :
    ∃ t c ps secret random calls, s.turnHolder = some t ∧ s.allPlayerControllers[t]? = some c ∧
      c.state? = some ps ∧ generateSecretNumber s.random = .ok (secret, random) ∧
      s' = { ((s.charge t).notify (ps.playerNameString ++ text " has won the game.")).restart
        secret random with sent := calls } := by
  cases hm with
  | win hturn _ hc hps hgen => exact ⟨_, _, _, _, _, _, hturn, hc, hps, hgen, rfl⟩
  | overheard hg =>
      rw [inTurnGuess_of_wins hw] at hg
      cases hg
  | miss _ _ _ hw' =>
      rw [hw] at hw'
      cases hw'
  | _ => cases hw

/-- **A move that neither charges nor is an arrival** only touches the clock. -/
theorem Move.of_idle (hwf : s.WellFormed) (he : e.isArrival = false) (hc : s.charges e = false)
    (hm : Move s e s') : ∃ clock calls, s' = { s with remainingTime := clock, sent := calls } := by
  cases hm with
  | login => cases he
  | logout => cases he
  | overheard =>
      obtain ⟨calls, heq⟩ := overheard_eq s _ _
      exact ⟨_, _, heq⟩
  | win hturn hw =>
      rw [charges_chat, inTurnGuess_of_wins hw] at hc
      cases hc
  | miss hturn hpc hg =>
      rw [charges_chat, inTurnGuess_iff.mpr ⟨hturn, hg⟩] at hc
      cases hc
  | timeout hturn hpc h0 =>
      rw [charges_tick, (timesOut_iff hwf).mpr ⟨h0, holderConnected_iff.mpr ⟨_, hturn, hpc⟩⟩] at hc
      cases hc
  | counted => exact ⟨_, _, rfl⟩
  | rewound => exact ⟨_, _, rfl⟩
  | deserted => exact ⟨_, _, rfl⟩

/-! ## The player states -/

/-- The player state of the connected controller at position `i`. -/
def World.stateAt (s : World) (i : Nat) : Option HwPlayerState :=
  s.allPlayerControllers[i]?.bind HwPlayerController.state?

section StateAt
variable {t i pc : Nat}

theorem stateAt_eq_some {ps : HwPlayerState} : s.stateAt i = some ps ↔
    ∃ c, s.allPlayerControllers[i]? = some c ∧ c.state? = some ps := Option.bind_eq_some_iff

@[simp] theorem stateAt_charge :
    (s.charge t).stateAt i = if t = i then (s.stateAt i).map .charged else s.stateAt i := by
  unfold World.stateAt World.charge World.modify
  rw [List.getElem?_modify]
  cases s.allPlayerControllers[i]? with
  | none => simp
  | some c => by_cases h : t = i <;> simp [h]

theorem stateAt_joined_of_lt (h : i < s.allPlayerControllers.length) :
    s.joined.stateAt i = s.stateAt i := by
  unfold World.stateAt
  rw [show s.joined.allPlayerControllers[i]? = s.allPlayerControllers[i]? from
    List.getElem?_append_left h]

/-- The newcomer's player state. -/
theorem stateAt_joined_last : ∃ ps, s.joined.stateAt s.allPlayerControllers.length = some ps ∧
    ps.currentGuessCount = 0 ∧ ps.maxGuessCount = 3 := by
  unfold World.stateAt
  rw [show s.joined.allPlayerControllers[s.allPlayerControllers.length]? = some _ from
    List.getElem?_concat_length ..]
  exact ⟨_, rfl, rfl, rfl⟩

/-- A player who stays keeps the player state when another leaves. -/
theorem stateAt_logout {ps : HwPlayerState}
    (h : (s.modify pc HwPlayerController.destroyed).stateAt i = some ps) : s.stateAt i = some ps := by
  unfold World.stateAt World.modify at h
  unfold World.stateAt
  rw [List.getElem?_modify] at h
  cases hc : s.allPlayerControllers[i]? with
  | none => simp [hc] at h
  | some c =>
      by_cases hpc : pc = i
      · simp [hc, hpc, HwPlayerController.destroyed, HwPlayerController.state?] at h
      · simpa [hc, hpc] using h

/-- In a well-formed state the player state of a position is fit for its seat. -/
theorem World.WellFormed.seatState (h : s.WellFormed) {ps : HwPlayerState}
    (hps : s.stateAt i = some ps) : SeatState i ps := by
  obtain ⟨c, hc, hst⟩ := stateAt_eq_some.mp hps
  have hv : c.isValid = true := by
    by_contra hv
    unfold HwPlayerController.state? at hst
    rw [if_neg hv] at hst
    cases hst
  obtain ⟨ps', hps', hseat⟩ := h.seated i c hc hv
  rw [hst, Option.some.injEq] at hps'
  rwa [hps']

theorem exhausted_iff : s.exhausted = true ↔
    ∀ i ps, s.stateAt i = some ps → ps.maxGuessCount ≤ ps.currentGuessCount := by
  unfold World.exhausted HwPlayerController.hasAttempt
  rw [List.all_eq_true]
  constructor
  · intro h i ps hps
    obtain ⟨c, hc, hst⟩ := stateAt_eq_some.mp hps
    have := h c (List.mem_of_getElem? hc)
    simpa [hst] using this
  · intro h c hc
    obtain ⟨i, hi⟩ := List.mem_iff_getElem?.mp hc
    cases hst : c.state? with
    | none => rfl
    | some ps => simpa using h i ps (stateAt_eq_some.mpr ⟨c, hi, hst⟩)

end StateAt

/-! ## The end of a round -/

/-- A new secret is generated at the end of a round, and only then. -/
def RoundEnds (s s' : World) : Prop := s'.secretsGenerated ≠ s.secretsGenerated

instance : Decidable (RoundEnds s s') := inferInstanceAs (Decidable (¬ _ = _))

theorem draws_iff {t : Nat} (hturn : s.turnHolder = some t) (hc : s.charges e = true)
    (hw : s.wins e = false) : s.draws e = (s.charge t).exhausted := by
  unfold World.draws
  rw [hc, hw, hturn]
  rfl

theorem charges_of_draws (h : s.draws e = true) : s.charges e = true ∧ s.wins e = false := by
  unfold World.draws at h
  simp only [Bool.and_eq_true, Bool.not_eq_true'] at h
  exact h.1

/-- Without a charge the secret stays. -/
theorem Move.secret_eq (hwf : s.WellFormed) (hc : s.charges e = false) (hm : Move s e s') :
    s'.secretNumberString = s.secretNumberString ∧ s'.secretsGenerated = s.secretsGenerated := by
  cases he : e.isArrival with
  | true =>
      cases hm with
      | login => exact ⟨rfl, rfl⟩
      | logout => exact ⟨rfl, rfl⟩
      | _ => cases he
  | false =>
      obtain ⟨clock, calls, rfl⟩ := hm.of_idle hwf he hc
      exact ⟨rfl, rfl⟩

/-- Secrets are generated, never taken back. -/
theorem Move.generated_le (hwf : s.WellFormed) (hm : Move s e s') :
    s.secretsGenerated ≤ s'.secretsGenerated := by
  cases hc : s.charges e with
  | false => exact (hm.secret_eq hwf hc).2.ge
  | true =>
      -- a win draws a secret, another charge at most one
      cases hw : s.wins e with
      | true =>
          obtain ⟨t, c, ps, secret, random, calls, -, -, -, -, rfl⟩ := hm.of_win hw
          exact Nat.le_succ _
      | false =>
          obtain ⟨t, secret, random, calls, -, -, -, rfl⟩ := hm.of_charge hwf hc hw
          cases hex : (s.charge t).exhausted with
          | true =>
              rw [settled_of_exhausted hex]
              exact Nat.le_succ _
          | false =>
              rw [settled_of_attempt hex]
              exact Nat.le_refl _

/-- **What ends a round**: a winning guess, or a charge that leaves nobody with an attempt. -/
theorem Move.roundEnds_iff (hwf : s.WellFormed) (hm : Move s e s') :
    RoundEnds s s' ↔ s.wins e = true ∨ s.draws e = true := by
  unfold RoundEnds
  cases hc : s.charges e with
  | false =>
      rw [(hm.secret_eq hwf hc).2, wins_of_not_charges hc, World.draws, hc]
      simp
  | true =>
      cases hw : s.wins e with
      | true =>
          obtain ⟨t, c, ps, secret, random, calls, -, -, -, -, rfl⟩ := hm.of_win hw
          exact iff_of_true (Nat.succ_ne_self s.secretsGenerated) (Or.inl rfl)
      | false =>
          obtain ⟨t, secret, random, calls, hturn, -, -, rfl⟩ := hm.of_charge hwf hc hw
          rw [draws_iff hturn hc hw]
          cases hex : (s.charge t).exhausted with
          | true =>
              rw [settled_of_exhausted hex]
              exact iff_of_true (Nat.succ_ne_self s.secretsGenerated) (Or.inr rfl)
          | false =>
              rw [settled_of_attempt hex]
              exact iff_of_false (fun h => h rfl) (by simp)

/-- A move that ends no round is no win. -/
theorem Move.wins_eq_false (hwf : s.WellFormed) (hm : Move s e s') (hgoes : ¬ RoundEnds s s') :
    s.wins e = false := by
  rw [← Bool.not_eq_true]
  exact fun hw => hgoes ((hm.roundEnds_iff hwf).mpr (Or.inl hw))

/-- **After a round** nobody has used anything. -/
theorem Move.unused_of_roundEnds (hwf : s.WellFormed) (hm : Move s e s') (hend : RoundEnds s s') :
    Unused s'.allPlayerControllers := by
  cases hw : s.wins e with
  | true =>
      obtain ⟨t, c, ps, secret, random, calls, -, -, -, -, rfl⟩ := hm.of_win hw
      exact unused_clear _
  | false =>
      have hdraw : s.draws e = true := by simpa [hw] using (hm.roundEnds_iff hwf).mp hend
      have hc := (charges_of_draws hdraw).1
      obtain ⟨t, secret, random, calls, hturn, -, -, rfl⟩ := hm.of_charge hwf hc hw
      rw [draws_iff hturn hc hw] at hdraw
      rw [settled_of_exhausted hdraw]
      exact unused_clear _

/-! ## Where the turn goes -/

theorem nextSeat_charge_lt {t : Nat} (h : s.turnHolder = some t) :
    (s.charge t).nextSeat t < s.allPlayerControllers.length := by
  have hcharged : (s.charge t).turnHolder = some t := turnHolder_charge.trans h
  exact (nextSeat_lt hcharged).trans_eq (List.length_modify ..)

theorem nextSeat_charge_of_exhausted {t : Nat} (h : (s.charge t).exhausted = true) :
    (s.charge t).nextSeat t = 1 % s.allPlayerControllers.length := by
  unfold World.nextSeat
  rw [h, if_pos rfl, show (s.charge t).allPlayerControllers.length = s.allPlayerControllers.length
    from List.length_modify ..]

theorem nextSeat_charge_of_attempt {t : Nat} (h : (s.charge t).exhausted = false) :
    (s.charge t).nextSeat t = (t + 1) % s.allPlayerControllers.length := by
  unfold World.nextSeat
  rw [h, if_neg Bool.false_ne_true, show (s.charge t).allPlayerControllers.length
    = s.allPlayerControllers.length from List.length_modify ..]

/-- A move that charges nobody leaves the turn where it is. -/
theorem Move.turnHolder_eq (hwf : s.WellFormed) (he : e.isArrival = false)
    (hc : s.charges e = false) (hm : Move s e s') : s'.turnHolder = s.turnHolder := by
  obtain ⟨clock, calls, rfl⟩ := hm.of_idle hwf he hc
  rfl

theorem nextHolder_of_win {t : Nat} (hturn : s.turnHolder = some t) (hw : s.wins e = true) :
    s.nextHolder e = some 0 := by
  unfold World.nextHolder
  rw [hturn, Option.map_some, hw, if_pos rfl]

theorem nextHolder_of_miss {t : Nat} (hturn : s.turnHolder = some t) (hw : s.wins e = false) :
    s.nextHolder e = some ((s.charge t).nextSeat t) := by
  unfold World.nextHolder
  rw [hturn, Option.map_some, hw, if_neg Bool.false_ne_true]

/-- A charge takes the turn where `nextHolder` says. -/
theorem Move.turnHolder_of_charges (hwf : s.WellFormed) (hc : s.charges e = true)
    (hm : Move s e s') : s'.turnHolder = s.nextHolder e := by
  have hlen := hm.length_eq (isArrival_of_charges hc)
  cases hw : s.wins e with
  | true =>
      obtain ⟨t, c, ps, secret, random, calls, hturn, -, -, -, rfl⟩ := hm.of_win hw
      obtain ⟨-, hlt⟩ := turnHolder_eq_some.mp hturn
      rw [nextHolder_of_win hturn hw]
      exact turnHolder_eq_some.mpr ⟨rfl, by omega⟩
  | false =>
      obtain ⟨t, secret, random, calls, hturn, -, -, rfl⟩ := hm.of_charge hwf hc hw
      rw [nextHolder_of_miss hturn hw]
      exact turnHolder_eq_some.mpr ⟨rfl, by rw [hlen]; exact nextSeat_charge_lt hturn⟩

end NumberBaseball
