import NumberBaseball.Correctness.Moves

/-!
# `Correctness.Invariant` — every reachable state is well formed

`World.Fresh` is the state `BeginPlay` leaves behind, `World.WellFormed` what every move keeps. From
these come the **induction rules** of the development (`restrict_invariant`, `track_invariant`,
`restrict_track_invariant`): to prove something of every reachable state, prove it of a fresh one and of
every move out of a well-formed one. The representation invariant of the mode is the first result stated
over runs.
-/

namespace NumberBaseball

open World Machine

/-! ## Before `BeginPlay` -/

/-- Every connected player still reads the connection notice. -/
def Greeted (cs : List HwPlayerController) : Prop :=
  ∀ c ∈ cs, c.isValid = true → c.notificationText = text "Connected to the game server."

/-- The server while players arrive and `BeginPlay` has not run. -/
structure World.Waiting (s : World) : Prop where
  turn      : s.currentTurnIndex = 0
  idle      : s.bHasActedInCurrentTurn = false
  clock     : s.remainingTime = turnTime
  generated : s.secretsGenerated = 0
  seated    : Seated s.allPlayerControllers
  unused    : Unused s.allPlayerControllers
  greeted   : Greeted s.allPlayerControllers

/-- The state `BeginPlay` leaves behind. -/
structure World.Fresh (s : World) : Prop where
  wellFormed : s.WellFormed
  turn       : s.currentTurnIndex = 0
  clock      : s.remainingTime = turnTime
  generated  : s.secretsGenerated = 1
  unused     : Unused s.allPlayerControllers
  greeted    : Greeted s.allPlayerControllers

theorem Unused.joined {s : World} (h : Unused s.allPlayerControllers) :
    Unused s.joined.allPlayerControllers := by
  intro c hc ps hps
  rcases List.mem_append.mp hc with hc | hc
  · exact h c hc ps hps
  · rw [List.mem_singleton.mp hc] at hps
    obtain rfl := Option.some.inj hps
    rfl

theorem Greeted.joined {s : World} (h : Greeted s.allPlayerControllers) :
    Greeted s.joined.allPlayerControllers := by
  intro c hc hv
  rcases List.mem_append.mp hc with hc | hc
  · exact h c hc hv
  · rw [List.mem_singleton.mp hc]

/-- An entry after a logout is an old one or a destroyed one. -/
theorem mem_logout {cs : List HwPlayerController} {pc : Nat} {c : HwPlayerController}
    (hc : c ∈ cs.modify pc HwPlayerController.destroyed) : c ∈ cs ∨ c.isValid = false := by
  obtain ⟨i, hi⟩ := List.mem_iff_getElem?.mp hc
  rw [List.getElem?_modify] at hi
  obtain ⟨d, hd, rfl⟩ := Option.map_eq_some_iff.mp hi
  by_cases hpc : pc = i
  · exact Or.inr (by rw [if_pos hpc]; rfl)
  · exact Or.inl (by rw [if_neg hpc]; exact List.mem_of_getElem? hd)

theorem Unused.logout {cs : List HwPlayerController} {pc : Nat} (h : Unused cs) :
    Unused (cs.modify pc HwPlayerController.destroyed) := by
  intro c hc ps hps
  rcases mem_logout hc with hc | hv
  · exact h c hc ps hps
  · unfold HwPlayerController.state? at hps
    rw [if_neg (by rw [hv]; exact Bool.false_ne_true)] at hps
    cases hps

theorem Greeted.logout {cs : List HwPlayerController} {pc : Nat} (h : Greeted cs) :
    Greeted (cs.modify pc HwPlayerController.destroyed) := by
  intro c hc hv
  rcases mem_logout hc with hc | hdead
  · exact h c hc hv
  · rw [hdead] at hv
    cases hv

variable {kinds : Event → Prop}

theorem lobby_waiting {s : World} (h : (lobby .yieldsNull kinds).Reachable s) : s.Waiting := by
  refine h.invariant ?_ ?_
  · rintro s ⟨random, rfl⟩
    exact ⟨rfl, rfl, rfl, rfl, fun _ _ h => (by cases h), fun _ h => (by cases h),
      fun _ h => (by cases h)⟩
  · rintro s e s' _ hw ⟨-, -, harr⟩ hs
    -- nobody chats and no timer runs before `BeginPlay`
    cases e with
    | login hasPlayerState =>
        cases hasPlayerState with
        | false =>
            rw [show (lobby .yieldsNull kinds).step s (.login false) = .error .invalidPointer
              from login_fault] at hs
            cases hs
        | true =>
            rw [show (lobby .yieldsNull kinds).step s (.login true) = .ok s.joined
              from login_ok, Except.ok.injEq] at hs
            subst hs
            exact ⟨hw.turn, hw.idle, hw.clock, hw.generated, hw.seated.joined, hw.unused.joined,
              hw.greeted.joined⟩
    | logout pc =>
        obtain rfl := Except.ok.inj hs
        exact ⟨hw.turn, hw.idle, hw.clock, hw.generated, hw.seated.logout, hw.unused.logout,
          hw.greeted.logout⟩
    | chat pc msg => cases harr
    | tick => cases harr

/-- `BeginPlay` succeeds on every waiting server and leaves it fresh. -/
theorem beginPlay_fresh {s : World} (h : s.Waiting) :
    ∃ s', beginPlay s = .ok s' ∧ s'.Fresh := by
  obtain ⟨secret, random, hgen, hsecret⟩ := generateSecretNumber_ok s.random
  refine ⟨{ s with
    secretNumberString := secret, random := random, secretsGenerated := s.secretsGenerated + 1,
    currentTurnIndex := 0, bHasActedInCurrentTurn := false }, ?_, ?_, rfl, h.clock, ?_, h.unused,
    h.greeted⟩
  · unfold beginPlay
    rw [hgen]
    rfl
  · exact {
      turn_empty := fun _ => rfl
      turn_range := fun hne => ⟨Int.le_refl 0, by
        have hpos : 0 < s.allPlayerControllers.length := List.length_pos_iff.mpr hne
        show (0 : Int) < (s.allPlayerControllers.length : Int)
        omega⟩
      idle := rfl
      clock := by
        show 0 ≤ s.remainingTime ∧ s.remainingTime ≤ turnTime
        rw [h.clock]
        decide
      secret := hsecret
      seated := h.seated }
  · show s.secretsGenerated + 1 = 1
    rw [h.generated]

/-- The game starts fresh. -/
theorem game_init_fresh {s : World} (h : (game .yieldsNull kinds).init s) : s.Fresh := by
  obtain ⟨s₀, hr, hb⟩ := h
  obtain ⟨s', hb', hf⟩ := beginPlay_fresh (lobby_waiting hr)
  rw [hb, Except.ok.injEq] at hb'
  rwa [hb']

/-! ## Every move keeps the invariant -/

namespace World.WellFormed
variable {s s' : World} {e : Event}

/-- The remote calls sent so far are no part of the invariant. -/
theorem sent (h : s.WellFormed) (calls : List Rpc) : ({ s with sent := calls }).WellFormed :=
  ⟨h.turn_empty, h.turn_range, h.idle, h.clock, h.secret, h.seated⟩

theorem clock_full : 0 ≤ turnTime ∧ turnTime ≤ turnTime := by decide

/-- A state with the same roster length and a turn inside it is in range. -/
theorem of_turn {n : Nat} (hlt : n < s.allPlayerControllers.length)
    (hturn : s.currentTurnIndex = n) (hidle : s.bHasActedInCurrentTurn = false)
    (hclock : 0 ≤ s.remainingTime ∧ s.remainingTime ≤ turnTime)
    (hsecret : IsSecret s.secretNumberString) (hseated : Seated s.allPlayerControllers) :
    s.WellFormed where
  turn_empty hnil := by rw [hnil] at hlt; cases hlt
  turn_range _ := by omega
  idle := hidle
  clock := hclock
  secret := hsecret
  seated := hseated

/-- Settling a charge leads to a well-formed state, whether or not it ends the round. -/
theorem settled {t : Nat} {secret : FString} {random : RandomStream}
    (hturn : s.turnHolder = some t) (hold : IsSecret s.secretNumberString)
    (hnew : IsSecret secret) (hseated : Seated s.allPlayerControllers) :
    (s.settled t secret random).WellFormed := by
  have hlt := nextSeat_lt hturn
  cases hex : s.exhausted with
  | true =>
      rw [settled_of_exhausted hex]
      refine of_turn (n := s.nextSeat t) ?_ rfl rfl clock_full hnew hseated.notify.clear
      show _ < ((s.allPlayerControllers.map _).map _).length
      rwa [List.length_map, List.length_map]
  | false =>
      rw [settled_of_attempt hex]
      exact of_turn (n := s.nextSeat t) hlt rfl rfl clock_full hold hseated

theorem move (h : s.WellFormed) (hm : Move s e s') : s'.WellFormed := by
  cases hm with
  | login =>
      have hlen : s.joined.allPlayerControllers.length = s.allPlayerControllers.length + 1 :=
        List.length_append
      refine ⟨fun hnil => ?_, fun _ => ?_, h.idle, h.clock, h.secret, h.seated.joined⟩
      · rw [hnil] at hlen
        cases hlen
      · show 0 ≤ s.currentTurnIndex ∧ s.currentTurnIndex < s.joined.allPlayerControllers.length
        by_cases hnil : s.allPlayerControllers = []
        · rw [h.turn_empty hnil]
          omega
        · have := h.turn_range hnil
          omega
  | logout =>
      refine ⟨fun hnil => h.turn_empty ?_, fun hne => ?_, h.idle, h.clock, h.secret,
        h.seated.logout⟩
      · exact List.modify_eq_nil_iff.mp hnil
      · show _ ∧ _ < ((s.allPlayerControllers.modify _ _).length : Int)
        rw [List.length_modify]
        exact h.turn_range (fun hnil => hne (List.modify_eq_nil_iff.mpr hnil))
  | overheard =>
      obtain ⟨calls, hs'⟩ := overheard_eq s _ _
      rw [hs']
      exact h.sent _
  | @win t msg c ps secret random hturn hw hc hps hgen =>
      obtain ⟨-, hlt⟩ := turnHolder_eq_some.mp hturn
      refine of_turn (n := 0) ?_ rfl rfl h.clock (isSecret_of_generate hgen)
        h.seated.charge.notify.clear
      show 0 < (((s.allPlayerControllers.modify t _).map _).map _).length
      rw [List.length_map, List.length_map, List.length_modify]
      omega
  -- the flag that the guess has set is cleared again by `TurnToNextPlayer`
  | @miss t msg verdict secret random hturn hpc hg hw hv hgen =>
      exact settled (turnHolder_guessed.trans hturn) h.secret
        (isSecret_of_generate hgen) h.seated.charge
  | @timeout t secret random hturn hpc h0 hgen =>
      exact settled (turnHolder_timedOut.trans hturn) h.secret
        (isSecret_of_generate hgen) h.seated.charge
  | counted hpos =>
      have hclock := h.clock
      refine ⟨h.turn_empty, h.turn_range, h.idle, ?_, h.secret, h.seated⟩
      show 0 ≤ s.remainingTime - 1 ∧ s.remainingTime - 1 ≤ turnTime
      omega
  | rewound => exact ⟨h.turn_empty, h.turn_range, h.idle, clock_full, h.secret, h.seated⟩
  | deserted => exact h

end World.WellFormed

/-! ## The induction rules -/

section Rules
variable {s : World} {γ : Type} {g₀ : World → γ} {upd : World → Event → World → γ → γ} {g : γ}

theorem wellFormed_of_reachable (h : (game .yieldsNull kinds).Reachable s) : s.WellFormed :=
  h.invariant (fun _ hi => (game_init_fresh hi).wellFormed)
    (fun _ _ _ _ hwf ha hs => hwf.move (Move.of_handle hwf ha.2 hs))

/-- **The invariant rule of the game**, for the runs whose steps all meet `P`: what holds when the game
    begins and survives every such move out of a well-formed state holds of every state reached. -/
theorem restrict_invariant {P : World → Event → Prop} {I : World → Prop}
    (hinit : ∀ s, (game .yieldsNull kinds).init s → I s)
    (hstep : ∀ s e s', s.WellFormed → I s → kinds e → P s e → Move s e s' → I s')
    (h : ((game .yieldsNull kinds).restrict P).Reachable s) : I s := by
  refine Reachable.invariant (M := (game .yieldsNull kinds).restrict P) hinit ?_ h
  intro s e s' hr hI ha hs
  have hwf := wellFormed_of_reachable hr.of_restrict
  exact hstep s e s' hwf hI ha.1.1 ha.2 (Move.of_handle hwf ha.1.2 hs)

/-- The rule for a state and its history, over all runs. -/
theorem track_invariant {I : World → γ → Prop} (hinit : ∀ s, s.Fresh → I s (g₀ s))
    (hstep : ∀ s g e s', s.WellFormed → I s g → s.admits e = true → Move s e s' →
      I s' (upd s e s' g))
    (h : ((game .yieldsNull kinds).track g₀ upd).Reachable (s, g)) : I s g := by
  refine h.track_invariant (fun s hi => hinit s (game_init_fresh hi)) ?_
  intro s g e s' hr hI ha hs
  have hwf := wellFormed_of_reachable hr
  exact hstep s g e s' hwf hI ha.2 (Move.of_handle hwf ha.2 hs)

/-- The same over the runs whose steps all meet `P`. -/
theorem restrict_track_invariant {P : World → Event → Prop} {I : World → γ → Prop}
    (hinit : ∀ s, s.Fresh → I s (g₀ s))
    (hstep : ∀ s g e s', s.WellFormed → I s g → P s e → Move s e s' → I s' (upd s e s' g))
    (h : (((game .yieldsNull kinds).restrict P).track g₀ upd).Reachable (s, g)) : I s g := by
  refine Reachable.track_invariant (M := (game .yieldsNull kinds).restrict P)
    (fun s hi => hinit s (game_init_fresh hi)) ?_ h
  intro s g e s' hr hI ha hs
  have hwf := wellFormed_of_reachable hr.of_restrict
  exact hstep s g e s' hwf hI ha.2 (Move.of_handle hwf ha.1.2 hs)

end Rules

/-! ## The representation invariant over runs -/

/-- Two connected players of the same name are the same player. -/
theorem World.WellFormed.name_injective {s : World} (h : s.WellFormed) {i j : Nat}
    {c d : HwPlayerController} {ps qs : HwPlayerState} (hc : s.allPlayerControllers[i]? = some c)
    (hd : s.allPlayerControllers[j]? = some d) (hps : c.state? = some ps) (hqs : d.state? = some qs)
    (hname : ps.playerNameString = qs.playerNameString) : i = j := by
  have hvalid : ∀ {c : HwPlayerController} {ps}, c.state? = some ps → c.isValid = true := by
    intro c ps hps
    unfold HwPlayerController.state? at hps
    by_contra hv
    rw [if_neg hv] at hps
    cases hps
  obtain ⟨ps', hps', hi⟩ := h.seated i c hc (hvalid hps)
  obtain ⟨qs', hqs', hj⟩ := h.seated j d hd (hvalid hqs)
  rw [hps, Option.some.injEq] at hps'
  rw [hqs, Option.some.injEq] at hqs'
  subst hps' hqs'
  rw [hi.name, hj.name] at hname
  have := fromInt_injective (List.append_cancel_left hname)
  omega

/-- **The representation invariant.** Every state reached after `BeginPlay`, by logins, disconnects,
    chat lines and ticks in any order, is well formed, and connected players have different names.
    So the handler of every event (but of a login that brings no player state) runs to its end: no
    modulus is zero and no subscript is out of range; and whoever sends a chat line, somebody holds the
    turn. -/
theorem representation_invariant {s : World} (h : (game .yieldsNull everyEvent).Reachable s) :
    s.WellFormed ∧
    (∀ (i j : Nat) (c d : HwPlayerController) (ps qs : HwPlayerState),
      s.allPlayerControllers[i]? = some c → s.allPlayerControllers[j]? = some d →
      c.state? = some ps → d.state? = some qs → ps.playerNameString = qs.playerNameString → i = j) ∧
    (∀ e, s.admits e = true → e ≠ .login false → ∃ s', handle .yieldsNull s e = .ok s') ∧
    (∀ pc, s.isConnected pc = true →
      isValidIndex s.allPlayerControllers s.currentTurnIndex = true) := by
  have hwf := wellFormed_of_reachable h
  refine ⟨hwf, fun _ _ _ _ _ _ => hwf.name_injective, ?_, ?_⟩
  · intro e ha hlogin
    obtain ⟨s', hs', -⟩ := handle_move hwf ha hlogin
    exact ⟨s', hs'⟩
  · intro pc hpc
    obtain ⟨c, hc, -⟩ := isConnected_iff.mp hpc
    obtain ⟨t, ht⟩ := hwf.turnHolder (List.ne_nil_of_mem (List.mem_of_getElem? hc))
    exact isValidIndex_turnHolder ht

/-- Two players, one of whom has guessed and one of whom has left. -/
theorem representation_invariant_two : ∃ s, (game .yieldsNull everyEvent).Reachable s ∧
    s.allPlayerControllers.map (·.isValid) = [true, false] ∧ s.WellFormed := by
  obtain ⟨s, hrun, hs⟩ := Run.exists_view (M := game .yieldsNull everyEvent) (s := emptyServer)
    [.login true, .login true, .chat 0 (text "456"), .logout 1]
    (fun s => s.allPlayerControllers.map (·.isValid)) (b := [true, false]) (by decide +kernel)
  have hr := Reachable.run (.init emptyServer_init) hrun
  exact ⟨s, hr, hs, (representation_invariant hr).1⟩

end NumberBaseball
