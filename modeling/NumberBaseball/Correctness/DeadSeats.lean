import NumberBaseball.Correctness.Turns

/-!
# `Correctness.DeadSeats` — the turn and the entries of players who have left

Nothing removes an entry from `AllPlayerControllers`, and a turn that lands on a destroyed controller
stays there: the tick that should pass it on only winds up the clock, and everybody else's guesses are
out of turn. `turn_reaches_connected_player` says so, and says how the turn avoids such an entry:
`KeepsHolder` is the condition on the single step, and `Move.live_iff` shows that it is exact.
-/

namespace NumberBaseball

open World Machine

variable {s s' : World} {e : Event}

/-! ## A dead entry keeps the turn -/

/-- **The step lemma.** A tick never takes the turn away from a destroyed controller. -/
theorem Move.tick_stuck (hwf : s.WellFormed) (h : s.holderConnected = false) (hm : Move s .tick s') :
    s'.holderConnected = false := by
  -- a tick charges only a connected player, and a tick that charges nobody moves no turn
  have hc : s.charges .tick = false := by
    rw [← Bool.not_eq_true]
    intro hc
    rw [((timesOut_iff hwf).mp hc).2] at h
    cases h
  rw [holderConnected_congr (hm.turnHolder_eq hwf rfl hc) (hm.map_isValid rfl), h]

/-- So no number of ticks does. -/
theorem ticks_stuck {kinds : Event → Prop} (k : Nat) (hwf : s.WellFormed)
    (h : s.holderConnected = false)
    (hrun : (game .yieldsNull kinds).exec s (List.replicate k .tick) = .ok s') :
    s'.holderConnected = false := by
  induction k generalizing s with
  | zero =>
      obtain rfl := Except.ok.inj hrun
      exact h
  | succ k ih =>
      rw [List.replicate_succ, Machine.exec, Except.bind_eq_ok] at hrun
      obtain ⟨s₁, hs₁, hrun⟩ := hrun
      have hm : Move s .tick s₁ := Move.of_handle hwf rfl hs₁
      exact ih (hwf.move hm) (hm.tick_stuck hwf h) hrun

/-! ## How the turn avoids dead entries -/

/-- The turn is at a connected player, if there is one. -/
def World.Live (s : World) : Prop := s.anyConnected = true → s.holderConnected = true

/-- The step keeps the turn at a connected player: nobody logs in while the turn is at a destroyed
    controller, the player at the turn does not leave while others stay, and a charge takes the turn to
    a connected player. -/
def KeepsHolder (s : World) : Event → Prop
  | .login _   => s.allPlayerControllers = [] ∨ s.holderConnected = true
  | .logout pc => s.turnHolder ≠ some pc ∨ (s.modify pc HwPlayerController.destroyed).anyConnected = false
  | e         => s.charges e = true → (s.nextHolder e).any s.isConnected = true

instance : ∀ e, Decidable (KeepsHolder s e)
  | .login _  => inferInstanceAs (Decidable (_ ∨ _))
  | .logout _ => inferInstanceAs (Decidable (_ ∨ _))
  | .chat _ _ => inferInstanceAs (Decidable (_ → _))
  | .tick     => inferInstanceAs (Decidable (_ → _))

/-- A newcomer leaves the others, and the turn, where they are. -/
theorem holderConnected_joined (hwf : s.WellFormed) (hne : s.allPlayerControllers ≠ []) :
    s.joined.holderConnected = s.holderConnected := by
  obtain ⟨t, hturn⟩ := hwf.turnHolder hne
  obtain ⟨hcur, hlt⟩ := turnHolder_eq_some.mp hturn
  have hturn' : s.joined.turnHolder = some t := by
    refine turnHolder_eq_some.mpr ⟨hcur, ?_⟩
    show t < (s.allPlayerControllers ++ [_]).length
    rw [List.length_append]
    omega
  have hpc : s.joined.isConnected t = s.isConnected t := by
    unfold World.isConnected
    rw [show s.joined.allPlayerControllers[t]? = s.allPlayerControllers[t]? from
      List.getElem?_append_left hlt]
  unfold World.holderConnected
  rw [hturn', hturn, Option.any_some, Option.any_some, hpc]

theorem turnHolder_logout {pc : Nat} :
    (s.modify pc HwPlayerController.destroyed).turnHolder = s.turnHolder :=
  turnHolder_congr (List.length_modify ..) rfl

/-- After a logout everybody else is as connected as before. -/
theorem isConnected_logout {pc other : Nat} :
    (s.modify pc HwPlayerController.destroyed).isConnected other
      = (decide (pc ≠ other) && s.isConnected other) := by
  unfold World.isConnected World.modify
  rw [List.getElem?_modify]
  by_cases hpc : pc = other
  · subst hpc
    cases s.allPlayerControllers[pc]? <;> simp [HwPlayerController.destroyed]
  · cases s.allPlayerControllers[other]? <;> simp [hpc]

/-- **The step lemma.** From a state whose turn is at a connected player, if there is one, exactly the
    steps of `KeepsHolder` lead to such a state. -/
theorem Move.live_iff (hwf : s.WellFormed) (h : s.Live) (ha : s.admits e = true) (hm : Move s e s') :
    s'.Live ↔ KeepsHolder s e := by
  -- a step that is no arrival keeps who is connected, and passes the turn only if it charges
  have hstay : e.isArrival = false →
      (s'.Live ↔ (s.charges e = true → (s.nextHolder e).any s.isConnected = true)) := by
    intro he
    have hv := hm.map_isValid he
    unfold World.Live
    rw [anyConnected_congr hv]
    cases hc : s.charges e with
    | false =>
        rw [holderConnected_congr (hm.turnHolder_eq hwf he hc) hv]
        exact ⟨fun _ h => absurd h Bool.false_ne_true, fun _ => h⟩
    | true =>
        unfold World.holderConnected
        rw [hm.turnHolder_of_charges hwf hc, funext (isConnected_congr hv)]
        simp [anyConnected_of_charges hwf ha hc]
  cases hm with
  | login =>
      show s.joined.Live ↔ s.allPlayerControllers = [] ∨ s.holderConnected = true
      have hnew : s.joined.isConnected s.allPlayerControllers.length = true :=
        isConnected_iff.mpr ⟨_, List.getElem?_concat_length .., rfl⟩
      have hany : s.joined.anyConnected = true := anyConnected_iff.mpr ⟨_, hnew⟩
      by_cases hnil : s.allPlayerControllers = []
      · have hturn : s.joined.turnHolder = some 0 := by
          refine turnHolder_eq_some.mpr ⟨hwf.turn_empty hnil, ?_⟩
          show 0 < (s.allPlayerControllers ++ [_]).length
          simp
        rw [hnil] at hnew
        exact ⟨fun _ => Or.inl hnil, fun _ _ => holderConnected_iff.mpr ⟨0, hturn, hnew⟩⟩
      · unfold World.Live
        rw [hany, holderConnected_joined hwf hnil]
        simp [hnil]
  | @logout pc =>
      -- who leaves was connected, so the turn was at a connected player
      obtain ⟨t, hturn, hpc⟩ := holderConnected_iff.mp (h (anyConnected_iff.mpr ⟨pc, ha⟩))
      have hholder : (s.modify pc HwPlayerController.destroyed).holderConnected = decide (pc ≠ t) := by
        unfold World.holderConnected
        rw [turnHolder_logout, hturn, Option.any_some, isConnected_logout, hpc, Bool.and_true]
      show (_ → _) ↔ s.turnHolder ≠ some pc ∨ _
      rw [hholder, hturn]
      simp only [decide_eq_true_eq, ne_eq, Option.some.injEq, ← Bool.not_eq_true]
      constructor
      · intro hlive
        by_cases hany : (s.modify pc HwPlayerController.destroyed).anyConnected = true
        · exact Or.inl fun heq => hlive hany heq.symm
        · exact Or.inr hany
      · rintro (hne | hnone) hany heq
        · exact hne heq.symm
        · exact hnone hany
  | overheard => exact hstay rfl
  | win => exact hstay rfl
  | miss => exact hstay rfl
  | timeout => exact hstay rfl
  | counted => exact hstay rfl
  | rewound => exact hstay rfl
  | deserted => exact hstay rfl

/-- A run whose steps all keep the turn at a connected player. -/
theorem live_of_run {kinds : Event → Prop} {es : List Event} (hwf : s.WellFormed) (h : s.Live)
    (hrun : ((game .yieldsNull kinds).restrict KeepsHolder).Run s es s') : s'.Live := by
  refine (hrun.invariant (I := fun s => s.WellFormed ∧ s.Live) ?_ ⟨hwf, h⟩).2
  rintro s e s' ⟨hwf, h⟩ ha hs
  have hm := Move.of_handle hwf ha.1.2 hs
  exact ⟨hwf.move hm, (hm.live_iff hwf h ha.1.2).mpr ha.2⟩

/-- **When the turn reaches a connected player.** From a reachable state some number of ticks brings the
    turn to a connected player exactly when it is at one already. And once it is at one, or nobody is
    connected, it is at one whenever anybody is connected, in every run whose steps all keep it there. -/
theorem turn_reaches_connected_player {kinds : Event → Prop} :
    (∀ s, (game .yieldsNull kinds).Reachable s →
      ((∃ k s', (game .yieldsNull kinds).exec s (List.replicate k .tick) = .ok s' ∧
        s'.holderConnected = true) ↔ s.holderConnected = true)) ∧
    (∀ s t es, (game .yieldsNull kinds).Reachable s → s.Live →
      ((game .yieldsNull kinds).restrict KeepsHolder).Run s es t → t.anyConnected = true →
      ∃ k t', (game .yieldsNull kinds).exec t (List.replicate k .tick) = .ok t' ∧
        t'.holderConnected = true) := by
  constructor
  · intro s hs
    refine ⟨?_, fun h => ⟨0, s, rfl, h⟩⟩
    rintro ⟨k, s', hrun, h⟩
    by_contra hdead
    rw [ticks_stuck k (wellFormed_of_reachable hs) (by simpa using hdead) hrun] at h
    cases h
  · intro s t es hs hlive hrun hany
    exact ⟨0, t, rfl, live_of_run (wellFormed_of_reachable hs) hlive hrun hany⟩

/-- Two players; the one who is not at the turn leaves. -/
theorem turn_reaches_connected_player_other : ∃ s,
    (game .yieldsNull everyEvent).Run emptyServer [.login true, .login true, .logout 1] s ∧
    s.anyConnected = true ∧
    ∃ k s', (game .yieldsNull everyEvent).exec s (List.replicate k .tick) = .ok s' ∧
      s'.holderConnected = true := by
  obtain ⟨s, hrun, hany⟩ := Run.exists_view (M := (game .yieldsNull everyEvent).restrict KeepsHolder)
    (s := emptyServer) [.login true, .login true, .logout 1] World.anyConnected (b := true)
    (by decide +kernel)
  have hlive : emptyServer.Live := fun h => absurd h (by decide)
  exact ⟨s, hrun.of_restrict, hany, turn_reaches_connected_player.2 emptyServer s _
    (.init emptyServer_init) hlive hrun hany⟩

/-- Two players; the one at the turn leaves, and the turn never reaches the other. -/
theorem turn_reaches_connected_player_fails : ∃ s, (game .yieldsNull everyEvent).Reachable s ∧
    (game .yieldsNull everyEvent).Run emptyServer [.login true, .login true, .logout 0] s ∧
    s.anyConnected = true ∧
    ¬ ∃ k s', (game .yieldsNull everyEvent).exec s (List.replicate k .tick) = .ok s' ∧
      s'.holderConnected = true := by
  obtain ⟨s, hrun, hview⟩ := Run.exists_view (M := game .yieldsNull everyEvent) (s := emptyServer)
    [.login true, .login true, .logout 0] (fun s => (s.anyConnected, s.holderConnected))
    (b := (true, false)) (by decide +kernel)
  obtain ⟨hany, hdead⟩ := Prod.mk.inj hview
  have hr := Reachable.run (.init emptyServer_init) hrun
  refine ⟨s, hr, hrun, hany, ?_⟩
  rintro ⟨k, s', hexec, h⟩
  rw [ticks_stuck k (wellFormed_of_reachable hr) hdead hexec] at h
  cases h

end NumberBaseball
