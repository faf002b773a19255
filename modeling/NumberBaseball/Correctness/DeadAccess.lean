import NumberBaseball.Correctness.Turns

/-!
# `Correctness.DeadAccess` — which events read a destroyed controller

Here the engine is strict: a member access through a destroyed controller, or through a player state
that is absent, is an error (`DeadAccess.faults`). The loop of `ResetGame`, the draw scan of `JudgeGame`
and the announcement of `TurnToNextPlayer` read entries of `AllPlayerControllers` without asking whether
they are valid; the login announcement reads the name of a player state that may be absent.
`World.Guarded` is what the source would have to check, and `handler_succeeds_iff` says that it is
exactly what decides whether a handler runs to its end.
-/

namespace NumberBaseball

open World Machine

variable {s s' : World} {e : Event}

/-- What the source would have to check before event `e`: a login brings a player state; a win finds no
    destroyed entry; the draw scan after any other charge comes to none; and the turn then passes to a
    connected player. -/
structure World.Guarded (s : World) (e : Event) : Prop where
  login : e ≠ .login false
  win   : s.wins e = true → ∀ c ∈ s.allPlayerControllers, c.isValid = true
  scan  : s.charges e = true → s.wins e = false → ∀ t, s.turnHolder = some t →
    ScanReadable .faults (s.charge t).allPlayerControllers
  next  : s.charges e = true → s.wins e = false → (s.nextHolder e).any s.isConnected = true

/-! ## A strict engine only stops earlier -/

section Refines
open Except

theorem getPlayerState_refines (c : HwPlayerController) :
    (getPlayerState .faults c).Refines (getPlayerState .yieldsNull c) := by
  unfold getPlayerState
  split
  · exact .refl _
  · exact .error _

theorem sendTo_refines (pc : Nat) (msg : FString) :
    (s.sendTo .faults pc msg).Refines (s.sendTo .yieldsNull pc msg) := by
  unfold World.sendTo
  apply Refines.bind (.refl _)
  intro c
  split
  · exact .refl _
  · exact .error _

theorem increaseGuessCount_refines (pc : Nat) :
    (increaseGuessCount .faults pc s).Refines (increaseGuessCount .yieldsNull pc s) :=
  .bind (.refl _) fun c => .bind (getPlayerState_refines c) fun _ => .refl _

theorem resetGameLoop_refines (cs : List HwPlayerController) :
    ∀ (i : Nat) (s : World),
      (resetGameLoop .faults i cs s).Refines (resetGameLoop .yieldsNull i cs s) := by
  induction cs with
  | nil => exact fun _ _ => .refl _
  | cons c cs ih =>
      intro i s
      apply Refines.bind (getPlayerState_refines c)
      intro ps
      cases ps with
      | none => exact ih _ _
      | some ps => exact ih _ _

theorem resetGame_refines (s : World) : (resetGame .faults s).Refines (resetGame .yieldsNull s) :=
  .bind (.refl _) fun _ => resetGameLoop_refines _ _ _

theorem drawLoop_refines (cs : List HwPlayerController) :
    (drawLoop .faults cs).Refines (drawLoop .yieldsNull cs) := by
  induction cs with
  | nil => exact .refl _
  | cons c cs ih =>
      apply Refines.bind (getPlayerState_refines c)
      intro ps
      cases ps with
      | none => exact ih
      | some ps =>
          dsimp only
          split
          · exact .refl _
          · exact ih

theorem judgeGame_refines (pc : Nat) (inStrikeCount : Int) (s : World) :
    (judgeGame .faults pc inStrikeCount s).Refines (judgeGame .yieldsNull pc inStrikeCount s) := by
  unfold judgeGame
  split
  · refine .bind (.refl _) fun c => .bind (getPlayerState_refines c) fun ps => ?_
    cases ps with
    | none => exact resetGame_refines _
    | some ps => exact resetGame_refines _
  · apply Refines.bind (drawLoop_refines _)
    intro bIsDraw
    split
    · exact resetGame_refines _
    · exact .refl _

theorem turnToNextPlayer_refines (s : World) :
    (turnToNextPlayer .faults s).Refines (turnToNextPlayer .yieldsNull s) := by
  unfold turnToNextPlayer
  split
  · exact .refl _
  · apply Refines.bind (.refl _)
    intro index
    dsimp only
    split
    · exact .bind (.refl _) fun _ => .bind (.refl _) fun c =>
        .bind (getPlayerState_refines c) fun _ => .refl _
    · exact .refl _

theorem printChatMessageString_refines (pc : Nat) (msg : FString) :
    (printChatMessageString .faults pc msg s).Refines
      (printChatMessageString .yieldsNull pc msg s) := by
  unfold printChatMessageString
  split
  · exact .refl _
  · dsimp only
    apply Refines.bind (.refl _)
    intro turnHolder
    split
    · split
      · exact sendTo_refines _ _
      · exact .refl _
    · split
      · refine .bind (.refl _) fun _ => .bind (increaseGuessCount_refines _) fun _ => ?_
        split
        · exact judgeGame_refines _ _ _
        · exact .bind (judgeGame_refines _ _ _) turnToNextPlayer_refines
      · exact .refl _

theorem updateGameTimer_refines (s : World) :
    (updateGameTimer .faults s).Refines (updateGameTimer .yieldsNull s) := by
  unfold updateGameTimer
  split
  · split
    · refine .bind (.refl _) fun _ => .bind (.refl _) fun c => ?_
      split
      · exact .bind (increaseGuessCount_refines _) fun _ => .bind (sendTo_refines _ _) fun _ =>
          .bind (judgeGame_refines _ _ _) fun s => .bind (turnToNextPlayer_refines s) fun _ => .refl _
      · exact .refl _
    · exact .refl _
  · exact .refl _

theorem onPostLogin_refines (newPlayer : Option HwPlayerController) :
    (onPostLogin .faults newPlayer s).Refines (onPostLogin .yieldsNull newPlayer s) := by
  cases newPlayer with
  | none => exact .refl _
  | some c =>
      unfold onPostLogin
      dsimp only
      split
      · exact .bind (getPlayerState_refines _) fun _ => .refl _
      · exact .refl _

theorem handle_refines (s : World) (e : Event) :
    (handle .faults s e).Refines (handle .yieldsNull s e) := by
  cases e with
  | login hasPlayerState => exact onPostLogin_refines (some (spawnController hasPlayerState))
  | logout _ => exact .refl _
  | chat _ _ => exact printChatMessageString_refines _ _
  | tick => exact updateGameTimer_refines s

/-- Whatever the engine, what a handler returns is what it returns on a lenient one. -/
theorem handle_yieldsNull {acc : DeadAccess} {e : Event} (h : handle acc s e = .ok s') :
    handle .yieldsNull s e = .ok s' := by
  cases acc with
  | yieldsNull => exact h
  | faults => exact handle_refines s e s' h

/-- What a strict engine reaches, a lenient one does, too. -/
theorem reachable_of_faults {kinds : Event → Prop} (h : (game .faults kinds).Reachable s) :
    (game .yieldsNull kinds).Reachable s := by
  refine Reachable.of_refines (M := game .faults kinds)
    (N := game .yieldsNull kinds) ?_ (fun _ _ ha => ha) handle_refines h
  rintro s ⟨s₀, h₀, hb⟩
  exact ⟨s₀, Reachable.of_refines (M := lobby .faults kinds)
    (N := lobby .yieldsNull kinds) (fun _ hi => hi) (fun _ _ ha => ha)
    handle_refines h₀, hb⟩

theorem reachable_yieldsNull {acc : DeadAccess} {kinds : Event → Prop}
    (h : (game acc kinds).Reachable s) : (game .yieldsNull kinds).Reachable s := by
  cases acc with
  | yieldsNull => exact h
  | faults => exact reachable_of_faults h

/-- And a run is one on a lenient engine, too. -/
theorem run_yieldsNull {acc : DeadAccess} {kinds : Event → Prop} {es : List Event}
    (h : (game acc kinds).Run s es s') : (game .yieldsNull kinds).Run s es s' :=
  Run.of_refines (M := game acc kinds) (N := game .yieldsNull kinds) (fun _ _ ha => ha)
    (fun _ _ _ hstep => handle_yieldsNull hstep) h

end Refines

/-! ## A function that succeeds has read valid entries only -/

theorem valid_of_getPlayerState {c : HwPlayerController} {ps : Option HwPlayerState}
    (h : getPlayerState .faults c = .ok ps) : c.isValid = true := by
  by_contra hv
  unfold getPlayerState at h
  rw [if_neg hv] at h
  cases h

theorem scan_of_drawLoop {cs : List HwPlayerController} {bIsDraw : Bool}
    (h : drawLoop .faults cs = .ok bIsDraw) : ScanReadable .faults cs := by
  induction cs with
  | nil => trivial
  | cons c cs ih =>
      rw [drawLoop, Except.bind_eq_ok] at h
      obtain ⟨ps, hget, h⟩ := h
      have hv := valid_of_getPlayerState hget
      rw [getPlayerState_ok (Or.inl hv), Except.ok.injEq] at hget
      subst hget
      refine ⟨Or.inl hv, ?_⟩
      unfold HwPlayerController.hasAttempt
      cases hps : c.state? with
      | none =>
          rw [hps] at h
          exact Or.inr (ih h)
      | some ps =>
          rw [hps] at h
          by_cases hlt : ps.currentGuessCount < ps.maxGuessCount
          · exact Or.inl (by simpa using hlt)
          · exact Or.inr (ih (by simpa [hlt] using h))

theorem valid_of_resetGameLoop {cs : List HwPlayerController} :
    ∀ {i : Nat} {s : World}, resetGameLoop .faults i cs s = .ok s' → ∀ c ∈ cs, c.isValid = true := by
  induction cs with
  | nil => simp
  | cons c cs ih =>
      intro i s h
      rw [resetGameLoop, Except.bind_eq_ok] at h
      obtain ⟨ps, hget, h⟩ := h
      intro d hd
      rcases List.mem_cons.mp hd with rfl | hd
      · exact valid_of_getPlayerState hget
      · cases ps with
        | none => exact ih h d hd
        | some ps => exact ih h d hd

theorem valid_of_resetGame (h : resetGame .faults s = .ok s') :
    ∀ c ∈ s.allPlayerControllers, c.isValid = true := by
  unfold resetGame at h
  rw [Except.bind_eq_ok] at h
  obtain ⟨⟨secret, random⟩, -, h⟩ := h
  exact valid_of_resetGameLoop h

/-- A win is judged only if no entry is destroyed. -/
theorem valid_of_judgeGame {pc : Nat} (h : judgeGame .faults pc 3 s = .ok s') :
    ∀ c ∈ s.allPlayerControllers, c.isValid = true := by
  unfold judgeGame at h
  rw [if_pos rfl, Except.bind_eq_ok] at h
  obtain ⟨c, -, h⟩ := h
  rw [Except.bind_eq_ok] at h
  obtain ⟨ps, -, h⟩ := h
  cases ps with
  | none => exact valid_of_resetGame h
  | some ps =>
      intro d hd
      have hall := valid_of_resetGame h _ (List.mem_map_of_mem (f := HwPlayerController.notified _) hd)
      rwa [HwPlayerController.isValid_notified] at hall

theorem scan_of_judgeGame {pc : Nat} (h : judgeGame .faults pc 0 s = .ok s') :
    ScanReadable .faults s.allPlayerControllers := by
  unfold judgeGame at h
  rw [if_neg (by decide), Except.bind_eq_ok] at h
  obtain ⟨bIsDraw, hloop, -⟩ := h
  exact scan_of_drawLoop hloop

/-- The turn passes only to an entry that is not destroyed. -/
theorem connected_of_turnToNextPlayer {t : Nat} (ht : s.turnHolder = some t)
    (h : turnToNextPlayer .faults s = .ok s') :
    s.isConnected ((t + 1) % s.allPlayerControllers.length) = true := by
  obtain ⟨hcur, hlt⟩ := turnHolder_eq_some.mp ht
  have hget := List.getElem?_eq_getElem
    (show (t + 1) % s.allPlayerControllers.length < s.allPlayerControllers.length from
      Nat.mod_lt _ (by omega))
  rw [turnToNextPlayer_eq hcur hget, Except.bind_eq_ok] at h
  obtain ⟨ps, hps, -⟩ := h
  exact isConnected_iff.mpr ⟨_, hget, valid_of_getPlayerState hps⟩

/-- **Settling a charge, on a strict engine.** -/
theorem settle_succeeds_iff (pc : Nat) {t : Nat} (ht : s.turnHolder = some t) :
    (∃ s', (judgeGame .faults pc 0 s >>= turnToNextPlayer .faults) = .ok s') ↔
      ScanReadable .faults s.allPlayerControllers ∧ s.isConnected (s.nextSeat t) = true := by
  obtain ⟨secret, random, hgen, -⟩ := generateSecretNumber_ok s.random
  obtain ⟨hcur, hlt⟩ := turnHolder_eq_some.mp ht
  constructor
  · rintro ⟨s', h⟩
    rw [Except.bind_eq_ok] at h
    obtain ⟨s₁, hjudge, hturn⟩ := h
    have hscan := scan_of_judgeGame hjudge
    -- from here on the judge is the lenient one, and only the next entry is in question
    rw [judgeGame_zero hscan hgen, Except.ok.injEq] at hjudge
    subst hjudge
    refine ⟨hscan, ?_⟩
    have ht₁ : (s.judged secret random).turnHolder = some (if s.exhausted then 0 else t) := by
      refine turnHolder_eq_some.mpr ⟨currentTurnIndex_judged hcur, ?_⟩
      rw [length_judged]
      split <;> omega
    have hnext := connected_of_turnToNextPlayer ht₁ hturn
    rw [length_judged, isConnected_congr (map_isValid_judged s secret random)] at hnext
    exact hnext
  · rintro ⟨hscan, hnext⟩
    obtain ⟨c, hc, hv⟩ := isConnected_iff.mp hnext
    exact ⟨_, settle_ok hcur hscan hc (Or.inl hv) hgen⟩

/-! ## `Guarded`, event by event -/

/-- An event that charges nobody and brings no bare login is guarded. -/
theorem guarded_of_not_charges (hlogin : e ≠ .login false) (hc : s.charges e = false) :
    s.Guarded e where
  login := hlogin
  win hw := by rw [wins_of_not_charges hc] at hw; cases hw
  scan hc' := by rw [hc'] at hc; cases hc
  next hc' := by rw [hc'] at hc; cases hc

theorem guarded_win_iff (hw : s.wins e = true) :
    s.Guarded e ↔ ∀ c ∈ s.allPlayerControllers, c.isValid = true := by
  refine ⟨fun h => h.win hw, fun h => ⟨?_, fun _ => h, ?_, ?_⟩⟩
  · rintro rfl
    cases hw
  · intro _ hw'
    rw [hw] at hw'
    cases hw'
  · intro _ hw'
    rw [hw] at hw'
    cases hw'

theorem guarded_charge_iff {t : Nat} (hturn : s.turnHolder = some t) (hc : s.charges e = true)
    (hw : s.wins e = false) :
    s.Guarded e ↔ ScanReadable .faults (s.charge t).allPlayerControllers ∧
      s.isConnected ((s.charge t).nextSeat t) = true := by
  have hnext : (s.nextHolder e).any s.isConnected = s.isConnected ((s.charge t).nextSeat t) := by
    rw [nextHolder_of_miss hturn hw, Option.any_some]
  constructor
  · intro h
    exact ⟨h.scan hc hw t hturn, by rw [← hnext]; exact h.next hc hw⟩
  · rintro ⟨hscan, hconn⟩
    refine ⟨?_, fun hw' => ?_, fun _ _ t' ht' => ?_, fun _ _ => by rw [hnext]; exact hconn⟩
    · rintro rfl
      cases hc
    · rw [hw] at hw'
      cases hw'
    · rw [hturn, Option.some.injEq] at ht'
      rwa [← ht']

/-! ## The handlers -/

/-- A charge has made nobody more or less valid. -/
theorem all_valid_charge {t : Nat} : (∀ c ∈ (s.charge t).allPlayerControllers, c.isValid = true) ↔
    ∀ c ∈ s.allPlayerControllers, c.isValid = true := by
  have h : ∀ cs : List HwPlayerController, (∀ c ∈ cs, c.isValid = true) ↔
      ∀ b ∈ cs.map (·.isValid), b = true := fun cs => by simp
  rw [h, h, map_isValid_charge]

theorem World.WellFormed.handle_succeeds_iff (hwf : s.WellFormed) (ha : s.admits e = true) :
    (∃ s', handle .faults s e = .ok s') ↔ s.Guarded e := by
  obtain ⟨secret, random, hgen, -⟩ := generateSecretNumber_ok s.random
  cases e with
  | login hasPlayerState =>
      cases hasPlayerState with
      | true =>
          exact iff_of_true ⟨_, login_ok⟩ (guarded_of_not_charges (fun h => by cases h) rfl)
      | false =>
          refine iff_of_false ?_ fun h => h.login rfl
          rintro ⟨s', h⟩
          rw [show handle .faults s (.login false) = .error .invalidPointer from login_fault] at h
          cases h
  | logout pc => exact iff_of_true ⟨_, rfl⟩ (guarded_of_not_charges (fun h => by cases h) rfl)
  | chat pc msg =>
      cases hg : s.inTurnGuess pc msg with
      | false =>
          exact iff_of_true ⟨_, chat_overheard ha hg⟩
            (guarded_of_not_charges (fun h => by cases h) hg)
      | true =>
          obtain ⟨hturn, hguess⟩ := inTurnGuess_iff.mp hg
          obtain ⟨c, ps, hc, hv, hps, -⟩ := hwf.connected ha
          cases hw : s.wins (.chat pc msg) with
          | true =>
              rw [guarded_win_iff hw, ← all_valid_charge (t := pc)]
              show (∃ s', printChatMessageString .faults pc msg s = .ok s') ↔ _
              rw [chat_win hwf ha hw]
              refine ⟨fun ⟨s', h⟩ => ?_, fun h => ⟨_, judgeGame_guessed hc hps ?_ hgen⟩⟩
              · have hall := valid_of_judgeGame h
                exact hall
              · exact fun c hc => Or.inl (h c hc)
          | false =>
              have hverdict := judgeResult_eq hwf.secret.1 (isGuessNumberString_iff.mp hguess).1
              rw [guarded_charge_iff (e := .chat pc msg) hturn hg hw, ← isConnected_charge]
              show (∃ s', printChatMessageString .faults pc msg s = .ok s') ↔ _
              rw [chat_miss ha hg hw hverdict]
              exact settle_succeeds_iff pc (turnHolder_guessed.trans hturn)
  | tick =>
      cases hout : s.timesOut with
      | true =>
          obtain ⟨h0, hholder⟩ := (timesOut_iff hwf).mp hout
          obtain ⟨t, hturn, hpc⟩ := holderConnected_iff.mp hholder
          obtain ⟨c, ps, hc, hv, -, -⟩ := hwf.connected hpc
          have hsettle := settle_succeeds_iff t (s := s.timedOut t)
            (turnHolder_timedOut.trans hturn)
          rw [guarded_charge_iff (e := .tick) hturn hout rfl, ← isConnected_charge (t := t)]
          refine Iff.trans ?_ hsettle
          show (∃ s', updateGameTimer .faults s = .ok s') ↔ _
          rw [tick_timeout (by omega) hwf.idle hturn hc hv]
          cases (judgeGame .faults t 0 (s.timedOut t) >>= turnToNextPlayer .faults) with
          | ok s₁ => exact iff_of_true ⟨_, rfl⟩ ⟨_, rfl⟩
          | error f => exact iff_of_false (fun ⟨_, h⟩ => by cases h) (fun ⟨_, h⟩ => by cases h)
      | false =>
          refine iff_of_true ?_ (guarded_of_not_charges (fun h => by cases h) hout)
          have hclock := hwf.clock.1
          rcases lt_or_ge 0 s.remainingTime with h | h
          · exact ⟨_, tick_counted h⟩
          · cases hturn : s.turnHolder with
            | none => exact ⟨_, tick_nobody h hturn⟩
            | some t =>
                have hdead : s.isConnected t = false := by
                  rw [← Bool.not_eq_true]
                  intro hpc
                  rw [(timesOut_iff hwf).mpr
                    ⟨by omega, holderConnected_iff.mpr ⟨t, hturn, hpc⟩⟩] at hout
                  cases hout
                exact ⟨_, tick_dead h hwf.idle hturn hdead⟩

theorem handle_succeeds_iff_of_reachable {acc : DeadAccess} (hs : (game acc everyEvent).Reachable s)
    (ha : s.admits e = true) : (∃ s', handle .faults s e = .ok s') ↔ s.Guarded e := by
  exact (wellFormed_of_reachable (reachable_yieldsNull hs)).handle_succeeds_iff ha

/-- A run whose events are all guarded is one of the strict engine, too. -/
theorem run_of_guarded {es : List Event}
    (h : ((game .yieldsNull everyEvent).restrict World.Guarded).Run s es s')
    (hs : (game .faults everyEvent).Reachable s) : (game .faults everyEvent).Run s es s' := by
  induction h with
  | nil => exact .nil
  | @cons s s₁ _ e _ ha hstep _ ih =>
      obtain ⟨s₂, hs₂⟩ := (handle_succeeds_iff_of_reachable hs ha.1.2).mpr ha.2
      -- both engines reach the same state
      have hsame : s₁ = s₂ := Except.ok.inj (hstep.symm.trans (handle_refines s e s₂ hs₂))
      subst hsame
      exact .cons ha.1 hs₂ (ih (.step hs ha.1 hs₂))

/-- **When a handler runs to its end on a strict engine.** In every reachable state, exactly for the
    guarded events. So a run whose events are all guarded meets no error on the way. -/
theorem handler_succeeds_iff {acc : DeadAccess} :
    (∀ s e, (game acc everyEvent).Reachable s → s.admits e = true →
      ((∃ s', handle .faults s e = .ok s') ↔ s.Guarded e)) ∧
    (∀ s es t, (game .faults everyEvent).Reachable s →
      ((game .yieldsNull everyEvent).restrict World.Guarded).Run s es t →
      (game .faults everyEvent).Run s es t) :=
  ⟨fun _ _ hs ha => handle_succeeds_iff_of_reachable hs ha, fun _ _ _ hs h => run_of_guarded h hs⟩

/-- Three players, of whom the third leaves: a wrong guess of the first is harmless, because the draw scan stops
    before it comes to the dead entry, and the turn passes to the second. -/
theorem handler_succeeds_iff_miss : ∃ s,
    (game .faults everyEvent).Run emptyServer [.login true, .login true, .login true, .logout 2] s ∧
    s.isConnected 2 = false ∧ s.charges (.chat 0 (text "456")) = true ∧
    ∃ s', handle .faults s (.chat 0 (text "456")) = .ok s' ∧
      (game .faults everyEvent).Run s [.chat 0 (text "456")] s' := by
  obtain ⟨s, hrun, hview⟩ := Run.exists_view (M := game .faults everyEvent) (s := emptyServer)
    [.login true, .login true, .login true, .logout 2]
    (fun s => (s.turnHolder, (s.charge 0).allPlayerControllers.head?.map fun c => (c.isValid, c.hasAttempt),
      [s.charges (.chat 0 (text "456")), s.wins (.chat 0 (text "456")),
        s.isConnected ((s.charge 0).nextSeat 0), s.isConnected 0, s.isConnected 2]))
    (b := (some 0, some (true, true), [true, false, true, true, false])) (by decide +kernel)
  simp only [Prod.mk.injEq, Option.map_eq_some_iff, List.cons.injEq, and_true] at hview
  obtain ⟨hturn, ⟨c, hfirst, hv, hattempt⟩, hcharges, hwins, hnext, hpc, hdead⟩ := hview
  have hr : (game .faults everyEvent).Reachable s := .run (.init emptyServer_init) hrun
  have hguarded : s.Guarded (.chat 0 (text "456")) := by
    rw [guarded_charge_iff hturn hcharges hwins]
    obtain ⟨cs, hcs⟩ := List.head?_eq_some_iff.mp hfirst
    rw [hcs]
    exact ⟨⟨Or.inl hv, Or.inl hattempt⟩, hnext⟩
  obtain ⟨hsucceeds, hruns⟩ := @handler_succeeds_iff .faults
  obtain ⟨s', hs'⟩ := (hsucceeds s (.chat 0 (text "456")) hr hpc).mpr hguarded
  have hstep : ((game .yieldsNull everyEvent).restrict World.Guarded).Run s [.chat 0 (text "456")] s' :=
    .single ⟨⟨trivial, hpc⟩, hguarded⟩ (handle_yieldsNull hs')
  exact ⟨s, hrun, hdead, hcharges, s', hs', hruns s _ s' hr hstep⟩

/-- Three ways into an unchecked access: the winner's `ResetGame` and the turn announcement meet the
    entry of a player who has left, and a login brings no player state. -/
theorem handler_succeeds_fails :
    (∃ s, (game .faults everyEvent).Reachable s ∧
      (game .faults everyEvent).Run emptyServer [.login true, .login true, .logout 1] s ∧
      s.admits (.chat 0 (text "123")) = true ∧
      handle .faults s (.chat 0 (text "123")) = .error .invalidPointer ∧
      s.admits (.chat 0 (text "456")) = true ∧
      handle .faults s (.chat 0 (text "456")) = .error .invalidPointer) ∧
    handle .faults emptyServer (.login false) = .error .invalidPointer := by
  constructor
  · obtain ⟨s, hrun, hview⟩ := Run.exists_view (M := game .faults everyEvent) (s := emptyServer)
      [.login true, .login true, .logout 1]
      (fun s => (s.isConnected 0, (handle .faults s (.chat 0 (text "123"))).fault?,
        (handle .faults s (.chat 0 (text "456"))).fault?))
      (b := (true, some .invalidPointer, some .invalidPointer)) (by decide +kernel)
    simp only [Prod.mk.injEq, Except.fault?_eq_some] at hview
    obtain ⟨hpc, hwin, hmiss⟩ := hview
    exact ⟨s, .run (.init emptyServer_init) hrun, hrun, hpc, hwin, hpc, hmiss⟩
  · exact login_fault

end NumberBaseball
