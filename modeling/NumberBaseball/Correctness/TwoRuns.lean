import NumberBaseball.Correctness.Turns

/-!
# `Correctness.TwoRuns` — what the chat, the secret and the kind of a charge can influence

The results compare two runs. `Alike` relates two states that differ at most in the secret and in
what has been sent so far; `Move.alike` is the one step lemma: as long as an in-turn guess gets the
same verdict on both sides, both sides make the same move, send the same calls, and either keep their
secrets or draw the same new one. The lockstep rule carries it over runs
(`secret_leaks_only_through_verdicts`), the filter rule drops the chat lines that are no in-turn guess
(`chat_never_disturbs`). The last result runs two handlers from one state: an expired turn and a wrong
guess (`timeout_is_wrong_guess`).
-/

namespace NumberBaseball

open World Machine

/-- Two states that differ at most in the secret, in what has been sent, and in how many secrets have
    been generated. -/
structure World.Alike (s t : World) : Prop where
  roster : t.allPlayerControllers = s.allPlayerControllers
  turn   : t.currentTurnIndex = s.currentTurnIndex
  acted  : t.bHasActedInCurrentTurn = s.bHasActedInCurrentTurn
  clock  : t.remainingTime = s.remainingTime
  random : t.random = s.random

/-- An in-turn guess gets the same verdict on both sides. -/
def SameVerdict (s t : World) : Event → Prop
  | .chat pc msg => s.inTurnGuess pc msg = true →
      judgeResult s.secretNumberString (lastThree msg) =
        judgeResult t.secretNumberString (lastThree msg)
  | _            => True

/-- Both sides keep their secrets, or both have the same one. -/
def SecretsInStep (s t s' t' : World) : Prop :=
  s'.secretNumberString = t'.secretNumberString ∨
    s'.secretNumberString = s.secretNumberString ∧ t'.secretNumberString = t.secretNumberString

namespace World.Alike
variable {s t : World}

protected theorem refl (s : World) : s.Alike s := ⟨rfl, rfl, rfl, rfl, rfl⟩

/-- A state alike to `s` is `s` with other contents in the three fields. -/
theorem eq_with (h : s.Alike t) : t = { s with
    secretNumberString := t.secretNumberString
    secretsGenerated   := t.secretsGenerated
    sent               := t.sent } := by
  obtain ⟨hroster, hturn, hacted, hclock, hrandom⟩ := h
  cases t
  subst hroster hturn hacted hclock hrandom
  rfl

theorem turnHolder (h : s.Alike t) : t.turnHolder = s.turnHolder := by
  rw [h.eq_with]
  rfl

theorem isConnected (h : s.Alike t) (pc : Nat) : t.isConnected pc = s.isConnected pc := by
  rw [h.eq_with]
  rfl

theorem admits (h : s.Alike t) (e : Event) : t.admits e = s.admits e := by
  rw [h.eq_with]
  rfl

theorem inTurnGuess (h : s.Alike t) (pc : Nat) (msg : FString) :
    t.inTurnGuess pc msg = s.inTurnGuess pc msg := by
  rw [h.eq_with]
  rfl

/-- **Equal verdicts mean equal outcomes.** A guess that gets the same verdict against both secrets is
    the secret on both sides or on neither. -/
theorem wins (h : s.Alike t) (hs : s.WellFormed) (ht : t.WellFormed) {pc : Nat} {msg : FString}
    (hv : SameVerdict s t (.chat pc msg)) : t.wins (.chat pc msg) = s.wins (.chat pc msg) := by
  cases hg : s.inTurnGuess pc msg with
  | false => simp only [World.wins, h.inTurnGuess, hg, Bool.false_and]
  | true =>
      have hlen := (isGuessNumberString_iff.mp (inTurnGuess_iff.mp hg).2).1
      -- being the secret is being judged `3S0B`, and the verdicts agree
      have hsame : lastThree msg = t.secretNumberString ↔ lastThree msg = s.secretNumberString := by
        rw [← judgeResult_eq_3S0B ht.secret.1 hlen, ← judgeResult_eq_3S0B hs.secret.1 hlen, hv hg]
      rw [Bool.eq_iff_iff, hs.wins_iff, ht.wins_iff, h.turnHolder, hsame]

/-- Settling the same charge on both sides. -/
theorem settled (h : s.Alike t) (n : Nat) (secret : FString) (random : RandomStream) :
    (s.settled n secret random).Alike (t.settled n secret random) ∧
    SecretsInStep s t (s.settled n secret random) (t.settled n secret random) ∧
    ∃ calls, (s.settled n secret random).sent = s.sent ++ calls ∧
      (t.settled n secret random).sent = t.sent ++ calls := by
  rw [h.eq_with]
  generalize t.secretNumberString = x
  generalize t.secretsGenerated = y
  generalize t.sent = z
  cases hex : s.exhausted with
  | true =>
      rw [settled_of_exhausted hex,
        settled_of_exhausted (s := { s with secretNumberString := x, secretsGenerated := y, sent := z }) hex]
      exact ⟨⟨rfl, rfl, rfl, rfl, rfl⟩, Or.inl rfl, _, List.append_assoc .., List.append_assoc ..⟩
  | false =>
      rw [settled_of_attempt hex,
        settled_of_attempt (s := { s with secretNumberString := x, secretsGenerated := y, sent := z }) hex]
      exact ⟨⟨rfl, rfl, rfl, rfl, rfl⟩, Or.inr ⟨rfl, rfl⟩, _, rfl, rfl⟩

end World.Alike

/-- **The step lemma.** Alike states make the same move. -/
theorem Move.alike {s t s' : World} {e : Event} (h : s.Alike t) (hs : s.WellFormed)
    (ht : t.WellFormed) (hv : SameVerdict s t e) (hm : Move s e s') :
    ∃ t', Move t e t' ∧ s'.Alike t' ∧ SecretsInStep s t s' t' ∧
      ∃ calls, s'.sent = s.sent ++ calls ∧ t'.sent = t.sent ++ calls := by
  have hturn : t.turnHolder = s.turnHolder := h.turnHolder
  cases hm with
  | login =>
      refine ⟨_, .login, ?_⟩
      rw [h.eq_with]
      exact ⟨⟨rfl, rfl, rfl, rfl, rfl⟩, Or.inr ⟨rfl, rfl⟩, _, rfl, rfl⟩
  | logout =>
      refine ⟨_, .logout, ?_⟩
      rw [h.eq_with]
      exact ⟨⟨rfl, rfl, rfl, rfl, rfl⟩, Or.inr ⟨rfl, rfl⟩, [], (List.append_nil _).symm,
        (List.append_nil _).symm⟩
  | @overheard pc msg hg =>
      refine ⟨_, .overheard ((h.inTurnGuess pc msg).trans hg), ?_⟩
      unfold World.overheard
      rw [hturn]
      cases s.turnHolder with
      | none => exact ⟨h, Or.inr ⟨rfl, rfl⟩, [], (List.append_nil _).symm, (List.append_nil _).symm⟩
      | some n =>
          dsimp only
          rw [h.eq_with]
          split
          · exact ⟨⟨rfl, rfl, rfl, rfl, rfl⟩, Or.inr ⟨rfl, rfl⟩, _, rfl, rfl⟩
          · exact ⟨⟨rfl, rfl, rfl, rfl, rfl⟩, Or.inr ⟨rfl, rfl⟩, _, rfl, rfl⟩
  | win hn hw hc hps hgen =>
      refine ⟨_, .win (hturn.trans hn) ((h.wins hs ht hv).trans hw) (by rw [h.roster]; exact hc) hps
        (by rw [h.random]; exact hgen), ?_⟩
      rw [h.eq_with]
      exact ⟨⟨rfl, rfl, rfl, rfl, rfl⟩, Or.inl rfl, _, List.append_assoc .., List.append_assoc ..⟩
  | @miss n msg verdict secret random hn hpc hg hw hver hgen =>
      have hver' : judgeResult t.secretNumberString (lastThree msg) = .ok verdict := by
        rw [← hv (inTurnGuess_iff.mpr ⟨hn, hg⟩), hver]
      refine ⟨_, .miss (hturn.trans hn) ((h.isConnected n).trans hpc) hg
        ((h.wins hs ht hv).trans hw) hver' (by rw [h.random]; exact hgen), ?_⟩
      have hguessed : (s.guessed n msg verdict).Alike (t.guessed n msg verdict) := by
        rw [h.eq_with]
        exact ⟨rfl, rfl, rfl, rfl, rfl⟩
      obtain ⟨halike, hsecrets, calls, hcs, hct⟩ := hguessed.settled n secret random
      refine ⟨halike, hsecrets,
        announce (s.charge n).allPlayerControllers (msg ++ text " -> " ++ verdict) ++ calls, ?_, ?_⟩
      · rw [hcs]
        exact List.append_assoc ..
      · rw [hct, h.eq_with]
        exact List.append_assoc ..
  | @timeout n secret random hn hpc h0 hgen =>
      refine ⟨_, .timeout (hturn.trans hn) ((h.isConnected n).trans hpc) (h.clock.trans h0)
        (by rw [h.random]; exact hgen), ?_⟩
      have hcharged : (s.timedOut n).Alike (t.timedOut n) := by
        rw [h.eq_with]
        exact ⟨rfl, rfl, rfl, rfl, rfl⟩
      obtain ⟨halike, hsecrets, calls, hcs, hct⟩ := hcharged.settled n secret random
      refine ⟨halike, hsecrets, .clientRPCPrintChatMessageString n
        (text " 시간 초과로 인해 기회가 1회 차감됩니다!") :: calls, ?_, ?_⟩
      · rw [hcs]
        exact List.append_assoc ..
      · rw [hct]
        exact List.append_assoc ..
  | counted hpos =>
      refine ⟨_, .counted (by rw [h.clock]; exact hpos), ?_⟩
      rw [h.eq_with]
      exact ⟨⟨rfl, rfl, rfl, rfl, rfl⟩, Or.inr ⟨rfl, rfl⟩, _, rfl, rfl⟩
  | rewound hn hpc h0 =>
      refine ⟨_, .rewound (hturn.trans hn) ((h.isConnected _).trans hpc) (h.clock.trans h0), ?_⟩
      rw [h.eq_with]
      exact ⟨⟨rfl, rfl, rfl, rfl, rfl⟩, Or.inr ⟨rfl, rfl⟩, [], (List.append_nil _).symm,
        (List.append_nil _).symm⟩
  | deserted hn h0 =>
      exact ⟨_, .deserted (hturn.trans hn) (h.clock.trans h0), h, Or.inr ⟨rfl, rfl⟩, [],
        (List.append_nil _).symm, (List.append_nil _).symm⟩

/-! ## Leaving out the chat -/

/-- The event is a chat line that is no in-turn guess. -/
def gossip (s : World) : Event → Bool
  | .chat pc msg => !s.inTurnGuess pc msg
  | _            => false

/-- What the two runs have in common: everything but what has been sent. -/
structure World.InStep (s t : World) : Prop where
  left   : s.WellFormed
  right  : t.WellFormed
  alike  : s.Alike t
  secret : s.secretNumberString = t.secretNumberString

/-- A gossiped line leaves its state as it is. -/
theorem World.InStep.skip {s t s' : World} {e : Event} (h : s.InStep t) (hn : gossip s e = true)
    (hm : Move s e s') : s'.InStep t := by
  cases hm with
  | @overheard pc msg =>
      obtain ⟨calls, heq⟩ := overheard_eq s pc msg
      have ha := h.alike
      rw [heq]
      exact ⟨h.left.sent _, h.right, ⟨ha.roster, ha.turn, ha.acted, ha.clock, ha.random⟩, h.secret⟩
  | win _ hw => simp [gossip, inTurnGuess_of_wins hw] at hn
  | miss hturn _ hg => simp [gossip, inTurnGuess_iff.mpr ⟨hturn, hg⟩] at hn
  | _ => cases hn

/-- Every event is handled alike on both sides. -/
theorem World.InStep.keep {s t s' : World} {e : Event} (h : s.InStep t) (hm : Move s e s') :
    ∃ t', Move t e t' ∧ s'.InStep t' := by
  have hv : SameVerdict s t e := by
    cases e with
    | chat pc msg => exact fun _ => by rw [h.secret]
    | _ => trivial
  obtain ⟨t', hm', halike, hsecrets, -⟩ := hm.alike h.alike h.left h.right hv
  refine ⟨t', hm', h.left.move hm, h.right.move hm', halike, ?_⟩
  -- both have drawn the same new secret, or both have kept the common one
  rcases hsecrets with heq | ⟨heq, heq'⟩
  · exact heq
  · rw [heq, heq', h.secret]

/-- **Chat never disturbs the game.** Leave out of a run every chat line that, when it is handled, does
    not come from the player at the turn or does not end in a legal guess: what is left is a run too,
    with the same random draws, and it ends in the same secret, roster, turn, flag and clock. The roster
    holds the guess counts and the notification texts. -/
theorem chat_never_disturbs {kinds : Event → Prop} {s s' : World} {es : List Event}
    (hs : (game .yieldsNull kinds).Reachable s) (hrun : (game .yieldsNull kinds).Run s es s') :
    ∃ t', (game .yieldsNull kinds).Run s ((game .yieldsNull kinds).filtered gossip s es) t' ∧
      s'.Alike t' ∧ s'.secretNumberString = t'.secretNumberString := by
  have hwf := wellFormed_of_reachable hs
  have hskip : ∀ s t e s', s.InStep t → (game .yieldsNull kinds).allowed s e → gossip s e = true →
      (game .yieldsNull kinds).step s e = .ok s' → s'.InStep t :=
    fun _ _ _ _ h ha hn hstep => h.skip hn (Move.of_handle h.left ha.2 hstep)
  have hkeep : ∀ s t e s', s.InStep t → (game .yieldsNull kinds).allowed s e → gossip s e = false →
      (game .yieldsNull kinds).step s e = .ok s' →
      ∃ t', (game .yieldsNull kinds).allowed t e ∧ (game .yieldsNull kinds).step t e = .ok t' ∧
        s'.InStep t' := by
    intro s t e s' h ha _ hstep
    obtain ⟨t', hm', h'⟩ := h.keep (Move.of_handle h.left ha.2 hstep)
    have ha' : t.admits e = true := (h.alike.admits e).trans ha.2
    exact ⟨t', ⟨ha.1, ha'⟩, hm'.handle_eq h.right ha', h'⟩
  obtain ⟨t', hrun', h'⟩ := hrun.filtered hskip hkeep (t := s) ⟨hwf, hwf, .refl s, rfl⟩
  exact ⟨t', hrun', h'.alike, h'.secret⟩

/-- A greeting and a guess out of turn, left out. -/
theorem chat_never_disturbs_lines : ∃ s' t',
    (game .yieldsNull noLogout).Run emptyServer [.login true, .login true, .chat 1 (text "hello"),
      .chat 1 (text "456"), .chat 0 (text "456"), .tick] s' ∧
    (game .yieldsNull noLogout).Run emptyServer [.login true, .login true, .chat 0 (text "456"),
      .tick] t' ∧ s'.Alike t' := by
  obtain ⟨s', hrun, -⟩ := Run.exists_view (M := game .yieldsNull noLogout) (s := emptyServer)
    [.login true, .login true, .chat 1 (text "hello"), .chat 1 (text "456"), .chat 0 (text "456"),
      .tick] (fun _ => ()) (b := ()) (by decide +kernel)
  obtain ⟨t', hrun', halike, -⟩ := chat_never_disturbs (.init emptyServer_init) hrun
  exact ⟨s', t', hrun, hrun', halike⟩

/-! ## The secret -/

/-- What the two runs have in common when they started in `s₀` and `t₀`: everything but the secret, and
    the calls sent since. -/
structure InLockstep (s₀ t₀ s t : World) : Prop where
  left  : s.WellFormed
  right : t.WellFormed
  alike : s.Alike t
  calls : ∃ calls, s.sent = s₀.sent ++ calls ∧ t.sent = t₀.sent ++ calls

theorem InLockstep.move {s₀ t₀ s t s' : World} {e : Event} (h : InLockstep s₀ t₀ s t)
    (hv : SameVerdict s t e) (hm : Move s e s') : ∃ t', Move t e t' ∧ InLockstep s₀ t₀ s' t' := by
  obtain ⟨calls, hcs, hct⟩ := h.calls
  obtain ⟨t', hm', halike, -, more, hms, hmt⟩ := hm.alike h.alike h.left h.right hv
  refine ⟨t', hm', h.left.move hm, h.right.move hm', halike, calls ++ more, ?_, ?_⟩
  · rw [hms, hcs, List.append_assoc]
  · rw [hmt, hct, List.append_assoc]

/-- **The secret leaks only through verdicts.** From two reachable states that differ at most in their
    secrets, feed both the same events. If every in-turn guess gets the same verdict on both sides, then
    at every step both sides have been sent the same calls, and agree in everything a client can see:
    the roster with its texts, names and counts, the clock and the turn. -/
theorem secret_leaks_only_through_verdicts {kinds : Event → Prop} {s t u : World}
    {es fs : List Event} (hs : (game .yieldsNull kinds).Reachable s)
    (ht : (game .yieldsNull kinds).Reachable t) (halike : s.Alike t)
    (hrun : (game .yieldsNull kinds).Run s (es ++ fs) u)
    (hv : (game .yieldsNull kinds).Along SameVerdict s t (es ++ fs)) :
    ∃ s' t' calls, (game .yieldsNull kinds).Run s es s' ∧ (game .yieldsNull kinds).Run t es t' ∧
      s'.Alike t' ∧ s'.sent = s.sent ++ calls ∧ t'.sent = t.sent ++ calls := by
  obtain ⟨s', hrun', -⟩ := hrun.split
  have hws := wellFormed_of_reachable hs
  have hwt := wellFormed_of_reachable ht
  have hstep : ∀ s₁ t₁ e s₂, InLockstep s t s₁ t₁ → SameVerdict s₁ t₁ e →
      (game .yieldsNull kinds).allowed s₁ e → (game .yieldsNull kinds).step s₁ e = .ok s₂ →
      ∃ t₂, (game .yieldsNull kinds).allowed t₁ e ∧ (game .yieldsNull kinds).step t₁ e = .ok t₂ ∧
        InLockstep s t s₂ t₂ := by
    intro s₁ t₁ e s₂ h hv ha hstep
    obtain ⟨t₂, hm', h'⟩ := h.move hv (Move.of_handle h.left ha.2 hstep)
    have ha' : t₁.admits e = true := (h.alike.admits e).trans ha.2
    exact ⟨t₂, ⟨ha.1, ha'⟩, hm'.handle_eq h.right ha', h'⟩
  obtain ⟨t', hrun'', -, -, halike', calls, hcs, hct⟩ := hrun'.lockstep hstep
    ⟨hws, hwt, halike, [], (List.append_nil _).symm, (List.append_nil _).symm⟩ hv.of_append
  exact ⟨s', t', calls, hrun', hrun'', halike', hcs, hct⟩

/-- A guess without a strike or a ball, against `123` and against `213`. -/
theorem secret_leaks_only_through_verdicts_out : ∃ t s' t' calls,
    t.secretNumberString = text "213" ∧
    (game .yieldsNull noLogout).Run emptyServer [.login true, .chat 0 (text "456")] s' ∧
    (game .yieldsNull noLogout).Run t [.login true, .chat 0 (text "456")] t' ∧
    s'.Alike t' ∧ s'.sent = calls ∧ t'.sent = calls := by
  have ht : (game .yieldsNull noLogout).init { emptyServer with secretNumberString := text "213" } :=
    game_init_boot (fun | 0 => 1 | _ => 0) rfl
  obtain ⟨u, hrun, -⟩ := Run.exists_view (M := game .yieldsNull noLogout) (s := emptyServer)
    ([.login true, .chat 0 (text "456")] ++ []) (fun _ => ()) (b := ()) (by decide +kernel)
  obtain ⟨s', t', calls, hs', ht', halike, hcs, hct⟩ := secret_leaks_only_through_verdicts
    (.init emptyServer_init) (.init ht) ⟨rfl, rfl, rfl, rfl, rfl⟩ hrun ⟨trivial, by
      intro s₁ t₁ hs₁ ht₁
      obtain rfl := Except.ok.inj hs₁
      obtain rfl := Except.ok.inj ht₁
      exact ⟨fun _ => rfl, fun _ _ _ _ => trivial⟩⟩
  exact ⟨_, s', t', calls, rfl, hs', ht', halike, hcs, hct⟩

/-! ## The kind of a charge -/

/-- **A timeout is a wrong guess.** In a reachable state whose clock has run out on a connected player, a
    wrong guess by that player and a tick lead to the same secret, roster, turn, flag and clock, whether or
    not the charge ends the round. The roster holds the guess counts and the notification texts. -/
theorem timeout_is_wrong_guess {kinds : Event → Prop} {s : World} {t : Nat} {msg : FString}
    (hs : (game .yieldsNull kinds).Reachable s) (h0 : s.remainingTime = 0)
    (hturn : s.turnHolder = some t) (hpc : s.isConnected t = true)
    (hg : isGuessNumberString (lastThree msg) = true) (hne : lastThree msg ≠ s.secretNumberString) :
    ∃ guessed timedOut, handle .yieldsNull s (.chat t msg) = .ok guessed ∧
      handle .yieldsNull s .tick = .ok timedOut ∧ guessed.Alike timedOut ∧
      guessed.secretNumberString = timedOut.secretNumberString := by
  have hwf := wellFormed_of_reachable hs
  obtain ⟨secret, random, hgen, -⟩ := generateSecretNumber_ok s.random
  obtain ⟨verdict, hverdict⟩ : ∃ v, judgeResult s.secretNumberString (lastThree msg) = .ok v :=
    ⟨_, judgeResult_eq hwf.secret.1 (isGuessNumberString_iff.mp hg).1⟩
  have hw : s.wins (.chat t msg) = false := by
    rw [← Bool.not_eq_true]
    exact fun hw => hne (hwf.wins_iff.mp hw).2
  refine ⟨_, _, (Move.miss hturn hpc hg hw hverdict hgen).handle_eq hwf hpc,
    (Move.timeout hturn hpc h0 hgen).handle_eq hwf rfl, ?_⟩
  -- both are the same charge, settled; only what has been sent tells them apart
  obtain ⟨calls, hguessed⟩ : ∃ calls, (s.guessed t msg verdict).settled t secret random
      = { (s.charge t).settled t secret random with sent := calls } := settled_guessed
  obtain ⟨calls', htimedOut⟩ : ∃ calls, (s.timedOut t).settled t secret random
      = { (s.charge t).settled t secret random with sent := calls } := settled_timedOut
  rw [hguessed, htimedOut]
  exact ⟨⟨rfl, rfl, rfl, rfl, rfl⟩, rfl⟩

/-- A player alone with the clock run out, whose third charge is a draw either way. -/
theorem timeout_is_wrong_guess_draw : ∃ s guessed timedOut,
    (game .yieldsNull noLogout).Run emptyServer
      (Event.login true :: .chat 0 (text "456") :: .chat 0 (text "456") :: List.replicate 15 .tick) s ∧
    handle .yieldsNull s (.chat 0 (text "456")) = .ok guessed ∧
    handle .yieldsNull s .tick = .ok timedOut ∧ s.draws .tick = true ∧ guessed.Alike timedOut := by
  obtain ⟨s, hrun, hview⟩ := Run.exists_view (M := game .yieldsNull noLogout) (s := emptyServer)
    (Event.login true :: .chat 0 (text "456") :: .chat 0 (text "456") :: List.replicate 15 .tick)
    (fun s => (s.remainingTime, s.turnHolder, s.isConnected 0, s.secretNumberString, s.draws .tick))
    (b := (0, some 0, true, text "123", true)) (by decide +kernel)
  simp only [Prod.mk.injEq] at hview
  obtain ⟨h0, hturn, hpc, hsecret, hdraw⟩ := hview
  have hguess : isGuessNumberString (lastThree (text "456")) = true := by decide
  have hwrong : lastThree (text "456") ≠ s.secretNumberString := by
    rw [hsecret]
    decide
  obtain ⟨guessed, timedOut, hg, ht, halike, -⟩ := timeout_is_wrong_guess
    (.run (.init emptyServer_init) hrun) h0 hturn hpc hguess hwrong
  exact ⟨s, guessed, timedOut, hrun, hg, ht, hdraw, halike⟩

end NumberBaseball
