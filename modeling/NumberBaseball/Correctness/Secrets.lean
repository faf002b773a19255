import NumberBaseball.Correctness.TwoRuns
import NumberBaseball.Correctness.Outcome
import NumberBaseball.Correctness.Verdict
import NumberBaseball.Correctness.DeadAccess
import NumberBaseball.Correctness.Calls
import NumberBaseball.Lib.Draw

/-!
# `Correctness.Secrets` — where the secrets come from, and what tells them apart

The generator draws without replacement, so every secret comes from exactly one triple of the indices
that `RandRange` returns (`secret_from_one_draw`). What the players are sent tells two secrets apart
exactly when some in-turn guess is judged differently against them (`told_apart_iff`).
-/

namespace NumberBaseball

open World Machine Draw

variable {s s' t t' : World} {e : Event}

/-! ## The generator draws without replacement -/

/-- The indices that the drawing loop gets from `RandRange` when `n` numbers are in the pool. -/
def drawIndices : Nat → Nat → RandomStream → List Nat
  | 0,        _, _      => []
  | left + 1, n, random => random 0 % n :: drawIndices left (n - 1) fun k => random (k + 1)

theorem fits_drawIndices (left : Nat) : ∀ (n : Nat) (random : RandomStream), left ≤ n →
    Fits n (drawIndices left n random) := by
  induction left with
  | zero => exact fun _ _ _ => trivial
  | succ left ih => exact fun n random hle => ⟨Nat.mod_lt _ (by omega), ih _ _ (by omega)⟩

/-- **The drawing loop is a draw without replacement.** -/
theorem drawDigits_eq (left : Nat) : ∀ (random : RandomStream) (numbers : List Int) (result : FString),
    left ≤ numbers.length → ∃ rest, drawDigits left random numbers result
      = .ok (result ++ (pick numbers (drawIndices left numbers.length random)).flatMap fromInt, rest) := by
  induction left with
  | zero => exact fun random numbers result _ => ⟨random, by simp [drawDigits, drawIndices, pick]⟩
  | succ left ih =>
      intro random numbers result hle
      have hlt : random 0 % numbers.length < numbers.length := Nat.mod_lt _ (by omega)
      have hindex : (randRange random 0 (numbers.length - 1)).1 = (random 0 % numbers.length : Nat) := by
        simp only [randRange]
        rw [Int.natCast_mod, Int.sub_zero, Int.sub_add_cancel, Int.zero_add]
      have hlen : (numbers.eraseIdx (random 0 % numbers.length)).length = numbers.length - 1 :=
        List.length_eraseIdx_of_lt hlt
      obtain ⟨rest, hdraw⟩ := ih (fun k => random (k + 1)) (numbers.eraseIdx (random 0 % numbers.length))
        (result ++ fromInt numbers[random 0 % numbers.length]) (by omega)
      refine ⟨rest, ?_⟩
      simp only [drawDigits]
      rw [hindex, arrayAt_natCast (List.getElem?_eq_getElem hlt), Except.ok_bind, drawIndices,
        pick_cons _ hlt, List.flatMap_cons, ← List.append_assoc, ← hlen]
      exact hdraw

/-- The numbers of the pool print as one digit each. -/
theorem digitValue_fromInt {ds : List Int} (h : ∀ d ∈ ds, d ∈ secretPool) :
    (ds.flatMap fromInt).map digitValue = ds := by
  have hdigit : ∀ d ∈ secretPool, (fromInt d).map digitValue = [d] := by decide
  rw [List.map_flatMap]
  calc ds.flatMap (fun d => (fromInt d).map digitValue)
    _ = ds.flatMap (fun d => [d]) := List.flatMap_congr fun d hd => hdigit d (h d hd)
    _ = ds := List.flatMap_singleton' ds

/-- So the generator prints what is drawn at the indices from `RandRange`. -/
theorem generateSecretNumber_eq (random : RandomStream) : ∃ rest, generateSecretNumber random
    = .ok ((pick secretPool (drawIndices 3 9 random)).flatMap fromInt, rest) :=
  drawDigits_eq 3 random secretPool [] (by decide)

/-- Two draws give one secret exactly when `RandRange` has given one triple of indices. -/
theorem generate_eq_iff {random random' rest : RandomStream} {secret : FString}
    (h : generateSecretNumber random = .ok (secret, rest)) :
    (∃ rest', generateSecretNumber random' = .ok (secret, rest')) ↔
      drawIndices 3 9 random' = drawIndices 3 9 random := by
  have hfits : ∀ r, Fits secretPool.length (drawIndices 3 9 r) :=
    fun r => fits_drawIndices 3 9 r (by decide)
  obtain ⟨left, hdraw⟩ := generateSecretNumber_eq random
  obtain ⟨left', hdraw'⟩ := generateSecretNumber_eq random'
  rw [h, Except.ok.injEq, Prod.mk.injEq] at hdraw
  rw [hdraw', hdraw.1]
  constructor
  · rintro ⟨rest', heq⟩
    rw [Except.ok.injEq, Prod.mk.injEq] at heq
    -- the digits show the numbers, and these the positions they were drawn at
    have hpick := congrArg (List.map digitValue) heq.1
    rw [digitValue_fromInt fun d => mem_of_mem_pick, digitValue_fromInt fun d => mem_of_mem_pick] at hpick
    exact (pick_inj (by decide) (hfits random') (hfits random)).mp hpick
  · intro heq
    rw [heq]
    exact ⟨left', rfl⟩

/-- The three indices, each in the range it was asked for. -/
def indexTriple (random : RandomStream) : Fin 9 × Fin 8 × Fin 7 :=
  (Fin.ofNat 9 (random 0), Fin.ofNat 8 (random 1), Fin.ofNat 7 (random 2))

theorem indexTriple_eq_iff {random random' : RandomStream} :
    indexTriple random = indexTriple random' ↔ drawIndices 3 9 random = drawIndices 3 9 random' := by
  simp [indexTriple, drawIndices, Fin.ext_iff]

/-- Every triple is returned by some stream. -/
theorem exists_indexTriple (d : Fin 9 × Fin 8 × Fin 7) : ∃ random, indexTriple random = d :=
  ⟨fun | 0 => d.1 | 1 => d.2.1 | _ => d.2.2, by simp [indexTriple]⟩

/-- **Every secret comes from one draw.** The secrets are the numbers that are drawn from exactly one
    triple of indices, the first out of nine, the second out of eight, the third out of seven. -/
theorem secret_from_one_draw (secret : FString) : IsSecret secret ↔
    ∃! d : Fin 9 × Fin 8 × Fin 7, ∀ random,
      (∃ rest, generateSecretNumber random = .ok (secret, rest)) ↔ indexTriple random = d := by
  constructor
  · intro hsecret
    obtain ⟨random, rest, hgen⟩ := canGenerate_iff.mpr hsecret
    refine ⟨indexTriple random, fun random' => ?_, fun d hd => ?_⟩
    · rw [generate_eq_iff hgen, indexTriple_eq_iff]
    · exact ((hd random).mp ⟨rest, hgen⟩).symm
  · rintro ⟨d, hd, -⟩
    obtain ⟨random, hrandom⟩ := exists_indexTriple d
    obtain ⟨rest, hgen⟩ := (hd random).mpr hrandom
    exact isSecret_of_generate hgen

/-! ## What tells two secrets apart -/

/-- Nothing that has been sent is taken back. -/
theorem sent_of_run {kinds : Event → Prop} {es : List Event} (hwf : s.WellFormed)
    (hrun : (game .yieldsNull kinds).Run s es s') : ∃ calls, s'.sent = s.sent ++ calls := by
  refine (hrun.invariant (I := fun u => u.WellFormed ∧ ∃ calls, u.sent = s.sent ++ calls) ?_
    ⟨hwf, [], (List.append_nil _).symm⟩).2
  rintro u e u' ⟨hwfu, calls, hcalls⟩ ha hs
  have hm := Move.of_handle hwfu ha.2 hs
  obtain ⟨first, msgs, h⟩ := hm.sends
  exact ⟨hwfu.move hm, _, by rw [h.sent, hcalls, List.append_assoc]⟩

/-- The verdict of every in-turn guess is sent. -/
theorem Move.verdictSent (hwf : s.WellFormed) {pc : Nat} {msg : FString}
    (hg : s.inTurnGuess pc msg = true) (hm : Move s (.chat pc msg) s') :
    ∃ verdict, judgeResult s.secretNumberString (lastThree msg) = .ok verdict ∧
      VerdictSent s s' msg verdict := by
  cases hm with
  | overheard h =>
      rw [h] at hg
      cases hg
  | win hturn hw =>
      have hequal := (hwf.wins_iff.mp hw).2
      have hlen : (lastThree msg).length = 3 := by
        rw [hequal]
        exact hwf.secret.1
      exact ⟨_, (judgeResult_eq_3S0B hwf.secret.1 hlen).mpr hequal,
        (verdictSent_guessed s pc msg _).append rfl⟩
  | @miss _ _ verdict secret random _ _ _ _ hv =>
      obtain ⟨calls, hcalls⟩ := settled_sent (s.guessed pc msg verdict) pc secret random
      exact ⟨verdict, hv, (verdictSent_guessed s pc msg verdict).append hcalls⟩

/-- The same calls have been made since `s` and `t`. -/
def SameCalls (s t s' t' : World) : Prop := ∃ calls, s'.sent = s.sent ++ calls ∧ t'.sent = t.sent ++ calls

namespace SameCalls
variable {s₁ t₁ : World}

protected theorem refl : SameCalls s t s t := ⟨[], (List.append_nil _).symm, (List.append_nil _).symm⟩

theorem trans (h : SameCalls s t s₁ t₁) (h' : SameCalls s₁ t₁ s' t') : SameCalls s t s' t' := by
  obtain ⟨calls, hcs, hct⟩ := h
  obtain ⟨more, hms, hmt⟩ := h'
  refine ⟨calls ++ more, ?_, ?_⟩
  · rw [hms, hcs, List.append_assoc]
  · rw [hmt, hct, List.append_assoc]

/-- What has been called alike from the start has been called alike from any point on up to which it was. -/
theorem rest (h : SameCalls s t s₁ t₁) (hgrow : ∃ more, s'.sent = s₁.sent ++ more)
    (hgrow' : ∃ more, t'.sent = t₁.sent ++ more) (h' : SameCalls s t s' t') : SameCalls s₁ t₁ s' t' := by
  obtain ⟨calls, hcs, hct⟩ := h
  obtain ⟨all, has, hat⟩ := h'
  obtain ⟨more, hms⟩ := hgrow
  obtain ⟨more', hmt⟩ := hgrow'
  rw [hms, hcs, List.append_assoc] at has
  rw [hmt, hct, List.append_assoc] at hat
  have heq := (List.append_cancel_left has).trans (List.append_cancel_left hat).symm
  exact ⟨more, hms, by rw [hmt, List.append_cancel_left heq]⟩

end SameCalls

/-- **Different verdicts are heard.** -/
theorem sameVerdict_of_sameCalls {s₁ t₁ : World} (hs : s.WellFormed) (ht : t.WellFormed)
    (halike : s.Alike t) (ha : s.admits e = true) (hm : Move s e s₁) (hm' : Move t e t₁)
    (hgrow : ∃ calls, s'.sent = s₁.sent ++ calls) (hgrow' : ∃ calls, t'.sent = t₁.sent ++ calls)
    (h : SameCalls s t s' t') : SameVerdict s t e := by
  cases e with
  | chat pc msg =>
      intro hg
      obtain ⟨calls, hcs, hct⟩ := h
      obtain ⟨more, hmore⟩ := hgrow
      obtain ⟨more', hmore'⟩ := hgrow'
      obtain ⟨verdict, hv, hsent⟩ := hm.verdictSent hs hg
      obtain ⟨verdict', hv', hsent'⟩ := hm'.verdictSent ht ((halike.inTurnGuess pc msg).trans hg)
      obtain ⟨rest, hrest⟩ := hsent.append hmore
      obtain ⟨rest', hrest'⟩ := hsent'.append hmore'
      rw [hcs, List.append_assoc] at hrest
      rw [hct, List.append_assoc, halike.roster] at hrest'
      have heq := (List.append_cancel_left hrest).symm.trans (List.append_cancel_left hrest')
      have hmsg := announce_injective (anyConnected_iff.mpr ⟨pc, ha⟩) heq
      rw [hv, hv', List.append_cancel_left hmsg]
  | _ => trivial

/-- **What tells two secrets apart.** Feed the same events to two reachable states that differ at most in
    their secrets. What is sent differs exactly when some in-turn guess is judged differently on the two
    sides; in particular nothing else gives a secret away, and every verdict does. -/
theorem told_apart_iff {acc : DeadAccess} {kinds : Event → Prop} {es : List Event}
    (hs : (game acc kinds).Reachable s) (ht : (game acc kinds).Reachable t) (halike : s.Alike t)
    (hrun : (game acc kinds).Run s es s') (hrun' : (game acc kinds).Run t es t') :
    SameCalls s t s' t' ↔ (game acc kinds).Along SameVerdict s t es := by
  have hwf := wellFormed_of_reachable (reachable_yieldsNull hs)
  have hwf' := wellFormed_of_reachable (reachable_yieldsNull ht)
  clear hs ht
  induction hrun generalizing t with
  | nil =>
      cases hrun'
      exact iff_of_true .refl trivial
  | @cons s s₁ s' e es ha hs hrun ih =>
      cases hrun' with
      | @cons _ t₁ _ _ _ ha' hs' hrun' =>
          have hm := Move.of_handle hwf ha.2 (handle_yieldsNull hs)
          have hm' := Move.of_handle hwf' ha'.2 (handle_yieldsNull hs')
          have hgrow := sent_of_run (hwf.move hm) (run_yieldsNull hrun)
          have hgrow' := sent_of_run (hwf'.move hm') (run_yieldsNull hrun')
          -- what one step with equal verdicts does on both sides
          have hstep : SameVerdict s t e → s₁.Alike t₁ ∧ SameCalls s t s₁ t₁ := by
            intro hv
            obtain ⟨t₂, hm₂, halike₁, -, hcalls⟩ := hm.alike halike hwf hwf' hv
            rw [hm'.det hm₂]
            exact ⟨halike₁, hcalls⟩
          constructor
          · intro h
            have hv := sameVerdict_of_sameCalls hwf hwf' halike ha.2 hm hm' hgrow hgrow' h
            obtain ⟨halike₁, hcalls⟩ := hstep hv
            have hrest := (ih halike₁ hrun' (hwf.move hm) (hwf'.move hm')).mp (hcalls.rest hgrow hgrow' h)
            refine ⟨hv, fun s₂ t₂ hs₂ ht₂ => ?_⟩
            rw [hs, Except.ok.injEq] at hs₂
            rw [hs', Except.ok.injEq] at ht₂
            subst hs₂ ht₂
            exact hrest
          · rintro ⟨hv, hrest⟩
            obtain ⟨halike₁, hcalls⟩ := hstep hv
            exact hcalls.trans ((ih halike₁ hrun' (hwf.move hm) (hwf'.move hm')).mpr (hrest s₁ t₁ hs hs'))

/-- One guess, judged against `123` and against `213`: `145` tells them apart, `456` does not. -/
theorem told_apart_iff_guess : ∃ t s₁ t₁ s₂ t₂, t.secretNumberString = text "213" ∧
    (game .yieldsNull noLogout).Run emptyServer [.login true, .chat 0 (text "145")] s₁ ∧
    (game .yieldsNull noLogout).Run t [.login true, .chat 0 (text "145")] t₁ ∧
    ¬ SameCalls emptyServer t s₁ t₁ ∧
    (game .yieldsNull noLogout).Run emptyServer [.login true, .chat 0 (text "456")] s₂ ∧
    (game .yieldsNull noLogout).Run t [.login true, .chat 0 (text "456")] t₂ ∧
    SameCalls emptyServer t s₂ t₂ := by
  have ht : (game .yieldsNull noLogout).init { emptyServer with secretNumberString := text "213" } :=
    game_init_boot (fun | 0 => 1 | _ => 0) rfl
  have halike : emptyServer.Alike { emptyServer with secretNumberString := text "213" } :=
    ⟨rfl, rfl, rfl, rfl, rfl⟩
  obtain ⟨s₁, hs₁, -⟩ := Run.exists_view (M := game .yieldsNull noLogout) (s := emptyServer)
    [.login true, .chat 0 (text "145")] (fun _ => ()) (b := ()) (by decide +kernel)
  obtain ⟨t₁, ht₁, -⟩ := Run.exists_view (M := game .yieldsNull noLogout)
    (s := { emptyServer with secretNumberString := text "213" })
    [.login true, .chat 0 (text "145")] (fun _ => ()) (b := ()) (by decide +kernel)
  obtain ⟨s₂, hs₂, -⟩ := Run.exists_view (M := game .yieldsNull noLogout) (s := emptyServer)
    [.login true, .chat 0 (text "456")] (fun _ => ()) (b := ()) (by decide +kernel)
  obtain ⟨t₂, ht₂, -⟩ := Run.exists_view (M := game .yieldsNull noLogout)
    (s := { emptyServer with secretNumberString := text "213" })
    [.login true, .chat 0 (text "456")] (fun _ => ()) (b := ()) (by decide +kernel)
  refine ⟨_, s₁, t₁, s₂, t₂, rfl, hs₁, ht₁, ?_, hs₂, ht₂, ?_⟩
  · rw [told_apart_iff (.init emptyServer_init) (.init ht) halike hs₁ ht₁]
    intro h
    have hverdict := (h.2 _ _ rfl rfl).1 (by decide)
    exact absurd hverdict (by decide)
  · rw [told_apart_iff (.init emptyServer_init) (.init ht) halike hs₂ ht₂]
    refine ⟨trivial, fun s t hs ht => ?_⟩
    obtain rfl := Except.ok.inj hs
    obtain rfl := Except.ok.inj ht
    exact ⟨fun _ => rfl, fun _ _ _ _ => trivial⟩

end NumberBaseball
