import Mathlib
import NumberBaseball.Game.Numbers

/-!
# `Correctness.Numbers` — what the generator, the validator and the judge compute

`IsSecret` is the set of numbers the game is played with: three pairwise distinct digits from `1` to
`9`. Every draw of the generator lands in it, whatever the random stream (`generateSecretNumber_ok`);
the validator accepts three digits from `1` to `9`, distinct or not (`isGuessNumberString_iff`); the
judge never subscripts out of range on such strings, and reports `3S0B` for the secret itself and for
nothing else (`judgeResult_eq_3S0B`).
-/

namespace NumberBaseball

/-- A digit from `1` to `9`. -/
def IsSecretDigit (c : TCHAR) : Prop := '1' ≤ c ∧ c ≤ '9'

instance : DecidablePred IsSecretDigit := fun _ => inferInstanceAs (Decidable (_ ∧ _))

/-- Exactly three pairwise distinct digits from `1` to `9`. -/
def IsSecret (secret : FString) : Prop :=
  secret.length = 3 ∧ secret.Nodup ∧ ∀ c ∈ secret, IsSecretDigit c

instance : DecidablePred IsSecret := fun _ => inferInstanceAs (Decidable (_ ∧ _ ∧ _))

/-! ## Characters -/

theorem char_le_iff {a b : Char} : a ≤ b ↔ a.toNat ≤ b.toNat := Iff.rfl

/-- Digits have no case. -/
theorem toLower_of_le_nine {c : TCHAR} (h : c ≤ '9') : c.toLower = c := by
  unfold Char.toLower
  rw [dif_neg]
  intro hc
  have h9 : c.toNat ≤ 57 := h
  have hA : 65 ≤ c.toNat := hc.1
  omega

/-- On strings of digits the case-insensitive comparison is equality. -/
theorem map_toLower_of_digits {s : FString} (h : ∀ c ∈ s, IsSecretDigit c) :
    s.map Char.toLower = s := by
  conv_rhs => rw [← List.map_id s]
  exact List.map_congr_left fun c hc => toLower_of_le_nine (h c hc).2

theorem equals_iff {a b : FString} (ha : ∀ c ∈ a, IsSecretDigit c)
    (hb : ∀ c ∈ b, IsSecretDigit c) : equals a b = true ↔ a = b := by
  unfold equals
  rw [map_toLower_of_digits ha, map_toLower_of_digits hb, beq_iff_eq]

/-! ## The generator -/

theorem fromInt_injective {a b : Int} (h : fromInt a = fromInt b) : a = b := by
  apply Int.repr_injective
  rw [← Int.toString_eq_repr, ← Int.toString_eq_repr]
  exact String.toList_inj.mp h

/-- A number from `1` to `9` prints as one digit. -/
theorem fromInt_digit {d : Int} (h1 : 1 ≤ d) (h9 : d ≤ 9) : ∃ c, fromInt d = [c] ∧ IsSecretDigit c := by
  obtain rfl | rfl | rfl | rfl | rfl | rfl | rfl | rfl | rfl :
      d = 1 ∨ d = 2 ∨ d = 3 ∨ d = 4 ∨ d = 5 ∨ d = 6 ∨ d = 7 ∨ d = 8 ∨ d = 9 := by omega
  all_goals exact ⟨_, rfl, by decide⟩

/-- The drawing loop returns distinct digits, as long as the pool is large enough, holds distinct
    numbers from `1` to `9`, and none of them has been drawn before. -/
theorem drawDigits_ok (left : Nat) :
    ∀ (random : RandomStream) (numbers : List Int) (result : FString),
    left ≤ numbers.length → numbers.Nodup → (∀ d ∈ numbers, 1 ≤ d ∧ d ≤ 9) →
    result.Nodup → (∀ c ∈ result, IsSecretDigit c) → (∀ d ∈ numbers, ∀ c ∈ result, fromInt d ≠ [c]) →
    ∃ secret rest, drawDigits left random numbers result = .ok (secret, rest) ∧
      secret.length = result.length + left ∧ secret.Nodup ∧ ∀ c ∈ secret, IsSecretDigit c := by
  induction left with
  | zero => exact fun _ _ _ _ _ _ hnd hdig _ => ⟨_, _, rfl, rfl, hnd, hdig⟩
  | succ left ih =>
      intro random numbers result hlen hnodup hrange hnd hdig hfresh
      -- the drawn index is in range, so the subscript succeeds
      obtain ⟨h0, h1⟩ := randRange_mem random (show (0 : Int) ≤ numbers.length - 1 by omega)
      obtain ⟨i, hi⟩ := Int.eq_ofNat_of_zero_le h0
      have hlt : i < numbers.length := by omega
      have hget : numbers[i]? = some numbers[i] := List.getElem?_eq_getElem hlt
      have hmem : numbers[i] ∈ numbers := List.getElem_mem hlt
      obtain ⟨c, hc, hcd⟩ := fromInt_digit (hrange _ hmem).1 (hrange _ hmem).2
      have hsub : ∀ d ∈ numbers.eraseIdx i, d ∈ numbers := fun d hd => List.mem_of_mem_eraseIdx hd
      have hcnew : c ∉ result := fun hcr => hfresh _ hmem c hcr hc
      simp only [drawDigits]
      rw [hi, arrayAt_natCast hget, Except.ok_bind, hc]
      obtain ⟨secret, rest, hok, hlen', hrest⟩ :=
        ih (randRange random 0 (numbers.length - 1)).2 (numbers.eraseIdx i) (result ++ [c])
          (by rw [List.length_eraseIdx_of_lt hlt]; omega)
          (hnodup.sublist (List.eraseIdx_sublist ..))
          (fun d hd => hrange d (hsub d hd))
          (List.nodup_append.mpr ⟨hnd, by simp, by
            intro a ha b hb
            rw [List.mem_singleton.mp hb]
            exact fun he => hcnew (he ▸ ha)⟩)
          (by
            intro a ha
            rcases List.mem_append.mp ha with ha | ha
            · exact hdig a ha
            · rw [List.mem_singleton.mp ha]
              exact hcd)
          (by
            intro d hd a ha
            rcases List.mem_append.mp ha with ha | ha
            · exact hfresh d (hsub d hd) a ha
            · rw [List.mem_singleton.mp ha, ← hc]
              -- the number just drawn has left the pool
              intro he
              rw [fromInt_injective he, ← hnodup.erase_getElem i hlt] at hd
              exact hnodup.not_mem_erase hd)
      exact ⟨secret, rest, hok, by rw [hlen', List.length_append]; simp; omega, hrest⟩

/-- **The generator.** For every random stream it succeeds and returns a legal secret. -/
theorem generateSecretNumber_ok (random : RandomStream) :
    ∃ secret rest, generateSecretNumber random = .ok (secret, rest) ∧ IsSecret secret := by
  obtain ⟨secret, rest, hok, hlen, hnd, hdig⟩ :=
    drawDigits_ok 3 random secretPool [] (by decide) (by decide) (by decide) (by simp) (by simp)
      (by simp)
  exact ⟨secret, rest, hok, by simpa using hlen, hnd, hdig⟩

/-- Whatever the generator returned is a legal secret. -/
theorem isSecret_of_generate {random rest : RandomStream} {secret : FString}
    (h : generateSecretNumber random = .ok (secret, rest)) : IsSecret secret := by
  obtain ⟨secret', rest', h', hsecret⟩ := generateSecretNumber_ok random
  rw [h, Except.ok.injEq, Prod.mk.injEq] at h'
  rwa [h'.1]

/-! ## The validator -/

/-- A character passes the validator's test exactly when it is a digit from `1` to `9`. -/
theorem validDigit_iff {c : TCHAR} : ¬ (isDigit c = false ∨ c = '0') ↔ IsSecretDigit c := by
  unfold isDigit IsSecretDigit
  simp only [Bool.and_eq_false_iff, decide_eq_false_iff_not, not_or, not_not, char_le_iff]
  have h0 : '0'.toNat = 48 := rfl
  have h1 : '1'.toNat = 49 := rfl
  constructor
  · rintro ⟨⟨hlo, hhi⟩, hne⟩
    refine ⟨?_, hhi⟩
    have hne : c.toNat ≠ 48 := fun he => hne (Char.toNat_inj.mp he)
    omega
  · rintro ⟨hlo, hhi⟩
    refine ⟨⟨by omega, hhi⟩, ?_⟩
    rintro rfl
    omega

/-- The validator's loop breaks out exactly when it meets a character that is no such digit. The set
    it fills never influences the outcome. -/
theorem uniqueDigitsLoop_isSome {s : FString} :
    ∀ uniqueDigits : List TCHAR,
      (uniqueDigitsLoop s uniqueDigits).isSome = true ↔ ∀ c ∈ s, IsSecretDigit c := by
  induction s with
  | nil => simp [uniqueDigitsLoop]
  | cons c cs ih =>
      intro uniqueDigits
      rw [uniqueDigitsLoop]
      by_cases hc : isDigit c = false ∨ c = '0'
      · rw [if_pos hc]
        have hbad : ¬ IsSecretDigit c := fun h => validDigit_iff.mpr h hc
        simp [hbad]
      · rw [if_neg hc, ih]
        simp [validDigit_iff.mp hc]

/-- **The validator.** It accepts three digits from `1` to `9`; it does not ask that they differ. -/
theorem isGuessNumberString_iff {s : FString} :
    isGuessNumberString s = true ↔ s.length = 3 ∧ ∀ c ∈ s, IsSecretDigit c := by
  unfold isGuessNumberString
  by_cases hlen : s.length = 3
  · rw [if_neg (not_not.mpr hlen), ← uniqueDigitsLoop_isSome []]
    cases uniqueDigitsLoop s [] <;> simp [hlen]
  · simp [hlen]

/-- Every secret is an acceptable guess. -/
theorem IsSecret.isGuess {secret : FString} (h : IsSecret secret) :
    isGuessNumberString secret = true := isGuessNumberString_iff.mpr ⟨h.1, h.2.2⟩

/-! ## The judge -/

/-- The strikes of a guess: the positions at which it agrees with the secret. -/
def strikes (secret guess : FString) : Nat := (secret.zip guess).countP fun p => p.1 == p.2

/-- The positions at which two strings differ and the guessed character occurs in `whole`. -/
def misplaced (whole secret guess : FString) : Nat :=
  (secret.zip guess).countP fun p => p.1 != p.2 && contains whole [p.2]

/-- The balls of a guess. -/
def balls (secret guess : FString) : Nat := misplaced secret secret guess

/-- The verdict for `strikeCount` strikes and `ballCount` balls. -/
def verdictText (strikeCount ballCount : Nat) : FString :=
  if strikeCount = 0 ∧ ballCount = 0 then text "OUT"
  else fromInt strikeCount ++ text "S" ++ fromInt ballCount ++ text "B"

/-- The judge's loop from a position on adds what the two rests contribute. -/
theorem judgeLoop_eq {secret guess ss gs : FString} (hlen : ss.length = gs.length) :
    ∀ (pre pre' : FString) (S B : Int), pre.length = pre'.length → secret = pre ++ ss →
      guess = pre' ++ gs →
      judgeLoop secret guess (List.range' pre.length ss.length) S B
        = .ok (S + strikes ss gs, B + misplaced secret ss gs) := by
  induction ss generalizing gs with
  | nil => intro _ _ _ _ _ _ _; simp [judgeLoop, strikes, misplaced]
  | cons s ss ih =>
      cases gs with
      | nil => simp at hlen
      | cons g gs =>
          intro pre pre' S B hpre hs hg
          have hss : secret[pre.length]? = some s := by rw [hs]; simp
          have hgg : guess[pre.length]? = some g := by rw [hg, hpre]; simp
          have hlen : ss.length = gs.length := by simpa using hlen
          have ih' := fun S B => ih hlen (pre ++ [s]) (pre' ++ [g]) S B (by simp [hpre])
            (by simp [hs]) (by simp [hg])
          simp only [List.length_append, List.length_singleton] at ih'
          rw [List.length_cons, List.range'_succ, judgeLoop, arrayAt_natCast hss,
            arrayAt_natCast hgg, Except.ok_bind, Except.ok_bind]
          by_cases hsg : s = g
          · -- a strike
            rw [if_pos hsg, ih']
            simp [strikes, misplaced, hsg]
            omega
          · rw [if_neg hsg]
            cases hc : contains secret [g] with
            | true =>
                -- a ball
                rw [if_pos rfl, ih']
                simp [strikes, misplaced, hsg, hc]
                omega
            | false =>
                rw [if_neg Bool.false_ne_true, ih']
                simp [strikes, misplaced, hsg, hc]

/-- **The judge in closed form.** On two strings of length three no subscript is out of range, and the
    loop counts strikes and balls. -/
theorem judgeResult_eq {secret guess : FString} (hs : secret.length = 3) (hg : guess.length = 3) :
    judgeResult secret guess = .ok (verdictText (strikes secret guess) (balls secret guess)) := by
  have hloop : judgeLoop secret guess [0, 1, 2] 0 0
      = .ok (0 + (strikes secret guess : Int), 0 + (balls secret guess : Int)) := by
    have := judgeLoop_eq (hs.trans hg.symm) [] [] 0 0 rfl rfl rfl
    rwa [hs] at this
  unfold judgeResult verdictText
  rw [hloop, Except.ok_bind]
  simp only [Int.zero_add, Nat.cast_eq_zero]
  by_cases h0 : strikes secret guess = 0 ∧ balls secret guess = 0
  · rw [if_pos h0, if_pos h0]
  · rw [if_neg h0, if_neg h0]

example : judgeResult (text "123") (text "145") = .ok (text "1S0B") := by rfl

theorem strikes_add_balls_le (secret guess : FString) :
    strikes secret guess + balls secret guess ≤ (secret.zip guess).length := by
  unfold strikes balls misplaced
  induction secret.zip guess with
  | nil => simp
  | cons p ps ih =>
      rw [List.countP_cons, List.countP_cons, List.length_cons]
      by_cases hp : p.1 = p.2
      · simp [hp]
        omega
      · simp [hp]
        split <;> omega

/-- All positions agree exactly when the strings are equal. -/
theorem strikes_eq_length {secret : FString} :
    ∀ {guess : FString}, secret.length = guess.length →
      (strikes secret guess = secret.length ↔ guess = secret) := by
  unfold strikes
  induction secret with
  | nil => intro guess h; simp_all [eq_comm]
  | cons s ss ih =>
      intro guess h
      cases guess with
      | nil => simp at h
      | cons g gs =>
          have hle := List.countP_le_length (p := fun p : TCHAR × TCHAR => p.1 == p.2) (l := ss.zip gs)
          have ih := @ih gs (by simpa using h)
          rw [List.length_zip] at hle
          by_cases hsg : s = g
          · simpa [hsg] using ih
          · -- a strike is lost here, which the rest cannot make up for
            simp [hsg]
            constructor
            · omega
            · rintro ⟨rfl, -⟩
              exact absurd rfl hsg

/-- The verdict prints the counts, so it determines them. -/
theorem verdictText_eq_3S0B :
    ∀ S < 4, ∀ B < 4, verdictText S B = text "3S0B" ↔ S = 3 ∧ B = 0 := by decide

/-- **`3S0B` is the verdict on the secret, and on nothing else.** -/
theorem judgeResult_eq_3S0B {secret guess : FString} (hs : secret.length = 3)
    (hg : guess.length = 3) :
    judgeResult secret guess = .ok (text "3S0B") ↔ guess = secret := by
  have hle := strikes_add_balls_le secret guess
  rw [List.length_zip, hs, hg, Nat.min_self] at hle
  rw [judgeResult_eq hs hg, Except.ok.injEq, verdictText_eq_3S0B _ (by omega) _ (by omega),
    ← strikes_eq_length (hs.trans hg.symm), hs]
  omega

end NumberBaseball
