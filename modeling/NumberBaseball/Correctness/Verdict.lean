import NumberBaseball.Correctness.Numbers
import NumberBaseball.Game.Events

/-!
# `Correctness.Verdict` — the legal numbers, and the verdict of number baseball

Two pieces of code say which numbers the game is played with. The generator returns exactly the numbers
of three pairwise distinct digits (`canGenerate_iff`). The validator fills a set of the digits it has
seen, never asks how many there are, and accepts repeated digits, too
(`validator_matches_generator_iff`).

The judge counts a ball for every guessed digit that occurs anywhere in the secret. On guesses without
repeats this is the verdict of the game; `verdict_is_right_iff` says on which others it still is.
-/

namespace NumberBaseball

/-! ## The generator returns every secret -/

/-- Some sequence of random draws makes the generator return `secret`. -/
def CanGenerate (secret : FString) : Prop :=
  ∃ random rest, generateSecretNumber random = .ok (secret, rest)

/-- The value of a digit. -/
def digitValue (c : TCHAR) : Int := c.toNat - 48

/-- A digit from `1` to `9` is in the pool, and prints as itself. -/
theorem fromInt_digitValue {c : TCHAR} (h : IsSecretDigit c) :
    digitValue c ∈ secretPool ∧ fromInt (digitValue c) = [c] := by
  have h1 : 49 ≤ c.toNat := h.1
  have h9 : c.toNat ≤ 57 := h.2
  have hc : c = '1' ∨ c = '2' ∨ c = '3' ∨ c = '4' ∨ c = '5' ∨ c = '6' ∨ c = '7' ∨ c = '8' ∨ c = '9' := by
    simp only [← Char.toNat_inj]
    show c.toNat = 49 ∨ c.toNat = 50 ∨ c.toNat = 51 ∨ c.toNat = 52 ∨ c.toNat = 53 ∨ c.toNat = 54 ∨
      c.toNat = 55 ∨ c.toNat = 56 ∨ c.toNat = 57
    omega
  rcases hc with rfl | rfl | rfl | rfl | rfl | rfl | rfl | rfl | rfl <;> decide

/-- The drawing loop can be made to draw any distinct numbers of its pool, in any order. -/
theorem drawDigits_onto (ds : List Int) :
    ∀ (numbers : List Int) (result : FString), ds.Nodup → (∀ d ∈ ds, d ∈ numbers) →
      ∃ random rest, drawDigits ds.length random numbers result
        = .ok (result ++ ds.flatMap fromInt, rest) := by
  induction ds with
  | nil => exact fun numbers result _ _ => ⟨fun _ => 0, fun _ => 0, by simp [drawDigits]⟩
  | cons d ds ih =>
      intro numbers result hnodup hmem
      obtain ⟨hnew, hnodup⟩ := List.nodup_cons.mp hnodup
      have hd : d ∈ numbers := hmem d List.mem_cons_self
      have hidx : numbers.idxOf d < numbers.length := List.idxOf_lt_length_iff.mpr hd
      -- drawing `d` leaves the others in the pool
      have hrest : ∀ a ∈ ds, a ∈ numbers.erase d := by
        intro a ha
        apply (List.mem_erase_of_ne _).mpr
        · exact hmem a (List.mem_cons_of_mem d ha)
        · rintro rfl
          exact hnew ha
      obtain ⟨random, rest, hdraw⟩ :=
        ih (numbers.erase d) (result ++ fromInt d) hnodup hrest
      obtain ⟨random', hrandom⟩ : ∃ random', randRange random' 0 (numbers.length - 1)
          = ((numbers.idxOf d : Int), random) := exists_randRange (by omega) (by omega) random
      refine ⟨random', rest, ?_⟩
      have hget : numbers[numbers.idxOf d]? = some d := List.getElem?_idxOf hd
      have hremove : removeAt numbers (numbers.idxOf d) = numbers.erase d := by
        rw [removeAt, Int.toNat_natCast, List.eraseIdx_idxOf_eq_erase]
      simp only [List.length_cons, drawDigits, hrandom]
      rw [arrayAt_natCast hget, Except.ok_bind, hremove, hdraw, List.flatMap_cons, List.append_assoc]

/-- **The generator returns exactly the secrets.** -/
theorem canGenerate_iff {s : FString} : CanGenerate s ↔ IsSecret s := by
  constructor
  · rintro ⟨random, rest, hgen⟩
    exact isSecret_of_generate hgen
  · rintro ⟨hlen, hnodup, hdigits⟩
    have hvalue := fun c hc => fromInt_digitValue (hdigits c hc)
    have hprint : (s.map digitValue).flatMap fromInt = s := by
      rw [List.flatMap_map]
      calc s.flatMap (fun c => fromInt (digitValue c))
        _ = s.flatMap (fun c => [c]) := List.flatMap_congr fun c hc => (hvalue c hc).2
        _ = s := List.flatMap_singleton' s
    have hdistinct : (s.map digitValue).Nodup := by
      refine List.Nodup.map_on ?_ hnodup
      intro a ha b hb hab
      have hprint := (hvalue a ha).2
      rw [hab, (hvalue b hb).2] at hprint
      exact (List.singleton_inj.mp hprint).symm
    obtain ⟨random, rest, hdraw⟩ := drawDigits_onto (s.map digitValue) secretPool [] hdistinct (by
      intro d hd
      obtain ⟨c, hc, rfl⟩ := List.mem_map.mp hd
      exact (hvalue c hc).1)
    rw [List.length_map, hlen, hprint] at hdraw
    exact ⟨random, rest, hdraw⟩

/-! ## The validator and the generator -/

/-- **The validator accepts exactly the possible secrets**, except that it accepts repeated digits. -/
theorem validator_matches_generator_iff (s : FString) :
    ((isGuessNumberString s = true ↔ CanGenerate s) ∧ (CanGenerate s ↔ IsSecret s)) ↔
      (s.length = 3 → (∀ c ∈ s, IsSecretDigit c) → s.Nodup) := by
  rw [isGuessNumberString_iff, canGenerate_iff]
  constructor
  · rintro ⟨h, -⟩ hlen hdigits
    exact (h.mp ⟨hlen, hdigits⟩).2.1
  · intro h
    refine ⟨⟨?_, ?_⟩, Iff.rfl⟩
    · rintro ⟨hlen, hdigits⟩
      exact ⟨hlen, h hlen hdigits, hdigits⟩
    · rintro ⟨hlen, -, hdigits⟩
      exact ⟨hlen, hdigits⟩

/-- `112` is accepted, and never drawn. -/
theorem validator_matches_generator_fails : isGuessNumberString (text "112") = true ∧
    ¬ ∃ random rest, generateSecretNumber random = .ok (text "112", rest) := by
  refine ⟨by decide, ?_⟩
  rintro ⟨random, rest, hgen⟩
  exact absurd (isSecret_of_generate hgen).2.1 (by decide)

/-! ## The judge and the game's own verdict -/

/-- **The verdict of number baseball.** The strikes are the positions at which the numbers agree; strikes
    and balls together are the digits the numbers have in common, each as often as it is in both. -/
def IsVerdict (secret guess verdict : FString) : Prop :=
  ∃ ballCount, strikes secret guess + ballCount
      = ((secret : Multiset TCHAR) ∩ (guess : Multiset TCHAR)).card ∧
    verdict = verdictText (strikes secret guess) ballCount

/-- The text of a verdict determines the balls. -/
theorem verdictText_injective {S B B' : Nat} (h : verdictText S B = verdictText S B') : B = B' := by
  have hout : ∀ B B', S = 0 → verdictText S B = verdictText S B' → B = 0 → B' = 0 := by
    rintro B B' rfl h rfl
    by_contra hB'
    rw [verdictText, if_pos ⟨rfl, rfl⟩, verdictText, if_neg fun h0 => hB' h0.2] at h
    -- `OUT` begins with no digit
    have hhead := congrArg List.head? h
    change some 'O' = some '0' at hhead
    cases hhead
  by_cases h0 : S = 0 ∧ (B = 0 ∨ B' = 0)
  · rcases h0 with ⟨hS, hB | hB'⟩
    · rw [hB, hout B B' hS h hB]
    · rw [hB', hout B' B hS h.symm hB']
  · rw [verdictText, if_neg fun h => h0 ⟨h.1, Or.inl h.2⟩, verdictText,
      if_neg fun h => h0 ⟨h.1, Or.inr h.2⟩] at h
    have h := List.append_cancel_left (List.append_cancel_right h)
    exact_mod_cast fromInt_injective h

/-- Among digits `Contains` is membership. -/
theorem contains_digit {secret : FString} {c : TCHAR} (hs : ∀ c ∈ secret, IsSecretDigit c)
    (hc : IsSecretDigit c) : contains secret [c] = decide (c ∈ secret) := by
  unfold contains
  rw [map_toLower_of_digits hs, map_toLower_of_digits (s := [c]) (by simpa using hc)]
  exact decide_eq_decide.mpr (List.singleton_infix_iff c secret)

/-- Position by position: a guessed digit that occurs in the secret is a strike or a ball. -/
theorem strike_or_ball {secret : FString} (hs : ∀ c ∈ secret, IsSecretDigit c)
    (ps : List (TCHAR × TCHAR)) (hps : ∀ p ∈ ps, p.1 ∈ secret ∧ IsSecretDigit p.2) :
    (ps.countP fun p => p.1 == p.2) + (ps.countP fun p => p.1 != p.2 && contains secret [p.2])
      = (ps.map Prod.snd).countP (· ∈ secret) := by
  induction ps with
  | nil => simp
  | cons p ps ih =>
      obtain ⟨hp, hps⟩ := List.forall_mem_cons.mp hps
      have ih := ih hps
      rw [List.map_cons, List.countP_cons, List.countP_cons, List.countP_cons, ← ih,
        contains_digit hs hp.2]
      by_cases heq : p.1 = p.2
      · -- a strike: the digit occurs in the secret at this very position
        have hin : p.2 ∈ secret := by
          rw [← heq]
          exact hp.1
        simp [heq, hin]
        omega
      · by_cases hin : p.2 ∈ secret <;> simp [heq, hin]
        omega

/-- Strikes and balls together are the guessed digits that occur in the secret. -/
theorem strikes_add_balls {secret guess : FString} (hlen : secret.length = guess.length)
    (hs : ∀ c ∈ secret, IsSecretDigit c) (hg : ∀ c ∈ guess, IsSecretDigit c) :
    strikes secret guess + balls secret guess = guess.countP (· ∈ secret) := by
  have hzip : ∀ p ∈ secret.zip guess, p.1 ∈ secret ∧ IsSecretDigit p.2 := by
    intro p hp
    obtain ⟨hp1, hp2⟩ := List.of_mem_zip hp
    exact ⟨hp1, hg p.2 hp2⟩
  have h := strike_or_ball hs (secret.zip guess) hzip
  rw [List.map_snd_zip (by omega)] at h
  exact h

/-- In a list without repeats the members of another one are all in common exactly when none of them is
    repeated there. -/
theorem countP_mem_eq_card_inter {α : Type} [DecidableEq α] {s g : List α} (hs : s.Nodup) :
    g.countP (· ∈ s) = ((s : Multiset α) ∩ (g : Multiset α)).card ↔ ∀ a ∈ s, g.count a ≤ 1 := by
  have hcount : ∀ a ∈ s, s.count a = 1 := fun a ha => List.count_eq_one_of_mem hs ha
  have hle : (s : Multiset α) ∩ (g : Multiset α) ≤ (g : Multiset α).filter (· ∈ s) := by
    rw [Multiset.le_filter]
    refine ⟨Multiset.inter_le_right, fun a ha => ?_⟩
    exact (Multiset.mem_inter.mp ha).1
  rw [← Multiset.coe_countP, Multiset.countP_eq_card_filter]
  constructor
  · intro hcard a ha
    have heq := Multiset.eq_of_le_of_card_le hle hcard.le
    have ha' := congrArg (Multiset.count a) heq
    rw [Multiset.count_inter, Multiset.count_filter_of_pos ha, Multiset.coe_count, Multiset.coe_count,
      hcount a ha] at ha'
    omega
  · intro hone
    congr 1
    refine le_antisymm (Multiset.le_iff_count.mpr fun a => ?_) hle
    by_cases ha : a ∈ s
    · have := hone a ha
      rw [Multiset.count_inter, Multiset.count_filter_of_pos ha, Multiset.coe_count, Multiset.coe_count,
        hcount a ha]
      omega
    · rw [Multiset.count_filter_of_neg ha]
      exact Nat.zero_le _

/-- The judge's verdict is the game's exactly when the digits it counts are the digits in common. -/
theorem isVerdict_judged {secret guess : FString} : IsVerdict secret guess
      (verdictText (strikes secret guess) (balls secret guess)) ↔
    strikes secret guess + balls secret guess
      = ((secret : Multiset TCHAR) ∩ (guess : Multiset TCHAR)).card := by
  constructor
  · rintro ⟨ballCount, hcard, htext⟩
    rw [verdictText_injective htext, hcard]
  · exact fun hcard => ⟨_, hcard, rfl⟩

theorem verdictText_eq_2S1B :
    ∀ S < 4, ∀ B < 4, verdictText S B = text "2S1B" ↔ S = 2 ∧ B = 1 := by decide

/-- Two numbers of the same three digits that agree in two positions agree in the third. -/
theorem strikes_ne_two {secret guess : FString} (hs : secret.length = 3) (hperm : secret.Perm guess) :
    strikes secret guess ≠ 2 := by
  obtain ⟨a, b, c, rfl⟩ := List.length_eq_three.mp hs
  obtain ⟨x, y, z, rfl⟩ := List.length_eq_three.mp (hperm.length_eq.symm.trans hs)
  intro htwo
  -- the one position left holds the one digit left
  have hcount := fun d => hperm.count_eq d
  simp only [List.count_cons, List.count_nil] at hcount
  simp only [strikes, List.zip_cons_cons, List.zip_nil_right, List.countP_cons, List.countP_nil,
    beq_iff_eq] at htwo
  by_cases hax : a = x <;> by_cases hby : b = y <;> by_cases hcz : c = z <;>
    simp only [hax, hby, hcz, if_true, if_false] at htwo <;> try omega
  · have := hcount c
    subst hax hby
    simp [Ne.symm hcz] at this
  · have := hcount b
    subst hax hcz
    simp [Ne.symm hby] at this
  · have := hcount a
    subst hby hcz
    simp [Ne.symm hax] at this

/-- The game has no verdict `2S1B`. -/
theorem IsVerdict.ne_2S1B {secret guess verdict : FString} (hs : secret.length = 3)
    (hg : guess.length = 3) (h : IsVerdict secret guess verdict) : verdict ≠ text "2S1B" := by
  obtain ⟨ballCount, hcard, rfl⟩ := h
  have hle := Multiset.card_le_card
    (Multiset.inter_le_left (s := (secret : Multiset TCHAR)) (t := (guess : Multiset TCHAR)))
  rw [Multiset.coe_card, hs] at hle
  intro htext
  obtain ⟨hS, hB⟩ := (verdictText_eq_2S1B _ (by omega) _ (by omega)).mp htext
  -- all three digits would be in common
  have hleft : (secret : Multiset TCHAR) ∩ (guess : Multiset TCHAR) = secret :=
    Multiset.eq_of_le_of_card_le Multiset.inter_le_left (by rw [Multiset.coe_card, hs]; omega)
  have hright : (secret : Multiset TCHAR) ∩ (guess : Multiset TCHAR) = guess :=
    Multiset.eq_of_le_of_card_le Multiset.inter_le_right (by rw [Multiset.coe_card, hg]; omega)
  exact strikes_ne_two hs (Multiset.coe_eq_coe.mp (hleft.symm.trans hright)) hS

/-- **When the verdict is the game's.** For a secret the generator has returned, and a chat line whose
    last three characters the validator accepts, exactly when no digit of the secret is guessed twice. -/
theorem verdict_is_right_iff {random rest : RandomStream} {secret msg : FString}
    (hgen : generateSecretNumber random = .ok (secret, rest))
    (hg : isGuessNumberString (lastThree msg) = true) :
    (∃ verdict, judgeResult secret (lastThree msg) = .ok verdict ∧
      IsVerdict secret (lastThree msg) verdict ∧ verdict ≠ text "2S1B") ↔
    ∀ c ∈ secret, (lastThree msg).count c ≤ 1 := by
  obtain ⟨hlen, hnodup, hdigits⟩ := isSecret_of_generate hgen
  obtain ⟨hglen, hgdigits⟩ := isGuessNumberString_iff.mp hg
  rw [judgeResult_eq hlen hglen, ← countP_mem_eq_card_inter hnodup,
    ← strikes_add_balls (hlen.trans hglen.symm) hdigits hgdigits, ← isVerdict_judged]
  constructor
  · rintro ⟨verdict, hjudged, hverdict, -⟩
    rwa [← Except.ok.inj hjudged] at hverdict
  · intro hverdict
    exact ⟨_, rfl, hverdict, hverdict.ne_2S1B hlen hglen⟩

/-- A repeated digit that is not in the secret does no harm: `1S0B` for `144` against `123`. -/
theorem verdict_is_right_iff_repeat : ∃ verdict,
    judgeResult (text "123") (lastThree (text "it is 144")) = .ok verdict ∧
    IsVerdict (text "123") (lastThree (text "it is 144")) verdict ∧ verdict ≠ text "2S1B" := by
  have hgen : generateSecretNumber (fun _ => 0) = .ok (text "123", fun _ => 0) := rfl
  have honce : ∀ c ∈ ['1', '2', '3'], ['1', '4', '4'].count c ≤ 1 := by simp
  exact (verdict_is_right_iff hgen (by decide)).mpr honce

/-- `111` against `123` is judged `1S2B`, and `121` is judged `2S1B`. -/
theorem verdict_is_right_fails :
    generateSecretNumber (fun _ => 0) = .ok (text "123", fun _ => 0) ∧
    (isGuessNumberString (lastThree (text "111")) = true ∧
      judgeResult (text "123") (lastThree (text "111")) = .ok (text "1S2B") ∧
      ¬ IsVerdict (text "123") (lastThree (text "111")) (text "1S2B")) ∧
    isGuessNumberString (lastThree (text "121")) = true ∧
      judgeResult (text "123") (lastThree (text "121")) = .ok (text "2S1B") := by
  refine ⟨rfl, ⟨by decide, rfl, ?_⟩, by decide, rfl⟩
  intro h
  have hjudged : IsVerdict (text "123") (text "111")
      (verdictText (strikes (text "123") (text "111")) (balls (text "123") (text "111"))) := h
  exact absurd (isVerdict_judged.mp hjudged) (by decide)

end NumberBaseball
