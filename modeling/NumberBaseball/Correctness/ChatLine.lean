import NumberBaseball.Game.Client
import NumberBaseball.Correctness.Moves

/-!
# `Correctness.ChatLine` — what the server reads out of what a player typed

The server cannot tell the text from what the client puts in front of it, and takes the last three
characters for the guess. A text of three characters arrives as it is; the tail of a shorter one reaches
into the separator and is no guess; of a longer one only the tail is read. `chat_line_decoded_iff` says
when the two sides agree.
-/

namespace NumberBaseball

open World

/-! ## The last three characters of a line -/

theorem lastThree_eq_drop (s : FString) : lastThree s = s.drop (s.length - 3) := by
  unfold lastThree rightChop
  congr 1
  omega

theorem lastThree_of_length {s : FString} (h : s.length ≤ 3) : lastThree s = s := by
  rw [lastThree_eq_drop, Nat.sub_eq_zero_of_le h, List.drop_zero]

/-- What stands in front of three characters or more does not matter. -/
theorem lastThree_append (pre : FString) {t : FString} (h : 3 ≤ t.length) :
    lastThree (pre ++ t) = lastThree t := by
  rw [lastThree_eq_drop, lastThree_eq_drop, List.length_append,
    show pre.length + t.length - 3 = pre.length + (t.length - 3) by omega, List.drop_length_add_append]

/-- Behind a character, fewer than three leave room for it. -/
theorem mem_lastThree_append (pre : FString) (c : TCHAR) {t : FString} (h : t.length < 3) :
    c ∈ lastThree (pre ++ c :: t) := by
  have hskip : (pre ++ c :: t).length - 3 ≤ pre.length := by
    rw [List.length_append, List.length_cons]
    omega
  rw [lastThree_eq_drop, List.drop_append_of_le_length hskip]
  exact List.mem_append_right _ List.mem_cons_self

/-! ## The line and the text -/

/-- What the client sends for a text ends with a blank and the text. -/
theorem setChatMessageString_eq {isLocalController : Bool} {c : HwPlayerController} {t m : FString}
    (h : c.setChatMessageString isLocalController t = some m) : ∃ pre, m = pre ++ ' ' :: t := by
  unfold HwPlayerController.setChatMessageString at h
  split at h
  · split at h
    · next cxps _ =>
        obtain rfl := Option.some.inj h
        refine ⟨cxps.getPlayerInfoString ++ [':'], ?_⟩
        rw [List.append_assoc, List.append_assoc]
        rfl
    · cases h
  · cases h

/-- The server reads the line `m` as the player meant the text `t`: it takes the line for a guess exactly
    when the text is a legal number, and then for that number; any other text is passed on as chat. -/
structure Decoded (m t : FString) : Prop where
  guess : isGuessNumberString (lastThree m) = true ↔ isGuessNumberString t = true
  text  : isGuessNumberString (lastThree m) = true → lastThree m = t
  chat  : isGuessNumberString t = false → ∀ (acc : DeadAccess) (s : World) (pc : Nat), s.WellFormed →
    s.isConnected pc = true → printChatMessageString acc pc m s = .ok (s.broadcast m)

/-- A line that does not end in a legal number is passed on. -/
theorem chat_passed_on {acc : DeadAccess} {s : World} {pc : Nat} {m : FString} (hwf : s.WellFormed)
    (hpc : s.isConnected pc = true) (hm : isGuessNumberString (lastThree m) = false) :
    printChatMessageString acc pc m s = .ok (s.broadcast m) := by
  obtain ⟨c, hc, -⟩ := isConnected_iff.mp hpc
  obtain ⟨t, hturn⟩ := hwf.turnHolder (List.ne_nil_of_mem (List.mem_of_getElem? hc))
  have hg : s.inTurnGuess pc m = false := by simp [World.inTurnGuess, hm]
  rw [chat_overheard hpc hg]
  simp [World.overheard, hturn, hm]

/-- The server reads a line as a guess when the text has three characters or more, and its own last three
    are a legal number. The tail of a shorter text reaches back to the blank, which is no digit. -/
theorem isGuess_line_iff {pre t : FString} : isGuessNumberString (lastThree (pre ++ ' ' :: t)) = true
    ↔ 3 ≤ t.length ∧ isGuessNumberString (lastThree t) = true := by
  rcases Nat.lt_or_ge t.length 3 with hlt | hge
  · apply iff_of_false
    · intro hg
      have hblank := (isGuessNumberString_iff.mp hg).2 ' ' (mem_lastThree_append pre ' ' hlt)
      exact absurd hblank (by decide)
    · exact fun h => Nat.not_le.mpr hlt h.1
  · rw [List.append_cons, lastThree_append _ hge]
    exact (and_iff_right hge).symm

/-- A text that is a legal number is read as one. -/
theorem isGuess_lastThree_of_isGuess {t : FString} (h : isGuessNumberString t = true) :
    t.length = 3 ∧ isGuessNumberString (lastThree t) = true := by
  have hlen := (isGuessNumberString_iff.mp h).1
  rw [lastThree_of_length hlen.le]
  exact ⟨hlen, h⟩

/-- **When client and server agree about a line.** For every name and every counts in front of the text,
    exactly when the text has at most three characters, or its own last three are no legal number. -/
theorem chat_line_decoded_iff {isLocalController : Bool} {c : HwPlayerController} {t m : FString}
    (h : c.setChatMessageString isLocalController t = some m) :
    Decoded m t ↔ t.length ≤ 3 ∨ isGuessNumberString (lastThree t) = false := by
  obtain ⟨pre, rfl⟩ := setChatMessageString_eq h
  constructor
  · intro hdec
    by_contra hno
    simp only [not_or, Nat.not_le, Bool.not_eq_false] at hno
    obtain ⟨hlen, hg⟩ := hno
    -- the tail of a longer text is a legal number, and the text itself is none
    have hread := hdec.guess.mp (isGuess_line_iff.mpr ⟨hlen.le, hg⟩)
    have := (isGuess_lastThree_of_isGuess hread).1
    omega
  · intro hcond
    have htext : isGuessNumberString (lastThree (pre ++ ' ' :: t)) = true →
        lastThree (pre ++ ' ' :: t) = t := by
      intro hg
      obtain ⟨hge, hg⟩ := isGuess_line_iff.mp hg
      have hle : t.length ≤ 3 := hcond.resolve_right (by simp [hg])
      rw [List.append_cons, lastThree_append _ hge, lastThree_of_length hle]
    have hguess : isGuessNumberString (lastThree (pre ++ ' ' :: t)) = true
        ↔ isGuessNumberString t = true := by
      constructor
      · intro hg
        rwa [htext hg] at hg
      · intro hg
        obtain ⟨hlen, hg⟩ := isGuess_lastThree_of_isGuess hg
        exact isGuess_line_iff.mpr ⟨hlen.ge, hg⟩
    refine ⟨hguess, htext, fun hno acc s pc hwf hpc => ?_⟩
    apply chat_passed_on hwf hpc
    rw [← Bool.not_eq_true, hguess, hno]
    exact Bool.false_ne_true

/-- A player named `Player1` with one attempt used. -/
def typist : HwPlayerController where
  isValid          := true
  notificationText := []
  playerState      := some { HwPlayerState.new with
    playerNameString := text "Player1", currentGuessCount := 1 }

/-- The texts `456` and `hi` are read as they are meant. -/
theorem chat_line_decoded_iff_short : Decoded (text "Player1(1/3): 456") (text "456") ∧
    Decoded (text "Player1(1/3): hi") (text "hi") := by
  have hguess : typist.setChatMessageString true (text "456") = some (text "Player1(1/3): 456") := rfl
  have hchat : typist.setChatMessageString true (text "hi") = some (text "Player1(1/3): hi") := rfl
  exact ⟨(chat_line_decoded_iff hguess).mpr (Or.inl (by decide)),
    (chat_line_decoded_iff hchat).mpr (Or.inl (by decide))⟩

/-- The text `1234` is no legal number, and is read as `234`. -/
theorem chat_line_decoded_fails :
    typist.setChatMessageString true (text "1234") = some (text "Player1(1/3): 1234") ∧
    isGuessNumberString (text "1234") = false ∧
    isGuessNumberString (lastThree (text "Player1(1/3): 1234")) = true ∧
    lastThree (text "Player1(1/3): 1234") = text "234" :=
  ⟨rfl, by decide, by decide, by decide⟩

end NumberBaseball
