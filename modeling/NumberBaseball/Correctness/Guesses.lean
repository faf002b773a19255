import NumberBaseball.Correctness.Delivery
import NumberBaseball.Correctness.ChatLine

/-!
# `Correctness.Guesses` — from what a player types to what a player is charged for

A guess goes a long way: from the chat box, behind the player's name and counts, through the channel to the
server, to the last three characters that the game mode looks at. `numberIn` is what is left of a line
at the end; the name and the counts in front never add to it (`numberIn_line`). So over every run each
guess that a player is charged for is one that this player has typed, in the order typed, and none is charged
twice (`guesses_were_typed`).
-/

namespace NumberBaseball

open World Machine

variable {acc : DeadAccess} {classes : WidgetClasses} {n n' : Network} {pc : Nat}

/-- The number the game mode finds in a line. -/
def numberIn (line : FString) : Option FString :=
  if isGuessNumberString (lastThree line) then some (lastThree line) else none

/-- The text in the chat box when Enter sends a line. -/
def Client.enterText (c : Client) : Option FString :=
  c.enterLine.bind fun _ => c.chatInputWidgetInstance.map (·.editableTextBox)

/-- The text the player `pc` enters in a step. -/
def enteredText (pc : Nat) (n : Network) : NetEvent → Option FString
  | .link t (.commit .onEnter) => if t = pc then n.links[pc]?.bind (·.client.enterText) else none
  | _                          => none

/-- The guess that the player `pc` is charged for in a step. -/
def chargedGuess (pc : Nat) (n : Network) (e : NetEvent) : Option FString :=
  match n.serverEvent e with
  | some (.chat t line) => if t = pc ∧ n.server.inTurnGuess t line = true then some (lastThree line) else none
  | _                   => none

/-- What stands before the blank adds nothing to the number. -/
theorem numberIn_line (pre t : FString) : numberIn (pre ++ ' ' :: t) = numberIn t := by
  unfold numberIn
  rcases Nat.lt_or_ge t.length 3 with hlt | hge
  · have hshort : ¬ isGuessNumberString (lastThree t) = true := by
      rw [lastThree_of_length hlt.le]
      intro hg
      have := (isGuessNumberString_iff.mp hg).1
      omega
    rw [if_neg hshort, if_neg fun hg => Nat.not_le.mpr hlt (isGuess_line_iff.mp hg).1]
  · rw [List.append_cons, lastThree_append _ hge]

theorem Client.numberIn_enterLine (c : Client) : c.enterLine.bind numberIn = c.enterText.bind numberIn := by
  unfold Client.enterText
  cases hline : c.enterLine with
  | none => rfl
  | some line =>
      unfold Client.enterLine at hline
      cases hw : c.chatInputWidgetInstance with
      | none =>
          rw [hw] at hline
          cases hline
      | some w =>
          simp only [hw] at hline
          split at hline
          · obtain ⟨pre, rfl⟩ := setChatMessageString_eq hline
            exact numberIn_line pre w.editableTextBox
          · cases hline

/-- The numbers in the lines entered are the numbers in the texts. -/
theorem numberIn_enteredLine (e : NetEvent) :
    (enteredLine pc n e).bind numberIn = (enteredText pc n e).bind numberIn := by
  cases e with
  | link t le =>
      cases le with
      | commit m =>
          cases m with
          | onEnter =>
              unfold enteredLine enteredText
              by_cases ht : t = pc
              · simp only [if_pos ht]
                cases n.links[pc]? with
                | none => rfl
                | some l => exact l.client.numberIn_enterLine
              · simp only [if_neg ht, Option.bind_none]
          | _ => rfl
      | _ => rfl
  | _ => rfl

/-- Whoever is charged for a guess has had a line handled with that number in it. -/
theorem numberIn_of_chargedGuess {e : NetEvent} {guess : FString} (h : chargedGuess pc n e = some guess) :
    (handledLine pc n e).bind numberIn = some guess := by
  unfold chargedGuess at h
  unfold handledLine
  cases hev : n.serverEvent e with
  | none => simp [hev] at h
  | some ev =>
      rw [hev] at h
      cases ev with
      | chat t line =>
          by_cases hcond : t = pc ∧ n.server.inTurnGuess t line = true
          · obtain ⟨rfl, hg⟩ := hcond
            simp only [true_and, if_pos hg] at h
            rw [← h]
            simp [numberIn, (inTurnGuess_iff.mp hg).2]
          · simp only [if_neg hcond] at h
            cases h
      | _ => cases h

/-- **Guesses were typed.** Over any run from any network reached, the guesses a player is charged for are, in
    order and each once, some of the numbers in the lines that were under way from that player and in
    the texts that the player then enters. -/
theorem guesses_were_typed {n₀ : Network} (h : (network acc classes).Reachable n₀)
    {es : List NetEvent} (hrun : (network acc classes).Run n₀ es n) :
    ((network acc classes).trace (chargedGuess pc) n₀ es).Sublist
      ((n₀.toServer pc).inFlight.filterMap numberIn ++
        ((network acc classes).trace (enteredText pc) n₀ es).filterMap numberIn) := by
  have hentered : ((network acc classes).trace (enteredText pc) n₀ es).filterMap numberIn
      = ((network acc classes).trace (enteredLine pc) n₀ es).filterMap numberIn := by
    rw [trace_filterMap, trace_filterMap]
    simp only [numberIn_enteredLine]
  have hcharged : ((network acc classes).trace (chargedGuess pc) n₀ es).Sublist
      (((network acc classes).trace (handledLine pc) n₀ es).filterMap numberIn) := by
    rw [trace_filterMap]
    exact trace_sublist (fun _ _ _ => numberIn_of_chargedGuess) es n₀
  have hhandled : (network acc classes).trace (handledLine pc) n₀ es <+:
      (n₀.toServer pc).inFlight ++ (network acc classes).trace (enteredLine pc) n₀ es := by
    obtain ⟨hdelivered, hhistory⟩ := toServer_of_run h hrun
    have hbeginning := (n.toServer pc).delivered_isPrefix
    rw [hdelivered, hhistory, Channel.history, List.append_assoc] at hbeginning
    exact (List.prefix_append_right_inj _).mp hbeginning
  rw [hentered, ← List.filterMap_append]
  exact hcharged.trans (hhandled.sublist.filterMap numberIn)

/-- A greeting, a number in a sentence, and a number out of turn: one guess is charged. -/
theorem guesses_were_typed_sentence :
    let es := arrives 0 ++ arrives 1 ++ enters 0 (text "hi") ++ enters 0 (text "I say 456") ++
      enters 0 (text "789")
    ∃ n, (network .yieldsNull plainClasses).Run emptyNetwork es n ∧
      (network .yieldsNull plainClasses).trace (chargedGuess 0) emptyNetwork es = [text "456"] ∧
      (network .yieldsNull plainClasses).trace (enteredText 0) emptyNetwork es
        = [text "hi", text "I say 456", text "789"] ∧
      ((network .yieldsNull plainClasses).trace (chargedGuess 0) emptyNetwork es).Sublist
        ((emptyNetwork.toServer 0).inFlight.filterMap numberIn ++
          ((network .yieldsNull plainClasses).trace (enteredText 0) emptyNetwork es).filterMap numberIn) := by
  intro es
  obtain ⟨n, hrun, -⟩ := Run.exists_view (M := network .yieldsNull plainClasses) (s := emptyNetwork) es
    (fun _ => ()) (b := ()) (by decide +kernel)
  exact ⟨n, hrun, by decide +kernel, by decide +kernel, guesses_were_typed emptyNetwork_reachable hrun⟩

end NumberBaseball
