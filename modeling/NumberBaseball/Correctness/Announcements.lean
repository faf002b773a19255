import NumberBaseball.Correctness.DeadAccess

/-!
# `Correctness.Announcements` — who is told whose turn it is

Turns are announced in two places. `ResetGame` announces player `1` once for every player state it finds,
inside the loop that clears them; `TurnToNextPlayer` announces the player the turn has passed to, if that
player is still connected. A win runs the first only, a draw both, any other charge the second only.
`announced_once_iff` says when every client hears exactly one announcement, and a true one.

The file first computes what one client hears of each kind of broadcast (`turnsHeard`), then adds up the
broadcasts of each kind of charge.
-/

namespace NumberBaseball

open World Machine

variable {s s' : World} {e : Event} {pc : Nat}

/-! ## What a client hears -/

/-- The chat messages among `calls` that the client of `pc` is sent. -/
def heard (pc : Nat) (calls : List Rpc) : List FString :=
  calls.filterMap fun
    | .clientRPCPrintChatMessageString pc' msg => if pc' = pc then some msg else none
    | _ => none

/-- A message of the form `It's … turn!`. -/
def isTurnMessage (msg : FString) : Bool :=
  (text "It's ").isPrefixOf msg && (text " turn!").isSuffixOf msg

/-- The turn announcements among them. -/
def turnsHeard (pc : Nat) (calls : List Rpc) : List FString := (heard pc calls).filter isTurnMessage

@[simp] theorem turnsHeard_nil (pc : Nat) : turnsHeard pc [] = [] := rfl

theorem heard_append (pc : Nat) (calls calls' : List Rpc) :
    heard pc (calls ++ calls') = heard pc calls ++ heard pc calls' := List.filterMap_append

@[simp] theorem turnsHeard_append (pc : Nat) (calls calls' : List Rpc) :
    turnsHeard pc (calls ++ calls') = turnsHeard pc calls ++ turnsHeard pc calls' := by
  simp [turnsHeard, heard_append]

/-- A loop over the controllers from position `i` on does not reach the ones before. -/
theorem heard_validRefs_of_lt {cs : List HwPlayerController} {msg : FString} :
    ∀ i, pc < i → heard pc ((validRefs i cs).map (.clientRPCPrintChatMessageString · msg)) = [] := by
  induction cs with
  | nil => simp [validRefs, heard]
  | cons c cs ih =>
      intro i hi
      have ih := ih (i + 1) (by omega)
      rw [validRefs]
      split
      · have hne : i ≠ pc := by omega
        simpa [heard, hne] using ih
      · exact ih

/-- It sends to each valid one exactly once. -/
theorem heard_validRefs {cs : List HwPlayerController} {msg : FString} :
    ∀ (i j : Nat) (c : HwPlayerController), cs[j]? = some c → c.isValid = true →
      heard (i + j) ((validRefs i cs).map (.clientRPCPrintChatMessageString · msg)) = [msg] := by
  induction cs with
  | nil => simp
  | cons d cs ih =>
      intro i j c hc hv
      rw [validRefs]
      cases j with
      | zero =>
          obtain rfl := Option.some.inj hc
          have hrest : heard i ((validRefs (i + 1) cs).map (.clientRPCPrintChatMessageString · msg))
              = [] := heard_validRefs_of_lt (i + 1) (by omega)
          rw [if_pos hv]
          simpa [heard] using hrest
      | succ j =>
          have hrest := ih (i + 1) j c (by simpa using hc) hv
          rw [show i + 1 + j = i + (j + 1) by omega] at hrest
          split
          · simpa [heard] using hrest
          · exact hrest

/-- A broadcast reaches every connected client once. -/
theorem turnsHeard_announce (hpc : s.isConnected pc = true) (msg : FString) :
    turnsHeard pc (announce s.allPlayerControllers msg) = if isTurnMessage msg then [msg] else [] := by
  obtain ⟨c, hc, hv⟩ := isConnected_iff.mp hpc
  have hheard : heard pc (announce s.allPlayerControllers msg) = [msg] := by
    simpa [announce] using heard_validRefs 0 pc c hc hv
  rw [turnsHeard, hheard, List.filter_cons, List.filter_nil]

/-! ## The messages -/

/-- The announcement of the player at position `i`, by the name given at the login. -/
def turnText (i : Nat) : FString :=
  text "It's " ++ (text "Player" ++ fromInt ((i : Int) + 1)) ++ text "'s turn!"

theorem isTurnMessage_name (name : FString) :
    isTurnMessage (text "It's " ++ name ++ text "'s turn!") = true := by
  unfold isTurnMessage
  rw [Bool.and_eq_true, List.isPrefixOf_iff_prefix, List.isSuffixOf_iff_suffix]
  constructor
  · rw [List.append_assoc]
    exact List.prefix_append ..
  · exact (show text " turn!" <:+ text "'s turn!" by decide).trans (List.suffix_append ..)

theorem isTurnMessage_turnText (i : Nat) : isTurnMessage (turnText i) = true := isTurnMessage_name _

/-- An announcement ends with an exclamation mark. -/
theorem isTurnMessage_concat {msg : FString} {c : TCHAR} (hc : c ≠ '!') :
    isTurnMessage (msg ++ [c]) = false := by
  rw [← Bool.not_eq_true]
  intro h
  obtain ⟨pre, hpre⟩ := List.isSuffixOf_iff_suffix.mp (Bool.and_eq_true_iff.mp h).2
  have hlast := congrArg List.getLast? hpre
  rw [List.getLast?_append, List.getLast?_concat] at hlast
  exact hc (Option.some.inj hlast).symm

/-- A verdict does not. -/
theorem isTurnMessage_verdict (msg : FString) (S B : Nat) :
    isTurnMessage (msg ++ text " -> " ++ verdictText S B) = false := by
  unfold verdictText
  split
  · rw [show text "OUT" = text "OU" ++ ['T'] from rfl, ← List.append_assoc]
    exact isTurnMessage_concat (by decide)
  · rw [← List.append_assoc]
    exact isTurnMessage_concat (by decide)

/-! ## The two loops that announce -/

/-- The number of connected players. -/
def World.connectedCount (s : World) : Nat := s.allPlayerControllers.countP (·.isValid)

theorem connectedCount_congr
    (hv : s'.allPlayerControllers.map (·.isValid) = s.allPlayerControllers.map (·.isValid)) :
    s'.connectedCount = s.connectedCount := by
  have h : ∀ w : World, w.connectedCount = (w.allPlayerControllers.map (·.isValid)).countP id :=
    fun w => by rw [List.countP_map]; rfl
  rw [h, h, hv]

theorem connectedCount_pos (hpc : s.isConnected pc = true) : 0 < s.connectedCount := by
  obtain ⟨c, hc, hv⟩ := isConnected_iff.mp hpc
  exact List.countP_pos_iff.mpr ⟨c, List.mem_of_getElem? hc, hv⟩

/-- Exactly the connected players have a player state. -/
theorem Seated.isSome_state? {cs : List HwPlayerController} (h : Seated cs) {c : HwPlayerController}
    (hc : c ∈ cs) : c.state?.isSome = c.isValid := by
  cases hv : c.isValid with
  | false =>
      unfold HwPlayerController.state?
      rw [hv]
      rfl
  | true =>
      obtain ⟨i, hi⟩ := List.mem_iff_getElem?.mp hc
      obtain ⟨ps, hps, -⟩ := h i c hi hv
      rw [hps]
      rfl

/-- The loop of `ResetGame` announces player `1` once for every player state it finds. -/
theorem turnsHeard_resetLoop (hpc : s.isConnected pc = true) {ds : List HwPlayerController}
    (hds : ∀ d ∈ ds, d.state?.isSome = d.isValid) :
    turnsHeard pc (resetCalls s.allPlayerControllers ds)
      = List.replicate (ds.countP (·.isValid)) clearedTurnText := by
  induction ds with
  | nil => rfl
  | cons d ds ih =>
      obtain ⟨hd, hds⟩ := List.forall_mem_cons.mp hds
      have hcall : resetCalls s.allPlayerControllers (d :: ds)
          = (if d.state?.isSome then announce s.allPlayerControllers clearedTurnText else [])
            ++ resetCalls s.allPlayerControllers ds := List.flatMap_cons
      rw [hcall, turnsHeard_append, ih hds, hd, List.countP_cons]
      cases d.isValid with
      | false => simp
      | true =>
          rw [if_pos rfl, turnsHeard_announce hpc, if_pos (by decide), if_pos rfl,
            List.replicate_succ]
          rfl

/-- So it announces player `1` as often as there are players. -/
theorem turnsHeard_resetCalls (hpc : s.isConnected pc = true) (h : Seated s.allPlayerControllers) :
    turnsHeard pc (resetCalls s.allPlayerControllers s.allPlayerControllers)
      = List.replicate s.connectedCount clearedTurnText := by
  apply turnsHeard_resetLoop hpc
  intro d hd
  exact h.isSome_state? hd

/-- The announcement of `TurnToNextPlayer` when the turn has passed to `next`. -/
def turnCalls (cs : List HwPlayerController) (next : Nat) : List Rpc :=
  match cs[next]?.bind HwPlayerController.state? with
  | some ps => announce cs (text "It's " ++ ps.playerNameString ++ text "'s turn!")
  | none    => []

/-- It names the player there, if that player is still connected. -/
theorem turnsHeard_turnCalls (hpc : s.isConnected pc = true) (h : Seated s.allPlayerControllers)
    (next : Nat) : turnsHeard pc (turnCalls s.allPlayerControllers next)
      = if s.isConnected next then [turnText next] else [] := by
  unfold turnCalls
  cases hnext : s.isConnected next with
  | true =>
      obtain ⟨c, hc, hv⟩ := isConnected_iff.mp hnext
      obtain ⟨ps, hps, hseat⟩ := h next c hc hv
      rw [hc, Option.bind_some, hps]
      dsimp only
      rw [hseat.name, turnsHeard_announce hpc]
      exact if_pos (isTurnMessage_turnText next)
  | false =>
      have hnone : s.allPlayerControllers[next]?.bind HwPlayerController.state? = none := by
        rw [Option.bind_eq_none_iff]
        intro c hc
        unfold HwPlayerController.state?
        rw [if_neg]
        exact fun hv => Bool.false_ne_true (hnext ▸ isConnected_iff.mpr ⟨c, hc, hv⟩)
      rw [hnone]
      rfl

/-! ## What each part of a charge announces -/

/-- From `s` to `s'` every connected client is sent exactly the turn announcements `turns`, in this
    order. -/
def Announces (s s' : World) (turns : List FString) : Prop :=
  ∃ calls, s'.sent = s.sent ++ calls ∧
    ∀ pc, s.isConnected pc = true → turnsHeard pc calls = turns

section Announces
variable {w : World} {t next : Nat} {msg secret : FString} {random : RandomStream}

/-- One part after the other, while nobody comes or goes. -/
theorem Announces.trans {turns turns' : List FString} (h : Announces s w turns)
    (h' : Announces w s' turns')
    (hv : w.allPlayerControllers.map (·.isValid) = s.allPlayerControllers.map (·.isValid)) :
    Announces s s' (turns ++ turns') := by
  obtain ⟨calls, hsent, hturns⟩ := h
  obtain ⟨calls', hsent', hturns'⟩ := h'
  refine ⟨calls ++ calls', by rw [hsent', hsent, List.append_assoc], fun pc hpc => ?_⟩
  have hpc' : w.isConnected pc = true := (isConnected_congr hv pc).trans hpc
  rw [turnsHeard_append, hturns pc hpc, hturns' pc hpc']

/-- Nothing that is sent is a turn announcement. -/
theorem announces_nil (h : s'.sent = s.sent) : Announces s s' [] :=
  ⟨[], by rw [h, List.append_nil], fun _ _ => rfl⟩

/-- A verdict is broadcast, which is no turn announcement. -/
theorem announces_guessed {S B : Nat} : Announces s (s.guessed t msg (verdictText S B)) [] := by
  refine ⟨_, rfl, fun pc hpc => ?_⟩
  have hpc' : ({ s with bHasActedInCurrentTurn := true }.charge t).isConnected pc = true :=
    isConnected_charge.trans hpc
  refine (turnsHeard_announce hpc' _).trans (if_neg ?_)
  rw [isTurnMessage_verdict]
  exact Bool.false_ne_true

/-- So is the notice to a player whose time is up. -/
theorem announces_timedOut : Announces s (s.timedOut t) [] := by
  refine ⟨_, rfl, fun pc _ => ?_⟩
  have hnotice : isTurnMessage (text " 시간 초과로 인해 기회가 1회 차감됩니다!") = false := by decide
  by_cases h : t = pc
  · simp [turnsHeard, heard, h, hnotice]
  · simp [turnsHeard, heard, h]

/-- `ResetGame` announces player `1`, as often as there are players. -/
theorem announces_restart (h : Seated s.allPlayerControllers) : Announces s (s.restart secret random)
    (List.replicate s.connectedCount clearedTurnText) :=
  ⟨_, rfl, fun _ hpc => turnsHeard_resetCalls hpc h⟩

/-- `TurnToNextPlayer` announces the player the turn passes to, if still connected. -/
theorem announces_passTurn (h : Seated s.allPlayerControllers) : Announces s (s.passTurn next)
    (if s.isConnected next then [turnText next] else []) :=
  ⟨_, rfl, fun _ hpc => turnsHeard_turnCalls hpc h next⟩

/-- The result of a round is put into the notifications, which are no messages, before `ResetGame`. -/
theorem announces_ended (h : Seated s.allPlayerControllers) :
    Announces s ((s.notify msg).restart secret random)
      (List.replicate s.connectedCount clearedTurnText) := by
  have hnotify : Announces s (s.notify msg) [] := announces_nil rfl
  have hreset : Announces s ((s.notify msg).restart secret random) _ :=
    hnotify.trans (announces_restart h.notify) map_isValid_notify
  rwa [connectedCount_congr map_isValid_notify] at hreset

/-- `JudgeGame` announces something after a draw only. -/
theorem announces_judged (h : Seated s.allPlayerControllers) : Announces s (s.judged secret random)
    (if s.exhausted then List.replicate s.connectedCount clearedTurnText else []) := by
  unfold World.judged
  cases s.exhausted with
  | false => exact announces_nil rfl
  | true => exact announces_ended h

/-- **A charge that does not win**: first what `ResetGame` announces after a draw, then what
    `TurnToNextPlayer` announces. -/
theorem announces_settled (h : Seated s.allPlayerControllers) :
    Announces s (s.settled t secret random)
      ((if s.exhausted then List.replicate s.connectedCount clearedTurnText else []) ++
        if s.isConnected (s.nextSeat t) then [turnText (s.nextSeat t)] else []) := by
  have hv := map_isValid_judged s secret random
  have hpass : Announces (s.judged secret random) (s.settled t secret random) _ :=
    announces_passTurn h.judged
  rw [isConnected_congr hv] at hpass
  exact (announces_judged h).trans hpass hv

end Announces

section Moves
variable {t : Nat}

/-- What settling a charge announces, given that the charge itself announced nothing. -/
theorem announces_charge {w : World} {secret : FString} {random : RandomStream}
    (h : Seated s.allPlayerControllers)
    (hroster : w.allPlayerControllers = (s.charge t).allPlayerControllers)
    (hnone : Announces s w []) : Announces s (w.settled t secret random)
      ((if (s.charge t).exhausted then List.replicate s.connectedCount clearedTurnText else []) ++
        if s.isConnected ((s.charge t).nextSeat t) then [turnText ((s.charge t).nextSeat t)]
        else []) := by
  have hv : w.allPlayerControllers.map (·.isValid) = s.allPlayerControllers.map (·.isValid) := by
    rw [hroster, map_isValid_charge]
  have hseated : Seated w.allPlayerControllers := by
    rw [hroster]
    exact h.charge
  have hexhausted : w.exhausted = (s.charge t).exhausted := by
    unfold World.exhausted
    rw [hroster]
  have hnext : w.nextSeat t = (s.charge t).nextSeat t := by
    unfold World.nextSeat
    rw [hexhausted, hroster]
  have hsettled : Announces s (w.settled t secret random) _ :=
    hnone.trans (announces_settled hseated) hv
  rwa [hexhausted, hnext, connectedCount_congr hv, isConnected_congr hv] at hsettled

/-- A winning guess runs `ResetGame` only. -/
theorem Move.announces_of_win (hwf : s.WellFormed) (hw : s.wins e = true) (hm : Move s e s') :
    Announces s s' (List.replicate s.connectedCount clearedTurnText) := by
  cases hm with
  | @win t msg =>
      have hguessed : Announces s (s.guessed t msg (text "3S0B")) [] :=
        announces_guessed (S := 3) (B := 0)
      have hseated : Seated (s.guessed t msg (text "3S0B")).allPlayerControllers := hwf.seated.charge
      have hcount : (s.charge t).connectedCount = s.connectedCount :=
        connectedCount_congr map_isValid_charge
      rw [← hcount]
      exact hguessed.trans (announces_ended hseated) map_isValid_charge
  | overheard hg =>
      rw [inTurnGuess_of_wins hw] at hg
      cases hg
  | miss _ _ _ hw' =>
      rw [hw] at hw'
      cases hw'
  | _ => cases hw

/-- Any other charge. -/
theorem Move.announces_of_charge (hwf : s.WellFormed) (hc : s.charges e = true)
    (hw : s.wins e = false) (hm : Move s e s') :
    ∃ t, s.turnHolder = some t ∧ s.isConnected t = true ∧ Announces s s'
      ((if (s.charge t).exhausted then List.replicate s.connectedCount clearedTurnText else []) ++
        if s.isConnected ((s.charge t).nextSeat t) then [turnText ((s.charge t).nextSeat t)]
        else []) := by
  obtain ⟨t, secret, random, hturn, hpc, -, h⟩ := hm.charge_cases hwf hc hw
  refine ⟨t, hturn, hpc, ?_⟩
  rcases h with ⟨msg, verdict, hg, hverdict, rfl⟩ | rfl
  · rw [judgeResult_eq hwf.secret.1 (isGuessNumberString_iff.mp hg).1, Except.ok.injEq] at hverdict
    subst hverdict
    exact announces_charge hwf.seated rfl announces_guessed
  · exact announces_charge hwf.seated rfl announces_timedOut

end Moves

/-! ## Single and truthful announcements -/

/-- A message without its blanks. -/
def unspaced (msg : FString) : FString := msg.filter (· ≠ ' ')

/-- The message announces the turn of the player at position `i`, up to blanks. -/
def NamesPlayer (i : Nat) (msg : FString) : Prop := unspaced msg = unspaced (turnText i)

instance {i : Nat} {msg : FString} : Decidable (NamesPlayer i msg) :=
  inferInstanceAs (Decidable (_ = _))

/-- A connected player goes by that name. -/
theorem World.WellFormed.namesPlayer_iff (hwf : s.WellFormed) {i : Nat} {ps : HwPlayerState}
    (hps : s.stateAt i = some ps) (msg : FString) : NamesPlayer i msg ↔
      unspaced msg = unspaced (text "It's " ++ ps.playerNameString ++ text "'s turn!") := by
  rw [(hwf.seatState hps).name]
  rfl

/-- In the step from `s` to `s'` every connected client is sent exactly one turn announcement, and it
    announces the player whose turn it is in `s'`. -/
def AnnouncedOnce (s s' : World) : Prop :=
  ∃ calls, s'.sent = s.sent ++ calls ∧ ∀ pc, s.isConnected pc = true →
    ∃ msg, turnsHeard pc calls = [msg] ∧ ∃ i, s'.turnHolder = some i ∧ NamesPlayer i msg

/-- The entry after the one at the turn is a connected player's. -/
def World.successorConnected (s : World) : Bool :=
  s.turnHolder.any fun t => s.isConnected ((t + 1) % s.allPlayerControllers.length)

/-- What is announced is the same to every connected client, so one of them decides. -/
theorem Announces.announcedOnce_iff {turns : List FString} {i : Nat} (h : Announces s s' turns)
    (hturn : s'.turnHolder = some i) (hany : s.anyConnected = true) :
    AnnouncedOnce s s' ↔ ∃ msg, turns = [msg] ∧ NamesPlayer i msg := by
  obtain ⟨calls, hsent, hturns⟩ := h
  constructor
  · rintro ⟨calls', hsent', h⟩
    rw [hsent] at hsent'
    obtain rfl := List.append_cancel_left hsent'
    obtain ⟨pc, hpc⟩ := anyConnected_iff.mp hany
    obtain ⟨msg, hmsg, j, hj, hnames⟩ := h pc hpc
    rw [hturn, Option.some.injEq] at hj
    subst hj
    exact ⟨msg, (hturns pc hpc).symm.trans hmsg, hnames⟩
  · rintro ⟨msg, rfl, hnames⟩
    exact ⟨calls, hsent, fun pc hpc => ⟨msg, hturns pc hpc, i, hturn, hnames⟩⟩

/-- A win announces player `1`, who has the turn, once for every player. -/
theorem announced_restart : (∃ msg, List.replicate s.connectedCount clearedTurnText = [msg] ∧
    NamesPlayer 0 msg) ↔ s.connectedCount = 1 := by
  constructor
  · rintro ⟨msg, hmsg, -⟩
    simpa using congrArg List.length hmsg
  · intro hone
    exact ⟨clearedTurnText, by rw [hone]; rfl, by decide⟩

/-- After a draw `ResetGame` has announced player `1`, but the turn has passed on from there; a player
    alone, whose turn comes again, is announced once more. -/
theorem announced_exhausted {t : Nat} (hlt : t < s.allPlayerControllers.length)
    (hpc : s.isConnected t = true) (hex : (s.charge t).exhausted = true) {msg : FString}
    (hmsg : List.replicate s.connectedCount clearedTurnText ++
      (if s.isConnected ((s.charge t).nextSeat t) then [turnText ((s.charge t).nextSeat t)] else [])
        = [msg]) : ¬ NamesPlayer ((s.charge t).nextSeat t) msg := by
  have hcount := connectedCount_pos hpc
  rw [nextSeat_charge_of_exhausted hex] at hmsg ⊢
  cases hnext : s.isConnected (1 % s.allPlayerControllers.length) with
  | true =>
      -- announced twice at least
      rw [hnext, if_pos rfl] at hmsg
      have hlen := congrArg List.length hmsg
      rw [List.length_append, List.length_replicate, List.length_singleton,
        List.length_singleton] at hlen
      omega
  | false =>
      -- announced by `ResetGame` alone, as player `1`; the turn is at another entry
      rw [hnext, if_neg Bool.false_ne_true, List.append_nil] at hmsg
      have hcount : s.connectedCount = 1 := by simpa using congrArg List.length hmsg
      obtain rfl : clearedTurnText = msg := by simpa [hcount] using hmsg
      have hone : s.allPlayerControllers.length ≠ 1 := by
        intro hone
        obtain rfl : t = 0 := by omega
        rw [hone, hpc] at hnext
        cases hnext
      rw [Nat.mod_eq_of_lt (by omega)]
      decide

/-- When a charge leaves somebody an attempt, the only announcement is that of the next entry. -/
theorem announced_attempt {next : Nat} : (∃ msg, (if s.isConnected next then [turnText next] else [])
    = [msg] ∧ NamesPlayer next msg) ↔ s.isConnected next = true := by
  constructor
  · rintro ⟨msg, hmsg, -⟩
    by_contra hpc
    rw [if_neg hpc] at hmsg
    cases hmsg
  · intro hpc
    exact ⟨turnText next, if_pos hpc, rfl⟩

/-- **The step lemma.** -/
theorem Move.announcedOnce_iff (hwf : s.WellFormed) (ha : s.admits e = true)
    (hc : s.charges e = true) (hm : Move s e s') :
    AnnouncedOnce s s' ↔ if s.wins e then s.connectedCount = 1
      else s.draws e = false ∧ s.successorConnected = true := by
  have hany := anyConnected_of_charges hwf ha hc
  have hturn := hm.turnHolder_of_charges hwf hc
  cases hw : s.wins e with
  | true =>
      obtain ⟨t, -, -, -, -, -, ht, -⟩ := hm.of_win hw
      rw [nextHolder_of_win ht hw] at hturn
      rw [(hm.announces_of_win hwf hw).announcedOnce_iff hturn hany, if_pos rfl]
      exact announced_restart
  | false =>
      obtain ⟨t, ht, hpc, hannounces⟩ := hm.announces_of_charge hwf hc hw
      rw [nextHolder_of_miss ht hw] at hturn
      have hsuccessor : s.successorConnected
          = s.isConnected ((t + 1) % s.allPlayerControllers.length) := by
        rw [World.successorConnected, ht, Option.any_some]
      rw [hannounces.announcedOnce_iff hturn hany, if_neg Bool.false_ne_true,
        draws_iff ht hc hw, hsuccessor]
      cases hex : (s.charge t).exhausted with
      | true =>
          refine iff_of_false ?_ (fun h => Bool.false_ne_true h.1.symm)
          rintro ⟨msg, hmsg, hnames⟩
          exact announced_exhausted (turnHolder_eq_some.mp ht).2 hpc hex hmsg hnames
      | false =>
          rw [nextSeat_charge_of_attempt hex, if_neg Bool.false_ne_true, List.nil_append,
            announced_attempt]
          exact (and_iff_right rfl).symm

/-- **When a turn is announced once, and truthfully.** An event that charges a turn or ends a round sends
    every connected client exactly one turn announcement, of the player whose turn it is afterwards,
    exactly when it wins the game of a player alone, or goes on with a round and passes the turn to a
    connected player. -/
theorem announced_once_iff {acc : DeadAccess} (hs : (game acc everyEvent).Reachable s)
    (ha : s.admits e = true) (hstep : handle acc s e = .ok s')
    (hevent : s.charges e = true ∨ RoundEnds s s') :
    AnnouncedOnce s s' ↔ if s.wins e then s.connectedCount = 1
      else s.draws e = false ∧ s.successorConnected = true := by
  have hwf := wellFormed_of_reachable (reachable_yieldsNull hs)
  have hm := Move.of_handle hwf ha (handle_yieldsNull hstep)
  have hc : s.charges e = true := by
    rcases hevent with hc | hend
    · exact hc
    · rcases (hm.roundEnds_iff hwf).mp hend with hw | hd
      · exact charges_of_wins hw
      · exact (charges_of_draws hd).1
  exact hm.announcedOnce_iff hwf ha hc

/-- Two players, and the first guesses wrong: `Player2` is announced, once. -/
theorem announced_once_iff_miss : ∃ s s',
    (game .yieldsNull everyEvent).Run emptyServer [.login true, .login true] s ∧
    handle .yieldsNull s (.chat 0 (text "456")) = .ok s' ∧ AnnouncedOnce s s' := by
  obtain ⟨s, s', hrun, ha, hs, hview⟩ := Run.exists_step_view (M := game .yieldsNull everyEvent)
    (s := emptyServer) [.login true, .login true] (.chat 0 (text "456"))
    (fun s _ => (s.charges (.chat 0 (text "456")), s.wins (.chat 0 (text "456")),
      s.draws (.chat 0 (text "456")), s.successorConnected))
    (b := (true, false, false, true)) (by decide +kernel)
  simp only [Prod.mk.injEq] at hview
  obtain ⟨hc, hw, hdraw, hnext⟩ := hview
  refine ⟨s, s', hrun, hs, ?_⟩
  rw [announced_once_iff (.run (.init emptyServer_init) hrun) ha.2 hs (Or.inl hc), hw]
  exact ⟨hdraw, hnext⟩

/-- Who is announced more often than once, or not at all, is not announced once. -/
theorem not_announcedOnce {turns : List FString} (hpc : s.isConnected pc = true)
    (hturns : turnsHeard pc (s'.sent.drop s.sent.length) = turns) (hlen : turns.length ≠ 1) :
    ¬ AnnouncedOnce s s' := by
  rintro ⟨calls, hsent, h⟩
  obtain ⟨msg, hmsg, -⟩ := h pc hpc
  rw [hsent, List.drop_left, hmsg] at hturns
  subst hturns
  exact hlen rfl

/-- Two players: when the first guesses the secret each of them is told twice that it is the turn of
    `Player 1`; when both use up their attempts each is told so twice, and then that it is the turn of
    `Player2`; and when the second has left a wrong guess is followed by no announcement at all. -/
theorem announced_once_fails :
    (∃ s s', (game .yieldsNull everyEvent).Reachable s ∧
      (game .yieldsNull everyEvent).Run emptyServer [.login true, .login true] s ∧
      s.admits (.chat 0 (text "123")) = true ∧ s.charges (.chat 0 (text "123")) = true ∧
      handle .yieldsNull s (.chat 0 (text "123")) = .ok s' ∧
      turnsHeard 1 (s'.sent.drop s.sent.length)
        = [text "It's Player 1's turn!", text "It's Player 1's turn!"] ∧ ¬ AnnouncedOnce s s') ∧
    (∃ s s', (game .yieldsNull everyEvent).Reachable s ∧
      (game .yieldsNull everyEvent).Run emptyServer [.login true, .login true, .chat 0 (text "456"),
        .chat 1 (text "456"), .chat 0 (text "456"), .chat 1 (text "456"), .chat 0 (text "456")] s ∧
      s.admits (.chat 1 (text "456")) = true ∧ s.charges (.chat 1 (text "456")) = true ∧
      handle .yieldsNull s (.chat 1 (text "456")) = .ok s' ∧
      turnsHeard 1 (s'.sent.drop s.sent.length)
        = [text "It's Player 1's turn!", text "It's Player 1's turn!", text "It's Player2's turn!"] ∧
      ¬ AnnouncedOnce s s') ∧
    (∃ s s', (game .yieldsNull everyEvent).Reachable s ∧
      (game .yieldsNull everyEvent).Run emptyServer [.login true, .login true, .logout 1] s ∧
      s.admits (.chat 0 (text "456")) = true ∧ s.charges (.chat 0 (text "456")) = true ∧
      handle .yieldsNull s (.chat 0 (text "456")) = .ok s' ∧
      turnsHeard 0 (s'.sent.drop s.sent.length) = [] ∧ ¬ AnnouncedOnce s s') := by
  refine ⟨?_, ?_, ?_⟩
  · obtain ⟨s, s', hrun, ha, hs, hview⟩ := Run.exists_step_view (M := game .yieldsNull everyEvent)
      (s := emptyServer) [.login true, .login true] (.chat 0 (text "123"))
      (fun s s' => (s.isConnected 1, s.charges (.chat 0 (text "123")),
        turnsHeard 1 (s'.sent.drop s.sent.length)))
      (b := (true, true, [text "It's Player 1's turn!", text "It's Player 1's turn!"]))
      (by decide +kernel)
    simp only [Prod.mk.injEq] at hview
    obtain ⟨hpc, hc, hturns⟩ := hview
    exact ⟨s, s', .run (.init emptyServer_init) hrun, hrun, ha.2, hc, hs, hturns,
      not_announcedOnce hpc hturns (by decide)⟩
  · obtain ⟨s, s', hrun, ha, hs, hview⟩ := Run.exists_step_view (M := game .yieldsNull everyEvent)
      (s := emptyServer) [.login true, .login true, .chat 0 (text "456"), .chat 1 (text "456"),
        .chat 0 (text "456"), .chat 1 (text "456"), .chat 0 (text "456")] (.chat 1 (text "456"))
      (fun s s' => (s.isConnected 1, s.charges (.chat 1 (text "456")),
        turnsHeard 1 (s'.sent.drop s.sent.length)))
      (b := (true, true, [text "It's Player 1's turn!", text "It's Player 1's turn!",
        text "It's Player2's turn!"])) (by decide +kernel)
    simp only [Prod.mk.injEq] at hview
    obtain ⟨hpc, hc, hturns⟩ := hview
    exact ⟨s, s', .run (.init emptyServer_init) hrun, hrun, ha.2, hc, hs, hturns,
      not_announcedOnce hpc hturns (by decide)⟩
  · obtain ⟨s, s', hrun, ha, hs, hview⟩ := Run.exists_step_view (M := game .yieldsNull everyEvent)
      (s := emptyServer) [.login true, .login true, .logout 1] (.chat 0 (text "456"))
      (fun s s' => (s.isConnected 0, s.charges (.chat 0 (text "456")),
        turnsHeard 0 (s'.sent.drop s.sent.length))) (b := (true, true, [])) (by decide +kernel)
    simp only [Prod.mk.injEq] at hview
    obtain ⟨hpc, hc, hturns⟩ := hview
    exact ⟨s, s', .run (.init emptyServer_init) hrun, hrun, ha.2, hc, hs, hturns,
      not_announcedOnce hpc hturns (by decide)⟩

end NumberBaseball
