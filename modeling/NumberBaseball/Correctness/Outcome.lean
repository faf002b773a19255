import NumberBaseball.Correctness.Turns

/-!
# `Correctness.Outcome` — how a round ends, and what the players are told

`World.outcome?` reads off the state before an event how the event ends the round, if it does: the name
of the winner, or a draw. `Move.endsRound_iff` shows that the handlers do exactly that. The verdict that
is broadcast for a guess comes from a separate count, position by position; `Move.verdictSent_iff` shows
that it is `3S0B` for the winning guess and for no other.

What a player reads between the events is the matter of a history: `news` keeps, for each player, the
last text the player was given, and the run lemma is that the notification texts are those.
-/

namespace NumberBaseball

open World Machine

variable {s s' : World} {e : Event}

/-- The text a winner is announced with. -/
def winText (name : FString) : FString := name ++ text " has won the game."

/-- How the event ends the round, if it does. -/
def World.outcome? (s : World) (e : Event) : Option FString :=
  if s.wins e then (s.turnHolder.bind s.stateAt).map fun ps => winText ps.playerNameString
  else if s.draws e then some (text "Draw")
  else none

/-- The step from `s` to `s'` ended a round with this text. -/
def EndsRound (outcome : FString) (s s' : World) : Prop :=
  RoundEnds s s' ∧ ∀ c ∈ s'.allPlayerControllers, c.isValid = true → c.notificationText = outcome

theorem winText_injective {a b : FString} (h : winText a = winText b) : a = b :=
  List.append_cancel_right h

theorem winText_ne_draw (name : FString) : winText name ≠ text "Draw" := by
  intro h
  have := congrArg List.length h
  rw [winText, List.length_append] at this
  change name.length + 18 = 4 at this
  omega

/-! ## The texts after a move -/

/-- After the loop that notifies everybody, and the reset, every connected player reads the text. -/
theorem text_of_restart {cs : List HwPlayerController} {msg : FString} {c : HwPlayerController}
    (hc : c ∈ (cs.map (·.notified msg)).map (·.mapState HwPlayerState.cleared))
    (hv : c.isValid = true) : c.notificationText = msg := by
  obtain ⟨d, hd, rfl⟩ := List.mem_map.mp hc
  obtain ⟨c, -, rfl⟩ := List.mem_map.mp hd
  rw [HwPlayerController.isValid_mapState, HwPlayerController.isValid_notified] at hv
  rw [HwPlayerController.notificationText_mapState, HwPlayerController.notified, if_pos hv]

/-- A winner has a name. -/
theorem outcome_of_wins (hwf : s.WellFormed) (ha : s.admits e = true) (hw : s.wins e = true) :
    ∃ pc msg ps, e = .chat pc msg ∧ s.turnHolder = some pc ∧ s.stateAt pc = some ps ∧
      s.outcome? e = some (winText ps.playerNameString) := by
  cases e with
  | chat pc msg =>
      obtain ⟨hturn, -⟩ := hwf.wins_iff.mp hw
      obtain ⟨c, ps, hc, -, hps, -⟩ := hwf.connected ha
      have hst : s.stateAt pc = some ps := stateAt_eq_some.mpr ⟨c, hc, hps⟩
      refine ⟨pc, msg, ps, rfl, hturn, hst, ?_⟩
      rw [World.outcome?, if_pos hw, hturn, Option.bind_some, hst, Option.map_some]
  | _ => cases hw

/-- Only a charge ends a round. -/
theorem charges_of_outcome {outcome : FString} (ho : s.outcome? e = some outcome) :
    s.charges e = true := by
  unfold World.outcome? at ho
  split at ho
  · next hw => exact charges_of_wins hw
  · split at ho
    · next hd => exact (charges_of_draws hd).1
    · cases ho

theorem outcome_of_draws (h : s.draws e = true) : s.outcome? e = some (text "Draw") := by
  rw [World.outcome?, (charges_of_draws h).2, h]
  rfl

theorem outcome_eq_draw : s.outcome? e = some (text "Draw") ↔ s.draws e = true := by
  refine ⟨fun ho => ?_, outcome_of_draws⟩
  unfold World.outcome? at ho
  split at ho
  · obtain ⟨ps, -, h⟩ := Option.map_eq_some_iff.mp ho
    exact absurd h (winText_ne_draw _)
  · split at ho
    · assumption
    · cases ho

/-- A draw: the charge leaves every connected player at the limit. -/
theorem draws_iff_spent : s.draws e = true ↔ s.charges e = true ∧ s.wins e = false ∧
    ∃ t, s.turnHolder = some t ∧ ∀ i ps, (s.charge t).stateAt i = some ps →
      ps.maxGuessCount ≤ ps.currentGuessCount := by
  unfold World.draws
  simp only [Bool.and_eq_true, Bool.not_eq_true', Option.any_eq_true, exhausted_iff, and_assoc]

theorem outcome_none (hw : s.wins e = false) (hd : s.draws e = false) : s.outcome? e = none := by
  rw [World.outcome?, hw, hd]
  rfl

/-- An event with an outcome gives it to every connected player. -/
theorem Move.text_of_outcome (hwf : s.WellFormed) (hm : Move s e s') {outcome : FString}
    (ho : s.outcome? e = some outcome) :
    ∀ c ∈ s'.allPlayerControllers, c.isValid = true → c.notificationText = outcome := by
  intro c hc hv
  unfold World.outcome? at ho
  cases hw : s.wins e with
  | true =>
      obtain ⟨t, d, ps, secret, random, calls, hturn, hd, hps, -, rfl⟩ := hm.of_win hw
      rw [hw, if_pos rfl, hturn, Option.bind_some, stateAt_eq_some.mpr ⟨d, hd, hps⟩] at ho
      obtain rfl := Option.some.inj ho
      exact text_of_restart hc hv
  | false =>
      rw [hw, if_neg Bool.false_ne_true] at ho
      cases hd : s.draws e with
      | false =>
          rw [hd] at ho
          cases ho
      | true =>
          rw [hd] at ho
          obtain rfl := Option.some.inj ho
          have hcharge := (charges_of_draws hd).1
          obtain ⟨t, secret, random, calls, hturn, -, -, rfl⟩ := hm.of_charge hwf hcharge hw
          rw [draws_iff hturn hcharge hw] at hd
          rw [settled_of_exhausted hd] at hc
          exact text_of_restart hc hv

/-- **How an event ends a round**, if it does. -/
theorem Move.endsRound_iff (hwf : s.WellFormed) (ha : s.admits e = true) (hm : Move s e s')
    {outcome : FString} : EndsRound outcome s s' ↔ s.outcome? e = some outcome := by
  constructor
  · rintro ⟨hend, htext⟩
    have hsome : ∃ o, s.outcome? e = some o := by
      rcases (hm.roundEnds_iff hwf).mp hend with hw | hd
      · obtain ⟨pc, msg, ps, -, -, -, ho⟩ := outcome_of_wins hwf ha hw
        exact ⟨_, ho⟩
      · exact ⟨_, outcome_of_draws hd⟩
    obtain ⟨o, ho⟩ := hsome
    have hcharge := charges_of_outcome ho
    -- whoever was charged is still connected, and has been given the outcome
    have hany : s'.anyConnected = true := by
      rw [anyConnected_congr (hm.map_isValid (isArrival_of_charges hcharge))]
      exact anyConnected_of_charges hwf ha hcharge
    obtain ⟨pc, hpc⟩ := anyConnected_iff.mp hany
    obtain ⟨c, hc, hv⟩ := isConnected_iff.mp hpc
    have hmem := List.mem_of_getElem? hc
    rw [ho, ← hm.text_of_outcome hwf ho c hmem hv, htext c hmem hv]
  · intro ho
    refine ⟨(hm.roundEnds_iff hwf).mpr ?_, hm.text_of_outcome hwf ho⟩
    by_contra hno
    simp only [not_or, Bool.not_eq_true] at hno
    rw [outcome_none hno.1 hno.2] at ho
    cases ho

/-- A move that ends no round gives nobody a new text. -/
theorem Move.text_eq (hwf : s.WellFormed) (he : e.isArrival = false) (ho : s.outcome? e = none)
    (ha : s.admits e = true) (hm : Move s e s') :
    s'.allPlayerControllers.map (·.notificationText)
      = s.allPlayerControllers.map (·.notificationText) := by
  have hw : s.wins e = false := by
    rw [← Bool.not_eq_true]
    intro hw
    obtain ⟨pc, msg, ps, -, -, -, ho'⟩ := outcome_of_wins hwf ha hw
    rw [ho] at ho'
    cases ho'
  cases hc : s.charges e with
  | false =>
      obtain ⟨clock, calls, rfl⟩ := hm.of_idle hwf he hc
      rfl
  | true =>
      obtain ⟨t, secret, random, calls, hturn, -, -, rfl⟩ := hm.of_charge hwf hc hw
      have hex : (s.charge t).exhausted = false := by
        rw [← draws_iff hturn hc hw, ← Bool.not_eq_true]
        intro hd
        rw [outcome_of_draws hd] at ho
        cases ho
      rw [settled_of_attempt hex]
      show (s.allPlayerControllers.modify t _).map _ = _
      apply List.ext_getElem?
      intro i
      rw [List.getElem?_map, List.getElem?_map, List.getElem?_modify]
      cases s.allPlayerControllers[i]? with
      | none => rfl
      | some c => by_cases hti : t = i <;> simp [hti]

/-! ## What no other event does -/

/-- An event that ends no round keeps the secret, and counts at most the charge itself. -/
theorem Move.kept (hwf : s.WellFormed) (hw : s.wins e = false) (hd : s.draws e = false)
    (hm : Move s e s') :
    s'.secretNumberString = s.secretNumberString ∧
    ∀ i ps ps', s.stateAt i = some ps → s'.stateAt i = some ps' → ps'.currentGuessCount =
      if s.charges e = true ∧ s.turnHolder = some i then ps.currentGuessCount + 1
      else ps.currentGuessCount := by
  cases hc : s.charges e with
  | false =>
      refine ⟨(hm.secret_eq hwf hc).1, fun i ps ps' hps hps' => ?_⟩
      rw [if_neg fun h => Bool.false_ne_true h.1]
      suffices heq : ps = ps' by rw [heq]
      cases he : e.isArrival with
      | false =>
          obtain ⟨clock, calls, rfl⟩ := hm.of_idle hwf he hc
          exact Option.some.inj (hps.symm.trans hps')
      | true =>
          cases hm with
          | login =>
              obtain ⟨c, hget, -⟩ := stateAt_eq_some.mp hps
              obtain ⟨hlt, -⟩ := List.getElem?_eq_some_iff.mp hget
              rw [stateAt_joined_of_lt hlt] at hps'
              exact Option.some.inj (hps.symm.trans hps')
          | logout => exact Option.some.inj (hps.symm.trans (stateAt_logout hps'))
          | _ => cases he
  | true =>
      obtain ⟨t, secret, random, calls, hturn, -, -, rfl⟩ := hm.of_charge hwf hc hw
      rw [draws_iff hturn hc hw] at hd
      rw [settled_of_attempt hd]
      refine ⟨rfl, fun i ps ps' hps hps' => ?_⟩
      have hps' : (s.charge t).stateAt i = some ps' := hps'
      rw [stateAt_charge, hps] at hps'
      by_cases hti : t = i
      · subst hti
        rw [if_pos rfl] at hps'
        rw [if_pos ⟨rfl, hturn⟩, ← Option.some.inj hps']
        rfl
      · rw [if_neg hti] at hps'
        rw [if_neg fun h => hti (Option.some.inj (hturn.symm.trans h.2)), Option.some.inj hps']

/-! ## The verdict that is broadcast -/

/-- The first thing sent for `msg` is the verdict, to everybody connected. -/
def VerdictSent (s s' : World) (msg verdict : FString) : Prop :=
  ∃ rest, s'.sent = s.sent ++ announce s.allPlayerControllers (msg ++ text " -> " ++ verdict) ++ rest

theorem validRefs_ne_nil {cs : List HwPlayerController} :
    ∀ i, cs.any (·.isValid) = true → validRefs i cs ≠ [] := by
  induction cs with
  | nil =>
      intro i h
      cases h
  | cons c cs ih =>
      intro i h
      rw [validRefs]
      cases hv : c.isValid with
      | true => simp
      | false =>
          rw [List.any_cons, hv, Bool.false_or] at h
          simpa using ih (i + 1) h

/-- As soon as somebody is connected, a broadcast sends its message first. -/
theorem announce_eq_cons (hany : s.anyConnected = true) (msg : FString) :
    ∃ pc calls, announce s.allPlayerControllers msg
      = .clientRPCPrintChatMessageString pc msg :: calls := by
  obtain ⟨pc, refs, hrefs⟩ := List.exists_cons_of_ne_nil (validRefs_ne_nil 0 hany)
  unfold announce
  rw [hrefs]
  exact ⟨pc, _, rfl⟩

/-- So a broadcast determines its message. -/
theorem announce_injective (hany : s.anyConnected = true) {a b : FString} {rest rest' : List Rpc}
    (h : announce s.allPlayerControllers a ++ rest = announce s.allPlayerControllers b ++ rest') :
    a = b := by
  obtain ⟨pc, calls, ha⟩ := announce_eq_cons hany a
  obtain ⟨pc', calls', hb⟩ := announce_eq_cons hany b
  rw [ha, hb] at h
  simp only [List.cons_append, List.cons.injEq, Rpc.clientRPCPrintChatMessageString.injEq] at h
  exact h.1.2

theorem settled_sent (s : World) (t : Nat) (secret : FString) (random : RandomStream) :
    ∃ calls, (s.settled t secret random).sent = s.sent ++ calls := by
  cases hex : s.exhausted with
  | true =>
      rw [settled_of_exhausted hex]
      exact ⟨_, List.append_assoc ..⟩
  | false =>
      rw [settled_of_attempt hex]
      exact ⟨_, rfl⟩

/-- No message with its verdict reads like the refusal of a guess out of turn. -/
theorem verdict_ne_refusal (msg : FString) :
    msg ++ text " -> " ++ text "3S0B" ≠ text "아직 당신의 턴이 아닙니다!" := by
  intro h
  have hsuffix : text "3S0B" <:+ text "아직 당신의 턴이 아닙니다!" := ⟨_, h⟩
  exact absurd hsuffix (by decide)

/-- What is sent starts with the verdict, so there is one verdict at most. -/
theorem VerdictSent.unique (hany : s.anyConnected = true) {msg verdict verdict' : FString}
    (h : VerdictSent s s' msg verdict) (h' : VerdictSent s s' msg verdict') : verdict = verdict' := by
  obtain ⟨rest, h⟩ := h
  obtain ⟨rest', h'⟩ := h'
  have heq := h.symm.trans h'
  rw [List.append_assoc s.sent, List.append_assoc s.sent] at heq
  exact List.append_cancel_left (announce_injective hany (List.append_cancel_left heq))

/-- The verdict of an in-turn guess is sent before anything that follows from it. -/
theorem verdictSent_guessed (s : World) (t : Nat) (msg verdict : FString) :
    VerdictSent s (s.guessed t msg verdict) msg verdict := by
  refine ⟨[], ?_⟩
  rw [List.append_nil, ← announce_congr (map_isValid_charge (t := t))]
  rfl

theorem VerdictSent.append {s₁ : World} {msg verdict : FString} (h : VerdictSent s s₁ msg verdict)
    {calls : List Rpc} (hs : s'.sent = s₁.sent ++ calls) : VerdictSent s s' msg verdict := by
  obtain ⟨rest, h⟩ := h
  exact ⟨rest ++ calls, by rw [hs, h, List.append_assoc]⟩

/-- A line that is no in-turn guess is refused or passed on, without a verdict. -/
theorem not_verdictSent_overheard (hwf : s.WellFormed) {pc : Nat} {msg : FString}
    (ha : s.isConnected pc = true) : ¬ VerdictSent s (s.overheard pc msg) msg (text "3S0B") := by
  have hany : s.anyConnected = true := anyConnected_iff.mpr ⟨pc, ha⟩
  rintro ⟨rest, h⟩
  obtain ⟨c, hc, -⟩ := isConnected_iff.mp ha
  obtain ⟨t, hturn⟩ := hwf.turnHolder (List.ne_nil_of_mem (List.mem_of_getElem? hc))
  unfold World.overheard at h
  rw [hturn] at h
  dsimp only at h
  split at h
  · -- refused: only the sender is told
    have h := List.append_cancel_left (h.trans (List.append_assoc ..))
    obtain ⟨pc', calls, hcons⟩ := announce_eq_cons hany (msg ++ text " -> " ++ text "3S0B")
    rw [hcons] at h
    simp only [List.cons_append, List.cons.injEq, Rpc.clientRPCPrintChatMessageString.injEq] at h
    exact verdict_ne_refusal msg h.1.2.symm
  · -- passed on: everybody is sent the line as it is, which is shorter
    have h : announce s.allPlayerControllers msg
        = announce s.allPlayerControllers (msg ++ text " -> " ++ text "3S0B") ++ rest :=
      List.append_cancel_left (h.trans (List.append_assoc ..))
    rw [← List.append_nil (announce s.allPlayerControllers msg)] at h
    have hlen := congrArg List.length (announce_injective hany h)
    simp [text] at hlen

/-- **The verdict agrees with the outcome.** The verdict broadcast for a chat line is `3S0B` exactly
    when the line wins. -/
theorem Move.verdictSent_iff (hwf : s.WellFormed) {pc : Nat} {msg : FString}
    (ha : s.admits (.chat pc msg) = true) (hm : Move s (.chat pc msg) s') :
    VerdictSent s s' msg (text "3S0B") ↔ s.wins (.chat pc msg) = true := by
  cases hm with
  | overheard hg =>
      refine iff_of_false (not_verdictSent_overheard hwf ha) fun hw => ?_
      rw [inTurnGuess_of_wins hw] at hg
      cases hg
  | win hturn hw =>
      exact iff_of_true ((verdictSent_guessed s pc msg _).append rfl) hw
  | @miss _ _ verdict secret random hturn hpc hg hw hv hgen =>
      refine iff_of_false (fun hsent => ?_) (by rw [hw]; exact Bool.false_ne_true)
      obtain ⟨calls, hcalls⟩ := settled_sent (s.guessed pc msg verdict) pc secret random
      have hown := (verdictSent_guessed s pc msg verdict).append hcalls
      -- a guess judged `3S0B` is the secret, and would have won
      obtain rfl := hsent.unique (anyConnected_iff.mpr ⟨pc, ha⟩) hown
      have heq := (judgeResult_eq_3S0B hwf.secret.1 (isGuessNumberString_iff.mp hg).1).mp hv
      rw [hwf.wins_iff.mpr ⟨hturn, heq⟩] at hw
      cases hw

/-! ## What the players read -/

/-- The last text each player was given: the connection notice, or the outcome of a round since. -/
def news (s : World) (e : Event) (_ : World) (old : List FString) : List FString :=
  match s.outcome? e with
  | some outcome => old.map fun _ => outcome
  | none         => if e.isLogin then old ++ [text "Connected to the game server."] else old

/-- The server with the news. Everybody who is there when the game begins has been greeted. -/
def reported (kinds : Event → Prop) : Machine (World × List FString) Event Fault :=
  (game .yieldsNull kinds).track
    (fun s => s.allPlayerControllers.map fun _ => text "Connected to the game server.") news

instance {kinds : Event → Prop} [DecidablePred kinds] (p : World × List FString) (e : Event) :
    Decidable ((reported kinds).allowed p e) :=
  inferInstanceAs (Decidable ((game .yieldsNull kinds).allowed p.1 e))

/-- Every connected player reads the last text that was given. -/
structure Informed (s : World) (old : List FString) : Prop where
  length : old.length = s.allPlayerControllers.length
  text   : ∀ (i : Nat) (c : HwPlayerController), s.allPlayerControllers[i]? = some c → c.isValid = true →
    old[i]? = some c.notificationText

/-- A move that keeps who is valid and what they read keeps everybody informed. -/
theorem Informed.congr {old : List FString} (h : Informed s old)
    (hvalid : s'.allPlayerControllers.map (·.isValid) = s.allPlayerControllers.map (·.isValid))
    (htext : s'.allPlayerControllers.map (·.notificationText)
      = s.allPlayerControllers.map (·.notificationText)) : Informed s' old := by
  refine ⟨by simpa [h.length] using (congrArg List.length htext).symm, fun i c hc hv => ?_⟩
  -- the entry was there before, as valid and with the same text
  have htext := congrArg (·[i]?) htext
  have hvalid := congrArg (·[i]?) hvalid
  simp only [List.getElem?_map, hc, Option.map_some] at htext hvalid
  obtain ⟨d, hd, hdt⟩ := Option.map_eq_some_iff.mp htext.symm
  rw [hd, Option.map_some, Option.some.injEq] at hvalid
  rw [← hdt]
  exact h.text i d hd (hvalid ▸ hv)

/-- A text that is given to everybody is what everybody has been given last. -/
theorem Informed.told {old : List FString} {outcome : FString} (h : Informed s old)
    (hlen : s'.allPlayerControllers.length = s.allPlayerControllers.length)
    (hall : ∀ c ∈ s'.allPlayerControllers, c.isValid = true → c.notificationText = outcome) :
    Informed s' (old.map fun _ => outcome) := by
  refine ⟨by rw [List.length_map, h.length, hlen], fun i c hc hv => ?_⟩
  obtain ⟨hlt, -⟩ := List.getElem?_eq_some_iff.mp hc
  rw [hall c (List.mem_of_getElem? hc) hv, List.getElem?_map,
    List.getElem?_eq_getElem (by rw [h.length]; omega)]
  rfl

/-- A newcomer reads the connection notice. -/
theorem Informed.joined {old : List FString} (h : Informed s old) :
    Informed s.joined (old ++ [NumberBaseball.text "Connected to the game server."]) := by
  refine ⟨?_, fun i c hc hv => ?_⟩
  · show _ = (s.allPlayerControllers ++ [_]).length
    rw [List.length_append, List.length_append, h.length]
    rfl
  · change (s.allPlayerControllers ++ [_])[i]? = some c at hc
    rcases Nat.lt_or_ge i s.allPlayerControllers.length with hi | hi
    · rw [List.getElem?_append_left hi] at hc
      rw [List.getElem?_append_left (by rw [h.length]; exact hi)]
      exact h.text i c hc hv
    · rw [List.getElem?_append_right hi] at hc
      rw [List.getElem?_append_right (by rw [h.length]; exact hi), h.length]
      obtain ⟨hlt, -⟩ := List.getElem?_eq_some_iff.mp hc
      have hzero : i - s.allPlayerControllers.length = 0 := by simpa using hlt
      rw [hzero] at hc ⊢
      obtain rfl := Option.some.inj hc
      rfl

/-- Who leaves reads nothing any more; the others are not disturbed. -/
theorem Informed.logout {old : List FString} {pc : Nat} (h : Informed s old) :
    Informed (s.modify pc HwPlayerController.destroyed) old := by
  refine ⟨h.length.trans (List.length_modify ..).symm, fun i c hc hv => ?_⟩
  change (s.allPlayerControllers.modify pc _)[i]? = some c at hc
  rw [List.getElem?_modify] at hc
  obtain ⟨d, hd, rfl⟩ := Option.map_eq_some_iff.mp hc
  by_cases hpc : pc = i
  · simp only [if_pos hpc] at hv
    cases hv
  · simp only [if_neg hpc] at hv ⊢
    exact h.text i d hd hv

/-- **The step lemma.** -/
theorem Informed.move {old : List FString} (hwf : s.WellFormed) (h : Informed s old)
    (ha : s.admits e = true) (hm : Move s e s') : Informed s' (news s e s' old) := by
  unfold news
  cases ho : s.outcome? e with
  | some outcome =>
      have he := isArrival_of_charges (charges_of_outcome ho)
      exact h.told (hm.length_eq he) (hm.text_of_outcome hwf ho)
  | none =>
      cases he : e.isArrival with
      | false =>
          have hlogin : e.isLogin = false := by cases e <;> simp_all [Event.isLogin, Event.isArrival]
          rw [hlogin]
          exact h.congr (hm.map_isValid he) (hm.text_eq hwf he ho ha)
      | true =>
          cases hm with
          | login => exact h.joined
          | logout => exact h.logout
          | _ => cases he

/-! ## Outcomes over runs -/

/-- How the event that leads from `s` to `s'` can end the round. -/
structure Outcomes (s : World) (e : Event) (s' : World) : Prop where
  won     : ∀ name, EndsRound (name ++ text " has won the game.") s s' ↔
    ∃ pc msg ps, e = .chat pc msg ∧ s.turnHolder = some pc ∧ s.stateAt pc = some ps ∧
      ps.playerNameString = name ∧ lastThree msg = s.secretNumberString
  verdict : ∀ pc msg, e = .chat pc msg → (VerdictSent s s' msg (text "3S0B") ↔
    s.turnHolder = some pc ∧ lastThree msg = s.secretNumberString)
  drawn   : EndsRound (text "Draw") s s' ↔ s.charges e = true ∧ s.wins e = false ∧
    ∃ t, s.turnHolder = some t ∧ ∀ i ps, (s.charge t).stateAt i = some ps →
      ps.maxGuessCount ≤ ps.currentGuessCount
  other   : s.wins e = false → s.draws e = false → ¬ RoundEnds s s' ∧
    s'.secretNumberString = s.secretNumberString ∧
    ∀ i ps ps', s.stateAt i = some ps → s'.stateAt i = some ps' → ps'.currentGuessCount =
      if s.charges e = true ∧ s.turnHolder = some i then ps.currentGuessCount + 1
      else ps.currentGuessCount

theorem Move.outcomes (hwf : s.WellFormed) (ha : s.admits e = true) (hm : Move s e s') :
    Outcomes s e s' where
  won name := by
    rw [hm.endsRound_iff hwf ha]
    constructor
    · intro ho
      cases hw : s.wins e with
      | true =>
          obtain ⟨pc, msg, ps, rfl, hturn, hst, ho'⟩ := outcome_of_wins hwf ha hw
          rw [ho, Option.some.injEq] at ho'
          exact ⟨pc, msg, ps, rfl, hturn, hst, (winText_injective ho').symm, (hwf.wins_iff.mp hw).2⟩
      | false =>
          rw [World.outcome?, hw, if_neg Bool.false_ne_true] at ho
          split at ho
          · exact absurd (Option.some.inj ho).symm (winText_ne_draw name)
          · cases ho
    · rintro ⟨pc, msg, ps, rfl, hturn, hst, rfl, heq⟩
      rw [World.outcome?, if_pos (hwf.wins_iff.mpr ⟨hturn, heq⟩), hturn, Option.bind_some, hst]
      rfl
  verdict pc msg he := by
    subst he
    rw [hm.verdictSent_iff hwf ha, hwf.wins_iff]
  drawn := by
    rw [hm.endsRound_iff hwf ha, outcome_eq_draw, draws_iff_spent]
  other hw hd := by
    refine ⟨fun hend => ?_, hm.kept hwf hw hd⟩
    rcases (hm.roundEnds_iff hwf).mp hend with h | h
    · rw [hw] at h
      cases h
    · rw [hd] at h
      cases h

/-- **Round outcomes are sound, complete and agreed on.** In every state some run reaches: an event ends
    the round with a player's win exactly when it is that player's guess of the secret in turn, which is
    exactly when the verdict broadcast is `3S0B`; it ends the round with a draw exactly when it charges a
    turn, does not win, and leaves every connected player at the limit; no other event touches the secret
    or takes back a count. And every connected player reads the last outcome since the login, or the
    connection notice. -/
theorem round_outcomes {kinds : Event → Prop} {old : List FString}
    (h : (reported kinds).Reachable (s, old)) :
    (∀ e s', s.admits e = true → handle .yieldsNull s e = .ok s' → Outcomes s e s') ∧
    (∀ (i : Nat) (c : HwPlayerController), s.allPlayerControllers[i]? = some c →
      c.isValid = true → old[i]? = some c.notificationText) := by
  have hwf : s.WellFormed := wellFormed_of_reachable (Reachable.of_track h)
  refine ⟨fun e s' ha hs => (Move.of_handle hwf ha hs).outcomes hwf ha, ?_⟩
  have hinf : Informed s old := by
    refine track_invariant ?_ (fun _ _ _ _ hwf h ha hm => h.move hwf ha hm) h
    intro s hf
    refine ⟨List.length_map .., fun i c hc hv => ?_⟩
    rw [List.getElem?_map, hc, hf.greeted c (List.mem_of_getElem? hc) hv]
    rfl
  exact hinf.text

/-- Two players: a guess of the secret by the first ends the round with its win, with the verdict and not with a
    draw, and a wrong one does not end it. After the win the second player leaves, a third comes, and
    everybody who is there reads what it should. -/
theorem round_outcomes_win : ∃ s s' t u,
    (reported everyEvent).Run (emptyServer, []) [.login true, .login true]
      (s, [text "Connected to the game server.", text "Connected to the game server."]) ∧
    (handle .yieldsNull s (.chat 0 (text "123")) = .ok s' ∧
      EndsRound (text "Player1" ++ text " has won the game.") s s' ∧
      VerdictSent s s' (text "123") (text "3S0B") ∧ ¬ EndsRound (text "Draw") s s') ∧
    (handle .yieldsNull s (.chat 0 (text "456")) = .ok t ∧
      ¬ VerdictSent s t (text "456") (text "3S0B") ∧ ¬ RoundEnds s t ∧
      t.secretNumberString = s.secretNumberString) ∧
    (reported everyEvent).Run (emptyServer, [])
      [.login true, .login true, .chat 0 (text "123"), .logout 1, .login true]
      (u, [text "Player1 has won the game.", text "Player1 has won the game.",
        text "Connected to the game server."]) ∧
    ∀ c, u.allPlayerControllers[2]? = some c → c.isValid = true →
      c.notificationText = text "Connected to the game server." := by
  have hinit : (reported everyEvent).Reachable (emptyServer, []) :=
    .init ⟨@emptyServer_init .yieldsNull everyEvent, rfl⟩
  -- the two guesses
  obtain ⟨⟨s, old⟩, hrun, hview⟩ := Run.exists_view (M := reported everyEvent) (s := (emptyServer, []))
    [.login true, .login true]
    (fun p => (p.1.secretNumberString :: p.2,
      (p.1.stateAt 0).map fun ps => (ps.playerNameString, p.1.turnHolder),
      [p.1.isConnected 0, p.1.wins (.chat 0 (text "123")), p.1.wins (.chat 0 (text "456")),
        p.1.draws (.chat 0 (text "456"))]))
    (b := ([text "123", text "Connected to the game server.", text "Connected to the game server."],
      some (text "Player1", some 0), [true, true, false, false])) (by decide +kernel)
  simp only [Prod.mk.injEq, Option.map_eq_some_iff, List.cons.injEq, and_true] at hview
  obtain ⟨⟨hsecret, rfl⟩, ⟨ps, hps, hname, hturn⟩, hpc, hwin, hmiss, hnodraw⟩ := hview
  obtain ⟨houtcomes, -⟩ := round_outcomes (hinit.run hrun)
  have hwf : s.WellFormed := wellFormed_of_reachable (Reachable.of_track (hinit.run hrun))
  obtain ⟨s', hs', -⟩ := handle_move (e := .chat 0 (text "123")) hwf hpc nofun
  obtain ⟨t, ht, -⟩ := handle_move (e := .chat 0 (text "456")) hwf hpc nofun
  have hright := houtcomes (.chat 0 (text "123")) s' hpc hs'
  have hwrong := houtcomes (.chat 0 (text "456")) t hpc ht
  obtain ⟨hgoes, hkept, -⟩ := hwrong.other hmiss hnodraw
  -- and what is read after the win
  obtain ⟨⟨u, old⟩, hrun', hview⟩ := Run.exists_view (M := reported everyEvent)
    (s := (emptyServer, [])) [.login true, .login true, .chat 0 (text "123"), .logout 1, .login true]
    (fun p => p.2) (b := [text "Player1 has won the game.", text "Player1 has won the game.",
      text "Connected to the game server."]) (by decide +kernel)
  subst hview
  refine ⟨s, s', t, u, hrun, ⟨hs', ?_, ?_, ?_⟩, ⟨ht, ?_, hgoes, hkept⟩, hrun', fun c hc hv => ?_⟩
  · exact (hright.won (text "Player1")).mpr ⟨0, text "123", ps, rfl, hturn, hps, hname, hsecret.symm⟩
  · exact (hright.verdict 0 (text "123") rfl).mpr ⟨hturn, hsecret.symm⟩
  · rw [hright.drawn, hwin]
    exact fun h => absurd h.2.1 (by decide)
  · rw [hwrong.verdict 0 (text "456") rfl, hsecret]
    exact fun h => absurd h.2 (by decide)
  · exact (Option.some.inj ((round_outcomes (hinit.run hrun')).2 2 c hc hv)).symm

end NumberBaseball
