import NumberBaseball.Correctness.Delivery

/-!
# `Correctness.Replicas` — what a client knows of the server, and what it writes and shows from it

A client never sees the server itself, only replicas that may be old. Three things still hold over every
interleaving: every line that reaches the game mode bears the signature of the player it comes from, and of
nobody else (`lines_are_signed`); every replica is what the server was at some earlier time, and the timer
shows a time between zero and fifteen seconds that the clock has really stood at (`views_are_past`); and
one thing only makes a client die, a timer call that comes before the timer widget does, or without it
(`client_fails_iff`).
-/

namespace NumberBaseball

open World Machine

variable {acc : DeadAccess} {classes : WidgetClasses} {n n' : Network} {pc : Nat}

/-! ## Signed lines -/

/-- What a client puts in front of a text. -/
def signature (pc : Nat) (used : Int) : FString :=
  playerName pc ++ text "(" ++ fromInt used ++ text "/" ++ fromInt 3 ++ text ")" ++ text ": "

/-- The line is a text with the signature of `pc` in front. -/
def Signed (pc : Nat) (line : FString) : Prop :=
  ∃ used inText, 0 ≤ used ∧ line = signature pc used ++ inText

theorem isDigit_fromInt {k : Nat} {c : TCHAR} (h : c ∈ fromInt k) : c.isDigit = true := by
  have hrepr : fromInt k = Nat.toDigits 10 k := by
    show (toString (k : Int)).toList = _
    simp [Int.toString_eq_repr, Int.repr_eq_if, Nat.repr]
  rw [hrepr] at h
  exact Nat.isDigit_of_mem_toDigits (b := 10) (by decide) (by decide) h

/-- The number in a name ends at the bracket. -/
theorem takeWhile_signature (pc : Nat) (used : Int) (inText : FString) :
    ((signature pc used ++ inText).drop 6).takeWhile Char.isDigit = fromInt ((pc : Int) + 1) := by
  have hline : signature pc used ++ inText = text "Player" ++ (fromInt ((pc + 1 : Nat) : Int) ++
      '(' :: (fromInt used ++ (text "/" ++ fromInt 3 ++ text ")" ++ text ": " ++ inText))) := by
    simp [signature, playerName, text]
  rw [hline, List.drop_left' (by rfl),
    List.takeWhile_append_of_pos fun c hc => isDigit_fromInt hc,
    List.takeWhile_cons_of_neg (by decide), List.append_nil]
  rfl

/-- A line bears one signature. -/
theorem Signed.unique {other : Nat} {line : FString} (h : Signed pc line) (h' : Signed other line) :
    other = pc := by
  obtain ⟨used, inText, -, rfl⟩ := h
  obtain ⟨used', inText', -, heq⟩ := h'
  have hnumber := takeWhile_signature pc used inText
  rw [heq, takeWhile_signature] at hnumber
  have := fromInt_injective hnumber
  omega

/-- What the owner of a seat writes is signed. -/
theorem SeatState.signed {ps : HwPlayerState} (h : SeatState pc ps) (inText : FString) :
    Signed pc (ps.getPlayerInfoString ++ text ": " ++ inText) := by
  refine ⟨ps.currentGuessCount, inText, h.count, ?_⟩
  unfold HwPlayerState.getPlayerInfoString signature playerName
  rw [h.name, h.quota]

/-- Every line a client sends is its player's info string, a colon and a text. -/
theorem mem_commitLoop {inText line : FString} {commitMethod : ETextCommit} :
    ∀ (left : Nat) (c : Client), line ∈ (commitLoop inText commitMethod left c).2 →
      ∃ ps, c.controller.playerState = some ps ∧ line = ps.getPlayerInfoString ++ text ": " ++ inText := by
  intro left
  induction left with
  | zero => exact fun c hline => by cases hline
  | succ left ih =>
      intro c hline
      change line ∈ (c.onChatInputTextCommitted inText commitMethod).2 ++
        (commitLoop inText commitMethod left (c.onChatInputTextCommitted inText commitMethod).1).2 at hline
      rcases List.mem_append.mp hline with hline | hline
      · unfold Client.onChatInputTextCommitted at hline
        split at hline
        · split at hline
          · unfold HwPlayerController.setChatMessageString at hline
            split at hline
            · split at hline
              · next ps hps => exact ⟨ps, hps, by simpa using hline⟩
              · cases hline
            · cases hline
          · cases hline
        · cases hline
      · obtain ⟨w, hw⟩ := (onChatInputTextCommitted_wrote inText commitMethod c).rest
        obtain ⟨ps, hps, heq⟩ := ih _ hline
        rw [hw] at hps
        exact ⟨ps, hps, heq⟩

theorem Client.mem_textCommitted {c : Client} {line : FString} {commitMethod : ETextCommit}
    (h : line ∈ (c.textCommitted commitMethod).2) : ∃ ps inText,
      c.controller.playerState = some ps ∧ line = ps.getPlayerInfoString ++ text ": " ++ inText := by
  unfold Client.textCommitted at h
  split at h
  · cases h
  · next w _ =>
      obtain ⟨ps, hps, heq⟩ := mem_commitLoop _ _ h
      exact ⟨ps, w.editableTextBox, hps, heq⟩

/-- The client of `pc` knows its player by the right name, and has always done so. -/
structure Link.Named (pc : Nat) (l : Link) : Prop where
  replica : ∀ ps, l.client.controller.playerState = some ps → SeatState pc ps
  updates : ∀ ps, Update.playerState ps ∈ l.updates → SeatState pc ps
  lines   : ∀ line ∈ l.toServer.history, Signed pc line

/-- What is replicated of a player state is the state of the seat. -/
theorem seatState_of_snapshot {s : World} (hseated : Seated s.allPlayerControllers)
    (hpc : s.isConnected pc = true) {actor : Replicated} {ps : HwPlayerState}
    (h : s.snapshot pc actor = some (.playerState ps)) : SeatState pc ps := by
  obtain ⟨c, hc, hv⟩ := isConnected_iff.mp hpc
  obtain ⟨qs, hqs, hseat⟩ := hseated pc c hc hv
  unfold HwPlayerController.state? at hqs
  rw [if_pos hv] at hqs
  unfold World.snapshot at h
  rw [hc] at h
  cases actor with
  | playerState =>
      simp only [Option.bind_some, hqs, Option.map_some, Option.some.injEq, Update.playerState.injEq] at h
      exact h ▸ hseat
  | controller => simp at h
  | gameState => simp at h

namespace Link.Named
variable {l l' : Link}

theorem new : Link.new.Named pc where
  replica _ hps := nomatch hps
  updates _ hps := nomatch hps
  lines _ hline := nomatch hline

theorem step {e : LinkEvent} (h : l.Named pc) (hstep : LinkStep classes l e l') : l'.Named pc := by
  cases hstep with
  | beginPlay =>
      have hcontroller : (l.client.beginPlay classes).controller = l.client.controller := by
        unfold Client.beginPlay
        split <;> rfl
      exact ⟨fun ps hps => h.replica ps (hcontroller ▸ hps), h.updates, h.lines⟩
  | @commit commitMethod =>
      obtain ⟨w, hw⟩ := (l.client.textCommitted_wrote commitMethod).rest
      refine ⟨fun ps hps => h.replica ps ?_, h.updates, fun line hline => ?_⟩
      · change (l.client.textCommitted commitMethod).1.controller.playerState = some ps at hps
        rwa [hw] at hps
      · change line ∈ (l.toServer.send _).history at hline
        rw [Channel.history_send] at hline
        rcases List.mem_append.mp hline with hline | hline
        · exact h.lines line hline
        · obtain ⟨ps, inText, hps, rfl⟩ := Client.mem_textCommitted hline
          exact (h.replica ps hps).signed inText
  | controllerCall _ _ hc =>
      obtain ⟨screen, log, timer, rfl⟩ := Client.execute_eq hc
      exact ⟨h.replica, h.updates, h.lines⟩
  | gameStateCall _ hc =>
      obtain ⟨screen, log, timer, rfl⟩ := Client.execute_eq hc
      exact ⟨h.replica, h.updates, h.lines⟩
  | @update u us hu =>
      have hlater : ∀ ps, Update.playerState ps ∈ us → SeatState pc ps := fun ps hps =>
        h.updates ps (hu ▸ List.mem_cons_of_mem u hps)
      cases u with
      | playerState qs =>
          refine ⟨fun ps hps => h.updates ps ?_, hlater, h.lines⟩
          obtain rfl := Option.some.inj hps
          exact hu ▸ List.mem_cons_self
      | controller => exact ⟨h.replica, hlater, h.lines⟩
      | gameState => exact ⟨h.replica, hlater, h.lines⟩
  | lostUpdate => exact ⟨h.replica, fun ps hps => h.updates ps (List.mem_of_mem_tail hps), h.lines⟩
  | _ => exact ⟨h.replica, h.updates, h.lines⟩

theorem move {s s' : World} (h : l.Named pc) (hseated : Seated s.allPlayerControllers)
    (hpc : s.isConnected pc = true) {o : Option LinkEvent} (hm : LinkMove classes s s' pc o l l') :
    l'.Named pc := by
  cases hm with
  | idle => exact h
  | called => exact ⟨h.replica, h.updates, h.lines⟩
  | handled hr =>
      refine ⟨h.replica, h.updates, fun line hline => h.lines line ?_⟩
      rwa [← Channel.history_receive hr]
  | replicated actor =>
      refine ⟨h.replica, fun ps hps => ?_, h.lines⟩
      rcases List.mem_append.mp hps with hps | hps
      · exact h.updates ps hps
      · exact seatState_of_snapshot hseated hpc (Option.mem_toList.mp hps)
  | own e hs ha he => exact h.step (LinkStep.of_step ha he)

end Link.Named

theorem named_of_reachable (h : (network acc classes).Reachable n) :
    n.EachLink fun pc l => l.Named pc := by
  refine link_invariant (P := fun _ pc l => l.Named pc) ?_ ?_ h
  · intro n s b hr hm
    rw [(newcomer_eq (links_length hr) hm b).2]
    cases b with
    | false => exact .new
    | true => exact ⟨Link.Named.new.replica, Link.Named.new.updates, Link.Named.new.lines⟩
  · intro n n' pc o l l' hr hl hpc hm h
    exact h.move (phase_of_reachable hr).seated hpc hm

/-- What reaches the handler of the game mode is signed. -/
theorem signed_of_reachable (h : (network acc classes).Reachable n) {e : NetEvent} {line : FString}
    (ha : n.admits e = true) (hev : n.serverEvent e = some (.chat pc line)) : Signed pc line := by
  cases e with
  | chatCall t =>
      simp only [Network.admits, Bool.and_eq_true, Option.any_eq_true] at ha
      obtain ⟨⟨-, hpc⟩, l, hl, -⟩ := ha
      simp only [Network.serverEvent, hl, Option.bind_some, Option.map_eq_some_iff] at hev
      obtain ⟨_, hhead, heq⟩ := hev
      cases heq
      exact (named_of_reachable h pc l hl hpc).lines line
        (List.mem_append_right _ (List.mem_of_mem_head? hhead))
  | _ => cases hev

/-- **Every line is signed.** However old the replicas are that a line is written from, the line that reaches
    the handler of the game mode begins with the signature of the player it comes from, the name and the
    counts in brackets, and with the signature of no other. -/
theorem lines_are_signed (h : (network acc classes).Reachable n) {e : NetEvent} {line : FString}
    (ha : n.admits e = true) (hev : n.serverEvent e = some (.chat pc line)) :
    Signed pc line ∧ ∀ other, Signed other line → other = pc := by
  have hsigned := signed_of_reachable h ha hev
  exact ⟨hsigned, fun other hother => hsigned.unique hother⟩

/-- A line of the second player, with the number of the first one in its text. -/
theorem lines_are_signed_second : ∃ n,
    (network .yieldsNull plainClasses).Run emptyNetwork
      (arrives 0 ++ arrives 1 ++ [.link 1 (.edit (text "Player1(0/3): 456")), .link 1 (.commit .onEnter)]) n ∧
    n.serverEvent (.chatCall 1) = some (.chat 1 (text "Player2(0/3): Player1(0/3): 456")) ∧
    Signed 1 (text "Player2(0/3): Player1(0/3): 456") ∧
    ¬ Signed 0 (text "Player2(0/3): Player1(0/3): 456") := by
  obtain ⟨n, hrun, hview⟩ := Run.exists_view (M := network .yieldsNull plainClasses) (s := emptyNetwork)
    (arrives 0 ++ arrives 1 ++ [.link 1 (.edit (text "Player1(0/3): 456")), .link 1 (.commit .onEnter)])
    (fun n => (n.admits (.chatCall 1), n.serverEvent (.chatCall 1)))
    (b := (true, some (.chat 1 (text "Player2(0/3): Player1(0/3): 456")))) (by decide +kernel)
  simp only [Prod.mk.injEq] at hview
  obtain ⟨hsigned, hother⟩ := lines_are_signed (emptyNetwork_reachable.run hrun) hview.1 hview.2
  exact ⟨n, hrun, hview.2, hsigned, fun h => absurd (hother 0 h) (by decide)⟩

/-! ## Old views -/

/-- The network next to every state its server has been in so far. -/
def remembered (acc : DeadAccess) (classes : WidgetClasses) :
    Machine (Network × List World) NetEvent Fault :=
  (network acc classes).track (fun n => [n.server]) fun _ _ n' past => past ++ [n'.server]

instance {acc : DeadAccess} {classes : WidgetClasses} (p : Network × List World) (e : NetEvent) :
    Decidable ((remembered acc classes).allowed p e) :=
  inferInstanceAs (Decidable (p.1.admits e = true))

/-- `u` is what some actor was for `pc` in one of the states `past`. -/
def Seen (past : List World) (pc : Nat) (u : Update) : Prop :=
  ∃ w ∈ past, ∃ actor, w.snapshot pc actor = some u

/-- Everything on the machine of `pc` that comes from the server's properties is from the states `past`. -/
structure Link.Past (classes : WidgetClasses) (past : List World) (pc : Nat) (l : Link) : Prop where
  controller  : l.client.controller.isValid = true →
    Seen past pc (.controller l.client.controller.notificationText)
  playerState : ∀ ps, l.client.controller.playerState = some ps → Seen past pc (.playerState ps)
  gameState   : ∀ v, l.client.remainingTime = some v → ∃ w ∈ past, w.remainingTime = v
  updates     : ∀ u ∈ l.updates, Seen past pc u
  timer       : ∀ shown, l.client.timerTextWidgetInstance = some (some shown) →
    classes.timerTextWidgetClass = some (some shown) ∨
    ∃ w ∈ past, shown = text "Time : " ++ fromInt w.remainingTime

theorem Seen.mono {past past' : List World} {u : Update} (h : Seen past pc u)
    (hsub : ∀ w ∈ past, w ∈ past') : Seen past' pc u := by
  obtain ⟨w, hw, hu⟩ := h
  exact ⟨w, hsub w hw, hu⟩

/-- The clock of the game state is replicated as it stands. -/
theorem Seen.gameState {past : List World} {v : Int} (h : Seen past pc (.gameState v)) :
    ∃ w ∈ past, w.remainingTime = v := by
  obtain ⟨w, hw, actor, hu⟩ := h
  refine ⟨w, hw, ?_⟩
  cases actor with
  | controller => simp [World.snapshot] at hu
  | playerState =>
      obtain ⟨ps, -, hps⟩ := Option.map_eq_some_iff.mp hu
      cases hps
  | gameState => simpa [World.snapshot] using hu

/-- A call leaves the timer widget as it is, or puts the time into its text block. -/
theorem Client.execute_timer {c c' : Client} {call : Rpc} (h : c.execute call = .ok c') :
    c'.timerTextWidgetInstance = c.timerTextWidgetInstance ∨
    ∃ old v, c.timerTextWidgetInstance = some (some old) ∧ c.remainingTime = some v ∧
      c'.timerTextWidgetInstance = some (some (text "Time : " ++ fromInt v)) := by
  have hprint : ∀ msg, (c.printChatMessageString msg).timerTextWidgetInstance
      = c.timerTextWidgetInstance := by
    intro msg
    obtain ⟨screen, log, heq⟩ := c.printChatMessageString_eq msg
    rw [heq]
  cases call with
  | clientRPCPrintChatMessageString t msg =>
      obtain rfl := Except.ok.inj h
      exact Or.inl (hprint msg)
  | clientRPCTimerUiUpdate t =>
      rcases Client.timer_cases h with ⟨log, rfl⟩ | ⟨old, v, hold, hv, rfl⟩
      · exact Or.inl rfl
      · exact Or.inr ⟨old, v, hold, hv, rfl⟩
  | multicastRPCBroadcastLoginMessage name =>
      obtain rfl := Except.ok.inj h
      unfold Client.multicastRPCBroadcastLoginMessage
      rw [if_pos rfl]
      split
      · exact Or.inl (hprint _)
      · exact Or.inl rfl

namespace Link.Past
variable {l l' : Link} {past : List World}

theorem mono {past' : List World} (h : l.Past classes past pc) (hsub : ∀ w ∈ past, w ∈ past') :
    l.Past classes past' pc where
  controller hv := (h.controller hv).mono hsub
  playerState ps hps := (h.playerState ps hps).mono hsub
  gameState v hv := by
    obtain ⟨w, hw, hclock⟩ := h.gameState v hv
    exact ⟨w, hsub w hw, hclock⟩
  updates u hu := (h.updates u hu).mono hsub
  timer shown hshown := by
    rcases h.timer shown hshown with hclass | ⟨w, hw, heq⟩
    · exact Or.inl hclass
    · exact Or.inr ⟨w, hsub w hw, heq⟩

theorem new : Link.new.Past classes past pc where
  controller hv := nomatch hv
  playerState _ hps := nomatch hps
  gameState _ hv := nomatch hv
  updates _ hu := nomatch hu
  timer _ hshown := nomatch hshown

/-- A call that is put under way changes nothing on the machine. -/
theorem called {calls : List Rpc} (h : l.Past classes past pc) : (l.call pc calls).Past classes past pc :=
  ⟨h.controller, h.playerState, h.gameState, h.updates, h.timer⟩

/-- A call through either actor writes nothing but a time into the timer. -/
theorem execute {c : Client} {call : Rpc} (h : l.Past classes past pc)
    (hc : l.client.execute call = .ok c) {fromController fromGameState : Channel Rpc} :
    Link.Past classes past pc { l with
      client := c, fromController := fromController, fromGameState := fromGameState } := by
  have htimer := Client.execute_timer hc
  obtain ⟨screen, log, timer, rfl⟩ := Client.execute_eq hc
  refine ⟨h.controller, h.playerState, h.gameState, h.updates, fun shown hshown => ?_⟩
  have hshown : timer = some (some shown) := hshown
  rcases htimer with hsame | ⟨old, v, -, hv, hnew⟩
  · exact h.timer shown (hsame.symm.trans hshown)
  · obtain ⟨w, hw, rfl⟩ := h.gameState v hv
    have hshown := Option.some.inj (Option.some.inj (hnew.symm.trans hshown))
    exact Or.inr ⟨w, hw, hshown.symm⟩

theorem step {e : LinkEvent} (h : l.Past classes past pc) (hremote : l.client.Remote)
    (hstep : LinkStep classes l e l') : l'.Past classes past pc := by
  cases hstep with
  | beginPlay =>
      obtain ⟨w, heq⟩ := hremote.beginPlay_eq classes
      rw [heq]
      refine ⟨h.controller, h.playerState, h.gameState, h.updates, fun shown hshown => ?_⟩
      have hshown : classes.timerTextWidgetClass.or l.client.timerTextWidgetInstance = some (some shown) :=
        hshown
      rcases Option.or_eq_some_iff.mp hshown with hclass | ⟨-, hold⟩
      · exact Or.inl hclass
      · exact h.timer shown hold
  | @commit commitMethod =>
      obtain ⟨w, hw⟩ := (l.client.textCommitted_wrote commitMethod).rest
      unfold Link.commit
      rw [hw]
      exact ⟨h.controller, h.playerState, h.gameState, h.updates, h.timer⟩
  | controllerCall _ _ hc => exact h.execute hc
  | gameStateCall _ hc => exact h.execute hc
  | @update u us hu =>
      have hfirst : Seen past pc u := h.updates u (hu ▸ List.mem_cons_self)
      have hlater : ∀ v ∈ us, Seen past pc v := fun v hv => h.updates v (hu ▸ List.mem_cons_of_mem u hv)
      cases u with
      | controller => exact ⟨fun _ => hfirst, h.playerState, h.gameState, hlater, h.timer⟩
      | playerState qs =>
          refine ⟨h.controller, fun ps hps => ?_, h.gameState, hlater, h.timer⟩
          obtain rfl := Option.some.inj hps
          exact hfirst
      | gameState v =>
          refine ⟨h.controller, h.playerState, fun v' hv' => ?_, hlater, h.timer⟩
          obtain rfl := Option.some.inj hv'
          exact hfirst.gameState
  | lostUpdate =>
      exact ⟨h.controller, h.playerState, h.gameState, fun u hu => h.updates u (List.mem_of_mem_tail hu),
        h.timer⟩
  | _ => exact ⟨h.controller, h.playerState, h.gameState, h.updates, h.timer⟩

theorem move {s s' : World} (h : l.Past classes past pc) (hremote : l.client.Remote) (hs : s ∈ past)
    {o : Option LinkEvent} (hm : LinkMove classes s s' pc o l l') : l'.Past classes past pc := by
  cases hm with
  | idle => exact h
  | called => exact h.called
  | handled => exact ⟨h.controller, h.playerState, h.gameState, h.updates, h.timer⟩
  | replicated actor =>
      refine ⟨h.controller, h.playerState, h.gameState, fun u hu => ?_, h.timer⟩
      rcases List.mem_append.mp hu with hu | hu
      · exact h.updates u hu
      · exact ⟨s, hs, actor, Option.mem_toList.mp hu⟩
  | own e _ ha he => exact h.step hremote (LinkStep.of_step ha he)

end Link.Past

/-- **Every view is an old one.** In every network reached, whatever the replicas of a connected player's client
    say, and whatever is on its way to them, was so on the server in one of the states `past` the server
    has been in; and the timer shows the text its widget class begins with, or the time the clock showed in
    one of them, which is between zero and fifteen seconds. -/
theorem views_are_past {past : List World} (h : (remembered acc classes).Reachable (n, past)) {l : Link}
    (hl : n.links[pc]? = some l) (hpc : n.server.isConnected pc = true) :
    l.Past classes past pc ∧ ∀ w ∈ past, 0 ≤ w.remainingTime ∧ w.remainingTime ≤ turnTime := by
  have hinv : n.server ∈ past ∧ (∀ w ∈ past, 0 ≤ w.remainingTime ∧ w.remainingTime ≤ turnTime) ∧
      n.EachLink (Link.Past classes past) := by
    refine h.track_invariant (I := fun n past => n.server ∈ past ∧
      (∀ w ∈ past, 0 ≤ w.remainingTime ∧ w.remainingTime ≤ turnTime) ∧
      n.EachLink (Link.Past classes past)) ?_ ?_
    · rintro n ⟨random, rfl⟩
      refine ⟨List.mem_singleton_self _, fun w hw => ?_, fun pc l hl => ?_⟩
      · rw [List.mem_singleton.mp hw]
        show (0 : Int) ≤ 15 ∧ (15 : Int) ≤ turnTime
        decide
      · cases hl
    · intro n past e n' hr hI ha hs
      obtain ⟨hmem, hclock, hlinks⟩ := hI
      have hgrow : ∀ w ∈ past, w ∈ past ++ [n'.server] := fun w hw => List.mem_append_left _ hw
      refine ⟨List.mem_append_right _ (List.mem_singleton_self _), fun w hw => ?_, fun pc l' hl' hpc => ?_⟩
      · rcases List.mem_append.mp hw with hw | hw
        · exact hclock w hw
        · rw [List.mem_singleton.mp hw]
          exact (phase_of_reachable (hr.step ha hs)).clock
      · rcases linkMove_of_step hr ha hs hl' hpc with ⟨l, hl, hconn, hm⟩ | ⟨hm, rfl, b, rfl⟩
        · have hremote := remote_of_reachable hr pc l hl hconn
          exact ((hlinks pc l hl hconn).move hremote hmem hm).mono hgrow
        · rw [(newcomer_eq (links_length hr) hm b).2]
          cases b with
          | false => exact .new
          | true => exact Link.Past.new.called
  exact ⟨hinv.2.2 pc l hl hpc, hinv.2.1⟩

/-- Two ticks have passed; the client has seen the clock before the first of them. -/
theorem views_are_past_clock : ∃ n past l, (remembered .yieldsNull plainClasses).Reachable (n, past) ∧
    n.links[0]? = some l ∧ n.server.remainingTime = 13 ∧
    l.client.timerTextWidgetInstance = some (some (text "Time : 15")) ∧
    l.Past plainClasses past 0 := by
  have hinit : (remembered .yieldsNull plainClasses).Reachable
      (Network.boot fun _ => 0, [(Network.boot fun _ => 0).server]) := .init ⟨⟨_, rfl⟩, rfl⟩
  obtain ⟨p, hrun, hview⟩ := Run.exists_view (M := remembered .yieldsNull plainClasses)
    (s := (Network.boot fun _ => 0, [(Network.boot fun _ => 0).server]))
    (.beginPlay :: arrives 0 ++ [.replicate 0 .gameState, .link 0 .update, .tick, .tick,
      .link 0 .controllerCall])
    (fun p => (p.1.links[0]?.map fun l => l.client.timerTextWidgetInstance,
      p.1.server.remainingTime, p.1.server.isConnected 0))
    (b := (some (some (some (text "Time : 15"))), 13, true)) (by decide +kernel)
  simp only [Prod.mk.injEq, Option.map_eq_some_iff] at hview
  obtain ⟨⟨l, hl, htimer⟩, hclock, hpc⟩ := hview
  have hr : (remembered .yieldsNull plainClasses).Reachable (p.1, p.2) := hinit.run hrun
  exact ⟨p.1, p.2, l, hr, hl, hclock, htimer, (views_are_past hr hl hpc).1⟩

/-! ## What a client dies of -/

/-- There is no timer widget exactly as long as `BeginPlay` has not run, or if no class for it is named. -/
def Client.TimerAsMade (classes : WidgetClasses) (c : Client) : Prop :=
  c.timerTextWidgetInstance = none ↔ c.begunPlay = false ∨ classes.timerTextWidgetClass = none

namespace Client.TimerAsMade
variable {c c' : Client}

theorem beginPlay (h : c.TimerAsMade classes) (hremote : c.Remote) :
    (c.beginPlay classes).TimerAsMade classes := by
  obtain ⟨w, heq⟩ := hremote.beginPlay_eq classes
  have hnone : classes.timerTextWidgetClass = none → c.timerTextWidgetInstance = none :=
    fun hclass => h.mpr (Or.inr hclass)
  rw [heq]
  simpa [Client.TimerAsMade] using hnone

theorem execute {call : Rpc} (h : c.TimerAsMade classes) (hc : c.execute call = .ok c') :
    c'.TimerAsMade classes := by
  have htimer := Client.execute_timer hc
  obtain ⟨screen, log, timer, rfl⟩ := Client.execute_eq hc
  unfold Client.TimerAsMade at h ⊢
  rw [← h]
  show timer = none ↔ _
  rcases htimer with hsame | ⟨old, v, hold, -, hnew⟩
  · rw [show timer = _ from hsame]
  · rw [show timer = _ from hnew, hold]
    exact ⟨nofun, nofun⟩

end Client.TimerAsMade

theorem LinkStep.timerAsMade {l l' : Link} {e : LinkEvent} (hstep : LinkStep classes l e l')
    (hremote : l.client.Remote) (h : l.client.TimerAsMade classes) : l'.client.TimerAsMade classes := by
  cases hstep with
  | beginPlay => exact h.beginPlay hremote
  | @commit commitMethod =>
      obtain ⟨w, hw⟩ := (l.client.textCommitted_wrote commitMethod).rest
      unfold Link.commit
      rw [hw]
      exact h
  | controllerCall _ _ hc => exact h.execute hc
  | gameStateCall _ hc => exact h.execute hc
  | @update u us hu => cases u <;> exact h
  | _ => exact h

theorem timerAsMade_of_reachable (h : (network acc classes).Reachable n) :
    n.EachLink fun _ l => l.client.TimerAsMade classes := by
  refine link_invariant (P := fun _ _ l => l.client.TimerAsMade classes) ?_ ?_ h
  · intro n s b hr hm
    rw [(newcomer_eq (links_length hr) hm b).2]
    cases b <;> exact ⟨fun _ => Or.inl rfl, fun _ => rfl⟩
  · intro n n' pc o l l' hr hl hpc hm h
    cases hm with
    | own e hs ha he =>
        exact (LinkStep.of_step ha he).timerAsMade (remote_of_reachable hr pc l hl hpc) h
    | _ => exact h

/-- Only a timer call can go wrong. -/
theorem Client.execute_error {c : Client} {call : Rpc} : (∃ f, c.execute call = .error f) ↔
    (∃ t, call = .clientRPCTimerUiUpdate t) ∧ c.isLocalController = true ∧
      c.remainingTime.isSome = true ∧ c.timerTextWidgetInstance = none := by
  cases call with
  | clientRPCPrintChatMessageString => exact ⟨nofun, fun h => nomatch h.1⟩
  | multicastRPCBroadcastLoginMessage => exact ⟨nofun, fun h => nomatch h.1⟩
  | clientRPCTimerUiUpdate t =>
      show (∃ f, c.clientRPCTimerUiUpdate = .error f) ↔ _
      unfold Client.clientRPCTimerUiUpdate
      cases hlocal : c.isLocalController <;> cases htime : c.remainingTime <;>
        rcases htimer : c.timerTextWidgetInstance with _ | _ | _ <;> simp

/-- What goes wrong on one machine. -/
theorem Link.step_error {s : World} {l : Link} (hw : l.Wired s pc) (hremote : l.client.Remote)
    {e : LinkEvent} : (∃ f, l.step classes e = .error f) ↔
    e = .controllerCall ∧ (∃ t rest, l.fromController.inFlight = .clientRPCTimerUiUpdate t :: rest) ∧
      l.client.remainingTime.isSome = true ∧ l.client.timerTextWidgetInstance = none := by
  cases e with
  | controllerCall =>
      cases hr : l.fromController.receive with
      | none =>
          have hstep : l.step classes .controllerCall = .ok l := by simp only [Link.step, hr]
          rw [hstep, Channel.receive_eq_none.mp hr]
          simp
      | some p =>
          obtain ⟨call, ch⟩ := p
          have hstep : l.step classes .controllerCall = (l.client.execute call >>= fun c =>
              .ok { l with client := c, fromController := ch }) := by simp only [Link.step, hr]
          rw [hstep, Except.fails_bind_ok_iff, Client.execute_error, (Channel.receive_eq_some.mp hr).1]
          constructor
          · rintro ⟨⟨t, rfl⟩, -, htime, htimer⟩
            exact ⟨rfl, ⟨t, _, rfl⟩, htime, htimer⟩
          · rintro ⟨-, ⟨t, rest, hfly⟩, htime, htimer⟩
            exact ⟨⟨t, (List.cons.inj hfly).1⟩, hremote.isLocal, htime, htimer⟩
  | gameStateCall =>
      cases hr : l.fromGameState.receive with
      | none => simp [Link.step, hr]
      | some p =>
          -- through the game state only login messages come
          obtain ⟨call, ch⟩ := p
          have howner := hw.owner_gameState hr
          cases call with
          | multicastRPCBroadcastLoginMessage => simp [Link.step, hr, Client.execute]
          | _ => cases howner
  | update => cases hu : l.updates <;> simp [Link.step, hu]
  | _ => simp [Link.step]

/-- **What a client dies of.** In every network reached, what happens on the machine of a connected player goes
    wrong if and only if it is a timer call that has come before `BeginPlay` has run there, or on a
    blueprint that names no timer widget; and then only once the game state has arrived. -/
theorem client_fails_iff (h : (network acc classes).Reachable n) {e : LinkEvent}
    (ha : n.admits (.link pc e) = true) :
    (∃ f, n.step acc classes (.link pc e) = .error f) ↔
    e = .controllerCall ∧ ∃ l t rest, n.links[pc]? = some l ∧
      l.fromController.inFlight = .clientRPCTimerUiUpdate t :: rest ∧
      l.client.remainingTime.isSome = true ∧
      (l.client.begunPlay = false ∨ classes.timerTextWidgetClass = none) := by
  simp only [Network.admits, Bool.and_eq_true, Option.any_eq_true] at ha
  obtain ⟨hpc, l, hl, -⟩ := ha
  obtain ⟨hw, lost, hs⟩ := shows_of_reachable h pc l hl hpc
  have htimer : l.client.TimerAsMade classes := timerAsMade_of_reachable h pc l hl hpc
  unfold Client.TimerAsMade at htimer
  have hstep : (∃ f, n.step acc classes (.link pc e) = .error f) ↔ ∃ f, l.step classes e = .error f := by
    simp only [Network.step, hl]
    exact Except.fails_bind_ok_iff
  rw [hstep, Link.step_error hw hs.remote, htimer]
  constructor
  · rintro ⟨rfl, ⟨t, rest, hfly⟩, htime, hnone⟩
    exact ⟨rfl, l, t, rest, hl, hfly, htime, hnone⟩
  · rintro ⟨rfl, l', t, rest, hl', hfly, htime, hnone⟩
    obtain rfl := Option.some.inj (hl.symm.trans hl')
    exact ⟨rfl, ⟨t, rest, hfly⟩, htime, hnone⟩

/-- The controller and the game state have arrived, `BeginPlay` has not run yet, and a tick has come. -/
theorem client_fails_iff_early : ∃ n,
    (network .yieldsNull plainClasses).Run emptyNetwork [.login true true, .replicate 0 .controller,
      .link 0 .update, .replicate 0 .gameState, .link 0 .update, .tick] n ∧
    ∃ f, n.step .yieldsNull plainClasses (.link 0 .controllerCall) = .error f := by
  obtain ⟨n, hrun, hview⟩ := Run.exists_view (M := network .yieldsNull plainClasses) (s := emptyNetwork)
    [.login true true, .replicate 0 .controller, .link 0 .update, .replicate 0 .gameState,
      .link 0 .update, .tick]
    (fun n => (n.admits (.link 0 .controllerCall), n.links[0]?.map fun l =>
      (l.fromController.inFlight, l.client.remainingTime.isSome, l.client.begunPlay)))
    (b := (true, some ([.clientRPCTimerUiUpdate 0], true, false))) (by decide +kernel)
  simp only [Prod.mk.injEq, Option.map_eq_some_iff] at hview
  obtain ⟨ha, l, hl, hfly, htime, hplay⟩ := hview
  exact ⟨n, hrun, (client_fails_iff (emptyNetwork_reachable.run hrun) ha).mpr
    ⟨rfl, l, 0, [], hl, hfly, htime, Or.inl hplay⟩⟩

end NumberBaseball
