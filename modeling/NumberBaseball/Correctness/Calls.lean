import NumberBaseball.Game.Network
import NumberBaseball.Correctness.Announcements
import NumberBaseball.Correctness.DeadSeats

/-!
# `Correctness.Calls` — everything the server says, and who hears it

`Move.sends` says what a move sends, in one form for all nine: at most one notice to one player, or the
login message, or the timer calls, and after that broadcasts, each of which reaches every connected client
and announces a turn or passes a chat line on.
From it come the facts about `sent` that hold over whole runs (`World.Told`): nobody is called before
joining, every login is announced once, and all clients are told the same things in the same order
(`chat_agreement`).
-/

namespace NumberBaseball

open World Machine

variable {s s' : World} {e : Event} {pc : Nat}

/-! ## The messages for one player -/

/-- The answer to a guess out of turn. -/
def refusalText : FString := text "아직 당신의 턴이 아닙니다!"

/-- The notice of a timeout. -/
def timeoutText : FString := text " 시간 초과로 인해 기회가 1회 차감됩니다!"

/-- The message is none of the two notices that only one player is sent. -/
def isPublic (msg : FString) : Bool := decide (msg ≠ refusalText) && decide (msg ≠ timeoutText)

/-- The name a login gives to the player at position `i`. -/
def playerName (i : Nat) : FString := text "Player" ++ fromInt ((i : Int) + 1)

/-- What a move sends before it broadcasts anything. -/
inductive FirstCalls (s : World) : Event → List Rpc → Prop
  | silent {e : Event} (he : e.isLogin = false) : FirstCalls s e []
  | login : FirstCalls s (.login true)
      [.multicastRPCBroadcastLoginMessage (playerName s.allPlayerControllers.length)]
  | refusal {pc : Nat} {msg : FString} :
      FirstCalls s (.chat pc msg) [.clientRPCPrintChatMessageString pc refusalText]
  | notice {t : Nat} (hpc : s.isConnected t = true) :
      FirstCalls s .tick [.clientRPCPrintChatMessageString t timeoutText]
  | timers : FirstCalls s .tick ((validRefs 0 s.allPlayerControllers).map .clientRPCTimerUiUpdate)

/-! ## Broadcasts -/

/-- The calls broadcast `msgs`, one after the other, to the valid controllers of `cs`. -/
def broadcasts (cs : List HwPlayerController) (msgs : List FString) : List Rpc :=
  msgs.flatMap (announce cs)

section Broadcasts
variable {cs ds : List HwPlayerController}

@[simp] theorem broadcasts_nil : broadcasts cs [] = [] := rfl

theorem broadcasts_append (msgs msgs' : List FString) :
    broadcasts cs (msgs ++ msgs') = broadcasts cs msgs ++ broadcasts cs msgs' := List.flatMap_append

@[simp] theorem broadcasts_singleton (msg : FString) : broadcasts cs [msg] = announce cs msg := by
  simp [broadcasts]

theorem broadcasts_congr (h : cs.map (·.isValid) = ds.map (·.isValid)) (msgs : List FString) :
    broadcasts cs msgs = broadcasts ds msgs := by
  unfold broadcasts
  rw [funext (announce_congr h)]

/-- The loop of `ResetGame` broadcasts announcements. -/
theorem resetCalls_eq (cs ds : List HwPlayerController) :
    ∃ msgs, resetCalls cs ds = broadcasts cs msgs ∧ ∀ msg ∈ msgs, isTurnMessage msg = true := by
  induction ds with
  | nil => exact ⟨[], rfl, fun _ hmsg => by cases hmsg⟩
  | cons d ds ih =>
      obtain ⟨msgs, hmsgs, hturns⟩ := ih
      have hcall : resetCalls cs (d :: ds)
          = (if d.state?.isSome then announce cs clearedTurnText else []) ++ resetCalls cs ds :=
        List.flatMap_cons
      rw [hcall, hmsgs]
      cases d.state?.isSome with
      | false => exact ⟨msgs, rfl, hturns⟩
      | true => exact ⟨clearedTurnText :: msgs, rfl, List.forall_mem_cons.mpr ⟨by decide, hturns⟩⟩

/-- So does `TurnToNextPlayer`. -/
theorem turnCalls_eq (cs : List HwPlayerController) (next : Nat) :
    ∃ msgs, turnCalls cs next = broadcasts cs msgs ∧ ∀ msg ∈ msgs, isTurnMessage msg = true := by
  unfold turnCalls
  split
  · exact ⟨[_], (broadcasts_singleton _).symm, List.forall_mem_singleton.mpr (isTurnMessage_name _)⟩
  · exact ⟨[], rfl, fun _ hmsg => by cases hmsg⟩

end Broadcasts

/-- From `s` to `s'` the messages `msgs` have been broadcast, and nothing else sent. -/
def Broadcast (s s' : World) (msgs : List FString) : Prop :=
  s'.sent = s.sent ++ broadcasts s.allPlayerControllers msgs

theorem Broadcast.trans {w : World} {msgs msgs' : List FString} (h : Broadcast s w msgs)
    (h' : Broadcast w s' msgs')
    (hv : w.allPlayerControllers.map (·.isValid) = s.allPlayerControllers.map (·.isValid)) :
    Broadcast s s' (msgs ++ msgs') := by
  unfold Broadcast at h h' ⊢
  rw [h', h, broadcasts_append, broadcasts_congr hv, List.append_assoc]

section Parts
variable {t next : Nat} {msg secret : FString} {random : RandomStream}

/-- From `s` to `s'` turns have been announced, and nothing else sent. -/
def Announcing (s s' : World) : Prop :=
  ∃ msgs, Broadcast s s' msgs ∧ ∀ msg ∈ msgs, isTurnMessage msg = true

/-- The end of a round. -/
theorem announcing_ended : Announcing s ((s.notify msg).restart secret random) := by
  obtain ⟨msgs, hmsgs, hturns⟩ := resetCalls_eq (s.notify msg).allPlayerControllers
    (s.notify msg).allPlayerControllers
  refine ⟨msgs, ?_, hturns⟩
  rw [broadcasts_congr map_isValid_notify] at hmsgs
  unfold Broadcast
  rw [← hmsgs]
  rfl

theorem announcing_judged (secret : FString) (random : RandomStream) :
    Announcing s (s.judged secret random) := by
  unfold World.judged
  cases s.exhausted with
  | true => exact announcing_ended
  | false => exact ⟨[], (List.append_nil _).symm, fun _ hmsg => by cases hmsg⟩

theorem announcing_passTurn (next : Nat) : Announcing s (s.passTurn next) := by
  obtain ⟨msgs, hmsgs, hturns⟩ := turnCalls_eq s.allPlayerControllers next
  refine ⟨msgs, ?_, hturns⟩
  unfold Broadcast
  rw [← hmsgs]
  rfl

/-- A charge that does not win is settled with announcements. -/
theorem announcing_settled (secret : FString) (random : RandomStream) :
    Announcing s (s.settled t secret random) := by
  obtain ⟨msgs, hjudged, hturns⟩ := announcing_judged (s := s) secret random
  obtain ⟨msgs', hpassed, hturns'⟩ := announcing_passTurn (s := s.judged secret random) (s.nextSeat t)
  exact ⟨msgs ++ msgs', hjudged.trans hpassed (map_isValid_judged s secret random),
    List.forall_mem_append.mpr ⟨hturns, hturns'⟩⟩

/-- The verdict of a guess is broadcast first. -/
theorem broadcast_guessed (msg verdict : FString) :
    Broadcast s (s.guessed t msg verdict) [msg ++ text " -> " ++ verdict] := by
  unfold Broadcast
  rw [broadcasts_singleton, ← announce_congr (map_isValid_charge (t := t))]
  rfl

end Parts

/-! ## What a move sends -/

/-- A message that is broadcast announces a turn, or it begins with the chat line that is being handled. -/
inductive Said : Event → FString → Prop
  | turn {e : Event} {msg : FString} (h : isTurnMessage msg = true) : Said e msg
  | line {pc : Nat} {line rest : FString} : Said (.chat pc line) (line ++ rest)

/-- A move sends `first`, and then broadcasts `msgs`. -/
structure Sends (s : World) (e : Event) (s' : World) (first : List Rpc) (msgs : List FString) : Prop where
  opening : FirstCalls s e first
  sent    : s'.sent = s.sent ++ (first ++ broadcasts s.allPlayerControllers msgs)
  said    : ∀ msg ∈ msgs, Said e msg

/-- The verdict on a guess comes first, and then turns are announced. -/
theorem Broadcast.sends {t : Nat} {msg verdict : FString} {msgs : List FString}
    (h : Broadcast s s' ([msg ++ text " -> " ++ verdict] ++ msgs))
    (hturns : ∀ msg ∈ msgs, isTurnMessage msg = true) :
    Sends s (.chat t msg) s' [] ([msg ++ text " -> " ++ verdict] ++ msgs) := by
  refine ⟨.silent rfl, h, List.forall_mem_append.mpr ⟨List.forall_mem_singleton.mpr ?_, ?_⟩⟩
  · rw [List.append_assoc]
    exact .line
  · exact fun msg hmsg => .turn (hturns msg hmsg)

/-- **What a move sends.** -/
theorem Move.sends (hm : Move s e s') : ∃ first msgs, Sends s e s' first msgs := by
  have hsilent : ∀ msg ∈ ([] : List FString), Said e msg := fun _ hmsg => by cases hmsg
  cases hm with
  | login => exact ⟨_, [], .login, rfl, hsilent⟩
  | logout => exact ⟨[], [], .silent rfl, (List.append_nil _).symm, hsilent⟩
  | @overheard pc msg =>
      unfold World.overheard
      split
      · exact ⟨[], [], .silent rfl, (List.append_nil _).symm, hsilent⟩
      · split
        · exact ⟨_, [], .refusal, rfl, hsilent⟩
        · refine ⟨[], [msg ++ []], .silent rfl, ?_, List.forall_mem_singleton.mpr .line⟩
          rw [List.append_nil, broadcasts_singleton]
          rfl
  | @win t msg =>
      obtain ⟨msgs, hended, hturns⟩ := announcing_ended (s := s.guessed t msg (text "3S0B"))
      have hall := (broadcast_guessed (s := s) (t := t) msg (text "3S0B")).trans hended
        map_isValid_charge
      exact ⟨_, _, hall.sends hturns⟩
  | @miss t msg verdict =>
      obtain ⟨msgs, hsettled, hturns⟩ := announcing_settled (s := s.guessed t msg verdict) _ _
      have hall := (broadcast_guessed (s := s) (t := t) msg verdict).trans hsettled
        map_isValid_charge
      exact ⟨_, _, hall.sends hturns⟩
  | @timeout t secret random hturn hpc =>
      obtain ⟨msgs, hsettled, hturns⟩ := announcing_settled (s := s.timedOut t) (t := t) secret random
      refine ⟨_, msgs, .notice hpc, ?_, fun msg hmsg => .turn (hturns msg hmsg)⟩
      have hv : (s.timedOut t).allPlayerControllers.map (·.isValid)
          = s.allPlayerControllers.map (·.isValid) := map_isValid_charge
      rw [show _ = _ from hsettled, broadcasts_congr hv, ← List.append_assoc]
      rfl
  | counted => exact ⟨_, [], .timers, by rw [broadcasts_nil, List.append_nil]; rfl, hsilent⟩
  | rewound => exact ⟨[], [], .silent rfl, (List.append_nil _).symm, hsilent⟩
  | deserted => exact ⟨[], [], .silent rfl, (List.append_nil _).symm, hsilent⟩

/-! ## Who is called -/

theorem mem_validRefs {cs : List HwPlayerController} :
    ∀ i, pc ∈ validRefs i cs → ∃ j c, pc = i + j ∧ cs[j]? = some c ∧ c.isValid = true := by
  induction cs with
  | nil =>
      intro i h
      cases h
  | cons c cs ih =>
      intro i h
      rw [validRefs] at h
      have hrest : pc ∈ validRefs (i + 1) cs →
          ∃ j d, pc = i + j ∧ (c :: cs)[j]? = some d ∧ d.isValid = true := by
        intro h
        obtain ⟨j, d, rfl, hd, hv⟩ := ih (i + 1) h
        exact ⟨j + 1, d, by omega, hd, hv⟩
      split at h
      · next hv =>
          rcases List.mem_cons.mp h with rfl | h
          · exact ⟨0, c, rfl, rfl, hv⟩
          · exact hrest h
      · exact hrest h

theorem isConnected_of_mem_validRefs (h : pc ∈ validRefs 0 s.allPlayerControllers) :
    s.isConnected pc = true := by
  obtain ⟨j, c, hj, hc, hv⟩ := mem_validRefs 0 h
  rw [Nat.zero_add] at hj
  subst hj
  exact isConnected_iff.mpr ⟨c, hc, hv⟩

/-- A broadcast is made through the controllers of connected players. -/
theorem mem_broadcasts {cs : List HwPlayerController} {msgs : List FString} {call : Rpc}
    (h : call ∈ broadcasts cs msgs) :
    ∃ pc msg, pc ∈ validRefs 0 cs ∧ msg ∈ msgs ∧ call = .clientRPCPrintChatMessageString pc msg := by
  obtain ⟨msg, hmsg, h⟩ := List.mem_flatMap.mp h
  obtain ⟨pc, hpc, rfl⟩ := List.mem_map.mp h
  exact ⟨pc, msg, hpc, hmsg, rfl⟩

theorem FirstCalls.isConnected {first : List Rpc} (h : FirstCalls s e first)
    (ha : s.admits e = true) {call : Rpc} (hcall : call ∈ first) (howner : call.owner = some pc) :
    s.isConnected pc = true := by
  cases h with
  | silent => cases hcall
  | login =>
      obtain rfl := List.mem_singleton.mp hcall
      cases howner
  | refusal =>
      obtain rfl := List.mem_singleton.mp hcall
      obtain rfl := Option.some.inj howner
      exact ha
  | notice hpc =>
      obtain rfl := List.mem_singleton.mp hcall
      obtain rfl := Option.some.inj howner
      exact hpc
  | timers =>
      obtain ⟨t, ht, rfl⟩ := List.mem_map.mp hcall
      obtain rfl := Option.some.inj howner
      exact isConnected_of_mem_validRefs ht

/-- **Only connected players are called.** -/
theorem Sends.isConnected {first : List Rpc} {msgs : List FString} (h : Sends s e s' first msgs)
    (ha : s.admits e = true) {call : Rpc}
    (hcall : call ∈ first ++ broadcasts s.allPlayerControllers msgs) (howner : call.owner = some pc) :
    s.isConnected pc = true := by
  rcases List.mem_append.mp hcall with hcall | hcall
  · exact h.opening.isConnected ha hcall howner
  · obtain ⟨t, msg, ht, -, rfl⟩ := mem_broadcasts hcall
    obtain rfl := Option.some.inj howner
    exact isConnected_of_mem_validRefs ht

/-! ## Login messages -/

/-- The login message of the player at position `i`. -/
def loginCall (i : Nat) : Rpc := .multicastRPCBroadcastLoginMessage (playerName i)

/-- The calls that are made through the game state. -/
def loginCalls (calls : List Rpc) : List Rpc := calls.filter (·.owner == none)

theorem loginCalls_append (calls calls' : List Rpc) :
    loginCalls (calls ++ calls') = loginCalls calls ++ loginCalls calls' := List.filter_append ..

theorem loginCalls_broadcasts (cs : List HwPlayerController) (msgs : List FString) :
    loginCalls (broadcasts cs msgs) = [] := by
  apply List.filter_eq_nil_iff.mpr
  intro call hcall
  obtain ⟨t, msg, -, -, rfl⟩ := mem_broadcasts hcall
  exact Bool.false_ne_true

/-- A login sends its message, and nothing else does. -/
theorem Sends.loginCalls {first : List Rpc} {msgs : List FString} (h : Sends s e s' first msgs) :
    NumberBaseball.loginCalls (first ++ broadcasts s.allPlayerControllers msgs)
      = if e.isLogin then [loginCall s.allPlayerControllers.length] else [] := by
  rw [loginCalls_append, loginCalls_broadcasts, List.append_nil]
  cases h.opening with
  | silent he => rw [he]; rfl
  | login => rfl
  | refusal => rfl
  | notice => rfl
  | timers =>
      apply List.filter_eq_nil_iff.mpr
      intro call hcall
      obtain ⟨t, -, rfl⟩ := List.mem_map.mp hcall
      exact Bool.false_ne_true

/-! ## What a client hears of a move -/

@[simp] theorem heard_nil (pc : Nat) : heard pc [] = [] := rfl

theorem heard_announce (hpc : s.isConnected pc = true) (msg : FString) :
    heard pc (announce s.allPlayerControllers msg) = [msg] := by
  obtain ⟨c, hc, hv⟩ := isConnected_iff.mp hpc
  simpa [announce] using heard_validRefs 0 pc c hc hv

/-- Every connected client hears every broadcast. -/
theorem heard_broadcasts (hpc : s.isConnected pc = true) (msgs : List FString) :
    heard pc (broadcasts s.allPlayerControllers msgs) = msgs := by
  induction msgs with
  | nil => rfl
  | cons msg msgs ih =>
      have hcons : broadcasts s.allPlayerControllers (msg :: msgs)
          = announce s.allPlayerControllers msg ++ broadcasts s.allPlayerControllers msgs :=
        List.flatMap_cons
      rw [hcons, heard_append, heard_announce hpc, ih]
      rfl

/-- Who is not called hears nothing. -/
theorem heard_eq_nil {calls : List Rpc} (h : ∀ call ∈ calls, call.owner ≠ some pc) :
    heard pc calls = [] := by
  apply List.filterMap_eq_nil_iff.mpr
  intro call hcall
  cases call with
  | clientRPCPrintChatMessageString t msg =>
      exact if_neg fun ht => h _ hcall (by rw [ht]; rfl)
  | clientRPCTimerUiUpdate => rfl
  | multicastRPCBroadcastLoginMessage => rfl

/-- The messages among `calls` that `pc` is sent like everybody else. -/
def publicHeard (pc : Nat) (calls : List Rpc) : List FString := (heard pc calls).filter isPublic

theorem publicHeard_append (pc : Nat) (calls calls' : List Rpc) :
    publicHeard pc (calls ++ calls') = publicHeard pc calls ++ publicHeard pc calls' := by
  simp [publicHeard, heard_append]

/-- What comes before the broadcasts is for nobody else's eyes, or no chat message at all. -/
theorem FirstCalls.publicHeard {first : List Rpc} (h : FirstCalls s e first) (pc : Nat) :
    NumberBaseball.publicHeard pc first = [] := by
  have hnotice : ∀ (t : Nat) (msg : FString), isPublic msg = false →
      NumberBaseball.publicHeard pc [.clientRPCPrintChatMessageString t msg] = [] := by
    intro t msg hmsg
    by_cases ht : t = pc
    · simp [NumberBaseball.publicHeard, heard, ht, hmsg]
    · simp [NumberBaseball.publicHeard, heard, ht]
  cases h with
  | silent => rfl
  | login => rfl
  | refusal => exact hnotice _ _ (by decide)
  | notice => exact hnotice _ _ (by decide)
  | timers =>
      have hnone : heard pc ((validRefs 0 s.allPlayerControllers).map .clientRPCTimerUiUpdate)
          = [] := by
        rw [heard, List.filterMap_map]
        exact List.filterMap_eq_nil_iff.mpr fun _ _ => rfl
      rw [NumberBaseball.publicHeard, hnone]
      rfl

/-- **Every connected client hears the same of a move**, the two notices aside. -/
theorem Sends.publicHeard {first : List Rpc} {msgs : List FString} (h : Sends s e s' first msgs)
    (hpc : s.isConnected pc = true) :
    NumberBaseball.publicHeard pc (first ++ broadcasts s.allPlayerControllers msgs)
      = msgs.filter isPublic := by
  rw [publicHeard_append, h.opening.publicHeard, List.nil_append]
  show (heard pc _).filter isPublic = _
  rw [heard_broadcasts hpc]

/-! ## Over whole runs -/

/-- What has been said so far: calls went to players who had joined, every login was announced once, and
    what a later player has heard is the end of what an earlier one has. -/
structure World.Told (s : World) : Prop where
  joined : ∀ call ∈ s.sent, ∀ pc, call.owner = some pc → pc < s.allPlayerControllers.length
  logins : loginCalls s.sent = (List.range s.allPlayerControllers.length).map loginCall
  agree  : ∀ i j, i ≤ j → s.isConnected i = true → s.isConnected j = true →
    publicHeard j s.sent <:+ publicHeard i s.sent

theorem isConnected_lt (h : s.isConnected pc = true) : pc < s.allPlayerControllers.length := by
  obtain ⟨c, hc, -⟩ := isConnected_iff.mp h
  exact (List.getElem?_eq_some_iff.mp hc).1

/-- Only a login makes the roster longer. -/
theorem Move.length_roster (hm : Move s e s') : s'.allPlayerControllers.length
    = s.allPlayerControllers.length + if e.isLogin then 1 else 0 := by
  cases he : e.isArrival with
  | false =>
      rw [hm.length_eq he]
      cases e with
      | login => cases he
      | _ => rfl
  | true =>
      cases hm with
      | login => exact List.length_append
      | logout => exact List.length_modify ..
      | _ => cases he

/-- Who is connected after a move was so before, or has just joined. -/
theorem Move.isConnected_cases (hm : Move s e s') (hpc : s'.isConnected pc = true) :
    s.isConnected pc = true ∨ e.isLogin = true ∧ pc = s.allPlayerControllers.length := by
  cases he : e.isArrival with
  | false => exact Or.inl ((isConnected_congr (hm.map_isValid he) pc).symm.trans hpc)
  | true =>
      cases hm with
      | login =>
          obtain ⟨c, hc, hv⟩ := isConnected_iff.mp hpc
          have hlt := isConnected_lt hpc
          rw [show s.joined.allPlayerControllers.length = s.allPlayerControllers.length + 1 from
            List.length_append] at hlt
          rcases Nat.lt_or_eq_of_le (Nat.le_of_lt_succ hlt) with h | h
          · rw [show s.joined.allPlayerControllers[pc]? = s.allPlayerControllers[pc]? from
              List.getElem?_append_left h] at hc
            exact Or.inl (isConnected_iff.mpr ⟨c, hc, hv⟩)
          · exact Or.inr ⟨rfl, h⟩
      | logout =>
          rw [isConnected_logout, Bool.and_eq_true] at hpc
          exact Or.inl hpc.2
      | _ => cases he

namespace World.Told

theorem boot (random : RandomStream) : (World.boot random).Told where
  joined _ h := by cases h
  logins := rfl
  agree _ _ _ h := by cases h

/-- The handlers aside, nothing is said. -/
theorem congr (h : s.Told) (hroster : s'.allPlayerControllers = s.allPlayerControllers)
    (hsent : s'.sent = s.sent) : s'.Told := by
  have hpc : ∀ pc, s'.isConnected pc = s.isConnected pc := isConnected_congr (by rw [hroster])
  refine ⟨?_, ?_, ?_⟩
  · rw [hsent, hroster]
    exact h.joined
  · rw [hsent, hroster]
    exact h.logins
  · intro i j hij hi hj
    rw [hsent]
    exact h.agree i j hij ((hpc i).symm.trans hi) ((hpc j).symm.trans hj)

/-- A player who has not joined has heard nothing. -/
theorem heard_eq_nil (h : s.Told) (hpc : s.allPlayerControllers.length ≤ pc) : heard pc s.sent = [] := by
  apply NumberBaseball.heard_eq_nil
  intro call hcall howner
  have := h.joined call hcall pc howner
  omega

/-- **The step lemma.** -/
theorem move (h : s.Told) (ha : s.admits e = true) (hm : Move s e s') : s'.Told := by
  obtain ⟨first, msgs, hsends⟩ := hm.sends
  have hlen := hm.length_roster
  refine ⟨?_, ?_, ?_⟩
  · intro call hcall pc howner
    rw [hsends.sent] at hcall
    rcases List.mem_append.mp hcall with hcall | hcall
    · have := h.joined call hcall pc howner
      omega
    · have := isConnected_lt (hsends.isConnected ha hcall howner)
      omega
  · rw [hsends.sent, loginCalls_append, h.logins, hsends.loginCalls, hlen]
    cases e.isLogin with
    | false => simp
    | true =>
        rw [if_pos rfl, if_pos rfl, List.range_succ, List.map_append]
        rfl
  · intro i j hij hi hj
    rw [hsends.sent]
    rcases hm.isConnected_cases hj with hj | ⟨-, rfl⟩
    · -- both were there, and have heard the same of this move
      have hi : s.isConnected i = true := by
        rcases hm.isConnected_cases hi with hi | ⟨-, rfl⟩
        · exact hi
        · have := isConnected_lt hj
          omega
      obtain ⟨earlier, hearlier⟩ := h.agree i j hij hi hj
      rw [publicHeard_append j s.sent, publicHeard_append i s.sent, hsends.publicHeard hi,
        hsends.publicHeard hj, ← hearlier, List.append_assoc]
      exact List.suffix_append ..
    · -- the later one has just joined
      have hnone : publicHeard s.allPlayerControllers.length (s.sent ++ (first ++ broadcasts
          s.allPlayerControllers msgs)) = [] := by
        unfold publicHeard
        rw [heard_append, h.heard_eq_nil (Nat.le_refl _), NumberBaseball.heard_eq_nil]
        · rfl
        · intro call hcall howner
          exact Nat.lt_irrefl _ (isConnected_lt (hsends.isConnected ha hcall howner))
      rw [hnone]
      exact List.nil_suffix

end World.Told

/-- Before `BeginPlay` a step is a move, too. -/
theorem Move.of_lobby {kinds : Event → Prop} (ha : (lobby .yieldsNull kinds).allowed s e)
    (hs : handle .yieldsNull s e = .ok s') : Move s e s' := by
  obtain ⟨-, -, he⟩ := ha
  cases e with
  | login hasPlayerState =>
      cases hasPlayerState with
      | false =>
          rw [show handle .yieldsNull s (.login false) = .error .invalidPointer from login_fault] at hs
          cases hs
      | true =>
          rw [show handle .yieldsNull s (.login true) = .ok s.joined from login_ok] at hs
          obtain rfl := Except.ok.inj hs
          exact .login
  | logout pc =>
      obtain rfl := Except.ok.inj hs
      exact .logout
  | chat _ _ => cases he
  | tick => cases he

theorem beginPlay_eq (h : beginPlay s = .ok s') :
    s'.allPlayerControllers = s.allPlayerControllers ∧ s'.sent = s.sent := by
  unfold beginPlay at h
  rw [Except.bind_eq_ok] at h
  obtain ⟨⟨secret, random⟩, -, h⟩ := h
  obtain rfl := Except.ok.inj h
  exact ⟨rfl, rfl⟩

theorem told_of_lobby {kinds : Event → Prop} (h : (lobby .yieldsNull kinds).Reachable s) : s.Told := by
  refine h.invariant ?_ ?_
  · rintro s ⟨random, rfl⟩
    exact .boot random
  · intro s e s' _ hI ha hs
    exact hI.move ha.2.1 (Move.of_lobby ha hs)

theorem told_of_reachable {kinds : Event → Prop} (h : (game .yieldsNull kinds).Reachable s) :
    s.Told := by
  refine h.invariant ?_ ?_
  · rintro s ⟨s₀, hr, hb⟩
    obtain ⟨hroster, hsent⟩ := beginPlay_eq hb
    exact (told_of_lobby hr).congr hroster hsent
  · intro s e s' hr hI ha hs
    exact hI.move ha.2 (Move.of_handle (wellFormed_of_reachable hr) ha.2 hs)

end NumberBaseball
