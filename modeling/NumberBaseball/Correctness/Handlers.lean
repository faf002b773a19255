import NumberBaseball.Game.Events

/-!
# `Correctness.Handlers` — what each handler does, in closed form

One lemma for each function of the mode, from the leaves up: where every unguarded access is
`Readable`, the function succeeds and its result is the state named here (`charge`, `restart`,
`passTurn`, `settled`, …). Later files cite these and never unfold a handler.

`Readable acc c` is the one hypothesis about destroyed controllers: `c` is valid, or the engine answers
a dead access with null. Under `DeadAccess.yieldsNull` it holds of everything; under `faults` it is what
the source would have to check.
-/

namespace NumberBaseball

/-- An unguarded access through a pointer to `c` does not fault. -/
def Readable (acc : DeadAccess) (c : HwPlayerController) : Prop :=
  c.isValid = true ∨ acc = .yieldsNull

/-! ## Controllers -/

namespace HwPlayerController
variable {c : HwPlayerController} {f : HwPlayerState → HwPlayerState}

@[simp] theorem isValid_mapState : (c.mapState f).isValid = c.isValid := by
  unfold mapState; split <;> rfl

@[simp] theorem notificationText_mapState :
    (c.mapState f).notificationText = c.notificationText := by
  unfold mapState; split <;> rfl

@[simp] theorem state?_mapState : (c.mapState f).state? = c.state?.map f := by
  unfold state? mapState; split <;> simp_all

/-- Without a player state to rewrite nothing changes. -/
theorem mapState_of_none (h : c.state? = none) : c.mapState f = c := by
  unfold state? at h
  unfold mapState
  split
  · next hv =>
      rw [if_pos hv] at h
      rw [h, Option.map_none, ← h]
  · rfl

@[simp] theorem isValid_notified {msg : FString} : (c.notified msg).isValid = c.isValid := by
  unfold notified; split <;> rfl

@[simp] theorem state?_notified {msg : FString} : (c.notified msg).state? = c.state? := by
  unfold state? notified; split <;> simp_all

/-- A write to the player state that was read is a `mapState`. -/
theorem setState_eq_mapState {ps : HwPlayerState} (h : c.state? = some ps) :
    { c with playerState := some (f ps) } = c.mapState f := by
  unfold state? at h
  unfold mapState
  split at h
  · next hv => rw [if_pos hv, h, Option.map_some]
  · cases h

end HwPlayerController

theorem getPlayerState_ok {acc : DeadAccess} {c : HwPlayerController} (h : Readable acc c) :
    getPlayerState acc c = .ok c.state? := by
  unfold getPlayerState HwPlayerController.state?
  rcases h with h | rfl
  · rw [if_pos h, if_pos h]
  · split <;> rfl

theorem readable_yieldsNull (c : HwPlayerController) : Readable .yieldsNull c := Or.inr rfl

/-! ## Lists under a write at one position -/

theorem modify_congr {α : Type} {l : List α} {i : Nat} {a : α} {f g : α → α} (ha : l[i]? = some a)
    (hfg : f a = g a) : l.modify i f = l.modify i g := by
  apply List.ext_getElem?
  intro j
  rw [List.getElem?_modify, List.getElem?_modify]
  by_cases hij : i = j
  · subst hij; simp [ha, hfg]
  · simp [hij]

theorem modify_same {α : Type} {l : List α} {i : Nat} {a : α} {f : α → α} (ha : l[i]? = some a)
    (hf : f a = a) : l.modify i f = l := by
  rw [modify_congr (g := id) ha hf, List.modify_id]

theorem modify_append_length {α : Type} (done : List α) (a : α) (todo : List α) (f : α → α) :
    (done ++ a :: todo).modify done.length f = done ++ f a :: todo := by
  induction done with
  | nil => rfl
  | cons d done ih => simpa using ih

/-- Who is valid decides who is sent to. -/
theorem validRefs_congr {cs ds : List HwPlayerController} :
    ∀ i, cs.map (·.isValid) = ds.map (·.isValid) → validRefs i cs = validRefs i ds := by
  induction cs generalizing ds with
  | nil =>
      intro i h
      cases ds with
      | nil => rfl
      | cons d ds => simp at h
  | cons c cs ih =>
      intro i h
      cases ds with
      | nil => simp at h
      | cons d ds =>
          obtain ⟨hcd, h⟩ : c.isValid = d.isValid ∧ cs.map (·.isValid) = ds.map (·.isValid) := by
            simpa using h
          simp only [validRefs, hcd, ih (i + 1) h]

/-- The remote calls of one `broadcast` to the controllers `cs`. -/
def announce (cs : List HwPlayerController) (msg : FString) : List Rpc :=
  (validRefs 0 cs).map (.clientRPCPrintChatMessageString · msg)

theorem announce_congr {cs ds : List HwPlayerController}
    (h : cs.map (·.isValid) = ds.map (·.isValid)) (msg : FString) :
    announce cs msg = announce ds msg := by
  unfold announce
  rw [validRefs_congr 0 h]

theorem map_isValid_modify {cs : List HwPlayerController} {i : Nat}
    {f : HwPlayerController → HwPlayerController} (hf : ∀ c, (f c).isValid = c.isValid) :
    (cs.modify i f).map (·.isValid) = cs.map (·.isValid) := by
  apply List.ext_getElem?
  intro j
  rw [List.getElem?_map, List.getElem?_map, List.getElem?_modify]
  cases cs[j]? with
  | none => rfl
  | some c => by_cases hij : i = j <;> simp [hij, hf]

theorem map_isValid_map {cs : List HwPlayerController} {g : HwPlayerController → HwPlayerController}
    (hg : ∀ c, (g c).isValid = c.isValid) : (cs.map g).map (·.isValid) = cs.map (·.isValid) := by
  rw [List.map_map]
  exact List.map_congr_left fun c _ => hg c

/-! ## The closed forms -/

namespace World

/-- What `ResetGame` prints for a player state it has just cleared. -/
def clearedTurnText : FString := text "It's Player " ++ fromInt (0 + 1) ++ text "'s turn!"

/-- The announcements of `ResetGame`: one broadcast for every player state found. -/
def resetCalls (cs ds : List HwPlayerController) : List Rpc :=
  ds.flatMap fun c => if c.state?.isSome then announce cs clearedTurnText else []

/-- What `ResetGame` leaves behind, for the secret it drew. -/
def restart (s : World) (secret : FString) (random : RandomStream) : World :=
  { s with
    secretNumberString     := secret
    random                 := random
    secretsGenerated       := s.secretsGenerated + 1
    currentTurnIndex       := 0
    bHasActedInCurrentTurn := false
    allPlayerControllers   := s.allPlayerControllers.map (·.mapState HwPlayerState.cleared)
    sent                   := s.sent ++ resetCalls s.allPlayerControllers s.allPlayerControllers }

/-- The turn is at `next`, with a full clock. -/
def turnTo (s : World) (next : Nat) : World :=
  { s with
    currentTurnIndex       := next
    bHasActedInCurrentTurn := false
    remainingTime          := turnTime }

/-- What `TurnToNextPlayer` leaves behind when the turn goes to `next`: the player there, if there is
    a player state to name, is announced. -/
def passTurn (s : World) (next : Nat) : World :=
  { s.turnTo next with
    sent := s.sent ++
      match s.allPlayerControllers[next]?.bind HwPlayerController.state? with
      | some ps => announce s.allPlayerControllers (text "It's " ++ ps.playerNameString ++ text "'s turn!")
      | none    => [] }

/-- Where the turn goes after a charge that did not win, when it was at `t`: after a draw it passes on
    from index `0`, to which `ResetGame` has moved it, and not from `t`. -/
def nextSeat (s : World) (t : Nat) : Nat :=
  ((if s.exhausted then 0 else t) + 1) % s.allPlayerControllers.length

/-- What `JudgeGame` leaves behind after a charge that did not win. -/
def judged (s : World) (secret : FString) (random : RandomStream) : World :=
  if s.exhausted then (s.notify (text "Draw")).restart secret random else s

/-- What `JudgeGame` and `TurnToNextPlayer` leave behind after a charge that did not win, when the turn
    was at `t`. -/
def settled (s : World) (t : Nat) (secret : FString) (random : RandomStream) : World :=
  (s.judged secret random).passTurn (s.nextSeat t)

/-- After an accepted in-turn guess, before it is judged. -/
def guessed (s : World) (t : Nat) (msg verdict : FString) : World :=
  ({ s with bHasActedInCurrentTurn := true }.charge t).broadcast (msg ++ text " -> " ++ verdict)

/-- After a timeout has been charged, before it is judged. -/
def timedOut (s : World) (t : Nat) : World :=
  { s.charge t with sent := s.sent ++
    [.clientRPCPrintChatMessageString t (text " 시간 초과로 인해 기회가 1회 차감됩니다!")] }

/-- After a chat line that is no in-turn guess. -/
def overheard (s : World) (pc : Nat) (msg : FString) : World :=
  match s.turnHolder with
  | none   => s
  | some t =>
      if pc ≠ t ∧ isGuessNumberString (lastThree msg) = true then
        { s with sent := s.sent ++
          [.clientRPCPrintChatMessageString pc (text "아직 당신의 턴이 아닙니다!")] }
      else s.broadcast msg

/-- After a tick of a running clock. -/
def counted (s : World) : World :=
  { s with
    remainingTime := s.remainingTime - 1
    sent          := s.sent ++ (validRefs 0 s.allPlayerControllers).map .clientRPCTimerUiUpdate }

/-- After a login. -/
def joined (s : World) : World :=
  { s with
    allPlayerControllers := s.allPlayerControllers ++ [{
      isValid          := true
      notificationText := text "Connected to the game server."
      playerState      := some { HwPlayerState.new with
        playerNameString := text "Player" ++ fromInt (s.allPlayerControllers.length + 1) } }]
    sent := s.sent ++ [.multicastRPCBroadcastLoginMessage
      (text "Player" ++ fromInt (s.allPlayerControllers.length + 1))] }

/-! ## The closed forms, field by field -/

section Fields
variable {s : World} {t next pc : Nat} {msg verdict secret : FString} {random : RandomStream}

@[simp] theorem settled_remainingTime :
    (s.settled t secret random).remainingTime = turnTime := rfl

/-- A charge that leaves nobody with an attempt ends the round. -/
theorem settled_of_exhausted (h : s.exhausted = true) :
    s.settled t secret random
      = ((s.notify (text "Draw")).restart secret random).passTurn (s.nextSeat t) := by
  unfold settled judged
  rw [if_pos h]

/-- Any other charge only passes the turn. -/
theorem settled_of_attempt (h : s.exhausted = false) :
    s.settled t secret random = s.passTurn (s.nextSeat t) := by
  unfold settled judged
  rw [if_neg (by rw [h]; exact Bool.false_ne_true)]

/-- A chat line that is no in-turn guess is only sent on. -/
theorem overheard_eq (s : World) (pc : Nat) (msg : FString) :
    ∃ calls, s.overheard pc msg = { s with sent := s.sent ++ calls } := by
  unfold overheard
  split
  · exact ⟨[], by rw [List.append_nil]⟩
  · split
    · exact ⟨_, rfl⟩
    · exact ⟨_, rfl⟩

end Fields

/-! ## The turn holder -/

variable {s : World} {t : Nat}

theorem turnHolder_eq_some :
    s.turnHolder = some t ↔ s.currentTurnIndex = t ∧ t < s.allPlayerControllers.length := by
  unfold turnHolder isValidIndex
  simp only [Bool.and_eq_true, decide_eq_true_eq, Option.ite_none_right_eq_some, Option.some.injEq]
  constructor
  · rintro ⟨⟨h0, hlt⟩, ht⟩
    omega
  · rintro ⟨hc, ht⟩
    omega

/-- The turn holder is decided by the length of the roster and the turn index. -/
theorem turnHolder_congr {s' : World}
    (hlen : s'.allPlayerControllers.length = s.allPlayerControllers.length)
    (hcur : s'.currentTurnIndex = s.currentTurnIndex) : s'.turnHolder = s.turnHolder := by
  unfold turnHolder isValidIndex
  rw [hlen, hcur]

theorem controllerAt_turnHolder (h : s.turnHolder = some t) :
    s.controllerAt s.currentTurnIndex = .ok t := by
  obtain ⟨hc, ht⟩ := turnHolder_eq_some.mp h
  rw [hc]
  exact arrayAt_natCast (by rw [List.getElem?_range ht])

theorem isValidIndex_turnHolder (h : s.turnHolder = some t) :
    isValidIndex s.allPlayerControllers s.currentTurnIndex = true := by
  obtain ⟨hc, ht⟩ := turnHolder_eq_some.mp h
  rw [hc]
  exact isValidIndex_natCast.mpr ht

theorem turnHolder_eq_none :
    s.turnHolder = none ↔ isValidIndex s.allPlayerControllers s.currentTurnIndex = false := by
  unfold turnHolder
  split <;> simp_all

theorem isConnected_iff {pc : Nat} :
    s.isConnected pc = true ↔ ∃ c, s.allPlayerControllers[pc]? = some c ∧ c.isValid = true := by
  unfold isConnected
  cases s.allPlayerControllers[pc]? <;> simp

/-- Who is connected is decided by who is valid. -/
theorem isConnected_congr {s' : World}
    (h : s'.allPlayerControllers.map (·.isValid) = s.allPlayerControllers.map (·.isValid)) (pc : Nat) :
    s'.isConnected pc = s.isConnected pc := by
  have hpc := congrArg (·[pc]?) h
  simp only [List.getElem?_map] at hpc
  unfold isConnected
  cases hs : s.allPlayerControllers[pc]? with
  | none =>
      rw [hs, Option.map_none, Option.map_eq_none_iff] at hpc
      rw [hpc]
  | some c =>
      rw [hs, Option.map_some, Option.map_eq_some_iff] at hpc
      obtain ⟨d, hd, hdc⟩ := hpc
      rw [hd]
      exact hdc

theorem deref_ok {pc : Nat} {c : HwPlayerController}
    (h : s.allPlayerControllers[pc]? = some c) : s.deref pc = .ok c := by
  unfold deref
  rw [h]

/-- A write to a player state that was read is a `mapState` at its position. -/
theorem setPlayerState_eq {pc : Nat} {c : HwPlayerController} {ps : HwPlayerState}
    {f : HwPlayerState → HwPlayerState} (hc : s.allPlayerControllers[pc]? = some c)
    (hps : c.state? = some ps) : s.setPlayerState pc (f ps) = s.modify pc (·.mapState f) := by
  unfold setPlayerState modify
  rw [modify_congr hc (HwPlayerController.setState_eq_mapState hps)]

end World

open World

/-! ## One lemma for each function -/

variable {acc : DeadAccess} {s : World} {pc : Nat} {c : HwPlayerController}
  {secret : FString} {random : RandomStream}

theorem increaseGuessCount_ok (hc : s.allPlayerControllers[pc]? = some c) (hr : Readable acc c) :
    increaseGuessCount acc pc s = .ok (s.charge pc) := by
  unfold increaseGuessCount
  rw [deref_ok hc, Except.ok_bind, getPlayerState_ok hr, Except.ok_bind]
  cases hps : c.state? with
  | some ps =>
      show Except.ok (s.setPlayerState pc ps.charged) = _
      rw [setPlayerState_eq hc hps]
      rfl
  | none =>
      -- without a player state there is nothing to charge
      show Except.ok s = _
      have hsame : s.charge pc = s := by
        unfold World.charge World.modify
        rw [modify_same hc (HwPlayerController.mapState_of_none hps)]
      rw [hsame]

theorem resetCalls_congr {cs ds : List HwPlayerController}
    (h : cs.map (·.isValid) = ds.map (·.isValid)) (todo : List HwPlayerController) :
    resetCalls cs todo = resetCalls ds todo := by
  unfold resetCalls
  rw [announce_congr h]

/-- The loop of `ResetGame` from the position after `done` on. -/
theorem resetGameLoop_ok {todo : List HwPlayerController} :
    ∀ (done : List HwPlayerController) {s : World}, s.allPlayerControllers = done ++ todo →
      (∀ c ∈ todo, Readable acc c) →
      resetGameLoop acc done.length todo s = .ok { s with
        allPlayerControllers := done ++ todo.map (·.mapState HwPlayerState.cleared)
        sent := s.sent ++ resetCalls s.allPlayerControllers todo } := by
  induction todo with
  | nil =>
      intro done s hs _
      simp [resetGameLoop, resetCalls, ← hs]
  | cons c todo ih =>
      intro done s hs hr
      have hc : s.allPlayerControllers[done.length]? = some c := by rw [hs]; simp
      -- the loop goes on with the entry just cleared among those done
      rw [resetGameLoop, getPlayerState_ok (hr c List.mem_cons_self), Except.ok_bind]
      have ih' := fun (s' : World)
          (hs' : s'.allPlayerControllers = (done ++ [c.mapState .cleared]) ++ todo) =>
        ih _ hs' (fun d hd => hr d (List.mem_cons_of_mem _ hd))
      rw [List.length_append, List.length_singleton] at ih'
      cases hps : c.state? with
      | some ps =>
          show resetGameLoop acc (done.length + 1) todo
            ((s.setPlayerState done.length ps.cleared).broadcast clearedTurnText) = _
          rw [setPlayerState_eq hc hps]
          have hroster : (s.modify done.length (·.mapState .cleared)).allPlayerControllers
              = (done ++ [c.mapState .cleared]) ++ todo := by
            show s.allPlayerControllers.modify _ _ = _
            rw [hs, modify_append_length, List.append_assoc, List.singleton_append]
          -- a cleared controller is as valid as before, so the later broadcasts reach the same clients
          have hvalid : (s.modify done.length (·.mapState .cleared)).allPlayerControllers.map (·.isValid)
              = s.allPlayerControllers.map (·.isValid) :=
            map_isValid_modify fun _ => HwPlayerController.isValid_mapState
          rw [ih' ((s.modify done.length (·.mapState .cleared)).broadcast clearedTurnText) hroster]
          show Except.ok { s with
            allPlayerControllers := _
            sent := (s.sent ++ announce (s.modify done.length _).allPlayerControllers _) ++
              resetCalls (s.modify done.length _).allPlayerControllers todo } = _
          rw [announce_congr hvalid, resetCalls_congr hvalid]
          simp [resetCalls, hps]
      | none =>
          show resetGameLoop acc (done.length + 1) todo s = _
          have hsame : c.mapState .cleared = c := HwPlayerController.mapState_of_none hps
          rw [ih' s (by rw [hs, hsame, List.append_assoc, List.singleton_append])]
          simp [resetCalls, hsame, hps]

theorem resetGame_ok (hr : ∀ c ∈ s.allPlayerControllers, Readable acc c)
    (hgen : generateSecretNumber s.random = .ok (secret, random)) :
    resetGame acc s = .ok (s.restart secret random) := by
  unfold resetGame
  simp only [hgen, Except.ok_bind]
  exact resetGameLoop_ok [] rfl hr

/-- The draw scan faults on no entry: each one up to the first player with an attempt left, who ends
    the scan, is readable. -/
def ScanReadable (acc : DeadAccess) : List HwPlayerController → Prop
  | []      => True
  | c :: cs => Readable acc c ∧ (c.hasAttempt = true ∨ ScanReadable acc cs)

theorem scanReadable_yieldsNull (cs : List HwPlayerController) : ScanReadable .yieldsNull cs := by
  induction cs with
  | nil => trivial
  | cons c cs ih => exact ⟨readable_yieldsNull c, Or.inr ih⟩

theorem drawLoop_ok {cs : List HwPlayerController} (h : ScanReadable acc cs) :
    drawLoop acc cs = .ok (cs.all fun c => !c.hasAttempt) := by
  induction cs with
  | nil => rfl
  | cons c cs ih =>
      rw [drawLoop, getPlayerState_ok h.1, Except.ok_bind, List.all_cons]
      have hrest : c.hasAttempt = false → drawLoop acc cs = .ok (cs.all fun c => !c.hasAttempt) :=
        fun hc => ih (h.2.resolve_left (by rw [hc]; exact Bool.false_ne_true))
      unfold HwPlayerController.hasAttempt at hrest ⊢
      cases hps : c.state? with
      | some ps =>
          rw [hps, Option.any_some] at hrest
          -- an attempt left ends the scan
          by_cases hlt : ps.currentGuessCount < ps.maxGuessCount
          · simp [hlt]
          · simpa [hlt] using hrest
      | none =>
          rw [hps, Option.any_none] at hrest
          simpa using hrest

/-- A scan that finds nobody has read every entry. -/
theorem ScanReadable.all_of_exhausted {cs : List HwPlayerController} (h : ScanReadable acc cs)
    (hex : (cs.all fun c => !c.hasAttempt) = true) : ∀ c ∈ cs, Readable acc c := by
  induction cs with
  | nil => simp
  | cons c cs ih =>
      rw [List.all_cons, Bool.and_eq_true, Bool.not_eq_true'] at hex
      intro d hd
      rcases List.mem_cons.mp hd with rfl | hd
      · exact h.1
      · exact ih (h.2.resolve_left (by rw [hex.1]; exact Bool.false_ne_true)) hex.2 d hd

theorem mem_notify {msg : FString} (hr : ∀ c ∈ s.allPlayerControllers, Readable acc c) :
    ∀ c ∈ (s.notify msg).allPlayerControllers, Readable acc c := by
  intro c hc
  obtain ⟨d, hd, rfl⟩ := List.mem_map.mp hc
  exact (hr d hd).imp_left fun hv => by rw [HwPlayerController.isValid_notified, hv]

/-- `JudgeGame` on a win. -/
theorem judgeGame_win {ps : HwPlayerState} (hc : s.allPlayerControllers[pc]? = some c)
    (hps : c.state? = some ps) (hr : ∀ c ∈ s.allPlayerControllers, Readable acc c)
    (hgen : generateSecretNumber s.random = .ok (secret, random)) :
    judgeGame acc pc 3 s
      = .ok ((s.notify (ps.playerNameString ++ text " has won the game.")).restart secret random) := by
  unfold judgeGame
  rw [if_pos rfl, deref_ok hc, Except.ok_bind,
    getPlayerState_ok (hr c (List.mem_of_getElem? hc)), Except.ok_bind, hps]
  exact resetGame_ok (mem_notify hr) hgen

/-- `JudgeGame` on a charge that did not win. -/
theorem judgeGame_zero (hscan : ScanReadable acc s.allPlayerControllers)
    (hgen : generateSecretNumber s.random = .ok (secret, random)) :
    judgeGame acc pc 0 s
      = .ok (s.judged secret random) := by
  unfold judgeGame
  rw [if_neg (by decide), drawLoop_ok hscan, Except.ok_bind]
  unfold World.judged World.exhausted
  split
  · next hex => exact resetGame_ok (mem_notify (hscan.all_of_exhausted hex)) hgen
  · rfl

theorem intMod_natCast {a n : Nat} (hn : 0 < n) : intMod ((a : Int) + 1) n = .ok ((a + 1) % n : Nat) := by
  unfold intMod
  rw [if_neg (by omega), show (a : Int) + 1 = ((a + 1 : Nat) : Int) by omega,
    Int.tmod_eq_emod_of_nonneg (by omega)]
  rfl

/-- `TurnToNextPlayer` from turn `t`, up to its access to the next entry. -/
theorem turnToNextPlayer_eq {t : Nat} (ht : s.currentTurnIndex = t)
    (hc : s.allPlayerControllers[(t + 1) % s.allPlayerControllers.length]? = some c) :
    turnToNextPlayer acc s = (getPlayerState acc c >>= fun ps =>
      match ps with
      | some ps => .ok ((s.turnTo ((t + 1) % s.allPlayerControllers.length)).broadcast
          (text "It's " ++ ps.playerNameString ++ text "'s turn!"))
      | none    => .ok (s.turnTo ((t + 1) % s.allPlayerControllers.length))) := by
  obtain ⟨hlt, -⟩ := List.getElem?_eq_some_iff.mp hc
  -- somebody is there, so the modulus is not zero, and the new index is in range
  have hn : 0 < s.allPlayerControllers.length := by omega
  unfold turnToNextPlayer
  rw [if_neg (by omega), ht, intMod_natCast hn, Except.ok_bind]
  generalize (t + 1) % s.allPlayerControllers.length = next at hc hlt
  have hidx : isValidIndex (s.turnTo next).allPlayerControllers (s.turnTo next).currentTurnIndex
      = true := isValidIndex_natCast.mpr hlt
  have hat : (s.turnTo next).controllerAt (s.turnTo next).currentTurnIndex = .ok next :=
    arrayAt_natCast (List.getElem?_range hlt)
  have hder : (s.turnTo next).deref next = .ok c := deref_ok hc
  show (if isValidIndex (s.turnTo next).allPlayerControllers (s.turnTo next).currentTurnIndex then
      (s.turnTo next).controllerAt (s.turnTo next).currentTurnIndex >>= fun nextPC =>
        (s.turnTo next).deref nextPC >>= fun c => getPlayerState acc c >>= _
    else _) = _
  rw [if_pos hidx, hat, Except.ok_bind, hder, Except.ok_bind]
  rfl

/-- `TurnToNextPlayer`, when the turn is at `t` and the next entry can be read. -/
theorem turnToNextPlayer_ok {t : Nat} (ht : s.currentTurnIndex = t)
    (hc : s.allPlayerControllers[(t + 1) % s.allPlayerControllers.length]? = some c)
    (hr : Readable acc c) :
    turnToNextPlayer acc s = .ok (s.passTurn ((t + 1) % s.allPlayerControllers.length)) := by
  rw [turnToNextPlayer_eq ht hc, getPlayerState_ok hr, Except.ok_bind]
  unfold World.passTurn
  rw [hc, Option.bind_some]
  cases c.state? with
  | some ps => rfl
  | none => simp only [List.append_nil]; rfl

theorem map_isValid_notify {msg : FString} : (s.notify msg).allPlayerControllers.map (·.isValid)
    = s.allPlayerControllers.map (·.isValid) :=
  map_isValid_map fun _ => HwPlayerController.isValid_notified

/-- The end of a round keeps who is valid. -/
theorem map_isValid_restart {msg : FString} :
    ((s.notify msg).restart secret random).allPlayerControllers.map (·.isValid)
      = s.allPlayerControllers.map (·.isValid) :=
  (map_isValid_map fun _ => HwPlayerController.isValid_mapState).trans map_isValid_notify

/-- So does judging. -/
theorem map_isValid_judged (s : World) (secret : FString) (random : RandomStream) :
    (s.judged secret random).allPlayerControllers.map (·.isValid)
      = s.allPlayerControllers.map (·.isValid) := by
  unfold World.judged
  split
  · exact map_isValid_restart
  · rfl

theorem length_judged :
    (s.judged secret random).allPlayerControllers.length = s.allPlayerControllers.length := by
  have := congrArg List.length (map_isValid_judged s secret random)
  simpa using this

/-- The turn a charge is judged at: where it was, or `0` after a draw. -/
theorem currentTurnIndex_judged {t : Nat} (ht : s.currentTurnIndex = t) :
    (s.judged secret random).currentTurnIndex = (if s.exhausted then 0 else t : Nat) := by
  unfold World.judged
  split
  · rfl
  · exact ht

/-- **Judging a charge and passing the turn on.** -/
theorem settle_ok {t : Nat} (ht : s.currentTurnIndex = t)
    (hscan : ScanReadable acc s.allPlayerControllers)
    (hc : s.allPlayerControllers[s.nextSeat t]? = some c) (hr : Readable acc c)
    (hgen : generateSecretNumber s.random = .ok (secret, random)) :
    (judgeGame acc pc 0 s >>= turnToNextPlayer acc) = .ok (s.settled t secret random) := by
  have hvalid := congrArg (·[s.nextSeat t]?) (map_isValid_judged s secret random)
  simp only [List.getElem?_map, hc, Option.map_some, Option.map_eq_some_iff] at hvalid
  -- the entry the turn passes to, as `JudgeGame` has left it
  obtain ⟨d, hd, hdv⟩ := hvalid
  have hrd : Readable acc d := hr.imp_left fun hv => by rw [hdv, hv]
  rw [judgeGame_zero hscan hgen, Except.ok_bind]
  have hnext : ((if s.exhausted then 0 else t) + 1)
      % (s.judged secret random).allPlayerControllers.length = s.nextSeat t := by
    rw [length_judged]
    rfl
  rw [turnToNextPlayer_ok (currentTurnIndex_judged ht) (by rw [hnext]; exact hd) hrd, hnext]
  rfl

/-! ## The handlers -/

/-- A chat line that is no in-turn guess. -/
theorem chat_overheard {msg : FString} (hpc : s.isConnected pc = true)
    (h : s.inTurnGuess pc msg = false) :
    printChatMessageString acc pc msg s = .ok (s.overheard pc msg) := by
  unfold printChatMessageString World.overheard
  cases hturn : s.turnHolder with
  | none => rw [if_pos (turnHolder_eq_none.mp hturn)]
  | some t =>
      rw [if_neg (by rw [isValidIndex_turnHolder hturn]; exact Bool.true_eq_false.mp)]
      dsimp only
      rw [controllerAt_turnHolder hturn, Except.ok_bind]
      change (if pc ≠ t then (if isGuessNumberString (lastThree msg) = true then _ else _) else
        if isGuessNumberString (lastThree msg) = true then _ else _) = _
      by_cases hpt : pc ≠ t
      · -- out of turn: a guess is refused, anything else is passed on
        rw [if_pos hpt]
        by_cases hg : isGuessNumberString (lastThree msg) = true
        · obtain ⟨c, hc, hv⟩ := isConnected_iff.mp hpc
          rw [if_pos hg, if_pos ⟨hpt, hg⟩]
          unfold World.sendTo
          rw [deref_ok hc, Except.ok_bind, if_pos hv]
        · rw [if_neg hg, if_neg (fun h => hg h.2)]
      · -- in turn: the line is no guess, or it would be an in-turn guess
        have hg : ¬ isGuessNumberString (lastThree msg) = true := by
          intro hg
          rw [not_ne_iff] at hpt
          simp [World.inTurnGuess, hturn, hpt, hg] at h
        rw [if_neg hpt, if_neg hg, if_neg (fun h => hg h.2)]

/-- An accepted in-turn guess, up to the point where the source compares it with the secret. -/
theorem chat_guess {msg verdict : FString} {t : Nat} (hturn : s.turnHolder = some t)
    (hg : isGuessNumberString (lastThree msg) = true)
    (hv : judgeResult s.secretNumberString (lastThree msg) = .ok verdict)
    (hc : s.allPlayerControllers[t]? = some c) (hr : Readable acc c) :
    printChatMessageString acc t msg s =
      if equals (lastThree msg) s.secretNumberString then
        judgeGame acc t 3 (s.guessed t msg verdict)
      else judgeGame acc t 0 (s.guessed t msg verdict) >>= turnToNextPlayer acc := by
  unfold printChatMessageString
  rw [if_neg (by rw [isValidIndex_turnHolder hturn]; exact Bool.true_eq_false.mp)]
  dsimp only
  rw [controllerAt_turnHolder hturn, Except.ok_bind, if_neg (not_ne_iff.mpr rfl)]
  change (if isGuessNumberString (lastThree msg) = true then
    judgeResult s.secretNumberString (lastThree msg) >>= _ else _) = _
  have hcharge : increaseGuessCount acc t { s with bHasActedInCurrentTurn := true }
      = .ok ({ s with bHasActedInCurrentTurn := true }.charge t) := increaseGuessCount_ok hc hr
  rw [if_pos hg, hv, Except.ok_bind, hcharge, Except.ok_bind]
  rfl

/-- A tick of a running clock. -/
theorem tick_counted (h : 0 < s.remainingTime) : updateGameTimer acc s = .ok s.counted := by
  unfold updateGameTimer
  rw [if_neg (by omega)]
  rfl

/-- An expired tick with nobody at the turn. -/
theorem tick_nobody (h : s.remainingTime ≤ 0) (hturn : s.turnHolder = none) :
    updateGameTimer acc s = .ok s := by
  unfold updateGameTimer
  rw [if_pos h, turnHolder_eq_none.mp hturn, Bool.and_false, if_neg Bool.false_ne_true]

/-- An expired tick with a destroyed controller at the turn: the clock is wound up, the turn stays. -/
theorem tick_dead {t : Nat} (h : s.remainingTime ≤ 0) (hact : s.bHasActedInCurrentTurn = false)
    (hturn : s.turnHolder = some t) (hc : s.isConnected t = false) :
    updateGameTimer acc s = .ok s.resetTime := by
  obtain ⟨-, hlt⟩ := turnHolder_eq_some.mp hturn
  have hget : s.allPlayerControllers[t]? = some s.allPlayerControllers[t] :=
    List.getElem?_eq_getElem hlt
  have hv : s.allPlayerControllers[t].isValid = false := by
    unfold World.isConnected at hc
    rwa [hget] at hc
  unfold updateGameTimer
  rw [if_pos h, hact, isValidIndex_turnHolder hturn]
  show (s.controllerAt s.currentTurnIndex >>= _) = _
  rw [controllerAt_turnHolder hturn, Except.ok_bind, deref_ok hget, Except.ok_bind,
    if_neg (by rw [hv]; exact Bool.false_ne_true)]

/-- An expired tick with a connected player at the turn. -/
theorem tick_timeout {t : Nat} (h : s.remainingTime ≤ 0) (hact : s.bHasActedInCurrentTurn = false)
    (hturn : s.turnHolder = some t) (hc : s.allPlayerControllers[t]? = some c)
    (hv : c.isValid = true) :
    updateGameTimer acc s =
      ((judgeGame acc t 0 (s.timedOut t) >>= turnToNextPlayer acc) >>= fun s => .ok s.resetTime) := by
  have hc' : (s.charge t).allPlayerControllers[t]? = some (c.mapState .charged) := by
    show (s.allPlayerControllers.modify t _)[t]? = _
    rw [List.getElem?_modify_eq, hc]
    rfl
  have hsend : (s.charge t).sendTo acc t (text " 시간 초과로 인해 기회가 1회 차감됩니다!")
      = .ok (s.timedOut t) := by
    unfold World.sendTo
    rw [deref_ok hc', Except.ok_bind, HwPlayerController.isValid_mapState, if_pos hv]
    rfl
  unfold updateGameTimer
  rw [if_pos h, hact, isValidIndex_turnHolder hturn]
  show (s.controllerAt s.currentTurnIndex >>= _) = _
  rw [controllerAt_turnHolder hturn, Except.ok_bind, deref_ok hc, Except.ok_bind, if_pos hv,
    increaseGuessCount_ok hc (Or.inl hv), Except.ok_bind, hsend, Except.ok_bind]
  cases judgeGame acc t 0 (s.timedOut t) <;> rfl

/-- A login with a player state. -/
theorem login_ok : onPostLogin acc (some (spawnController true)) s = .ok s.joined := by
  simp [onPostLogin, spawnController, getPlayerState, World.setPlayerState, World.modify,
    World.joined, modify_append_length]

/-- A login without one dies when it is announced. -/
theorem login_fault :
    onPostLogin acc (some (spawnController false)) s = .error .invalidPointer := by
  simp [onPostLogin, spawnController, getPlayerState]

end NumberBaseball
