import NumberBaseball.Game.Engine

/-!
# `Game.Numbers` — the three number functions of the game mode

`GenerateSecretNumber`, `IsGuessNumberString` and `JudgeResult`, as the source computes them: the
generator draws without replacement from a shrinking pool, the validator loops over the characters and
fills a set of the digits seen, the judge counts strikes and balls position by position.
-/

namespace NumberBaseball

/-! ## `GenerateSecretNumber` -/

/-- The pool `1..9` the digits are drawn from, after the `Num > 0` filter. -/
def secretPool : List Int := [1, 2, 3, 4, 5, 6, 7, 8, 9].filter (fun num => 0 < num)

/-- The drawing loop, with `left` rounds to go: a random index, the digit there appended to the
    result and removed from the pool. -/
def drawDigits : Nat → RandomStream → List Int → FString → Except Fault (FString × RandomStream)
  | 0,        random, _,       result => .ok (result, random)
  | left + 1, random, numbers, result => do
      let (index, random) := randRange random 0 (numbers.length - 1)
      let digit ← arrayAt numbers index
      drawDigits left random (removeAt numbers index) (result ++ fromInt digit)

/-- `AHWGameModeBase::GenerateSecretNumber`; returns the secret and the random stream that is left. -/
def generateSecretNumber (random : RandomStream) : Except Fault (FString × RandomStream) :=
  drawDigits 3 random secretPool []

/-! ## `IsGuessNumberString` -/

/-- The validator's loop over the characters: `none` when it breaks out with `bIsUnique = false`,
    otherwise the set of the digits it added, as a list without repetitions. The caller only looks at
    whether it broke out. -/
def uniqueDigitsLoop : FString → List TCHAR → Option (List TCHAR)
  | [],      uniqueDigits => some uniqueDigits
  | c :: cs, uniqueDigits =>
      if isDigit c = false ∨ c = '0' then none
      else uniqueDigitsLoop cs (if c ∈ uniqueDigits then uniqueDigits else c :: uniqueDigits)

/-- `AHWGameModeBase::IsGuessNumberString`. -/
def isGuessNumberString (inNumberString : FString) : Bool :=
  if inNumberString.length ≠ 3 then false
  else
    match uniqueDigitsLoop inNumberString [] with
    | none   => false
    | some _ => true

/-! ## `JudgeResult` -/

/-- The judge's loop over the positions `is`, with the counts so far: a strike where the characters
    agree, otherwise a ball when the guessed character occurs anywhere in the secret. -/
def judgeLoop (inSecretNumberString inGuessNumberString : FString) :
    List Nat → Int → Int → Except Fault (Int × Int)
  | [],      strikeCount, ballCount => .ok (strikeCount, ballCount)
  | i :: is, strikeCount, ballCount => do
      let s ← arrayAt inSecretNumberString i
      let g ← arrayAt inGuessNumberString i
      if s = g then
        judgeLoop inSecretNumberString inGuessNumberString is (strikeCount + 1) ballCount
      else if contains inSecretNumberString [g] then
        judgeLoop inSecretNumberString inGuessNumberString is strikeCount (ballCount + 1)
      else
        judgeLoop inSecretNumberString inGuessNumberString is strikeCount ballCount

/-- `AHWGameModeBase::JudgeResult`. -/
def judgeResult (inSecretNumberString inGuessNumberString : FString) : Except Fault FString := do
  let (strikeCount, ballCount) ←
    judgeLoop inSecretNumberString inGuessNumberString [0, 1, 2] 0 0
  if strikeCount = 0 ∧ ballCount = 0 then .ok (text "OUT")
  else .ok (fromInt strikeCount ++ text "S" ++ fromInt ballCount ++ text "B")

end NumberBaseball
