import PipeLint.Check.Quoted
import PipeLint.FlagSet

/-!
# Checks on one stage

Each token of a stage is checked on its own, but for the word `LIKE`, which is checked together
with the token after it. A stage as a whole needs something to search for: a word, a quoted string,
or a group of flags that may be a pattern in disguise because a letter of it is not supported.

The tokens are given beside the text of the stage. They need not be its tokens, nor need their
texts fit their kinds.

## Main definitions

* `PipeLint.Token.findings`: what is wrong with a token, given the token after it.
* `PipeLint.Token.isSearchable`: the tokens that give a stage something to search for.
* `PipeLint.stageFindings`: what is wrong with a stage.
-/

namespace PipeLint

/-- A letter `A` to `Z` as a small letter; any other character as it is. -/
def lowerLetter (c : Char) : Char :=
  if 'A' ≤ c ∧ c ≤ 'Z' then Char.ofNat (c.toNat + 32) else c

namespace Token

/-- The warnings for the letters of a group that are not supported, if the letters start at a byte
offset. -/
def letterFindings (flags : FlagSet) (offset : Nat) : Text → List Finding
  | [] => []
  | c :: letters =>
    let later := letterFindings flags (offset + c.utf8Size) letters
    if c ∈ flags then later else ⟨.unsupportedFlag c, ⟨offset, c.utf8Size⟩⟩ :: later

/-- What is wrong with a group of flags. -/
def flagFindings (flags : FlagSet) (t : Token) : List Finding :=
  match t.text with
  | ['-'] => [⟨.emptyFlags, t.span⟩]
  | '-' :: letters => letterFindings flags (t.offset + 1) letters
  | _ => [⟨.missingDash, t.span⟩]

/-- Whether a word is the operator `LIKE`, in letters of either case. -/
def isLike (t : Token) : Bool :=
  t.text.map lowerLetter = "like".toList

/-- What is wrong with a word, given the token after it. After `LIKE` there has to be a pattern
with a `%`; without a pattern the word itself is at fault. -/
def wordFindings (t : Token) (next? : Option Token) : List Finding :=
  if t.isLike then
    match next?.filter isPattern with
    | none => [⟨.likeWithoutWildcard, t.span⟩]
    | some pattern =>
      if '%' ∈ pattern.text then [] else [⟨.likeWithoutWildcard, pattern.span⟩]
  else
    []

/-- What is wrong with a token, given the token after it. -/
def findings (flags : FlagSet) (t : Token) (next? : Option Token) : List Finding :=
  match t.kind with
  | .command => []
  | .flags => t.flagFindings flags
  | .quoted => t.quotedFindings
  | .word => t.wordFindings next?
  | .stray => [⟨.strayCharacter, t.span⟩]

/-- Whether a token gives its stage something to search for: a pattern does, and so does a group of
flags with a letter that is not supported, since it may be a pattern that starts with a dash. -/
def isSearchable (flags : FlagSet) (t : Token) : Bool :=
  t.isPattern || (t.text.head? = some '-' && t.flagLetters.any (· ∉ flags))

end Token

/-- What is wrong with the tokens of a stage, one after the other. -/
def tokenFindings (flags : FlagSet) : List Token → List Finding
  | [] => []
  | t :: tokens => t.findings flags tokens.head? ++ tokenFindings flags tokens

/-- What is wrong with a stage, at offsets relative to its text. A blank stage has no faults. -/
def stageFindings (flags : FlagSet) (stage : Text) (tokens : List Token) : List Finding :=
  if stage.Blank then
    []
  else if tokens.any (·.isSearchable flags) then
    tokenFindings flags tokens
  else
    tokenFindings flags tokens ++ [⟨.missingPattern, ⟨0, stage.byteLength⟩⟩]

end PipeLint
