import WaveFinder.Text.Blank
import WaveFinder.Text.CaseTable

/-!
# Text/Lowercase — full lower case

The lower case of a text by the Unicode rules: every character by its own mapping, except that a
capital sigma is final (`ς`) where a cased letter stands before it and none after it, case-ignorable
characters not counting.  Addresses are compared in this form.
-/

namespace WaveFinder.Text

namespace CaseRange

/-- Whether a code point is one that the range shifts. -/
def covers (r : CaseRange) (n : Nat) : Bool :=
  r.first ≤ n && n ≤ r.last && (n - r.first) % r.step == 0

end CaseRange

/-- The Unicode property `Cased`. -/
def isCased (c : Char) : Bool :=
  inRanges casedRanges c

/-- The Unicode property `Case_Ignorable`. -/
def isCaseIgnorable (c : Char) : Bool :=
  inRanges caseIgnorableRanges c

/-- The lower case of one character, without regard to its neighbours.  Only the dotted capital I
has two characters. -/
def lowerChar (c : Char) : List Char :=
  if c.toNat < 128 then
    [c.toLower]
  else if c == 'İ' then
    ['i', '\u0307']
  else
    match lowercaseRanges.find? (fun r => r.covers c.toNat) with
    | some r => [Char.ofNat ((c.toNat : Int) + r.shift).toNat]
    | none => [c]

/-- Whether the first character that is not case-ignorable is cased. -/
def startsCased (cs : List Char) : Bool :=
  match cs.dropWhile isCaseIgnorable with
  | [] => false
  | c :: _ => isCased c

/-- The lower case of a text that follows `before`, which is held in reverse. -/
def lowerAfter (before : List Char) : List Char → List Char
  | [] => []
  | c :: cs =>
    let here :=
      if c == 'Σ' then
        [if startsCased before && !startsCased cs then 'ς' else 'σ']
      else
        lowerChar c
    here ++ lowerAfter (c :: before) cs

/-- The lower case of a text. -/
def lower (cs : List Char) : List Char :=
  lowerAfter [] cs

@[simp]
theorem lower_nil : lower [] = [] := rfl

theorem lowerChar_of_ascii {c : Char} (h : c.toNat < 128) : lowerChar c = [c.toLower] := by
  simp [lowerChar, h]

end WaveFinder.Text
