import CssColor.Text.CaseTable

/-!
# Letter case

Full Unicode lower and upper case. Most characters have one counterpart; some have several, and the
Greek capital sigma has a form of its own at the end of a word.
-/

namespace CssColor.Text

/-- Whether a closed interval of the list contains the character. -/
def inRanges (ranges : List (Nat × Nat)) (c : Char) : Bool :=
  ranges.any fun (first, last) => first ≤ c.toNat && c.toNat ≤ last

/-- Whether casing looks through the character when it asks for the neighbours of a letter. -/
def isCaseIgnorable (c : Char) : Bool := inRanges caseIgnorableRanges c

/-- Whether the character is a letter with case. -/
def isCased (c : Char) : Bool := inRanges casedRanges c

/-- Whether a run contains the character. -/
def CaseRun.contains (run : CaseRun) (c : Char) : Bool :=
  run.first ≤ c.toNat && c.toNat ≤ run.last && (c.toNat - run.first) % run.step == 0

/-- The counterpart of a character in the first run that contains it, else the character itself. -/
def counterpart (runs : List CaseRun) (c : Char) : Char :=
  match runs.find? (·.contains c) with
  | some run => Char.ofNat ((c.toNat : Int) + run.offset).toNat
  | none => c

/-- The lower case of a character regardless of its neighbours. The capital I with a dot keeps the
dot as a combining character. -/
def lowerChar (c : Char) : List Char :=
  if c.toNat < 0x80 then [c.toLower]
  else if c.toNat = 0x130 then ['i', Char.ofNat 0x307]
  else [counterpart lowerRuns c]

/-- The upper case of a character. -/
def upperChar (c : Char) : List Char :=
  if c.toNat < 0x80 then [c.toUpper]
  else match upperExpansions.lookup c.toNat with
    | some expansion => expansion.map Char.ofNat
    | none => [counterpart upperRuns c]

/-- Whether the next character that is not case-ignorable is a letter with case. -/
def startsCased (text : List Char) : Bool :=
  ((text.dropWhile isCaseIgnorable).head?.map isCased).getD false

/-- The lower case of a text. The flag says whether a letter with case comes before it, other than
through case-ignorable characters; a capital sigma after such a letter and before none takes its
final form. -/
def lowerAfter (afterCased : Bool) : List Char → List Char
  | [] => []
  | c :: rest =>
    let lowered :=
      if c.toNat = 0x3A3 ∧ afterCased ∧ !startsCased rest then [Char.ofNat 0x3C2]
      else lowerChar c
    lowered ++ lowerAfter (if isCaseIgnorable c then afterCased else isCased c) rest

/-- The lower case of a text. -/
def lowerChars (text : List Char) : List Char := lowerAfter false text

/-- The lower case of a text. -/
def lower (text : String) : String := String.ofList (lowerChars text.toList)

/-- The upper case of a text. -/
def upper (text : String) : String := String.ofList (text.toList.flatMap upperChar)

end CssColor.Text
